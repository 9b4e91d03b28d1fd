import GreenCompute.Gateway.ApiKeys

/-!
# Minting never escalates

A run of requests to mint keys grows a forest: under each key of the database the keys that it
minted. Keys that are not admins hand on what they have and no more, which is a fact of one request;
that limits only get tighter down a branch follows by induction along it.

An admin key of the database is taken for the master key. It sets the privileges of what it mints as
it asks, admin included, and passes its own limits by. The results are about runs in which admin
keys ask for neither.
-/

namespace GreenCompute

/-! ## Who calls -/

/-- Whose credential a request carries. -/
inductive Caller
  | master
  | provision
  | key (id : KeyId)
  deriving DecidableEq

/-- The caller of a request: the provision secret comes before the master key, and both before the
keys of the database. -/
def callerOf (env : GatewayEnv) (s : KeyStore) (call : PostApiKey) : Option Caller :=
  match (extractApiKeySecret call.authorization call.xApiKey).filter fun secret ↦ secret ≠ [] with
  | none => none
  | some secret =>
    if env.provisionSecret ≠ [] ∧ secret = env.provisionSecret then some .provision
    else if env.adminApiKey ≠ [] ∧ secret = env.adminApiKey then some .master
    else (s.findBySecret secret).map fun r ↦ .key r.1

/-! ## Limits -/

/-- A limit that is no looser than another, which may be unset. -/
def Tighter {α : Type} [LE α] (limit parent : Option α) : Prop :=
  ∀ l ∈ parent, ∃ l' ∈ limit, l' ≤ l

instance {α : Type} [LE α] [DecidableLE α] (limit parent : Option α) :
    Decidable (Tighter limit parent) :=
  inferInstanceAs (Decidable (∀ l ∈ parent, ∃ l' ∈ limit, l' ≤ l))

theorem Tighter.refl {α : Type} [Preorder α] (limit : Option α) : Tighter limit limit :=
  fun l hl ↦ ⟨l, hl, le_rfl⟩

theorem Tighter.trans {α : Type} [Preorder α] {a b c : Option α} (h : Tighter a b)
    (h' : Tighter b c) : Tighter a c := by
  intro l hl
  obtain ⟨l', hl', hle'⟩ := h' l hl
  obtain ⟨l'', hl'', hle''⟩ := h l' hl'
  exact ⟨l'', hl'', hle''.trans hle'⟩

/-- An inherited limit is no looser than the one it is inherited from. -/
theorem tighter_of_inheritLimit {α : Type} [LinearOrder α] {error : MintError}
    {asked limit got : Option α} (h : inheritLimit error asked limit = .ok got) :
    Tighter got limit := by
  intro l hl
  obtain rfl : limit = some l := hl
  cases asked with
  | none =>
    obtain rfl : some l = got := Except.ok.inj h
    exact ⟨l, rfl, le_rfl⟩
  | some a =>
    rw [inheritLimit] at h
    split_ifs at h with hlt
    obtain rfl : some a = got := Except.ok.inj h
    exact ⟨a, rfl, not_lt.mp hlt⟩

/-- The limit in cents that a limit in dollars is kept as. -/
def storedCents (usd : Option ℚ) : Option ℤ := usd.map fun usd ↦ roundHalfEven (usd * 100)

/-- Rounding to cents does not loosen a limit past one that is in whole cents. -/
theorem tighter_storedCents {usd : Option ℚ} {cents : Option ℤ}
    (h : Tighter usd (cents.map fun cents ↦ (cents : ℚ) / 100)) :
    Tighter (storedCents usd) cents := by
  intro c hc
  obtain rfl : cents = some c := hc
  obtain ⟨d, hd, hle⟩ := h _ rfl
  obtain rfl : usd = some d := hd
  refine ⟨roundHalfEven (d * 100), rfl, ?_⟩
  have hround := roundHalfEven_mono (x := d * 100) (y := (c : ℚ)) (by linarith)
  rwa [roundHalfEven_intCast] at hround

namespace ApiKeyRow

/-- A key whose limits are no looser than another's. -/
def NoLooser (row parent : ApiKeyRow) : Prop :=
  Tighter row.maxActiveRentals parent.maxActiveRentals ∧
    Tighter row.dailySpendLimitCents parent.dailySpendLimitCents

theorem NoLooser.trans {row parent ancestor : ApiKeyRow} (h : row.NoLooser parent)
    (h' : parent.NoLooser ancestor) : row.NoLooser ancestor :=
  ⟨h.1.trans h'.1, h.2.trans h'.2⟩

/-- What a key that is no admin may hand on: a key of the same user, no admin, with some of its own
scopes if it has any, and limits no looser than its own. -/
structure WithinReach (row minter : ApiKeyRow) : Prop where
  userId : row.userId = minter.userId
  admin : row.admin = false
  scopes : minter.scopes ≠ [] → row.scopes ≠ [] ∧ row.scopes ⊆ minter.scopes
  limits : row.NoLooser minter

end ApiKeyRow

/-! ## One request -/

private theorem ok_of_bind {ε α β : Type} {x : Except ε α} {f : α → Except ε β} {b : β}
    (h : x >>= f = .ok b) : ∃ a, x = .ok a ∧ f a = .ok b := by
  cases x with
  | error e => exact nomatch h
  | ok a => exact ⟨a, rfl, h⟩

private theorem ok_of_mapError {ε ε' α : Type} {f : ε → ε'} {x : Except ε α} {a : α}
    (h : x.mapError f = .ok a) : x = .ok a := by
  cases x with
  | error e => exact nomatch h
  | ok b => exact congrArg Except.ok (Except.ok.inj h)

/-- A key minted by self-service is within the reach of the caller's. -/
theorem createApiKey_selfService {s : KeyStore} {secret : Text} {request : ApiKeyCreateRequest}
    {id : KeyId} {minter : ApiKeyRow} {key : ApiKeyRecord}
    (h : createApiKey s secret request minter.userId none (some false) false minter.scopes
      (some (KeyStore.toRecord id minter)) = .ok key) :
    key.userId = minter.userId ∧ key.admin = false ∧
      (minter.scopes ≠ [] → key.scopes ≠ [] ∧ key.scopes ⊆ minter.scopes) ∧
      Tighter key.maxActiveRentals minter.maxActiveRentals ∧
      Tighter (storedCents key.dailySpendLimitUsd) minter.dailySpendLimitCents := by
  rw [createApiKey] at h
  obtain ⟨scopes, -, h⟩ := ok_of_bind h
  obtain ⟨_, hnarrower, h⟩ := ok_of_bind h
  obtain ⟨maxActive, hrentals, h⟩ := ok_of_bind h
  obtain ⟨dailyLimit, hdaily, h⟩ := ok_of_bind h
  obtain rfl := Except.ok.inj h
  refine ⟨rfl, rfl, fun hscoped ↦ ?_, tighter_of_inheritLimit hrentals,
    tighter_storedCents (tighter_of_inheritLimit hdaily)⟩
  rw [checkNarrower] at hnarrower
  split_ifs at hnarrower with hbroad
  rw [not_and_or, not_or, not_not, not_not] at hbroad
  exact hbroad.resolve_left (absurd · hscoped)

/-- What a minted key is kept as. -/
def mintedRow (key : ApiKeyRecord) : ApiKeyRow where
  userId := key.userId
  name := key.name
  admin := key.admin
  scopes := key.scopes
  secret := key.secret
  maxActiveRentals := key.maxActiveRentals
  dailySpendLimitCents := storedCents key.dailySpendLimitUsd

theorem KeyStore.get?_saveApiKey (s : KeyStore) (key : ApiKeyRecord) (id : KeyId) :
    (s.saveApiKey key).apiKeys.get? id =
      if id = s.drawn then some (mintedRow key) else s.apiKeys.get? id :=
  Table.get?_insert _ _ _ _

/-- What a caller may have a key minted as. -/
def Permitted (s : KeyStore) (payload : ApiKeyCreateRequest) (row : ApiKeyRow) : Caller → Prop
  | .master => True
  | .provision => row.admin = false
  | .key id => ∃ minter, s.apiKeys.get? id = some minter ∧
      if minter.admin then row.admin = payload.admin ∧
        row.maxActiveRentals = payload.maxActiveRentals ∧
        row.dailySpendLimitCents = storedCents payload.dailySpendLimitUsd
      else row.WithinReach minter

private theorem refuse_ne_ok {α : Type} {throttled : Bool} {status : ℕ} {detail : Text} {a : α} :
    refuse throttled status detail ≠ .ok a := by
  unfold refuse
  split <;> exact fun h ↦ nomatch h

/-- The key that a secret is found under. -/
theorem get?_of_findBySecret {s : KeyStore} {secret : Text} {r : KeyId × ApiKeyRow}
    (h : s.findBySecret secret = some r) : s.apiKeys.get? r.1 = some r.2 :=
  Table.mem_rows_iff.mp (List.mem_of_find?_eq_some h)

/-- The privileged callers are those of the two secrets, and the admin keys. -/
theorem requireProvisionOrAdmin_ok {env : GatewayEnv} {s : KeyStore} {call : PostApiKey}
    {throttled : Bool} {caller : ApiKeyRecord} {isMasterAdmin : Bool}
    (h : requireProvisionOrAdmin env s throttled call.authorization call.xApiKey =
      .ok (caller, isMasterAdmin)) :
    callerOf env s call = some .provision ∧ isMasterAdmin = false ∨
      callerOf env s call = some .master ∨
      ∃ id row, callerOf env s call = some (.key id) ∧ s.apiKeys.get? id = some row ∧
        row.admin = true ∧ isMasterAdmin = true := by
  rw [requireProvisionOrAdmin] at h
  rw [callerOf]
  cases hsecret : (extractApiKeySecret call.authorization call.xApiKey).filter
      (fun secret ↦ secret ≠ []) with
  | none =>
    rw [hsecret] at h
    exact absurd h refuse_ne_ok
  | some secret =>
    rw [hsecret] at h
    dsimp only at h ⊢
    split at h
    · next hprovision =>
      rw [if_pos hprovision]
      exact .inl ⟨rfl, (Prod.ext_iff.mp (Except.ok.inj h)).2.symm⟩
    · next hprovision =>
      rw [if_neg hprovision]
      split at h
      · next hmaster =>
        rw [if_pos hmaster]
        exact .inr (.inl rfl)
      · next hmaster =>
        rw [if_neg hmaster]
        rw [KeyStore.getApiKeyBySecret] at h
        cases hfound : s.findBySecret secret with
        | none =>
          rw [hfound] at h
          exact absurd h refuse_ne_ok
        | some r =>
          rw [hfound] at h
          dsimp only [Option.map_some] at h
          split at h
          · next hadmin =>
            have hflag := (Prod.ext_iff.mp (Except.ok.inj h)).2
            exact .inr (.inr ⟨r.1, r.2, rfl, get?_of_findBySecret hfound, hadmin, hflag.symm⟩)
          · exact absurd h refuse_ne_ok

/-- Whom the privileged path refuses and the other lets in: a key that is no admin. -/
theorem requireApiKey_ok {env : GatewayEnv} {s : KeyStore} {call : PostApiKey}
    {throttled throttledAgain : Bool} {e : HttpError} {method path : Text} {key : ApiKeyRecord}
    (herror : requireProvisionOrAdmin env s throttled call.authorization call.xApiKey = .error e)
    (h : requireApiKey env s throttledAgain method path call.authorization call.xApiKey =
      .ok key) :
    ∃ id row, callerOf env s call = some (.key id) ∧ s.apiKeys.get? id = some row ∧
      row.admin = false ∧ key = KeyStore.toRecord id row := by
  rw [requireApiKey] at h
  rw [requireProvisionOrAdmin] at herror
  rw [callerOf]
  cases hsecret : (extractApiKeySecret call.authorization call.xApiKey).filter
      (fun secret ↦ secret ≠ []) with
  | none =>
    rw [hsecret] at h
    exact absurd h refuse_ne_ok
  | some secret =>
    rw [hsecret] at h herror
    dsimp only at h herror ⊢
    split at herror
    · exact nomatch herror
    · next hprovision =>
      rw [if_neg hprovision]
      split at herror
      · exact nomatch herror
      · next hmaster =>
        rw [if_neg hmaster] at h ⊢
        rw [KeyStore.getApiKeyBySecret] at h herror
        cases hfound : s.findBySecret secret with
        | none =>
          rw [hfound] at h
          exact absurd h refuse_ne_ok
        | some r =>
          rw [hfound] at h herror
          dsimp only [Option.map_some] at h herror
          split at herror
          · exact nomatch herror
          · next hadmin =>
            refine ⟨r.1, r.2, rfl, get?_of_findBySecret hfound,
              Bool.eq_false_of_not_eq_true hadmin, ?_⟩
            cases hchecked : checkScopes (KeyStore.toRecord r.1 r.2) method path with
            | error e => rw [hchecked] at h; exact nomatch h
            | ok u => rw [hchecked] at h; exact (Except.ok.inj h).symm

/-- Whoever has a key minted is one of the three tiers, and gets what that tier may have. -/
theorem permitted_of_createApiKeyRoute {env : GatewayEnv} {call : PostApiKey} {s : KeyStore}
    {key : ApiKeyRecord} (h : createApiKeyRoute env call s = .ok key) :
    ∃ caller, callerOf env s call = some caller ∧
      Permitted s call.payload (mintedRow key) caller := by
  rw [createApiKeyRoute] at h
  cases hprivileged :
      requireProvisionOrAdmin env s call.throttled call.authorization call.xApiKey with
  | ok privileged =>
    obtain ⟨caller, isMasterAdmin⟩ := privileged
    rw [hprivileged] at h
    obtain rfl := Except.ok.inj (ok_of_mapError h)
    rcases requireProvisionOrAdmin_ok hprivileged with ⟨hcaller, rfl⟩ | hcaller |
      ⟨id, row, hcaller, hget, hadmin, rfl⟩
    · exact ⟨.provision, hcaller, Bool.and_false _⟩
    · exact ⟨.master, hcaller, trivial⟩
    · refine ⟨.key id, hcaller, row, hget, ?_⟩
      rw [if_pos hadmin]
      exact ⟨Bool.and_true _, rfl, rfl⟩
  | error e =>
    rw [hprivileged] at h
    dsimp only at h
    split at h
    · exact nomatch h
    · obtain ⟨minter, hminter, h⟩ := ok_of_bind h
      obtain ⟨id, row, hcaller, hget, hadmin, rfl⟩ := requireApiKey_ok hprivileged hminter
      refine ⟨.key id, hcaller, row, hget, ?_⟩
      rw [if_neg (Bool.not_eq_true _ ▸ hadmin)]
      obtain ⟨huser, hadmin', hscopes, hrentals, hdaily⟩ :=
        createApiKey_selfService (ok_of_mapError h)
      exact ⟨huser, hadmin', hscopes, hrentals, hdaily⟩

/-! ## Runs -/

/-- Who had a key minted, and which. -/
structure Mint where
  caller : Caller
  minted : KeyId

/-- The keys, and how they were minted. -/
structure KeyWorld where
  keys : KeyStore
  mints : List Mint

namespace KeyWorld

/-- One request. -/
def post (env : GatewayEnv) (call : PostApiKey) (w : KeyWorld) : KeyWorld where
  keys := w.keys.post env call
  mints := match createApiKeyRoute env call w.keys, callerOf env w.keys call with
    | .ok _, some caller => w.mints ++ [⟨caller, w.keys.drawn⟩]
    | _, _ => w.mints

/-- An admin key of the database that asks neither for an admin nor for looser limits than its
own. -/
def Restrained (env : GatewayEnv) (call : PostApiKey) (s : KeyStore) : Prop :=
  match callerOf env s call with
  | some (.key id) => ∀ minter ∈ s.apiKeys.get? id, minter.admin = true →
      call.payload.admin = false ∧
        Tighter call.payload.maxActiveRentals minter.maxActiveRentals ∧
        Tighter (storedCents call.payload.dailySpendLimitUsd) minter.dailySpendLimitCents
  | _ => True

instance (env : GatewayEnv) (call : PostApiKey) (s : KeyStore) :
    Decidable (Restrained env call s) := by
  unfold Restrained
  split <;> infer_instance

/-- Any number of requests, the admin keys of the database restrained. -/
abbrev Posts (env : GatewayEnv) : KeyWorld → KeyWorld → Prop :=
  Relation.ReflTransGen fun w w' ↦ ∃ call, Restrained env call w.keys ∧ w' = w.post env call

/-- One key is above another in the forest of keys. -/
abbrev Ancestor (w : KeyWorld) : KeyId → KeyId → Prop :=
  Relation.TransGen fun id id' ↦ ⟨.key id, id'⟩ ∈ w.mints

/-- Every minted key is there; only the master key had admins minted; a key minted by one that is
no admin is within its reach, and its limits are no looser than those of any key above it. -/
structure NeverEscalates (w : KeyWorld) : Prop where
  kept : ∀ mint ∈ w.mints, (w.keys.apiKeys.get? mint.minted).isSome
  admins : ∀ mint ∈ w.mints, ∀ row ∈ w.keys.apiKeys.get? mint.minted, row.admin = true →
    mint.caller = .master
  within : ∀ mint ∈ w.mints, ∀ id, mint.caller = .key id →
    ∀ minter ∈ w.keys.apiKeys.get? id, minter.admin = false →
      ∀ row ∈ w.keys.apiKeys.get? mint.minted, row.WithinReach minter ∧
        ∀ above, w.Ancestor above mint.minted →
          ∀ ancestor ∈ w.keys.apiKeys.get? above, row.NoLooser ancestor

/-- What a request adds: the key it mints is one its caller may have. -/
inductive Grows (env : GatewayEnv) (call : PostApiKey) (w : KeyWorld) : KeyWorld → Prop
  | same : Grows env call w w
  | minted (caller : Caller) (key : ApiKeyRecord)
      (permitted : Permitted w.keys call.payload (mintedRow key) caller)
      (named : callerOf env w.keys call = some caller) :
      Grows env call w ⟨w.keys.saveApiKey key, w.mints ++ [⟨caller, w.keys.drawn⟩]⟩

theorem post_grows (env : GatewayEnv) (call : PostApiKey) (w : KeyWorld) :
    Grows env call w (w.post env call) := by
  rw [post, KeyStore.post]
  cases hroute : createApiKeyRoute env call w.keys with
  | error e => exact .same
  | ok key =>
    obtain ⟨caller, hcaller, hpermitted⟩ := permitted_of_createApiKeyRoute hroute
    rw [hcaller]
    exact .minted caller key hpermitted hcaller

/-- The forest of keys, with what is handed down each of its edges. -/
structure Forest (w : KeyWorld) : Prop where
  kept : ∀ mint ∈ w.mints, (w.keys.apiKeys.get? mint.minted).isSome
  parents : ∀ mint ∈ w.mints, ∀ id, mint.caller = .key id → (w.keys.apiKeys.get? id).isSome
  admins : ∀ mint ∈ w.mints, ∀ row ∈ w.keys.apiKeys.get? mint.minted, row.admin = true →
    mint.caller = .master
  within : ∀ mint ∈ w.mints, ∀ id, mint.caller = .key id →
    ∀ minter ∈ w.keys.apiKeys.get? id, ∀ row ∈ w.keys.apiKeys.get? mint.minted,
      row.NoLooser minter ∧ (minter.admin = false → row.WithinReach minter)

theorem get?_saveApiKey_of_isSome {s : KeyStore} {id : KeyId} (h : (s.apiKeys.get? id).isSome)
    (key : ApiKeyRecord) : (s.saveApiKey key).apiKeys.get? id = s.apiKeys.get? id := by
  rw [KeyStore.get?_saveApiKey, if_neg]
  rintro rfl
  rw [s.fresh _ le_rfl] at h
  exact Bool.false_ne_true h

/-- What is handed down to a key that is minted. -/
theorem noLooser_of_permitted {env : GatewayEnv} {call : PostApiKey} {s : KeyStore} {id : KeyId}
    {minter row : ApiKeyRow} (hrestrained : Restrained env call s)
    (hcaller : callerOf env s call = some (.key id)) (hminter : s.apiKeys.get? id = some minter)
    (h : Permitted s call.payload row (.key id)) :
    row.admin = false ∧ row.NoLooser minter ∧
      (minter.admin = false → row.WithinReach minter) := by
  obtain ⟨minter', hminter', hpermitted⟩ := h
  obtain rfl : minter' = minter := Option.some.inj (hminter'.symm.trans hminter)
  split at hpermitted
  · next hadmin =>
    rw [Restrained, hcaller] at hrestrained
    obtain ⟨hnone, hrentals, hdaily⟩ := hrestrained minter' hminter hadmin
    obtain ⟨hrow, hactive, hspend⟩ := hpermitted
    refine ⟨hrow.trans hnone, ⟨hactive ▸ hrentals, hspend ▸ hdaily⟩, fun hplain ↦ ?_⟩
    exact absurd (hadmin.symm.trans hplain) Bool.noConfusion
  · exact ⟨hpermitted.admin, hpermitted.limits, fun _ ↦ hpermitted⟩

theorem Forest.grows {env : GatewayEnv} {call : PostApiKey} {w w' : KeyWorld} (hw : Forest w)
    (hrestrained : Restrained env call w.keys) (h : Grows env call w w') : Forest w' := by
  cases h with
  | same => exact hw
  | minted caller key permitted named =>
    have hminted : (w.keys.saveApiKey key).apiKeys.get? w.keys.drawn = some (mintedRow key) := by
      rw [KeyStore.get?_saveApiKey, if_pos rfl]
    have hcaller : ∀ id, caller = .key id → (w.keys.apiKeys.get? id).isSome := by
      rintro id rfl
      obtain ⟨minter, hminter, -⟩ := permitted
      rw [hminter, Option.isSome_some]
    constructor
    · intro mint hmint
      rcases List.mem_append.mp hmint with hold | hnew
      · rw [get?_saveApiKey_of_isSome (hw.kept mint hold)]
        exact hw.kept mint hold
      · obtain rfl := List.mem_singleton.mp hnew
        rw [hminted, Option.isSome_some]
    · intro mint hmint id hid
      rcases List.mem_append.mp hmint with hold | hnew
      · rw [get?_saveApiKey_of_isSome (hw.parents mint hold id hid)]
        exact hw.parents mint hold id hid
      · obtain rfl := List.mem_singleton.mp hnew
        rw [get?_saveApiKey_of_isSome (hcaller id hid)]
        exact hcaller id hid
    · intro mint hmint row hrow hadmin
      rcases List.mem_append.mp hmint with hold | hnew
      · rw [get?_saveApiKey_of_isSome (hw.kept mint hold)] at hrow
        exact hw.admins mint hold row hrow hadmin
      · obtain rfl := List.mem_singleton.mp hnew
        obtain rfl := Option.some.inj (hminted.symm.trans hrow)
        -- Neither the provision secret nor a key of the database has an admin minted.
        cases caller with
        | master => rfl
        | provision => exact absurd (hadmin.symm.trans permitted) Bool.noConfusion
        | key id =>
          obtain ⟨minter, hminter⟩ := Option.isSome_iff_exists.mp (hcaller id rfl)
          have hplain := (noLooser_of_permitted hrestrained named hminter permitted).1
          exact absurd (hadmin.symm.trans hplain) Bool.noConfusion
    · intro mint hmint id hid minter hminter row hrow
      rcases List.mem_append.mp hmint with hold | hnew
      · rw [get?_saveApiKey_of_isSome (hw.parents mint hold id hid)] at hminter
        rw [get?_saveApiKey_of_isSome (hw.kept mint hold)] at hrow
        exact hw.within mint hold id hid minter hminter row hrow
      · obtain rfl := List.mem_singleton.mp hnew
        obtain rfl : caller = .key id := hid
        rw [get?_saveApiKey_of_isSome (hcaller id rfl)] at hminter
        obtain rfl := Option.some.inj (hminted.symm.trans hrow)
        exact (noLooser_of_permitted hrestrained named hminter permitted).2

/-- Limits only get tighter down a branch. -/
theorem Forest.noLooser {w : KeyWorld} (hw : Forest w) {above id : KeyId}
    (h : w.Ancestor above id) {row ancestor : ApiKeyRow} (hrow : w.keys.apiKeys.get? id = some row)
    (hancestor : w.keys.apiKeys.get? above = some ancestor) : row.NoLooser ancestor := by
  induction h generalizing row with
  | single hmint => exact (hw.within _ hmint _ rfl _ hancestor _ hrow).1
  | tail _ hmint ih =>
    obtain ⟨parent, hparent⟩ := Option.isSome_iff_exists.mp (hw.parents _ hmint _ rfl)
    exact (hw.within _ hmint _ rfl _ hparent _ hrow).1.trans (ih hparent)

theorem Forest.neverEscalates {w : KeyWorld} (hw : Forest w) : NeverEscalates w where
  kept := hw.kept
  admins := hw.admins
  within mint hmint id hcaller minter hminter hadmin row hrow :=
    ⟨(hw.within mint hmint id hcaller minter hminter row hrow).2 hadmin,
      fun _ habove _ hancestor ↦ hw.noLooser habove hrow hancestor⟩

/-- In every run in which the admin keys of the database ask neither for admins nor for looser
limits than their own, no key is minted that escalates. -/
theorem minting_never_escalates {env : GatewayEnv} {w w' : KeyWorld} (hnew : w.mints = [])
    (run : Posts env w w') : NeverEscalates w' := by
  suffices h : Forest w' from h.neverEscalates
  induction run with
  | refl => constructor <;> simp [hnew]
  | tail _ hstep ih =>
    obtain ⟨call, hrestrained, rfl⟩ := hstep
    exact ih.grows hrestrained (post_grows env call _)

private def twoSecrets : GatewayEnv := ⟨"root".toList, "website".toList⟩

private def noKeys : KeyWorld := ⟨⟨.empty, 0, fresh_empty⟩, []⟩

/-- A request with a credential, whose key has that secret. -/
private def asking (credential secret : String) (payload : ApiKeyCreateRequest) : PostApiKey where
  payload := payload
  authorization := none
  xApiKey := some credential.toList
  secret := secret.toList

/-- The master key has a scoped key minted, with a limit of two rentals. -/
private def agentKey : PostApiKey :=
  asking "root" "agent"
    { name := "agent".toList
      userId := some 1
      scopes := ["keys".toList, "read".toList]
      maxActiveRentals := some 2 }

/-- The scoped key has one minted that can only read. -/
private def readerKey : PostApiKey :=
  asking "agent" "reader" { name := "reader".toList, scopes := [" Read".toList] }

/-- A scoped key hands on one of its scopes and its limit. -/
theorem minting_never_escalates_agent :
    ((noKeys.post twoSecrets agentKey).post twoSecrets readerKey).mints.length = 2 ∧
      NeverEscalates ((noKeys.post twoSecrets agentKey).post twoSecrets readerKey) := by
  have first : Restrained twoSecrets agentKey noKeys.keys := by decide +kernel
  have second : Restrained twoSecrets readerKey (noKeys.post twoSecrets agentKey).keys := by
    decide +kernel
  exact ⟨by decide +kernel,
    minting_never_escalates rfl ((Relation.ReflTransGen.single ⟨_, first, rfl⟩).tail
      ⟨_, second, rfl⟩)⟩

/-- The master key has an admin minted, and the admin another. -/
private def opsKey : PostApiKey := asking "root" "ops" { name := "ops".toList, admin := true }

private def opsAgainKey : PostApiKey := asking "ops" "more" { name := "ops".toList, admin := true }

/-- An admin key of the database has an admin minted. -/
theorem admin_minted_by_key :
    ¬NeverEscalates ((noKeys.post twoSecrets opsKey).post twoSecrets opsAgainKey) := by
  intro h
  have hmint : ∃ mint ∈ ((noKeys.post twoSecrets opsKey).post twoSecrets opsAgainKey).mints,
      (∃ row ∈ ((noKeys.post twoSecrets opsKey).post twoSecrets opsAgainKey).keys.apiKeys.get?
        mint.minted, row.admin = true) ∧ mint.caller ≠ .master := by
    decide +kernel
  obtain ⟨mint, hmem, ⟨row, hrow, hadmin⟩, hcaller⟩ := hmint
  exact hcaller (h.admins mint hmem row hrow hadmin)

end KeyWorld

end GreenCompute
