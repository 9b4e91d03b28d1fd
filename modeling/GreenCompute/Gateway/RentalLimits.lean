import GreenCompute.Foundations.Interleaving
import GreenCompute.Gateway.Minting
import GreenCompute.Persistence.KeyLimits

/-!
# The rental limit of a key

A rental is started in two transactions: one counts the rentals that the key has, the next inserts
another. Between the two anyone may start one as well, and the count is of the key alone, not of the
keys that it has minted. `rental_limit_holds` is about the runs in which neither matters: nothing
that the count has missed is there when the rental is inserted, and under each limited key the
rentals of other keys leave room for the limit of the one that starts it.
-/

namespace GreenCompute

/-! ## The tables -/

/-- The keys, how they were minted, and the rentals they have started. -/
structure RentalWorld where
  keys : KeyWorld
  db : KeyLimitsDb

/-- The transactions. -/
inductive LimitOp where
  | getApiKey (k : KeyId)
  | keyActiveRentals (k : KeyId)
  | keySpendCents (k : KeyId) (since : Time)
  | createDeployment (d : DeploymentId) (w : WorkloadId) (k : Option KeyId)
  | updateState (d : DeploymentId) (state : DeploymentState)
  | createApiKey (call : PostApiKey)

/-- What each answers. -/
abbrev LimitOp.Ans : LimitOp → Type
  | getApiKey _ => Option ApiKeyRecord
  | keyActiveRentals _ => ℕ
  | keySpendCents .. => ℤ
  | createDeployment .. | updateState .. | createApiKey _ => Unit

/-- The interface of the tables. -/
abbrev Limits : Interface := ⟨LimitOp, LimitOp.Ans⟩

namespace RentalWorld

/-- Insert a rental under an identifier that is not in use. -/
def createDeployment (d : DeploymentId) (w : WorkloadId) (k : Option KeyId) (s : RentalWorld) :
    RentalWorld :=
  if (s.db.deployments.get? d).isSome then s
  else { s with db := { s.db with deployments := s.db.deployments.insert d ⟨w, k, .pending⟩ } }

/-- Whatever happens to a rental; one that has finished stays finished. -/
def updateState (d : DeploymentId) (state : DeploymentState) (s : RentalWorld) : RentalWorld :=
  { s with db := { s.db with deployments := s.db.deployments.modify d fun row ↦
      if row.state ∈ KeyLimitsDb.finishedStates ∧ state ∉ KeyLimitsDb.finishedStates then row
      else { row with state := state } } }

end RentalWorld

/-- One transaction, with its answer. -/
def LimitOp.exec (env : GatewayEnv) : (o : LimitOp) → RentalWorld → RentalWorld × o.Ans
  | getApiKey k, s => (s, (s.keys.keys.apiKeys.get? k).map (KeyStore.toRecord k))
  | keyActiveRentals k, s => (s, s.db.keyActiveRentals k)
  | keySpendCents k since, s => (s, s.db.keySpendCents k since)
  | createDeployment d w k, s => (s.createDeployment d w k, ())
  | updateState d state, s => (s.updateState d state, ())
  | createApiKey call, s => ({ s with keys := s.keys.post env call }, ())

/-! ## Starting a rental -/

/-- Why a key may not start a rental now. -/
inductive LimitReason where
  | active
  | spend
  deriving DecidableEq

/-- A rental that is asked for. The checks that come before those of the key's limits, and the one
that comes after them, are given by their outcomes. -/
structure RentalRequest where
  deploymentId : DeploymentId
  workloadId : WorkloadId
  since : Time
  admitted : Bool
  canPlace : Bool

namespace RentalRoutes

/-- One transaction as a program. -/
def call (o : LimitOp) : Program Limits o.Ans := Program.op (I := Limits) o

/-- The second half of `key_rental_room`. -/
def spendRoom (k : KeyId) (room : Option ℤ) (dailySpendLimitUsd : Option ℚ) (since : Time) :
    Program Limits (Option ℤ × Option LimitReason) :=
  match dailySpendLimitUsd with
  | none => pure (room, none)
  | some usd => do
    let spent ← call (.keySpendCents k since)
    pure (if roundHalfEven (usd * 100) ≤ spent then (some 0, some .spend) else (room, none))

/-- `key_rental_room` -/
def keyRentalRoom (k : KeyId) (maxActiveRentals : Option ℤ) (dailySpendLimitUsd : Option ℚ)
    (since : Time) : Program Limits (Option ℤ × Option LimitReason) :=
  match maxActiveRentals with
  | none => spendRoom k none dailySpendLimitUsd since
  | some limit => do
    let active ← call (.keyActiveRentals k)
    if limit - active ≤ 0 then pure (some 0, some .active)
    else spendRoom k (some (limit - active)) dailySpendLimitUsd since

/-- `_enforce_key_limits`, of a key that starts a rental, and the check of `create_deployment`:
may it? -/
def enforceKeyLimits (k : KeyId) (key : ApiKeyRecord) (since : Time) : Program Limits Bool :=
  if key.admin = true ∨ key.maxActiveRentals = none ∧ key.dailySpendLimitUsd = none then pure true
  else do
    let (_, why) ← keyRentalRoom k key.maxActiveRentals key.dailySpendLimitUsd since
    pure why.isNone

/-- The check of the key's limits in `create_deployment`; a key that is gone has none. -/
def checkKeyLimits (admin : Bool) (createdByKeyId : Option KeyId) (since : Time) :
    Program Limits Bool :=
  match admin, createdByKeyId with
  | false, some k => do
    match ← call (.getApiKey k) with
    | none => pure true
    | some key => enforceKeyLimits k key since
  | _, _ => pure true

/-- `GatewayService.create_deployment` -/
def createDeployment (req : RentalRequest) (admin : Bool) (createdByKeyId : Option KeyId) :
    Program Limits Unit :=
  if req.admitted then do
    let allowed ← checkKeyLimits admin createdByKeyId req.since
    if allowed = true ∧ (admin = true ∨ req.canPlace = true) then
      call (.createDeployment req.deploymentId req.workloadId createdByKeyId)
    else pure ()
  else pure ()

/-- The route `POST /platform/deployments`, which the MCP tool goes through as well. -/
def postDeployment (k : KeyId) (req : RentalRequest) : Program Limits Unit := do
  match ← call (.getApiKey k) with
  | none => pure ()
  | some key => do
    let allowed ← enforceKeyLimits k key req.since
    if allowed then createDeployment req key.admin (some k) else pure ()

/-- A fleet starts a member; one whose key was deleted is paused. -/
def startMember (createdByKeyId : Option KeyId) (req : RentalRequest) : Program Limits Unit :=
  match createdByKeyId with
  | none => createDeployment req false none
  | some k => do
    match ← call (.getApiKey k) with
    | none => pure ()
    | some _ => createDeployment req false (some k)

end RentalRoutes

/-- The calls, and anything that happens to a rental. -/
inductive LimitCall where
  | postDeployment (k : KeyId) (req : RentalRequest)
  | startMember (createdByKeyId : Option KeyId) (req : RentalRequest)
  | createApiKey (call : PostApiKey)
  | updateState (d : DeploymentId) (state : DeploymentState)

/-- The gateway, as far as keys start rentals and mint keys. -/
def rentalService (env : GatewayEnv) : Service Limits LimitCall RentalWorld where
  exec := LimitOp.exec env
  body
    | .postDeployment k req => RentalRoutes.postDeployment k req
    | .startMember k req => RentalRoutes.startMember k req
    | .createApiKey call => RentalRoutes.call (.createApiKey call)
    | .updateState d state => RentalRoutes.call (.updateState d state)

/-! ## The rentals under a key -/

namespace RentalWorld

variable (s : RentalWorld)

/-- A key is another, or below it in the forest of keys. -/
def Under (k k' : KeyId) : Prop := k' = k ∨ s.keys.Ancestor k k'

open Classical in
/-- The number of unfinished rentals that were started with the keys of some set. -/
noncomputable def activeRentals (p : KeyId → Prop) : ℕ :=
  s.db.deployments.total fun _ row ↦
    if row.state ∉ KeyLimitsDb.finishedStates ∧ ∃ k ∈ row.createdByKeyId, p k then 1 else 0

/-- No key has more unfinished rentals under it than its limit says. -/
def WithinLimits : Prop :=
  ∀ k row m, s.keys.keys.apiKeys.get? k = some row → row.maxActiveRentals = some m →
    (s.activeRentals (s.Under k) : ℤ) ≤ max m 0

end RentalWorld

/-- The counts of a key's rentals that a call has been answered. -/
def countsOf (k : KeyId) (past : List (Event Limits)) : List ℕ :=
  past.filterMap fun e ↦
    match e with
    | ⟨.keyActiveRentals k', n⟩ => if k' = k then some n else none
    | _ => none

/-- When a rental is inserted, its key has no more unfinished rentals than were counted last, and an
admin key has no limit. At the key and at each limited key above it, the other keys have no
unfinished rentals, or leave room for one more beside those that were counted. Admin keys mint with
restraint. -/
def Timely (env : GatewayEnv) (_ : LimitCall) (past : List (Event Limits)) :
    LimitOp → RentalWorld → Prop
  | .createDeployment _ _ (some k), s =>
    (∀ n ∈ (countsOf k past).getLast?, s.db.keyActiveRentals k ≤ n) ∧
      (∀ row ∈ s.keys.keys.apiKeys.get? k, row.admin = true → row.maxActiveRentals = none) ∧
      ∀ a above m, s.Under a k → s.keys.keys.apiKeys.get? a = some above →
        above.maxActiveRentals = some m → s.activeRentals (fun k' ↦ s.Under a k' ∧ k' ≠ k) = 0 ∨
          ∀ n ∈ (countsOf k past).getLast?,
            (s.activeRentals (fun k' ↦ s.Under a k' ∧ k' ≠ k) : ℤ) + n < m
  | .createApiKey call, s => KeyWorld.Restrained env call s.keys.keys
  | _, _ => True

namespace RentalWorld

variable {env : GatewayEnv} {s : RentalWorld}

/-! ### Counting rentals -/

theorem keyActiveRentals_eq (k : KeyId) : s.db.keyActiveRentals k = s.activeRentals (· = k) := by
  have hcount : s.db.keyActiveRentals k =
      s.db.deployments.total fun _ row ↦
        if decide (row.createdByKeyId = some k ∧ row.state ∉ KeyLimitsDb.finishedStates) = true
        then 1 else 0 := by
    rw [Table.total_ite_eq_countP, KeyLimitsDb.keyActiveRentals, Table.select,
      List.countP_eq_length_filter]
  have hrow : ∀ row : RentalRow,
      decide (row.createdByKeyId = some k ∧ row.state ∉ KeyLimitsDb.finishedStates) = true ↔
        row.state ∉ KeyLimitsDb.finishedStates ∧ ∃ k' ∈ row.createdByKeyId, k' = k := by
    intro row
    rw [decide_eq_true_eq, exists_eq_right, Option.mem_def, and_comm]
  rw [hcount, activeRentals]
  congr 1
  funext _ row
  by_cases h : row.state ∉ KeyLimitsDb.finishedStates ∧ ∃ k' ∈ row.createdByKeyId, k' = k
  · rw [if_pos h, if_pos ((hrow row).mpr h)]
  · rw [if_neg h, if_neg (mt (hrow row).mp h)]

private theorem ite_le_ite_add {P Q R : Prop} {_ : Decidable P} {_ : Decidable Q}
    {_ : Decidable R} (h : P → Q ∨ R) : (if P then 1 else 0) ≤ (if Q then 1 else 0) + if R then 1 else 0 := by
  by_cases hP : P
  · rcases h hP with hQ | hR
    · rw [if_pos hP, if_pos hQ]
      omega
    · rw [if_pos hP, if_pos hR]
      omega
  · rw [if_neg hP]
    exact Nat.zero_le _

open Classical in
/-- The rentals of a set of keys are those of one key and those of the others. -/
theorem activeRentals_le_add (p : KeyId → Prop) (k : KeyId) :
    s.activeRentals p ≤ s.activeRentals (fun k' ↦ p k' ∧ k' ≠ k) + s.db.keyActiveRentals k := by
  rw [keyActiveRentals_eq, activeRentals, activeRentals, activeRentals, Table.total, Table.total,
    Table.total, ← List.sum_map_add]
  refine List.sum_le_sum fun r _ ↦ ite_le_ite_add ?_
  rintro ⟨hlive, k', hk', hp⟩
  by_cases hk : k' = k
  · exact Or.inr ⟨hlive, k', hk', hk⟩
  · exact Or.inl ⟨hlive, k', hk', hp, hk⟩

theorem activeRentals_mono {t : RentalWorld} {p : KeyId → Prop} (q : KeyId → Prop)
    (hdb : t.db = s.db)
    (h : ∀ d row k, s.db.deployments.get? d = some row → k ∈ row.createdByKeyId → p k → q k) :
    t.activeRentals p ≤ s.activeRentals q := by
  rw [activeRentals, activeRentals, hdb]
  refine Table.total_le_total fun d row hrow ↦ ?_
  by_cases hp : row.state ∉ KeyLimitsDb.finishedStates ∧ ∃ k ∈ row.createdByKeyId, p k
  · obtain ⟨hlive, k, hk, hpk⟩ := hp
    rw [if_pos ⟨hlive, k, hk, hpk⟩, if_pos ⟨hlive, k, hk, h d row k hrow hk hpk⟩]
  · rw [if_neg hp]
    exact Nat.zero_le _

/-- One more rental. -/
theorem activeRentals_createDeployment (d : DeploymentId) (w : WorkloadId) (key : Option KeyId)
    (p : KeyId → Prop) :
    (s.createDeployment d w key).activeRentals p ≤ s.activeRentals p + 1 ∧
      ((∀ k ∈ key, ¬p k) → (s.createDeployment d w key).activeRentals p ≤ s.activeRentals p) := by
  unfold createDeployment
  split
  · exact ⟨Nat.le_succ _, fun _ ↦ le_rfl⟩
  · next hnew =>
    have hnone : s.db.deployments.get? d = none := Option.not_isSome_iff_eq_none.mp hnew
    unfold activeRentals
    dsimp only
    rw [Table.total_insert, Table.total_of_get?_none hnone]
    constructor
    · split <;> omega
    · intro hp
      rw [if_neg]
      · exact le_rfl
      · rintro ⟨-, k, hk, hpk⟩
        exact hp k hk hpk

open Classical in
/-- What happens to a rental does not make more of them. -/
theorem activeRentals_updateState (d : DeploymentId) (state : DeploymentState)
    (p : KeyId → Prop) : (s.updateState d state).activeRentals p ≤ s.activeRentals p := by
  unfold activeRentals updateState Table.modify
  dsimp only
  rw [Table.total_map]
  refine Table.total_le_total fun d' row _ ↦ ?_
  by_cases hd : d' = d
  · rw [if_pos hd]
    by_cases hfinished : row.state ∈ KeyLimitsDb.finishedStates ∧ state ∉ KeyLimitsDb.finishedStates
    · rw [if_pos hfinished]
    · rw [if_neg hfinished]
      by_cases hlive : state ∉ KeyLimitsDb.finishedStates
      · have hrow : row.state ∉ KeyLimitsDb.finishedStates := fun h ↦ hfinished ⟨h, hlive⟩
        exact (if_congr (and_congr_left fun _ ↦ iff_of_true hlive hrow) rfl rfl).le
      · rw [if_neg fun h ↦ hlive h.1]
        exact Nat.zero_le _
  · rw [if_neg hd]

/-! ### Minting -/

/-- Every rental was started with a key that is there. -/
def Keyed (s : RentalWorld) : Prop :=
  ∀ d row k, s.db.deployments.get? d = some row → k ∈ row.createdByKeyId →
    (s.keys.keys.apiKeys.get? k).isSome

/-- A new key is below its minter only, and nothing is below it. -/
theorem ancestor_of_minted {w : KeyWorld} (hw : w.Forest) {caller : Caller} {key : ApiKeyRecord}
    (hcaller : ∀ id, caller = .key id → (w.keys.apiKeys.get? id).isSome) {a k : KeyId}
    (h : KeyWorld.Ancestor ⟨w.keys.saveApiKey key, w.mints ++ [⟨caller, w.keys.drawn⟩]⟩ a k) :
    a ≠ w.keys.drawn ∧ (k ≠ w.keys.drawn → w.Ancestor a k) := by
  have hfresh : ¬(w.keys.apiKeys.get? w.keys.drawn).isSome := by
    rw [w.keys.fresh _ le_rfl]
    exact Bool.false_ne_true
  -- One edge of the new forest.
  have hedge : ∀ {id id'}, (⟨.key id, id'⟩ : Mint) ∈ w.mints ++ [⟨caller, w.keys.drawn⟩] →
      id ≠ w.keys.drawn ∧ (id' ≠ w.keys.drawn → ⟨.key id, id'⟩ ∈ w.mints) := by
    intro id id' hmem
    rcases List.mem_append.mp hmem with hold | hnew
    · refine ⟨?_, fun _ ↦ hold⟩
      rintro rfl
      exact hfresh (hw.parents _ hold _ rfl)
    · obtain ⟨hcall, hid⟩ := Mint.mk.inj (List.mem_singleton.mp hnew)
      refine ⟨?_, fun hne ↦ absurd hid hne⟩
      rintro rfl
      exact hfresh (hcaller _ hcall.symm)
  induction h with
  | single hmint => exact ⟨(hedge hmint).1, fun hne ↦ .single ((hedge hmint).2 hne)⟩
  | tail _ hmint ih =>
    exact ⟨ih.1, fun hne ↦ (ih.2 (hedge hmint).1).tail ((hedge hmint).2 hne)⟩

theorem WithinLimits.mint (h : s.WithinLimits) (hforest : s.keys.Forest) (hkeyed : s.Keyed)
    {call : PostApiKey} {w : KeyWorld} (hgrows : KeyWorld.Grows env call s.keys w) :
    WithinLimits ⟨w, s.db⟩ ∧ Keyed ⟨w, s.db⟩ := by
  cases hgrows with
  | same => exact ⟨h, hkeyed⟩
  | minted caller key permitted named =>
    have hcaller : ∀ id, caller = .key id → (s.keys.keys.apiKeys.get? id).isSome := by
      rintro id rfl
      obtain ⟨minter, hminter, -⟩ := permitted
      rw [hminter, Option.isSome_some]
    have hold : ∀ d row k, s.db.deployments.get? d = some row → k ∈ row.createdByKeyId →
        k ≠ s.keys.keys.drawn := by
      intro d row k hrow hk heq
      have hsome := hkeyed d row k hrow hk
      rw [heq, s.keys.keys.fresh _ le_rfl] at hsome
      exact Bool.false_ne_true hsome
    constructor
    · intro k row m hrow hm
      rw [KeyStore.get?_saveApiKey] at hrow
      by_cases hk : k = s.keys.keys.drawn
      · -- Nothing was started with the new key, and nothing is below it.
        have hzero : ∀ t : RentalWorld, t.activeRentals (fun _ ↦ False) = 0 := fun t ↦ by
          simp [activeRentals, Table.total]
        refine le_trans (Nat.cast_le.mpr (activeRentals_mono (fun _ ↦ False) rfl ?_)) ?_
        · intro d row' k' hrow' hk' hunder
          rcases hunder with rfl | hbelow
          · exact hold d row' _ hrow' hk' hk
          · exact (ancestor_of_minted hforest hcaller hbelow).1 hk
        · rw [hzero]
          exact le_max_right _ _
      · rw [if_neg hk] at hrow
        refine le_trans ?_ (h k row m hrow hm)
        refine Nat.cast_le.mpr (activeRentals_mono _ rfl fun d row' k' hrow' hk' hunder ↦ ?_)
        rcases hunder with rfl | hbelow
        · exact Or.inl rfl
        · exact Or.inr ((ancestor_of_minted hforest hcaller hbelow).2 (hold d row' k' hrow' hk'))
    · intro d row k hrow hk
      rw [KeyStore.get?_saveApiKey, if_neg (hold d row k hrow hk)]
      exact hkeyed d row k hrow hk

/-! ### The invariant -/

/-- What holds between transactions: the limits, and what they rest on. -/
structure Bounded (s : RentalWorld) : Prop where
  within : s.WithinLimits
  forest : s.keys.Forest
  keyed : s.Keyed

/-- A key that has been read is there, as it was, from then on. -/
def limitContract : Contract RentalWorld where
  inv := Bounded
  rel s t := ∀ k row, s.keys.keys.apiKeys.get? k = some row → t.keys.keys.apiKeys.get? k = some row
  refl _ _ _ h := h
  trans h h' k row hrow := h' k row (h k row hrow)

/-- The answers so far let a key start one more rental. -/
def Checked (k : KeyId) (row : ApiKeyRow) (past : List (Event Limits)) : Prop :=
  row.admin = false → ∀ m ∈ row.maxActiveRentals, ∃ n ∈ (countsOf k past).getLast?, (n : ℤ) < m

@[simp] theorem createDeployment_keys (d : DeploymentId) (w : WorkloadId) (key : Option KeyId) :
    (s.createDeployment d w key).keys = s.keys := by
  unfold createDeployment
  split <;> rfl

theorem under_createDeployment (d : DeploymentId) (w : WorkloadId) (key : Option KeyId) :
    (s.createDeployment d w key).Under = s.Under := by
  funext k k'
  rw [Under, Under, createDeployment_keys]

theorem Keyed.createDeployment (h : s.Keyed) (d : DeploymentId) (w : WorkloadId)
    {key : Option KeyId} (hkey : ∀ k ∈ key, (s.keys.keys.apiKeys.get? k).isSome) :
    (s.createDeployment d w key).Keyed := by
  intro d' row k hrow hk
  rw [createDeployment_keys]
  by_cases hused : (s.db.deployments.get? d).isSome
  · rw [RentalWorld.createDeployment, if_pos hused] at hrow
    exact h d' row k hrow hk
  · rw [RentalWorld.createDeployment, if_neg hused] at hrow
    by_cases hd : d' = d
    · rw [hd, Table.get?_insert_self] at hrow
      obtain rfl := Option.some.inj hrow
      exact hkey k hk
    · rw [Table.get?_insert_ne _ hd] at hrow
      exact h d' row k hrow hk

/-- One more rental, started with a key that the last count lets start one. -/
theorem Bounded.createDeployment (h : s.Bounded) {c : LimitCall} {past : List (Event Limits)}
    {d : DeploymentId} {w : WorkloadId} {k : KeyId} {row : ApiKeyRow}
    (hrow : s.keys.keys.apiKeys.get? k = some row) (hchecked : Checked k row past)
    (timely : Timely env c past (.createDeployment d w (some k)) s) :
    (s.createDeployment d w (some k)).Bounded := by
  obtain ⟨hlast, hadmin, hroom⟩ := timely
  have hpresent : ∀ k' ∈ some k, (s.keys.keys.apiKeys.get? k').isSome := by
    rintro _ ⟨⟩
    rw [hrow, Option.isSome_some]
  refine ⟨fun a above m habove hm ↦ ?_, ?_, h.keyed.createDeployment d w hpresent⟩
  · rw [createDeployment_keys] at habove
    rw [under_createDeployment]
    have hbefore := h.within a above m habove hm
    obtain ⟨hafter, hsame⟩ := s.activeRentals_createDeployment d w (some k) (s.Under a)
    by_cases hunder : s.Under a k
    · -- The key has a limit, which is no looser than the one above it.
      have htighter : Tighter row.maxActiveRentals above.maxActiveRentals := by
        rcases hunder with rfl | hbelow
        · obtain rfl := Option.some.inj (hrow.symm.trans habove)
          exact .refl _
        · exact (h.forest.noLooser hbelow hrow habove).1
      obtain ⟨limit, hlimit, hle⟩ := htighter m hm
      have hplain : row.admin = false := by
        by_contra hne
        have hnone := hadmin row hrow (Bool.eq_true_of_not_eq_false hne)
        rw [hnone] at hlimit
        cases hlimit
      -- What its last count said still holds, so there is room under the key above.
      obtain ⟨n, hn, hlt⟩ := hchecked hplain limit hlimit
      have hcount := hlast n hn
      have hsplit := s.activeRentals_le_add (s.Under a) k
      have hroom' : (s.activeRentals (fun k' ↦ s.Under a k' ∧ k' ≠ k) : ℤ) + n < m := by
        rcases hroom a above m hunder habove hm with hzero | hleft
        · rw [hzero]
          omega
        · exact hleft n hn
      omega
    · have hless := hsame fun k' hk' ↦ by
        obtain rfl := Option.some.inj hk'
        exact hunder
      omega
  · rw [createDeployment_keys]
    exact h.forest

/-- A rental that no key has started. -/
theorem Bounded.createDeployment_none (h : s.Bounded) (d : DeploymentId) (w : WorkloadId) :
    (s.createDeployment d w none).Bounded := by
  refine ⟨fun a above m habove hm ↦ ?_, ?_, h.keyed.createDeployment d w (fun _ h ↦ nomatch h)⟩
  · rw [createDeployment_keys] at habove
    rw [under_createDeployment]
    have hbefore := h.within a above m habove hm
    have hless := (s.activeRentals_createDeployment d w none (s.Under a)).2 (fun _ h ↦ nomatch h)
    omega
  · rw [createDeployment_keys]
    exact h.forest

theorem Bounded.updateState (h : s.Bounded) (d : DeploymentId) (state : DeploymentState) :
    (s.updateState d state).Bounded := by
  refine ⟨fun a above m habove hm ↦ ?_, h.forest, fun d' row k hrow hk ↦ ?_⟩
  · have hbefore := h.within a above m habove hm
    exact (Nat.cast_le.mpr (s.activeRentals_updateState d state _)).trans hbefore
  · obtain ⟨old, hold, hcreated⟩ : ∃ old, s.db.deployments.get? d' = some old ∧
        old.createdByKeyId = row.createdByKeyId := by
      rw [RentalWorld.updateState] at hrow
      dsimp only at hrow
      rw [Table.get?_modify] at hrow
      by_cases hd : d' = d
      · rw [if_pos hd] at hrow
        obtain ⟨old, hold, rfl⟩ := Option.map_eq_some_iff.mp hrow
        refine ⟨old, hold, ?_⟩
        split <;> rfl
      · rw [if_neg hd] at hrow
        exact ⟨row, hrow, rfl⟩
    exact h.keyed d' old k hold (hcreated ▸ hk)

theorem Bounded.post (h : s.Bounded) {call : PostApiKey}
    (hrestrained : KeyWorld.Restrained env call s.keys.keys) :
    Bounded { s with keys := s.keys.post env call } := by
  have hgrows := KeyWorld.post_grows env call s.keys
  obtain ⟨hwithin, hkeyed⟩ := h.within.mint h.forest h.keyed hgrows
  exact ⟨hwithin, h.forest.grows hrestrained hgrows, hkeyed⟩

theorem kept_post (call : PostApiKey) :
    limitContract.rel s { s with keys := s.keys.post env call } := by
  intro k row hrow
  have hgrows := KeyWorld.post_grows env call s.keys
  revert hgrows
  dsimp only
  generalize s.keys.post env call = w
  rintro (_ | ⟨caller, key, -, -⟩)
  · exact hrow
  · rw [KeyWorld.get?_saveApiKey_of_isSome (by rw [hrow, Option.isSome_some])]
    exact hrow

/-! ### The calls -/

/-- A method, or the rest of one, keeps the limits and ends as said. -/
abbrev KeepsLimits (env : GatewayEnv) (c : LimitCall) {α : Type}
    (Q : α → List (Event Limits) → RentalWorld → Prop) (p : Program Limits α)
    (past : List (Event Limits)) (s : RentalWorld) : Prop :=
  Program.Safe (rentalService env).toMachine limitContract (Timely env c) Q p past s

variable {c : LimitCall} {past : List (Event Limits)} {k : KeyId} {row : ApiKeyRow}

theorem keepsLimits_spendRoom (room : Option ℤ) (usd : Option ℚ) (since : Time) :
    KeepsLimits env c (fun _ past' _ ↦ countsOf k past' = countsOf k past)
      (RentalRoutes.spendRoom k room usd since) past s := by
  cases usd with
  | none => exact fun _ _ _ ↦ rfl
  | some usd =>
    refine Program.Safe.op_bind fun t _ ht _ _ ↦ ⟨ht, limitContract.refl t, fun _ _ _ ↦ ?_⟩
    exact (List.filterMap_append ..).trans (List.append_nil _)

/-- When there is room, the last count was under the limit. -/
theorem keepsLimits_keyRentalRoom (maxActiveRentals : Option ℤ) (usd : Option ℚ) (since : Time) :
    KeepsLimits env c (fun room past' _ ↦ room.2 = none → ∀ m ∈ maxActiveRentals,
        ∃ n ∈ (countsOf k past').getLast?, (n : ℤ) < m)
      (RentalRoutes.keyRentalRoom k maxActiveRentals usd since) past s := by
  cases maxActiveRentals with
  | none => exact (keepsLimits_spendRoom none usd since).mono fun _ _ _ _ _ _ h ↦ nomatch h
  | some limit =>
    refine Program.Safe.op_bind fun t _ ht _ _ ↦ ⟨ht, limitContract.refl t, ?_⟩
    show KeepsLimits env c _ (if limit - (t.db.keyActiveRentals k : ℤ) ≤ 0 then _ else _) _ t
    split
    · exact fun _ _ _ h ↦ nomatch h
    · next hroom =>
      refine (keepsLimits_spendRoom _ usd since).mono ?_
      rintro room past' - hcounts - _ ⟨⟩
      refine ⟨t.db.keyActiveRentals k, ?_, by omega⟩
      have hlast : countsOf k (past ++ [⟨.keyActiveRentals k, t.db.keyActiveRentals k⟩]) =
          countsOf k past ++ [t.db.keyActiveRentals k] := by
        simp [countsOf]
      exact (hcounts.trans hlast) ▸ List.getLast?_concat

theorem keepsLimits_enforceKeyLimits (since : Time) :
    KeepsLimits env c (fun allowed past' _ ↦ allowed = true → Checked k row past')
      (RentalRoutes.enforceKeyLimits k (KeyStore.toRecord k row) since) past s := by
  unfold RentalRoutes.enforceKeyLimits
  split
  · next hfree =>
    intro _ _ _ _ hplain m hm
    rcases hfree with hadmin | ⟨hnone, -⟩
    · exact absurd (hadmin.symm.trans hplain) Bool.noConfusion
    · exact absurd (hnone.symm.trans hm) (fun h ↦ nomatch h)
  · refine (keepsLimits_keyRentalRoom row.maxActiveRentals _ since).bind fun room past' t hroom ↦ ?_
    intro u htu hu hnone _
    exact hroom u htu hu (Option.isNone_iff_eq_none.mp hnone)

/-- The check of `create_deployment`. -/
theorem keepsLimits_checkKeyLimits (hrow : s.keys.keys.apiKeys.get? k = some row) (since : Time) :
    KeepsLimits env c (fun allowed past' _ ↦ allowed = true → Checked k row past')
      (RentalRoutes.checkKeyLimits false (some k) since) past s := by
  refine Program.Safe.op_bind fun t hst ht _ _ ↦ ⟨ht, limitContract.refl t, ?_⟩
  have hread : ((rentalService env).exec (.getApiKey k) t).2 =
      some (KeyStore.toRecord k row) := by
    show (t.keys.keys.apiKeys.get? k).map (KeyStore.toRecord k) = _
    rw [hst k row hrow, Option.map_some]
  rw [hread]
  exact keepsLimits_enforceKeyLimits since

/-- A key that has been read stays. -/
theorem stays : ∀ {s t}, limitContract.rel s t → s.keys.keys.apiKeys.get? k = some row →
    t.keys.keys.apiKeys.get? k = some row :=
  fun hst hs ↦ hst k row hs

theorem kept_of_keys {t : RentalWorld} (h : t.keys = s.keys) : limitContract.rel s t := by
  intro k row hrow
  rw [h]
  exact hrow

/-- A rental that a key starts is inserted after a check that lets it. -/
theorem keepsLimits_createDeployment (hrow : s.keys.keys.apiKeys.get? k = some row)
    (req : RentalRequest) {admin : Bool} (hadmin : admin = true → row.admin = true) :
    KeepsLimits env c (fun _ _ _ ↦ True)
      (RentalRoutes.createDeployment req admin (some k)) past s := by
  unfold RentalRoutes.createDeployment
  split
  · have hcheck : KeepsLimits env c (fun allowed past' _ ↦ allowed = true → Checked k row past')
        (RentalRoutes.checkKeyLimits admin (some k) req.since) past s := by
      cases admin with
      | false => exact keepsLimits_checkKeyLimits hrow req.since
      | true =>
        intro _ _ _ _ hplain
        exact absurd (hplain.symm.trans (hadmin rfl)) Bool.noConfusion
    refine (hcheck.carry stays hrow).seq ?_
    rintro allowed past' t - ⟨hchecked, ht⟩
    split
    · next hgo =>
      refine Program.Safe.op_bind fun u htu hu _ timely ↦ ?_
      have hinsert := hu.createDeployment (htu k row ht) (hchecked hgo.1) timely
      exact ⟨hinsert, kept_of_keys (createDeployment_keys ..), fun _ _ _ ↦ trivial⟩
    · exact fun _ _ _ ↦ trivial
  · exact fun _ _ _ ↦ trivial

/-- A rental that no key starts is inserted unchecked. -/
theorem keepsLimits_createDeployment_none (req : RentalRequest) :
    KeepsLimits env c (fun _ _ _ ↦ True) (RentalRoutes.createDeployment req false none) past s := by
  unfold RentalRoutes.createDeployment
  split
  · show KeepsLimits env c _ (if true = true ∧ (false = true ∨ req.canPlace = true) then _ else _) _ s
    split
    · refine Program.Safe.op_bind fun t _ ht _ _ ↦ ?_
      exact ⟨ht.createDeployment_none _ _, kept_of_keys (createDeployment_keys ..),
        fun _ _ _ ↦ trivial⟩
    · exact fun _ _ _ ↦ trivial
  · exact fun _ _ _ ↦ trivial

/-- What follows the reading of a key is taken up with the key that is there. -/
theorem keepsLimits_getApiKey {rest : ApiKeyRecord → Program Limits Unit}
    (h : ∀ t past row, t.keys.keys.apiKeys.get? k = some row →
      KeepsLimits env c (fun _ _ _ ↦ True) (rest (KeyStore.toRecord k row)) past t) :
    KeepsLimits env c (fun _ _ _ ↦ True) (do
      match ← RentalRoutes.call (.getApiKey k) with
      | none => pure ()
      | some key => rest key) past s := by
  refine Program.Safe.op_bind fun t _ ht _ _ ↦ ⟨ht, limitContract.refl t, ?_⟩
  have hread : ((rentalService env).exec (.getApiKey k) t).2 =
      (t.keys.keys.apiKeys.get? k).map (KeyStore.toRecord k) := rfl
  rw [hread]
  cases hrow : t.keys.keys.apiKeys.get? k with
  | none => exact fun _ _ _ ↦ trivial
  | some row => exact h t _ row hrow

theorem keepsLimits_body (c : LimitCall) (past : List (Event Limits)) (s : RentalWorld) :
    KeepsLimits env c (fun _ _ _ ↦ True) ((rentalService env).body c) past s := by
  cases c with
  | postDeployment k req =>
    refine keepsLimits_getApiKey fun t past row hrow ↦ ?_
    refine ((keepsLimits_enforceKeyLimits req.since).carry stays hrow).seq ?_
    rintro allowed past' u - ⟨-, hu⟩
    split
    · exact keepsLimits_createDeployment hu req id
    · exact fun _ _ _ ↦ trivial
  | startMember key req =>
    cases key with
    | none => exact keepsLimits_createDeployment_none req
    | some k =>
      exact keepsLimits_getApiKey fun t past row hrow ↦
        keepsLimits_createDeployment hrow req (fun h ↦ absurd h Bool.false_ne_true)
  | createApiKey call =>
    exact Program.Safe.op_bind fun t _ ht _ restrained ↦
      ⟨ht.post restrained, kept_post call, fun _ _ _ ↦ trivial⟩
  | updateState d state =>
    exact Program.Safe.op_bind fun t _ ht _ _ ↦
      ⟨ht.updateState d state, kept_of_keys rfl, fun _ _ _ ↦ trivial⟩

/-- **The rental limit of a key.** In every interleaving of requests, fleets and mints in which each
rental is inserted in time, no key has more unfinished rentals under it than its limit says. -/
theorem rental_limit_holds (env : GatewayEnv) {w w' : World Limits LimitCall RentalWorld}
    (unminted : w.store.keys.mints = []) (unrented : w.store.db.deployments = .empty)
    (idle : w.threads = []) (run : (rentalService env).Reaches (Timely env) w w') :
    w'.store.WithinLimits := by
  have hbounded : w.store.Bounded := by
    refine ⟨fun k row m _ _ ↦ ?_, by constructor <;> simp [unminted], fun d row k hrow _ ↦ ?_⟩
    · rw [activeRentals, unrented]
      exact le_max_right _ _
    · rw [unrented] at hrow
      cases hrow
  have hmeets := run.sound (K := limitContract) (Q := fun _ _ _ ↦ True)
    (fun c s _ ↦ keepsLimits_body c [] s) hbounded idle
  exact hmeets.1.inv.within

/-! ### Runs -/

private def anyEnv : GatewayEnv := ⟨[], []⟩

/-- One key, which may have one rental. -/
private def oneRentalKey : World Limits LimitCall RentalWorld where
  store.keys.keys := KeyStore.saveApiKey ⟨.empty, 0, fresh_empty⟩
    { keyId := none
      userId := some 1
      name := "agent".toList
      admin := false
      scopes := []
      secret := "agent".toList
      maxActiveRentals := some 1
      dailySpendLimitUsd := none }
  store.keys.mints := []
  store.db := ⟨.empty, [], .empty⟩
  threads := []

private def asked (d : DeploymentId) : LimitCall :=
  .postDeployment 0 ⟨d, "pod".toList, 0, true, true⟩

/-- Each rental is the first there is, and no admin starts it. -/
private def Firsts : Guard Limits LimitCall RentalWorld
  | _, _, .createDeployment _ _ (some k), s =>
    s.db.deployments.rows = [] ∧ ∀ row ∈ s.keys.keys.apiKeys.get? k, row.admin = false
  | _, _, .createApiKey _, _ => False
  | _, _, _, _ => True

private instance (c : LimitCall) (past : List (Event Limits)) (o : LimitOp) (s : RentalWorld) :
    Decidable (Firsts c past o s) := by
  unfold Firsts
  split <;> infer_instance

private theorem timely_of_firsts (env : GatewayEnv) (c : LimitCall) (past : List (Event Limits)) (o : LimitOp)
    (s : RentalWorld) (h : Firsts c past o s) : Timely env c past o s := by
  unfold Firsts at h
  split at h
  · next k _ _ =>
    obtain ⟨hnone, hplain⟩ := h
    refine ⟨fun n _ ↦ ?_, fun row hrow hadmin ↦ ?_, fun a above m _ _ _ ↦ Or.inl ?_⟩
    · rw [KeyLimitsDb.keyActiveRentals, Table.select, hnone]
      exact Nat.zero_le n
    · exact absurd (hadmin.symm.trans (hplain row hrow)) Bool.noConfusion
    · rw [activeRentals, Table.total, hnone]
      rfl
  · exact h.elim
  · unfold Timely
    split <;> simp_all

/-- A key that may have one rental starts one. -/
theorem rental_limit_holds_one :
    ∃ w', (rentalService anyEnv).Reaches (Timely anyEnv) oneRentalKey w' ∧
      w'.store.db.keyActiveRentals 0 = 1 ∧ w'.store.WithinLimits := by
  obtain ⟨w', run, hone⟩ := Service.exists_reaches_of_replay (S := rentalService anyEnv)
    (G := Firsts) (w := oneRentalKey) (P := fun w' ↦ w'.store.db.keyActiveRentals 0 = 1)
    ([.start (asked 1)] ++ List.replicate 5 (.step 0)) (by decide +kernel)
  have run' := run.weaken (timely_of_firsts anyEnv)
  exact ⟨w', run', hone, rental_limit_holds anyEnv rfl rfl rfl run'⟩

/-- Two requests that both count before either inserts start two. -/
theorem counted_before_inserted :
    ¬∀ (env : GatewayEnv) (w w' : World Limits LimitCall RentalWorld),
      w.store.keys.mints = [] → w.store.db.deployments = .empty → w.threads = [] →
        (rentalService env).Reaches Guard.free w w' → w'.store.WithinLimits := by
  intro h
  obtain ⟨w', run, htwo, hlimit⟩ := Service.exists_reaches_of_replay (S := rentalService anyEnv)
    (G := Guard.free) (w := oneRentalKey)
    (P := fun w' ↦ w'.store.db.keyActiveRentals 0 = 2 ∧
      (w'.store.keys.keys.apiKeys.get? 0).map ApiKeyRow.maxActiveRentals = some (some 1))
    ([.start (asked 1), .start (asked 2)] ++ List.replicate 4 (.step 0) ++
      List.replicate 5 (.step 1) ++ [.step 0]) (by decide +kernel)
  obtain ⟨row, hrow, hone⟩ := Option.map_eq_some_iff.mp hlimit
  have hwithin := h anyEnv oneRentalKey w' rfl rfl rfl run 0 row 1 hrow hone
  have hunder : w'.store.db.keyActiveRentals 0 ≤ w'.store.activeRentals (w'.store.Under 0) := by
    rw [keyActiveRentals_eq]
    exact activeRentals_mono _ rfl fun _ _ _ _ _ hk ↦ Or.inl hk
  omega

end RentalWorld

end GreenCompute
