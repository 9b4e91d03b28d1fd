import GreenCompute.ControlPlane.Tables
import GreenCompute.Foundations.Interleaving

/-!
# Registering a miner

A miner registers with a signed request: under its hotkey, or with an HMAC under a secret. A hotkey
that is registered must sign as itself or under the secret on file; only one never seen before may
bring its first secret. The route looks the hotkey up to decide which, checks the signature, and
then stores the registration, each in a transaction of its own, so the registration on file may be
another one by the time it is replaced.
-/

namespace GreenCompute

/-! ## Requests -/

/-- `MinerRegistration`, and a row of `miners`. -/
structure MinerRegistration where
  hotkey : Hotkey
  payoutAddress : Text
  apiBaseUrl : Text
  validatorUrl : Text
  authSecret : Text
  drained : Bool
  supportedWorkloadKinds : List WorkloadKind
  deriving DecidableEq

/-- `SignedRequest` -/
structure SignedRequest where
  actorId : Hotkey
  nonce : Text
  timestamp : ℤ
  signature : Text
  authMode : Text

/-- The headers of a miner's request. A header that is missing or empty is none; of the time stamp
there is also whether it reads as a number. -/
structure MinerHeaders where
  hotkey : Option Hotkey
  signature : Option Text
  nonce : Option Text
  timestamp : Option (Option ℤ)
  authMode : Option Text

/-- The mode that a request asks for. -/
def MinerHeaders.mode (headers : MinerHeaders) : Text := headers.authMode.getD "hmac".toList

/-- A request to register: its body as it was sent, and what that says. -/
structure RegisterRequest where
  payload : MinerRegistration
  rawBody : Text
  headers : MinerHeaders

/-- `HTTPException` -/
structure HttpError where
  status : ℕ
  detail : Text
  deriving DecidableEq

/-- The protocol's checks of a signature, apart from its nonce: under the hotkey of the actor, and
with an HMAC under a secret; and the reason it gives for a refusal. -/
structure Signatures where
  byHotkey : SignedRequest → Text → Bool
  byHmac : Text → SignedRequest → Text → Bool
  reason : SignedRequest → Text → Option Text

/-! ## The registry -/

/-- The tables that registering reads and writes, and the nonces seen by the process. -/
structure Registry where
  miners : Table Hotkey MinerRegistration
  whitelist : List Hotkey
  nonces : List (Hotkey × Text)

/-- The transactions, and the two checks, which use a nonce up. -/
inductive RegistryOp where
  | getMiner (hotkey : Hotkey)
  | verifyPayloadHotkey (signed : SignedRequest) (body : Text)
  | verifyPayload (secret : Text) (signed : SignedRequest) (body : Text)
  | isHotkeyWhitelisted (hotkey : Hotkey)
  | upsertMiner (registration : MinerRegistration)

/-- What each answers. -/
abbrev RegistryOp.Ans : RegistryOp → Type
  | getMiner _ => Option MinerRegistration
  | verifyPayloadHotkey .. | verifyPayload .. | isHotkeyWhitelisted _ => Bool
  | upsertMiner _ => Unit

/-- The interface of the registry. -/
abbrev RegistryInterface : Interface := ⟨RegistryOp, RegistryOp.Ans⟩

namespace Registry

/-- Accept a valid signature, once for each nonce of an actor. -/
def accept (valid : Bool) (signed : SignedRequest) (s : Registry) : Registry × Bool :=
  if valid && (signed.actorId, signed.nonce) ∉ s.nonces then
    ({ s with nonces := (signed.actorId, signed.nonce) :: s.nonces }, true)
  else (s, false)

/-- `upsert_miner`: a miner that is on file stays drained or not, as it is. -/
def upsertMiner (registration : MinerRegistration) (s : Registry) : Registry :=
  { s with
    miners := s.miners.insert registration.hotkey
      { registration with
        drained := match s.miners.get? registration.hotkey with
          | none => registration.drained
          | some existing => existing.drained } }

end Registry

/-- One transaction or check, with its answer. -/
def RegistryOp.exec (signatures : Signatures) : (o : RegistryOp) → Registry → Registry × o.Ans
  | getMiner hotkey, s => (s, s.miners.get? hotkey)
  | verifyPayloadHotkey signed body, s => s.accept (signatures.byHotkey signed body) signed
  | verifyPayload secret signed body, s => s.accept (signatures.byHmac secret signed body) signed
  | isHotkeyWhitelisted hotkey, s => (s, decide (hotkey ∈ s.whitelist))
  | upsertMiner registration, s => (s.upsertMiner registration, ())

namespace MinerRoutes

/-- One transaction as a program. -/
def ask (o : RegistryOp) : Program RegistryInterface o.Ans := Program.op (I := RegistryInterface) o

section

variable (whitelistEnabled : Bool) (signatures : Signatures)

/-- What the headers are refused for, or the request as it is signed. -/
def signedRequest (expectedHotkey : Hotkey) (headers : MinerHeaders) :
    Except HttpError SignedRequest :=
  match headers.hotkey with
  | none => .error ⟨401, "missing miner hotkey header".toList⟩
  | some hotkey =>
    if hotkey ≠ expectedHotkey then .error ⟨403, "miner hotkey mismatch".toList⟩
    else match headers.signature with
    | none => .error ⟨401, "missing miner signature".toList⟩
    | some signature => match headers.nonce with
      | none => .error ⟨401, "missing miner nonce".toList⟩
      | some nonce => match headers.timestamp with
        | none => .error ⟨401, "missing miner timestamp".toList⟩
        | some none => .error ⟨401, "invalid miner timestamp".toList⟩
        | some (some timestamp) =>
          .ok ⟨expectedHotkey, nonce, timestamp, signature, headers.mode⟩

/-- What is left once a signature is checked. -/
def admitRequest (expectedHotkey : Hotkey) (signed : SignedRequest) (body : Text) (valid : Bool) :
    Program RegistryInterface (Except HttpError Unit) :=
  if !valid then
    pure (.error ⟨401, ((signatures.reason signed body).filter (· ≠ [])).getD
      "invalid miner signature".toList⟩)
  else if !whitelistEnabled then pure (.ok ())
  else do
    if ← ask (.isHotkeyWhitelisted expectedHotkey) then pure (.ok ())
    else pure (.error ⟨403, "hotkey not whitelisted".toList⟩)

/-- `require_miner_request` -/
def requireMinerRequest (expectedHotkey : Hotkey) (body : Text) (headers : MinerHeaders)
    (allowUnregistered : Bool) (registrationSecret : Option Text) :
    Program RegistryInterface (Except HttpError Unit) :=
  match signedRequest expectedHotkey headers with
  | .error e => pure (.error e)
  | .ok signed =>
    if signed.authMode = "hotkey".toList then do
      let valid ← ask (.verifyPayloadHotkey signed body)
      admitRequest whitelistEnabled signatures expectedHotkey signed body valid
    else do
      let miner ← ask (.getMiner expectedHotkey)
      if !allowUnregistered && miner.isNone then
        pure (.error ⟨401, "unknown miner".toList⟩)
      else
        let secret := if allowUnregistered then registrationSecret
          else miner.map MinerRegistration.authSecret
        match secret.filter (· ≠ []) with
        | none => pure (.error ⟨401, "missing miner secret".toList⟩)
        | some secret => do
          let valid ← ask (.verifyPayload secret signed body)
          admitRequest whitelistEnabled signatures expectedHotkey signed body valid

/-- `register_miner`: the route. -/
def registerMiner (request : RegisterRequest) :
    Program RegistryInterface (Except HttpError MinerRegistration) := do
  let known ← ask (.getMiner request.payload.hotkey)
  match ← requireMinerRequest whitelistEnabled signatures request.payload.hotkey request.rawBody
      request.headers known.isNone
      (if known.isSome then none else some request.payload.authSecret) with
  | .error e => pure (.error e)
  | .ok () => do
    ask (.upsertMiner request.payload)
    pure (.ok request.payload)

end

end MinerRoutes

/-- The registry, with any number of requests to register. -/
def registry (whitelistEnabled : Bool) (signatures : Signatures) :
    Service RegistryInterface RegisterRequest Registry where
  exec := RegistryOp.exec signatures
  body request := do
    let _ ← MinerRoutes.registerMiner whitelistEnabled signatures request
    pure ()

open MinerRoutes

variable {whitelistEnabled : Bool} {signatures : Signatures}

/-! ## What is stored was checked -/

/-- An answer of a check that accepts is right about the signature. -/
def SoundAnswer (signatures : Signatures) : (o : RegistryOp) → o.Ans → Prop
  | .verifyPayloadHotkey signed body, accepted =>
    accepted = true → signatures.byHotkey signed body = true
  | .verifyPayload secret signed body, accepted =>
    accepted = true → signatures.byHmac secret signed body = true
  | _, _ => True

theorem soundAnswer_exec (o : RegistryOp) (s : Registry) :
    SoundAnswer signatures o (o.exec signatures s).2 := by
  have haccept (valid : Bool) (signed : SignedRequest) (h : (s.accept valid signed).2 = true) :
      valid = true := by
    unfold Registry.accept at h
    split at h
    · next hvalid => exact (Bool.and_eq_true _ _ ▸ hvalid).1
    · cases h
  cases o with
  | verifyPayloadHotkey signed body => exact haccept _ signed
  | verifyPayload secret signed body => exact haccept _ signed
  | _ => trivial

/-- The secret that a call's signature was checked under. -/
def checkedSecret (past : List (Event RegistryInterface)) : Option Text :=
  past.findSome? fun e ↦ match e.1 with
    | .verifyPayload secret .. => some secret
    | _ => none

/-- The request carries its own hotkey's signature. -/
def RegisterRequest.SignedByHotkey (signatures : Signatures) (request : RegisterRequest) : Prop :=
  ∃ signed ∈ (signedRequest request.payload.hotkey request.headers).toOption,
    signatures.byHotkey signed request.rawBody = true

/-- The request carries an HMAC under a secret. -/
def RegisterRequest.SignedUnder (signatures : Signatures) (request : RegisterRequest)
    (secret : Text) : Prop :=
  ∃ signed ∈ (signedRequest request.payload.hotkey request.headers).toOption,
    signatures.byHmac secret signed request.rawBody = true

instance (signatures : Signatures) (request : RegisterRequest) :
    Decidable (request.SignedByHotkey signatures) := inferInstanceAs (Decidable (∃ _ ∈ _, _))

instance (signatures : Signatures) (request : RegisterRequest) (secret : Text) :
    Decidable (request.SignedUnder signatures secret) := inferInstanceAs (Decidable (∃ _ ∈ _, _))

/-- The request's signature has been checked: under its hotkey, or under the secret that the call
asked about. -/
def Checked (signatures : Signatures) (request : RegisterRequest)
    (past : List (Event RegistryInterface)) : Prop :=
  request.SignedByHotkey signatures ∨
    ∃ secret, checkedSecret past = some secret ∧ request.SignedUnder signatures secret

/-- A call stores what it was asked to, and only once the signature has been checked. -/
def checkedFirst (signatures : Signatures) (request : RegisterRequest)
    (past : List (Event RegistryInterface)) : RegistryOp → Prop
  | .upsertMiner registration =>
    registration = request.payload ∧ Checked signatures request past
  | _ => True

theorem checkedSecret_append (past : List (Event RegistryInterface)) (e : Event RegistryInterface) :
    checkedSecret (past ++ [e]) = (checkedSecret past).or (checkedSecret [e]) := by
  rw [checkedSecret, List.findSome?_append]
  rfl

theorem Checked.append {request : RegisterRequest} {past : List (Event RegistryInterface)}
    (h : Checked signatures request past) (e : Event RegistryInterface) :
    Checked signatures request (past ++ [e]) := by
  rcases h with h | ⟨secret, hsecret, hsigned⟩
  · exact .inl h
  · exact .inr ⟨secret, by rw [checkedSecret_append, hsecret, Option.some_or], hsigned⟩

section

variable {request : RegisterRequest} {past : List (Event RegistryInterface)}

/-- What the check of a request leads to. -/
abbrev AsksChecked (signatures : Signatures) (request : RegisterRequest)
    (p : Program RegistryInterface (Except HttpError Unit))
    (past : List (Event RegistryInterface)) : Prop :=
  p.Asks (SoundAnswer signatures) (checkedFirst signatures request)
    (fun result past ↦ result = .ok () → Checked signatures request past) past

theorem admitRequest_asks (expectedHotkey : Hotkey) (signed : SignedRequest) (body : Text)
    {valid : Bool}
    (h : valid = true → Checked signatures request past) :
    AsksChecked signatures request
      (admitRequest whitelistEnabled signatures expectedHotkey signed body valid) past := by
  unfold admitRequest
  cases valid with
  | false =>
    intro hok
    cases hok
  | true =>
    have hchecked := h rfl
    cases whitelistEnabled with
    | false => exact fun _ ↦ hchecked
    | true =>
      refine .op_bind trivial fun listed _ ↦ ?_
      cases listed with
      | true => exact fun _ ↦ hchecked.append _
      | false =>
        intro hok
        cases hok

/-- A request that is let through has been checked. -/
theorem requireMinerRequest_asks (allowUnregistered : Bool) (registrationSecret : Option Text)
    (hpast : checkedSecret past = none) :
    AsksChecked signatures request
      (requireMinerRequest whitelistEnabled signatures request.payload.hotkey request.rawBody
        request.headers allowUnregistered registrationSecret) past := by
  unfold requireMinerRequest
  cases hsigned : signedRequest request.payload.hotkey request.headers with
  | error e =>
    intro hok
    cases hok
  | ok signed =>
    have hheaders : signed ∈ (signedRequest request.payload.hotkey request.headers).toOption := by
      rw [hsigned]
      rfl
    dsimp only
    split
    · refine .op_bind trivial fun valid hsound ↦ admitRequest_asks _ _ _ fun hvalid ↦ ?_
      exact .inl ⟨signed, hheaders, hsound hvalid⟩
    · refine .op_bind trivial fun miner _ ↦ ?_
      split
      · intro hok
        cases hok
      · dsimp only
        split
        · intro hok
          cases hok
        · next secret _ =>
          refine .op_bind trivial fun valid hsound ↦ admitRequest_asks _ _ _ fun hvalid ↦ ?_
          refine .inr ⟨secret, ?_, signed, hheaders, hsound hvalid⟩
          rw [checkedSecret_append, checkedSecret_append, hpast]
          rfl

theorem registerMiner_asks (request : RegisterRequest) :
    ((registry whitelistEnabled signatures).body request).Asks (SoundAnswer signatures)
      (checkedFirst signatures request) (fun _ _ ↦ True) [] := by
  refine .bind (P := fun _ _ ↦ True) ?_ fun _ _ _ ↦ trivial
  refine .op_bind trivial fun known _ ↦ ?_
  refine (requireMinerRequest_asks _ _ rfl).bind fun result past hresult ↦ ?_
  cases result with
  | error e => trivial
  | ok u => exact .op_bind ⟨rfl, hresult rfl⟩ fun _ _ ↦ trivial

end

/-! ## What is on file -/

/-- The secret a registration's signature was checked under is the one on file when it is stored. -/
def secretOnFile : Guard RegistryInterface RegisterRequest Registry
  | _, past, .upsertMiner registration, s => ∀ row ∈ s.miners.get? registration.hotkey,
    ∀ secret ∈ checkedSecret past, row.authSecret = secret
  | _, _, _, _ => True

instance (request : RegisterRequest) (past : List (Event RegistryInterface)) (o : RegistryOp)
    (s : Registry) : Decidable (secretOnFile request past o s) := by
  unfold secretOnFile
  split <;> infer_instance

/-- What an entry of a log stores for a hotkey. -/
def storedFor (hotkey : Hotkey) (entry : Entry RegistryInterface RegisterRequest) :
    Option MinerRegistration :=
  match entry.event.1 with
  | .upsertMiner registration => if registration.hotkey = hotkey then some registration else none
  | _ => none

/-- The last registration of a hotkey. -/
def lastStored (hotkey : Hotkey) (log : List (Entry RegistryInterface RegisterRequest)) :
    Option MinerRegistration :=
  log.reverse.findSome? (storedFor hotkey)

theorem lastStored_concat (hotkey : Hotkey)
    (log : List (Entry RegistryInterface RegisterRequest))
    (entry : Entry RegistryInterface RegisterRequest) :
    lastStored hotkey (log ++ [entry]) = (storedFor hotkey entry).or (lastStored hotkey log) := by
  rw [lastStored, List.reverse_append, List.reverse_singleton, List.singleton_append,
    List.findSome?_cons]
  cases storedFor hotkey entry <;> rfl

/-- The secrets on file are those of the last registrations. -/
def OnFile (log : List (Entry RegistryInterface RegisterRequest)) (s : Registry) : Prop :=
  ∀ hotkey, (s.miners.get? hotkey).map MinerRegistration.authSecret =
    (lastStored hotkey log).map MinerRegistration.authSecret

theorem OnFile.exec {log : List (Entry RegistryInterface RegisterRequest)} {s : Registry}
    (h : OnFile log s) (request : RegisterRequest) (o : RegistryOp) :
    OnFile (log ++ [⟨request, ⟨o, (o.exec signatures s).2⟩⟩]) (o.exec signatures s).1 := by
  intro hotkey
  rw [lastStored_concat]
  have haccept (valid : Bool) (signed : SignedRequest) :
      (s.accept valid signed).1.miners = s.miners := by
    unfold Registry.accept
    split <;> rfl
  cases o with
  | upsertMiner registration =>
    change ((s.upsertMiner registration).miners.get? hotkey).map _ =
      ((if registration.hotkey = hotkey then some registration else none).or _).map _
    rw [Registry.upsertMiner, Table.get?_insert]
    by_cases hsame : registration.hotkey = hotkey
    · rw [if_pos hsame.symm, if_pos hsame]
      rfl
    · rw [if_neg (Ne.symm hsame), if_neg hsame]
      exact h hotkey
  | verifyPayloadHotkey signed body =>
    change ((s.accept _ signed).1.miners.get? hotkey).map _ = _
    rw [haccept]
    exact h hotkey
  | verifyPayload secret signed body =>
    change ((s.accept _ signed).1.miners.get? hotkey).map _ = _
    rw [haccept]
    exact h hotkey
  | getMiner | isHotkeyWhitelisted => exact h hotkey

theorem eq_of_storedFor {hotkey : Hotkey} {entry : Entry RegistryInterface RegisterRequest}
    {registration : MinerRegistration} (h : storedFor hotkey entry = some registration) :
    entry.event.1 = .upsertMiner registration ∧ registration.hotkey = hotkey := by
  unfold storedFor at h
  split at h
  · next stored hevent =>
    split at h
    · next hsame =>
      obtain rfl := Option.some.inj h
      exact ⟨hevent, hsame⟩
    · cases h
  · cases h

/-- Signatures that show what they were made from. -/
private def plainSignatures : Signatures where
  byHotkey signed body := signed.signature = "hotkey".toList ++ signed.nonce ++ body
  byHmac secret signed body := signed.signature = secret ++ signed.nonce ++ body
  reason _ _ := none

/-- A request of miner 7 that brings a secret and carries an HMAC under it. -/
private def bringing (secret payoutAddress nonce : Text) : RegisterRequest where
  payload := ⟨7, payoutAddress, [], [], secret, false, [.pod]⟩
  rawBody := payoutAddress
  headers := ⟨some 7, some (secret ++ nonce ++ payoutAddress), some nonce, some (some 0), none⟩

/-- Nobody is registered, and no request is on its way. -/
private def noMiners : World RegistryInterface RegisterRequest Registry :=
  ⟨⟨.empty, [], []⟩, []⟩

private def honest : RegisterRequest := bringing "first".toList "home".toList "n1".toList

end GreenCompute
