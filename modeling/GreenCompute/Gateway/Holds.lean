import GreenCompute.Billing.Repository
import GreenCompute.Foundations.Steps
import GreenCompute.Gateway.Inference
import GreenCompute.Persistence.KeyLimits

/-!
# Inference never costs more than the balance

A request reserves what it can cost at most, is sent to a machine, is charged for the usage that was
reported, and gives its reservation back. Reservations that run at one time fit into the balance
together, and a charge is within the reservation of its request. A reservation lasts five minutes
whatever the model: `charges_covered` is about the runs in which every request is charged while its
reservation lasts. Some models are waited for longer, and after that the money has been lent twice.
-/

namespace GreenCompute

/-! ## The tables -/

/-- A row of `inference_balance_holds`. -/
structure Hold where
  userId : UserId
  amountCents : ℕ
  expiresAt : Time
  deriving DecidableEq

/-- Where a request is sent, and what comes back from each machine that is tried. -/
inductive Dispatch where
  | invoke (candidates : List (Bool × Invoked))
  | stream (candidates : List (Bool × Streamed))

/-- Which of the machines serve private models. -/
def Dispatch.privateModels : Dispatch → List Bool
  | invoke candidates => candidates.map Prod.fst
  | stream candidates => candidates.map Prod.fst

/-- A call of `invoke_chat_completion` or `stream_chat_completion`. -/
structure InferenceCall where
  userId : Option UserId
  admin : Bool
  request : ChatCompletionRequest
  dispatch : Dispatch

/-- What the request is charged for. -/
def InferenceCall.charge (call : InferenceCall) : Option TokenCharge :=
  match call.dispatch with
  | .invoke candidates => call.request.invokeFromCandidates candidates
  | .stream candidates => call.request.streamFromCandidates candidates

/-- A request that has been sent. -/
structure InFlight where
  call : InferenceCall
  reservedAt : Option Time
  settled : Bool

/-- The billing tables and the holds, the requests in flight, and what the charges have answered. -/
structure InferenceDb where
  billing : Db
  holds : Table RequestId Hold
  inFlight : Table RequestId InFlight
  drawn : RequestId
  charges : List (Except BillingError BillingRepository.FloorDebit)

/-- The price of tokens, and how long a machine is waited for. -/
structure InferenceEnv where
  inferenceCostCents : Text → ℤ → ℤ → ℤ
  upstreamTimeoutSeconds : Time

namespace InferenceEnv

/-- `MODEL_UPSTREAM_TIMEOUT_SECONDS` -/
def modelUpstreamTimeoutSeconds : List (Text × Time) :=
  [("kimi-k3".toList, 1800), ("k3-coder".toList, 3600)]

/-- `_normalize_model_id` -/
def normalizeModelId (model : Text) : Text :=
  Text.lower (Text.strip (model.rtakeWhile fun c ↦ c ≠ '/'))

variable (env : InferenceEnv)

/-- `_timeout_for` -/
def timeoutFor (model : Text) : Time :=
  match modelUpstreamTimeoutSeconds.lookup (normalizeModelId model) with
  | some override => max override env.upstreamTimeoutSeconds
  | none => env.upstreamTimeoutSeconds

/-- The worst-case cost of a request. -/
def estimate (request : ChatCompletionRequest) : ℤ :=
  env.inferenceCostCents request.model request.promptTokenBound request.completionTokenBound

end InferenceEnv

/-! ## Holds -/

namespace InferenceDb

/-- How long a hold lasts when nothing releases it. -/
def holdTtlSeconds : ℤ := 300

variable (s : InferenceDb)

/-- The reservations that run, of a user's other requests. -/
def activeHoldCents (u : UserId) (r : RequestId) : ℕ :=
  s.holds.total fun r' hold ↦
    if hold.userId = u ∧ s.billing.now < hold.expiresAt ∧ r' ≠ r then hold.amountCents else 0

/-- Drop a user's expired holds. -/
def dropExpired (u : UserId) : InferenceDb :=
  { s with holds := s.holds.filter fun _ hold ↦
      ¬(hold.userId = u ∧ hold.expiresAt ≤ s.billing.now) }

/-- `reserve_inference_hold`: expired holds are deleted when the session is committed, and until
then one of them is still found by its reference. What is then assigned to it is lost. -/
def reserveInferenceHold (u : UserId) (amountCents : ℤ) (r : RequestId) (ttlSeconds : ℤ) :
    InferenceDb × Bool :=
  let amount := (max 0 amountCents).toNat
  match s.billing.users.get? u with
  | none => (s, false)
  | some row =>
    let cleaned := s.dropExpired u
    if row.balanceCredits - cleaned.activeHoldCents u r < amount then (cleaned, false)
    else
      let expiresAt := s.billing.now + (max 1 ttlSeconds : ℤ)
      match s.holds.get? r with
      | none => ({ cleaned with holds := cleaned.holds.insert r ⟨u, amount, expiresAt⟩ }, true)
      | some existing =>
        if existing.userId = u ∧ existing.expiresAt ≤ s.billing.now then (cleaned, true)
        else
          let hold := { existing with amountCents := amount, expiresAt := expiresAt }
          ({ cleaned with holds := cleaned.holds.insert r hold }, true)

/-- `release_inference_hold` -/
def releaseInferenceHold (r : RequestId) : InferenceDb :=
  { s with holds := s.holds.filter fun r' _ ↦ r' ≠ r }

/-! ## Requests -/

/-- `_charge_inference_tokens`: the debit and its answer. -/
def chargeInferenceTokens (env : InferenceEnv) (u : UserId) (r : RequestId) (model : Text)
    (charge : TokenCharge) : InferenceDb :=
  if charge.isPrivateModel then s
  else
    let cents := env.inferenceCostCents model charge.promptTokens charge.completionTokens
    let (billing, answer) := BillingRepository.debitUserToFloor u cents
      (.other "inference".toList) (some (.other (toString r).toList)) s.billing
    { s with billing := billing, charges := s.charges ++ [answer] }

/-- A request, up to where it is sent: a user who is no admin reserves its worst-case cost, unless
the model is private. -/
def dispatch (env : InferenceEnv) (call : InferenceCall) : InferenceDb :=
  let r := s.drawn
  let s := { s with drawn := s.drawn + 1 }
  match call.dispatch.privateModels, call.userId with
  | [], _ => s
  | isPrivateModel :: _, some u =>
    if call.admin = false ∧ isPrivateModel = false then
      let (s, reserved) := s.reserveInferenceHold u (env.estimate call.request) r holdTtlSeconds
      if reserved then
        { s with inFlight := s.inFlight.insert r ⟨call, some s.billing.now, false⟩ }
      else s
    else { s with inFlight := s.inFlight.insert r ⟨call, none, false⟩ }
  | _ :: _, none => { s with inFlight := s.inFlight.insert r ⟨call, none, false⟩ }

/-- The machines have answered: the user is charged for the usage. -/
def settle (env : InferenceEnv) (r : RequestId) : InferenceDb :=
  match s.inFlight.get? r with
  | some ⟨call, reservedAt, false⟩ =>
    let s := match call.userId, call.charge with
      | some u, some charge => s.chargeInferenceTokens env u r call.request.model charge
      | _, _ => s
    { s with inFlight := s.inFlight.insert r ⟨call, reservedAt, true⟩ }
  | _ => s

/-- The end of a request, which gives its reservation back. -/
def release (r : RequestId) : InferenceDb :=
  match s.inFlight.get? r with
  | some ⟨call, _, true⟩ =>
    let s := if call.userId.isSome then s.releaseInferenceHold r else s
    { s with inFlight := s.inFlight.filter fun r' _ ↦ r' ≠ r }
  | _ => s

end InferenceDb

/-! ## Runs -/

/-- What can happen. -/
inductive InferenceOp where
  | dispatch (call : InferenceCall)
  | settle (r : RequestId)
  | release (r : RequestId)
  | creditUser (u : UserId) (cents : ℤ)
  | tick (dt : Time)

/-- One step. -/
def InferenceOp.exec (env : InferenceEnv) : InferenceOp → InferenceDb → InferenceDb
  | dispatch call, s => s.dispatch env call
  | settle r, s => s.settle env r
  | release r, s => s.release r
  | creditUser u cents, s =>
    { s with billing := (BillingRepository.creditUser u cents .topup none s.billing).1 }
  | tick dt, s => { s with billing := { s.billing with now := s.billing.now + dt } }

/-- Requests are for shared models and not by admins, machines are waited for as long as the model
allows and no longer, and nothing else is debited. -/
def InferenceOp.Shared (env : InferenceEnv) : InferenceOp → InferenceDb → Prop
  | dispatch call, _ => call.admin = false ∧ ∀ p ∈ call.dispatch.privateModels, p = false
  | settle r, s => ∀ flight ∈ s.inFlight.get? r, ∀ t ∈ flight.reservedAt,
      s.billing.now ≤ t + env.timeoutFor flight.call.request.model
  | release _, _ => True
  | creditUser _ cents, _ => 0 ≤ cents
  | tick dt, _ => 0 ≤ dt

/-- A request that is charged before its reservation is over. -/
def InferenceOp.Punctual : InferenceOp → InferenceDb → Prop
  | settle r, s => ∀ flight ∈ s.inFlight.get? r, ∀ t ∈ flight.reservedAt,
      s.billing.now < t + InferenceDb.holdTtlSeconds
  | _, _ => True

instance (env : InferenceEnv) (o : InferenceOp) (s : InferenceDb) : Decidable (o.Shared env s) := by
  unfold InferenceOp.Shared
  split <;> infer_instance

instance (o : InferenceOp) (s : InferenceDb) : Decidable (o.Punctual s) := by
  unfold InferenceOp.Punctual
  split <;> infer_instance

/-- Any number of steps under a condition. -/
abbrev InferenceDb.Runs (env : InferenceEnv) (G : InferenceOp → InferenceDb → Prop) :
    InferenceDb → InferenceDb → Prop :=
  Relation.ReflTransGen fun s s' ↦ ∃ o : InferenceOp, G o s ∧ s' = o.exec env s

/-- A larger bound on either count of tokens does not cost less. -/
def InferenceEnv.Monotone (env : InferenceEnv) : Prop :=
  ∀ (model : Text) (p p' c c' : ℤ), p ≤ p' → c ≤ c' →
    env.inferenceCostCents model p c ≤ env.inferenceCostCents model p' c'

namespace InferenceDb

variable {env : InferenceEnv} {s : InferenceDb}

/-! ## Reservations that back charges -/

/-- The request is in flight and has not been charged. -/
def unsettled (s : InferenceDb) (r : RequestId) : Bool :=
  (s.inFlight.get? r).any fun flight ↦ !flight.settled

/-- The reservations that run, of the user's requests that have not been charged. -/
def backing (s : InferenceDb) (u : UserId) : ℕ :=
  s.holds.total fun r hold ↦
    if hold.userId = u ∧ s.billing.now < hold.expiresAt ∧ s.unsettled r = true
    then hold.amountCents else 0

/-- A request that has not been charged reserved its worst-case cost, and has the reservation for as
long as it lasts. -/
def Held (env : InferenceEnv) (s : InferenceDb) (r : RequestId) (flight : InFlight) : Prop :=
  ∀ u ∈ flight.call.userId, (s.billing.users.get? u).isSome ∧ ∃ t ∈ flight.reservedAt,
    s.billing.now < t + holdTtlSeconds → s.holds.get? r =
      some ⟨u, (max 0 (env.estimate flight.call.request)).toNat, t + holdTtlSeconds⟩

/-- What holds between steps. -/
structure Solvent (env : InferenceEnv) (s : InferenceDb) : Prop where
  fresh : ∀ r, s.drawn ≤ r → s.holds.get? r = none ∧ s.inFlight.get? r = none
  backed : ∀ u, (s.backing u : ℤ) ≤ max 0 (s.billing.balance u)
  held : ∀ r flight, s.inFlight.get? r = some flight → flight.settled = false →
    s.Held env r flight
  covered : ∀ answer ∈ s.charges, ∃ d : BillingRepository.FloorDebit,
    answer = .ok d ∧ d.shortfallCents = 0

/-- Reservations that run and are not charged for only get fewer. -/
theorem backing_le_backing {t : InferenceDb} (hnow : s.billing.now ≤ t.billing.now)
    (hholds : ∀ r hold, t.holds.get? r = some hold → t.unsettled r = true →
      s.holds.get? r = some hold ∧ s.unsettled r = true) (u : UserId) :
    t.backing u ≤ s.backing u := by
  refine Table.total_le_of_rows fun r hold hget hcounts ↦ ?_
  obtain ⟨huser, hlasts, hopen⟩ := of_not_not fun hno ↦ hcounts (if_neg hno)
  obtain ⟨hget', hopen'⟩ := hholds r hold hget hopen
  refine ⟨hget', ?_⟩
  rw [if_pos ⟨huser, hlasts, hopen⟩, if_pos ⟨huser, hnow.trans_lt hlasts, hopen'⟩]

theorem Held.later {t : InferenceDb} {r : RequestId} {flight : InFlight}
    (h : s.Held env r flight) (hnow : s.billing.now ≤ t.billing.now)
    (husers : ∀ u, (s.billing.users.get? u).isSome → (t.billing.users.get? u).isSome)
    (hholds : ∀ hold, s.holds.get? r = some hold → t.billing.now < hold.expiresAt →
      t.holds.get? r = some hold) : t.Held env r flight := by
  intro u hu
  obtain ⟨hsome, reserved, hreserved, hheld⟩ := h u hu
  refine ⟨husers u hsome, reserved, hreserved, fun hlasts ↦ ?_⟩
  exact hholds _ (hheld (hnow.trans_lt hlasts)) hlasts

/-! ### The steps that take no money -/

theorem Solvent.tick (h : s.Solvent env) {dt : Time} (hdt : 0 ≤ dt) :
    Solvent env { s with billing := { s.billing with now := s.billing.now + dt } } := by
  have hnow : s.billing.now ≤ s.billing.now + dt := le_add_of_nonneg_right hdt
  refine ⟨h.fresh, fun u ↦ ?_, fun r flight hflight hopen ↦ ?_, h.covered⟩
  · have hless := backing_le_backing (s := s)
      (t := { s with billing := { s.billing with now := s.billing.now + dt } }) hnow
      (fun _ _ hget hopen ↦ ⟨hget, hopen⟩) u
    exact (Nat.cast_le.mpr hless).trans (h.backed u)
  · exact (h.held r flight hflight hopen).later hnow (fun _ h ↦ h) fun _ hget _ ↦ hget

/-- Money that is put in. -/
theorem Solvent.creditUser (h : s.Solvent env) (u : UserId) {cents : ℤ} (hcents : 0 ≤ cents) :
    Solvent env { s with
      billing := (BillingRepository.creditUser u cents .topup none s.billing).1 } := by
  unfold BillingRepository.creditUser
  cases huser : s.billing.users.get? u with
  | none => exact h
  | some row =>
    have hbalance : s.billing.balance u = row.balanceCredits := by
      rw [Db.balance, huser]
      rfl
    refine ⟨h.fresh, fun v ↦ (h.backed v).trans ?_, fun r flight hflight hopen ↦ ?_, h.covered⟩
    · dsimp only
      rw [Db.post_balance]
      by_cases hv : v = u
      · rw [if_pos hv, hv, hbalance]
        omega
      · rw [if_neg hv]
    · refine (h.held r flight hflight hopen).later le_rfl (fun v hv ↦ ?_) fun _ hget _ ↦ hget
      dsimp only
      rw [Db.post_users, Table.get?_insert]
      split
      · rfl
      · exact hv

theorem unsettled_iff {r : RequestId} :
    s.unsettled r = true ↔ ∃ flight, s.inFlight.get? r = some flight ∧ flight.settled = false := by
  rw [unsettled, Option.any_eq_true]
  exact exists_congr fun flight ↦ and_congr_right fun _ ↦ by simp

/-- Requests that end, and holds that are not needed any more. -/
theorem Solvent.shrink (h : s.Solvent env) {holds : Table RequestId Hold}
    {inFlight : Table RequestId InFlight}
    (hholds : ∀ r hold, holds.get? r = some hold → s.holds.get? r = some hold)
    (hflights : ∀ r flight, inFlight.get? r = some flight → s.inFlight.get? r = some flight)
    (hkept : ∀ r hold flight, inFlight.get? r = some flight → s.holds.get? r = some hold →
      s.billing.now < hold.expiresAt → holds.get? r = some hold) :
    Solvent env { s with holds := holds, inFlight := inFlight } := by
  refine ⟨fun r hr ↦ ?_, fun u ↦ ?_, fun r flight hflight hopen ↦ ?_, h.covered⟩
  · obtain ⟨hold, hnone⟩ := h.fresh r hr
    exact ⟨Option.eq_none_iff_forall_ne_some.mpr fun x hx ↦ by simp [hholds r x hx] at hold,
      Option.eq_none_iff_forall_ne_some.mpr fun x hx ↦ by simp [hflights r x hx] at hnone⟩
  · have hless := backing_le_backing (s := s)
      (t := { s with holds := holds, inFlight := inFlight }) le_rfl (fun r hold hget hopen ↦ by
        obtain ⟨flight, hflight, hunsettled⟩ := unsettled_iff.mp hopen
        exact ⟨hholds r hold hget,
          unsettled_iff.mpr ⟨flight, hflights r flight hflight, hunsettled⟩⟩) u
    exact (Nat.cast_le.mpr hless).trans (h.backed u)
  · exact (h.held r flight (hflights r flight hflight) hopen).later le_rfl (fun _ h ↦ h)
      fun hold hget hlasts ↦ hkept r hold flight hflight hget hlasts

theorem Solvent.release (h : s.Solvent env) (r : RequestId) : (s.release r).Solvent env := by
  have hflights : ∀ r' flight, (s.inFlight.filter fun r' _ ↦ r' ≠ r).get? r' = some flight →
      s.inFlight.get? r' = some flight ∧ r' ≠ r := by
    intro r' flight hget
    rw [Table.get?_filter, Option.filter_eq_some_iff] at hget
    exact ⟨hget.1, of_decide_eq_true hget.2⟩
  unfold InferenceDb.release
  split
  · next call reserved hflight =>
    by_cases huser : call.userId.isSome
    · rw [if_pos huser]
      unfold releaseInferenceHold
      refine h.shrink (fun r' hold hget ↦ ?_) (fun r' flight hget ↦ (hflights r' flight hget).1)
        fun r' hold flight hget hhold _ ↦ ?_
      · rw [Table.get?_filter, Option.filter_eq_some_iff] at hget
        exact hget.1
      · rw [Table.get?_filter, Option.filter_eq_some_iff]
        exact ⟨hhold, decide_eq_true (hflights r' flight hget).2⟩
    · rw [if_neg huser]
      exact h.shrink (fun _ _ hget ↦ hget) (fun r' flight hget ↦ (hflights r' flight hget).1)
        fun _ _ _ _ hhold _ ↦ hhold
  · exact h

theorem Solvent.dropExpired (h : s.Solvent env) (u : UserId) : (s.dropExpired u).Solvent env := by
  refine h.shrink (fun r hold hget ↦ ?_) (fun _ _ hget ↦ hget) fun r hold _ _ hhold hlasts ↦ ?_
  · rw [Table.get?_filter, Option.filter_eq_some_iff] at hget
    exact hget.1
  · rw [Table.get?_filter, Option.filter_eq_some_iff]
    exact ⟨hhold, decide_eq_true fun hexpired ↦ absurd hlasts (not_lt.mpr hexpired.2)⟩

/-- An identifier that is drawn. -/
theorem Solvent.draw (h : s.Solvent env) : Solvent env { s with drawn := s.drawn + 1 } :=
  ⟨fun r hr ↦ h.fresh r (Nat.le_of_succ_le hr), h.backed, h.held, h.covered⟩

/-! ### Reserving -/

/-- What reserving can do under an identifier that is new. -/
theorem reserveInferenceHold_cases (u : UserId) (amountCents : ℤ) {r : RequestId}
    (hr : s.holds.get? r = none) :
    s.reserveInferenceHold u amountCents r holdTtlSeconds = (s, false) ∨
    s.reserveInferenceHold u amountCents r holdTtlSeconds = (s.dropExpired u, false) ∨
    (s.billing.users.get? u).isSome ∧
      ((s.dropExpired u).activeHoldCents u r + (max 0 amountCents).toNat : ℤ) ≤
        s.billing.balance u ∧
      s.reserveInferenceHold u amountCents r holdTtlSeconds = ({ s.dropExpired u with
        holds := (s.dropExpired u).holds.insert r
          ⟨u, (max 0 amountCents).toNat, s.billing.now + holdTtlSeconds⟩ }, true) := by
  unfold reserveInferenceHold
  cases huser : s.billing.users.get? u with
  | none => exact Or.inl rfl
  | some row =>
    have hbalance : s.billing.balance u = row.balanceCredits := by
      rw [Db.balance, huser]
      rfl
    dsimp only
    split
    · exact Or.inr (Or.inl rfl)
    · next hfits =>
      refine Or.inr (Or.inr ⟨rfl, ?_, ?_⟩)
      · rw [hbalance]
        omega
      · rw [hr]
        rfl

/-- A request that nobody pays for. -/
theorem Solvent.fly (h : s.Solvent env) {r : RequestId} (hr : s.holds.get? r = none)
    (hdrawn : r < s.drawn) {call : InferenceCall} (hcall : call.userId = none) :
    Solvent env { s with inFlight := s.inFlight.insert r ⟨call, none, false⟩ } := by
  refine ⟨fun r' hr' ↦ ⟨(h.fresh r' hr').1, ?_⟩, fun u ↦ ?_, fun r' flight hget hopen ↦ ?_,
    h.covered⟩
  · rw [Table.get?_insert_ne _ (hdrawn.trans_le hr').ne']
    exact (h.fresh r' hr').2
  · refine (Nat.cast_le.mpr ?_).trans (h.backed u)
    refine backing_le_backing (s := s)
      (t := { s with inFlight := s.inFlight.insert r ⟨call, none, false⟩ }) le_rfl
      (fun r' hold hget hopen ↦ ⟨hget, ?_⟩) u
    have hne : r' ≠ r := by
      rintro rfl
      exact absurd (hget.symm.trans hr) nofun
    rw [unsettled, Table.get?_insert_ne _ hne] at hopen
    exact hopen
  · by_cases hne : r' = r
    · rw [hne, Table.get?_insert_self] at hget
      obtain rfl := Option.some.inj hget
      intro u hu
      exact absurd (hcall.symm.trans hu) nofun
    · rw [Table.get?_insert_ne _ hne] at hget
      exact h.held r' flight hget hopen

/-- What backs a user's requests after one more reservation, of whatever user: at most that and all
reservations of the user's other requests. -/
theorem backing_insert_le {t : InferenceDb} {r : RequestId} (hold : Hold)
    (hholds : t.holds = s.holds.insert r hold) (hnow : t.billing.now = s.billing.now)
    (u : UserId) : t.backing u ≤ s.activeHoldCents u r + hold.amountCents := by
  rw [backing, hholds, Table.total_insert]
  refine Nat.add_le_add (Table.total_le_total fun r' other _ ↦ ?_) ?_
  · by_cases hne : r' = r
    · rw [if_pos hne]
      exact Nat.zero_le _
    · rw [if_neg hne, hnow]
      split
      · next hcounts => rw [if_pos ⟨hcounts.1, hcounts.2.1, hne⟩]
      · exact Nat.zero_le _
  · split
    · exact le_rfl
    · exact Nat.zero_le _

/-- A reservation of one user takes nothing from another. -/
theorem backing_insert_le_of_ne {t : InferenceDb} {r : RequestId} (hold : Hold)
    (hholds : t.holds = s.holds.insert r hold) (hnow : t.billing.now = s.billing.now)
    (hothers : ∀ r' ≠ r, t.unsettled r' = s.unsettled r') {u : UserId} (hu : hold.userId ≠ u) :
    t.backing u ≤ s.backing u := by
  rw [backing, hholds, Table.total_insert, if_neg fun hcounts ↦ hu hcounts.1, add_zero]
  refine Table.total_le_total fun r' other _ ↦ ?_
  by_cases hne : r' = r
  · rw [if_pos hne]
    exact Nat.zero_le _
  · rw [if_neg hne, hnow, hothers r' hne]

/-- A request that reserves its worst-case cost, where it fits beside what is reserved already. -/
theorem Solvent.reserve (h : s.Solvent env) {r : RequestId} (hdrawn : r < s.drawn)
    {call : InferenceCall} {u : UserId} (hcall : call.userId = some u)
    (huser : (s.billing.users.get? u).isSome) {amount : ℕ}
    (hamount : amount = (max 0 (env.estimate call.request)).toNat)
    (hfits : (s.activeHoldCents u r + amount : ℤ) ≤ s.billing.balance u) :
    Solvent env { s with
      holds := s.holds.insert r ⟨u, amount, s.billing.now + holdTtlSeconds⟩
      inFlight := s.inFlight.insert r ⟨call, some s.billing.now, false⟩ } := by
  refine ⟨fun r' hr' ↦ ?_, fun v ↦ ?_, fun r' flight hget hopen ↦ ?_, h.covered⟩
  · have hne : r' ≠ r := (hdrawn.trans_le hr').ne'
    rw [Table.get?_insert_ne _ hne, Table.get?_insert_ne _ hne]
    exact h.fresh r' hr'
  · let hold : Hold := ⟨u, amount, s.billing.now + holdTtlSeconds⟩
    let t : InferenceDb :=
      { s with
        holds := s.holds.insert r hold
        inFlight := s.inFlight.insert r ⟨call, some s.billing.now, false⟩ }
    show (t.backing v : ℤ) ≤ max 0 (s.billing.balance v)
    by_cases hv : v = u
    · have hless := backing_insert_le (s := s) (t := t) (r := r) hold rfl rfl v
      refine (Nat.cast_le.mpr hless).trans ?_
      rw [hv]
      exact le_max_of_le_right hfits
    · have hothers : ∀ r' ≠ r, t.unsettled r' = s.unsettled r' := by
        intro r' hne
        rw [unsettled, Table.get?_insert_ne _ hne]
        rfl
      have hless := backing_insert_le_of_ne (s := s) (t := t) (r := r) hold rfl rfl hothers
        (u := v) (Ne.symm hv)
      exact (Nat.cast_le.mpr hless).trans (h.backed v)
  · by_cases hne : r' = r
    · rw [hne, Table.get?_insert_self] at hget
      obtain rfl := Option.some.inj hget
      intro v hv
      obtain rfl : u = v := Option.some.inj (hcall.symm.trans hv)
      refine ⟨huser, s.billing.now, rfl, fun _ ↦ ?_⟩
      rw [hne, Table.get?_insert_self, hamount]
    · rw [Table.get?_insert_ne _ hne] at hget
      refine (h.held r' flight hget hopen).later le_rfl (fun _ h ↦ h) fun hold hhold _ ↦ ?_
      dsimp only
      rw [Table.get?_insert_ne _ hne]
      exact hhold

theorem Solvent.dispatch (h : s.Solvent env) {call : InferenceCall}
    (hshared : (InferenceOp.dispatch call).Shared env s) : (s.dispatch env call).Solvent env := by
  obtain ⟨hadmin, hmodels⟩ := hshared
  have hdrawn := h.draw
  obtain ⟨hhold, -⟩ := h.fresh s.drawn le_rfl
  unfold InferenceDb.dispatch
  dsimp only
  split
  · exact hdrawn
  · next isPrivateModel _ u hcandidates huser =>
    have hfree : isPrivateModel = false := hmodels _ (by simp [hcandidates])
    rw [if_pos ⟨hadmin, hfree⟩]
    rcases reserveInferenceHold_cases (s := { s with drawn := s.drawn + 1 }) u
        (env.estimate call.request) hhold with hno | hno | ⟨hsome, hfits, hyes⟩
    · rw [hno]
      exact hdrawn
    · rw [hno]
      exact hdrawn.dropExpired u
    · rw [hyes]
      exact (hdrawn.dropExpired u).reserve (Nat.lt_succ_self _) huser hsome rfl hfits
  · next huser => exact hdrawn.fly hhold (Nat.lt_succ_self _) huser

/-! ### Charging -/

/-- A charge costs at most what was estimated. -/
theorem cost_le_estimate (mono : env.Monotone) {call : InferenceCall} {charge : TokenCharge}
    (h : call.charge = some charge) :
    env.inferenceCostCents call.request.model charge.promptTokens charge.completionTokens ≤
      env.estimate call.request := by
  have hwithin : call.request.Within charge := by
    unfold InferenceCall.charge at h
    split at h
    · exact (ChatCompletionRequest.within_invokeFromCandidates h).1
    · exact (ChatCompletionRequest.within_streamFromCandidates h).1
  exact mono _ _ _ _ _ hwithin.1 hwithin.2

/-- A debit that the balance covers. -/
theorem debitUserToFloor_covered {db : Db} {u : UserId} (huser : (db.users.get? u).isSome)
    {cents : ℤ} (hcents : max 0 cents ≤ max 0 (db.balance u)) (kind : LedgerKind)
    (reference : Option Reference) :
    ∃ out d, BillingRepository.debitUserToFloor u cents kind reference db = (out, .ok d) ∧
      d.shortfallCents = 0 ∧ out.now = db.now ∧
      (∀ v, (db.users.get? v).isSome → (out.users.get? v).isSome) ∧
      ∀ v, out.balance v = if v = u then db.balance u - max 0 cents else db.balance v := by
  obtain ⟨row, hrow⟩ := Option.isSome_iff_exists.mp huser
  have hbalance : db.balance u = row.balanceCredits := by
    rw [Db.balance, hrow]
    rfl
  rw [hbalance] at hcents
  unfold BillingRepository.debitUserToFloor
  rw [hrow]
  dsimp only
  rw [min_eq_left hcents]
  refine ⟨_, _, rfl, sub_self _, ?_⟩
  split
  · next hpos =>
    refine ⟨rfl, fun v hv ↦ ?_, fun v ↦ ?_⟩
    · rw [Db.post_users, Table.get?_insert]
      split
      · rfl
      · exact hv
    · rw [Db.post_balance, hbalance]
      rfl
  · next hnone =>
    refine ⟨rfl, fun _ hv ↦ hv, fun v ↦ ?_⟩
    have hzero : max 0 cents = 0 := by omega
    rw [hzero, sub_zero]
    split
    · next hv => rw [hv]
    · rfl

/-- A request that has been charged is not backed any more. -/
theorem unsettled_insert_settled {t : InferenceDb} {r : RequestId} {flight : InFlight}
    (hflights : t.inFlight = s.inFlight.insert r flight) (hsettled : flight.settled = true)
    (r' : RequestId) : t.unsettled r' = (decide (r' ≠ r) && s.unsettled r') := by
  rw [unsettled, hflights, Table.get?_insert]
  by_cases hne : r' = r
  · simp [hne, hsettled]
  · rw [if_neg hne, decide_eq_true hne, Bool.true_and]
    rfl

theorem backing_settled_le {t : InferenceDb} {r : RequestId} {flight : InFlight}
    (hholds : t.holds = s.holds) (hnow : t.billing.now = s.billing.now)
    (hflights : t.inFlight = s.inFlight.insert r flight) (hsettled : flight.settled = true)
    (u : UserId) : t.backing u ≤ s.backing u := by
  refine backing_le_backing hnow.ge (fun r' hold hget hopen ↦ ⟨hholds ▸ hget, ?_⟩) u
  rw [unsettled_insert_settled hflights hsettled, Bool.and_eq_true] at hopen
  exact hopen.2

/-- Its user is backed by that much less. -/
theorem backing_settled_add_le {t : InferenceDb} {r : RequestId} {flight : InFlight} {hold : Hold}
    (hholds : t.holds = s.holds) (hnow : t.billing.now = s.billing.now)
    (hflights : t.inFlight = s.inFlight.insert r flight) (hsettled : flight.settled = true)
    (hhold : s.holds.get? r = some hold) (hlasts : s.billing.now < hold.expiresAt)
    (hopen : s.unsettled r = true) :
    t.backing hold.userId + hold.amountCents ≤ s.backing hold.userId := by
  rw [backing, backing, hholds, hnow, Table.total_of_get? hhold fun r' other ↦ if
    other.userId = hold.userId ∧ s.billing.now < other.expiresAt ∧ s.unsettled r' = true
    then other.amountCents else 0, if_pos ⟨rfl, hlasts, hopen⟩]
  refine Nat.add_le_add_right (Table.total_le_total fun r' other _ ↦ ?_) _
  rw [unsettled_insert_settled hflights hsettled]
  by_cases hne : r' = r
  · simp [hne]
  · rw [if_neg hne, decide_eq_true hne, Bool.true_and]

/-- A request that has been charged, from an account that still backs the others. -/
theorem Solvent.settled (h : s.Solvent env) {t : InferenceDb} {r : RequestId}
    {call : InferenceCall} {reserved : Option Time}
    (hflight : s.inFlight.get? r = some ⟨call, reserved, false⟩) (hdrawn : t.drawn = s.drawn)
    (hholds : t.holds = s.holds) (hflights : t.inFlight = s.inFlight.insert r ⟨call, reserved, true⟩)
    (hnow : t.billing.now = s.billing.now)
    (husers : ∀ v, (s.billing.users.get? v).isSome → (t.billing.users.get? v).isSome)
    (hbacked : ∀ v, t.billing.balance v = s.billing.balance v ∨
      (t.backing v : ℤ) ≤ max 0 (t.billing.balance v))
    (hcovered : ∀ answer ∈ t.charges, ∃ d : BillingRepository.FloorDebit,
      answer = .ok d ∧ d.shortfallCents = 0) : t.Solvent env := by
  refine ⟨fun r' hr' ↦ ?_, fun v ↦ ?_, fun r' flight hget hopen ↦ ?_, hcovered⟩
  · rw [hdrawn] at hr'
    have hne : r' ≠ r := by
      rintro rfl
      exact absurd (hflight.symm.trans (h.fresh r' hr').2) nofun
    rw [hholds, hflights, Table.get?_insert_ne _ hne]
    exact h.fresh r' hr'
  · rcases hbacked v with hsame | hbacked
    · rw [hsame]
      exact (Nat.cast_le.mpr (backing_settled_le hholds hnow hflights rfl v)).trans (h.backed v)
    · exact hbacked
  · rw [hflights] at hget
    by_cases hne : r' = r
    · rw [hne, Table.get?_insert_self] at hget
      obtain rfl := Option.some.inj hget
      cases hopen
    · rw [Table.get?_insert_ne _ hne] at hget
      refine (h.held r' flight hget hopen).later hnow.ge husers fun _ hhold _ ↦ ?_
      rw [hholds]
      exact hhold

/-- A request that is charged while its reservation lasts. -/
theorem Solvent.settle (mono : env.Monotone) (h : s.Solvent env) {r : RequestId}
    (punctual : (InferenceOp.settle r).Punctual s) : (s.settle env r).Solvent env := by
  unfold InferenceDb.settle
  split
  · next call reserved hflight =>
    have hopen : s.unsettled r = true := unsettled_iff.mpr ⟨_, hflight, rfl⟩
    have hfree : Solvent env { s with inFlight := s.inFlight.insert r ⟨call, reserved, true⟩ } :=
      h.settled hflight rfl rfl rfl rfl (fun _ hv ↦ hv) (fun _ ↦ Or.inl rfl) h.covered
    split
    · next u charge huser hcharge =>
      unfold chargeInferenceTokens
      split
      · exact hfree
      · obtain ⟨hsome, t, ht, hheld⟩ := h.held r _ hflight rfl u huser
        have hlasts := punctual _ hflight t ht
        have hhold := hheld hlasts
        have hbacked := h.backed u
        -- The charge is within the reservation, and the reservation within the balance.
        have hcost := cost_le_estimate mono hcharge
        have hsettled : ∀ t : InferenceDb, t.holds = s.holds → t.billing.now = s.billing.now →
            t.inFlight = s.inFlight.insert r ⟨call, reserved, true⟩ →
              t.backing u + (max 0 (env.estimate call.request)).toNat ≤ s.backing u :=
          fun t hholds hnow hflights ↦
            backing_settled_add_le hholds hnow hflights rfl hhold hlasts hopen
        have hless := hsettled { s with
          inFlight := s.inFlight.insert r ⟨call, reserved, true⟩ } rfl rfl rfl
        have hcents : max 0 (env.inferenceCostCents call.request.model charge.promptTokens
            charge.completionTokens) ≤ max 0 (s.billing.balance u) := by
          omega
        obtain ⟨billing, d, hdebit, hfull, hnow, husers, hbalance⟩ :=
          debitUserToFloor_covered hsome hcents (.other "inference".toList)
            (some (.other (toString r).toList))
        dsimp only
        rw [hdebit]
        refine h.settled hflight rfl rfl rfl hnow husers (fun v ↦ ?_) fun answer hanswer ↦ ?_
        · by_cases hv : v = u
          · have hmore := hsettled { s with
              billing := billing
              inFlight := s.inFlight.insert r ⟨call, reserved, true⟩
              charges := s.charges ++ [.ok d] } rfl hnow rfl
            right
            dsimp only
            rw [hbalance, if_pos hv, hv]
            omega
          · left
            rw [hbalance, if_neg hv]
        · rcases List.mem_append.mp hanswer with hold | hnew
          · exact h.covered answer hold
          · exact ⟨d, List.mem_singleton.mp hnew, hfull⟩
    · exact hfree
  · exact h

/-! ## Every run -/

theorem Solvent.exec (mono : env.Monotone) (h : s.Solvent env) {o : InferenceOp}
    (shared : o.Shared env s) (punctual : o.Punctual s) : (o.exec env s).Solvent env := by
  cases o with
  | dispatch call => exact h.dispatch shared
  | settle r => exact h.settle mono punctual
  | release r => exact h.release r
  | creditUser u cents => exact h.creditUser u shared
  | tick dt => exact h.tick shared

/-- **Concurrent inference.** In every run in which each request is charged while its reservation
lasts, every charge is covered in full. -/
theorem charges_covered {s' : InferenceDb} (mono : env.Monotone) (unheld : s.holds = .empty)
    (idle : s.inFlight = .empty) (uncharged : s.charges = [])
    (run : Runs env (fun o s ↦ o.Shared env s ∧ o.Punctual s) s s') :
    ∀ answer ∈ s'.charges, ∃ d : BillingRepository.FloorDebit,
      answer = .ok d ∧ d.shortfallCents = 0 := by
  suffices h : s'.Solvent env from h.covered
  induction run with
  | refl =>
    refine ⟨fun r _ ↦ ?_, fun u ↦ ?_, fun r flight hget _ ↦ ?_, ?_⟩
    · rw [unheld, idle]
      exact ⟨rfl, rfl⟩
    · rw [backing, unheld]
      exact le_max_left _ _
    · rw [idle] at hget
      cases hget
    · rw [uncharged]
      exact fun _ hmem ↦ absurd hmem List.not_mem_nil
  | tail _ hstep ih =>
    obtain ⟨o, ⟨shared, punctual⟩, rfl⟩ := hstep
    exact ih.exec mono shared punctual

/-! ### Two runs -/

/-- Two dollars for a million tokens in and ten for a million out. -/
private def flatRate : InferenceEnv where
  inferenceCostCents _ p c := (200 * p + 1000 * c) / 1000000
  upstreamTimeoutSeconds := 120

private theorem flatRate_monotone : flatRate.Monotone := by
  intro _ p p' c c' hp hc
  exact Int.ediv_le_ediv (by decide) (by omega)

/-- A user with two cents. -/
private def twoCents : InferenceDb where
  billing := { Db.empty with users := Table.ofRows [(1, ⟨[], none, none, none, none, [], 2⟩)] }
  holds := .empty
  inFlight := .empty
  drawn := 0
  charges := []

/-- A request that may cost two cents, and does. -/
private def twoCentRequest : InferenceCall where
  userId := some 1
  admin := false
  request := ⟨"moonshotai/Kimi-K3".toList, [.text (List.replicate 4712 'a')], some 1000, none⟩
  dispatch := .invoke [(false, .response (some ⟨5000, 1000⟩))]

/-- A request that is answered after a minute. -/
theorem charges_covered_one :
    ∃ s', Runs flatRate (fun o s ↦ o.Shared flatRate s ∧ o.Punctual s) twoCents s' ∧
      s'.charges.length = 1 ∧ s'.billing.balance 1 = 0 ∧
      ∀ answer ∈ s'.charges, ∃ d : BillingRepository.FloorDebit,
        answer = .ok d ∧ d.shortfallCents = 0 := by
  have run := Steps.of_admits (InferenceOp.exec flatRate)
    (fun o s ↦ o.Shared flatRate s ∧ o.Punctual s) twoCents
    [.dispatch twoCentRequest, .tick 60, .settle 0, .release 0] (by decide +kernel)
  exact ⟨_, run, by decide +kernel, by decide +kernel,
    charges_covered flatRate_monotone rfl rfl rfl run⟩

/-- Two cents that are lent to a second request while the first is still being answered. -/
theorem hold_expires_in_flight :
    ¬∀ (env : InferenceEnv) (s s' : InferenceDb), env.Monotone → s.holds = .empty →
      s.inFlight = .empty → s.charges = [] → (∀ u, 0 ≤ s.billing.balance u) →
        Runs env (fun o s ↦ o.Shared env s) s s' →
          ∀ answer ∈ s'.charges, ∃ d : BillingRepository.FloorDebit,
            answer = .ok d ∧ d.shortfallCents = 0 := by
  intro h
  have run := Steps.of_admits (InferenceOp.exec flatRate)
    (fun o s ↦ o.Shared flatRate s) twoCents
    [.dispatch twoCentRequest, .tick 400, .dispatch twoCentRequest, .settle 0, .settle 1]
    (by decide +kernel)
  have hbalance : ∀ u, 0 ≤ twoCents.billing.balance u := by
    intro u
    by_cases hu : u = 1
    · rw [hu]
      decide
    · have hnone : twoCents.billing.users.get? u = none := by
        simp [twoCents, Table.ofRows, Table.get?, Ne.symm hu]
      rw [Db.balance, hnone]
      exact le_rfl
  have hshort : ∃ answer ∈ (Steps.replay (InferenceOp.exec flatRate) twoCents
      [.dispatch twoCentRequest, .tick 400, .dispatch twoCentRequest, .settle 0,
        .settle 1]).charges, answer = .ok ⟨0, 2⟩ := by
    decide +kernel
  obtain ⟨answer, hmem, rfl⟩ := hshort
  obtain ⟨d, hd, hfull⟩ := h _ _ _ flatRate_monotone rfl rfl rfl hbalance run _ hmem
  obtain rfl := Except.ok.inj hd
  exact absurd hfull (by decide)

end InferenceDb

end GreenCompute
