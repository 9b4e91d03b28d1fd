import GreenCompute.Foundations.Simulation
import GreenCompute.Persistence.Deliveries
import GreenCompute.Persistence.NatsBus

/-!
# What the broker changes

Where the transport is steady, a run of the buses in front of the broker shows a run of the subject
bus: claiming through a message is a claim of the subject bus that finds every other row locked. So
what holds of every run of the subject bus holds here (`nats_changes_only_latency`).

The transport is steady when three things do not happen. A delivery changes between its being read
and its being claimed, and two workers claim it. Something raises in a mark, which then is not made,
or in a claim that has already claimed something, which forgets it and claims from the database
instead. A message is fetched whose delivery cannot be claimed: then the bus waits for itself, and
whoever calls its broker waits too. In each case the transport does change more than latency
(`nats_changes_more_than_latency`).
-/

namespace GreenCompute

open Program

/-! ## Claims of single rows -/

theorem Table.select_eq_singleton {κ ρ : Type} [DecidableEq κ] {t : Table κ ρ}
    {p : κ → ρ → Bool} {k : κ} {r : ρ} (hget : t.get? k = some r) (hp : p k r = true)
    (hother : ∀ k' r', k' ≠ k → p k' r' = false) : t.select p = [(k, r)] := by
  have hmem (x : κ × ρ) : x ∈ t.select p ↔ x ∈ [(k, r)] := by
    obtain ⟨k', r'⟩ := x
    rw [Table.mem_select, List.mem_singleton, Prod.mk.injEq]
    constructor
    · rintro ⟨hget', hp'⟩
      by_cases hk : k' = k
      · subst hk
        exact ⟨rfl, Option.some.inj (hget'.symm.trans hget)⟩
      · rw [hother k' r' hk] at hp'
        cases hp'
    · rintro ⟨rfl, rfl⟩
      exact ⟨hget, hp⟩
  have hnodup : (t.select p).Nodup := (t.nodup_select p).of_map
  exact List.perm_singleton.mp ((List.perm_ext_iff_of_nodup hnodup (by simp)).mpr hmem)

/-- A claim that finds all other rows locked claims this one. -/
theorem BusStore.claimPending_alone {s : BusStore} {id : DeliveryId} {row : Delivery} {now : Time}
    (hrow : s.deliveries.get? id = some row) (hpending : row.status = .pending)
    (hdue : row.availableAt ≤ now) :
    s.claimPending row.consumer [row.subject] 1 now (fun d ↦ d ≠ id) =
      ({ s with deliveries := s.deliveries.modify id (claimed now) },
        ((s.events.get? row.eventId).map fun event ↦
          toMessage id (claimed now row) event).toList) := by
  have hclaimable :
      s.claimable row.consumer [row.subject] 1 now (fun d ↦ d ≠ id) = [(id, row)] := by
    rw [claimable, Table.select_eq_singleton hrow (by simp [hpending, hdue]) (by simp +contextual),
      List.mergeSort_singleton]
    rfl
  rw [claimPending, hclaimable]
  refine Prod.ext ?_ ?_
  · simp [Table.modify]
  · cases hevent : s.events.get? row.eventId <;> simp [hevent]

/-! ## The log -/

/-- What a step counts as on the subject bus. -/
def shownDurably : Event NatsBuses → Option (Event Buses)
  | ⟨.durable o, r⟩ => some ⟨o, r⟩
  | ⟨.readPending .., some (_, _, now)⟩ => some ⟨.now, now⟩
  | ⟨.claimRow id loaded now, message⟩ =>
    some ⟨.claimPending loaded.consumer [loaded.subject] 1 now fun d ↦ d ≠ id,
      Option.toList (α := BusMessage) message⟩
  | _ => none

/-- The delivery is set to processing. -/
def takesDelivery (d : DeliveryId) : Event NatsBuses → Bool
  | ⟨.durable o, r⟩ => claimsDelivery d ⟨o, r⟩
  | ⟨.claimRow id _ _, _⟩ => id = d
  | _ => false

/-- The step is one of the subject bus, such as this. -/
def onDurable (p : Event Buses → Bool) : Event NatsBuses → Bool
  | ⟨.durable o, r⟩ => p ⟨o, r⟩
  | _ => false

/-- Something may be claimed. -/
def mayTake : Event NatsBuses → Bool
  | ⟨.durable (.claimPending ..), _⟩ | ⟨.claimRow .., _⟩ => true
  | _ => false

/-- The delivery that a call marks, and what it is to record: the status, the error, and the seconds
until a retry. -/
def NatsCall.outcome : NatsCall → Option (DeliveryId × BusStatus × Option Text × Option Time)
  | .markCompleted _ id _ => some (id, .completed, none, none)
  | .markFailed _ id error retryable retryAfterSeconds _ =>
    some (id, if retryable then .pending else .failed, some error, retryAfterSeconds)
  | _ => none

/-- The call claims. -/
def NatsCall.claims : NatsCall → Bool
  | .claimPending .. => true
  | _ => false

/-- The outcome has been written, unless there is no such delivery. -/
def OutcomeWritten (past : List (Event NatsBuses)) :
    DeliveryId × BusStatus × Option Text × Option Time → Prop
  | (id, status, error, retryAfterSeconds) =>
    ⟨.durable (.getDelivery id), none⟩ ∈ past ∨
      ∃ row now message, ⟨.durable (.update
        ⟨status, error, retryAfterSeconds.map (now + ·)⟩ id row), message⟩ ∈ past

/-- These are all the deliveries that the call has set to processing. -/
def Handed (messages : List BusMessage) (past : List (Event NatsBuses)) : Prop :=
  ∀ e ∈ past, ∀ d, takesDelivery d e = true → ∃ m ∈ messages, m.deliveryId = d

/-- The transport is steady: a delivery that is claimed through a message is still pending and due,
as it was read; nothing raises but in a claim that has claimed nothing; and no message is fetched
whose delivery cannot be claimed. -/
def steady : Guard NatsBuses NatsCall NatsStore := fun c past o s ↦
  match o with
  | .claimRow id loaded now =>
    s.durable.deliveries.get? id = some loaded ∧ loaded.status = .pending ∧
      loaded.availableAt ≤ now
  | .raise => c.outcome = none ∧ ∀ e ∈ past, mayTake e = false
  | .ackInLoop _ => False
  | _ => True

deriving instance DecidableEq for Delivery

instance (c : NatsCall) (past : List (Event NatsBuses)) (o : NatsOp) (s : NatsStore) :
    Decidable (steady c past o s) := by
  unfold steady
  split <;> infer_instance

/-! ## Methods of the subject bus -/

section

variable {α : Type} {q : Program Buses Unit}

/-- The method shows what it should of a method in progress, or nothing. -/
abbrev FollowsBus (p : Program NatsBuses α) (q : Program Buses Unit) : Prop :=
  p.Follows subjectBus shownDurably (fun _ _ ↦ True) q

/-- What is left of a method of the subject bus, in progress. -/
theorem durably_follows (p : Program Buses α) (g : α → Program Buses Unit) :
    FollowsBus (NatsJetStreamBus.durably p) (p >>= g) := by
  induction p with
  | done a => trivial
  | call o k ih => exact fun r ↦ ⟨fun r ↦ k r >>= g, .inl rfl, ih r⟩

/-- A method of the subject bus, from its beginning. -/
theorem durably_starts {p : Program Buses α} {g : α → Program Buses Unit} {c : BusCall}
    (hbody : subjectBus.body c = p >>= g) : FollowsBus (NatsJetStreamBus.durably p) q := by
  cases p with
  | done a => trivial
  | call o k =>
    exact fun r ↦ ⟨fun r ↦ k r >>= g, .inr ⟨c, hbody⟩, durably_follows (k r) g⟩

theorem FollowsBus.bind {β : Type} {p : Program NatsBuses β} {f : β → Program NatsBuses α}
    (hp : FollowsBus p q) (hf : ∀ b q', FollowsBus (f b) q') : FollowsBus (p >>= f) q :=
  Follows.bind hp fun b q' _ ↦ hf b q'

/-- An operation that the subject bus does not have. -/
theorem FollowsBus.silent {o : NatsOp} {f : o.Ans → Program NatsBuses α}
    (h : ∀ r, shownDurably ⟨o, r⟩ = none) (hf : ∀ r, FollowsBus (f r) q) :
    FollowsBus (NatsJetStreamBus.call o >>= f) q :=
  Follows.silent h hf

namespace NatsJetStreamBus

theorem claimDelivery_follows (consumer subject : Text) (raw : RawMessage) :
    FollowsBus (claimDeliveryForMessage consumer subject raw) q := by
  rw [claimDeliveryForMessage]
  split
  · trivial
  · trivial
  · rintro (- | ⟨id, row, now⟩)
    · trivial
    · -- From here on it is a claim that finds all but this row locked.
      exact ⟨fun now ↦ SubjectBus.call (.claimPending row.consumer [row.subject] 1 now
          fun d ↦ d ≠ id) >>= fun _ ↦ .done (),
        .inr ⟨.claimPending row.consumer [row.subject] 1 fun d ↦ d ≠ id, rfl⟩,
        fun message ↦ ⟨fun _ ↦ .done (), .inl rfl, trivial⟩⟩

theorem claimMessages_follows (bus : NatsBus) (client : NatsClientId) (consumer subject : Text)
    (limit : ℕ) (raws : List RawMessage) (messages : List BusMessage) :
    FollowsBus (claimMessages bus client consumer subject limit raws messages) q := by
  induction raws generalizing messages q with
  | nil => trivial
  | cons raw raws ih =>
    rw [claimMessages]
    refine (claimDelivery_follows consumer subject raw).bind ?_
    rintro (- | - | claimed) q'
    · trivial
    · exact .silent (fun _ ↦ rfl) fun _ ↦ .silent (fun _ ↦ rfl) fun _ ↦ ih messages
    · refine .silent (fun _ ↦ rfl) fun _ ↦ ?_
      split
      · trivial
      · exact ih _

theorem claimSubjects_follows (bus : NatsBus) (client : NatsClientId) (consumer : Text) (limit : ℕ)
    (subjects : List (Text × SubjectFetch)) (messages : List BusMessage) :
    FollowsBus (claimSubjects bus client consumer limit subjects messages) q := by
  induction subjects generalizing messages q with
  | nil => trivial
  | cons subject subjects ih =>
    rw [claimSubjects]
    split
    · trivial
    · refine .silent (fun _ ↦ rfl) fun _ ↦ ?_
      split
      · refine .silent (fun _ ↦ rfl) fun _ ↦ ?_
        split
        · exact ih messages
        · refine (claimMessages_follows ..).bind ?_
          rintro (- | claimed) q'
          · trivial
          · exact ih claimed
      · trivial

theorem claimPending_follows (bus : NatsBus) (consumer : Text)
    (subjects : List (Text × SubjectFetch)) (limit : ℕ) (broker : ClaimAnswers)
    (locked : DeliveryId → Bool) :
    FollowsBus (claimPending bus consumer subjects limit broker locked) q := by
  have hdatabase (q' : Program Buses Unit) :
      FollowsBus (claimPendingFromDatabase consumer subjects limit locked) q' :=
    durably_starts (c := .claimPending consumer (subjects.map Prod.fst) limit locked) rfl
  have hnats : FollowsBus (claimPendingFromNats bus consumer subjects limit broker) q := by
    refine .silent (fun _ ↦ rfl) fun _ ↦ ?_
    split
    · refine .silent (fun _ ↦ rfl) fun client ↦ (claimSubjects_follows ..).bind fun claimed q' ↦ ?_
      split
      · exact .silent (fun _ ↦ rfl) fun _ ↦ trivial
      · exact .silent (fun _ ↦ rfl) fun _ ↦ trivial
      · trivial
    · trivial
  rw [claimPending]
  split
  · refine hnats.bind fun claimed q' ↦ ?_
    split
    · exact .silent (fun _ ↦ rfl) fun _ ↦ hdatabase q'
    · exact hdatabase q'
    · trivial
  · exact hdatabase q

theorem mark_follows (bus : NatsBus) (id : DeliveryId) (broker : MarkAnswers)
    {p : Program Buses (Option BusMessage)} {c : BusCall}
    (hbody : subjectBus.body c = p >>= fun _ ↦ .done ()) : FollowsBus (mark bus id broker p) q := by
  have hsettle : FollowsBus (settleMessage bus id broker) q := by
    refine .silent (fun _ ↦ rfl) fun client ↦ ?_
    split
    · trivial
    · refine .silent (fun _ ↦ rfl) fun _ ↦ .silent (fun _ ↦ rfl) fun used ↦ ?_
      split
      · trivial
      · exact .silent (fun _ ↦ rfl) fun _ ↦ trivial
  refine hsettle.bind fun settled q' ↦ ?_
  split
  · exact (durably_starts hbody).bind fun _ _ ↦ trivial
  · exact .silent (fun _ ↦ rfl) fun _ ↦ trivial

end NatsJetStreamBus

open NatsJetStreamBus in
theorem body_follows (c : NatsCall) : FollowsBus (natsBuses.body c) (.done ()) := by
  cases c with
  | publish bus subject payload =>
    refine FollowsBus.bind ?_ fun _ _ ↦ trivial
    refine (durably_starts (c := .publish subject payload) rfl).bind fun event q ↦ ?_
    split
    · exact .silent (fun _ ↦ rfl) fun _ ↦ trivial
    · trivial
  | claimPending bus consumer subjects limit broker locked =>
    exact (claimPending_follows ..).bind fun messages q ↦ .silent (fun _ ↦ rfl) fun _ ↦ trivial
  | markCompleted bus id broker =>
    exact mark_follows bus id broker (c := .markCompleted id) rfl
  | markFailed bus id error retryable retryAfterSeconds broker =>
    exact mark_follows bus id broker (c := .markFailed id error retryable retryAfterSeconds) rfl
  | requeueStaleProcessing consumer subjects staleAfterSeconds =>
    exact durably_starts (c := .requeueStaleProcessing consumer subjects staleAfterSeconds)
      (g := .done) rfl
  | advance seconds => exact durably_starts (c := .advance seconds) (g := .done) rfl

end

/-! ## Operations -/

section

variable {c : NatsCall} {past : List (Event NatsBuses)} {o : NatsOp} {s : NatsStore}

/-- Claiming a row that is as it was read is a claim of the subject bus. -/
theorem NatsStore.claimRow_eq {id : DeliveryId} {loaded : Delivery} {now : Time}
    (hrow : s.durable.deliveries.get? id = some loaded) :
    s.claimRow id loaded now =
      ({ s with durable.deliveries :=
          s.durable.deliveries.modify id (BusStore.claimed now) },
        (s.durable.events.get? loaded.eventId).map fun event ↦
          toMessage id (BusStore.claimed now loaded) event) := by
  have hmodify : (s.durable.deliveries.modify id fun row ↦
      { row with status := .processing, attempts := loaded.attempts + 1, updatedAt := now }) =
      s.durable.deliveries.modify id (BusStore.claimed now) := by
    refine Table.map_congr fun id' row hrow' ↦ ?_
    by_cases hid : id' = id
    · subst hid
      obtain rfl := Option.some.inj (hrow.symm.trans hrow')
      rfl
    · rw [if_neg hid, if_neg hid]
  rw [claimRow, hmodify]

theorem NatsStore.readPending_now {eventId : EventId} {consumer subject : Text}
    {r : DeliveryId × Delivery × Time} (h : s.readPending eventId consumer subject = some r) :
    r.2.2 = s.durable.now := by
  obtain ⟨row, -, rfl⟩ := Option.map_eq_some_iff.mp h
  rfl

/-- Where the transport is steady, every step does what it counts as. -/
theorem steady_mimics (guarded : steady c past o s) :
    natsBuses.Mimics subjectBus NatsStore.durable shownDurably o s := by
  cases o with
  | durable o => exact ⟨rfl, rfl⟩
  | readPending eventId consumer subject =>
    rw [Service.Mimics]
    cases hread : s.readPending eventId consumer subject with
    | none =>
      have hshown : shownDurably ⟨.readPending eventId consumer subject,
          (natsBuses.exec (.readPending eventId consumer subject) s).2⟩ = none := by
        change shownDurably ⟨.readPending eventId consumer subject,
          s.readPending eventId consumer subject⟩ = none
        rw [hread]
        rfl
      rw [hshown]
      rfl
    | some r =>
      have hshown : shownDurably ⟨.readPending eventId consumer subject,
          (natsBuses.exec (.readPending eventId consumer subject) s).2⟩ =
            some ⟨.now, r.2.2⟩ := by
        change shownDurably ⟨.readPending eventId consumer subject,
          s.readPending eventId consumer subject⟩ = _
        rw [hread]
        rfl
      rw [hshown, NatsStore.readPending_now hread]
      exact ⟨rfl, rfl⟩
  | claimRow id loaded now =>
    obtain ⟨hrow, hpending, hdue⟩ := guarded
    refine ⟨rfl, ?_⟩
    change s.durable.claimPending loaded.consumer [loaded.subject] 1 now (fun d ↦ d ≠ id) =
      ((s.claimRow id loaded now).1.durable, (s.claimRow id loaded now).2.toList)
    rw [NatsStore.claimRow_eq hrow, BusStore.claimPending_alone hrow hpending hdue]
  | await | ackInLoop | connect | hold | release | clientUsed | raise | hand => rfl

/-- What holds of the buses between steps, where the transport is steady. -/
structure NatsStore.Running (s : NatsStore) : Prop where
  sound : s.durable.Sound
  free : s.stuck = []

theorem NatsStore.Running.exec (h : s.Running) (guarded : steady c past o s) :
    (o.exec s).1.Running := by
  cases o with
  | durable o => exact ⟨exec_sound o h.sound, h.free⟩
  | claimRow id loaded now =>
    obtain ⟨hrow, hpending, hdue⟩ := guarded
    refine ⟨?_, h.free⟩
    have hclaim := h.sound.claimPending loaded.consumer [loaded.subject] 1 now fun d ↦ d ≠ id
    rw [BusStore.claimPending_alone hrow hpending hdue] at hclaim
    rw [NatsOp.exec, NatsStore.claimRow_eq hrow]
    exact hclaim
  | ackInLoop bus => exact guarded.elim
  | readPending | await | connect | hold | release | clientUsed | raise | hand => exact ⟨h.1, h.2⟩

/-- A claimed row is returned. -/
theorem NatsStore.Running.claimRow (h : s.Running) {id : DeliveryId} {loaded : Delivery}
    (now : Time) (hrow : s.durable.deliveries.get? id = some loaded) :
    ∃ m, (s.claimRow id loaded now).2 = some m ∧ m.deliveryId = id := by
  obtain ⟨event, hevent⟩ := Option.isSome_iff_exists.mp (h.sound.event id loaded hrow)
  exact ⟨_, congrArg (Option.map _) hevent, rfl⟩

/-- What is set to processing is claimed on the subject bus. -/
theorem NatsStore.Running.takes (h : s.Running) (guarded : steady c past o s) {d : DeliveryId}
    (htakes : takesDelivery d ⟨o, (o.exec s).2⟩ = true) :
    ∃ e, shownDurably ⟨o, (o.exec s).2⟩ = some e ∧ claimsDelivery d e = true := by
  cases o with
  | durable o => exact ⟨_, rfl, htakes⟩
  | claimRow id loaded now =>
    obtain rfl : id = d := of_decide_eq_true htakes
    obtain ⟨m, hm, hid⟩ := h.claimRow now guarded.1
    refine ⟨_, rfl, ?_⟩
    change ((s.claimRow id loaded now).2.toList.any fun m ↦ m.deliveryId = id) = true
    rw [hm]
    simpa using hid
  | _ => cases htakes

/-- What is neither a claim nor a look at the clock is done on the subject bus itself. -/
theorem onDurable_of_shown {p : Event Buses → Bool} {e : Event NatsBuses} {e' : Event Buses}
    (hshown : shownDurably e = some e') (h : p e' = true) (hnow : ∀ now, p ⟨.now, now⟩ = false)
    (hclaim : ∀ consumer subjects limit now locked messages,
      p ⟨.claimPending consumer subjects limit now locked, messages⟩ = false) :
    onDurable p e = true := by
  obtain ⟨o, r⟩ := e
  cases o with
  | durable o =>
    obtain rfl := Option.some.inj hshown
    exact h
  | readPending =>
    cases r with
    | none => cases hshown
    | some r =>
      obtain rfl := Option.some.inj hshown
      rw [hnow] at h
      cases h
  | claimRow =>
    obtain rfl := Option.some.inj hshown
    rw [hclaim] at h
    cases h
  | _ => cases hshown

/-- A mark of the subject bus is one here. -/
theorem marks_of_shown {d : DeliveryId} {e : Event NatsBuses} {e' : Event Buses}
    (hshown : shownDurably e = some e') (h : marksDelivery d e' = true) :
    onDurable (marksDelivery d) e = true :=
  onDurable_of_shown hshown h (fun _ ↦ rfl) fun _ _ _ _ _ _ ↦ rfl

/-- A requeue of the subject bus is one here. -/
theorem requeues_of_shown {d : DeliveryId} {e : Event NatsBuses} {e' : Event Buses}
    (hshown : shownDurably e = some e') (h : requeuesDelivery d e' = true) :
    onDurable (requeuesDelivery d) e = true :=
  onDurable_of_shown hshown h (fun _ ↦ rfl) fun _ _ _ _ _ _ ↦ rfl

end

/-! ## Calls -/

section

variable {α β : Type} {c : NatsCall} {past : List (Event NatsBuses)} {s : NatsStore}
  {messages : List BusMessage}

/-- The method, taken up here, ends in `Q` if the transport is steady. -/
abbrev EndsIn (c : NatsCall) (Q : α → List (Event NatsBuses) → Prop) (p : Program NatsBuses α)
    (past : List (Event NatsBuses)) (s : NatsStore) : Prop :=
  Safe natsBuses.toMachine (.ofInv NatsStore.Running) (steady c) (fun a past _ ↦ Q a past) p past s

theorem EndsIn.op_bind {Q : α → List (Event NatsBuses) → Prop} {o : NatsOp}
    {f : o.Ans → Program NatsBuses α}
    (h : ∀ s', s'.Running → steady c past o s' →
      EndsIn c Q (f (o.exec s').2) (past ++ [⟨o, (o.exec s').2⟩]) (o.exec s').1) :
    EndsIn c Q (NatsJetStreamBus.call o >>= f) past s :=
  fun s' _ hrunning _ guarded ↦ ⟨hrunning.exec guarded, trivial, h s' hrunning guarded⟩

theorem EndsIn.done {Q : α → List (Event NatsBuses) → Prop} {a : α} (h : Q a past) :
    EndsIn c Q (.done a) past s :=
  fun _ _ _ ↦ h

theorem EndsIn.bind {Q : α → List (Event NatsBuses) → Prop} {P : β → List (Event NatsBuses) → Prop}
    {p : Program NatsBuses β} {f : β → Program NatsBuses α} (hp : EndsIn c P p past s)
    (hf : ∀ b past s, P b past → EndsIn c Q (f b) past s) : EndsIn c Q (p >>= f) past s :=
  Safe.seq hp fun b past s _ ↦ hf b past s

/-! ### Marks -/

/-- Every call ends somehow. -/
theorem EndsIn.trivially (p : Program NatsBuses α) : EndsIn c (fun _ _ ↦ True) p past s :=
  Safe.of_ops (fun _ _ s (hrunning : s.Running) _ guarded ↦ ⟨hrunning.exec guarded, trivial⟩) p
    past s

open NatsJetStreamBus in
/-- A mark records its outcome. -/
theorem mark_recorded (bus : NatsBus) (broker : MarkAnswers) {id : DeliveryId} {status : BusStatus}
    {error : Option Text} {retryAfterSeconds : Option Time}
    (hc : c.outcome = some (id, status, error, retryAfterSeconds)) :
    EndsIn c (fun _ past ↦ OutcomeWritten past (id, status, error, retryAfterSeconds))
      (mark bus id broker (SubjectBus.updateStatus id status error retryAfterSeconds)) past s := by
  refine (EndsIn.trivially (settleMessage bus id broker)).bind fun settled past s _ ↦ ?_
  split
  · refine EndsIn.bind
      (P := fun _ past ↦ OutcomeWritten past (id, status, error, retryAfterSeconds)) ?_
      fun _ _ _ h ↦ .done h
    refine EndsIn.op_bind (o := .durable (.getDelivery id))
      (f := fun row ↦ durably (match row with
        | none => pure none
        | some row => do
          let now ← SubjectBus.call .now
          SubjectBus.call (.update ⟨status, error, retryAfterSeconds.map (now + ·)⟩ id row)))
      fun s' _ _ ↦ ?_
    cases hrow : (NatsOp.exec (.durable (.getDelivery id)) s').2 with
    | none => exact .done (.inl (by simp))
    | some row =>
      refine EndsIn.op_bind (o := .durable .now) fun t _ _ ↦ ?_
      refine EndsIn.op_bind (o := .durable (.update
        ⟨status, error, retryAfterSeconds.map (t.durable.now + ·)⟩ id row)) fun u _ _ ↦ ?_
      exact .done (.inr ⟨row, t.durable.now, _,
        List.mem_append_right _ (List.mem_singleton_self _)⟩)
  · exact EndsIn.op_bind fun s' _ guarded ↦ nomatch hc.symm.trans guarded.1

/-! ### Claims -/

theorem handed_nil : Handed messages [] :=
  fun _ he ↦ absurd he List.not_mem_nil

/-- A step that takes nothing. -/
theorem Handed.concat (h : Handed messages past) {e : Event NatsBuses}
    (he : ∀ d, takesDelivery d e = false) : Handed messages (past ++ [e]) := by
  intro e' he' d htakes
  rcases List.mem_append.mp he' with he' | he'
  · exact h e' he' d htakes
  · obtain rfl := List.mem_singleton.mp he'
    rw [he d] at htakes
    cases htakes

theorem Handed.append {more : List BusMessage} (h : Handed messages past) :
    Handed (messages ++ more) past := by
  intro e he d htakes
  obtain ⟨m, hm, hid⟩ := h e he d htakes
  exact ⟨m, List.mem_append_left _ hm, hid⟩

/-- Where nothing may have been claimed, nothing has been taken. -/
theorem handed_of_mayTake (h : ∀ e ∈ past, mayTake e = false) : Handed messages past := by
  intro e he d htakes
  have hnone := h e he
  obtain ⟨o, r⟩ := e
  cases o with
  | durable o =>
    cases o with
    | claimPending => cases hnone
    | _ => cases htakes
  | claimRow => cases hnone
  | _ => cases htakes

namespace NatsJetStreamBus

/-- What one message leads to. -/
def Claimed (messages : List BusMessage) (past : List (Event NatsBuses)) :
    Except Unit (Option BusMessage) → Prop
  | .ok (some claimed) => Handed (messages ++ [claimed]) past
  | _ => Handed messages past

theorem claimDelivery_handed (consumer subject : Text) (raw : RawMessage)
    (h : Handed messages past) :
    EndsIn c (fun claimed past ↦ Claimed messages past claimed)
      (claimDeliveryForMessage consumer subject raw) past s := by
  rw [claimDeliveryForMessage]
  split
  · exact .done h
  · exact .done h
  · next eventId _ =>
    refine EndsIn.op_bind fun s' _ _ ↦ ?_
    have hread : Handed messages (past ++ [⟨.readPending eventId consumer subject,
        (NatsOp.exec (.readPending eventId consumer subject) s').2⟩]) := h.concat fun _ ↦ rfl
    split
    · exact .done hread
    · next id row now _ =>
      refine EndsIn.op_bind fun t hrunning guarded ↦ ?_
      obtain ⟨m, hm, hid⟩ := hrunning.claimRow now guarded.1
      refine .done ?_
      change Claimed messages _ (.ok (t.claimRow id row now).2)
      rw [hm]
      intro e he d htakes
      rcases List.mem_append.mp he with he | he
      · exact hread.append e he d htakes
      · obtain rfl := List.mem_singleton.mp he
        obtain rfl : id = d := of_decide_eq_true htakes
        exact ⟨m, List.mem_append_right _ (List.mem_singleton_self m), hid⟩

/-- What the broker's messages lead to. -/
def AllHanded (past : List (Event NatsBuses)) :
    Except (List BusMessage) (List BusMessage) → Prop
  | .ok messages | .error messages => Handed messages past

theorem claimMessages_handed (bus : NatsBus) (client : NatsClientId) (consumer subject : Text)
    (limit : ℕ) (raws : List RawMessage) (h : Handed messages past) :
    EndsIn c (fun claimed past ↦ AllHanded past claimed)
      (claimMessages bus client consumer subject limit raws messages) past s := by
  induction raws generalizing messages past s with
  | nil => exact .done h
  | cons raw raws ih =>
    rw [claimMessages]
    refine (claimDelivery_handed consumer subject raw h).bind ?_
    rintro (_ | _ | claimed) past s hclaimed
    · exact .done hclaimed
    · exact EndsIn.op_bind fun _ _ guarded ↦ guarded.elim
    · refine EndsIn.op_bind fun t _ _ ↦ ?_
      have hheld := Handed.concat hclaimed (e := ⟨.hold bus claimed.deliveryId client, ()⟩)
        fun _ ↦ rfl
      split
      · exact .done hheld
      · exact ih hheld

theorem claimSubjects_handed (bus : NatsBus) (client : NatsClientId) (consumer : Text) (limit : ℕ)
    (subjects : List (Text × SubjectFetch)) (h : Handed messages past) :
    EndsIn c (fun claimed past ↦ AllHanded past claimed)
      (claimSubjects bus client consumer limit subjects messages) past s := by
  induction subjects generalizing messages past s with
  | nil => exact .done h
  | cons subject subjects ih =>
    rw [claimSubjects]
    split
    · exact .done h
    · refine EndsIn.op_bind fun t _ _ ↦ ?_
      have hwaited := h.concat (e := ⟨.await bus, ()⟩) fun _ ↦ rfl
      split
      · refine EndsIn.op_bind fun t _ _ ↦ ?_
        have hfetched := hwaited.concat (e := ⟨.await bus, ()⟩) fun _ ↦ rfl
        split
        · exact ih hfetched
        · refine (claimMessages_handed bus client consumer _ limit _ hfetched).bind ?_
          rintro (_ | claimed) past s hclaimed
          · exact .done hclaimed
          · exact ih hclaimed
      · exact .done hwaited

theorem claimFromDatabase_handed (consumer : Text) (subjects : List (Text × SubjectFetch))
    (limit : ℕ) (locked : DeliveryId → Bool) (h : Handed [] past) :
    EndsIn c (fun messages past ↦ Handed messages past)
      (claimPendingFromDatabase consumer subjects limit locked) past s := by
  refine EndsIn.op_bind (o := .durable .now) fun t _ _ ↦ ?_
  have hnow := h.concat (e := ⟨.durable .now, t.durable.now⟩) fun _ ↦ rfl
  refine EndsIn.op_bind (o := .durable (.claimPending consumer (subjects.map Prod.fst) limit
    t.durable.now locked)) fun u _ _ ↦ .done fun e he d htakes ↦ ?_
  rcases List.mem_append.mp he with he | he
  · obtain ⟨m, hm, -⟩ := hnow e he d htakes
    cases hm
  · obtain rfl := List.mem_singleton.mp he
    obtain ⟨m, hm, hid⟩ := List.any_eq_true.mp htakes
    exact ⟨m, hm, of_decide_eq_true hid⟩

theorem claimPending_handed (bus : NatsBus) (consumer : Text)
    (subjects : List (Text × SubjectFetch)) (limit : ℕ) (broker : ClaimAnswers)
    (locked : DeliveryId → Bool) :
    EndsIn c (fun messages past ↦ Handed messages past)
      (claimPending bus consumer subjects limit broker locked) [] s := by
  have hnats : EndsIn c (fun claimed past ↦ AllHanded past claimed)
      (claimPendingFromNats bus consumer subjects limit broker) [] s := by
    refine EndsIn.op_bind fun t _ _ ↦ ?_
    have hwaited : Handed [] [⟨.await bus, ()⟩] := handed_nil.concat fun _ ↦ rfl
    split
    · refine EndsIn.op_bind fun t _ _ ↦ ?_
      have hconnected := hwaited.concat (e := ⟨.connect, t.nextClient⟩) fun _ ↦ rfl
      refine (claimSubjects_handed bus _ consumer limit subjects hconnected).bind
        fun claimed past s hclaimed ↦ ?_
      split
      · exact EndsIn.op_bind fun t _ _ ↦ .done (Handed.concat hclaimed fun _ ↦ rfl)
      · refine EndsIn.op_bind fun t _ _ ↦ .done ?_
        split <;> exact Handed.concat hclaimed fun _ ↦ rfl
      · exact .done hclaimed
    · exact .done hwaited
  rw [claimPending]
  split
  · refine hnats.bind fun claimed past s hclaimed ↦ ?_
    split
    · -- What raises has claimed nothing.
      refine EndsIn.op_bind fun t _ guarded ↦ ?_
      exact claimFromDatabase_handed consumer subjects limit locked
        ((handed_of_mayTake guarded.2).concat fun _ ↦ rfl)
    · exact claimFromDatabase_handed consumer subjects limit locked hclaimed
    · exact .done hclaimed
  · exact claimFromDatabase_handed consumer subjects limit locked handed_nil

end NatsJetStreamBus

end

/-! ## Runs -/

/-- What holds of every call of a steady run once it has ended: its outcome is recorded, and it has
returned all that it has set to processing. -/
def Fulfilled (c : NatsCall) (past : List (Event NatsBuses)) : Prop :=
  (∀ outcome, c.outcome = some outcome → OutcomeWritten past outcome) ∧
    (c.claims = true → ∃ messages, ⟨.hand messages, ()⟩ ∈ past ∧ Handed messages past)

theorem body_fulfilled (c : NatsCall) (s : NatsStore) :
    EndsIn c (fun _ ↦ Fulfilled c) (natsBuses.body c) [] s := by
  cases c with
  | claimPending bus consumer subjects limit broker locked =>
    refine EndsIn.bind (NatsJetStreamBus.claimPending_handed bus consumer subjects limit broker
      locked) fun messages past s h ↦ ?_
    refine EndsIn.op_bind (o := .hand messages) (f := .done) fun t _ _ ↦ .done ⟨nofun, fun _ ↦ ?_⟩
    exact ⟨messages, by simp, h.concat fun _ ↦ rfl⟩
  | markCompleted bus id broker =>
    refine Safe.mono (mark_recorded bus broker rfl) fun _ past _ h ↦ ⟨?_, nofun⟩
    rintro _ ⟨⟩
    exact h
  | markFailed bus id error retryable retryAfterSeconds broker =>
    refine Safe.mono (mark_recorded bus broker rfl) fun _ past _ h ↦ ⟨?_, nofun⟩
    rintro _ ⟨⟩
    exact h
  | publish | requeueStaleProcessing | advance =>
    exact Safe.mono (EndsIn.trivially _) fun _ _ _ _ ↦ ⟨nofun, nofun⟩

section

variable {w v w' : World NatsBuses NatsCall NatsStore} {log log' : List (Entry NatsBuses NatsCall)}
  {d : DeliveryId}

theorem running_of_logs (run : natsBuses.Logs steady w log w') (running : w.store.Running) :
    w'.store.Running :=
  run.keeps (P := fun _ s ↦ s.Running) running fun _ _ _ _ _ h _ guarded ↦ h.exec guarded

theorem shows_subjectBus {u : World Buses BusCall BusStore} {partner : ℕ → Option ℕ}
    (run : natsBuses.Logs steady w log w')
    (start : Service.Matched subjectBus NatsStore.durable shownDurably partner w u) :
    ∃ partner' log' u', subjectBus.Logs Guard.free u log' u' ∧
      Service.Matched subjectBus NatsStore.durable shownDurably partner' w' u' ∧
      log'.map Entry.event = log.filterMap fun entry ↦ shownDurably entry.event :=
  run.simulates start body_follows fun _ _ _ _ _ guarded ↦ steady_mimics guarded

/-- What a step of a steady run takes is claimed on the subject bus. -/
theorem shown_of_takes (run : natsBuses.Logs steady w log w') (running : w.store.Running)
    {before after : List (Entry NatsBuses NatsCall)} {entry : Entry NatsBuses NatsCall}
    (hlog : log = before ++ entry :: after) (htakes : takesDelivery d entry.event = true) :
    ∃ e, shownDurably entry.event = some e ∧ claimsDelivery d e = true := by
  obtain ⟨v, i, past, o, k, hrun, -, guarded, hevent⟩ := run.taken hlog
  rw [hevent] at htakes ⊢
  exact (running_of_logs hrun running).takes guarded htakes

/-- A list whose image has two marked places has them too. -/
private theorem split_of_map {α β : Type} {f : α → β} {l : List α} {a b c : List β} {x y : β}
    (h : l.map f = a ++ x :: (b ++ y :: c)) :
    ∃ a' x' b' y' c', l = a' ++ x' :: (b' ++ y' :: c') ∧ f x' = x ∧ f y' = y ∧ b'.map f = b := by
  obtain ⟨a', rest, rfl, -, hrest⟩ := List.map_eq_append_iff.mp h
  obtain ⟨x', rest, rfl, hx, hrest⟩ := List.map_eq_cons_iff.mp hrest
  obtain ⟨b', rest, rfl, hb, hrest⟩ := List.map_eq_append_iff.mp hrest
  obtain ⟨y', c', rfl, hy, -⟩ := List.map_eq_cons_iff.mp hrest
  exact ⟨a', x', b', y', c', rfl, hx, hy, hb⟩

/-- Between two takings of a delivery it is marked or requeued. -/
theorem taken_apart (run : natsBuses.Logs steady w log w') (idle : w.threads = [])
    (running : w.store.Running) {before between after : List (Entry NatsBuses NatsCall)}
    {entry entry' : Entry NatsBuses NatsCall}
    (hlog : log = before ++ entry :: (between ++ entry' :: after))
    (htakes : takesDelivery d entry.event = true) (htakes' : takesDelivery d entry'.event = true) :
    ∃ e ∈ between, onDurable (marksDelivery d) e.event = true ∨
      onDurable (requeuesDelivery d) e.event = true := by
  obtain ⟨-, log₀, w₀, hrun, -, hshown⟩ := shows_subjectBus run (Service.matched_idle idle)
  obtain ⟨e, he, hclaim⟩ := shown_of_takes run running hlog htakes
  have hlog' : log = (before ++ entry :: between) ++ entry' :: after := by
    rw [hlog, List.append_assoc, List.cons_append]
  obtain ⟨e', he', hclaim'⟩ := shown_of_takes run running hlog' htakes'
  rw [hlog] at hshown
  simp only [List.filterMap_append, List.filterMap_cons, he, he'] at hshown
  obtain ⟨before₀, x, between₀, y, after₀, hlog₀, hx, hy, hbetween⟩ := split_of_map hshown
  rw [← hx] at hclaim
  rw [← hy] at hclaim'
  obtain ⟨e₀, he₀, hlets⟩ := claims_apart hrun running.sound hlog₀ hclaim hclaim'
  have hmem : e₀.event ∈ between₀.map Entry.event := List.mem_map_of_mem he₀
  rw [hbetween] at hmem
  obtain ⟨b, hb, hshows⟩ := List.mem_filterMap.mp hmem
  exact ⟨b, hb, hlets.imp (marks_of_shown hshows) (requeues_of_shown hshows)⟩

/-- What claims a delivery on the subject bus takes it here. -/
theorem takes_of_shown {o : NatsOp} {s : NatsStore} {e : Event Buses}
    (hshown : shownDurably ⟨o, (o.exec s).2⟩ = some e) (hclaim : claimsDelivery d e = true) :
    takesDelivery d ⟨o, (o.exec s).2⟩ = true := by
  cases o with
  | durable o =>
    obtain rfl := Option.some.inj hshown
    exact hclaim
  | readPending eventId consumer subject =>
    cases hread : (NatsOp.exec (.readPending eventId consumer subject) s).2 with
    | none =>
      rw [hread] at hshown
      cases hshown
    | some r =>
      rw [hread] at hshown
      obtain rfl := Option.some.inj hshown
      cases hclaim
  | claimRow id loaded now =>
    obtain rfl := Option.some.inj hshown
    obtain ⟨m, hm, hid⟩ := List.any_eq_true.mp hclaim
    obtain ⟨event, -, rfl⟩ := Option.map_eq_some_iff.mp (Option.mem_toList.mp hm)
    exact hid
  | _ => cases hshown

/-- What is pending stays pending until it is taken or marked. -/
theorem pending_until_taken (before : natsBuses.Logs steady w log v) (idle : w.threads = [])
    (running : w.store.Running) (after : natsBuses.Logs steady v log' w')
    (pending : v.store.durable.statusOf d = some .pending) :
    ∃ status, w'.store.durable.statusOf d = some status ∧ (status = .pending ∨
      ∃ e ∈ log', takesDelivery d e.event = true ∨
        onDurable (marksDelivery d) e.event = true) := by
  obtain ⟨partner, log₀, v₀, hrun₀, hmatched, -⟩ :=
    shows_subjectBus before (Service.matched_idle idle)
  obtain ⟨partner', log₁, w₁, hrun₁, hmatched', hshown⟩ := shows_subjectBus after hmatched
  have hsound : v₀.store.Sound := sound_of_logs hrun₀ running.sound
  rw [← hmatched.store] at pending
  obtain ⟨status, hstatus, hkept⟩ := pending_kept hrun₁ hsound pending
  rw [hmatched'.store] at hstatus
  refine ⟨status, hstatus, hkept.imp_right ?_⟩
  rintro ⟨e₁, he₁, h⟩
  have hmem : e₁.event ∈ log₁.map Entry.event := List.mem_map_of_mem he₁
  rw [hshown] at hmem
  obtain ⟨e, he, hshows⟩ := List.mem_filterMap.mp hmem
  refine ⟨e, he, ?_⟩
  rcases h with hclaim | hmark
  · obtain ⟨pre, post, hlog⟩ := List.append_of_mem he
    obtain ⟨u, i, past, o, k, -, -, -, hevent⟩ := after.taken hlog
    rw [hevent] at hshows ⊢
    exact .inl (takes_of_shown hshows hclaim)
  · exact .inr (marks_of_shown hshows hmark)

/-- In a steady run no call waits for ever, and what has ended has done what it is for. -/
theorem calls_fulfilled (run : natsBuses.Logs steady w log w') (idle : w.threads = [])
    (running : w.store.Running) : ∀ t ∈ w'.threads,
      (∀ o k, t.rest = .call o k → natsBuses.ready o w'.store = true) ∧
        (t.rest = .done () → Fulfilled t.call t.past) := by
  intro t ht
  have hmeets := (run.reaches.sound (K := .ofInv NatsStore.Running) (Q := fun c past _ ↦
    Fulfilled c past) (fun c s _ ↦ body_fulfilled c s) running idle).1
  refine ⟨fun o k _ ↦ ?_, hmeets.finished ht⟩
  cases o with
  | await bus =>
    have hfree : w'.store.stuck = [] := hmeets.inv.free
    simp [natsBuses, NatsOp.ready, hfree]
  | _ => rfl

end

/-- In every steady run of any number of workers, whatever the broker does with its messages: the
steps show a run of the subject bus on the same tables; between two takings of a delivery it is
marked or requeued; a pending delivery stays there, pending until it is taken or marked; no call
waits for ever, a mark that has ended has recorded its outcome, and a claim that has ended has
returned all that it has set to processing. -/
theorem nats_changes_only_latency (w : World NatsBuses NatsCall NatsStore) (idle : w.threads = [])
    (running : w.store.Running) :
    (∀ log w', natsBuses.Logs steady w log w' → ∃ log₀ w₀,
      subjectBus.Logs Guard.free ⟨w.store.durable, []⟩ log₀ w₀ ∧ w₀.store = w'.store.durable ∧
        log₀.map Entry.event = log.filterMap fun entry ↦ shownDurably entry.event) ∧
    (∀ log w', natsBuses.Logs steady w log w' → ∀ d before entry between entry' after,
      log = before ++ entry :: (between ++ entry' :: after) →
      takesDelivery d entry.event = true → takesDelivery d entry'.event = true →
      ∃ e ∈ between, onDurable (marksDelivery d) e.event = true ∨
        onDurable (requeuesDelivery d) e.event = true) ∧
    (∀ log v log' w', natsBuses.Logs steady w log v → natsBuses.Logs steady v log' w' →
      ∀ d, v.store.durable.statusOf d = some .pending →
        ∃ status, w'.store.durable.statusOf d = some status ∧ (status = .pending ∨
          ∃ e ∈ log', takesDelivery d e.event = true ∨
            onDurable (marksDelivery d) e.event = true)) ∧
    (∀ log w', natsBuses.Logs steady w log w' → ∀ t ∈ w'.threads,
      (∀ o k, t.rest = .call o k → natsBuses.ready o w'.store = true) ∧
        (t.rest = .done () → Fulfilled t.call t.past)) := by
  refine ⟨fun log w' run ↦ ?_, fun log w' run d before entry between entry' after hlog ↦ ?_,
    fun log v log' w' before after d ↦ ?_, fun log w' run ↦ ?_⟩
  · obtain ⟨partner, log₀, w₀, hrun, hmatched, hshown⟩ :=
      shows_subjectBus run (Service.matched_idle idle)
    exact ⟨log₀, w₀, hrun, hmatched.store, hshown⟩
  · exact taken_apart run idle running hlog
  · exact pending_until_taken before idle running after
  · exact calls_fulfilled run idle running

/-! ### Runs that are not steady -/

/-- A usage record has just been published. -/
def onePublishedNats : World NatsBuses NatsCall NatsStore where
  store := ⟨onePublished.store, .empty, [], 0⟩
  threads := []

theorem onePublishedNats_running : onePublishedNats.store.Running :=
  ⟨onePublished_sound, rfl⟩

/-- A message for the event, with its number in the header. -/
def usageMessage : RawMessage := ⟨some 0, .notJson⟩

/-- The worker of a process claims; the broker has these messages for its first subject, and
subscribing to its second one raises or returns nothing. -/
def natsWorker (process : ℕ) (raws : List RawMessage) (subscribes : Bool) : NatsCall :=
  .claimPending ⟨process, true⟩ "control-plane-worker".toList
    [("usage.recorded".toList, ⟨true, some raws⟩),
      ("invocation.recorded".toList, ⟨subscribes, some []⟩)] 10 ⟨true, true⟩ fun _ ↦ false

/-- The worker's bus returns the delivery. -/
def handsUsage : Event NatsBuses → Bool
  | ⟨.hand messages, _⟩ => messages.any fun m ↦ m.deliveryId = 0
  | _ => false

/-- The call waits for something that never comes. -/
def stuckIn (s : NatsStore) (t : Thread NatsBuses NatsCall) : Bool :=
  match t.rest with
  | .done _ => false
  | .call o _ => !natsBuses.ready o s

/-- A worker claims the delivery through a message and completes it. -/
theorem nats_changes_only_latency_worker : ∃ log w',
    natsBuses.Logs steady onePublishedNats log w' ∧
      w'.store.durable.statusOf 0 = some .completed ∧
      ∃ log₀ w₀, subjectBus.Logs Guard.free ⟨onePublishedNats.store.durable, []⟩ log₀ w₀ ∧
        w₀.store = w'.store.durable ∧
        log₀.map Entry.event = log.filterMap fun entry ↦ shownDurably entry.event := by
  obtain ⟨log, w', hrun, hcompleted⟩ := Service.exists_logs_of_record (S := natsBuses)
    (G := steady) (w := onePublishedNats)
    ([.start (natsWorker 0 [usageMessage] true)] ++ List.replicate 10 (.step 0) ++
      [.start (.markCompleted ⟨0, true⟩ 0 ⟨true, true⟩)] ++ List.replicate 7 (.step 1))
    (P := fun _ w' ↦ w'.store.durable.statusOf 0 = some .completed) (by decide +kernel)
  exact ⟨log, w', hrun, hcompleted,
    (nats_changes_only_latency onePublishedNats rfl onePublishedNats_running).1 log w' hrun⟩

/-- Two workers fetch the message, and both read the delivery before either claims it: it is
returned twice. A worker's acknowledgement raises: its mark is never made. A worker has claimed the
delivery when subscribing to its next subject raises: it returns nothing. A worker fetches the
message twice: it waits for ever with the delivery in processing. -/
theorem nats_changes_more_than_latency :
    (∃ log w', natsBuses.Logs Guard.free onePublishedNats log w' ∧
      log.countP (fun entry ↦ handsUsage entry.event) = 2 ∧
      ∀ entry ∈ log, onDurable (marksDelivery 0) entry.event = false ∧
        onDurable (requeuesDelivery 0) entry.event = false) ∧
    (∃ log w', natsBuses.Logs Guard.free onePublishedNats log w' ∧
      (∃ t ∈ w'.threads, (t.call.outcome.any fun outcome ↦ outcome.1 = 0) = true ∧
        t.rest = .done ()) ∧
      w'.store.durable.statusOf 0 = some .processing ∧
      ∀ entry ∈ log, onDurable (marksDelivery 0) entry.event = false) ∧
    (∃ log w', natsBuses.Logs Guard.free onePublishedNats log w' ∧
      (∀ t ∈ w'.threads, t.rest = .done ()) ∧
      w'.store.durable.statusOf 0 = some .processing ∧
      ∀ entry ∈ log, handsUsage entry.event = false) ∧
    ∃ log w', natsBuses.Logs Guard.free onePublishedNats log w' ∧
      (∃ t ∈ w'.threads, stuckIn w'.store t = true) ∧
      w'.store.durable.statusOf 0 = some .processing ∧
      ∀ entry ∈ log, handsUsage entry.event = false := by
  refine ⟨?_, ?_, ?_, ?_⟩
  · exact Service.exists_logs_of_record (S := natsBuses) (G := Guard.free) (w := onePublishedNats)
      ([.start (natsWorker 0 [usageMessage] true), .start (natsWorker 1 [usageMessage] true)] ++
        List.replicate 5 (.step 0) ++ List.replicate 5 (.step 1) ++
        List.replicate 5 (.step 0) ++ List.replicate 5 (.step 1)) (by decide +kernel)
  · exact Service.exists_logs_of_record (S := natsBuses) (G := Guard.free) (w := onePublishedNats)
      ([.start (natsWorker 0 [usageMessage] true)] ++ List.replicate 10 (.step 0) ++
        [.start (.markCompleted ⟨0, true⟩ 0 ⟨false, true⟩)] ++ List.replicate 5 (.step 1))
      (by decide +kernel)
  · exact Service.exists_logs_of_record (S := natsBuses) (G := Guard.free) (w := onePublishedNats)
      ([.start (natsWorker 0 [usageMessage] false)] ++ List.replicate 12 (.step 0))
      (by decide +kernel)
  · exact Service.exists_logs_of_record (S := natsBuses) (G := Guard.free) (w := onePublishedNats)
      ([.start (natsWorker 0 [usageMessage, usageMessage] true)] ++ List.replicate 9 (.step 0))
      (by decide +kernel)

end GreenCompute
