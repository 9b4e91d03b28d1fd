import GreenCompute.ControlPlane.Tables
import GreenCompute.Foundations.Paging
import GreenCompute.Foundations.Steps
import GreenCompute.Foundations.Table
import Mathlib.Data.List.Sort

/-!
# Account events

What happens on an account is a row of `account_events`. A row is seen once its writer's transaction
commits; its id is taken before that, and its time before the id: a sweep stamps its events with the
time it started at. A writer takes an event's id under the customer's lock and holds the lock until
the commit, so one customer's events become visible in the order of their ids (`Settled`). Between
customers they need not.
-/

namespace GreenCompute

abbrev AccountEventId := ℕ
abbrev WriterId := ℕ

/-! ## Events -/

/-- `EVENT_TYPES` -/
inductive EventType where
  | deploymentReady
  | deploymentFailed
  | deploymentSuspended
  | deploymentTerminated
  | balanceLow
  | capacityAvailable
  deriving DecidableEq

/-- The type of the event for a deployment that comes to a state, if the state is one of
`_DEPLOYMENT_STATES`. -/
def DeploymentState.eventType : DeploymentState → Option EventType
  | ready => some .deploymentReady
  | failed => some .deploymentFailed
  | suspended => some .deploymentSuspended
  | terminated => some .deploymentTerminated
  | _ => none

/-- What an event says of a deployment. -/
structure DeploymentNews where
  deploymentId : DeploymentId
  name : Option Text
  workloadId : WorkloadId
  state : DeploymentState
  previousState : Option DeploymentState
  error : Option Text
  suspendedReason : Option Text
  deriving DecidableEq

/-- An event. What the other events carry is only sent on. -/
structure AccountEvent where
  userId : UserId
  type : EventType
  data : Option DeploymentNews
  createdAt : Time
  deriving DecidableEq

/-- `_ERROR_CHARS` -/
def errorChars : ℕ := 1000

/-- `deployment_event` -/
def deploymentEvent (d : DeploymentId) (row : DeploymentRecord)
    (previousState : Option DeploymentState) (now : Time) : Option AccountEvent :=
  match row.ownerUserId, row.state.eventType with
  | some userId, some type =>
    if some row.state = previousState then none
    else
      let error := if row.state = .ready then none else row.lastError
      some
        { userId := userId
          type := type
          data := some
            { deploymentId := d
              name := row.name
              workloadId := row.workloadId
              state := row.state
              previousState := previousState
              error := (error.filter fun e ↦ e ≠ []).map fun e ↦ e.take errorChars
              suspendedReason := if row.state = .suspended then row.suspendedReason else none }
          createdAt := now }
  | _, _ => none

/-- What there is to write an event about. -/
inductive News where
  | deployment (d : DeploymentId) (row : DeploymentRecord) (previousState : Option DeploymentState)
  | balanceLow (userId : UserId)
  | capacityAvailable (userId : UserId)

/-- The event that a writer adds: `deployment_event`, `_balance_low_event`, and what `check_once`
writes for an alert that fires. -/
def News.event (stamp : Time) : News → Option AccountEvent
  | deployment d row previousState => deploymentEvent d row previousState stamp
  | balanceLow userId => some ⟨userId, .balanceLow, none, stamp⟩
  | capacityAvailable userId => some ⟨userId, .capacityAvailable, none, stamp⟩

/-! ## The table and its writers -/

/-- A row, and whose transaction it waits for. -/
structure EventRow where
  event : AccountEvent
  writer : Option WriterId
  deriving DecidableEq

/-- The table, its sequence, and the transactions under way with the time that each stamps. -/
structure EventsDb where
  now : Time
  nextId : AccountEventId
  writers : Table WriterId Time
  rows : Table AccountEventId EventRow

namespace EventsDb

variable (s : EventsDb) (w : WriterId)

/-- An event that anyone can read. -/
def Committed (i : AccountEventId) (e : AccountEvent) : Prop := s.rows.get? i = some ⟨e, none⟩

instance (i : AccountEventId) (e : AccountEvent) : Decidable (s.Committed i e) :=
  inferInstanceAs (Decidable (s.rows.get? i = some ⟨e, none⟩))

/-- The committed rows that meet a condition, `order_by(AccountEventORM.event_id)`. -/
def read (p : AccountEventId → AccountEvent → Bool) : List (AccountEventId × AccountEvent) :=
  ((s.rows.select fun i r ↦ r.writer = none ∧ p i r.event).map fun r ↦
    (r.1, r.2.event)).insertionSort fun a b ↦ a.1 ≤ b.1

/-- `func.max(AccountEventORM.event_id)` over the committed rows that meet a condition, or 0. -/
def latest (p : AccountEventId → AccountEvent → Bool) : AccountEventId :=
  cursorAfter Prod.fst 0 (s.read p)

/-- `add_event` -/
def addEvent (event : Option AccountEvent) : EventsDb :=
  match event with
  | none => s
  | some event =>
    { s with nextId := s.nextId + 1, rows := s.rows.insert s.nextId ⟨event, some w⟩ }

/-- A transaction commits. -/
def commit : EventsDb :=
  { s with
    writers := s.writers.filter fun w' _ ↦ w' ≠ w
    rows := s.rows.map fun _ r ↦ if r.writer = some w then { r with writer := none } else r }

/-- A transaction is rolled back. -/
def abort : EventsDb :=
  { s with
    writers := s.writers.filter fun w' _ ↦ w' ≠ w
    rows := s.rows.filter fun _ r ↦ r.writer ≠ some w }

/-- Nobody else holds the customer's event lock. -/
def Locks (userId : UserId) : Prop :=
  ∀ x ∈ s.rows.rows, x.2.event.userId = userId → x.2.writer = none ∨ x.2.writer = some w

instance (userId : UserId) : Decidable (s.Locks w userId) :=
  inferInstanceAs (Decidable (∀ x ∈ s.rows.rows, _))

end EventsDb

/-- The steps of the writers, and time. -/
inductive EventOp where
  | advance (elapsed : Time)
  | start (w : WriterId)
  | write (w : WriterId) (news : News)
  | commit (w : WriterId)
  | abort (w : WriterId)

namespace EventOp

open EventsDb

def exec : EventOp → EventsDb → EventsDb
  | advance elapsed, s => { s with now := s.now + elapsed }
  | start w, s => { s with writers := s.writers.insert w s.now }
  | write w news, s =>
    match s.writers.get? w with
    | some stamp => s.addEvent w (news.event stamp)
    | none => s
  | commit w, s => s.commit w
  | abort w, s => s.abort w

/-- What can happen: time does not run backwards, and a row is added under the customer's lock. -/
def Possible : EventOp → EventsDb → Prop
  | advance elapsed, _ => 0 ≤ elapsed
  | start w, s => s.writers.get? w = none
  | write w news, s => ∀ stamp ∈ s.writers.get? w, ∀ e ∈ news.event stamp, s.Locks w e.userId
  | _, _ => True

instance (o : EventOp) (s : EventsDb) : Decidable (o.Possible s) := by
  cases o <;> unfold Possible <;> infer_instance

end EventOp

namespace EventsDb

variable {s : EventsDb} {o : EventOp} {i : AccountEventId} {e : AccountEvent} {r : EventRow}

/-! ## Reading -/

theorem mem_read {p : AccountEventId → AccountEvent → Bool} :
    (i, e) ∈ s.read p ↔ s.Committed i e ∧ p i e = true := by
  rw [read, List.mem_insertionSort, List.mem_map]
  constructor
  · rintro ⟨⟨i', e', writer⟩, hmem, ⟨⟩⟩
    obtain ⟨hget, hp⟩ := Table.mem_select.mp hmem
    obtain ⟨rfl, hp⟩ := of_decide_eq_true hp
    exact ⟨hget, hp⟩
  · rintro ⟨hget, hp⟩
    exact ⟨(i, ⟨e, none⟩), Table.mem_select.mpr ⟨hget, decide_eq_true ⟨rfl, hp⟩⟩, rfl⟩

theorem ascending_read (s : EventsDb) (p : AccountEventId → AccountEvent → Bool) :
    Ascending Prod.fst (s.read p) := by
  have hsorted : (s.read p).Pairwise fun a b ↦ a.1 ≤ b.1 := List.pairwise_insertionSort _ _
  have hnodup : ((s.read p).map Prod.fst).Nodup := by
    rw [read, ((List.perm_insertionSort _ _).map _).nodup_iff, List.map_map]
    exact s.rows.nodup_select _
  exact hsorted.imp₂ (fun _ _ hle hne ↦ lt_of_le_of_ne hle hne) (List.pairwise_map.mp hnodup)

theorem latest_cases (s : EventsDb) (p : AccountEventId → AccountEvent → Bool) :
    s.latest p = 0 ∨ ∃ e, s.Committed (s.latest p) e ∧ p (s.latest p) e = true := by
  rcases cursorAfter_cases Prod.fst 0 (s.read p) with ⟨-, heq⟩ | ⟨⟨i, e⟩, hmem, heq⟩
  · exact .inl heq
  · refine .inr ⟨e, ?_⟩
    rw [latest, heq]
    exact mem_read.mp hmem

/-! ## One customer's events are seen in order -/

/-- The ids come from the sequence, a customer's rows that wait for a commit are those of one
transaction, and they are above those that can be read. -/
structure Sound (s : EventsDb) : Prop where
  nextId_pos : 0 < s.nextId
  bounds : ∀ i r, s.rows.get? i = some r → 0 < i ∧ i < s.nextId
  locked : ∀ i r j r' w w', s.rows.get? i = some r → s.rows.get? j = some r' →
    r.event.userId = r'.event.userId → r.writer = some w → r'.writer = some w' → w = w'
  ordered : ∀ i r j r' w, s.rows.get? i = some r → s.rows.get? j = some r' →
    r.event.userId = r'.event.userId → r.writer = none → r'.writer = some w → i < j

/-- No event yet. -/
def empty : EventsDb := ⟨0, 1, .empty, .empty⟩

theorem get?_rows_empty (i : AccountEventId) : empty.rows.get? i = none := Table.get?_empty i

theorem sound_empty : empty.Sound where
  nextId_pos := Nat.one_pos
  bounds i r hr := absurd (hr.symm.trans (get?_rows_empty i)) (Option.some_ne_none r)
  locked i r _ _ _ _ hr := absurd (hr.symm.trans (get?_rows_empty i)) (Option.some_ne_none r)
  ordered i r _ _ _ hr := absurd (hr.symm.trans (get?_rows_empty i)) (Option.some_ne_none r)

/-- Nothing of the customer's at or below an id is still to be seen. -/
def Settled (s : EventsDb) (userId : UserId) (c : AccountEventId) : Prop :=
  c < s.nextId ∧ ∀ i r w, s.rows.get? i = some r → r.event.userId = userId → r.writer = some w →
    c < i

theorem Sound.settled (h : s.Sound) (hi : s.Committed i e) : s.Settled e.userId i :=
  ⟨(h.bounds i _ hi).2, fun j r w hj huser hwriter ↦
    h.ordered i _ j r w hi hj huser.symm rfl hwriter⟩

theorem Sound.settled_zero (h : s.Sound) (userId : UserId) : s.Settled userId 0 :=
  ⟨h.nextId_pos, fun i r _ hi _ _ ↦ (h.bounds i r hi).1⟩

theorem Sound.settled_latest (h : s.Sound) {p : AccountEventId → AccountEvent → Bool}
    {userId : UserId} (hp : ∀ i e, p i e = true → e.userId = userId) :
    s.Settled userId (s.latest p) := by
  rcases s.latest_cases p with hzero | ⟨e, hcommitted, hpe⟩
  · rw [hzero]
    exact h.settled_zero userId
  · rw [← hp _ e hpe]
    exact h.settled hcommitted

/-- A row after a step of the writers: as it was, committed, or new. -/
theorem get?_exec (hr : (o.exec s).rows.get? i = some r) :
    s.rows.get? i = some r ∨
      (∃ w, o = .commit w ∧ r.writer = none ∧ s.rows.get? i = some { r with writer := some w }) ∨
      ∃ w news stamp, o = .write w news ∧ s.writers.get? w = some stamp ∧
        news.event stamp = some r.event ∧ r.writer = some w ∧ i = s.nextId := by
  cases o with
  | advance elapsed => exact .inl hr
  | start w => exact .inl hr
  | write w news =>
    simp only [EventOp.exec] at hr
    cases hstamp : s.writers.get? w with
    | none =>
      rw [hstamp] at hr
      exact .inl hr
    | some stamp =>
      rw [hstamp] at hr
      cases hevent : news.event stamp with
      | none =>
        simp only [hevent, addEvent] at hr
        exact .inl hr
      | some event =>
        simp only [hevent, addEvent] at hr
        rw [Table.get?_insert] at hr
        split at hr
        · next hi =>
          obtain rfl := Option.some.inj hr
          exact .inr (.inr ⟨w, news, stamp, rfl, hstamp, hevent, rfl, hi⟩)
        · exact .inl hr
  | commit w =>
    change (s.rows.map _).get? i = some r at hr
    rw [Table.get?_map] at hr
    obtain ⟨r', hr', heq⟩ := Option.map_eq_some_iff.mp hr
    split at heq
    · next hwriter =>
      subst heq
      refine .inr (.inl ⟨w, rfl, rfl, ?_⟩)
      rw [hr', ← hwriter]
    · subst heq
      exact .inl hr'
  | abort w =>
    change (s.rows.filter _).get? i = some r at hr
    rw [Table.get?_filter] at hr
    exact .inl (Option.filter_eq_some_iff.mp hr).1

theorem nextId_le_exec (o : EventOp) (s : EventsDb) : s.nextId ≤ (o.exec s).nextId := by
  cases o with
  | write w news =>
    simp only [EventOp.exec]
    split
    · unfold addEvent
      split
      · exact le_rfl
      · exact Nat.le_succ _
    · exact le_rfl
  | advance elapsed => exact le_rfl
  | start w => exact le_rfl
  | commit w => exact le_rfl
  | abort w => exact le_rfl

theorem nextId_exec_write {w : WriterId} {news : News} {stamp : Time}
    (hstamp : s.writers.get? w = some stamp) (hevent : news.event stamp = some e) :
    ((EventOp.write w news).exec s).nextId = s.nextId + 1 := by
  simp only [EventOp.exec, hstamp, hevent, addEvent]

/-- A transaction that has committed waits no more. -/
theorem writer_ne_of_commit {w : WriterId} (hr : (s.commit w).rows.get? i = some r) :
    r.writer ≠ some w := by
  change (s.rows.map _).get? i = some r at hr
  rw [Table.get?_map] at hr
  obtain ⟨r', -, heq⟩ := Option.map_eq_some_iff.mp hr
  split at heq
  · subst heq
    exact nofun
  · next hne =>
    subst heq
    exact hne

theorem Locks.eq_writer {w w' : WriterId} {userId : UserId} (h : s.Locks w userId)
    (hr : s.rows.get? i = some r) (huser : r.event.userId = userId) (hwriter : r.writer = some w') :
    w' = w := by
  rcases h _ (Table.mem_rows_iff.mpr hr) huser with hnone | hsome
  · exact nomatch hwriter.symm.trans hnone
  · exact Option.some.inj (hwriter.symm.trans hsome)

theorem Sound.exec (h : s.Sound) (hpossible : o.Possible s) : (o.exec s).Sound where
  nextId_pos := h.nextId_pos.trans_le (nextId_le_exec o s)
  bounds i r hr := by
    have hold : ∀ r', s.rows.get? i = some r' → 0 < i ∧ i < (o.exec s).nextId := fun r' hr' ↦
      ⟨(h.bounds i r' hr').1, (h.bounds i r' hr').2.trans_le (nextId_le_exec o s)⟩
    rcases get?_exec hr with hr | ⟨w, -, -, hr⟩ | ⟨w, news, stamp, rfl, hstamp, hevent, -, rfl⟩
    · exact hold _ hr
    · exact hold _ hr
    · rw [nextId_exec_write hstamp hevent]
      exact ⟨h.nextId_pos, Nat.lt_succ_self _⟩
  locked i r j r' w w' hr hr' huser hwriter hwriter' := by
    -- A row that is added is added under the customer's lock.
    rcases get?_exec hr with hold | ⟨_, -, hnone, -⟩ | ⟨w₁, news, stamp, rfl, hstamp, hevent, hw, -⟩
    · rcases get?_exec hr' with
        hold' | ⟨_, -, hnone, -⟩ | ⟨w₁, news, stamp, rfl, hstamp, hevent, hw, -⟩
      · exact h.locked i r j r' w w' hold hold' huser hwriter hwriter'
      · exact nomatch hwriter'.symm.trans hnone
      · obtain rfl := Option.some.inj (hwriter'.symm.trans hw)
        exact (hpossible stamp hstamp _ hevent).eq_writer hold huser hwriter
    · exact nomatch hwriter.symm.trans hnone
    · obtain rfl := Option.some.inj (hwriter.symm.trans hw)
      rcases get?_exec hr' with hold' | ⟨_, -, hnone, -⟩ | ⟨w₂, _, _, heq, -, -, hw', -⟩
      · exact ((hpossible stamp hstamp _ hevent).eq_writer hold' huser.symm hwriter').symm
      · exact nomatch hwriter'.symm.trans hnone
      · obtain ⟨rfl, rfl⟩ := EventOp.write.inj heq
        exact Option.some.inj (hw'.symm.trans hwriter')
  ordered i r j r' w hr hr' huser hwriter hwriter' := by
    rcases get?_exec hr' with hold | ⟨_, -, hnone, -⟩ | ⟨w₁, _, _, rfl, -, -, -, rfl⟩
    · rcases get?_exec hr with hr | ⟨w₀, rfl, -, hr⟩ | ⟨w₁, _, _, -, -, -, hw, -⟩
      · exact h.ordered i r j r' w hr hold huser hwriter hwriter'
      · -- The transaction that commits is the one that held the customer's lock.
        have hsame : w₀ = w := h.locked i _ j r' w₀ w hr hold huser rfl hwriter'
        subst hsame
        exact absurd hwriter' (writer_ne_of_commit hr')
      · exact nomatch hwriter.symm.trans hw
    · exact nomatch hwriter'.symm.trans hnone
    · rcases get?_exec hr with hr | ⟨_, heq, -⟩ | ⟨_, _, _, -, -, -, hw, -⟩
      · exact (h.bounds i r hr).2
      · cases heq
      · exact nomatch hwriter.symm.trans hw

/-- Once nothing at or below an id is still to be seen, nothing ever is. -/
theorem Settled.exec {userId : UserId} {c : AccountEventId} (h : s.Settled userId c) (o : EventOp) :
    (o.exec s).Settled userId c := by
  refine ⟨h.1.trans_le (nextId_le_exec o s), fun i r w hr huser hwriter ↦ ?_⟩
  rcases get?_exec hr with hr | ⟨w', -, hnone, -⟩ | ⟨w', news, stamp, rfl, -, -, -, rfl⟩
  · exact h.2 i r w hr huser hwriter
  · rw [hnone] at hwriter
    cases hwriter
  · exact h.1

/-- What comes to be seen is above whatever was settled. -/
theorem committed_exec (h : (o.exec s).Committed i e) :
    s.Committed i e ∨ ∀ c, s.Settled e.userId c → c < i := by
  rcases get?_exec h with hold | ⟨w, -, -, hr⟩ | ⟨w, news, stamp, -, -, -, hwriter, -⟩
  · exact .inl hold
  · exact .inr fun c hc ↦ hc.2 i _ w hr rfl rfl
  · cases hwriter

/-- What is seen stays. -/
theorem Sound.committed_of_exec (h : s.Sound) (hi : s.Committed i e) (o : EventOp) :
    (o.exec s).Committed i e := by
  have hlt := (h.bounds i _ hi).2
  cases o with
  | advance elapsed => exact hi
  | start w => exact hi
  | write w news =>
    simp only [EventOp.exec]
    split
    · unfold addEvent
      split
      · exact hi
      · exact (Table.get?_insert_ne _ hlt.ne _).trans hi
    · exact hi
  | commit w =>
    change (s.rows.map _).get? i = _
    rw [Table.get?_map, hi]
    rfl
  | abort w =>
    change (s.rows.filter _).get? i = _
    rw [Table.get?_filter, hi]
    rfl

end EventsDb

end GreenCompute
