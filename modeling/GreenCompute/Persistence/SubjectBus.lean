import GreenCompute.Billing.Tables
import GreenCompute.Foundations.Interleaving
import GreenCompute.Foundations.Rounding

/-!
# The subject bus

Publishing an event stores it with one delivery for each consumer of its subject. Workers claim
pending deliveries, run them, and mark them; one that stays in processing for too long is requeued.

Claiming locks the rows it selects and skips those that another transaction has locked, so it is
one step; which rows are locked is an argument of the call. A mark, and a requeue, first read their
rows without locking them and write them later, which are two steps: a column is written only if it
differs from what was read. Logs and the broker in front of the bus are left out.
-/

namespace GreenCompute

abbrev EventId := ℕ
abbrev DeliveryId := ℕ

/-! ## The tables -/

/-- The `status` of an event or a delivery. -/
inductive BusStatus where
  | pending
  | processing
  | completed
  | failed
  deriving DecidableEq

/-- A row of `workflow_events`. -/
structure WorkflowEvent where
  subject : Text
  payload : Text
  status : BusStatus
  attempts : ℕ
  availableAt : Time
  lastError : Option Text
  createdAt : Time
  updatedAt : Time

/-- A row of `bus_deliveries`. -/
structure Delivery where
  eventId : EventId
  consumer : Text
  subject : Text
  status : BusStatus
  attempts : ℕ
  availableAt : Time
  lastError : Option Text
  createdAt : Time
  updatedAt : Time

/-- `BusMessage` -/
structure BusMessage where
  deliveryId : DeliveryId
  eventId : EventId
  consumer : Text
  subject : Text
  payload : Text
  attempts : ℕ
  availableAt : Time
  lastError : Option Text

/-- The tables, the clock, and the identifiers drawn so far. -/
structure BusStore where
  events : Table EventId WorkflowEvent
  deliveries : Table DeliveryId Delivery
  now : Time
  nextEvent : ℕ
  nextDelivery : ℕ

/-- `SUBJECT_CONSUMERS` -/
def subjectConsumers : List (Text × List Text) :=
  [("build.accepted".toList, ["builder-worker".toList]),
    ("build.job.progress".toList, ["builder-worker".toList]),
    ("deployment.requested".toList, ["control-plane-worker".toList]),
    ("invocation.recorded".toList, ["control-plane-worker".toList]),
    ("usage.recorded".toList, ["control-plane-worker".toList]),
    ("probe.result.recorded".toList, ["validator-worker".toList]),
    ("validator.weights.published".toList, ["validator-worker".toList])]

/-- `_to_message` -/
def toMessage (id : DeliveryId) (row : Delivery) (event : WorkflowEvent) : BusMessage where
  deliveryId := id
  eventId := row.eventId
  consumer := row.consumer
  subject := row.subject
  payload := event.payload
  attempts := row.attempts
  availableAt := row.availableAt
  lastError := row.lastError

/-! ## Transactions -/

/-- The columns that a mark or a requeue assigns. -/
structure DeliveryUpdate where
  status : BusStatus
  lastError : Option Text
  availableAt : Option Time

/-- The update of a row that was read as `loaded`: columns that do not change are not written. -/
def DeliveryUpdate.write (u : DeliveryUpdate) (now : Time) (loaded row : Delivery) : Delivery :=
  { row with
    status := if loaded.status = u.status then row.status else u.status
    lastError := if loaded.lastError = u.lastError then row.lastError else u.lastError
    availableAt := u.availableAt.getD row.availableAt
    updatedAt := now }

/-- The same of the event's row, which is read in the transaction that writes it. -/
def DeliveryUpdate.writeEvent (u : DeliveryUpdate) (now : Time) (event : WorkflowEvent) :
    WorkflowEvent :=
  { event with
    status := u.status
    lastError := u.lastError
    availableAt := u.availableAt.getD event.availableAt
    updatedAt := now }

namespace BusStore

/-- One of the deliveries of a new event. -/
def addDelivery (eventId : EventId) (subject : Text) (s : BusStore) (consumer : Text) : BusStore :=
  { s with
    deliveries := s.deliveries.insert s.nextDelivery
      ⟨eventId, consumer, subject, .pending, 0, s.now, none, s.now, s.now⟩
    nextDelivery := s.nextDelivery + 1 }

/-- `publish` -/
def publish (subject payload : Text) (s : BusStore) : BusStore × EventId :=
  let consumers := (subjectConsumers.lookup subject).getD []
  let published : BusStore :=
    { s with
      events := s.events.insert s.nextEvent
        ⟨subject, payload, .pending, 0, s.now, none, s.now, s.now⟩
      nextEvent := s.nextEvent + 1 }
  (consumers.foldl (addDelivery s.nextEvent subject) published, s.nextEvent)

/-- The rows that `claim_pending` selects. -/
def claimable (consumer : Text) (subjects : List Text) (limit : ℕ) (now : Time)
    (locked : DeliveryId → Bool) (s : BusStore) : List (DeliveryId × Delivery) :=
  ((s.deliveries.select fun id row ↦
    row.consumer = consumer ∧ row.subject ∈ subjects ∧ row.status = .pending ∧
      row.availableAt ≤ now ∧ locked id = false).mergeSort fun r r' ↦
        r.2.createdAt ≤ r'.2.createdAt).take limit

/-- What claiming makes of a row. -/
def claimed (now : Time) (row : Delivery) : Delivery :=
  { row with status := .processing, attempts := row.attempts + 1, updatedAt := now }

/-- `claim_pending`: a delivery whose event is missing is claimed and not returned. -/
def claimPending (consumer : Text) (subjects : List Text) (limit : ℕ) (now : Time)
    (locked : DeliveryId → Bool) (s : BusStore) : BusStore × List BusMessage :=
  let rows := s.claimable consumer subjects limit now locked
  ({ s with
      deliveries := s.deliveries.map fun id row ↦
        if id ∈ rows.map Prod.fst then claimed now row else row },
    rows.filterMap fun r ↦
      (s.events.get? r.2.eventId).map fun event ↦ toMessage r.1 (claimed now r.2) event)

/-- Write one row that was read as `loaded`, and its event's row. -/
def update (u : DeliveryUpdate) (id : DeliveryId) (loaded : Delivery) (s : BusStore) :
    BusStore × Option BusMessage :=
  let s' := { s with deliveries := s.deliveries.modify id (u.write s.now loaded) }
  match s.events.get? loaded.eventId with
  | none => (s', none)
  | some event =>
    ({ s' with events := s.events.insert loaded.eventId (u.writeEvent s.now event) },
      some (toMessage id (u.write s.now loaded loaded) event))

/-- The rows that `requeue_stale_processing` selects. -/
def listStale (consumer : Text) (subjects : List Text) (threshold : Time) (s : BusStore) :
    List (DeliveryId × Delivery) :=
  s.deliveries.select fun _ row ↦
    row.consumer = consumer ∧ row.subject ∈ subjects ∧ row.status = .processing ∧
      row.updatedAt ≤ threshold

/-- The update of a stale delivery. -/
def requeued (now : Time) : DeliveryUpdate :=
  ⟨.pending, some "requeued after stale processing delivery".toList, some now⟩

/-- The writes of `requeue_stale_processing`. -/
def requeue (rows : List (DeliveryId × Delivery)) (s : BusStore) : BusStore :=
  rows.foldl (fun s r ↦ (s.update (requeued s.now) r.1 r.2).1) s

end BusStore

/-- The transactions and reads of the bus, and the passing of time. -/
inductive BusOp where
  | publish (subject payload : Text)
  | claimPending (consumer : Text) (subjects : List Text) (limit : ℕ) (now : Time)
      (locked : DeliveryId → Bool)
  | getDelivery (id : DeliveryId)
  | update (u : DeliveryUpdate) (id : DeliveryId) (loaded : Delivery)
  | listStale (consumer : Text) (subjects : List Text) (threshold : Time)
  | requeue (rows : List (DeliveryId × Delivery))
  | now
  | advance (seconds : Time)

/-- What each of them answers. -/
abbrev BusOp.Ans : BusOp → Type
  | publish .. => EventId
  | claimPending .. => List BusMessage
  | getDelivery _ => Option Delivery
  | update .. => Option BusMessage
  | listStale .. => List (DeliveryId × Delivery)
  | now => Time
  | requeue _ | advance _ => Unit

/-- The interface of the bus. -/
abbrev Buses : Interface := ⟨BusOp, BusOp.Ans⟩

/-- One of them, with its answer. -/
def BusOp.exec : (o : BusOp) → BusStore → BusStore × o.Ans
  | publish subject payload, s => s.publish subject payload
  | claimPending consumer subjects limit time locked, s =>
    s.claimPending consumer subjects limit time locked
  | getDelivery id, s => (s, s.deliveries.get? id)
  | update u id loaded, s => s.update u id loaded
  | listStale consumer subjects threshold, s => (s, s.listStale consumer subjects threshold)
  | requeue rows, s => (s.requeue rows, ())
  | now, s => (s, s.now)
  | advance seconds, s => ({ s with now := s.now + max 0 seconds }, ())

/-! ## Methods -/

namespace SubjectBus

/-- One of them as a program. -/
def call (o : BusOp) : Program Buses o.Ans := Program.op (I := Buses) o

/-- `claim_pending` -/
def claimPending (consumer : Text) (subjects : List Text) (limit : ℕ)
    (locked : DeliveryId → Bool) : Program Buses (List BusMessage) := do
  let now ← call .now
  call (.claimPending consumer subjects limit now locked)

/-- `_update_status` -/
def updateStatus (id : DeliveryId) (status : BusStatus) (error : Option Text)
    (retryAfterSeconds : Option Time) : Program Buses (Option BusMessage) := do
  match ← call (.getDelivery id) with
  | none => pure none
  | some row => do
    let now ← call .now
    call (.update ⟨status, error, retryAfterSeconds.map (now + ·)⟩ id row)

/-- `mark_completed` -/
def markCompleted (id : DeliveryId) : Program Buses (Option BusMessage) :=
  updateStatus id .completed none none

/-- `mark_failed` -/
def markFailed (id : DeliveryId) (error : Text) (retryable : Bool)
    (retryAfterSeconds : Option Time) : Program Buses (Option BusMessage) :=
  updateStatus id (if retryable then .pending else .failed) (some error) retryAfterSeconds

/-- `requeue_stale_processing` -/
def requeueStaleProcessing (consumer : Text) (subjects : List Text) (staleAfterSeconds : Time) :
    Program Buses Unit := do
  let now ← call .now
  let rows ← call (.listStale consumer subjects (now - staleAfterSeconds))
  call (.requeue rows)

/-- How the handler of an event ends: with a mark of its own, or with an exception. -/
inductive Handled where
  | completed
  | failed (error : Text)
  | retried (error : Text) (afterSeconds : Time)
  | raised (error : Text)

/-- `_MAX_EVENT_ATTEMPTS` -/
def maxEventAttempts : ℕ := 5

/-- The events of `process_pending_events` in turn. -/
def handleEach (handler : DeliveryId → Handled) : List BusMessage → Program Buses Unit
  | [] => pure ()
  | event :: rest => do
    let _ ← match handler event.deliveryId with
      | .completed => markCompleted event.deliveryId
      | .failed error => markFailed event.deliveryId error false none
      | .retried error afterSeconds =>
        markFailed event.deliveryId error true (some afterSeconds)
      | .raised error =>
        markFailed event.deliveryId error (event.attempts < maxEventAttempts)
          (some (min (30 * event.attempts) 300))
    handleEach handler rest

/-- The consumer and the subjects of the control plane's worker. -/
def controlPlaneWorker : Text × List Text :=
  ("control-plane-worker".toList,
    ["deployment.requested".toList, "usage.recorded".toList, "invocation.recorded".toList])

/-- `process_pending_events` -/
def processPendingEvents (limit : ℕ) (locked : DeliveryId → Bool)
    (handler : DeliveryId → Handled) : Program Buses Unit := do
  let events ← claimPending controlPlaneWorker.1 controlPlaneWorker.2 limit locked
  handleEach handler events

end SubjectBus

/-- What a worker may call at any time, and the passing of time. -/
inductive BusCall where
  | publish (subject payload : Text)
  | claimPending (consumer : Text) (subjects : List Text) (limit : ℕ) (locked : DeliveryId → Bool)
  | markCompleted (id : DeliveryId)
  | markFailed (id : DeliveryId) (error : Text) (retryable : Bool)
      (retryAfterSeconds : Option Time)
  | requeueStaleProcessing (consumer : Text) (subjects : List Text) (staleAfterSeconds : Time)
  | processPendingEvents (limit : ℕ) (locked : DeliveryId → Bool)
      (handler : DeliveryId → SubjectBus.Handled)
  | advance (seconds : Time)

open SubjectBus in
/-- The method each call runs. -/
def BusCall.body : BusCall → Program Buses Unit
  | publish subject payload => call (.publish subject payload) >>= fun _ ↦ .done ()
  | claimPending consumer subjects limit locked =>
    SubjectBus.claimPending consumer subjects limit locked >>= fun _ ↦ .done ()
  | markCompleted id => SubjectBus.markCompleted id >>= fun _ ↦ .done ()
  | markFailed id error retryable retryAfterSeconds =>
    SubjectBus.markFailed id error retryable retryAfterSeconds >>= fun _ ↦ .done ()
  | requeueStaleProcessing consumer subjects staleAfterSeconds =>
    SubjectBus.requeueStaleProcessing consumer subjects staleAfterSeconds
  | processPendingEvents limit locked handler =>
    SubjectBus.processPendingEvents limit locked handler
  | advance seconds => call (.advance seconds)

/-- The bus. -/
def subjectBus : Service Buses BusCall BusStore where
  exec := BusOp.exec
  body := BusCall.body

end GreenCompute
