import GreenCompute.Persistence.SubjectBus

/-!
# The bus with a broker in front

`NatsJetStreamBus` tells a broker of every event it publishes, and claims by fetching what the
broker has: for each message it reads the delivery, without locking it, and writes it in the same
transaction, two steps between which other workers may write. If the broker has nothing, or any of
this raises, it claims from the database as the subject bus does. A mark first acknowledges the
message through which the delivery was claimed.

What the broker answers is part of a call: the messages it has for each subject, and which of its
calls raise. So a message may be lost, late, twice there or for something that never was. All calls
to the broker run in one loop in a thread of its own, and whoever makes one waits for that loop. A
message whose delivery cannot be claimed is acknowledged from inside the loop, which then waits for
itself.
-/

namespace GreenCompute

/-- A bus object: its process, and whether its transport is NATS (`active_transport`). -/
structure NatsBus where
  process : ℕ
  usesNats : Bool
  deriving DecidableEq

abbrev NatsClientId := ℕ

/-! ## Messages -/

/-- The data of a message, read as JSON. -/
inductive MessageData where
  | notJson
  | notObject
  | object (eventId : Option EventId)

/-- A message of the broker. -/
structure RawMessage where
  header : Option EventId
  data : MessageData

/-- `_message_event_id`, which raises for data that is JSON but no object. -/
def RawMessage.eventId (raw : RawMessage) : Except Unit (Option EventId) :=
  match raw.header with
  | some eventId => .ok eventId
  | none =>
    match raw.data with
    | .notJson => .ok none
    | .notObject => .error ()
    | .object eventId => .ok eventId

/-- What the broker answers for one subject: whether `pull_subscribe` returns, and the messages
fetched, unless `fetch` raises. -/
structure SubjectFetch where
  subscribes : Bool
  fetched : Option (List RawMessage)

/-- What the broker answers to the rest of a claim: whether connecting and closing return. -/
structure ClaimAnswers where
  connects : Bool
  closes : Bool

/-- What the broker answers to a mark: whether the acknowledgement and closing return. -/
structure MarkAnswers where
  settles : Bool
  closes : Bool

/-! ## Operations -/

/-- The tables, the messages through which each bus has claimed its deliveries (with the client that
fetched them), the buses whose loop waits for itself, and the clients connected so far. -/
structure NatsStore where
  durable : BusStore
  pendingMessages : Table (NatsBus × DeliveryId) NatsClientId
  stuck : List NatsBus
  nextClient : NatsClientId

/-- The transactions, and what a bus does in its own process. `await` waits for the loop of a bus,
`ackInLoop` is the acknowledgement made from inside that loop, `raise` is an exception that leaves
the calls to the broker, and `hand` is the end of a claim. -/
inductive NatsOp where
  | durable (o : BusOp)
  | readPending (eventId : EventId) (consumer subject : Text)
  | claimRow (id : DeliveryId) (loaded : Delivery) (now : Time)
  | await (bus : NatsBus)
  | ackInLoop (bus : NatsBus)
  | connect
  | hold (bus : NatsBus) (id : DeliveryId) (client : NatsClientId)
  | release (bus : NatsBus) (id : DeliveryId)
  | clientUsed (bus : NatsBus) (client : NatsClientId)
  | raise
  | hand (messages : List BusMessage)

/-- What each of them answers. -/
abbrev NatsOp.Ans : NatsOp → Type
  | durable o => o.Ans
  | readPending .. => Option (DeliveryId × Delivery × Time)
  | claimRow .. => Option BusMessage
  | connect => NatsClientId
  | release .. => Option NatsClientId
  | clientUsed .. => Bool
  | await _ | ackInLoop _ | hold .. | raise | hand _ => Unit

/-- The interface of the buses. -/
abbrev NatsBuses : Interface := ⟨NatsOp, NatsOp.Ans⟩

namespace NatsStore

variable (s : NatsStore)

/-- The first half of `_claim_delivery_for_message`: the delivery, and the time. -/
def readPending (eventId : EventId) (consumer subject : Text) :
    Option (DeliveryId × Delivery × Time) :=
  ((s.durable.deliveries.select fun _ row ↦
    row.eventId = eventId ∧ row.consumer = consumer ∧ row.subject = subject ∧
      row.status = .pending ∧ row.availableAt ≤ s.durable.now).head?).map
        fun (id, row) ↦ (id, row, s.durable.now)

/-- The second half: the row is written from what was read of it. -/
def claimRow (id : DeliveryId) (loaded : Delivery) (now : Time) : NatsStore × Option BusMessage :=
  ({ s with
      durable.deliveries := s.durable.deliveries.modify id fun row ↦
        { row with status := .processing, attempts := loaded.attempts + 1, updatedAt := now } },
    (s.durable.events.get? loaded.eventId).map fun event ↦
      toMessage id (BusStore.claimed now loaded) event)

/-- Some message of the bus was fetched by this client. -/
def clientUsed (bus : NatsBus) (client : NatsClientId) : Bool :=
  !(s.pendingMessages.select fun (bus', _) client' ↦ bus' = bus ∧ client' = client).isEmpty

end NatsStore

/-- One of them, with its answer. -/
def NatsOp.exec : (o : NatsOp) → NatsStore → NatsStore × o.Ans
  | durable o, s => ({ s with durable := (o.exec s.durable).1 }, (o.exec s.durable).2)
  | readPending eventId consumer subject, s => (s, s.readPending eventId consumer subject)
  | claimRow id loaded now, s => s.claimRow id loaded now
  | await _, s => (s, ())
  | ackInLoop bus, s => ({ s with stuck := bus :: s.stuck }, ())
  | connect, s => ({ s with nextClient := s.nextClient + 1 }, s.nextClient)
  | hold bus id client, s =>
    ({ s with pendingMessages := s.pendingMessages.insert (bus, id) client }, ())
  | release bus id, s =>
    ({ s with pendingMessages := s.pendingMessages.filter fun key _ ↦ key ≠ (bus, id) },
      s.pendingMessages.get? (bus, id))
  | clientUsed bus client, s => (s, s.clientUsed bus client)
  | raise, s => (s, ())
  | hand _, s => (s, ())

/-- A loop that waits for itself is waited for for ever. -/
def NatsOp.ready : NatsOp → NatsStore → Bool
  | await bus, s => bus ∉ s.stuck
  | _, _ => true

/-! ## Methods -/

namespace NatsJetStreamBus

/-- One operation as a program. -/
def call (o : NatsOp) : Program NatsBuses o.Ans := Program.op (I := NatsBuses) o

/-- A method of the durable bus. -/
def durably {α : Type} : Program Buses α → Program NatsBuses α
  | .done a => .done a
  | .call o k => .call (.durable o) fun r ↦ durably (k r)

/-- `publish`: whatever the broker's calls raise is dropped. -/
def publish (bus : NatsBus) (subject payload : Text) : Program NatsBuses EventId := do
  let event ← durably (SubjectBus.call (.publish subject payload))
  if bus.usesNats then call (.await bus)
  pure event

/-- `_claim_delivery_for_message` -/
def claimDeliveryForMessage (consumer subject : Text) (raw : RawMessage) :
    Program NatsBuses (Except Unit (Option BusMessage)) :=
  match raw.eventId with
  | .error _ => pure (.error ())
  | .ok none => pure (.ok none)
  | .ok (some eventId) => do
    match ← call (.readPending eventId consumer subject) with
    | none => pure (.ok none)
    | some (id, row, now) => do
      let claimed ← call (.claimRow id row now)
      pure (.ok claimed)

/-- The messages of one subject in turn, with those claimed so far. An exception leaves with what
has been claimed by then. -/
def claimMessages (bus : NatsBus) (client : NatsClientId) (consumer subject : Text) (limit : ℕ) :
    List RawMessage → List BusMessage →
      Program NatsBuses (Except (List BusMessage) (List BusMessage))
  | [], messages => pure (.ok messages)
  | raw :: rest, messages => do
    match ← claimDeliveryForMessage consumer subject raw with
    | .error _ => pure (.error messages)
    | .ok none => do
      call (.ackInLoop bus)
      call (.await bus)
      claimMessages bus client consumer subject limit rest messages
    | .ok (some claimed) => do
      call (.hold bus claimed.deliveryId client)
      if limit ≤ messages.length + 1 then pure (.ok (messages ++ [claimed]))
      else claimMessages bus client consumer subject limit rest (messages ++ [claimed])

/-- The subjects in turn. -/
def claimSubjects (bus : NatsBus) (client : NatsClientId) (consumer : Text) (limit : ℕ) :
    List (Text × SubjectFetch) → List BusMessage →
      Program NatsBuses (Except (List BusMessage) (List BusMessage))
  | [], messages => pure (.ok messages)
  | (subject, fetch) :: rest, messages =>
    if limit ≤ messages.length then pure (.ok messages)
    else do
      call (.await bus)
      if fetch.subscribes then do
        call (.await bus)
        match fetch.fetched with
        | none => claimSubjects bus client consumer limit rest messages
        | some raws => do
          match ← claimMessages bus client consumer subject limit raws messages with
          | .error claimed => pure (.error claimed)
          | .ok messages => claimSubjects bus client consumer limit rest messages
      else pure (.error messages)

/-- `_claim_pending_from_nats` -/
def claimPendingFromNats (bus : NatsBus) (consumer : Text) (subjects : List (Text × SubjectFetch))
    (limit : ℕ) (broker : ClaimAnswers) :
    Program NatsBuses (Except (List BusMessage) (List BusMessage)) := do
  call (.await bus)
  if broker.connects then do
    let client ← call .connect
    match ← claimSubjects bus client consumer limit subjects [] with
    | .error [] => do
      call (.await bus)
      pure (.error [])
    | .ok [] => do
      call (.await bus)
      pure (if broker.closes then .ok [] else .error [])
    | claimed => pure claimed
  else pure (.error [])

/-- The claim of the durable bus. -/
def claimPendingFromDatabase (consumer : Text) (subjects : List (Text × SubjectFetch)) (limit : ℕ)
    (locked : DeliveryId → Bool) : Program NatsBuses (List BusMessage) :=
  durably (SubjectBus.claimPending consumer (subjects.map Prod.fst) limit locked)

/-- `claim_pending` -/
def claimPending (bus : NatsBus) (consumer : Text) (subjects : List (Text × SubjectFetch))
    (limit : ℕ) (broker : ClaimAnswers) (locked : DeliveryId → Bool) :
    Program NatsBuses (List BusMessage) :=
  if bus.usesNats then do
    match ← claimPendingFromNats bus consumer subjects limit broker with
    | .error _ => do
      call .raise
      claimPendingFromDatabase consumer subjects limit locked
    | .ok [] => claimPendingFromDatabase consumer subjects limit locked
    | .ok messages => pure messages
  else claimPendingFromDatabase consumer subjects limit locked

/-- What a mark does first: the message is acknowledged (by `_ack_message` or `_fail_message`), and
its client is closed if it is the client's last (`_close_client_if_unused`). This is false if it
raises. -/
def settleMessage (bus : NatsBus) (id : DeliveryId) (broker : MarkAnswers) :
    Program NatsBuses Bool := do
  match ← call (.release bus id) with
  | none => pure true
  | some client => do
    call (.await bus)
    if ← call (.clientUsed bus client) then pure broker.settles
    else do
      call (.await bus)
      pure (broker.settles && broker.closes)

/-- A mark of the durable bus, once the message is settled. -/
def mark (bus : NatsBus) (id : DeliveryId) (broker : MarkAnswers)
    (durable : Program Buses (Option BusMessage)) : Program NatsBuses Unit := do
  if ← settleMessage bus id broker then do
    let _ ← durably durable
    pure ()
  else call .raise

/-- `mark_completed` -/
def markCompleted (bus : NatsBus) (id : DeliveryId) (broker : MarkAnswers) :
    Program NatsBuses Unit :=
  mark bus id broker (SubjectBus.markCompleted id)

/-- `mark_failed` -/
def markFailed (bus : NatsBus) (id : DeliveryId) (error : Text) (retryable : Bool)
    (retryAfterSeconds : Option Time) (broker : MarkAnswers) : Program NatsBuses Unit :=
  mark bus id broker (SubjectBus.markFailed id error retryable retryAfterSeconds)

end NatsJetStreamBus

/-- What the workers may call at any time, each on a bus of its own or a shared one, with what the
broker answers; and the passing of time. -/
inductive NatsCall where
  | publish (bus : NatsBus) (subject payload : Text)
  | claimPending (bus : NatsBus) (consumer : Text) (subjects : List (Text × SubjectFetch))
      (limit : ℕ) (broker : ClaimAnswers) (locked : DeliveryId → Bool)
  | markCompleted (bus : NatsBus) (id : DeliveryId) (broker : MarkAnswers)
  | markFailed (bus : NatsBus) (id : DeliveryId) (error : Text) (retryable : Bool)
      (retryAfterSeconds : Option Time) (broker : MarkAnswers)
  | requeueStaleProcessing (consumer : Text) (subjects : List Text) (staleAfterSeconds : Time)
  | advance (seconds : Time)

open NatsJetStreamBus in
/-- The method each call runs. -/
def NatsCall.body : NatsCall → Program NatsBuses Unit
  | publish bus subject payload =>
    NatsJetStreamBus.publish bus subject payload >>= fun _ ↦ .done ()
  | claimPending bus consumer subjects limit broker locked =>
    NatsJetStreamBus.claimPending bus consumer subjects limit broker locked >>= fun messages ↦
      call (.hand messages)
  | markCompleted bus id broker => NatsJetStreamBus.markCompleted bus id broker
  | markFailed bus id error retryable retryAfterSeconds broker =>
    NatsJetStreamBus.markFailed bus id error retryable retryAfterSeconds broker
  | requeueStaleProcessing consumer subjects staleAfterSeconds =>
    durably (SubjectBus.requeueStaleProcessing consumer subjects staleAfterSeconds)
  | advance seconds => durably (SubjectBus.call (.advance seconds))

/-- The buses of all workers. -/
def natsBuses : Service NatsBuses NatsCall NatsStore where
  exec := NatsOp.exec
  ready := NatsOp.ready
  body := NatsCall.body

end GreenCompute
