import GreenCompute.Persistence.AccountEvents

/-!
# The events feed and the webhooks

Two ways to follow an account's events. A client asks for those after the last one it has seen. A
webhook has each of them posted to it: a turn takes the next fifty, asks before each whether and
where to send it, posts it, and only then records how far it has got. A turn can die between any two
of these steps. It records nothing when it passes over an event that the webhook does not want; that
is saved with the next event it sends, or at the end of the turn.
-/

namespace GreenCompute

abbrev WebhookId := ℕ
abbrev ReaderId := ℕ

/-- Whether a list of event types asks for a type; the empty list asks for all. -/
def Wants (types : List EventType) (type : EventType) : Prop := types = [] ∨ type ∈ types

instance (types : List EventType) (type : EventType) : Decidable (Wants types type) :=
  inferInstanceAs (Decidable (types = [] ∨ type ∈ types))

namespace EventsDb

variable (s : EventsDb) (userId : UserId)

/-- A customer's events after an id. -/
def eventsAfter (after : AccountEventId) : List (AccountEventId × AccountEvent) :=
  s.read fun i e ↦ e.userId = userId ∧ after < i

/-- `EVENT_RETENTION` -/
def eventRetention : Time := 30 * 86400

/-- What `prune_events` deletes. -/
def Prunes (now : Time) (r : EventRow) : Prop :=
  r.writer = none ∧ r.event.createdAt < now - eventRetention

instance (now : Time) (r : EventRow) : Decidable (Prunes now r) :=
  inferInstanceAs (Decidable (_ ∧ _))

/-- `prune_events` -/
def pruneEvents (now : Time) : EventsDb := { s with rows := s.rows.filter fun _ r ↦ ¬Prunes now r }

end EventsDb

/-! ## The feed -/

/-- What `list_events` answers. -/
structure EventsPage where
  events : List (AccountEventId × AccountEvent)
  nextAfter : AccountEventId
  hasMore : Bool

/-- The rows that `list_events` looks at. -/
def listedRows (s : EventsDb) (userId : UserId) (after limit : ℤ) :
    List (AccountEventId × AccountEvent) :=
  (s.eventsAfter userId (max 0 after).toNat).take (max 1 (min limit 500)).toNat

/-- `list_events` -/
def listEvents (s : EventsDb) (userId : UserId) (after : ℤ) (types : List EventType) (limit : ℤ) :
    EventsPage :=
  let rows := listedRows s userId after limit
  { events := rows.filter fun r ↦ Wants types r.2.type
    nextAfter := cursorAfter Prod.fst (max 0 after).toNat rows
    hasMore := rows.length = (max 1 (min limit 500)).toNat }

/-- A client that follows the feed: where it started, where it is, what it has been given, and what
was left out for the types it had asked for. -/
structure Reader where
  userId : UserId
  start : AccountEventId
  after : AccountEventId
  seen : List (AccountEventId × AccountEvent)
  unwanted : List (AccountEventId × List EventType)

/-- A client asks for the next page, `after` being the last page's `next_after`. -/
def Reader.next (s : EventsDb) (types : List EventType) (limit : ℤ) (r : Reader) : Reader :=
  let page := listEvents s r.userId r.after types limit
  { r with
    after := page.nextAfter
    seen := r.seen ++ page.events
    unwanted := r.unwanted ++ ((listedRows s r.userId r.after limit).filter fun x ↦
      ¬Wants types x.2.type).map fun x ↦ (x.1, types) }

/-! ## Webhooks -/

/-- `disabled_reason` -/
inductive DisabledReason where
  | turnedOff
  | failing (since : Time) (error : Text)
  deriving DecidableEq

/-- A row of `webhooks`. -/
structure Webhook where
  userId : UserId
  url : Text
  secret : Text
  events : List EventType
  active : Bool
  disabledReason : Option DisabledReason
  lastEventId : AccountEventId
  failures : ℕ
  failingSince : Option Time
  nextAttemptAt : Option Time
  lastSuccessAt : Option Time
  lastFailureAt : Option Time
  lastError : Option Text
  createdAt : Time
  deriving DecidableEq

/-- `MAX_WEBHOOKS` -/
def maxWebhooks : ℕ := 5

/-- `DISABLE_AFTER` -/
def disableAfter : Time := 3 * 86400

/-- `BATCH` -/
def deliveryBatch : ℕ := 50

/-- `_backoff` -/
def backoff (failures : ℕ) : Time := min 3600 (10 * 2 ^ min (max failures 1 - 1) 12)

namespace Webhook

variable (row : Webhook)

/-- What `_record_failure` writes. -/
def recordFailure (cursor : AccountEventId) (error : Text) (now : Time) : Webhook :=
  let failingSince := row.failingSince.getD now
  let failed : Webhook :=
    { row with
      lastEventId := max row.lastEventId cursor
      failures := row.failures + 1
      failingSince := some failingSince
      lastFailureAt := some now
      lastError := some (error.take 512)
      nextAttemptAt := some (now + backoff (row.failures + 1)) }
  if disableAfter ≤ now - failingSince then
    { failed with
      active := false
      disabledReason := some (.failing failingSince (error.take 200)) }
  else failed

/-- What `_record_progress` writes. -/
def recordProgress (cursor : AccountEventId) (now : Time) (delivered : Bool) : Webhook :=
  let moved := { row with lastEventId := max row.lastEventId cursor }
  if delivered then
    { moved with
      failures := 0
      failingSince := none
      nextAttemptAt := none
      lastSuccessAt := some now
      lastError := none }
  else moved

/-- What `update_webhook` writes, the URL and the types being checked. -/
def update (url : Option Text) (events : Option (List EventType)) (active : Option Bool) :
    Webhook :=
  let retried (row : Webhook) : Webhook :=
    { row with failures := 0, failingSince := none, nextAttemptAt := none }
  let row :=
    match url with
    | some url => if url ≠ row.url then retried { row with url := url } else row
    | none => row
  let row := { row with events := events.getD row.events }
  match active with
  | none => row
  | some true => retried { row with active := true, disabledReason := none }
  | some false => { row with active := false, disabledReason := some .turnedOff }

/-- `_current` -/
def current : Option (Text × Text × List EventType) :=
  if row.active then some (row.url, row.secret, row.events) else none

end Webhook

/-- What a turn does next. -/
inductive TurnPhase where
  | look
  | sending (url secret : Text)
  | sent
  | failed (error : Text)
  deriving DecidableEq

/-- A turn of `deliver_webhook`: how far it has got, the events it has yet to come to, and whether
it has passed over some since it last saved that. -/
structure DeliveryTurn where
  cursor : AccountEventId
  events : List (AccountEventId × AccountEvent)
  passedOver : Bool
  phase : TurnPhase

/-- A webhook and its turn, with where it started, the events that were posted to it successfully,
in the order of the posts, and those that were passed over, with the types asked for at the time. -/
structure Endpoint where
  row : Webhook
  turn : Option DeliveryTurn
  start : AccountEventId
  posted : List AccountEventId
  passed : List (AccountEventId × List EventType)

namespace Endpoint

variable (s : EventsDb) (p : Endpoint)

/-- `update_webhook`, the URL and the types being checked; somebody else's webhook is not found. -/
def updateWebhook (userId : UserId) (url : Option Text) (events : Option (List EventType))
    (active : Option Bool) : Endpoint :=
  if userId = p.row.userId then { p with row := p.row.update url events active } else p

/-- The first transaction of `deliver_webhook`. -/
def beginTurn : Endpoint :=
  match p.turn with
  | some _ => p
  | none =>
    if p.row.active then
      let events := (s.eventsAfter p.row.userId p.row.lastEventId).take deliveryBatch
      { p with turn := some ⟨p.row.lastEventId, events, false, .look⟩ }
    else p

/-- The turn asks about its next event. Where the webhook is off it ends there. -/
def lookAtNext : Endpoint :=
  match p.turn with
  | some ⟨cursor, (i, e) :: rest, passedOver, .look⟩ =>
    match p.row.current with
    | none => { p with turn := none }
    | some (url, secret, wanted) =>
      if Wants wanted e.type then
        { p with turn := some ⟨cursor, (i, e) :: rest, passedOver, .sending url secret⟩ }
      else
        { p with
          turn := some ⟨i, rest, true, .look⟩
          passed := p.passed ++ [(i, wanted)] }
  | _ => p

/-- The turn posts its event, and is answered. -/
def postNext (error : Option Text) : Endpoint :=
  match p.turn with
  | some ⟨cursor, (i, e) :: rest, passedOver, .sending _ _⟩ =>
    match error with
    | none => { p with turn := some ⟨i, rest, false, .sent⟩, posted := p.posted ++ [i] }
    | some error => { p with turn := some ⟨cursor, (i, e) :: rest, passedOver, .failed error⟩ }
  | _ => p

/-- `_record_progress` after a post that succeeded, `_record_failure` after one that did not. -/
def recordOutcome : Endpoint :=
  match p.turn with
  | some ⟨cursor, events, passedOver, .sent⟩ =>
    { p with
      row := p.row.recordProgress cursor s.now true
      turn := some ⟨cursor, events, passedOver, .look⟩ }
  | some ⟨cursor, _, _, .failed error⟩ =>
    { p with row := p.row.recordFailure cursor error s.now, turn := none }
  | _ => p

/-- The turn has come to the end of its events, or its time is up. -/
def finishTurn : Endpoint :=
  match p.turn with
  | some ⟨cursor, _, passedOver, .look⟩ =>
    { p with
      row := if passedOver then p.row.recordProgress cursor s.now false else p.row
      turn := none }
  | _ => p

end Endpoint

/-- What befalls a webhook: `update_webhook`, and the steps of its turns. -/
inductive EndpointOp where
  | update (userId : UserId) (url : Option Text) (events : Option (List EventType))
      (active : Option Bool)
  | begin
  | look
  | post (error : Option Text)
  | record
  | finish
  | crash

def EndpointOp.exec (s : EventsDb) (p : Endpoint) : EndpointOp → Endpoint
  | update userId url events active => p.updateWebhook userId url events active
  | begin => p.beginTurn s
  | look => p.lookAtNext
  | post error => p.postNext error
  | record => p.recordOutcome s
  | finish => p.finishTurn s
  | crash => { p with turn := none }

/-- The events, the webhooks, and the clients that follow the feed. -/
structure FeedDb where
  events : EventsDb
  webhooks : Table WebhookId Endpoint
  readers : Table ReaderId Reader

namespace FeedDb

variable (s : FeedDb)

/-- `create_webhook`, the URL and the types being checked -/
def createWebhook (w : WebhookId) (userId : UserId) (url secret : Text) (events : List EventType) :
    FeedDb :=
  if maxWebhooks ≤ (s.webhooks.select fun _ p ↦ p.row.userId = userId).length then s
  else
    let latest := s.events.latest fun _ e ↦ e.userId = userId
    let row : Webhook :=
      ⟨userId, url, secret, events, true, none, latest, 0, none, none, none, none, none,
        s.events.now⟩
    { s with webhooks := s.webhooks.insert w ⟨row, none, latest, [], []⟩ }

end FeedDb

inductive FeedOp where
  | event (o : EventOp)
  | prune (now : Time)
  | create (w : WebhookId) (userId : UserId) (url secret : Text) (events : List EventType)
  | endpoint (w : WebhookId) (o : EndpointOp)
  | follow (r : ReaderId) (userId : UserId) (after : AccountEventId)
  | next (r : ReaderId) (types : List EventType) (limit : ℤ)

namespace FeedOp

def exec : FeedOp → FeedDb → FeedDb
  | event o, s => { s with events := o.exec s.events }
  | prune now, s => { s with events := s.events.pruneEvents now }
  | create w userId url secret events, s => s.createWebhook w userId url secret events
  | endpoint w o, s => { s with webhooks := s.webhooks.modify w fun p ↦ o.exec s.events p }
  | follow r userId after, s =>
    { s with readers := s.readers.insert r ⟨userId, after, after, [], []⟩ }
  | next r types limit, s =>
    { s with readers := s.readers.modify r fun reader ↦ reader.next s.events types limit }

/-- What can happen. Events are kept for thirty days: those that are deleted have been dealt with by
every webhook and every client of the customer. -/
def Possible : FeedOp → FeedDb → Prop
  | event o, s => o.Possible s.events
  | prune now, s => ∀ x ∈ s.events.rows.rows, EventsDb.Prunes now x.2 →
      (∀ p ∈ s.webhooks.rows, p.2.row.userId = x.2.event.userId → x.1 ≤ p.2.row.lastEventId) ∧
      ∀ r ∈ s.readers.rows, r.2.userId = x.2.event.userId → x.1 ≤ r.2.after
  | create w _ _ _ _, s => s.webhooks.get? w = none
  | endpoint _ _, _ => True
  | follow r _ _, s => s.readers.get? r = none
  | next _ _ _, _ => True

instance (o : FeedOp) (s : FeedDb) : Decidable (o.Possible s) := by
  cases o <;> unfold Possible <;> infer_instance

end FeedOp

end GreenCompute
