import GreenCompute.Billing.Ledger
import GreenCompute.Foundations.Interleaving
import GreenCompute.Foundations.Rounding

/-!
# Card payments

A checkout session is credited by the webhook, when Stripe delivers an event about it, or by the
reconcile job, which asks Stripe about every session still pending. Both end in one transaction,
`complete_and_credit_stripe_session`, which credits a session at most once. Each decides for itself
whether the session has been paid, and they do not decide alike: the webhook looks at the payment
status alone, while the job also takes a completed session for a paid one.

What Stripe answers about a session is part of the store. It may change in any way at any time, and
a request to Stripe may fail.
-/

namespace GreenCompute

open BillingRepository (StripeResult ReverseResult)

/-! ## What Stripe reports -/

/-- The `payment_status` of a checkout session. -/
inductive PaymentStatus where
  | paid
  | unpaid
  | noPaymentRequired
  | other (name : Text)
  deriving DecidableEq

/-- The `status` of a checkout session. -/
inductive CheckoutStatus where
  | opened
  | complete
  | expired
  | other (name : Text)
  deriving DecidableEq

/-- What `retrieve_checkout_session` reads of a session; an attribute may be missing. -/
structure RemoteSession where
  status : Option CheckoutStatus
  paymentStatus : Option PaymentStatus
  paymentIntent : Option Text
  deriving DecidableEq

/-- What the webhook reads of a charge: the amounts of its list of refunds, newest first, where it
carries the list, and the amount refunded so far. -/
structure Charge where
  paymentIntent : Option Text
  refunds : Option (List (Option ℤ))
  amountRefunded : Option ℤ

/-- A verified event, by its type. -/
inductive StripeEvent where
  | checkoutSessionCompleted (sessionId : Text) (paymentStatus : Option PaymentStatus)
      (paymentIntent : Option Text)
  | asyncPaymentSucceeded (sessionId : Text) (paymentStatus : Option PaymentStatus)
      (paymentIntent : Option Text)
  | chargeRefunded (eventId : Text) (charge : Charge)
  | disputeCreated (eventId : Text) (paymentIntent : Option Text) (amount : Option ℤ)
  | other

/-- `_payment_intent_id`: an identifier, unless it is empty. -/
def paymentIntentId : Option Text → Option Text
  | some (c :: pi) => some (c :: pi)
  | _ => none

/-! ## The store -/

/-- The billing tables, the column `payment_intent_id` of the sessions, and what Stripe answers
about each session, if it answers. -/
structure StripeStore where
  db : Db
  paymentIntents : Table Text Text
  remote : Text → Option RemoteSession

/-- The transactions and requests of the card payments. The last two are the surroundings: a
checkout is started, and what Stripe answers changes. -/
inductive StripeOp where
  | getStripeSessionByStripeId (sid : Text)
  | setStripePaymentIntent (sid paymentIntent : Text)
  | completeAndCreditStripeSession (sid : Text)
  | listPendingStripeSessions (limit : ℕ)
  | retrieveCheckoutSession (sid : Text)
  | getStripeSessionByPaymentIntent (paymentIntent : Text)
  | reverseStripeTopup (u : UserId) (amountCents : ℤ) (eventId : Text)
      (reference : Option Reference) (kind : LedgerKind)
  | createStripeSession (sid : Text) (session : StripeSession)
  | setRemote (sid : Text) (answer : Option RemoteSession)

abbrev StripeOp.Ans : StripeOp → Type
  | getStripeSessionByStripeId _ | getStripeSessionByPaymentIntent _ => Option StripeSession
  | completeAndCreditStripeSession _ => StripeResult
  | listPendingStripeSessions _ => List (Text × StripeSession)
  | retrieveCheckoutSession _ => Option RemoteSession
  | reverseStripeTopup .. => ReverseResult
  | setStripePaymentIntent .. | createStripeSession .. | setRemote .. => Unit

/-- The interface of the card payments. -/
abbrev CardPayments : Interface := ⟨StripeOp, StripeOp.Ans⟩

namespace StripeStore

/-- `set_stripe_payment_intent`: recorded once, on a session that is known. -/
def setStripePaymentIntent (sid paymentIntent : Text) (s : StripeStore) : StripeStore :=
  let pi := Text.strip paymentIntent
  if pi = [] then s
  else if (s.db.stripeSessions.get? sid).isSome ∧ (s.paymentIntents.get? sid).getD [] = [] then
    { s with paymentIntents := s.paymentIntents.insert sid pi }
  else s

/-- `list_pending_stripe_sessions`, oldest first. -/
def listPendingStripeSessions (limit : ℕ) (s : StripeStore) : List (Text × StripeSession) :=
  (s.db.stripeSessions.select fun _ ss ↦ ss.status = .pending).take limit

/-- `get_stripe_session_by_payment_intent`: the oldest session with this payment intent. -/
def getStripeSessionByPaymentIntent (paymentIntent : Text) (s : StripeStore) :
    Option StripeSession :=
  let pi := Text.strip paymentIntent
  if pi = [] then none
  else ((s.db.stripeSessions.select fun sid _ ↦ s.paymentIntents.get? sid = some pi).map
    Prod.snd).head?

/-- `create_stripe_session`; the Stripe identifier is unique. -/
def createStripeSession (sid : Text) (session : StripeSession) (s : StripeStore) : StripeStore :=
  if (s.db.stripeSessions.get? sid).isSome then s
  else { s with db := { s.db with stripeSessions := s.db.stripeSessions.insert sid session } }

end StripeStore

/-- One transaction or request, with its answer. -/
def StripeOp.exec : (o : StripeOp) → StripeStore → StripeStore × o.Ans
  | getStripeSessionByStripeId sid, s => (s, s.db.stripeSessions.get? sid)
  | setStripePaymentIntent sid pi, s => (s.setStripePaymentIntent sid pi, ())
  | completeAndCreditStripeSession sid, s =>
    let out := BillingRepository.completeAndCreditStripeSession sid s.db
    ({ s with db := out.1 }, out.2)
  | listPendingStripeSessions limit, s => (s, s.listPendingStripeSessions limit)
  | retrieveCheckoutSession sid, s => (s, s.remote sid)
  | getStripeSessionByPaymentIntent pi, s => (s, s.getStripeSessionByPaymentIntent pi)
  | reverseStripeTopup u cents eventId reference kind, s =>
    let out := BillingRepository.reverseStripeTopup 0 u cents eventId reference kind s.db
    ({ s with db := out.1 }, out.2)
  | createStripeSession sid session, s => (s.createStripeSession sid session, ())
  | setRemote sid answer, s => ({ s with remote := Function.update s.remote sid answer }, ())

namespace StripeService

/-- One transaction or request as a program. -/
def call (o : StripeOp) : Program CardPayments o.Ans := Program.op (I := CardPayments) o

/-! ## Crediting -/

/-- `create_stripe_topup`; `draw` supplies the identifiers. -/
def createStripeTopup (u : UserId) (amountUsd : ℚ) (draw : Text × StripeSessionId) :
    Program CardPayments Unit :=
  call (.createStripeSession draw.1 ⟨draw.2, u, roundHalfEven (amountUsd * 100), .pending⟩)

/-- `confirm_stripe_payment` -/
def confirmStripePayment (sid : Text) (paymentIntent : Option Text) :
    Program CardPayments StripeResult := do
  match ← call (.getStripeSessionByStripeId sid) with
  | none => pure .notFound
  | some _ => do
    match paymentIntent with
    | none | some [] => pure ()
    | some pi => call (.setStripePaymentIntent sid pi)
    call (.completeAndCreditStripeSession sid)

/-- What a reconcile run says of one session. -/
structure ReconcileEntry where
  session : Text
  userId : UserId
  amountCents : ℤ
  paymentStatus : Option PaymentStatus
  result : Option StripeResult

/-- The summary of a reconcile run. -/
structure ReconcileSummary where
  checked : ℕ
  paidCredited : List ReconcileEntry
  paidWouldCredit : List ReconcileEntry
  unpaidSkipped : List ReconcileEntry
  errors : List Text
  dryRun : Bool

/-- `is_paid` of the reconcile job. -/
def isPaid (remote : RemoteSession) : Bool :=
  remote.paymentStatus = some .paid ∨ remote.status = some .complete

/-- The sessions of a reconcile run in turn; none where crediting one raises. -/
def reconcileEach (dryRun : Bool) : List (Text × StripeSession) → ReconcileSummary →
    Program CardPayments (Option ReconcileSummary)
  | [], summary => pure (some summary)
  | (sid, ss) :: rest, summary => do
    match ← call (.retrieveCheckoutSession sid) with
    | none => reconcileEach dryRun rest { summary with errors := summary.errors ++ [sid] }
    | some remote =>
      let entry : ReconcileEntry := ⟨sid, ss.userId, ss.amountCents, remote.paymentStatus, none⟩
      if isPaid remote = false then
        reconcileEach dryRun rest
          { summary with unpaidSkipped := summary.unpaidSkipped ++ [entry] }
      else if dryRun then
        reconcileEach dryRun rest
          { summary with paidWouldCredit := summary.paidWouldCredit ++ [entry] }
      else do
        match ← confirmStripePayment sid (paymentIntentId remote.paymentIntent) with
        | .raised => pure none
        | result =>
          reconcileEach dryRun rest { summary with
            paidCredited := summary.paidCredited ++ [{ entry with result := some result }] }

/-- `reconcile_pending_stripe_sessions` -/
def reconcilePendingStripeSessions (dryRun : Bool) :
    Program CardPayments (Option ReconcileSummary) := do
  let pending ← call (.listPendingStripeSessions 500)
  reconcileEach dryRun pending ⟨pending.length, [], [], [], [], dryRun⟩

/-! ## Refunds and disputes -/

/-- `_latest_refund_amount_cents` -/
def latestRefundAmountCents (charge : Charge) : ℤ :=
  match charge.refunds with
  | some (some amount :: _) => amount
  | _ => charge.amountRefunded.getD 0

/-- `reverse_stripe_topup_for_event`; none where the event is skipped. -/
def reverseStripeTopupForEvent (eventId : Text) (paymentIntent : Option Text) (amountCents : ℤ) :
    Program CardPayments (Option ReverseResult) := do
  let pi := Text.strip (paymentIntent.getD [])
  if pi = [] then pure none
  else do
    match ← call (.getStripeSessionByPaymentIntent pi) with
    | none => pure none
    | some session =>
      if amountCents ≤ 0 then pure none
      else do
        let result ← call (.reverseStripeTopup session.userId amountCents eventId
          (some (.stripeSession session.sessionId)) .chargeback)
        pure (some result)

/-! ## The webhook -/

/-- How a delivery is answered; Stripe delivers again what is not received. -/
inductive WebhookOutcome where
  | received
  | verificationFailed
  | raised
  deriving DecidableEq

/-- The branch of the webhook for a session: it credits a paid one. -/
def checkoutEvent (sid : Text) (paymentStatus : Option PaymentStatus)
    (paymentIntent : Option Text) : Program CardPayments WebhookOutcome := do
  if paymentStatus = some .paid then do
    match ← confirmStripePayment sid (paymentIntentId paymentIntent) with
    | .raised => pure .raised
    | _ => pure .received
  else pure .received

/-- The branch of the webhook for a refund or a dispute. -/
def reversalEvent (eventId : Text) (paymentIntent : Option Text) (amountCents : ℤ) :
    Program CardPayments WebhookOutcome := do
  match ← reverseStripeTopupForEvent eventId (paymentIntentId paymentIntent) amountCents with
  | some .raised => pure .raised
  | _ => pure .received

/-- `billing_stripe_webhook`, for the event that was verified, if it was. -/
def billingStripeWebhook : Option StripeEvent → Program CardPayments WebhookOutcome
  | none => pure .verificationFailed
  | some (.checkoutSessionCompleted sid paymentStatus pi) => checkoutEvent sid paymentStatus pi
  | some (.asyncPaymentSucceeded sid paymentStatus pi) => checkoutEvent sid paymentStatus pi
  | some (.chargeRefunded eventId charge) =>
    reversalEvent eventId charge.paymentIntent (latestRefundAmountCents charge)
  | some (.disputeCreated eventId pi amount) => reversalEvent eventId pi (amount.getD 0)
  | some .other => pure .received

end StripeService

/-! ## Calls -/

/-- The calls about card payments, and what Stripe does in between. -/
inductive StripeCall where
  | createStripeTopup (u : UserId) (amountUsd : ℚ) (draw : Text × StripeSessionId)
  | billingStripeWebhook (event : Option StripeEvent)
  | reconcilePendingStripeSessions (dryRun : Bool)
  | setRemote (sid : Text) (answer : Option RemoteSession)

open StripeService in
/-- The method each call runs. -/
def StripeCall.body : StripeCall → Program CardPayments Unit
  | createStripeTopup u amountUsd draw => StripeService.createStripeTopup u amountUsd draw
  | billingStripeWebhook event => StripeService.billingStripeWebhook event >>= fun _ ↦ .done ()
  | reconcilePendingStripeSessions dryRun =>
    StripeService.reconcilePendingStripeSessions dryRun >>= fun _ ↦ .done ()
  | setRemote sid answer => call (.setRemote sid answer)

/-- Card payments as a service. -/
def cardPayments : Service CardPayments StripeCall StripeStore where
  exec := StripeOp.exec
  body := StripeCall.body

end GreenCompute
