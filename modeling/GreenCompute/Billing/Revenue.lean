import GreenCompute.Billing.Effects
import GreenCompute.Foundations.Rounding
import GreenCompute.Foundations.Steps

/-!
# Revenue

The dashboard reads what came in off the invoices and the card sessions, by the time at which each
was confirmed or completed. What the customers were credited is in the ledger, by the time of each
entry. The two are to agree over every window.

The times are columns that nothing else reads, so they are kept beside the billing tables: when each
ledger entry was created, in the order of the ledger, when an invoice was confirmed and when a
session was completed. A transaction that pays reads the clock twice, first for the invoice or the
session and then for the ledger entry, and time may pass in between.
-/

namespace GreenCompute

/-! ## The tables -/

/-- The billing tables, with `created_at` of the ledger entries, `confirmed_at` of the invoices and
`completed_at` of the sessions. -/
structure Cashbook where
  db : Db
  createdAt : List Time
  confirmedAt : Table InvoiceId Time
  completedAt : Table Text Time

namespace LedgerEntry

/-- A topup paid by card. -/
def fromStripe (e : LedgerEntry) : Bool :=
  match e.referenceId with
  | some (.stripeSession _) => e.kind = .topup
  | _ => false

/-- A topup paid in crypto, for an invoice or as a deposit. -/
def fromCrypto (e : LedgerEntry) : Bool :=
  match e.referenceId, e.depositRef with
  | some (.invoice _), _ | none, some (.transfer _) | none, some (.manual ..) => e.kind = .topup
  | _, _ => false

/-- `_DEBIT_KINDS` -/
def isDebit (e : LedgerEntry) : Bool :=
  e.kind = .usage ∨ e.kind = .other "inference".toList

end LedgerEntry

/-! ## The totals -/

/-- What `gross_revenue` reports. -/
structure GrossRevenue where
  stripeReceivedCents : ℤ
  cryptoReceivedCents : ℤ
  cryptoCreditsGrantedCents : ℤ
  topupsReceivedCents : ℤ
  usageDebitedCents : ℤ
  windowDays : ℤ

namespace Cashbook

/-- The entries of the ledger with the times they were created at. -/
def entries (s : Cashbook) : List (LedgerEntry × Time) := s.db.ledger.zip s.createdAt

/-- What the entries of one kind in a window add up to. -/
def ledgerCents (cutoff : Time) (counts : LedgerEntry → Bool) (s : Cashbook) : ℤ :=
  (s.entries.map fun e ↦ if cutoff ≤ e.2 ∧ counts e.1 = true then e.1.amountCents else 0).sum

/-- The session was paid and completed in the window. -/
def completedSince (cutoff : Time) (sid : Text) (ss : StripeSession) (s : Cashbook) : Bool :=
  ss.status = .paid ∧ (s.completedAt.get? sid).any fun t ↦ decide (cutoff ≤ t)

/-- The invoice was confirmed in the window. -/
def confirmedSince (cutoff : Time) (id : InvoiceId) (inv : CryptoInvoice) (s : Cashbook) : Bool :=
  inv.status = .confirmed ∧ (s.confirmedAt.get? id).any fun t ↦ decide (cutoff ≤ t)

/-- `int(days or 7)`, within the bounds. -/
def windowDays (days : ℤ) : ℤ := max 1 (min (if days = 0 then 7 else days) 365)

/-- `_cutoff` -/
def cutoff (days : ℤ) (s : Cashbook) : Time := s.db.now - windowDays days * 86400

/-- `gross_revenue`, for a window that begins at `since`. -/
def grossRevenueSince (since : Time) (days : ℤ) (s : Cashbook) : GrossRevenue :=
  let stripe := s.db.stripeSessions.total fun sid ss ↦
    if s.completedSince since sid ss then ss.amountCents else 0
  let amountUsd := s.db.invoices.total fun id inv ↦
    if s.confirmedSince since id inv then inv.amountUsd else 0
  let credits := s.db.invoices.total fun id inv ↦
    if s.confirmedSince since id inv then inv.totalCredits else 0
  let received := roundHalfEven (amountUsd * 100)
  let debits := (s.entries.map fun e ↦
    if e.1.isDebit = true ∧ e.1.amountCents < 0 ∧ since ≤ e.2 then -e.1.amountCents else 0).sum
  { stripeReceivedCents := stripe
    cryptoReceivedCents := received
    cryptoCreditsGrantedCents := credits
    topupsReceivedCents := stripe + received
    usageDebitedCents := debits
    windowDays := windowDays days }

/-- `gross_revenue` -/
def grossRevenue (days : ℤ) (s : Cashbook) : GrossRevenue :=
  s.grossRevenueSince (s.cutoff days) days

end Cashbook

/-! ## Transactions -/

/-- The transactions that change the tables. `lag` is what passes between the two times that a
transaction reads the clock. -/
inductive RevenueOp where
  | billing (o : BillingOp) (lag : Time)
  | createStripeSession (sid : Text) (session : StripeSession)
  | completeStripeSession (sid : Text) (lag : Time)
  | reverseStripeTopup (u : UserId) (amountCents : ℤ) (eventId : Text)
      (session : StripeSessionId)
  | creditByHand (u : UserId) (amountCents : ℤ)
  | debitByHand (u : UserId) (amountCents : ℤ)
  | debitUsage (u : UserId) (amountCents : ℤ) (deployment : DeploymentId)
  | debitInference (u : UserId) (amountCents : ℤ) (deployment : DeploymentId)

namespace Cashbook

/-- The tables after a transaction that ends at `t`: what it added to the ledger was created
then. -/
def commit (after : Db) (t : Time) (s : Cashbook) : Cashbook :=
  { s with
    db := { after with now := t }
    createdAt := s.createdAt ++ List.replicate (after.ledger.length - s.db.ledger.length) t }

/-- What a transaction writes to `confirmed_at`. -/
def stampConfirmed (o : BillingOp) (s : Cashbook) : Table InvoiceId Time :=
  match o with
  | .confirmAndCreditInvoice id tx ref expired cents =>
    match (BillingRepository.confirmAndCreditInvoice 0 id tx ref expired cents s.db).2 with
    | .credited .. => s.confirmedAt.insert id s.db.now
    | .alreadyConfirmed =>
      if ((s.db.invoices.get? id).any fun inv ↦ inv.status ≠ .confirmed) ∧
          (s.confirmedAt.get? id).isNone then s.confirmedAt.insert id s.db.now
      else s.confirmedAt
    | _ => s.confirmedAt
  | .setReviewStatus id _ (some _) _ _ =>
    if (s.db.invoices.get? id).any fun inv ↦ inv.status ≠ .confirmed then
      s.confirmedAt.insert id s.db.now
    else s.confirmedAt
  | _ => s.confirmedAt

/-- What completing a session writes to `completed_at`. -/
def stampCompleted (sid : Text) (s : Cashbook) : Table Text Time :=
  match (BillingRepository.completeAndCreditStripeSession sid s.db).2 with
  | .credited .. => s.completedAt.insert sid s.db.now
  | _ => s.completedAt

/-- `create_stripe_session`; the Stripe identifier is unique. -/
def createStripeSession (sid : Text) (session : StripeSession) (s : Cashbook) : Cashbook :=
  if (s.db.stripeSessions.get? sid).isSome then s
  else { s with db := { s.db with stripeSessions := s.db.stripeSessions.insert sid session } }

end Cashbook

open BillingRepository in
/-- One transaction. -/
def RevenueOp.exec : RevenueOp → Cashbook → Cashbook
  | billing o lag, s =>
    let after := (o.exec s.db).1
    { s.commit after (after.now + max 0 lag) with confirmedAt := s.stampConfirmed o }
  | createStripeSession sid session, s => s.createStripeSession sid session
  | completeStripeSession sid lag, s =>
    { s.commit (completeAndCreditStripeSession sid s.db).1 (s.db.now + max 0 lag) with
      completedAt := s.stampCompleted sid }
  | reverseStripeTopup u amountCents eventId session, s =>
    s.commit (BillingRepository.reverseStripeTopup 0 u amountCents eventId
      (some (.stripeSession session)) .chargeback s.db).1 s.db.now
  | creditByHand u amountCents, s =>
    s.commit (creditUser u amountCents .topup none s.db).1 s.db.now
  | debitByHand u amountCents, s =>
    s.commit (debitUser u amountCents (.other "refund".toList) none true s.db).1 s.db.now
  | debitUsage u amountCents deployment, s =>
    s.commit (debitUser u amountCents .usage (some (.deployment deployment)) false s.db).1 s.db.now
  | debitInference u amountCents deployment, s =>
    s.commit (debitUserToFloor u amountCents (.other "inference".toList)
      (some (.deployment deployment)) s.db).1 s.db.now

end GreenCompute
