import GreenCompute.Billing.Reference
import GreenCompute.Foundations.Journal
import GreenCompute.Foundations.Table
import Mathlib.Algebra.Order.Ring.Unbundled.Rat

/-!
# The billing tables

The rows the billing code reads and writes, under the source's column names, and the database
they make up. The ledger is a list in commit order; every other table is keyed.

Identifiers are opaque to the code, which only compares them, so they are numbers here. A ledger
entry's `reference_id` holds identifiers of several kinds in one column; since they are random
UUIDs, an invoice is never mistaken for a session, and `Reference` keeps the kind. Columns that
are written and never read back by the modelled code (descriptions, the times at which something
was confirmed, credited or decided) are left out.
-/

namespace GreenCompute

abbrev UserId := ℕ
abbrev InvoiceId := ℕ
abbrev StripeSessionId := ℕ
abbrev DeploymentId := ℕ

/-- Points in time and durations, in seconds. -/
abbrev Time := ℚ

/-! ## Users -/

/-- A JSON value. -/
inductive Json where
  | null
  | bool (b : Bool)
  | num (n : ℚ)
  | str (s : Text)
  | arr (items : List Json)
  | obj (items : List (Text × Json))

/-- Python truthiness of a JSON value. -/
def Json.truthy : Json → Bool
  | null => false
  | bool b => b
  | num n => n ≠ 0
  | str s => s ≠ []
  | arr items => !items.isEmpty
  | obj items => !items.isEmpty

/-- A user's free-form settings: a JSON object. -/
abbrev Metadata := List (Text × Json)

/-- A row of `users`. -/
structure User where
  username : Text
  email : Option Text
  displayName : Option Text
  bio : Option Text
  website : Option Text
  profileMetadata : Metadata
  balanceCredits : ℤ

/-! ## The ledger -/

/-- Ledger entry kinds; the ones the modelled code does not itself name are `other`. -/
inductive LedgerKind where
  | topup
  | usage
  | chargeback
  | accountClosed
  | other (name : Text)
  deriving DecidableEq

/-- What a ledger entry is about. -/
inductive Reference where
  | invoice (id : InvoiceId)
  | stripeSession (id : StripeSessionId)
  | deployment (id : DeploymentId)
  | other (name : Text)
  deriving DecidableEq

/-- The invoice a reference names, if it names one. -/
def Reference.invoiceId : Reference → Option InvoiceId
  | invoice id => some id
  | _ => none

/-- A row of `ledger_entries`. -/
structure LedgerEntry where
  userId : UserId
  amountCents : ℤ
  balanceAfter : ℤ
  kind : LedgerKind
  referenceId : Option Reference
  depositRef : Option DepositRef
  deriving DecidableEq

/-- The journal posting an entry records. -/
def LedgerEntry.posting (e : LedgerEntry) : Posting UserId ℤ :=
  ⟨e.userId, e.amountCents, e.balanceAfter⟩

/-! ## Crypto invoices -/

inductive InvoiceStatus where
  | pending
  | confirmed
  | rejected
  | expired
  deriving DecidableEq

/-- The state of a user's request to have a payment checked by hand. -/
inductive ReviewStatus where
  | opened
  | resolved
  | dismissed
  deriving DecidableEq

/-- A row of `crypto_invoices`. -/
structure CryptoInvoice where
  userId : UserId
  currency : Currency
  amountCrypto : ℚ
  amountUnits : Option ℤ
  amountUsd : ℚ
  bonusPct : ℚ
  totalCredits : ℤ
  depositAddress : Text
  status : InvoiceStatus
  txHash : Option Text
  expiresAt : Time
  createdAt : Time
  reviewStatus : Option ReviewStatus
  reviewNote : Option Text
  decisionReason : Option Text
  decisionNote : Option Text

/-! ## On-chain deposits -/

/-- What the watcher reads of a transfer. The hash is the chain's own, so it has no blanks
around it. -/
structure TransferInfo where
  currency : Currency
  txHash : Option Text
  sender : Text
  depositAddress : Text
  amountRaw : ℤ
  decimals : ℕ
  usdPrice : Option ℚ
  trimmed : ∀ tx ∈ txHash, Text.Trimmed tx

/-- A transfer as the watcher hands it to the service: its key and what it read. -/
structure Transfer where
  depositRef : TransferRef
  info : TransferInfo

inductive DepositStatus where
  | unmatched
  | credited
  | ignored
  deriving DecidableEq

/-- How a deposit was resolved. -/
inductive MatchedBy where
  | invoice
  | invoiceLate
  | invoiceOverpay
  | invoiceUnderpay
  | wallet
  | walletLink
  | admin
  | adminInvoice
  | adminIgnored
  deriving DecidableEq

/-- A row of `crypto_deposits`. -/
structure CryptoDeposit where
  info : TransferInfo
  status : DepositStatus
  matchedBy : Option MatchedBy
  invoiceId : Option InvoiceId
  userId : Option UserId
  creditedCents : Option ℤ
  observedAt : Time

namespace TransferInfo

/-- `amount_raw / 10 ** decimals`: the amount in whole tokens. -/
def amount (t : TransferInfo) : ℚ := t.amountRaw / 10 ^ t.decimals

/-- `func.lower(tx_hash)`, where the transfer has a hash. -/
def lowerTx (t : TransferInfo) : Option Text := t.txHash.map Text.lower

end TransferInfo

/-! ## Stripe sessions -/

inductive StripeStatus where
  | pending
  | paid
  deriving DecidableEq

/-- A row of `stripe_sessions`, which is looked up by its Stripe id. -/
structure StripeSession where
  sessionId : StripeSessionId
  userId : UserId
  amountCents : ℤ
  status : StripeStatus

/-! ## The database -/

/-- The billing tables, with what the code reads besides: the clock, the price feed and the
configured deposit addresses. -/
structure Db where
  users : Table UserId User
  ledger : List LedgerEntry
  invoices : Table InvoiceId CryptoInvoice
  deposits : Table TransferRef CryptoDeposit
  wallets : Table (Chain × Text) UserId
  stripeSessions : Table Text StripeSession
  now : Time
  price : BaseCurrency → ℚ
  depositAddress : Currency → Text

namespace Db

/-- A database with nothing in it. -/
def empty : Db where
  users := .empty
  ledger := []
  invoices := .empty
  deposits := .empty
  wallets := .empty
  stripeSessions := .empty
  now := 0
  price := fun _ ↦ 0
  depositAddress := fun _ ↦ []

/-- A user's balance; zero for an unknown user, as `get_balance` answers. -/
def balance (db : Db) (u : UserId) : ℤ := ((db.users.get? u).map User.balanceCredits).getD 0

/-- The ledger as a journal. -/
def journal (db : Db) : List (Posting UserId ℤ) := db.ledger.map LedgerEntry.posting

/-- The ledger as the SELECTs of a running transaction see it: the last `unseen` entries were
committed after they were answered. -/
def seenLedger (db : Db) (unseen : ℕ) : List LedgerEntry :=
  db.ledger.take (db.ledger.length - unseen)

@[simp] theorem seenLedger_zero (db : Db) : db.seenLedger 0 = db.ledger := by
  simp [seenLedger]

/-- `UNIQUE(deposit_ref)`: would inserting an entry with this key be refused? -/
def refTaken (db : Db) (ref : Option DepositRef) : Bool :=
  match ref with
  | none => false
  | some r => db.ledger.any fun e ↦ e.depositRef = some r

/-- The two halves of every money movement, done under the user's row lock: change the balance by
`amount` and append the entry that records it. -/
def post (db : Db) (u : UserId) (user : User) (amount : ℤ) (kind : LedgerKind)
    (reference : Option Reference) (ref : Option DepositRef) : Db :=
  { db with
    users := db.users.insert u { user with balanceCredits := user.balanceCredits + amount }
    ledger := db.ledger ++
      [⟨u, amount, user.balanceCredits + amount, kind, reference, ref⟩] }

section post

variable (db : Db) (u : UserId) (user : User) (amount : ℤ) (kind : LedgerKind)
  (reference : Option Reference) (ref : Option DepositRef)

@[simp] theorem post_ledger : (db.post u user amount kind reference ref).ledger = db.ledger ++
    [⟨u, amount, user.balanceCredits + amount, kind, reference, ref⟩] := rfl

@[simp] theorem post_invoices :
    (db.post u user amount kind reference ref).invoices = db.invoices := rfl

@[simp] theorem post_deposits :
    (db.post u user amount kind reference ref).deposits = db.deposits := rfl

@[simp] theorem post_users : (db.post u user amount kind reference ref).users =
    db.users.insert u { user with balanceCredits := user.balanceCredits + amount } := rfl

theorem post_balance (v : UserId) : (db.post u user amount kind reference ref).balance v =
    if v = u then user.balanceCredits + amount else db.balance v := by
  rw [balance, post_users, Table.get?_insert]
  split
  · rfl
  · rfl

end post

theorem balance_of_get? {db : Db} {u : UserId} {user : User} (h : db.users.get? u = some user) :
    db.balance u = user.balanceCredits := by
  rw [balance, h]
  rfl

end Db

end GreenCompute
