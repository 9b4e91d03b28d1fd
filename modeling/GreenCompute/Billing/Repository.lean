import GreenCompute.Billing.Tables
import Mathlib.Data.List.Sort

/-!
# The billing repository

One definition for each repository method: one transaction, as the new database and the method's
result. A transaction that raises or rolls back returns the database it was given.

Rows read `FOR UPDATE` are the current ones. The plain SELECTs on the ledger are not locked, so a
transaction may be answered from a ledger that misses the last entries; methods that check the
ledger before they write take that number as `unseen`. What they insert is still checked against
the whole ledger by `UNIQUE(deposit_ref)`: that is the race a method can lose at its flush.
-/

namespace GreenCompute

/-- What a money-moving method can raise. -/
inductive BillingError where
  | keyError
  | insufficientBalance
  deriving DecidableEq

namespace BillingRepository

/-! ## Balance operations -/

/-- `credit_user` -/
def creditUser (u : UserId) (amountCents : ℤ) (kind : LedgerKind) (reference : Option Reference)
    (db : Db) : Db × Except BillingError LedgerEntry :=
  match db.users.get? u with
  | none => (db, .error .keyError)
  | some row =>
    (db.post u row amountCents kind reference none,
      .ok ⟨u, amountCents, row.balanceCredits + amountCents, kind, reference, none⟩)

/-- `debit_user`: strict unless `allowNegative`. -/
def debitUser (u : UserId) (amountCents : ℤ) (kind : LedgerKind) (reference : Option Reference)
    (allowNegative : Bool) (db : Db) : Db × Except BillingError LedgerEntry :=
  match db.users.get? u with
  | none => (db, .error .keyError)
  | some row =>
    if allowNegative = false ∧ row.balanceCredits < amountCents then
      (db, .error .insufficientBalance)
    else
      (db.post u row (-amountCents) kind reference none,
        .ok ⟨u, -amountCents, row.balanceCredits + -amountCents, kind, reference, none⟩)

/-- What `debit_user_to_floor` took and what it could not take. -/
structure FloorDebit where
  debitedCents : ℤ
  shortfallCents : ℤ
  deriving DecidableEq

/-- `debit_user_to_floor`: drain the balance toward zero, never below it. No entry is written
when nothing is taken. -/
def debitUserToFloor (u : UserId) (amountCents : ℤ) (kind : LedgerKind)
    (reference : Option Reference) (db : Db) : Db × Except BillingError FloorDebit :=
  match db.users.get? u with
  | none => (db, .error .keyError)
  | some row =>
    let amount := max 0 amountCents
    let take := min amount (max 0 row.balanceCredits)
    (if 0 < take then db.post u row (-take) kind reference none else db,
      .ok ⟨take, amount - take⟩)

/-! ## Crypto invoices -/

/-- `create_crypto_invoice`: false is the `IntegrityError` of an identifier in use, or of another
pending invoice that asks for the same amount at the same address. -/
def createCryptoInvoice (id : InvoiceId) (invoice : CryptoInvoice) (db : Db) : Db × Bool :=
  let clash := (db.invoices.select fun _ inv ↦
    inv.status = .pending ∧ invoice.status = .pending ∧ inv.currency = invoice.currency ∧
      inv.depositAddress = invoice.depositAddress ∧ inv.amountUnits.isSome ∧
      inv.amountUnits = invoice.amountUnits) ≠ []
  if (db.invoices.get? id).isSome ∨ clash then (db, false)
  else ({ db with invoices := db.invoices.insert id invoice }, true)

/-- `get_crypto_invoice`, and the row `get_invoice_review` reads. -/
def getCryptoInvoice (id : InvoiceId) (db : Db) : Option CryptoInvoice := db.invoices.get? id

/-- The answers of `confirm_and_credit_invoice`; `raised` is its `KeyError`. -/
inductive ConfirmResult where
  | notFound
  | refused (status : InvoiceStatus)
  | alreadyConfirmed
  | duplicateDeposit (creditedInvoice : Option Reference)
  | raised
  | credited (totalCredits balanceAfter : ℤ)
  deriving DecidableEq

/-- A topup entry about this invoice: the per-invoice idempotency key. -/
def isInvoiceTopup (id : InvoiceId) (e : LedgerEntry) : Bool :=
  e.referenceId = some (.invoice id) ∧ e.kind = .topup

/-- Mark an invoice confirmed by a transaction, keeping a hash that is already there. -/
def confirmKeepingHash (txHash : Text) (inv : CryptoInvoice) : CryptoInvoice :=
  if inv.status = .confirmed then inv
  else
    { inv with
      status := .confirmed
      txHash := if txHash ≠ [] ∧ (inv.txHash = none ∨ inv.txHash = some [])
        then some txHash else inv.txHash }

/-- `confirm_and_credit_invoice` -/
def confirmAndCreditInvoice (unseen : ℕ) (id : InvoiceId) (txHash : Text)
    (depositRef : Option DepositRef) (allowExpired : Bool) (creditCents : Option ℤ) (db : Db) :
    Db × ConfirmResult :=
  match db.invoices.get? id with
  | none => (db, .notFound)
  | some inv =>
    if inv.status = .rejected ∨ inv.status = .expired ∧ allowExpired = false then
      (db, .refused inv.status)
    -- Layer 1: this invoice has been paid.
    else if (db.seenLedger unseen).any (isInvoiceTopup id) then
      ({ db with invoices := db.invoices.modify id (confirmKeepingHash txHash) },
        .alreadyConfirmed)
    else
      -- Layer 2: this transfer has paid some invoice.
      match depositRef.bind fun r ↦ (db.seenLedger unseen).find? fun e ↦
          e.kind = .topup ∧ e.depositRef = some r with
      | some already => (db, .duplicateDeposit already.referenceId)
      | none =>
        match db.users.get? inv.userId with
        | none => (db, .raised)
        | some user =>
          let credited := creditCents.getD inv.totalCredits
          if db.refTaken depositRef then (db, .duplicateDeposit none)
          else
            let db' := db.post inv.userId user credited .topup (some (.invoice id)) depositRef
            ({ db' with
                invoices := db'.invoices.modify id fun inv ↦
                  { inv with status := .confirmed, txHash := some txHash } },
              .credited credited (user.balanceCredits + credited))

/-- Everything a confirmation can do, branch by branch. The ledger it was answered from may miss
its last entries; the one it inserts into does not. -/
inductive ConfirmSpec (unseen : ℕ) (id : InvoiceId) (txHash : Text) (ref : Option DepositRef)
    (allowExpired : Bool) (creditCents : Option ℤ) (db : Db) : Db × ConfirmResult → Prop
  | notFound (h : db.invoices.get? id = none) : ConfirmSpec _ _ _ _ _ _ _ (db, .notFound)
  | refused (inv : CryptoInvoice) (h : db.invoices.get? id = some inv)
      (closed : inv.status = .rejected ∨ inv.status = .expired ∧ allowExpired = false) :
      ConfirmSpec _ _ _ _ _ _ _ (db, .refused inv.status)
  | alreadyConfirmed (inv : CryptoInvoice) (h : db.invoices.get? id = some inv)
      (paid : (db.seenLedger unseen).any (isInvoiceTopup id) = true) :
      ConfirmSpec _ _ _ _ _ _ _
        ({ db with invoices := db.invoices.modify id (confirmKeepingHash txHash) },
          .alreadyConfirmed)
  | duplicate (inv : CryptoInvoice) (h : db.invoices.get? id = some inv)
      (taken : db.refTaken ref = true) (credited : Option Reference) :
      ConfirmSpec _ _ _ _ _ _ _ (db, .duplicateDeposit credited)
  | raised (inv : CryptoInvoice) (h : db.invoices.get? id = some inv)
      (missing : db.users.get? inv.userId = none) : ConfirmSpec _ _ _ _ _ _ _ (db, .raised)
  | credited (inv : CryptoInvoice) (user : User) (h : db.invoices.get? id = some inv)
      (opened : inv.status ≠ .rejected ∧ (inv.status = .expired → allowExpired = true))
      (unpaid : (db.seenLedger unseen).any (isInvoiceTopup id) = false)
      (free : db.refTaken ref = false) (found : db.users.get? inv.userId = some user) :
      ConfirmSpec _ _ _ _ _ _ _
        ({ db.post inv.userId user (creditCents.getD inv.totalCredits) .topup
              (some (.invoice id)) ref with
            invoices := db.invoices.modify id fun inv ↦
              { inv with status := .confirmed, txHash := some txHash } },
          .credited (creditCents.getD inv.totalCredits)
            (user.balanceCredits + creditCents.getD inv.totalCredits))

theorem refTaken_iff {db : Db} {r : DepositRef} :
    db.refTaken (some r) = true ↔ ∃ e ∈ db.ledger, e.depositRef = some r := by
  simp [Db.refTaken]

theorem mem_of_mem_seenLedger {db : Db} {unseen : ℕ} {e : LedgerEntry}
    (h : e ∈ db.seenLedger unseen) : e ∈ db.ledger := List.mem_of_mem_take h

theorem confirmAndCreditInvoice_spec (unseen : ℕ) (id : InvoiceId) (txHash : Text)
    (ref : Option DepositRef) (allowExpired : Bool) (creditCents : Option ℤ) (db : Db) :
    ConfirmSpec unseen id txHash ref allowExpired creditCents db
      (confirmAndCreditInvoice unseen id txHash ref allowExpired creditCents db) := by
  unfold confirmAndCreditInvoice
  split
  · next h => exact .notFound h
  · next inv h =>
    split
    · next closed => exact .refused inv h closed
    · next hopen =>
      split
      · next paid => exact .alreadyConfirmed inv h paid
      · next unpaid =>
        split
        · next already halready =>
          obtain ⟨r, rfl, hfind⟩ := Option.bind_eq_some_iff.mp halready
          refine .duplicate inv h (refTaken_iff.mpr ⟨already, ?_, ?_⟩) _
          · exact mem_of_mem_seenLedger (List.mem_of_find?_eq_some hfind)
          · have := List.find?_some hfind
            simp only [decide_eq_true_eq] at this
            exact this.2
        · split
          · next missing => exact .raised inv h missing
          · next user found =>
            dsimp only
            split
            · next taken => exact .duplicate inv h taken _
            · next free =>
              refine .credited inv user h ⟨fun hr ↦ hopen (.inl hr), fun he ↦ ?_⟩ ?_ ?_ found
              · exact Bool.eq_true_of_not_eq_false fun hx ↦ hopen (.inr ⟨he, hx⟩)
              · exact Bool.eq_false_of_not_eq_true unpaid
              · exact Bool.eq_false_of_not_eq_true free

/-- `expire_stale_pending_invoices` -/
def expireStalePendingInvoices (graceSeconds : Time) (db : Db) : Db × ℕ :=
  let stale (inv : CryptoInvoice) : Bool :=
    inv.status = .pending ∧ inv.expiresAt < db.now - max 0 graceSeconds
  ({ db with
      invoices := db.invoices.map fun _ inv ↦
        if stale inv then { inv with status := .expired } else inv },
    (db.invoices.select fun _ inv ↦ stale inv).length)

/-- `reject_crypto_invoice` -/
def rejectCryptoInvoice (id : InvoiceId) (reason note : Option Text) (db : Db) :
    Db × Option CryptoInvoice :=
  match db.invoices.get? id with
  | none => (db, none)
  | some inv =>
    if inv.status = .confirmed then (db, none)
    else if inv.status = .rejected then (db, some inv)
    else
      let rejected : CryptoInvoice := { inv with
        status := .rejected
        reviewStatus :=
          if inv.reviewStatus = some .opened then some .dismissed else inv.reviewStatus
        decisionReason := if reason.isSome then reason else inv.decisionReason
        decisionNote := if reason.isSome then note else inv.decisionNote }
      ({ db with invoices := db.invoices.insert id rejected }, some rejected)

/-- The answers of `request_invoice_review`. -/
inductive ReviewRequest where
  | notTheirs
  | refused (status : InvoiceStatus)
  | opened
  deriving DecidableEq

/-- `request_invoice_review` -/
def requestInvoiceReview (id : InvoiceId) (u : UserId) (txHash : Text) (note : Option Text)
    (db : Db) : Db × ReviewRequest :=
  match db.invoices.get? id with
  | none => (db, .notTheirs)
  | some inv =>
    if inv.userId ≠ u then (db, .notTheirs)
    else if inv.status ≠ .pending ∧ inv.status ≠ .expired then (db, .refused inv.status)
    else
      let cleaned := (Text.strip (note.getD [])).take 1000
      ({ db with
          invoices := db.invoices.insert id { inv with
            txHash := some txHash
            reviewStatus := some .opened
            reviewNote := if cleaned = [] then none else some cleaned
            decisionReason := none
            decisionNote := none } },
        .opened)

/-- What `set_review_status` does to the row: close the review, and with `paidTx` mark the
invoice confirmed. -/
def closeReview (review : ReviewStatus) (paidTx reason note : Option Text)
    (inv : CryptoInvoice) : CryptoInvoice :=
  let inv : CryptoInvoice := { inv with
    reviewStatus := some review
    decisionReason := if reason.isSome then reason
      else if review = .resolved then none else inv.decisionReason
    decisionNote := if reason.isSome then note
      else if review = .resolved then none else inv.decisionNote }
  match paidTx with
  | none => inv
  | some tx =>
    if inv.status = .confirmed then inv
    else { inv with status := .confirmed, txHash := if tx = [] then inv.txHash else some tx }

/-- `set_review_status` -/
def setReviewStatus (id : InvoiceId) (review : ReviewStatus) (paidTx reason note : Option Text)
    (db : Db) : Db :=
  { db with invoices := db.invoices.modify id (closeReview review paidTx reason note) }

/-- `_invoices_where`: the invoices of a currency at an address that meet a condition, oldest
first. -/
def invoicesWhere (currency : Currency) (depositAddress : Text) (condition : CryptoInvoice → Bool)
    (db : Db) : List (InvoiceId × CryptoInvoice) :=
  let address := Text.lower (Text.strip depositAddress)
  ((db.invoices.select fun _ inv ↦ inv.currency = currency ∧ condition inv = true).insertionSort
      fun a b ↦ a.2.createdAt ≤ b.2.createdAt).filter
    fun r ↦ Text.lower (Text.strip r.2.depositAddress) = address

/-- `pending_invoices` -/
def pendingInvoices (currency : Currency) (depositAddress : Text) (db : Db) :
    List (InvoiceId × CryptoInvoice) :=
  invoicesWhere currency depositAddress (fun inv ↦ inv.status = .pending) db

/-- `recently_expired_invoices` -/
def recentlyExpiredInvoices (currency : Currency) (depositAddress : Text) (expiredSince : Time)
    (db : Db) : List (InvoiceId × CryptoInvoice) :=
  invoicesWhere currency depositAddress
    (fun inv ↦ inv.status = .expired ∧ expiredSince ≤ inv.expiresAt) db

/-- `reserved_invoice_units`: exact amounts a new invoice must not reuse. -/
def reservedInvoiceUnits (currency : Currency) (depositAddress : Text) (expiredSince : Time)
    (db : Db) : List ℤ :=
  (db.invoices.select fun _ inv ↦
      inv.currency = currency ∧ inv.depositAddress = depositAddress ∧
        (inv.status = .pending ∨ inv.status = .expired ∧ expiredSince ≤ inv.expiresAt)).filterMap
    fun r ↦ r.2.amountUnits

/-- `count_pending_invoices` -/
def countPendingInvoices (u : UserId) (db : Db) : ℕ :=
  (db.invoices.select fun _ inv ↦ inv.userId = u ∧ inv.status = .pending).length

/-! ## On-chain deposits -/

/-- `record_deposit`: log a transfer once, and answer the status of its row. -/
def recordDeposit (t : Transfer) (db : Db) : Db × DepositStatus :=
  match db.deposits.get? t.depositRef with
  | some existing => (db, existing.status)
  | none =>
    ({ db with
        deposits := db.deposits.insert t.depositRef
          ⟨t.info, .unmatched, none, none, none, none, db.now⟩ },
      .unmatched)

/-- `get_deposit` -/
def getDeposit (ref : TransferRef) (db : Db) : Option CryptoDeposit := db.deposits.get? ref

/-- The keyword arguments of `mark_deposit` and `mark_deposits_by_tx`: each column is assigned
when it is given. -/
structure DepositFields where
  status : Option DepositStatus := none
  matchedBy : Option MatchedBy := none
  invoiceId : Option (Option InvoiceId) := none
  userId : Option UserId := none
  creditedCents : Option ℤ := none

/-- `setattr` for each given column. -/
def DepositFields.apply (f : DepositFields) (d : CryptoDeposit) : CryptoDeposit :=
  { d with
    status := f.status.getD d.status
    matchedBy := f.matchedBy.or d.matchedBy
    invoiceId := f.invoiceId.getD d.invoiceId
    userId := f.userId.or d.userId
    creditedCents := f.creditedCents.or d.creditedCents }

/-- `mark_deposit` -/
def markDeposit (ref : TransferRef) (fields : DepositFields) (db : Db) : Db :=
  { db with deposits := db.deposits.modify ref fields.apply }

/-- `tx.strip().lower()`, what a hash typed by a person is compared as. -/
def txKey (txHash : Text) : Text := Text.lower (Text.strip txHash)

/-- `mark_deposits_by_tx`, for any currency unless one is given. -/
def markDepositsByTx (currency : Option Currency) (txHash : Text) (fields : DepositFields)
    (db : Db) : Db :=
  { db with
    deposits := db.deposits.map fun _ d ↦
      if d.info.lowerTx = some (txKey txHash) ∧ (currency = none ∨ currency = some d.info.currency)
      then fields.apply d else d }

/-- `_manual_credit_row`: the staff confirmation of a transaction, in any currency. -/
def manualCreditRow (txHash : Option Text) (ledger : List LedgerEntry) : Option LedgerEntry :=
  match txHash with
  | none => none
  | some tx =>
    if tx = [] then none
    else ledger.find? fun e ↦ e.depositRef.any (DepositRef.likeManual (txKey tx))

/-- What `earlier_credit` says of the entry it found. -/
structure EarlierCredit where
  userId : UserId
  amountCents : ℤ
  invoiceId : Option InvoiceId
  matchedBy : MatchedBy

/-- The entry `earlier_credit` finds: one with the transfer's own key, else a staff confirmation
of its transaction. -/
def earlierCreditRow (ref : TransferRef) (txHash : Option Text) (ledger : List LedgerEntry) :
    Option LedgerEntry :=
  (ledger.find? fun e ↦ e.depositRef = some (.transfer ref)).or (manualCreditRow txHash ledger)

/-- `earlier_credit` -/
def earlierCredit (ref : TransferRef) (txHash : Option Text) (db : Db) : Option EarlierCredit :=
  (earlierCreditRow ref txHash db.ledger).map fun e ↦
    ⟨e.userId, e.amountCents, e.referenceId.bind Reference.invoiceId,
      if db.ledger.any fun e ↦ e.depositRef = some (.transfer ref) then .invoice else .adminInvoice⟩

/-- Whose balance a transaction was credited to, as `tx_credit_owner` words it. -/
inductive CreditOwner where
  | username (name : Text)
  | userId (id : UserId)
  | anotherAccount

/-- The keys and rows of the logged transfers of a transaction. -/
def loggedOfTx (tx : Text) (db : Db) : List (TransferRef × CryptoDeposit) :=
  db.deposits.select fun _ d ↦ d.info.lowerTx = some tx

/-- The ledger entry `tx_credit_owner` looks for first: one with the key of a logged transfer of
the transaction, else a staff confirmation of it. -/
def txCreditRow (tx : Text) (db : Db) : Option LedgerEntry :=
  (db.ledger.find? fun e ↦ (loggedOfTx tx db).any fun r ↦
    e.depositRef = some (.transfer r.1)).or (manualCreditRow (some tx) db.ledger)

/-- `tx_credit_owner` -/
def txCreditOwner (txHash : Text) (db : Db) : Option CreditOwner :=
  let tx := txKey txHash
  if tx = [] then none
  else
    let named (u : UserId) : CreditOwner :=
      match db.users.get? u with
      | some user => if user.username = [] then .userId u else .username user.username
      | none => .userId u
    match txCreditRow tx db with
    | some e => some (named e.userId)
    | none =>
      let credited := (loggedOfTx tx db).filter fun r ↦ r.2.status = .credited
      if credited = [] then none
      else
        match credited.findSome? fun r ↦ r.2.userId with
        | some u => some (named u)
        | none => some .anotherAccount

/-- The answers of `credit_deposit`; `raised` is its `KeyError`. -/
inductive CreditResult where
  | notLogged
  | alreadyCredited
  | raised
  | credited (amountCents balanceAfter : ℤ)
  deriving DecidableEq

/-- `credit_deposit` -/
def creditDeposit (unseen : ℕ) (ref : TransferRef) (u : UserId) (amountCents : ℤ)
    (matchedBy : MatchedBy) (db : Db) : Db × CreditResult :=
  match db.deposits.get? ref with
  | none => (db, .notLogged)
  | some dep =>
    if dep.status = .credited then (db, .alreadyCredited)
    else
      match earlierCreditRow ref dep.info.txHash (db.seenLedger unseen) with
      | some earlier =>
        ({ db with
            deposits := db.deposits.insert ref { dep with
              status := .credited
              userId := some earlier.userId
              creditedCents := some earlier.amountCents } },
          .alreadyCredited)
      | none =>
        match db.users.get? u with
        | none => (db, .raised)
        | some user =>
          if db.refTaken (some (.transfer ref)) then (db, .alreadyCredited)
          else
            let db' := db.post u user amountCents .topup none (some (.transfer ref))
            ({ db' with
                deposits := db'.deposits.insert ref { dep with
                  status := .credited
                  matchedBy := some matchedBy
                  userId := some u
                  creditedCents := some amountCents } },
              .credited amountCents (user.balanceCredits + amountCents))

/-- Everything crediting a deposit can do, branch by branch. -/
inductive CreditSpec (unseen : ℕ) (ref : TransferRef) (u : UserId) (amountCents : ℤ)
    (matchedBy : MatchedBy) (db : Db) : Db × CreditResult → Prop
  | notLogged (h : db.deposits.get? ref = none) : CreditSpec _ _ _ _ _ _ (db, .notLogged)
  | wasCredited (dep : CryptoDeposit) (h : db.deposits.get? ref = some dep)
      (again : dep.status = .credited ∨ db.refTaken (some (.transfer ref)) = true) :
      CreditSpec _ _ _ _ _ _ (db, .alreadyCredited)
  | earlier (dep : CryptoDeposit) (h : db.deposits.get? ref = some dep) (e : LedgerEntry)
      (row : earlierCreditRow ref dep.info.txHash (db.seenLedger unseen) = some e) :
      CreditSpec _ _ _ _ _ _
        ({ db with
            deposits := db.deposits.insert ref { dep with
              status := .credited
              userId := some e.userId
              creditedCents := some e.amountCents } },
          .alreadyCredited)
  | raised (dep : CryptoDeposit) (h : db.deposits.get? ref = some dep)
      (missing : db.users.get? u = none) : CreditSpec _ _ _ _ _ _ (db, .raised)
  | credited (dep : CryptoDeposit) (user : User) (h : db.deposits.get? ref = some dep)
      (uncredited : dep.status ≠ .credited)
      (free : earlierCreditRow ref dep.info.txHash (db.seenLedger unseen) = none)
      (unique : db.refTaken (some (.transfer ref)) = false)
      (found : db.users.get? u = some user) :
      CreditSpec _ _ _ _ _ _
        ({ db.post u user amountCents .topup none (some (.transfer ref)) with
            deposits := db.deposits.insert ref { dep with
              status := .credited
              matchedBy := some matchedBy
              userId := some u
              creditedCents := some amountCents } },
          .credited amountCents (user.balanceCredits + amountCents))

theorem creditDeposit_spec (unseen : ℕ) (ref : TransferRef) (u : UserId) (amountCents : ℤ)
    (matchedBy : MatchedBy) (db : Db) :
    CreditSpec unseen ref u amountCents matchedBy db
      (creditDeposit unseen ref u amountCents matchedBy db) := by
  unfold creditDeposit
  split
  · next h => exact .notLogged h
  · next dep h =>
    split
    · next hcredited => exact .wasCredited dep h (.inl hcredited)
    · next uncredited =>
      split
      · next e row => exact .earlier dep h e row
      · next free =>
        split
        · next missing => exact .raised dep h missing
        · next user found =>
          split
          · next taken => exact .wasCredited dep h (.inr taken)
          · next unique =>
            exact .credited dep user h uncredited free (Bool.eq_false_of_not_eq_true unique) found

/-- `ignore_deposit`: an unmatched transfer that is nobody's top-up. -/
def ignoreDeposit (ref : TransferRef) (db : Db) : Db :=
  match db.deposits.get? ref with
  | none => db
  | some dep =>
    if dep.status ≠ .unmatched then db
    else
      { db with
        deposits := db.deposits.insert ref { dep with
          status := .ignored
          matchedBy := some .adminIgnored } }

/-- `unmatched_deposits_from`, oldest first. -/
def unmatchedDepositsFrom (sender : Text) (currencies : List Currency) (since : Time) (db : Db) :
    List (TransferRef × CryptoDeposit) :=
  (db.deposits.select fun _ d ↦
      d.info.sender = sender ∧ d.info.currency ∈ currencies ∧
        (d.status = .unmatched ∨ d.status = .ignored ∧ d.matchedBy = some .adminIgnored) ∧
        since ≤ d.observedAt).insertionSort
    fun a b ↦ a.2.observedAt ≤ b.2.observedAt

/-! ## Verified wallets -/

/-- The answers of `add_verified_wallet`. -/
inductive LinkResult where
  | linkedElsewhere
  | tooManyWallets
  | linked (created : Bool)
  deriving DecidableEq

/-- `MAX_WALLETS_PER_USER` -/
def maxWalletsPerUser : ℕ := 10

/-- `add_verified_wallet` -/
def addVerifiedWallet (u : UserId) (chain : Chain) (address : Text) (db : Db) : Db × LinkResult :=
  match db.wallets.get? (chain, address) with
  | some owner => (db, if owner = u then .linked false else .linkedElsewhere)
  | none =>
    if maxWalletsPerUser ≤ (db.wallets.select fun _ owner ↦ owner = u).length then
      (db, .tooManyWallets)
    else ({ db with wallets := db.wallets.insert (chain, address) u }, .linked true)

/-- `wallet_owner` -/
def walletOwner (chain : Chain) (address : Text) (db : Db) : Option UserId :=
  db.wallets.get? (chain, address)

/-! ## Stripe -/

/-- The answers of `complete_and_credit_stripe_session`; `raised` is its `KeyError`. -/
inductive StripeResult where
  | notFound
  | alreadyCredited
  | raised
  | credited (amountCents balanceAfter : ℤ)
  deriving DecidableEq

/-- `complete_and_credit_stripe_session` -/
def completeAndCreditStripeSession (stripeSessionId : Text) (db : Db) : Db × StripeResult :=
  match db.stripeSessions.get? stripeSessionId with
  | none => (db, .notFound)
  | some ss =>
    if ss.status = .paid then (db, .alreadyCredited)
    else
      match db.users.get? ss.userId with
      | none => (db, .raised)
      | some user =>
        if db.refTaken (some (.stripe stripeSessionId)) then (db, .alreadyCredited)
        else
          let db' := db.post ss.userId user ss.amountCents .topup
            (some (.stripeSession ss.sessionId)) (some (.stripe stripeSessionId))
          ({ db' with
              stripeSessions := db'.stripeSessions.insert stripeSessionId
                { ss with status := .paid } },
            .credited ss.amountCents (user.balanceCredits + ss.amountCents))

/-- The answers of `reverse_stripe_topup`; `raised` is its `KeyError`. -/
inductive ReverseResult where
  | alreadyReversed
  | raised
  | reversed (amountCents : ℤ)
  deriving DecidableEq

/-- `reverse_stripe_topup`: the balance may go negative. -/
def reverseStripeTopup (unseen : ℕ) (u : UserId) (amountCents : ℤ) (eventId : Text)
    (reference : Option Reference) (kind : LedgerKind) (db : Db) : Db × ReverseResult :=
  let ref := DepositRef.stripeRefund eventId
  if (db.seenLedger unseen).any fun e ↦ e.depositRef = some ref then (db, .alreadyReversed)
  else
    match db.users.get? u with
    | none => (db, .raised)
    | some user =>
      if db.refTaken (some ref) then (db, .alreadyReversed)
      else (db.post u user (-amountCents) kind reference (some ref), .reversed amountCents)

end BillingRepository

end GreenCompute
