import GreenCompute.Billing.Repository

/-!
# The ledger is an exact journal

Seven transactions move money. Each is one of two things: it leaves every balance and the ledger
alone, or it is one posting, made from a user's balance of the moment and recording what it left.
`Moves` is that alternative, with one inversion lemma per transaction, and everything said here
about runs follows from it: the books stay exact whatever the order, whatever is raised, and
whoever loses the race for `UNIQUE(deposit_ref)`.
-/

namespace GreenCompute

open BillingRepository

/-! ## What a transaction does to the money -/

/-- The money is left alone. -/
structure Still (db db' : Db) : Prop where
  ledger : db'.ledger = db.ledger
  balance : ∀ u, db'.balance u = db.balance u

/-- Neither the ledger nor the users are written. -/
structure Unwritten (db db' : Db) : Prop where
  ledger : db'.ledger = db.ledger
  users : db'.users = db.users

/-- One posting is made, from the balance of a user who exists. -/
inductive Posted (db db' : Db) : Prop
  | intro (u : UserId) (user : User) (amount : ℤ) (kind : LedgerKind)
      (reference : Option Reference) (ref : Option DepositRef)
      (found : db.users.get? u = some user)
      (ledger : db'.ledger = (db.post u user amount kind reference ref).ledger)
      (users : db'.users = (db.post u user amount kind reference ref).users)

/-- A transaction writes neither ledger nor users, or makes one posting and answers `done`. -/
abbrev Moves (db db' : Db) (done : Prop) : Prop := Unwritten db db' ∨ Posted db db' ∧ done

theorem Unwritten.refl (db : Db) : Unwritten db db := ⟨rfl, rfl⟩

theorem Db.balance_congr {db db' : Db} (h : db'.users = db.users) (u : UserId) :
    db'.balance u = db.balance u := by
  rw [balance, h, balance]

theorem Unwritten.still {db db' : Db} (h : Unwritten db db') : Still db db' :=
  ⟨h.ledger, Db.balance_congr h.users⟩

theorem Posted.post {db : Db} {u : UserId} {user : User} (h : db.users.get? u = some user)
    (amount : ℤ) (kind : LedgerKind) (reference : Option Reference) (ref : Option DepositRef) :
    Posted db (db.post u user amount kind reference ref) :=
  ⟨u, user, amount, kind, reference, ref, h, rfl, rfl⟩

/-- The opening balances, the current balances and the ledger agree. -/
structure Books (opening : UserId → ℤ) (db : Db) : Prop where
  balanced : Journal.Balanced opening db.balance db.journal
  exact : Journal.Exact opening db.journal

/-- Before anything is posted, the books agree with the balances as they are. -/
theorem Books.opened {db : Db} (h : db.ledger = []) : Books db.balance db := by
  constructor
  · intro u
    simp [Db.journal, h]
  · rw [Db.journal, h]
    exact Journal.Exact.nil

/-- The books keep agreeing when the money is left alone. -/
theorem Still.books {opening : UserId → ℤ} {db db' : Db} (h : Still db db')
    (hb : Books opening db) : Books opening db' := by
  have hjournal : db'.journal = db.journal := by rw [Db.journal, h.ledger, Db.journal]
  constructor
  · intro u
    rw [h.balance, hjournal, hb.balanced]
  · rw [hjournal]
    exact hb.exact

/-- Whatever a transaction does to the money, the books keep agreeing. -/
theorem Moves.books {opening : UserId → ℤ} {db db' : Db} {done : Prop} (h : Moves db db' done)
    (hb : Books opening db) : Books opening db' := by
  rcases h with h | ⟨⟨u, user, amount, kind, reference, ref, found, ledger, users⟩, -⟩
  · exact h.still.books hb
  · have balance := Db.balance_congr users
    have hjournal : db'.journal = db.journal ++ [⟨u, amount, user.balanceCredits + amount⟩] := by
      rw [Db.journal, ledger, Db.post_ledger, List.map_append]
      rfl
    have hself := Db.balance_of_get? found
    rw [← hself] at hjournal
    constructor
    · rw [hjournal]
      refine hb.balanced.post ?_ fun v hv ↦ ?_
      · rw [balance, Db.post_balance, if_pos rfl, hself]
      · rw [balance, Db.post_balance, if_neg hv]
    · rw [hjournal]
      exact hb.exact.post hb.balanced rfl

/-! ## The seven transactions -/

theorem creditUser_moves (u : UserId) (amount : ℤ) (kind : LedgerKind)
    (reference : Option Reference) (db : Db) :
    Moves db (creditUser u amount kind reference db).1
      (∃ e, (creditUser u amount kind reference db).2 = .ok e) := by
  unfold creditUser
  split
  · exact .inl (.refl db)
  · next user h => exact .inr ⟨.post h _ _ _ _, _, rfl⟩

theorem debitUser_moves (u : UserId) (amount : ℤ) (kind : LedgerKind)
    (reference : Option Reference) (allowNegative : Bool) (db : Db) :
    Moves db (debitUser u amount kind reference allowNegative db).1
      (∃ e, (debitUser u amount kind reference allowNegative db).2 = .ok e) := by
  unfold debitUser
  split
  · exact .inl (.refl db)
  · next user h =>
    split
    · exact .inl (.refl db)
    · exact .inr ⟨.post h _ _ _ _, _, rfl⟩

theorem debitUserToFloor_moves (u : UserId) (amount : ℤ) (kind : LedgerKind)
    (reference : Option Reference) (db : Db) :
    Moves db (debitUserToFloor u amount kind reference db).1
      (∃ r, (debitUserToFloor u amount kind reference db).2 = .ok r) := by
  unfold debitUserToFloor
  split
  · exact .inl (.refl db)
  · next user h =>
    dsimp only
    split
    · exact .inr ⟨.post h _ _ _ _, _, rfl⟩
    · exact .inl (.refl db)

theorem confirmAndCreditInvoice_moves (unseen : ℕ) (id : InvoiceId) (txHash : Text)
    (ref : Option DepositRef) (allowExpired : Bool) (creditCents : Option ℤ) (db : Db) :
    Moves db (confirmAndCreditInvoice unseen id txHash ref allowExpired creditCents db).1
      (∃ total after, (confirmAndCreditInvoice unseen id txHash ref allowExpired creditCents db).2
        = .credited total after) := by
  have hspec := confirmAndCreditInvoice_spec unseen id txHash ref allowExpired creditCents db
  generalize confirmAndCreditInvoice unseen id txHash ref allowExpired creditCents db = out
    at hspec ⊢
  cases hspec with
  | alreadyConfirmed inv h => exact .inl ⟨rfl, rfl⟩
  | credited inv user h _ _ _ found =>
    exact .inr ⟨⟨_, user, _, _, _, _, found, rfl, rfl⟩, _, _, rfl⟩
  | _ => exact .inl (.refl db)

theorem creditDeposit_moves (unseen : ℕ) (ref : TransferRef) (u : UserId) (amount : ℤ)
    (matchedBy : MatchedBy) (db : Db) :
    Moves db (creditDeposit unseen ref u amount matchedBy db).1
      (∃ cents after, (creditDeposit unseen ref u amount matchedBy db).2
        = .credited cents after) := by
  have hspec := creditDeposit_spec unseen ref u amount matchedBy db
  generalize creditDeposit unseen ref u amount matchedBy db = out at hspec ⊢
  cases hspec with
  | earlier dep h e row => exact .inl ⟨rfl, rfl⟩
  | credited dep user h _ _ _ found =>
    exact .inr ⟨⟨_, user, _, _, _, _, found, rfl, rfl⟩, _, _, rfl⟩
  | _ => exact .inl (.refl db)

theorem completeAndCreditStripeSession_moves (id : Text) (db : Db) :
    Moves db (completeAndCreditStripeSession id db).1
      (∃ cents after, (completeAndCreditStripeSession id db).2 = .credited cents after) := by
  unfold completeAndCreditStripeSession
  split
  · exact .inl (.refl db)
  · split
    · exact .inl (.refl db)
    · split
      · exact .inl (.refl db)
      · next user h =>
        split
        · exact .inl (.refl db)
        · exact .inr ⟨⟨_, user, _, _, _, _, h, rfl, rfl⟩, _, _, rfl⟩

theorem reverseStripeTopup_moves (unseen : ℕ) (u : UserId) (amount : ℤ) (eventId : Text)
    (reference : Option Reference) (kind : LedgerKind) (db : Db) :
    Moves db (reverseStripeTopup unseen u amount eventId reference kind db).1
      (∃ cents, (reverseStripeTopup unseen u amount eventId reference kind db).2
        = .reversed cents) := by
  unfold reverseStripeTopup
  dsimp only
  split
  · exact .inl (.refl db)
  · split
    · exact .inl (.refl db)
    · next user h =>
      split
      · exact .inl (.refl db)
      · exact .inr ⟨.post h _ _ _ _, _, rfl⟩

/-! ## Runs -/

/-- A money-moving transaction with its arguments. `unseen` is how many of the last ledger entries
its SELECTs miss. -/
inductive MoneyOp where
  | creditUser (u : UserId) (amountCents : ℤ) (kind : LedgerKind) (reference : Option Reference)
  | debitUser (u : UserId) (amountCents : ℤ) (kind : LedgerKind) (reference : Option Reference)
      (allowNegative : Bool)
  | debitUserToFloor (u : UserId) (amountCents : ℤ) (kind : LedgerKind)
      (reference : Option Reference)
  | confirmAndCreditInvoice (unseen : ℕ) (id : InvoiceId) (txHash : Text)
      (depositRef : Option DepositRef) (allowExpired : Bool) (creditCents : Option ℤ)
  | creditDeposit (unseen : ℕ) (ref : TransferRef) (u : UserId) (amountCents : ℤ)
      (matchedBy : MatchedBy)
  | completeAndCreditStripeSession (stripeSessionId : Text)
  | reverseStripeTopup (unseen : ℕ) (u : UserId) (amountCents : ℤ) (eventId : Text)
      (reference : Option Reference) (kind : LedgerKind)

namespace MoneyOp

/-- The database a transaction leaves. -/
def exec : MoneyOp → Db → Db
  | creditUser u amount kind reference, db =>
    (BillingRepository.creditUser u amount kind reference db).1
  | debitUser u amount kind reference allowNegative, db =>
    (BillingRepository.debitUser u amount kind reference allowNegative db).1
  | debitUserToFloor u amount kind reference, db =>
    (BillingRepository.debitUserToFloor u amount kind reference db).1
  | confirmAndCreditInvoice unseen id txHash ref allowExpired creditCents, db =>
    (BillingRepository.confirmAndCreditInvoice unseen id txHash ref allowExpired creditCents db).1
  | creditDeposit unseen ref u amount matchedBy, db =>
    (BillingRepository.creditDeposit unseen ref u amount matchedBy db).1
  | completeAndCreditStripeSession id, db =>
    (BillingRepository.completeAndCreditStripeSession id db).1
  | reverseStripeTopup unseen u amount eventId reference kind, db =>
    (BillingRepository.reverseStripeTopup unseen u amount eventId reference kind db).1

/-- The transaction answers that it did its work: it does not raise, and does not answer that it
was refused, has nothing to act on, or that the money was moved before. -/
def succeeds : MoneyOp → Db → Prop
  | creditUser u amount kind reference, db =>
    ∃ e, (BillingRepository.creditUser u amount kind reference db).2 = .ok e
  | debitUser u amount kind reference allowNegative, db =>
    ∃ e, (BillingRepository.debitUser u amount kind reference allowNegative db).2 = .ok e
  | debitUserToFloor u amount kind reference, db =>
    ∃ r, (BillingRepository.debitUserToFloor u amount kind reference db).2 = .ok r
  | confirmAndCreditInvoice unseen id txHash ref allowExpired creditCents, db =>
    ∃ total after, (BillingRepository.confirmAndCreditInvoice unseen id txHash ref allowExpired
      creditCents db).2 = .credited total after
  | creditDeposit unseen ref u amount matchedBy, db =>
    ∃ cents after,
      (BillingRepository.creditDeposit unseen ref u amount matchedBy db).2 = .credited cents after
  | completeAndCreditStripeSession id, db =>
    ∃ cents after,
      (BillingRepository.completeAndCreditStripeSession id db).2 = .credited cents after
  | reverseStripeTopup unseen u amount eventId reference kind, db =>
    ∃ cents, (BillingRepository.reverseStripeTopup unseen u amount eventId reference kind db).2
      = .reversed cents

theorem exec_moves (op : MoneyOp) (db : Db) : Moves db (op.exec db) (op.succeeds db) := by
  cases op with
  | creditUser => exact creditUser_moves _ _ _ _ _
  | debitUser => exact debitUser_moves _ _ _ _ _ _
  | debitUserToFloor => exact debitUserToFloor_moves _ _ _ _ _
  | confirmAndCreditInvoice => exact confirmAndCreditInvoice_moves _ _ _ _ _ _ _
  | creditDeposit => exact creditDeposit_moves _ _ _ _ _ _
  | completeAndCreditStripeSession => exact completeAndCreditStripeSession_moves _ _
  | reverseStripeTopup => exact reverseStripeTopup_moves _ _ _ _ _ _ _

/-- A transaction that does not answer that it did its work leaves the money alone. -/
theorem still_of_not_succeeds {op : MoneyOp} {db : Db} (h : ¬op.succeeds db) :
    Still db (op.exec db) :=
  ((op.exec_moves db).resolve_right fun hposted ↦ h hposted.2).still

end MoneyOp

/-- One step of the billing database as far as money goes: one of the seven transactions, or
anything that leaves the money alone. -/
inductive MoneyStep : Db → Db → Prop
  | money (op : MoneyOp) (db : Db) : MoneyStep db (op.exec db)
  | other {db db' : Db} (h : Still db db') : MoneyStep db db'

theorem MoneyStep.books {opening : UserId → ℤ} {db db' : Db} (h : MoneyStep db db')
    (hb : Books opening db) : Books opening db' := by
  cases h with
  | money op => exact (op.exec_moves db).books hb
  | other h => exact h.books hb

/-- The books agree after any run of steps. -/
theorem Books.run {opening : UserId → ℤ} {db db' : Db} (hb : Books opening db)
    (h : Relation.ReflTransGen MoneyStep db db') : Books opening db' := by
  induction h with
  | refl => exact hb
  | tail _ hstep ih => exact hstep.books ih

/-! ## Floors -/

theorem min_zero_le_debitUser (u : UserId) (amount : ℤ) (kind : LedgerKind)
    (reference : Option Reference) (db : Db) (v : UserId) :
    min 0 (db.balance v) ≤ (debitUser u amount kind reference false db).1.balance v := by
  unfold debitUser
  split
  · exact min_le_right _ _
  · next user h =>
    split
    · exact min_le_right _ _
    · next hcover =>
      rw [Db.post_balance]
      split
      · simp only [true_and, not_lt] at hcover
        omega
      · exact min_le_right _ _

theorem min_zero_le_debitUserToFloor (u : UserId) (amount : ℤ) (kind : LedgerKind)
    (reference : Option Reference) (db : Db) (v : UserId) :
    min 0 (db.balance v) ≤ (debitUserToFloor u amount kind reference db).1.balance v := by
  unfold debitUserToFloor
  split
  · exact min_le_right _ _
  · next user h =>
    dsimp only
    split
    · rw [Db.post_balance]
      split
      · omega
      · exact min_le_right _ _
    · exact min_le_right _ _

theorem debitUserToFloor_add (u : UserId) (amount : ℤ) (kind : LedgerKind)
    (reference : Option Reference) (db : Db) {r : FloorDebit}
    (h : (debitUserToFloor u amount kind reference db).2 = .ok r) :
    r.debitedCents + r.shortfallCents = max 0 amount := by
  unfold debitUserToFloor at h
  split at h
  · cases h
  · obtain rfl := Except.ok.inj h
    dsimp only
    omega

/-! ## The journal theorem -/

/-- **The ledger is an exact journal.** In every database a run of transactions leads to, every
balance is the opening balance plus the sum of the user's entries, and every entry recorded the
opening balance plus the sum up to and including itself; there, a strict debit and a debit to the
floor do not go below zero or below what there was, a debit to the floor accounts for all that was
asked for, and a transaction that does not succeed changes no balance and no entry. -/
theorem ledger_is_exact_journal {db₀ db : Db} (start : db₀.ledger = [])
    (run : Relation.ReflTransGen MoneyStep db₀ db) :
    (∀ u, db.balance u = db₀.balance u + Journal.total u db.journal) ∧
      Journal.Exact db₀.balance db.journal ∧
      (∀ u amount kind reference v,
        min 0 (db.balance v) ≤ (debitUser u amount kind reference false db).1.balance v ∧
        min 0 (db.balance v) ≤ (debitUserToFloor u amount kind reference db).1.balance v) ∧
      (∀ u amount kind reference r, (debitUserToFloor u amount kind reference db).2 = .ok r →
        r.debitedCents + r.shortfallCents = max 0 amount) ∧
      ∀ op : MoneyOp, ¬op.succeeds db →
        (op.exec db).ledger = db.ledger ∧ ∀ u, (op.exec db).balance u = db.balance u := by
  have hbooks := (Books.opened start).run run
  refine ⟨hbooks.balanced, hbooks.exact, ?_, ?_, ?_⟩
  · intro u amount kind reference v
    exact ⟨min_zero_le_debitUser u amount kind reference db v,
      min_zero_le_debitUserToFloor u amount kind reference db v⟩
  · intro u amount kind reference r h
    exact debitUserToFloor_add u amount kind reference db h
  · intro op h
    have hstill := MoneyOp.still_of_not_succeeds h
    exact ⟨hstill.ledger, hstill.balance⟩

/-- One customer, nothing booked. -/
private def oneCustomer : Db where
  users := .ofRows [(1, ⟨"ada".toList, none, none, none, none, [], 0⟩)]
  ledger := []
  invoices := .empty
  deposits := .empty
  wallets := .empty
  stripeSessions := .empty
  now := 0
  price := fun _ ↦ 0
  depositAddress := fun _ ↦ []

/-- A top-up of 500, then 700 drained to the floor: the journal sums to the balance, which is
zero. -/
theorem ledger_is_exact_journal_drained :
    let db := (MoneyOp.debitUserToFloor 1 700 .usage none).exec
      ((MoneyOp.creditUser 1 500 .topup none).exec oneCustomer)
    db.balance 1 = oneCustomer.balance 1 + Journal.total 1 db.journal ∧ db.balance 1 = 0 ∧
      db.ledger.map LedgerEntry.amountCents = [500, -500] :=
  ⟨(ledger_is_exact_journal rfl (.tail (.tail .refl (.money _ _)) (.money _ _))).1 1,
    by decide +kernel, by decide +kernel⟩

end GreenCompute
