import GreenCompute.Billing.Service

/-!
# What a transaction of the billing service writes

Two things carry the payment properties: the ledger, and the log of transfers (`Db.logged`: which
transfers were recorded, and what was read of them). A transaction changes at most one of them,
and only three transactions change either: `record_deposit` extends the log, and
`confirm_and_credit_invoice` and `credit_deposit` append one entry to the ledger.
-/

namespace GreenCompute

open BillingRepository

/-- What was read of a transfer, if it was logged. -/
def Db.logged (db : Db) (ref : TransferRef) : Option TransferInfo :=
  (db.deposits.get? ref).map CryptoDeposit.info

theorem Db.logged_of_get? {db : Db} {ref : TransferRef} {dep : CryptoDeposit}
    (h : db.deposits.get? ref = some dep) : db.logged ref = some dep.info := by
  rw [logged, h, Option.map_some]

/-- The log of transfers is the same. -/
def SameLog (db db' : Db) : Prop := ∀ ref, db'.logged ref = db.logged ref

theorem SameLog.of_deposits {db db' : Db} (h : db'.deposits = db.deposits) : SameLog db db' := by
  intro ref
  rw [Db.logged, h, Db.logged]

/-- Rewriting rows in place keeps the log when it keeps what was read. -/
theorem SameLog.of_map {db db' : Db} {f : TransferRef → CryptoDeposit → CryptoDeposit}
    (hf : ∀ ref d, (f ref d).info = d.info) (h : db'.deposits = db.deposits.map f) :
    SameLog db db' := by
  intro ref
  rw [Db.logged, h, Table.get?_map, Option.map_map, Db.logged]
  congr 1
  funext d
  exact hf ref d

/-- Replacing a logged row keeps the log when it keeps what was read. -/
theorem SameLog.of_insert {db db' : Db} {ref : TransferRef} {dep dep' : CryptoDeposit}
    (hdep : db.deposits.get? ref = some dep) (h : db'.deposits = db.deposits.insert ref dep')
    (hinfo : dep'.info = dep.info) : SameLog db db' := by
  intro r
  rw [Db.logged, h, Table.get?_insert]
  split
  · next hr =>
    rw [hr, Db.logged_of_get? hdep, Option.map_some, hinfo]
  · rfl

@[simp] theorem DepositFields.apply_info (f : DepositFields) (d : CryptoDeposit) :
    (f.apply d).info = d.info := rfl

theorem markDeposit_sameLog (ref : TransferRef) (f : DepositFields) (db : Db) :
    SameLog db (markDeposit ref f db) := by
  refine .of_map (f := fun k d ↦ if k = ref then f.apply d else d) ?_ rfl
  intro r d
  split <;> rfl

theorem markDepositsByTx_sameLog (c : Option Currency) (tx : Text) (f : DepositFields) (db : Db) :
    SameLog db (markDepositsByTx c tx f db) := by
  refine .of_map (f := fun _ d ↦ if d.info.lowerTx = some (txKey tx) ∧
    (c = none ∨ c = some d.info.currency) then f.apply d else d) ?_ rfl
  intro r d
  split <;> rfl

theorem ignoreDeposit_sameLog (ref : TransferRef) (db : Db) :
    SameLog db (ignoreDeposit ref db) := by
  unfold ignoreDeposit
  split
  · exact fun _ ↦ rfl
  · next dep h =>
    split
    · exact fun _ ↦ rfl
    · exact .of_insert h rfl rfl

theorem confirmAndCreditInvoice_sameLog (unseen : ℕ) (id : InvoiceId) (tx : Text)
    (ref : Option DepositRef) (expired : Bool) (cents : Option ℤ) (db : Db) :
    SameLog db (confirmAndCreditInvoice unseen id tx ref expired cents db).1 := by
  have hspec := confirmAndCreditInvoice_spec unseen id tx ref expired cents db
  generalize confirmAndCreditInvoice unseen id tx ref expired cents db = out at hspec ⊢
  cases hspec <;> exact fun _ ↦ rfl

theorem creditDeposit_sameLog (unseen : ℕ) (ref : TransferRef) (u : UserId) (amount : ℤ)
    (how : MatchedBy) (db : Db) : SameLog db (creditDeposit unseen ref u amount how db).1 := by
  have hspec := creditDeposit_spec unseen ref u amount how db
  generalize creditDeposit unseen ref u amount how db = out at hspec ⊢
  cases hspec with
  | earlier dep h e row => exact .of_insert h rfl rfl
  | credited dep user h => exact .of_insert h rfl rfl
  | _ => exact fun _ ↦ rfl

/-- How a transaction changes the log: not at all, or by recording a new transfer. -/
theorem exec_log (o : BillingOp) (db : Db) :
    SameLog db (o.exec db).1 ∨
      ∃ t, o = .recordDeposit t ∧ db.logged t.depositRef = none ∧
        ∀ ref, (o.exec db).1.logged ref
          = if ref = t.depositRef then some t.info else db.logged ref := by
  cases o with
  | recordDeposit t =>
    cases h : db.deposits.get? t.depositRef with
    | some existing =>
      left
      simp only [BillingOp.exec, recordDeposit, h]
      exact fun _ ↦ rfl
    | none =>
      right
      refine ⟨t, rfl, by rw [Db.logged, h, Option.map_none], fun ref ↦ ?_⟩
      simp only [BillingOp.exec, recordDeposit, h, Db.logged, Table.get?_insert]
      split <;> rfl
  | createCryptoInvoice id inv =>
    left
    simp only [BillingOp.exec, createCryptoInvoice]
    split <;> exact fun _ ↦ rfl
  | confirmAndCreditInvoice => exact .inl (confirmAndCreditInvoice_sameLog _ _ _ _ _ _ _)
  | rejectCryptoInvoice id reason note =>
    left
    simp only [BillingOp.exec, rejectCryptoInvoice]
    split
    · exact fun _ ↦ rfl
    · split_ifs <;> exact fun _ ↦ rfl
  | requestInvoiceReview id u tx note =>
    left
    simp only [BillingOp.exec, requestInvoiceReview]
    split
    · exact fun _ ↦ rfl
    · split_ifs <;> exact fun _ ↦ rfl
  | markDeposit => exact .inl (markDeposit_sameLog _ _ _)
  | markDepositsByTx => exact .inl (markDepositsByTx_sameLog _ _ _ _)
  | creditDeposit => exact .inl (creditDeposit_sameLog _ _ _ _ _ _)
  | ignoreDeposit => exact .inl (ignoreDeposit_sameLog _ _)
  | addVerifiedWallet u c a =>
    left
    simp only [BillingOp.exec, addVerifiedWallet]
    split
    · exact fun _ ↦ rfl
    · split_ifs <;> exact fun _ ↦ rfl
  | _ => exact .inl fun _ ↦ rfl

/-- How a transaction changes the ledger: not at all, or by the entry of a confirmation or of a
deposit credit. -/
inductive LedgerEffect (db : Db) (o : BillingOp) : Prop
  | none (h : (o.exec db).1.ledger = db.ledger)
  | confirmed (id : InvoiceId) (tx : Text) (ref : Option DepositRef) (expired : Bool)
      (cents : Option ℤ) (ho : o = .confirmAndCreditInvoice id tx ref expired cents)
      (e : LedgerEntry) (h : (o.exec db).1.ledger = db.ledger ++ [e])
      (key : e.depositRef = ref) (kind : e.kind = .topup)
      (reference : e.referenceId = some (.invoice id))
      (unpaid : db.ledger.any (isInvoiceTopup id) = false) (free : db.refTaken ref = false)
  | credited (ref : TransferRef) (u : UserId) (cents : ℤ) (how : MatchedBy)
      (ho : o = .creditDeposit ref u cents how)
      (e : LedgerEntry) (h : (o.exec db).1.ledger = db.ledger ++ [e])
      (key : e.depositRef = some (.transfer ref)) (kind : e.kind = .topup)
      (reference : e.referenceId = Option.none) (dep : CryptoDeposit)
      (logged : db.deposits.get? ref = some dep)
      (free : earlierCreditRow ref dep.info.txHash db.ledger = Option.none)

theorem exec_ledger (o : BillingOp) (db : Db) : LedgerEffect db o := by
  cases o with
  | confirmAndCreditInvoice id tx ref expired cents =>
    have hspec := confirmAndCreditInvoice_spec 0 id tx ref expired cents db
    generalize hout : confirmAndCreditInvoice 0 id tx ref expired cents db = out at hspec
    cases hspec with
    | credited inv user h _ unpaid free found =>
      rw [Db.seenLedger_zero] at unpaid
      have hledger : (BillingOp.exec (.confirmAndCreditInvoice id tx ref expired cents) db).1.ledger
          = db.ledger ++ [⟨inv.userId, cents.getD inv.totalCredits,
            user.balanceCredits + cents.getD inv.totalCredits, .topup, some (.invoice id),
            ref⟩] := by
        rw [BillingOp.exec, hout]
        rfl
      exact .confirmed id tx ref expired cents rfl _ hledger rfl rfl rfl unpaid free
    | _ =>
      refine .none ?_
      rw [BillingOp.exec, hout]
  | creditDeposit ref u cents how =>
    have hspec := creditDeposit_spec 0 ref u cents how db
    generalize hout : creditDeposit 0 ref u cents how db = out at hspec
    cases hspec with
    | credited dep user h _ free unique found =>
      rw [Db.seenLedger_zero] at free
      have hledger : (BillingOp.exec (.creditDeposit ref u cents how) db).1.ledger
          = db.ledger ++ [⟨u, cents, user.balanceCredits + cents, .topup, none,
            some (.transfer ref)⟩] := by
        rw [BillingOp.exec, hout]
        rfl
      exact .credited ref u cents how rfl _ hledger rfl rfl rfl dep h free
    | _ =>
      refine .none ?_
      rw [BillingOp.exec, hout]
  | createCryptoInvoice id inv =>
    refine .none ?_
    simp only [BillingOp.exec, createCryptoInvoice]
    split <;> rfl
  | rejectCryptoInvoice id reason note =>
    refine .none ?_
    simp only [BillingOp.exec, rejectCryptoInvoice]
    split
    · rfl
    · split_ifs <;> rfl
  | requestInvoiceReview id u tx note =>
    refine .none ?_
    simp only [BillingOp.exec, requestInvoiceReview]
    split
    · rfl
    · split_ifs <;> rfl
  | recordDeposit t =>
    refine .none ?_
    simp only [BillingOp.exec, recordDeposit]
    split <;> rfl
  | ignoreDeposit ref =>
    refine .none ?_
    simp only [BillingOp.exec, ignoreDeposit]
    split
    · rfl
    · split_ifs <;> rfl
  | addVerifiedWallet u c a =>
    refine .none ?_
    simp only [BillingOp.exec, addVerifiedWallet]
    split
    · rfl
    · split_ifs <;> rfl
  | _ => exact .none rfl

/-- Entries are never taken back. -/
theorem exec_ledger_grows (o : BillingOp) (db : Db) : db.ledger <+: (o.exec db).1.ledger := by
  cases exec_ledger o db with
  | none h => exact ⟨[], by rw [List.append_nil, h]⟩
  | confirmed _ _ _ _ _ _ e h => exact ⟨[e], h.symm⟩
  | credited _ _ _ _ _ e h => exact ⟨[e], h.symm⟩

/-- A logged transfer stays logged as it was read. -/
theorem exec_logged {o : BillingOp} {db : Db} {ref : TransferRef} {info : TransferInfo}
    (h : db.logged ref = some info) : (o.exec db).1.logged ref = some info := by
  rcases exec_log o db with hlog | ⟨t, -, hnew, hlog⟩
  · rw [hlog, h]
  · rw [hlog, if_neg]
    · exact h
    · rintro rfl
      rw [hnew] at h
      cases h

/-! ## Routine methods

Apart from settling a transfer and from the staff confirmations, the methods pay no invoice and
mark no deposit credited: what they pay, they pay with `credit_deposit`. Invoices start out
pending, and staff only ever close reviews. -/

/-- The transaction pays no invoice and marks no deposit credited, creates only pending invoices
and opens no review in the staff's name. -/
def Routine : BillingOp → Prop
  | .confirmAndCreditInvoice .. => False
  | .markDeposit _ fields => fields.status ≠ some .credited
  | .markDepositsByTx .. => False
  | .createCryptoInvoice _ inv => inv.status = .pending
  | .setReviewStatus _ review .. => review ≠ .opened
  | _ => True

/-- Routine, and no invoice is created either. -/
def Plain : BillingOp → Prop
  | .createCryptoInvoice .. => False
  | .confirmAndCreditInvoice .. => False
  | .markDeposit _ fields => fields.status ≠ some .credited
  | .markDepositsByTx .. => False
  | .setReviewStatus _ review .. => review ≠ .opened
  | _ => True

theorem Plain.routine {o : BillingOp} (h : Plain o) : Routine o := by
  cases o with
  | createCryptoInvoice | confirmAndCreditInvoice | markDepositsByTx => exact h.elim
  | _ => exact h

theorem Program.Uses.routine {α : Type} {p : Program Billing α} (h : p.Uses Plain) :
    p.Uses Routine :=
  h.mono fun _ ↦ Plain.routine

namespace BillingService

open Program (Uses)

theorem plain_depositValueCents (c : Currency) (amount : ℚ) (price : Option ℚ) :
    (depositValueCents c amount price).Uses Plain := by
  refine Uses.bind ?_ fun p ↦ trivial
  unfold unitPrice
  split
  · trivial
  · split
    · trivial
    · exact Program.uses_op.mpr trivial

theorem plain_creditWallet (t : Transfer) : (creditWallet t).Uses Plain := by
  unfold creditWallet
  split
  · trivial
  · refine Uses.op_bind trivial fun owner ↦ ?_
    cases owner with
    | none => trivial
    | some owner =>
      refine Uses.bind (plain_depositValueCents _ _ _) fun cents ↦ ?_
      split
      · refine Uses.op_bind trivial fun r ↦ ?_
        cases r <;> trivial
      · trivial

theorem plain_leaveUnmatched (t : Transfer) : (leaveUnmatched t).Uses Plain := by
  unfold leaveUnmatched
  refine Uses.bind (plain_depositValueCents _ _ _) fun cents ↦ ?_
  split
  · exact Uses.op_bind nofun fun _ ↦ trivial
  · trivial

theorem plain_assignDepositTo (ref : TransferRef) (u : UserId) :
    (assignDepositTo ref u).Uses Plain := by
  unfold assignDepositTo
  refine Uses.op_bind trivial fun dep ↦ ?_
  cases dep with
  | none => trivial
  | some dep =>
    refine Uses.bind (plain_depositValueCents _ _ _) fun cents ↦ ?_
    exact Uses.op_bind trivial fun _ ↦ trivial

theorem plain_reviewCreditDeposit (id : InvoiceId) (review : CryptoInvoice) (ref : TransferRef) :
    (reviewCreditDeposit id review ref).Uses Plain := by
  unfold reviewCreditDeposit
  refine Uses.bind (plain_assignDepositTo _ _) fun r ↦ ?_
  split
  · exact Uses.op_bind nofun fun _ ↦ Uses.op_bind nofun fun _ ↦ trivial
  · trivial
  · trivial

theorem plain_claimEach (u : UserId) (l : List (TransferRef × CryptoDeposit)) :
    (claimEach u l).Uses Plain := by
  induction l with
  | nil => trivial
  | cons r l ih =>
    refine Uses.bind (plain_depositValueCents _ _ _) fun cents ↦ ?_
    split
    · exact ih
    · refine Uses.op_bind trivial fun result ↦ ?_
      cases result with
      | credited => exact Uses.bind ih fun _ ↦ trivial
      | raised => trivial
      | notLogged | alreadyCredited => exact ih

theorem plain_claimWalletDeposits (u : UserId) (chain : Chain) (address : Text) :
    (claimWalletDeposits u chain address).Uses Plain := by
  unfold claimWalletDeposits
  exact Uses.op_bind trivial fun now ↦ Uses.op_bind trivial fun deposits ↦ plain_claimEach _ _

theorem plain_linkWallet (u : UserId) (chain : Chain) (address : Text) (issuedAt : Time)
    (verified : Bool) : (linkWallet u chain address issuedAt verified).Uses Plain := by
  unfold linkWallet
  refine Uses.op_bind trivial fun now ↦ ?_
  dsimp only
  split_ifs
  · trivial
  · trivial
  · refine Uses.op_bind trivial fun r ↦ ?_
    cases r with
    | linked => exact Uses.bind (plain_claimWalletDeposits _ _ _) fun _ ↦ trivial
    | _ => trivial

theorem plain_rejectInvoice (id : InvoiceId) (reason note : Option Text) :
    (rejectInvoice id reason note).Uses Plain := by
  unfold rejectInvoice
  split
  · trivial
  · refine Uses.op_bind trivial fun before ↦ ?_
    cases before with
    | none => trivial
    | some before =>
      dsimp only
      split
      · trivial
      · exact Uses.op_bind trivial fun _ ↦ trivial

theorem routine_reserveAmount (c : Currency) (address : Text) (maxExtra : ℕ) (baseUnits : ℤ)
    {invoice : Time → ℤ → CryptoInvoice}
    (pending : ∀ now units, (invoice now units).status = .pending)
    (draw : ℕ → InvoiceId × ℕ) (n : ℕ) :
    (reserveAmount c address maxExtra baseUnits invoice draw n).Uses Routine := by
  induction n with
  | zero => trivial
  | succ n ih =>
    refine Uses.op_bind trivial fun now ↦ Uses.op_bind trivial fun taken ↦
      Uses.op_bind (pending _ _) fun inserted ↦ ?_
    split
    · trivial
    · exact ih

theorem routine_createCryptoInvoice (u : UserId) (c : Currency) (usd : ℚ)
    (draw : ℕ → InvoiceId × ℕ) : (createCryptoInvoice u c usd draw).Uses Routine := by
  unfold createCryptoInvoice
  refine Uses.bind ?_ fun amount ↦ Uses.op_bind trivial fun address ↦ ?_
  · unfold cryptoAmount
    split
    · trivial
    · exact Uses.op_bind trivial fun _ ↦ trivial
  · split
    · trivial
    · split
      · trivial
      · refine Uses.op_bind trivial fun pending ↦ ?_
        split
        · trivial
        · exact routine_reserveAmount _ _ _ _ (fun _ _ ↦ rfl) _ _

/-! ## Composite methods

What a composite method keeps, it keeps because its parts do: the routine ones, and the payments
of invoices by `creditInvoice`. -/

section Composite

variable {K : Contract Db} {G : List (Event Billing) → BillingOp → Db → Prop} {P : Db → Prop}
  {t : Transfer}

/-- The condition is not undone, routine methods keep the contract, and so does every attempt to
credit an invoice for this transfer. -/
structure Settles (K : Contract Db) (G : List (Event Billing) → BillingOp → Db → Prop)
    (P : Db → Prop) (t : Transfer) : Prop where
  stable : ∀ {s s'}, K.rel s s' → P s → P s'
  routine : ∀ {α : Type} {p : Program Billing α}, p.Uses Routine →
    p.SafeFrom billing.toMachine K G P
  credit : ∀ id inv how cents expired,
    (creditInvoice id inv t how cents expired).SafeFrom billing.toMachine K G P

namespace Settles

open Program (SafeFrom)

theorem orElse (h : Settles K G P t) {rule : Program Billing (Option Resolution)}
    {rest : Program Billing Resolution} (h₁ : rule.SafeFrom billing.toMachine K G P)
    (h₂ : rest.SafeFrom billing.toMachine K G P) :
    (orElse rule rest).SafeFrom billing.toMachine K G P := by
  refine SafeFrom.bind h.stable h₁ fun outcome ↦ ?_
  cases outcome with
  | some outcome => exact SafeFrom.done _
  | none => exact h₂

theorem creditExact (h : Settles K G P t) (l : List (InvoiceId × CryptoInvoice)) :
    (creditExact t l).SafeFrom billing.toMachine K G P := by
  induction l with
  | nil => exact SafeFrom.done _
  | cons r l ih =>
    refine SafeFrom.bind h.stable (h.credit _ _ _ _ _) fun outcome ↦ ?_
    cases outcome with
    | some outcome => exact SafeFrom.done _
    | none => exact ih

theorem read (h : Settles K G P t) (o : BillingOp) (ho : Routine o) :
    (call o).SafeFrom billing.toMachine K G P :=
  h.routine (Program.uses_op.mpr ho)

/-- Credit an invoice at the value of what arrived. -/
theorem creditAtValue (h : Settles K G P t) (id : InvoiceId) (inv : CryptoInvoice)
    (how : MatchedBy) (expired : Bool) (amount : ℚ) :
    (depositValueCents t.info.currency amount t.info.usdPrice >>= fun cents ↦
      creditInvoice id inv t how (some cents) expired).SafeFrom billing.toMachine K G P :=
  SafeFrom.bind h.stable (h.routine (plain_depositValueCents _ _ _).routine) fun _ ↦ h.credit _ _ _ _ _

theorem creditLate (h : Settles K G P t) :
    (creditLate t).SafeFrom billing.toMachine K G P := by
  unfold BillingService.creditLate
  refine SafeFrom.bind h.stable (h.read _ trivial) fun now ↦ ?_
  refine SafeFrom.bind h.stable (h.read _ trivial) fun expired ↦ ?_
  split
  · exact h.creditAtValue _ _ _ _ _
  · exact SafeFrom.done _

theorem creditOneCustomersInvoice (h : Settles K G P t) (l : List (InvoiceId × CryptoInvoice)) :
    (creditOneCustomersInvoice t l).SafeFrom billing.toMachine K G P := by
  unfold BillingService.creditOneCustomersInvoice
  refine SafeFrom.bind h.stable (h.read _ trivial) fun now ↦ ?_
  refine SafeFrom.bind h.stable (h.read _ trivial) fun expired ↦ ?_
  dsimp only
  split
  · exact SafeFrom.done _
  · split
    · exact h.credit _ _ _ _ _
    · exact h.creditAtValue _ _ _ _ _
    · exact SafeFrom.done _

/-- The rules of `resolve_deposit` keep what its payments and its routine parts keep. -/
theorem settleUnpaid (h : Settles K G P t) :
    (settleUnpaid t).SafeFrom billing.toMachine K G P := by
  unfold BillingService.settleUnpaid
  refine SafeFrom.bind h.stable (h.read _ trivial) fun invoices ↦ ?_
  refine h.orElse (h.creditExact _) (h.orElse h.creditLate (h.orElse ?_ (h.orElse ?_ ?_)))
  · exact h.routine (plain_creditWallet _).routine
  · exact h.creditOneCustomersInvoice _
  · exact h.routine (plain_leaveUnmatched _).routine

end Settles

end Composite

end BillingService

end GreenCompute
