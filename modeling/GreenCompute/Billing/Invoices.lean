import GreenCompute.Billing.Effects

/-!
# A confirmed invoice is settled

An invoice is confirmed by the watcher, by a staff confirmation, or by a review that is resolved by
crediting a logged deposit. The first two write an entry about the invoice, which is what the
per-invoice idempotency layer looks for. The third does not: `credit_deposit` writes an entry about
the transfer, and `set_review_status` then marks the invoice confirmed. A staff confirmation of
such an invoice is not stopped by that layer, and since it skips its own check of the transaction
for confirmed invoices, it pays the invoice once more (`confirmed_invoice_paid_again`).

The invariant that holds is `Settled`: a confirmed invoice has its entry, or its review is not open.
`confirmed_invoice_settled` derives from it that a confirmed invoice is settled for good in every
sequence of calls that does not confirm a confirmed invoice without an entry, and does not credit
a deposit through a review left open on a confirmed invoice.
-/

namespace GreenCompute

open BillingRepository

/-- The invoice has its top-up entry. -/
def Db.hasTopup (db : Db) (id : InvoiceId) : Prop := db.ledger.any (isInvoiceTopup id) = true

instance (db : Db) (id : InvoiceId) : Decidable (db.hasTopup id) :=
  inferInstanceAs (Decidable (_ = _))

/-- The invoice is confirmed. -/
def Db.isConfirmed (db : Db) (id : InvoiceId) : Prop :=
  (db.invoices.get? id).map CryptoInvoice.status = some .confirmed

instance (db : Db) (id : InvoiceId) : Decidable (db.isConfirmed id) :=
  inferInstanceAs (Decidable (_ = _))

/-- The entries about an invoice. -/
def Db.invoiceRows (db : Db) (id : InvoiceId) : List LedgerEntry :=
  db.ledger.filter fun e ↦ e.referenceId = some (.invoice id)

variable {db db' : Db} {id : InvoiceId}

theorem isConfirmed_of_get? {inv : CryptoInvoice} (h : db.invoices.get? id = some inv) :
    db.isConfirmed id ↔ inv.status = .confirmed := by
  rw [Db.isConfirmed, h, Option.map_some, Option.some.injEq]

theorem hasTopup_mono (hpre : db.ledger <+: db'.ledger) (h : db.hasTopup id) :
    db'.hasTopup id := by
  obtain ⟨e, he, htop⟩ := List.any_eq_true.mp h
  exact List.any_eq_true.mpr ⟨e, hpre.subset he, htop⟩

/-! ## One invoice in one transaction -/

/-- What a transaction must not do: pay a confirmed invoice that has no entry, open a review in
the staff's name, or create an invoice that is not pending. -/
def Orderly (o : BillingOp) (db : Db) : Prop :=
  match o with
  | .confirmAndCreditInvoice id .. => db.isConfirmed id → db.hasTopup id
  | .setReviewStatus _ review .. => review ≠ .opened
  | .createCryptoInvoice _ inv => inv.status = .pending
  | _ => True

theorem orderly_of_routine {o : BillingOp} (h : Routine o) (db : Db) : Orderly o db := by
  cases o with
  | confirmAndCreditInvoice => exact h.elim
  | createCryptoInvoice | setReviewStatus => exact h
  | _ => trivial

/-- What becomes of an invoice's row, where `topup` says whether the invoice now has its entry. -/
inductive InvoiceEffect (topup : Prop) : Option CryptoInvoice → Option CryptoInvoice → Prop
  | same (row : Option CryptoInvoice) : InvoiceEffect topup row row
  | created (inv : CryptoInvoice) (pending : inv.status = .pending) :
      InvoiceEffect topup none (some inv)
  | paid (inv inv' : CryptoInvoice) (confirmed : inv'.status = .confirmed) (entry : topup) :
      InvoiceEffect topup (some inv) (some inv')
  | reviewed (inv inv' : CryptoInvoice) (closed : inv'.reviewStatus ≠ some .opened)
      (kept : inv.status = .confirmed → inv'.status = .confirmed) :
      InvoiceEffect topup (some inv) (some inv')
  | unpaid (inv inv' : CryptoInvoice) (was : inv.status ≠ .confirmed)
      (still : inv'.status ≠ .confirmed) : InvoiceEffect topup (some inv) (some inv')

/-- Rewriting one row leaves the others as they are. -/
theorem InvoiceEffect.of_insert {topup : Prop} {k : InvoiceId} {inv inv' : CryptoInvoice}
    (h : db.invoices.get? k = some inv)
    (heffect : InvoiceEffect topup (some inv) (some inv')) :
    InvoiceEffect topup (db.invoices.get? id) ((db.invoices.insert k inv').get? id) := by
  rw [Table.get?_insert]
  split
  · next hid => rwa [hid, h]
  · exact .same _

theorem InvoiceEffect.of_modify {topup : Prop} {k : InvoiceId}
    {f : CryptoInvoice → CryptoInvoice}
    (heffect : id = k → ∀ inv, db.invoices.get? id = some inv →
      InvoiceEffect topup (some inv) (some (f inv))) :
    InvoiceEffect topup (db.invoices.get? id) ((db.invoices.modify k f).get? id) := by
  rw [Table.get?_modify]
  split
  · next hid =>
    cases h : db.invoices.get? id with
    | none => exact .same _
    | some inv => exact heffect hid inv h
  · exact .same _

/-- A confirmation leaves its invoice with its entry, or leaves the row as it is. -/
theorem confirm_invoice (k : InvoiceId) (tx : Text) (ref : Option DepositRef) (expired : Bool)
    (cents : Option ℤ) :
    InvoiceEffect ((confirmAndCreditInvoice 0 k tx ref expired cents db).1.hasTopup id)
      (db.invoices.get? id)
      ((confirmAndCreditInvoice 0 k tx ref expired cents db).1.invoices.get? id) := by
  have hspec := confirmAndCreditInvoice_spec 0 k tx ref expired cents db
  generalize confirmAndCreditInvoice 0 k tx ref expired cents db = out at hspec ⊢
  cases hspec with
  | alreadyConfirmed inv h paid =>
    rw [Db.seenLedger_zero] at paid
    refine .of_modify fun hid inv _ ↦ .paid _ _ ?_ (hid ▸ paid)
    unfold confirmKeepingHash
    split
    · assumption
    · rfl
  | credited inv user h _ _ _ _ =>
    refine .of_modify fun hid inv _ ↦ .paid _ _ rfl ?_
    exact List.any_eq_true.mpr
      ⟨_, List.mem_append_right _ (List.mem_singleton_self _), by simp [isInvoiceTopup, hid]⟩
  | _ => exact .same _

@[simp] theorem closeReview_reviewStatus (review : ReviewStatus) (paidTx reason note : Option Text)
    (inv : CryptoInvoice) :
    (closeReview review paidTx reason note inv).reviewStatus = some review := by
  cases paidTx with
  | none => rfl
  | some tx =>
    unfold closeReview
    dsimp only
    split <;> rfl

theorem closeReview_confirmed {review : ReviewStatus} {paidTx reason note : Option Text}
    {inv : CryptoInvoice} (h : inv.status = .confirmed) :
    (closeReview review paidTx reason note inv).status = .confirmed := by
  cases paidTx with
  | none => exact h
  | some tx =>
    unfold closeReview
    dsimp only
    rw [if_pos h]
    exact h

/-- How a transaction changes the row of one invoice. -/
theorem exec_invoice {o : BillingOp} (ho : Orderly o db) (id : InvoiceId) :
    InvoiceEffect ((o.exec db).1.hasTopup id) (db.invoices.get? id)
      ((o.exec db).1.invoices.get? id) := by
  cases o with
  | createCryptoInvoice k inv =>
    simp only [BillingOp.exec, createCryptoInvoice]
    split
    · exact .same _
    · next hnew =>
      have hnone : db.invoices.get? k = none :=
        Option.not_isSome_iff_eq_none.mp fun h ↦ hnew (.inl h)
      simp only [Table.get?_insert]
      split
      · next hid =>
        rw [hid, hnone]
        exact .created inv ho
      · exact .same _
  | confirmAndCreditInvoice k tx ref expired cents => exact confirm_invoice k tx ref expired cents
  | expireStalePendingInvoices g =>
    simp only [BillingOp.exec, expireStalePendingInvoices, Table.get?_map]
    cases h : db.invoices.get? id with
    | none => exact .same _
    | some inv =>
      rw [Option.map_some]
      split
      · next hstale =>
        simp only [Bool.decide_and, Bool.and_eq_true, decide_eq_true_eq] at hstale
        refine .unpaid _ _ ?_ (by rintro ⟨⟩)
        rw [hstale.1]
        rintro ⟨⟩
      · exact .same _
  | rejectCryptoInvoice k reason note =>
    simp only [BillingOp.exec, rejectCryptoInvoice]
    split
    · exact .same _
    · next inv h =>
      split
      · exact .same _
      · next hunpaid =>
        split
        · exact .same _
        · exact .of_insert h (.unpaid _ _ hunpaid (by rintro ⟨⟩))
  | requestInvoiceReview k u tx note =>
    simp only [BillingOp.exec, requestInvoiceReview]
    split
    · exact .same _
    · next inv h =>
      split
      · exact .same _
      · split
        · exact .same _
        · next hstatus =>
          have hunpaid : inv.status ≠ .confirmed := by
            rintro hc
            exact hstatus ⟨by rw [hc]; rintro ⟨⟩, by rw [hc]; rintro ⟨⟩⟩
          exact .of_insert h (.unpaid _ _ hunpaid hunpaid)
  | setReviewStatus k review paidTx reason note =>
    refine .of_modify fun _ inv _ ↦ .reviewed _ _ ?_ closeReview_confirmed
    rw [closeReview_reviewStatus]
    exact fun h ↦ ho (Option.some.inj h)
  | recordDeposit t =>
    simp only [BillingOp.exec, recordDeposit]
    split <;> exact .same _
  | creditDeposit ref u cents how =>
    have hspec := creditDeposit_spec 0 ref u cents how db
    simp only [BillingOp.exec]
    generalize creditDeposit 0 ref u cents how db = out at hspec ⊢
    cases hspec <;> exact .same _
  | ignoreDeposit ref =>
    simp only [BillingOp.exec, ignoreDeposit]
    split
    · exact .same _
    · split <;> exact .same _
  | addVerifiedWallet u c a =>
    simp only [BillingOp.exec, addVerifiedWallet]
    split
    · exact .same _
    · split <;> exact .same _
  | _ => exact .same _

/-- A transaction keeps the entries about a confirmed invoice as they are. -/
theorem exec_invoiceRows {o : BillingOp} (ho : Orderly o db) (h : db.isConfirmed id) :
    (o.exec db).1.invoiceRows id = db.invoiceRows id := by
  unfold Db.invoiceRows
  cases exec_ledger o db with
  | none hsame => rw [hsame]
  | confirmed k tx ref expired cents hconf e happ key kind reference unpaid =>
    -- The transaction paid another invoice: this one already has its entry.
    have hne : k ≠ id := by
      rintro rfl
      subst hconf
      exact Bool.false_ne_true (unpaid.symm.trans (ho h))
    rw [happ, List.filter_append, List.filter_singleton, reference]
    simp [hne]
  | credited ref u cents how _ e happ key kind reference =>
    rw [happ, List.filter_append, List.filter_singleton, reference]
    simp

/-! ## The invariant -/

/-- A confirmed invoice has its entry, or its review is not open. -/
def Settled (db : Db) : Prop :=
  ∀ id inv, db.invoices.get? id = some inv → inv.status = .confirmed →
    inv.reviewStatus = some .opened → db.hasTopup id

/-- Confirmed invoices stay confirmed, and no entry about them is added. -/
def KeepsConfirmed (db db' : Db) : Prop :=
  ∀ id, db.isConfirmed id → db'.isConfirmed id ∧ db'.invoiceRows id = db.invoiceRows id

theorem KeepsConfirmed.refl (db : Db) : KeepsConfirmed db db := fun _ h ↦ ⟨h, rfl⟩

theorem KeepsConfirmed.trans {db₁ db₂ db₃ : Db} (h : KeepsConfirmed db₁ db₂)
    (h' : KeepsConfirmed db₂ db₃) : KeepsConfirmed db₁ db₃ := by
  intro id hid
  obtain ⟨h₂, hrows⟩ := h id hid
  obtain ⟨h₃, hrows'⟩ := h' id h₂
  exact ⟨h₃, hrows'.trans hrows⟩

theorem settled_of_fresh (h : db.Fresh) : Settled db :=
  fun id inv hinv hconf _ ↦ (h.invoices id inv hinv hconf).elim

theorem exec_settled {o : BillingOp} (hi : Settled db) (ho : Orderly o db) :
    Settled (o.exec db).1 := by
  intro id inv' hinv' hconf hopen
  have heffect := exec_invoice ho id
  rw [hinv'] at heffect
  generalize hrow : db.invoices.get? id = row at heffect
  cases heffect with
  | same => exact hasTopup_mono (exec_ledger_grows o db) (hi id inv' hrow hconf hopen)
  | created _ pending => exact nomatch pending.symm.trans hconf
  | paid _ _ _ entry => exact entry
  | reviewed _ _ closed => exact (closed hopen).elim
  | unpaid _ _ _ still => exact (still hconf).elim

theorem exec_keepsConfirmed {o : BillingOp} (ho : Orderly o db) :
    KeepsConfirmed db (o.exec db).1 := by
  intro id hid
  refine ⟨?_, exec_invoiceRows ho hid⟩
  have heffect := exec_invoice ho id
  unfold Db.isConfirmed at hid ⊢
  generalize db.invoices.get? id = row at hid heffect
  generalize (o.exec db).1.invoices.get? id = row' at heffect ⊢
  revert hid
  cases heffect with
  | same => exact fun h ↦ h
  | created => exact nofun
  | paid _ _ confirmed => exact fun _ ↦ congrArg some confirmed
  | reviewed _ _ _ kept => exact fun h ↦ congrArg some (kept (Option.some.inj h))
  | unpaid _ _ was => exact fun h ↦ (was (Option.some.inj h)).elim

/-! ## Whole calls -/

/-- The condition on a call: it does not confirm a confirmed invoice that has no entry, and credits
no deposit through the review of a confirmed invoice. -/
def settleGuard (c : BillingCall) (db : Db) : Prop :=
  match c with
  | .confirmCryptoDeposit id _ => db.isConfirmed id → db.hasTopup id
  | .resolveReview id (.creditDeposit _) => ¬db.isConfirmed id
  | _ => True

instance (c : BillingCall) (db : Db) : Decidable (settleGuard c db) := by
  cases_type* BillingCall BillingService.ReviewAction <;> unfold settleGuard <;> infer_instance

/-- Every transaction of a method run from here is orderly. -/
abbrev Program.Tidy {α : Type} (p : Program Billing α) (db : Db) : Prop :=
  Program.Along billing.toMachine Orderly p db

/-- The transaction only reads. -/
def Reads (o : BillingOp) : Prop := ∀ db, (billing.exec o db).1 = db

namespace BillingService

open Program (Uses)

/-- A rule of `resolve_deposit` is orderly, and when it does not settle the transfer it has changed
nothing. -/
structure Tries (p : Program Billing (Option Resolution)) (db : Db) : Prop where
  tidy : p.Tidy db
  passes : (Program.eval billing.toMachine p db).2 = none →
    (Program.eval billing.toMachine p db).1 = db

theorem tidy_of_routine {α : Type} {p : Program Billing α} (h : p.Uses Routine) : p.Tidy db :=
  .of_uses (h.mono fun _ ho ↦ orderly_of_routine ho) db

theorem reads_depositValueCents (c : Currency) (amount : ℚ) (price : Option ℚ) :
    (depositValueCents c amount price).Uses Reads := by
  refine Uses.bind ?_ fun p ↦ trivial
  unfold unitPrice
  split
  · trivial
  · split
    · trivial
    · exact Program.uses_op.mpr fun _ ↦ rfl

theorem eval_transaction (o : BillingOp) (db : Db) :
    Program.eval billing.toMachine (call o) db = billing.exec o db := rfl

/-- A rule may first value the transfer. -/
theorem Tries.value {c : Currency} {amount : ℚ} {price : Option ℚ}
    {f : ℤ → Program Billing (Option Resolution)} (h : ∀ cents, Tries (f cents) db) :
    Tries (depositValueCents c amount price >>= f) db := by
  have hsame : (Program.eval billing.toMachine (depositValueCents c amount price) db).1 = db :=
    Program.eval_reads (reads_depositValueCents c amount price) db
  constructor
  · refine Program.Along.bind (tidy_of_routine (plain_depositValueCents _ _ _).routine) ?_
    rw [hsame]
    exact (h _).tidy
  · rw [Program.eval_bind, hsame]
    exact (h _).passes

/-- Rules are tried one after the other. -/
theorem Tries.next {rule rest : Program Billing (Option Resolution)} (h₁ : Tries rule db)
    (h₂ : Tries rest db) :
    Tries (rule >>= fun
      | some outcome => .done (some outcome)
      | none => rest) db := by
  have hpasses := h₁.passes
  constructor
  · refine Program.Along.bind h₁.tidy ?_
    generalize Program.eval billing.toMachine rule db = out at hpasses ⊢
    obtain ⟨s, _ | outcome⟩ := out
    · obtain rfl : s = db := hpasses rfl
      exact h₂.tidy
    · trivial
  · rw [Program.eval_bind]
    generalize Program.eval billing.toMachine rule db = out at hpasses ⊢
    obtain ⟨s, _ | outcome⟩ := out
    · obtain rfl : s = db := hpasses rfl
      exact h₂.passes
    · exact nofun

/-- A rule that does not settle the transfer is followed by the next one. -/
theorem tidy_orElse {rule : Program Billing (Option Resolution)}
    {rest : Program Billing Resolution} (h₁ : Tries rule db) (h₂ : rest.Tidy db) :
    (orElse rule rest).Tidy db := by
  refine Program.Along.bind h₁.tidy ?_
  have hpasses := h₁.passes
  generalize Program.eval billing.toMachine rule db = out at hpasses ⊢
  obtain ⟨s, outcome⟩ := out
  cases outcome with
  | some outcome => trivial
  | none =>
    obtain rfl : s = db := hpasses rfl
    exact h₂

/-- Crediting an invoice that is not confirmed is orderly, and a refusal changes nothing. -/
theorem tries_creditInvoice {t : Transfer} {how : MatchedBy} {cents : Option ℤ} {expired : Bool}
    {inv : CryptoInvoice} (h : ¬db.isConfirmed id) :
    Tries (creditInvoice id inv t how cents expired) db := by
  have hspec := confirmAndCreditInvoice_spec 0 id (recordedHash t) (some (.transfer t.depositRef))
    expired cents db
  constructor
  · refine ⟨fun hc ↦ (h hc).elim, ?_⟩
    cases (billing.exec (.confirmAndCreditInvoice id (recordedHash t)
      (some (.transfer t.depositRef)) expired cents) db).2 with
    | notFound | refused | raised => trivial
    | alreadyConfirmed | duplicateDeposit | credited => exact ⟨trivial, trivial⟩
  · unfold creditInvoice
    rw [Program.eval_bind, eval_transaction]
    simp only [billing, BillingOp.exec]
    generalize confirmAndCreditInvoice 0 id (recordedHash t) (some (.transfer t.depositRef))
      expired cents db = out at hspec ⊢
    cases hspec with
    | notFound | refused => exact fun _ ↦ rfl
    | alreadyConfirmed | duplicate | raised | credited => rintro ⟨⟩

/-- The invoices that ask for the exact amount are tried in turn. -/
theorem tries_creditExact {t : Transfer} {l : List (InvoiceId × CryptoInvoice)}
    (h : ∀ r ∈ l, ¬db.isConfirmed r.1) : Tries (creditExact t l) db := by
  induction l with
  | nil => exact ⟨trivial, fun _ ↦ rfl⟩
  | cons r l ih =>
    refine Tries.next (tries_creditInvoice (h r (List.mem_cons_self ..))) ?_
    exact ih fun r hr ↦ h r (List.mem_cons_of_mem _ hr)

theorem not_confirmed_of_mem_invoicesWhere {c : Currency} {address : Text}
    {condition : CryptoInvoice → Bool} (hc : ∀ inv, condition inv = true → inv.status ≠ .confirmed)
    {r : InvoiceId × CryptoInvoice} (h : r ∈ invoicesWhere c address condition db) :
    ¬db.isConfirmed r.1 := by
  have hrow := (List.mem_insertionSort _).mp (List.mem_filter.mp h).1
  obtain ⟨hget, hcond⟩ := Table.mem_select.mp hrow
  rw [isConfirmed_of_get? hget]
  exact hc r.2 (of_decide_eq_true hcond).2

theorem not_confirmed_of_mem_pending {c : Currency} {address : Text}
    {r : InvoiceId × CryptoInvoice} (h : r ∈ pendingInvoices c address db) :
    ¬db.isConfirmed r.1 := by
  refine not_confirmed_of_mem_invoicesWhere (fun inv hinv ↦ ?_) h
  rw [of_decide_eq_true hinv]
  nofun

theorem not_confirmed_of_mem_expired {c : Currency} {address : Text} {since : Time}
    {r : InvoiceId × CryptoInvoice} (h : r ∈ recentlyExpiredInvoices c address since db) :
    ¬db.isConfirmed r.1 := by
  refine not_confirmed_of_mem_invoicesWhere (fun inv hinv ↦ ?_) h
  rw [(of_decide_eq_true hinv).1]
  nofun

/-- A rule may first read something that the store answers. -/
theorem Tries.read {o : BillingOp} {f : o.Ans → Program Billing (Option Resolution)}
    (ho : Routine o) (hreads : Reads o) (h : Tries (f (billing.exec o db).2) db) :
    Tries (call o >>= f) db := by
  constructor
  · refine ⟨orderly_of_routine ho db, ?_⟩
    rw [hreads db]
    exact h.tidy
  · rw [Program.eval_bind, eval_transaction, hreads db]
    exact h.passes

theorem tries_pass : Tries (pure none) db := ⟨trivial, fun _ ↦ rfl⟩

theorem tries_creditLate (t : Transfer) : Tries (creditLate t) db := by
  unfold creditLate
  refine Tries.read trivial (fun _ ↦ rfl) (Tries.read trivial (fun _ ↦ rfl) ?_)
  dsimp only
  generalize hfit : List.filter _ _ = fit
  split
  · next id inv =>
    have hmem : (id, inv) ∈ [(id, inv)] := List.mem_singleton_self _
    rw [← hfit] at hmem
    refine Tries.value fun cents ↦ tries_creditInvoice ?_
    exact not_confirmed_of_mem_expired (List.mem_filter.mp hmem).1
  · exact tries_pass

theorem tries_creditWallet (t : Transfer) : Tries (creditWallet t) db := by
  unfold creditWallet
  split
  · exact tries_pass
  · refine Tries.read trivial (fun _ ↦ rfl) ?_
    generalize (billing.exec (.walletOwner _ _) db).2 = owner
    cases owner with
    | none => exact tries_pass
    | some owner =>
      refine Tries.value fun cents ↦ ?_
      split
      · -- Whatever crediting the deposit answers, the transfer is settled.
        constructor
        · refine ⟨trivial, ?_⟩
          cases (billing.exec (.creditDeposit t.depositRef owner cents .wallet) db).2 <;> trivial
        · rw [Program.eval_bind, eval_transaction]
          cases (billing.exec (.creditDeposit t.depositRef owner cents .wallet) db).2 <;>
            exact nofun
      · exact tries_pass

theorem tries_creditOneCustomersInvoice {t : Transfer} {l : List (InvoiceId × CryptoInvoice)}
    (h : ∀ r ∈ l, ¬db.isConfirmed r.1) : Tries (creditOneCustomersInvoice t l) db := by
  unfold creditOneCustomersInvoice
  refine Tries.read trivial (fun _ ↦ rfl) (Tries.read trivial (fun _ ↦ rfl) ?_)
  dsimp only
  split
  · exact tries_pass
  · split
    · next id inv rest hopen =>
      have hmem : (id, inv) ∈ (id, inv) :: rest := List.mem_cons_self ..
      rw [← hopen] at hmem
      exact tries_creditInvoice (h _ (List.mem_filter.mp hmem).1)
    · next id inv _ hlast =>
      have hmem := List.mem_of_mem_getLast? hlast
      refine Tries.value fun cents ↦ tries_creditInvoice ?_
      exact not_confirmed_of_mem_expired (List.mem_filter.mp hmem).1
    · exact tries_pass

/-- One transaction, then the rest. -/
theorem along_call {α : Type} {φ : BillingOp → Db → Prop} {o : BillingOp}
    {f : o.Ans → Program Billing α} (ho : φ o db)
    (h : Program.Along billing.toMachine φ (f (billing.exec o db).2) (billing.exec o db).1) :
    Program.Along billing.toMachine φ (call o >>= f) db :=
  ⟨ho, h⟩

/-- The rules of `resolve_deposit` are orderly in every store. -/
theorem tidy_settleUnpaid (t : Transfer) : (settleUnpaid t).Tidy db := by
  have hopen : ∀ r ∈ pendingInvoices t.info.currency t.info.depositAddress db,
      ¬db.isConfirmed r.1 := fun r hr ↦ not_confirmed_of_mem_pending hr
  have hexact := tries_creditExact (t := t)
    (l := (pendingInvoices t.info.currency t.info.depositAddress db).filter fun r ↦
      exactAmount r.2 t.info)
    fun r hr ↦ hopen r (List.mem_filter.mp hr).1
  refine along_call trivial (tidy_orElse hexact (tidy_orElse (tries_creditLate t) ?_))
  refine tidy_orElse (tries_creditWallet t) (tidy_orElse ?_ ?_)
  · exact tries_creditOneCustomersInvoice hopen
  · exact tidy_of_routine (plain_leaveUnmatched t).routine

theorem tidy_resolveDeposit (t : Transfer) : (resolveDeposit t).Tidy db := by
  refine along_call trivial ?_
  split
  · trivial
  · refine along_call trivial ?_
    generalize billing.exec (.earlierCredit _ _) _ = out
    obtain ⟨s, _ | earlier⟩ := out
    · exact tidy_settleUnpaid t
    · exact ⟨trivial, trivial⟩

/-! ### The staff's methods

What these two methods do besides paying an invoice is clerical, so what holds along them depends
on the payment alone. -/

/-- The transaction pays nobody and creates no invoice, and opens no review in the staff's name. -/
def Clerical : BillingOp → Prop
  | .confirmAndCreditInvoice .. | .creditDeposit .. | .createCryptoInvoice .. => False
  | .setReviewStatus _ review .. => review ≠ .opened
  | _ => True

section Staff

variable {φ : BillingOp → Db → Prop} (hother : ∀ o s, Clerical o → φ o s)

include hother

theorem along_reviewConfirmInvoice {review : CryptoInvoice}
    (hpay : ∀ tx ref expired cents, φ (.confirmAndCreditInvoice id tx ref expired cents) db) :
    Program.Along billing.toMachine φ (reviewConfirmInvoice id review) db := by
  refine along_call (hother _ _ trivial) ?_
  cases (billing.exec (.txCreditOwner _) db).2 with
  | some owner => trivial
  | none =>
    refine along_call (hpay _ _ _ _) ?_
    generalize billing.exec (.confirmAndCreditInvoice ..) _ = out
    obtain ⟨s, r⟩ := out
    cases r with
    | credited =>
      dsimp only
      split
      · exact ⟨hother _ _ trivial, hother _ _ nofun, trivial⟩
      · exact ⟨hother _ _ nofun, trivial⟩
    | _ => trivial

/-- A review that is open is of an invoice that is not confirmed, or has its entry. -/
theorem along_resolveReview {action : ReviewAction} (hi : Settled db)
    (hpay : (db.isConfirmed id → db.hasTopup id) → ∀ tx ref expired cents,
      φ (.confirmAndCreditInvoice id tx ref expired cents) db)
    (hcredit : ∀ ref review, action = .creditDeposit (some ref) →
      Program.Along billing.toMachine φ (reviewCreditDeposit id review ref) db) :
    Program.Along billing.toMachine φ (resolveReview id action) db := by
  refine along_call (hother _ _ trivial) ?_
  have hread : (billing.exec (.getInvoiceReview id) db).2 = db.invoices.get? id := rfl
  rw [hread]
  cases hreview : db.invoices.get? id with
  | none => trivial
  | some review =>
    dsimp only
    split
    · trivial
    · next hopen =>
      split
      · split
        · trivial
        · exact ⟨hother _ _ nofun, trivial⟩
      · trivial
      · exact hcredit _ _ rfl
      · refine along_reviewConfirmInvoice hother (hpay fun hconf ↦ ?_)
        exact hi id review hreview ((isConfirmed_of_get? hreview).mp hconf) (not_not.mp hopen)

theorem along_confirmCryptoDeposit {tx : Text}
    (hpay : ∀ tx ref expired cents, φ (.confirmAndCreditInvoice id tx ref expired cents) db) :
    Program.Along billing.toMachine φ (confirmCryptoDeposit id tx) db := by
  refine along_call (hother _ _ trivial) ?_
  cases (billing.exec (.getCryptoInvoice id) db).2 with
  | none => trivial
  | some invoice =>
    refine along_call (hother _ _ trivial) ?_
    split
    · trivial
    · refine along_call (hpay _ _ _ _) ?_
      generalize billing.exec (.confirmAndCreditInvoice ..) _ = out
      obtain ⟨s, r⟩ := out
      cases r with
      | credited =>
        dsimp only
        split
        · exact ⟨hother _ _ trivial, trivial⟩
        · trivial
      | _ => trivial

end Staff

theorem orderly_of_clerical (o : BillingOp) (s : Db) (h : Clerical o) : Orderly o s := by
  cases o with
  | confirmAndCreditInvoice | createCryptoInvoice => exact h.elim
  | setReviewStatus => exact h
  | _ => trivial

end BillingService

open BillingService in
/-- Every call is orderly that meets the condition. -/
theorem tidy_body {c : BillingCall} (hi : Settled db) (hc : settleGuard c db) :
    c.body.Tidy db := by
  have hdiscard : ∀ {α : Type} {p : Program Billing α}, p.Tidy db → p.discard.Tidy db :=
    fun h ↦ h.bind trivial
  cases c with
  | createCryptoInvoice =>
    exact hdiscard (tidy_of_routine (routine_createCryptoInvoice _ _ _ _))
  | resolveDeposit => exact hdiscard (tidy_resolveDeposit _)
  | resolveReview =>
    refine hdiscard (along_resolveReview orderly_of_clerical hi (fun h _ _ _ _ ↦ h) ?_)
    exact fun ref review _ ↦ tidy_of_routine (plain_reviewCreditDeposit _ _ _).routine
  | confirmCryptoDeposit =>
    exact hdiscard (along_confirmCryptoDeposit orderly_of_clerical fun _ _ _ _ ↦ hc)
  | assignDeposit =>
    exact hdiscard (tidy_of_routine (.bind (plain_assignDepositTo _ _).routine fun _ ↦ trivial))
  | claimWalletDeposits => exact hdiscard (tidy_of_routine (plain_claimWalletDeposits _ _ _).routine)
  | linkWallet => exact hdiscard (tidy_of_routine (plain_linkWallet _ _ _ _ _).routine)
  | rejectInvoice => exact hdiscard (tidy_of_routine (plain_rejectInvoice _ _ _).routine)
  | requestInvoiceReview | expireStalePendingInvoices | ignoreDeposit | advance | setPrice =>
    exact ⟨trivial, trivial⟩

/-- A call that meets the condition keeps the invariant and every confirmed invoice. -/
theorem after_settled {c : BillingCall} (hi : Settled db) (hc : settleGuard c db) :
    Settled (billing.after c db) ∧ KeepsConfirmed db (billing.after c db) :=
  (tidy_body hi hc).rel KeepsConfirmed.refl KeepsConfirmed.trans
    (fun _ _ hi ho ↦ ⟨exec_settled hi ho, exec_keepsConfirmed ho⟩) hi

/-- So does every sequence of such calls. -/
theorem calls_settled (hi : Settled db) (h : billing.Calls settleGuard db db') :
    Settled db' ∧ KeepsConfirmed db db' := by
  induction h with
  | refl => exact ⟨hi, .refl _⟩
  | tail _ hstep ih =>
    obtain ⟨c, hc, rfl⟩ := hstep
    obtain ⟨hi', hkeeps⟩ := after_settled ih.1 hc
    exact ⟨hi', ih.2.trans hkeeps⟩

/-! ## Operations on a confirmed invoice -/

/-- The invoice a call is about. -/
def BillingCall.onInvoice : BillingCall → Option InvoiceId
  | requestInvoiceReview id .. | resolveReview id _ | confirmCryptoDeposit id _
  | rejectInvoice id .. => some id
  | _ => none

/-- The transaction pays nobody: it credits no deposit, and an invoice only if it has its entry. -/
def Unpaying (o : BillingOp) (db : Db) : Prop :=
  match o with
  | .confirmAndCreditInvoice id .. => db.hasTopup id
  | .creditDeposit .. => False
  | _ => True

/-- Confirming an invoice that has its entry pays nobody. -/
theorem confirm_of_hasTopup (h : db.hasTopup id) (tx : Text) (ref : Option DepositRef)
    (expired : Bool) (cents : Option ℤ) :
    (confirmAndCreditInvoice 0 id tx ref expired cents db).1.users = db.users ∧
      ∀ total balance, (confirmAndCreditInvoice 0 id tx ref expired cents db).2
        ≠ .credited total balance := by
  have hspec := confirmAndCreditInvoice_spec 0 id tx ref expired cents db
  generalize confirmAndCreditInvoice 0 id tx ref expired cents db = out at hspec ⊢
  cases hspec with
  | credited inv user _ _ unpaid =>
    rw [Db.seenLedger_zero] at unpaid
    exact (Bool.false_ne_true (unpaid.symm.trans h)).elim
  | _ => exact ⟨rfl, nofun⟩

theorem exec_unpaying {o : BillingOp} (ho : Unpaying o db) : (o.exec db).1.users = db.users := by
  cases o with
  | confirmAndCreditInvoice => exact (confirm_of_hasTopup ho _ _ _ _).1
  | creditDeposit => exact ho.elim
  | createCryptoInvoice id inv =>
    simp only [BillingOp.exec, createCryptoInvoice]
    split <;> rfl
  | rejectCryptoInvoice id reason note =>
    simp only [BillingOp.exec, rejectCryptoInvoice]
    split
    · rfl
    · split_ifs <;> rfl
  | requestInvoiceReview id u tx note =>
    simp only [BillingOp.exec, requestInvoiceReview]
    split
    · rfl
    · split_ifs <;> rfl
  | recordDeposit t =>
    simp only [BillingOp.exec, recordDeposit]
    split <;> rfl
  | ignoreDeposit ref =>
    simp only [BillingOp.exec, ignoreDeposit]
    split
    · rfl
    · split_ifs <;> rfl
  | addVerifiedWallet u c a =>
    simp only [BillingOp.exec, addVerifiedWallet]
    split
    · rfl
    · split_ifs <;> rfl
  | _ => rfl

theorem unpaying_of_clerical (o : BillingOp) (s : Db) (h : BillingService.Clerical o) :
    Unpaying o s := by
  cases o with
  | confirmAndCreditInvoice | creditDeposit => exact h.elim
  | _ => trivial

open BillingService in
/-- A call on a confirmed invoice pays nobody. -/
theorem unpaying_body {c : BillingCall} (hi : Settled db) (hconf : db.isConfirmed id)
    (hc : settleGuard c db) (hon : c.onInvoice = some id) :
    Program.Along billing.toMachine Unpaying c.body db := by
  have hdiscard : ∀ {α : Type} {p : Program Billing α},
      Program.Along billing.toMachine Unpaying p db →
      Program.Along billing.toMachine Unpaying p.discard db :=
    fun h ↦ h.bind trivial
  cases c with
  | requestInvoiceReview => exact ⟨trivial, trivial⟩
  | resolveReview id' action =>
    obtain rfl : id' = id := Option.some.inj hon
    refine hdiscard (along_resolveReview unpaying_of_clerical hi (fun h _ _ _ _ ↦ h hconf) ?_)
    rintro ref review rfl
    exact (hc hconf).elim
  | confirmCryptoDeposit id' tx =>
    obtain rfl : id' = id := Option.some.inj hon
    exact hdiscard (along_confirmCryptoDeposit unpaying_of_clerical fun _ _ _ _ ↦ hc hconf)
  | rejectInvoice id' reason note =>
    refine hdiscard ?_
    unfold BillingService.rejectInvoice
    split
    · trivial
    · refine along_call trivial ?_
      cases (billing.exec (.getInvoiceReview id') db).2 with
      | none => trivial
      | some before =>
        dsimp only
        split
        · trivial
        · exact ⟨trivial, trivial⟩
  | _ => exact nomatch hon

theorem after_balance {c : BillingCall} (hi : Settled db) (hconf : db.isConfirmed id)
    (hc : settleGuard c db) (hon : c.onInvoice = some id) (u : UserId) :
    (billing.after c db).balance u = db.balance u := by
  have husers : (billing.after c db).users = db.users :=
    (unpaying_body hi hconf hc hon).keeps Db.users fun _ _ ho ↦ exec_unpaying ho
  rw [Db.balance, Db.balance, husers]

/-- Confirming an invoice that has its entry is never answered with a credit. -/
theorem confirmCryptoDeposit_not_credited (h : db.hasTopup id) (tx : Text) (total balance : ℤ) :
    (Program.eval billing.toMachine (BillingService.confirmCryptoDeposit id tx) db).2
      ≠ .result (.credited total balance) := by
  unfold BillingService.confirmCryptoDeposit
  rw [Program.eval_bind, BillingService.eval_transaction]
  cases (billing.exec (.getCryptoInvoice id) db).2 with
  | none => exact nofun
  | some invoice =>
    dsimp only
    rw [Program.eval_bind, BillingService.eval_transaction]
    split
    · exact nofun
    · rw [Program.eval_bind, BillingService.eval_transaction]
      have hunpaid := (confirm_of_hasTopup h tx (BillingService.manualRef invoice.currency tx)
        false none).2
      generalize hout : billing.exec (.confirmAndCreditInvoice ..) _ = out
      obtain ⟨s, r⟩ := out
      cases r with
      | credited => exact (hunpaid _ _ (congrArg Prod.snd hout)).elim
      | _ => exact nofun

/-- **A confirmed invoice is settled for good.** In every sequence of calls that meets the
condition, a confirmed invoice stays confirmed and gets no further entry, no call on it changes a
balance, and confirming it again is never answered with a credit. -/
theorem confirmed_invoice_settled {db₀ db₁ db₂ : Db} {id : InvoiceId} (fresh : db₀.Fresh)
    (h₁ : billing.Calls settleGuard db₀ db₁) (confirmed : db₁.isConfirmed id)
    (h₂ : billing.Calls settleGuard db₁ db₂) :
    db₂.isConfirmed id ∧ db₂.invoiceRows id = db₁.invoiceRows id ∧
      (∀ c, settleGuard c db₂ → c.onInvoice = some id →
        ∀ u, (billing.after c db₂).balance u = db₂.balance u) ∧
      ∀ tx, settleGuard (.confirmCryptoDeposit id tx) db₂ → ∀ total balance,
        (Program.eval billing.toMachine (BillingService.confirmCryptoDeposit id tx) db₂).2
          ≠ .result (.credited total balance) := by
  obtain ⟨hi₁, -⟩ := calls_settled (settled_of_fresh fresh) h₁
  obtain ⟨hi₂, hkeeps⟩ := calls_settled hi₁ h₂
  obtain ⟨hconf, hrows⟩ := hkeeps id confirmed
  refine ⟨hconf, hrows, fun c hc hon ↦ after_balance hi₂ hconf hc hon, fun tx hc ↦ ?_⟩
  exact confirmCryptoDeposit_not_credited (hc hconf) tx

/-- The watcher has confirmed the first invoice with an exact transfer. -/
def paidExactly : Db :=
  billing.after (.resolveDeposit (exactTransfer "0xab".toList trimmed_0xab)) twoInvoices.store

/-- A staff confirmation of that invoice with another transaction. -/
def confirmAgain : BillingCall := .confirmCryptoDeposit 1 "0xef".toList

/-- Made twice, it pays nothing. -/
theorem confirmed_invoice_settled_exact :
    paidExactly.balance 1 = 2000 ∧
      (billing.after confirmAgain paidExactly).invoiceRows 1 = paidExactly.invoiceRows 1 ∧
      (billing.after confirmAgain (billing.after confirmAgain paidExactly)).balance 1
        = (billing.after confirmAgain paidExactly).balance 1 := by
  have h := confirmed_invoice_settled twoInvoices_fresh
    (.single ⟨.resolveDeposit (exactTransfer "0xab".toList), trivial, rfl⟩)
    (by decide +kernel : paidExactly.isConfirmed 1)
    (.single ⟨confirmAgain, by decide +kernel, rfl⟩)
  exact ⟨by decide +kernel, h.2.1, h.2.2.1 confirmAgain (by decide +kernel) rfl 1⟩

/-! ## The run that pays a confirmed invoice again -/

/-- A transfer of 5 USDT, a quarter of what the first invoice asks for. -/
def shortTransfer : Transfer :=
  { exactTransfer "0xab".toList with
    info := { (exactTransfer "0xab".toList).info with amountRaw := 5000000 } }

/-- The customer pays a quarter of the invoice and asks for a review; staff credit the logged
deposit, which confirms the invoice. -/
def reviewedShort : List BillingCall :=
  [.resolveDeposit shortTransfer, .requestInvoiceReview 1 1 "0xab".toList none,
    .resolveReview 1 (.creditDeposit (some shortTransfer.depositRef))]

/-- After a review was resolved by crediting a deposit, a staff confirmation of the invoice credits
the full amount on top, with the very transaction that has been credited. -/
theorem confirmed_invoice_paid_again :
    twoInvoices.store.Fresh ∧
      ∃ db, billing.Calls (fun _ _ ↦ True) twoInvoices.store db ∧
        db.isConfirmed 1 ∧ db.balance 1 = 500 ∧
        (Program.eval billing.toMachine
          (BillingService.confirmCryptoDeposit 1 "0xab".toList) db).2
            = .result (.credited 2000 2500) ∧
        (billing.after (.confirmCryptoDeposit 1 "0xab".toList) db).balance 1 = 2500 ∧
        (billing.after (.confirmCryptoDeposit 1 "0xab".toList) db).invoiceRows 1
          ≠ db.invoiceRows 1 := by
  refine ⟨twoInvoices_fresh, ?_⟩
  exact Service.exists_calls_of_makeCalls reviewedShort (by decide +kernel)

end GreenCompute
