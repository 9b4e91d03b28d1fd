import GreenCompute.Billing.Revenue
import GreenCompute.Foundations.Totals

/-!
# Revenue is what the ledger credits

Usage is read off the ledger itself. A card payment is one row of each table, with the same amount:
the report and the ledger agree on it, unless a window begins between the two times that the payment
is recorded at. Crypto credits are read off invoices, and there the two come apart: a payment may
credit another amount than its invoice's, a deposit may be credited without an invoice, and a review
that is resolved by such a deposit still marks its invoice confirmed.

For each window, the report agrees with the ledger all along a run exactly if each transaction of
the run changes both alike, and `Balances` says for each transaction when it does.
-/

namespace GreenCompute

open BillingRepository

/-! ## Agreement -/

/-- The report agrees with the ledger about the window. -/
structure GrossRevenue.Agrees (r : GrossRevenue) (since : Time) (s : Cashbook) : Prop where
  crypto : r.cryptoCreditsGrantedCents = s.ledgerCents since LedgerEntry.fromCrypto
  stripe : r.stripeReceivedCents = s.ledgerCents since LedgerEntry.fromStripe
  usage : r.usageDebitedCents =
    -s.ledgerCents since fun e ↦ e.isDebit && decide (e.amountCents < 0)

namespace BillingRepository

/-- What a confirmation has credited, if anything. -/
def ConfirmResult.credits : ConfirmResult → Option ℤ
  | .credited totalCredits _ => some totalCredits
  | _ => none

def CreditResult.credits : CreditResult → Option ℤ
  | .credited amountCents _ => some amountCents
  | _ => none

def StripeResult.credits : StripeResult → Option ℤ
  | .credited amountCents _ => some amountCents
  | _ => none

end BillingRepository

/-- When a transaction changes the report and the ledger alike, for a window that begins at `since`:

* what a confirmation credits in the window is the total of its invoice, or nothing if that has been
  confirmed in the window before;
* a deposit is credited without an invoice only before the window;
* a review marks an invoice confirmed only before the window, or one whose total is nothing;
* a payment that credits anything is recorded at two times on the same side of `since`. -/
def RevenueOp.Balances (since : Time) : RevenueOp → Cashbook → Prop
  | billing (.confirmAndCreditInvoice id tx ref expired cents) lag, s =>
    ∀ credited ∈ (confirmAndCreditInvoice 0 id tx ref expired cents s.db).2.credits,
      ∀ inv ∈ s.db.invoices.get? id,
        (since ≤ s.db.now →
          credited = if s.confirmedSince since id inv then 0 else inv.totalCredits) ∧
        (s.db.now < since → since ≤ s.db.now + max 0 lag → credited = 0)
  | billing (.creditDeposit ref u cents how) lag, s =>
    ∀ credited ∈ (creditDeposit 0 ref u cents how s.db).2.credits,
      since ≤ s.db.now + max 0 lag → credited = 0
  | billing (.setReviewStatus id _ (some _) _ _) _, s =>
    ∀ inv ∈ s.db.invoices.get? id, inv.status ≠ .confirmed → since ≤ s.db.now →
      inv.totalCredits = 0
  | completeStripeSession sid lag, s =>
    ∀ credited ∈ (completeAndCreditStripeSession sid s.db).2.credits,
      s.db.now < since → since ≤ s.db.now + max 0 lag → credited = 0
  | _, _ => True

instance (since : Time) (o : RevenueOp) (s : Cashbook) : Decidable (o.Balances since s) := by
  unfold RevenueOp.Balances
  split <;> infer_instance

/-! ## What holds of the books -/

namespace Cashbook

/-- Every entry of the ledger has a time, and only known rows have one, which has passed; an invoice
that a topup pays is confirmed. -/
structure Sound (s : Cashbook) : Prop where
  createdAt : s.createdAt.length = s.db.ledger.length
  paid : ∀ e ∈ s.db.ledger, ∀ id, isInvoiceTopup id e = true →
    ∃ inv, s.db.invoices.get? id = some inv ∧ inv.status = .confirmed
  confirmedAt : ∀ id t, s.confirmedAt.get? id = some t →
    (s.db.invoices.get? id).isSome = true ∧ t ≤ s.db.now
  completedAt : ∀ sid t, s.completedAt.get? sid = some t →
    (s.db.stripeSessions.get? sid).isSome = true

/-- Whether an invoice is confirmed, and its total. -/
def standing (db : Db) (id : InvoiceId) : Option (Bool × ℤ) :=
  (db.invoices.get? id).map fun inv ↦ (decide (inv.status = .confirmed), inv.totalCredits)

/-- What the report counts of an invoice. -/
def grantedCents (since : Time) (s : Cashbook) (id : InvoiceId) : ℤ :=
  match standing s.db id with
  | some (true, cents) =>
    if (s.confirmedAt.get? id).any fun t ↦ decide (since ≤ t) then cents else 0
  | _ => 0

/-- What the report counts of an invoice, given its row. -/
def granted (since : Time) (s : Cashbook) (id : InvoiceId) (inv : CryptoInvoice) : ℤ :=
  if s.confirmedSince since id inv then inv.totalCredits else 0

/-- What the report counts of a session. -/
def receivedCents (since : Time) (s : Cashbook) (sid : Text) : ℤ :=
  s.db.stripeSessions.valueAt
    (fun sid ss ↦ if s.completedSince since sid ss then ss.amountCents else 0) sid

/-- What the report grants in crypto credits beyond what the ledger has. -/
def cryptoGap (since : Time) (s : Cashbook) : ℤ :=
  (s.grossRevenueSince since 0).cryptoCreditsGrantedCents -
    s.ledgerCents since LedgerEntry.fromCrypto

/-- What the report receives by card beyond what the ledger has. -/
def stripeGap (since : Time) (s : Cashbook) : ℤ :=
  (s.grossRevenueSince since 0).stripeReceivedCents - s.ledgerCents since LedgerEntry.fromStripe

variable {since : Time} {s s' : Cashbook}

theorem valueAt_granted (id : InvoiceId) :
    s.db.invoices.valueAt (s.granted since) id = s.grantedCents since id := by
  rw [grantedCents, standing, Table.valueAt]
  cases s.db.invoices.get? id with
  | none => rfl
  | some inv =>
    by_cases hconfirmed : inv.status = .confirmed
    · simp [granted, confirmedSince, hconfirmed]
    · simp [granted, confirmedSince, hconfirmed]

/-- What the books count of an invoice beyond what they counted before, if it is any. -/
def grantedMore (since : Time) (s s' : Cashbook) (c : Option InvoiceId) : ℤ :=
  c.elim 0 fun id ↦ s'.grantedCents since id - s.grantedCents since id

/-- The same for a session. -/
def receivedMore (since : Time) (s s' : Cashbook) (d : Option Text) : ℤ :=
  d.elim 0 fun sid ↦ s'.receivedCents since sid - s.receivedCents since sid

/-- Where the two books count one invoice differently at most, the totals differ by that. -/
theorem credits_change {c : Option InvoiceId}
    (h : ∀ id, some id ≠ c → s'.grantedCents since id = s.grantedCents since id) :
    (s'.grossRevenueSince since 0).cryptoCreditsGrantedCents =
      (s.grossRevenueSince since 0).cryptoCreditsGrantedCents + grantedMore since s s' c := by
  cases c with
  | none =>
    rw [grantedMore, Option.elim_none, add_zero]
    refine Table.total_congr_values (f := s.granted since) (g := s'.granted since) fun id ↦ ?_
    rw [valueAt_granted, valueAt_granted, h id (fun h ↦ nomatch h)]
  | some id₀ =>
    rw [grantedMore, Option.elim_some, ← valueAt_granted id₀, ← valueAt_granted id₀]
    refine Table.total_change (f := s.granted since) (g := s'.granted since) id₀ fun id hid ↦ ?_
    rw [valueAt_granted, valueAt_granted, h id fun h ↦ hid (Option.some.inj h)]

theorem received_change {d : Option Text}
    (h : ∀ sid, some sid ≠ d → s'.receivedCents since sid = s.receivedCents since sid) :
    (s'.grossRevenueSince since 0).stripeReceivedCents =
      (s.grossRevenueSince since 0).stripeReceivedCents + receivedMore since s s' d := by
  cases d with
  | none =>
    rw [receivedMore, Option.elim_none, add_zero]
    exact Table.total_congr_values (M := ℤ) fun sid ↦ h sid (fun h ↦ nomatch h)
  | some sid₀ =>
    rw [receivedMore, Option.elim_some]
    exact Table.total_change (M := ℤ) sid₀ fun sid hsid ↦ h sid fun h ↦ hsid (Option.some.inj h)

theorem usage_agrees (days : ℤ) : (s.grossRevenueSince since days).usageDebitedCents =
    -s.ledgerCents since fun e ↦ e.isDebit && decide (e.amountCents < 0) := by
  simp only [grossRevenueSince, ledgerCents]
  induction s.entries with
  | nil => rfl
  | cons e entries ih =>
    rw [List.map_cons, List.sum_cons, List.map_cons, List.sum_cons, ih, neg_add]
    congr 1
    by_cases hdebit : e.1.isDebit = true <;> by_cases hneg : e.1.amountCents < 0 <;>
      by_cases hin : since ≤ e.2 <;> simp [hdebit, hneg, hin]

/-- The report agrees with the ledger exactly where there is no gap. -/
theorem agrees_iff (days : ℤ) : (s.grossRevenueSince since days).Agrees since s ↔
    s.cryptoGap since = 0 ∧ s.stripeGap since = 0 := by
  refine ⟨fun h ↦ ⟨sub_eq_zero.mpr h.crypto, sub_eq_zero.mpr h.stripe⟩, fun h ↦ ?_⟩
  exact ⟨sub_eq_zero.mp h.1, sub_eq_zero.mp h.2, usage_agrees days⟩

/-- The ledger with some entries more, all of one time. -/
theorem ledgerCents_append {added : List LedgerEntry} {t : Time}
    (hlength : s.createdAt.length = s.db.ledger.length)
    (hledger : s'.db.ledger = s.db.ledger ++ added)
    (hcreated : s'.createdAt = s.createdAt ++ List.replicate added.length t)
    (counts : LedgerEntry → Bool) :
    s'.ledgerCents since counts = s.ledgerCents since counts +
      if since ≤ t then (added.map fun e ↦ if counts e then e.amountCents else 0).sum else 0 := by
  have hzip : ∀ added : List LedgerEntry,
      added.zip (List.replicate added.length t) = added.map fun e ↦ (e, t) := by
    intro added
    induction added with
    | nil => rfl
    | cons e added ih =>
      rw [List.length_cons, List.replicate_succ, List.zip_cons_cons, ih, List.map_cons]
  have hentries : s'.entries = s.entries ++ added.map fun e ↦ (e, t) := by
    rw [entries, hledger, hcreated, List.zip_append hlength.symm, hzip, entries]
  rw [ledgerCents, hentries, List.map_append, List.sum_append, ledgerCents, List.map_map]
  congr 1
  split
  · next h => simp [Function.comp_def, h]
  · next h => simp [Function.comp_def, h]

/-- Books that have gone from one to the other: some entries more in the ledger, all of one time,
and no invoice and no session counted otherwise than before, but for one of each at most. -/
structure Turns (since : Time) (s s' : Cashbook) (added : List LedgerEntry) (t : Time)
    (c : Option InvoiceId) (d : Option Text) : Prop where
  ledger : s'.db.ledger = s.db.ledger ++ added
  createdAt : s'.createdAt = s.createdAt ++ List.replicate added.length t
  invoices : ∀ id, some id ≠ c → s'.grantedCents since id = s.grantedCents since id
  sessions : ∀ sid, some sid ≠ d → s'.receivedCents since sid = s.receivedCents since sid

/-- What some entries of one kind add to the ledger in the window. -/
def addedCents (since : Time) (added : List LedgerEntry) (t : Time)
    (counts : LedgerEntry → Bool) : ℤ :=
  if since ≤ t then (added.map fun e ↦ if counts e then e.amountCents else 0).sum else 0

variable {added : List LedgerEntry} {t : Time} {c : Option InvoiceId} {d : Option Text}

theorem Turns.cryptoGap (h : Turns since s s' added t c d) (hs : s.Sound) :
    s'.cryptoGap since = s.cryptoGap since + grantedMore since s s' c -
      addedCents since added t LedgerEntry.fromCrypto := by
  rw [Cashbook.cryptoGap, credits_change h.invoices,
    ledgerCents_append hs.createdAt h.ledger h.createdAt, Cashbook.cryptoGap, addedCents]
  abel

theorem Turns.stripeGap (h : Turns since s s' added t c d) (hs : s.Sound) :
    s'.stripeGap since = s.stripeGap since + receivedMore since s s' d -
      addedCents since added t LedgerEntry.fromStripe := by
  rw [Cashbook.stripeGap, received_change h.sessions,
    ledgerCents_append hs.createdAt h.ledger h.createdAt, Cashbook.stripeGap, addedCents]
  abel

@[simp] theorem addedCents_nil (counts : LedgerEntry → Bool) :
    addedCents since [] t counts = 0 := by
  simp [addedCents]

theorem addedCents_one (e : LedgerEntry) (counts : LedgerEntry → Bool) :
    addedCents since [e] t counts = if since ≤ t ∧ counts e = true then e.amountCents else 0 := by
  by_cases ht : since ≤ t <;> simp [addedCents, ht]

/-! ### Rows that are counted as before -/

/-- An invoice that stands as it stood, with the same stamp. An invoice that is created now has no
stamp, and is not counted. -/
theorem grantedCents_congr {id : InvoiceId} (hs : s.Sound)
    (hstamp : s'.confirmedAt.get? id = s.confirmedAt.get? id)
    (h : (s.db.invoices.get? id).isSome = true → standing s'.db id = standing s.db id) :
    s'.grantedCents since id = s.grantedCents since id := by
  by_cases hsome : (s.db.invoices.get? id).isSome = true
  · rw [grantedCents, h hsome, hstamp, grantedCents]
  · have hnone : s.confirmedAt.get? id = none := by
      rw [Option.eq_none_iff_forall_ne_some]
      exact fun t ht ↦ hsome (hs.confirmedAt id t ht).1
    have huncounted : ∀ s : Cashbook, s.confirmedAt.get? id = none →
        s.grantedCents since id = 0 := by
      intro s h
      rw [grantedCents, h]
      split <;> rfl
    rw [huncounted s' (hstamp.trans hnone), huncounted s hnone]

theorem grantedCents_of_get? {id : InvoiceId} {inv : CryptoInvoice}
    (h : s.db.invoices.get? id = some inv) :
    s.grantedCents since id = if s.confirmedSince since id inv then inv.totalCredits else 0 := by
  rw [← valueAt_granted, Table.valueAt_of_get? h, granted]

/-- An invoice that is confirmed now. -/
theorem grantedMore_confirmed {id : InvoiceId} {inv : CryptoInvoice}
    (h : s.db.invoices.get? id = some inv)
    (hstanding : standing s'.db id = some (true, inv.totalCredits))
    (hstamp : s'.confirmedAt.get? id = some s.db.now) :
    grantedMore since s s' (some id) = (if since ≤ s.db.now then inv.totalCredits else 0) -
      if s.confirmedSince since id inv then inv.totalCredits else 0 := by
  rw [grantedMore, Option.elim_some, grantedCents_of_get? h, grantedCents, hstanding, hstamp]
  simp only [Option.any_some, decide_eq_true_eq]

theorem receivedCents_congr {sid : Text}
    (hrow : s'.db.stripeSessions.get? sid = s.db.stripeSessions.get? sid)
    (hstamp : s'.completedAt.get? sid = s.completedAt.get? sid) :
    s'.receivedCents since sid = s.receivedCents since sid := by
  rw [receivedCents, Table.valueAt, hrow, receivedCents, Table.valueAt]
  simp only [completedSince, hstamp]
  rfl

end Cashbook

/-! ## What the transactions do to the rows -/

/-- The rows that a transaction leaves as the report reads them: those of the sessions, and those of
the invoices but for one that it may confirm. -/
structure Lasts (confirmed : Option InvoiceId) (db db' : Db) : Prop where
  sessions : db'.stripeSessions = db.stripeSessions
  now : db.now ≤ db'.now
  standing : ∀ id, some id ≠ confirmed → (db.invoices.get? id).isSome = true →
    Cashbook.standing db' id = Cashbook.standing db id
  confirms : ∀ id inv, confirmed = some id → db.invoices.get? id = some inv →
    Cashbook.standing db' id = some (true, inv.totalCredits)

section Lasts

variable {db db' : Db} {id : InvoiceId}

theorem Lasts.of_invoices (hsessions : db'.stripeSessions = db.stripeSessions)
    (hnow : db.now ≤ db'.now) (hinvoices : db'.invoices = db.invoices) : Lasts none db db' := by
  refine ⟨hsessions, hnow, fun id _ _ ↦ ?_, fun _ _ h ↦ nomatch h⟩
  rw [Cashbook.standing, hinvoices, Cashbook.standing]

theorem Lasts.of_map {f : InvoiceId → CryptoInvoice → CryptoInvoice}
    (hf : ∀ id inv, db.invoices.get? id = some inv → (f id inv).totalCredits = inv.totalCredits ∧
      ((f id inv).status = .confirmed ↔ inv.status = .confirmed)) :
    Lasts none db { db with invoices := db.invoices.map f } := by
  refine ⟨rfl, le_rfl, fun id _ hsome ↦ ?_, fun _ _ h ↦ nomatch h⟩
  obtain ⟨inv, hinv⟩ := Option.isSome_iff_exists.mp hsome
  have hrow := hf id inv hinv
  simp only [Cashbook.standing, Table.get?_map, hinv, Option.map_some, hrow.1, hrow.2]

theorem Lasts.of_insert {inv inv' : CryptoInvoice}
    (hsessions : db'.stripeSessions = db.stripeSessions) (hnow : db.now ≤ db'.now)
    (hinvoices : db'.invoices = db.invoices.insert id inv') (h : db.invoices.get? id = some inv)
    (htotal : inv'.totalCredits = inv.totalCredits)
    (hstatus : inv'.status = .confirmed ↔ inv.status = .confirmed) : Lasts none db db' := by
  refine ⟨hsessions, hnow, fun k _ _ ↦ ?_, fun _ _ h ↦ nomatch h⟩
  by_cases hk : k = id
  · subst hk
    simp only [Cashbook.standing, hinvoices, Table.get?_insert_self, h, Option.map_some, htotal,
      hstatus]
  · rw [Cashbook.standing, hinvoices, Table.get?_insert_ne _ hk, Cashbook.standing]

/-- A transaction that confirms one invoice. -/
theorem Lasts.of_modify {f : CryptoInvoice → CryptoInvoice}
    (hsessions : db'.stripeSessions = db.stripeSessions) (hnow : db.now ≤ db'.now)
    (hinvoices : db'.invoices = db.invoices.modify id f)
    (hf : ∀ inv, (f inv).status = .confirmed ∧ (f inv).totalCredits = inv.totalCredits) :
    Lasts (some id) db db' := by
  refine ⟨hsessions, hnow, fun k hk _ ↦ ?_, fun k inv hk h ↦ ?_⟩
  · have hne : k ≠ id := fun h ↦ hk (congrArg some h)
    rw [Cashbook.standing, hinvoices, Table.get?_modify_ne _ hne, Cashbook.standing]
  · obtain rfl := Option.some.inj hk
    simp only [Cashbook.standing, hinvoices, Table.get?_modify_self, h, Option.map_some, (hf inv).1,
      (hf inv).2, decide_true]

end Lasts

/-- The transactions that confirm no invoice. -/
def Unconfirming : BillingOp → Prop
  | .confirmAndCreditInvoice .. => False
  | .setReviewStatus _ _ (some _) .. => False
  | _ => True

theorem exec_lasts {o : BillingOp} (ho : Unconfirming o) (db : Db) :
    Lasts none db (o.exec db).1 := by
  cases o with
  | confirmAndCreditInvoice => exact ho.elim
  | createCryptoInvoice id inv =>
    simp only [BillingOp.exec, createCryptoInvoice]
    split
    · exact .of_invoices rfl le_rfl rfl
    · next hfresh =>
      refine ⟨rfl, le_rfl, fun k _ hsome ↦ ?_, by rintro _ _ ⟨⟩⟩
      have hne : k ≠ id := by
        rintro rfl
        exact hfresh (.inl hsome)
      rw [Cashbook.standing, Table.get?_insert_ne _ hne, Cashbook.standing]
  | expireStalePendingInvoices g =>
    refine .of_map fun id inv _ ↦ ?_
    split
    · next hstale =>
      simp only [Bool.decide_and, Bool.and_eq_true, decide_eq_true_eq] at hstale
      exact ⟨rfl, by simp [hstale.1]⟩
    · exact ⟨rfl, Iff.rfl⟩
  | rejectCryptoInvoice id reason note =>
    simp only [BillingOp.exec, rejectCryptoInvoice]
    split
    · exact .of_invoices rfl le_rfl rfl
    · next inv h =>
      split
      · exact .of_invoices rfl le_rfl rfl
      · next hunconfirmed =>
        split
        · exact .of_invoices rfl le_rfl rfl
        · exact .of_insert rfl le_rfl rfl h rfl (by simp [hunconfirmed])
  | requestInvoiceReview id u tx note =>
    simp only [BillingOp.exec, requestInvoiceReview]
    split
    · exact .of_invoices rfl le_rfl rfl
    · next inv h =>
      split
      · exact .of_invoices rfl le_rfl rfl
      · split
        · exact .of_invoices rfl le_rfl rfl
        · exact .of_insert rfl le_rfl rfl h rfl Iff.rfl
  | setReviewStatus id review paidTx reason note =>
    cases paidTx with
    | some tx => exact ho.elim
    | none =>
      refine .of_map (f := fun k inv ↦
        if k = id then closeReview review none reason note inv else inv) fun k inv _ ↦ ?_
      split
      · exact ⟨rfl, Iff.rfl⟩
      · exact ⟨rfl, Iff.rfl⟩
  | recordDeposit t =>
    simp only [BillingOp.exec, recordDeposit]
    split <;> exact .of_invoices rfl le_rfl rfl
  | creditDeposit ref u cents how =>
    have hspec := creditDeposit_spec 0 ref u cents how db
    simp only [BillingOp.exec]
    generalize creditDeposit 0 ref u cents how db = out at hspec ⊢
    cases hspec <;> exact .of_invoices rfl le_rfl rfl
  | ignoreDeposit ref =>
    simp only [BillingOp.exec, ignoreDeposit]
    split
    · exact .of_invoices rfl le_rfl rfl
    · split <;> exact .of_invoices rfl le_rfl rfl
  | addVerifiedWallet u c a =>
    simp only [BillingOp.exec, addVerifiedWallet]
    split
    · exact .of_invoices rfl le_rfl rfl
    · split <;> exact .of_invoices rfl le_rfl rfl
  | advance seconds =>
    exact .of_invoices rfl (le_add_of_nonneg_right (le_max_left 0 seconds)) rfl
  | _ => exact .of_invoices rfl le_rfl rfl

/-! ## What holds of the books, after each transaction -/

namespace Cashbook

variable {s : Cashbook} {since : Time}

/-- A transaction that leaves the sessions, on the tables. -/
theorem Sound.commit (hs : s.Sound) {c : Option InvoiceId} {after : Db} {added : List LedgerEntry}
    {t : Time} {stamps : Table InvoiceId Time} (hlasts : Lasts c s.db after)
    (hledger : after.ledger = s.db.ledger ++ added) (ht : after.now ≤ t)
    (hadded : ∀ e ∈ added, ∀ id, isInvoiceTopup id e = true → c = some id ∧
      (s.db.invoices.get? id).isSome = true)
    (hstamps : ∀ id t', stamps.get? id = some t' → s.confirmedAt.get? id = some t' ∨
      (s.db.invoices.get? id).isSome = true ∧ t' = s.db.now) :
    Cashbook.Sound { s.commit after t with confirmedAt := stamps } := by
  have hrow : ∀ id b cents, standing s.db id = some (b, cents) →
      ∃ inv, after.invoices.get? id = some inv ∧
        (b = true ∨ c = some id → inv.status = .confirmed) := by
    intro id b cents hstanding
    obtain ⟨inv, hinv, hrow⟩ := Option.map_eq_some_iff.mp hstanding
    by_cases hc : c = some id
    · have hafter := hlasts.confirms id inv hc hinv
      obtain ⟨inv', hinv', hrow'⟩ := Option.map_eq_some_iff.mp hafter
      exact ⟨inv', hinv', fun _ ↦ of_decide_eq_true (congrArg Prod.fst hrow')⟩
    · have hafter := hlasts.standing id (Ne.symm hc) (Option.isSome_of_eq_some hinv)
      rw [hstanding] at hafter
      obtain ⟨inv', hinv', hrow'⟩ := Option.map_eq_some_iff.mp hafter
      refine ⟨inv', hinv', fun h ↦ of_decide_eq_true ?_⟩
      rw [show decide (inv'.status = .confirmed) = b from congrArg Prod.fst hrow']
      exact h.resolve_right hc
  have hknown : ∀ id, (s.db.invoices.get? id).isSome = true →
      (after.invoices.get? id).isSome = true := by
    intro id hsome
    obtain ⟨inv, hinv⟩ := Option.isSome_iff_exists.mp hsome
    obtain ⟨inv', hinv', -⟩ := hrow id _ _ (by rw [standing, hinv, Option.map_some])
    exact Option.isSome_of_eq_some hinv'
  refine ⟨?_, fun e he id hpaid ↦ ?_, fun id t' h ↦ ?_, fun sid t' h ↦ ?_⟩
  · show (s.createdAt ++ List.replicate _ t).length = after.ledger.length
    rw [List.length_append, List.length_replicate, hs.createdAt, hledger, List.length_append]
    omega
  · have hmem : e ∈ s.db.ledger ++ added := hledger ▸ he
    rcases List.mem_append.mp hmem with hold | hnew
    · obtain ⟨inv, hinv, hconfirmed⟩ := hs.paid e hold id hpaid
      obtain ⟨inv', hinv', hrest⟩ :=
        hrow id true inv.totalCredits (by simp [standing, hinv, hconfirmed])
      exact ⟨inv', hinv', hrest (.inl rfl)⟩
    · obtain ⟨hc, hsome⟩ := hadded e hnew id hpaid
      obtain ⟨inv, hinv⟩ := Option.isSome_iff_exists.mp hsome
      obtain ⟨inv', hinv', hrest⟩ := hrow id _ _ (by rw [standing, hinv, Option.map_some])
      exact ⟨inv', hinv', hrest (.inr hc)⟩
  · rcases hstamps id t' h with hold | ⟨hsome, rfl⟩
    · have := hs.confirmedAt id t' hold
      exact ⟨hknown id this.1, this.2.trans (hlasts.now.trans ht)⟩
    · exact ⟨hknown id hsome, hlasts.now.trans ht⟩
  · show (after.stripeSessions.get? sid).isSome = true
    rw [hlasts.sessions]
    exact hs.completedAt sid t' h

theorem Turns.commit (hs : s.Sound) {c : Option InvoiceId} {after : Db} {added : List LedgerEntry}
    (t : Time) {stamps : Table InvoiceId Time} (hlasts : Lasts c s.db after)
    (hledger : after.ledger = s.db.ledger ++ added)
    (hstamps : ∀ id, some id ≠ c → stamps.get? id = s.confirmedAt.get? id) :
    Turns since s { s.commit after t with confirmedAt := stamps } added t c none := by
  refine ⟨hledger, ?_, fun id hid ↦ ?_, fun sid _ ↦ ?_⟩
  · show s.createdAt ++ List.replicate (after.ledger.length - s.db.ledger.length) t = _
    rw [hledger, List.length_append, Nat.add_sub_cancel_left]
  · exact grantedCents_congr hs (hstamps id hid) (hlasts.standing id hid)
  · refine receivedCents_congr ?_ rfl
    show after.stripeSessions.get? sid = _
    rw [hlasts.sessions]

/-- Sound books have become sound books, with so much more of a gap. -/
structure Shift (since : Time) (s s' : Cashbook) (crypto stripe : ℤ) : Prop where
  sound : s'.Sound
  cryptoGap : s'.cryptoGap since = s.cryptoGap since + crypto
  stripeGap : s'.stripeGap since = s.stripeGap since + stripe

/-- A transaction that leaves the sessions. -/
theorem Shift.commit (hs : s.Sound) {c : Option InvoiceId} {after : Db} {added : List LedgerEntry}
    {t : Time} {stamps : Table InvoiceId Time} (hlasts : Lasts c s.db after)
    (hledger : after.ledger = s.db.ledger ++ added) (ht : after.now ≤ t)
    (hadded : ∀ e ∈ added, e.fromStripe = false ∧
      ∀ id, isInvoiceTopup id e = true → c = some id ∧ (s.db.invoices.get? id).isSome = true)
    (hstamps : ∀ id t', stamps.get? id = some t' → s.confirmedAt.get? id = some t' ∨
      (s.db.invoices.get? id).isSome = true ∧ t' = s.db.now)
    (hkept : ∀ id, some id ≠ c → stamps.get? id = s.confirmedAt.get? id) :
    Shift since s { s.commit after t with confirmedAt := stamps }
      (grantedMore since s { s.commit after t with confirmedAt := stamps } c -
        addedCents since added t LedgerEntry.fromCrypto) 0 := by
  have hturns : Turns since s { s.commit after t with confirmedAt := stamps } added t c none :=
    .commit hs t hlasts hledger hkept
  have hcards : addedCents since added t LedgerEntry.fromStripe = 0 := by
    have hzero : ∀ e ∈ added, (if e.fromStripe then e.amountCents else 0) = 0 := fun e he ↦ by
      rw [(hadded e he).1]
      rfl
    rw [addedCents, List.map_congr_left hzero]
    simp
  refine ⟨hs.commit hlasts hledger ht (fun e he ↦ (hadded e he).2) hstamps, ?_, ?_⟩
  · rw [hturns.cryptoGap hs]
    abel
  · rw [hturns.stripeGap hs, hcards, receivedMore, Option.elim_none, sub_zero]

/-- A transaction that confirms no invoice, and posts no payment. -/
theorem Shift.quiet (hs : s.Sound) {after : Db} {added : List LedgerEntry} {t : Time}
    (hlasts : Lasts none s.db after) (hledger : after.ledger = s.db.ledger ++ added)
    (ht : after.now ≤ t)
    (hadded : ∀ e ∈ added, e.kind ≠ .topup ∨ e.referenceId = none ∧ e.depositRef = none) :
    Shift since s (s.commit after t) 0 0 := by
  have hentry : ∀ e ∈ added, e.fromStripe = false ∧ e.fromCrypto = false ∧
      ∀ id, isInvoiceTopup id e = false := by
    intro e he
    rcases hadded e he with hkind | ⟨hreference, href⟩
    · refine ⟨?_, ?_, fun id ↦ by simp [isInvoiceTopup, hkind]⟩
      · rw [LedgerEntry.fromStripe]
        split
        · exact decide_eq_false hkind
        · rfl
      · rw [LedgerEntry.fromCrypto]
        split
        · exact decide_eq_false hkind
        · exact decide_eq_false hkind
        · exact decide_eq_false hkind
        · rfl
    · simp [LedgerEntry.fromStripe, LedgerEntry.fromCrypto, isInvoiceTopup, hreference, href]
  have hcrypto : addedCents since added t LedgerEntry.fromCrypto = 0 := by
    have hzero : ∀ e ∈ added, (if e.fromCrypto then e.amountCents else 0) = 0 := fun e he ↦ by
      rw [(hentry e he).2.1]
      rfl
    rw [addedCents, List.map_congr_left hzero]
    simp
  have hshift : Shift since s (s.commit after t) (grantedMore since s (s.commit after t) none -
      addedCents since added t LedgerEntry.fromCrypto) 0 := .commit hs hlasts hledger ht
    (fun e he ↦ ⟨(hentry e he).1, fun id hid ↦ by simp [(hentry e he).2.2 id] at hid⟩)
    (fun _ _ h ↦ .inl h) fun _ _ ↦ rfl
  rw [hcrypto, grantedMore, Option.elim_none, sub_zero] at hshift
  exact hshift

end Cashbook

/-! ## The transactions -/

namespace RevenueOp

open Cashbook

variable {s : Cashbook} {since : Time}

/-- A transaction moves the report and the ledger apart exactly if it does not balance. -/
structure Accounts (since : Time) (o : RevenueOp) (s : Cashbook) (crypto stripe : ℤ) : Prop where
  shift : Shift since s (o.exec s) crypto stripe
  balances : crypto = 0 ∧ stripe = 0 ↔ o.Balances since s

/-- The transactions of the billing service that pay nothing. -/
def PaysNothing : BillingOp → Prop
  | .creditDeposit .. => False
  | o => Unconfirming o

theorem accounts_quiet {o : BillingOp} (ho : PaysNothing o) (lag : Time) (hs : s.Sound) :
    Accounts since (billing o lag) s 0 0 := by
  have hunconfirming : Unconfirming o := by
    cases o with
    | creditDeposit => exact ho.elim
    | _ => exact ho
  have hledger : (o.exec s.db).1.ledger = s.db.ledger ++ [] := by
    rw [List.append_nil]
    cases exec_ledger o s.db with
    | none h => exact h
    | confirmed _ _ _ _ _ h => subst h; exact ho.elim
    | credited _ _ _ _ h => subst h; exact ho.elim
  have hstamps : s.stampConfirmed o = s.confirmedAt := by
    cases o with
    | confirmAndCreditInvoice => exact ho.elim
    | setReviewStatus id review paidTx reason note =>
      cases paidTx with
      | none => rfl
      | some tx => exact ho.elim
    | _ => rfl
  refine ⟨?_, ?_⟩
  · rw [exec, hstamps]
    exact Shift.quiet hs (exec_lasts hunconfirming s.db) hledger
      (le_add_of_nonneg_right (le_max_left 0 lag)) (fun e he ↦ nomatch he)
  · refine iff_of_true ⟨rfl, rfl⟩ ?_
    cases o with
    | creditDeposit | confirmAndCreditInvoice => exact ho.elim
    | setReviewStatus id review paidTx reason note =>
      cases paidTx with
      | none => trivial
      | some tx => exact ho.elim
    | _ => trivial

/-- What a payment of one entry adds to the gap, if it is in the window. -/
theorem addedCents_crypto {e : LedgerEntry} {t : Time} (h : e.fromCrypto = true) :
    addedCents since [e] t LedgerEntry.fromCrypto = if since ≤ t then e.amountCents else 0 := by
  rw [addedCents_one, h]
  simp only [and_true]

theorem accounts_creditDeposit (ref : TransferRef) (u : UserId) (cents : ℤ) (how : MatchedBy)
    (lag : Time) (hs : s.Sound) :
    ∃ crypto, Accounts since (billing (.creditDeposit ref u cents how) lag) s crypto 0 := by
  have hlag : s.db.now ≤ s.db.now + max 0 lag := le_add_of_nonneg_right (le_max_left 0 lag)
  have hexec : exec (billing (.creditDeposit ref u cents how) lag) s =
      s.commit (creditDeposit 0 ref u cents how s.db).1
        ((creditDeposit 0 ref u cents how s.db).1.now + max 0 lag) := rfl
  have hbalances : RevenueOp.Balances since (billing (.creditDeposit ref u cents how) lag) s ↔
      ∀ credited ∈ (creditDeposit 0 ref u cents how s.db).2.credits,
        since ≤ s.db.now + max 0 lag → credited = 0 := Iff.rfl
  have hspec := creditDeposit_spec 0 ref u cents how s.db
  generalize creditDeposit 0 ref u cents how s.db = out at hspec hexec hbalances
  cases hspec with
  | credited dep user h _ _ _ found =>
    let e : LedgerEntry :=
      ⟨u, cents, user.balanceCredits + cents, .topup, none, some (.transfer ref)⟩
    refine ⟨0 - addedCents since [e] (s.db.now + max 0 lag) LedgerEntry.fromCrypto, ?_, ?_⟩
    · rw [hexec]
      refine Shift.commit (c := none) hs ?_ (show _ = s.db.ledger ++ [e] from rfl) hlag
        (fun e' he' ↦ ?_) (fun _ _ h ↦ .inl h) fun _ _ ↦ rfl
      · exact .of_invoices rfl le_rfl rfl
      obtain rfl := List.mem_singleton.mp he'
      exact ⟨rfl, fun id hid ↦ by simp [isInvoiceTopup, e] at hid⟩
    · rw [hbalances, addedCents_crypto rfl]
      simp [CreditResult.credits, e]
  | _ =>
    refine ⟨0, ?_, ?_⟩
    · rw [hexec]
      exact Shift.quiet hs (.of_invoices rfl le_rfl rfl) (List.append_nil _).symm hlag
        fun e he ↦ nomatch he
    · rw [hbalances]
      exact iff_of_true ⟨rfl, rfl⟩ fun _ h ↦ nomatch h

theorem accounts_setReviewStatus (id : InvoiceId) (review : ReviewStatus) (tx : Text)
    (reason note : Option Text) (lag : Time) (hs : s.Sound) :
    ∃ crypto, Accounts since (billing (.setReviewStatus id review (some tx) reason note) lag) s
      crypto 0 := by
  have hlag : s.db.now ≤ s.db.now + max 0 lag := le_add_of_nonneg_right (le_max_left 0 lag)
  let o : BillingOp := .setReviewStatus id review (some tx) reason note
  have hlasts : Lasts (some id) s.db (o.exec s.db).1 := by
    refine .of_modify (f := closeReview review (some tx) reason note) rfl le_rfl rfl fun inv ↦ ?_
    rw [closeReview]
    dsimp only
    split
    · next h => exact ⟨h, rfl⟩
    · exact ⟨rfl, rfl⟩
  have hstamps : s.stampConfirmed o =
      if (s.db.invoices.get? id).any fun inv ↦ decide (inv.status ≠ .confirmed) then
        s.confirmedAt.insert id s.db.now
      else s.confirmedAt := rfl
  have hbalances : RevenueOp.Balances since (billing o lag) s ↔
      ∀ inv ∈ s.db.invoices.get? id, inv.status ≠ .confirmed → since ≤ s.db.now →
        inv.totalCredits = 0 := Iff.rfl
  refine ⟨_, ⟨Shift.commit hs hlasts (List.append_nil _).symm hlag (by rintro _ ⟨⟩)
    (fun k t ht ↦ ?_) fun k hk ↦ ?_, ?_⟩⟩
  · rw [hstamps] at ht
    split at ht
    · next hany =>
      rw [Table.get?_insert] at ht
      split at ht
      · next hk =>
        obtain ⟨inv, hinv, -⟩ := (Option.any_eq_true _ _).mp hany
        rw [hk]
        exact .inr ⟨Option.isSome_of_eq_some hinv, (Option.some.inj ht).symm⟩
      · exact .inl ht
    · exact .inl ht
  · rw [hstamps]
    split
    · exact Table.get?_insert_ne _ (fun h ↦ hk (congrArg some h)) _
    · rfl
  · rw [hbalances, addedCents_nil, sub_zero, and_iff_left rfl]
    by_cases hany : (s.db.invoices.get? id).any fun inv ↦ decide (inv.status ≠ .confirmed)
    · obtain ⟨inv, hinv, hunconfirmed⟩ := (Option.any_eq_true _ _).mp hany
      have hstatus : inv.status ≠ .confirmed := of_decide_eq_true hunconfirmed
      have hbefore : s.confirmedSince since id inv = false := by simp [confirmedSince, hstatus]
      rw [grantedMore_confirmed hinv (hlasts.confirms id inv rfl hinv)
        (by rw [hstamps, if_pos hany, Table.get?_insert_self]), hbefore, hinv]
      simp [hstatus]
    · -- The invoice is unknown or has been confirmed, and counts as it did.
      refine iff_of_true ?_ fun inv hinv hstatus ↦ (hany ?_).elim
      · refine sub_eq_zero.mpr (grantedCents_congr hs ?_ fun hsome ↦ ?_)
        · rw [hstamps, if_neg hany]
        · obtain ⟨inv, hinv⟩ := Option.isSome_iff_exists.mp hsome
          have hconfirmed : inv.status = .confirmed := by simpa [hinv] using hany
          refine (hlasts.confirms id inv rfl hinv).trans ?_
          rw [standing, hinv, Option.map_some, hconfirmed]
          rfl
      · rw [Option.mem_def.mp hinv]
        exact decide_eq_true hstatus

/-- When a confirmation changes the report, by the total of the invoice, as much as the ledger, by
what was credited. -/
theorem confirmation_iff {since now after : Time} {totalCredits credited : ℤ} {before : Bool}
    (hafter : now ≤ after) (hbefore : before = true → since ≤ now) :
    ((if since ≤ now then totalCredits else 0) - (if before then totalCredits else 0) -
        if since ≤ after then credited else 0) = 0 ↔
      (since ≤ now → credited = if before then 0 else totalCredits) ∧
        (now < since → since ≤ after → credited = 0) := by
  by_cases hnow : since ≤ now
  · rw [if_pos hnow, if_pos (hnow.trans hafter)]
    cases before with
    | true => simp [hnow, not_lt.mpr hnow]
    | false => simp [hnow, not_lt.mpr hnow, sub_eq_zero, eq_comm]
  · have hnot : before = false := Bool.eq_false_of_not_eq_true fun h ↦ hnow (hbefore h)
    rw [if_neg hnow, hnot]
    by_cases hlater : since ≤ after
    · simp [hnow, hlater, not_le.mp hnow]
    · simp [hnow, hlater]

theorem stampConfirmed_confirm (id : InvoiceId) (tx : Text) (ref : Option DepositRef)
    (expired : Bool) (cents : Option ℤ) (s : Cashbook) :
    s.stampConfirmed (.confirmAndCreditInvoice id tx ref expired cents) =
      match (confirmAndCreditInvoice 0 id tx ref expired cents s.db).2 with
      | .credited .. => s.confirmedAt.insert id s.db.now
      | .alreadyConfirmed =>
        if ((s.db.invoices.get? id).any fun inv ↦ inv.status ≠ .confirmed) ∧
            (s.confirmedAt.get? id).isNone then s.confirmedAt.insert id s.db.now
        else s.confirmedAt
      | _ => s.confirmedAt :=
  rfl

theorem accounts_confirmAndCreditInvoice (id : InvoiceId) (tx : Text) (ref : Option DepositRef)
    (expired : Bool) (cents : Option ℤ) (lag : Time) (hs : s.Sound) :
    ∃ crypto, Accounts since (billing (.confirmAndCreditInvoice id tx ref expired cents) lag) s
      crypto 0 := by
  have hlag : s.db.now ≤ s.db.now + max 0 lag := le_add_of_nonneg_right (le_max_left 0 lag)
  let o : BillingOp := .confirmAndCreditInvoice id tx ref expired cents
  have hexec : exec (billing o lag) s =
      { s.commit (confirmAndCreditInvoice 0 id tx ref expired cents s.db).1
        ((confirmAndCreditInvoice 0 id tx ref expired cents s.db).1.now + max 0 lag) with
        confirmedAt := s.stampConfirmed o } := rfl
  have hstamps := stampConfirmed_confirm id tx ref expired cents s
  have hbalances : RevenueOp.Balances since (billing o lag) s ↔
      ∀ credited ∈ (confirmAndCreditInvoice 0 id tx ref expired cents s.db).2.credits,
        ∀ inv ∈ s.db.invoices.get? id,
          (since ≤ s.db.now →
            credited = if s.confirmedSince since id inv then 0 else inv.totalCredits) ∧
          (s.db.now < since → since ≤ s.db.now + max 0 lag → credited = 0) := Iff.rfl
  have hspec := confirmAndCreditInvoice_spec 0 id tx ref expired cents s.db
  generalize confirmAndCreditInvoice 0 id tx ref expired cents s.db = out
    at hspec hexec hstamps hbalances
  cases hspec with
  | credited inv user h _ unpaid free found =>
    let e : LedgerEntry := ⟨inv.userId, cents.getD inv.totalCredits,
      user.balanceCredits + cents.getD inv.totalCredits, .topup, some (.invoice id), ref⟩
    let after : Db := { s.db.post inv.userId user (cents.getD inv.totalCredits) .topup
        (some (.invoice id)) ref with
      invoices := s.db.invoices.modify id fun inv ↦
        { inv with status := .confirmed, txHash := some tx } }
    have hlasts : Lasts (some id) s.db after :=
      .of_modify (f := fun inv ↦ { inv with status := .confirmed, txHash := some tx })
        rfl le_rfl rfl fun inv ↦ ⟨rfl, rfl⟩
    have hledger : after.ledger = s.db.ledger ++ [e] := rfl
    let s' : Cashbook :=
      { s.commit after (s.db.now + max 0 lag) with confirmedAt := s.confirmedAt.insert id s.db.now }
    have hs' : exec (billing o lag) s = s' := by
      rw [hexec, hstamps]
      rfl
    have hshift : Shift since s s' (grantedMore since s s' (some id) -
        addedCents since [e] (s.db.now + max 0 lag) LedgerEntry.fromCrypto) 0 := by
      refine Shift.commit hs hlasts hledger hlag (fun e' he' ↦ ?_) (fun k t ht ↦ ?_) fun k hk ↦ ?_
      · obtain rfl := List.mem_singleton.mp he'
        refine ⟨rfl, fun id' hid' ↦ ?_⟩
        obtain rfl : id = id' := by simpa [isInvoiceTopup, e] using hid'
        exact ⟨rfl, Option.isSome_of_eq_some h⟩
      · rw [Table.get?_insert] at ht
        split at ht
        · next hk =>
          rw [hk]
          exact .inr ⟨Option.isSome_of_eq_some h, (Option.some.inj ht).symm⟩
        · exact .inl ht
      · exact Table.get?_insert_ne _ (fun h ↦ hk (congrArg some h)) _
    refine ⟨_, ⟨by rw [hs']; exact hshift, ?_⟩⟩
    · rw [hbalances, addedCents_crypto rfl, grantedMore_confirmed h (hlasts.confirms id inv rfl h)
        (Table.get?_insert_self _ _ _), and_iff_left rfl]
      have hcredits : (∀ credited ∈ (ConfirmResult.credited (cents.getD inv.totalCredits)
          (user.balanceCredits + cents.getD inv.totalCredits)).credits,
          ∀ inv ∈ s.db.invoices.get? id,
            (since ≤ s.db.now →
              credited = if s.confirmedSince since id inv then 0 else inv.totalCredits) ∧
            (s.db.now < since → since ≤ s.db.now + max 0 lag → credited = 0)) ↔
          (since ≤ s.db.now → e.amountCents =
            if s.confirmedSince since id inv then 0 else inv.totalCredits) ∧
          (s.db.now < since → since ≤ s.db.now + max 0 lag → e.amountCents = 0) := by
        rw [h]
        simp [ConfirmResult.credits, e]
      rw [hcredits, confirmation_iff hlag]
      intro hbefore
      -- Nothing has a time beyond the present.
      obtain ⟨-, hstamp⟩ := of_decide_eq_true hbefore
      obtain ⟨t, ht, hsince⟩ := (Option.any_eq_true _ _).mp hstamp
      exact (of_decide_eq_true hsince).trans (hs.confirmedAt id t ht).2
  | alreadyConfirmed inv h paid =>
    -- The invoice has been confirmed, when it was paid.
    have hconfirmed : inv.status = .confirmed := by
      obtain ⟨e, he, hpaid⟩ := List.any_eq_true.mp paid
      rw [Db.seenLedger_zero] at he
      obtain ⟨inv', hinv', hstatus⟩ := hs.paid e he id hpaid
      rw [Option.some.inj (h.symm.trans hinv'), hstatus]
    have hstamp : s.stampConfirmed o = s.confirmedAt := by
      rw [hstamps]
      simp [h, hconfirmed]
    refine ⟨0, ?_, ?_⟩
    · rw [hexec, hstamp]
      refine Shift.quiet hs ?_ (List.append_nil _).symm hlag (by rintro _ ⟨⟩)
      refine .of_map (f := fun k inv ↦ if k = id then confirmKeepingHash tx inv else inv)
        fun k inv' hinv' ↦ ?_
      split
      · next hk =>
        subst hk
        rw [h] at hinv'
        obtain rfl := Option.some.inj hinv'
        rw [confirmKeepingHash, if_pos hconfirmed]
        exact ⟨rfl, Iff.rfl⟩
      · exact ⟨rfl, Iff.rfl⟩
    · rw [hbalances]
      exact iff_of_true ⟨rfl, rfl⟩ (by rintro _ ⟨⟩)
  | _ =>
    refine ⟨0, ?_, ?_⟩
    · rw [hexec, hstamps]
      exact Shift.quiet hs (.of_invoices rfl le_rfl rfl) (List.append_nil _).symm hlag
        (by rintro _ ⟨⟩)
    · rw [hbalances]
      exact iff_of_true ⟨rfl, rfl⟩ (by rintro _ ⟨⟩)

theorem completeAndCreditStripeSession_cases (sid : Text) (db : Db) :
    ((completeAndCreditStripeSession sid db).1 = db ∧
        (∀ amount after, (completeAndCreditStripeSession sid db).2 ≠ .credited amount after)) ∨
      ∃ ss user, db.stripeSessions.get? sid = some ss ∧ ss.status ≠ .paid ∧
        completeAndCreditStripeSession sid db =
          ({ db.post ss.userId user ss.amountCents .topup (some (.stripeSession ss.sessionId))
                (some (.stripe sid)) with
              stripeSessions := db.stripeSessions.insert sid { ss with status := .paid } },
            .credited ss.amountCents (user.balanceCredits + ss.amountCents)) := by
  rw [completeAndCreditStripeSession]
  split
  · exact .inl ⟨rfl, by rintro _ _ ⟨⟩⟩
  · next ss hss =>
    split
    · exact .inl ⟨rfl, by rintro _ _ ⟨⟩⟩
    · next hunpaid =>
      split
      · exact .inl ⟨rfl, by rintro _ _ ⟨⟩⟩
      · next user _ =>
        split
        · exact .inl ⟨rfl, by rintro _ _ ⟨⟩⟩
        · exact .inr ⟨ss, user, hss, hunpaid, rfl⟩

/-- A completed session is counted once, by the report and by the ledger. -/
theorem shift_completed {sid : Text} {lag : Time} {ss : StripeSession} {user : User}
    (hs : s.Sound) (hss : s.db.stripeSessions.get? sid = some ss) (hunpaid : ss.status ≠ .paid)
    (hcredited : completeAndCreditStripeSession sid s.db =
      ({ s.db.post ss.userId user ss.amountCents .topup (some (.stripeSession ss.sessionId))
            (some (.stripe sid)) with
          stripeSessions := s.db.stripeSessions.insert sid { ss with status := .paid } },
        .credited ss.amountCents (user.balanceCredits + ss.amountCents))) :
    Shift since s (exec (completeStripeSession sid lag) s) 0
      ((if since ≤ s.db.now then ss.amountCents else 0) -
        if since ≤ s.db.now + max 0 lag then ss.amountCents else 0) := by
  let e : LedgerEntry := ⟨ss.userId, ss.amountCents, user.balanceCredits + ss.amountCents, .topup,
    some (.stripeSession ss.sessionId), some (.stripe sid)⟩
  let s' : Cashbook := exec (completeStripeSession sid lag) s
  have hledger : s'.db.ledger = s.db.ledger ++ [e] := by
    rw [show s'.db.ledger = (completeAndCreditStripeSession sid s.db).1.ledger from rfl, hcredited]
    rfl
  have hcreated : s'.createdAt = s.createdAt ++ [s.db.now + max 0 lag] := by
    rw [show s'.createdAt = s.createdAt ++ List.replicate (s'.db.ledger.length -
      s.db.ledger.length) (s.db.now + max 0 lag) from rfl, hledger, List.length_append,
      Nat.add_sub_cancel_left]
    rfl
  have hsessions : s'.db.stripeSessions =
      s.db.stripeSessions.insert sid { ss with status := .paid } := by
    rw [show s'.db.stripeSessions = (completeAndCreditStripeSession sid s.db).1.stripeSessions
      from rfl, hcredited]
  have hinvoices : s'.db.invoices = s.db.invoices := by
    rw [show s'.db.invoices = (completeAndCreditStripeSession sid s.db).1.invoices from rfl,
      hcredited]
    rfl
  have hstamps : s'.completedAt = s.completedAt.insert sid s.db.now := by
    rw [show s'.completedAt = s.stampCompleted sid from rfl, stampCompleted, hcredited]
  have hturns : Turns since s s' [e] (s.db.now + max 0 lag) none (some sid) := by
    refine ⟨hledger, hcreated, fun id _ ↦ ?_, fun k hk ↦ ?_⟩
    · refine grantedCents_congr hs rfl fun _ ↦ ?_
      rw [standing, hinvoices, standing]
    · have hne : k ≠ sid := fun h ↦ hk (congrArg some h)
      refine receivedCents_congr ?_ ?_
      · rw [hsessions, Table.get?_insert_ne _ hne]
      · rw [hstamps, Table.get?_insert_ne _ hne]
  have hmore : receivedMore since s s' (some sid) =
      if since ≤ s.db.now then ss.amountCents else 0 := by
    have hbefore : s.receivedCents since sid = 0 := by
      rw [receivedCents, Table.valueAt_of_get? hss]
      simp [completedSince, hunpaid]
    rw [receivedMore, Option.elim_some, hbefore, sub_zero, receivedCents, hsessions,
      Table.valueAt_of_get? (Table.get?_insert_self _ _ _)]
    simp [completedSince, hstamps]
  refine ⟨⟨?_, fun e' he' id hpaid ↦ ?_, fun id t ht ↦ ?_, fun k t ht ↦ ?_⟩, ?_, ?_⟩
  · rw [show (exec _ s).createdAt = _ from hcreated, show (exec _ s).db.ledger = _ from hledger,
      List.length_append, List.length_append, hs.createdAt]
    rfl
  · rw [show (exec _ s).db.invoices = _ from hinvoices]
    rcases List.mem_append.mp (hledger ▸ he') with hold | hnew
    · exact hs.paid e' hold id hpaid
    · obtain rfl := List.mem_singleton.mp hnew
      simp [isInvoiceTopup, e] at hpaid
  · rw [show (exec _ s).db.invoices = _ from hinvoices]
    exact ⟨(hs.confirmedAt id t ht).1,
      (hs.confirmedAt id t ht).2.trans (le_add_of_nonneg_right (le_max_left 0 lag))⟩
  · rw [show (exec _ s).db.stripeSessions = _ from hsessions, Table.get?_insert]
    rw [show (exec _ s).completedAt = _ from hstamps, Table.get?_insert] at ht
    split
    · rfl
    · next hk =>
      rw [if_neg hk] at ht
      exact hs.completedAt k t ht
  · rw [show (exec _ s).cryptoGap since = _ from hturns.cryptoGap hs, grantedMore,
      Option.elim_none, addedCents_one]
    simp [e, LedgerEntry.fromCrypto]
  · rw [show (exec _ s).stripeGap since = _ from hturns.stripeGap hs, hmore, addedCents_one,
      add_sub_assoc]
    simp [e, LedgerEntry.fromStripe]

theorem accounts_completeStripeSession (sid : Text) (lag : Time) (hs : s.Sound) :
    ∃ stripe, Accounts since (completeStripeSession sid lag) s 0 stripe := by
  have hlag : s.db.now ≤ s.db.now + max 0 lag := le_add_of_nonneg_right (le_max_left 0 lag)
  have hexec : exec (completeStripeSession sid lag) s =
      { s.commit (completeAndCreditStripeSession sid s.db).1 (s.db.now + max 0 lag) with
        completedAt := s.stampCompleted sid } := rfl
  have hbalances : RevenueOp.Balances since (completeStripeSession sid lag) s ↔
      ∀ credited ∈ (completeAndCreditStripeSession sid s.db).2.credits,
        s.db.now < since → since ≤ s.db.now + max 0 lag → credited = 0 := Iff.rfl
  rcases completeAndCreditStripeSession_cases sid s.db with
    ⟨hsame, hnot⟩ | ⟨ss, user, hss, hunpaid, hcredited⟩
  · have hstamps : s.stampCompleted sid = s.completedAt := by
      rw [stampCompleted]
      split
      · next h => exact (hnot _ _ h).elim
      · rfl
    refine ⟨0, ?_, ?_⟩
    · rw [hexec, hstamps, hsame]
      exact Shift.quiet hs (.of_invoices rfl le_rfl rfl) (List.append_nil _).symm hlag
        fun e he ↦ nomatch he
    · rw [hbalances]
      refine iff_of_true ⟨rfl, rfl⟩ fun credited h ↦ ?_
      cases hresult : (completeAndCreditStripeSession sid s.db).2 with
      | credited amount after => exact (hnot _ _ hresult).elim
      | _ =>
        rw [hresult] at h
        cases h
  · refine ⟨_, shift_completed hs hss hunpaid hcredited, ?_⟩
    rw [hbalances, hcredited, and_iff_right rfl]
    by_cases hnow : since ≤ s.db.now
    · simp [StripeResult.credits, hnow, hnow.trans hlag, not_lt.mpr hnow]
    · simp [StripeResult.credits, hnow, not_le.mp hnow]

/-- A session starts out without a time of completion. -/
theorem accounts_createStripeSession (sid : Text) (session : StripeSession) (hs : s.Sound) :
    Accounts since (createStripeSession sid session) s 0 0 := by
  have hexec : exec (createStripeSession sid session) s = s.createStripeSession sid session := rfl
  refine ⟨?_, iff_of_true ⟨rfl, rfl⟩ trivial⟩
  rw [hexec, Cashbook.createStripeSession]
  split
  · exact ⟨hs, (add_zero _).symm, (add_zero _).symm⟩
  · next hfresh =>
    have hunstamped : s.completedAt.get? sid = none := by
      rw [Option.eq_none_iff_forall_ne_some]
      exact fun t ht ↦ hfresh (hs.completedAt sid t ht)
    have hturns : Turns since s
        { s with db := { s.db with stripeSessions := s.db.stripeSessions.insert sid session } }
        [] s.db.now none none := by
      refine ⟨(List.append_nil _).symm, (List.append_nil _).symm, fun id _ ↦ rfl, fun k _ ↦ ?_⟩
      by_cases hk : k = sid
      · subst hk
        rw [receivedCents, Table.valueAt_of_get? (Table.get?_insert_self _ _ _), receivedCents,
          Table.valueAt_of_get?_none (by simpa using hfresh)]
        simp [completedSince, hunstamped]
      · exact receivedCents_congr (Table.get?_insert_ne _ hk _) rfl
    refine ⟨⟨hs.createdAt, hs.paid, hs.confirmedAt, fun k t ht ↦ ?_⟩, ?_, ?_⟩
    · show ((s.db.stripeSessions.insert sid session).get? k).isSome = true
      rw [Table.get?_insert]
      split
      · rfl
      · exact hs.completedAt k t ht
    · rw [hturns.cryptoGap hs, grantedMore, Option.elim_none, addedCents_nil, sub_zero]
    · rw [hturns.stripeGap hs, receivedMore, Option.elim_none, addedCents_nil, sub_zero]

/-- The transactions that post an entry, if anything, that is no payment. -/
theorem shift_posting (hs : s.Sound) {after : Db} (hafter : after = s.db ∨
    ∃ u user amount kind reference ref, (kind ≠ .topup ∨ reference = none ∧ ref = none) ∧
      after = s.db.post u user amount kind reference ref) :
    Shift since s (s.commit after s.db.now) 0 0 := by
  rcases hafter with rfl | ⟨u, user, amount, kind, reference, ref, hkind, rfl⟩
  · exact .quiet hs (.of_invoices rfl le_rfl rfl) (List.append_nil _).symm le_rfl
      fun e he ↦ nomatch he
  · refine .quiet hs (.of_invoices rfl le_rfl rfl) (Db.post_ledger _ _ _ _ _ _ _) le_rfl
      fun e he ↦ ?_
    obtain rfl := List.mem_singleton.mp he
    exact hkind

theorem creditUser_posts (u : UserId) (amount : ℤ) (kind : LedgerKind)
    (reference : Option Reference) (db : Db) :
    (creditUser u amount kind reference db).1 = db ∨
      ∃ user, (creditUser u amount kind reference db).1 =
        db.post u user amount kind reference none := by
  rw [creditUser]
  split
  · exact .inl rfl
  · next user _ => exact .inr ⟨user, rfl⟩

theorem debitUser_posts (u : UserId) (amount : ℤ) (kind : LedgerKind)
    (reference : Option Reference) (allowNegative : Bool) (db : Db) :
    (debitUser u amount kind reference allowNegative db).1 = db ∨
      ∃ user, (debitUser u amount kind reference allowNegative db).1 =
        db.post u user (-amount) kind reference none := by
  rw [debitUser]
  split
  · exact .inl rfl
  · next user _ =>
    split
    · exact .inl rfl
    · exact .inr ⟨user, rfl⟩

theorem exec_accounts (o : RevenueOp) (hs : s.Sound) :
    ∃ crypto stripe, Accounts since o s crypto stripe := by
  cases o with
  | billing o lag =>
    cases o with
    | creditDeposit ref u cents how =>
      obtain ⟨crypto, h⟩ := accounts_creditDeposit ref u cents how lag hs
      exact ⟨crypto, 0, h⟩
    | confirmAndCreditInvoice id tx ref expired cents =>
      obtain ⟨crypto, h⟩ := accounts_confirmAndCreditInvoice id tx ref expired cents lag hs
      exact ⟨crypto, 0, h⟩
    | setReviewStatus id review paidTx reason note =>
      cases paidTx with
      | none =>
        refine ⟨0, 0, accounts_quiet ?_ lag hs⟩
        trivial
      | some tx =>
        obtain ⟨crypto, h⟩ := accounts_setReviewStatus id review tx reason note lag hs
        exact ⟨crypto, 0, h⟩
    | _ =>
      refine ⟨0, 0, accounts_quiet ?_ lag hs⟩
      trivial
  | createStripeSession sid session => exact ⟨0, 0, accounts_createStripeSession sid session hs⟩
  | completeStripeSession sid lag =>
    obtain ⟨stripe, h⟩ := accounts_completeStripeSession sid lag hs
    exact ⟨0, stripe, h⟩
  | reverseStripeTopup u amountCents eventId session =>
    refine ⟨0, 0, shift_posting hs ?_, iff_of_true ⟨rfl, rfl⟩ trivial⟩
    rw [BillingRepository.reverseStripeTopup]
    split
    · exact .inl rfl
    · split
      · exact .inl rfl
      · split
        · exact .inl rfl
        · exact .inr ⟨u, _, -amountCents, .chargeback, _, _, .inl (by rintro ⟨⟩), rfl⟩
  | creditByHand u amountCents =>
    refine ⟨0, 0, shift_posting hs ?_, iff_of_true ⟨rfl, rfl⟩ trivial⟩
    rcases creditUser_posts u amountCents .topup none s.db with h | ⟨user, h⟩
    · exact .inl h
    · exact .inr ⟨_, _, _, _, _, _, .inr ⟨rfl, rfl⟩, h⟩
  | debitByHand u amountCents =>
    refine ⟨0, 0, shift_posting hs ?_, iff_of_true ⟨rfl, rfl⟩ trivial⟩
    rcases debitUser_posts u amountCents (.other "refund".toList) none true s.db with h | ⟨user, h⟩
    · exact .inl h
    · exact .inr ⟨u, user, -amountCents, .other "refund".toList, none, none,
        .inl (by rintro ⟨⟩), h⟩
  | debitUsage u amountCents deployment =>
    refine ⟨0, 0, shift_posting hs ?_, iff_of_true ⟨rfl, rfl⟩ trivial⟩
    rcases debitUser_posts u amountCents .usage (some (.deployment deployment)) false s.db with
      h | ⟨user, h⟩
    · exact .inl h
    · exact .inr ⟨u, user, -amountCents, .usage, _, none, .inl (by rintro ⟨⟩), h⟩
  | debitInference u amountCents deployment =>
    refine ⟨0, 0, shift_posting hs ?_, iff_of_true ⟨rfl, rfl⟩ trivial⟩
    rw [debitUserToFloor]
    split
    · exact .inl rfl
    · dsimp only
      split
      · exact .inr ⟨u, _, _, .other "inference".toList, _, none, .inl (by rintro ⟨⟩), rfl⟩
      · exact .inl rfl

/-- Books that agree agree after a transaction exactly if it balances. -/
theorem agrees_exec_iff (o : RevenueOp) (days : ℤ) (hs : s.Sound)
    (h : (s.grossRevenueSince since days).Agrees since s) :
    ((o.exec s).grossRevenueSince since days).Agrees since (o.exec s) ↔ o.Balances since s := by
  obtain ⟨crypto, stripe, hexec⟩ : ∃ crypto stripe, Accounts since o s crypto stripe :=
    exec_accounts o hs
  rw [agrees_iff] at h ⊢
  rw [hexec.shift.cryptoGap, hexec.shift.stripeGap, h.1, h.2, zero_add, zero_add]
  exact hexec.balances

end RevenueOp

/-! ## Runs -/

namespace Cashbook

variable {s : Cashbook} {since : Time}

/-- Nothing has been posted, confirmed or completed. -/
structure Opens (s : Cashbook) : Prop where
  ledger : s.db.ledger = []
  createdAt : s.createdAt = []
  confirmedAt : s.confirmedAt.rows = []
  completedAt : s.completedAt.rows = []

theorem get?_of_rows_nil {κ ρ : Type} [DecidableEq κ] {t : Table κ ρ} (h : t.rows = []) (k : κ) :
    t.get? k = none := by
  rw [Table.get?, h]
  rfl

theorem Opens.sound (h : s.Opens) : s.Sound := by
  refine ⟨?_, fun e he ↦ ?_, fun id t ht ↦ ?_, fun sid t ht ↦ ?_⟩
  · rw [h.ledger, h.createdAt]
    rfl
  · rw [h.ledger] at he
    cases he
  · rw [get?_of_rows_nil h.confirmedAt] at ht
    cases ht
  · rw [get?_of_rows_nil h.completedAt] at ht
    cases ht

theorem Opens.agrees (h : s.Opens) (days : ℤ) :
    (s.grossRevenueSince since days).Agrees since s := by
  have hledger : ∀ counts, s.ledgerCents since counts = 0 := by
    intro counts
    rw [ledgerCents, entries, h.ledger, List.zip_nil_left, List.map_nil, List.sum_nil]
  refine (agrees_iff days).mpr ⟨?_, ?_⟩
  · rw [cryptoGap, hledger, sub_zero]
    refine Table.total_eq_zero (f := s.granted since) fun id ↦ ?_
    rw [valueAt_granted, grantedCents, get?_of_rows_nil h.confirmedAt]
    split <;> rfl
  · rw [stripeGap, hledger, sub_zero]
    have hcents : ∀ sid, s.receivedCents since sid = 0 := ?_
    · exact Table.total_eq_zero hcents
    intro sid
    rw [receivedCents, Table.valueAt]
    cases s.db.stripeSessions.get? sid with
    | none => rfl
    | some ss =>
      have huncompleted : s.completedSince since sid ss = false := by
        simp [completedSince, get?_of_rows_nil h.completedAt]
      rw [Option.elim_some, huncompleted]
      rfl

end Cashbook

/-- The report agrees with the ledger all along a run, about the window that begins at `since`,
exactly if every transaction of the run balances. -/
theorem revenue_is_what_the_ledger_credits {s : Cashbook} (start : s.Opens) (os : List RevenueOp)
    (since : Time) (days : ℤ) :
    (∀ os', os' <+: os → ((Steps.replay RevenueOp.exec s os').grossRevenueSince since days).Agrees
        since (Steps.replay RevenueOp.exec s os')) ↔
      Steps.Admitted RevenueOp.exec (RevenueOp.Balances since) s os := by
  refine Steps.throughout_iff (P := fun s ↦ (s.grossRevenueSince since days).Agrees since s)
    (I := Cashbook.Sound) (fun o s hs ↦ ?_) (fun o s hs h ↦ ?_) os start.sound (start.agrees days)
  · obtain ⟨crypto, stripe, h⟩ : ∃ crypto stripe, o.Accounts since s crypto stripe :=
      RevenueOp.exec_accounts o hs
    exact h.shift.sound
  · exact RevenueOp.agrees_exec_iff o days hs h

/-- Two customers with an open invoice each, and a card session that one of them has opened. -/
def openingDay : Cashbook where
  db := { twoInvoices.store with
    wallets := .ofRows [((.evm, "0xs".toList), 1)]
    stripeSessions := .ofRows [("cs".toList, ⟨1, 2, 500, .pending⟩)] }
  createdAt := []
  confirmedAt := .empty
  completedAt := .empty

/-- One invoice is paid exactly and the session is completed, and a rental is charged. -/
def exactPayments : List RevenueOp :=
  [.billing (.recordDeposit (exactTransfer "0xab".toList trimmed_0xab)) 0,
    .billing (.confirmAndCreditInvoice 1 "0xab".toList
      (some (.transfer (exactTransfer "0xab".toList trimmed_0xab).depositRef)) false none) 1,
    .completeStripeSession "cs".toList 1, .debitUsage 1 300 7]

theorem revenue_is_what_the_ledger_credits_exact :
    openingDay.Opens ∧ ∀ os', os' <+: exactPayments →
      ((Steps.replay RevenueOp.exec openingDay os').grossRevenueSince (-604800) 7).Agrees (-604800)
        (Steps.replay RevenueOp.exec openingDay os') :=
  ⟨⟨rfl, rfl, rfl, rfl⟩,
    (revenue_is_what_the_ledger_credits ⟨rfl, rfl, rfl, rfl⟩ exactPayments (-604800) 7).mpr
      (by decide +kernel)⟩

/-- A transfer of 50 dollars, which no invoice asks for. -/
def walletTransfer : Transfer :=
  { exactTransfer "0xab".toList trimmed_0xab with
    info := { (exactTransfer "0xab".toList trimmed_0xab).info with amountRaw := 50000000 } }

/-- It goes to the owner of the wallet that it came from. -/
def walletPayment : List RevenueOp :=
  [.billing (.recordDeposit walletTransfer) 0, .billing (.walletOwner .evm "0xs".toList) 0,
    .billing (.creditDeposit walletTransfer.depositRef 1 5000 .wallet) 0]

/-- What a deposit credits to the owner of a wallet is in the ledger, and in no report. -/
theorem wallet_credit_unreported :
    ¬∀ (s : Cashbook) (os : List RevenueOp) (days : ℤ), s.Opens →
      ((Steps.replay RevenueOp.exec s os).grossRevenue days).Agrees
        ((Steps.replay RevenueOp.exec s os).cutoff days) (Steps.replay RevenueOp.exec s os) := by
  intro h
  have hreport := (h openingDay walletPayment 7 ⟨rfl, rfl, rfl, rfl⟩).crypto
  revert hreport
  decide +kernel

end GreenCompute
