import GreenCompute.Billing.Effects

/-!
# Exact amounts

The deposit addresses are shared, so the watcher tells whose a payment is by its amount. A new
invoice asks for a few millionths more than its price, chosen so that no other invoice that a
payment could still be for asks for the same. When all these extras are taken it asks for more than
any of them, by the number of amounts taken; and that amount may itself be taken, by an invoice of
another price. The index on the open invoices then refuses it. Nothing refuses the amount of an
invoice that has just expired.
-/

namespace GreenCompute

open BillingRepository BillingService

/-! ## Invoices that a payment can be for -/

/-- The invoice is open, or expired so recently that a late payment is still matched to it. -/
def CryptoInvoice.Payable (now : Time) (inv : CryptoInvoice) : Prop :=
  inv.status = .pending ∨ inv.status = .expired ∧ now - latePaymentWindow ≤ inv.expiresAt

instance (now : Time) (inv : CryptoInvoice) : Decidable (inv.Payable now) :=
  inferInstanceAs (Decidable (_ ∨ _))

/-- Addresses are compared without regard to case and to blanks around them. -/
def normalized (address : Text) : Text := Text.lower (Text.strip address)

/-- Two payable invoices that ask for the same amount of a currency at one address. -/
def Db.AskAlike (db : Db) (id id' : InvoiceId) : Prop :=
  match db.invoices.get? id, db.invoices.get? id' with
  | some inv, some inv' =>
    inv.Payable db.now ∧ inv'.Payable db.now ∧ inv.currency = inv'.currency ∧
      inv.depositAddress = inv'.depositAddress ∧ inv.amountUnits.isSome = true ∧
      inv.amountUnits = inv'.amountUnits
  | _, _ => False

instance (db : Db) (id id' : InvoiceId) : Decidable (db.AskAlike id id') := by
  unfold Db.AskAlike
  split <;> infer_instance

/-- An address is in use for a currency: the configured one, or that of an invoice. -/
def Db.InUse (db : Db) (c : Currency) (address : Text) : Prop :=
  address = db.depositAddress c ∨
    ∃ id inv, db.invoices.get? id = some inv ∧ inv.currency = c ∧ inv.depositAddress = address

/-- No two payable invoices ask alike, and no address is in use in two spellings. -/
structure Unambiguous (db : Db) : Prop where
  alone : ∀ id id', db.AskAlike id id' → id = id'
  spelling : ∀ c a b, db.InUse c a → db.InUse c b → normalized a = normalized b → a = b

variable {db db' : Db} {id : InvoiceId} {c : Currency}

theorem askAlike_iff {id' : InvoiceId} {inv inv' : CryptoInvoice}
    (h : db.invoices.get? id = some inv) (h' : db.invoices.get? id' = some inv') :
    db.AskAlike id id' ↔ inv.Payable db.now ∧ inv'.Payable db.now ∧ inv.currency = inv'.currency ∧
      inv.depositAddress = inv'.depositAddress ∧ inv.amountUnits.isSome = true ∧
      inv.amountUnits = inv'.amountUnits := by
  rw [Db.AskAlike, h, h']

theorem exists_of_askAlike {id' : InvoiceId} (h : db.AskAlike id id') :
    ∃ inv inv', db.invoices.get? id = some inv ∧ db.invoices.get? id' = some inv' := by
  unfold Db.AskAlike at h
  split at h
  · next inv inv' hinv hinv' => exact ⟨inv, inv', hinv, hinv'⟩
  · exact h.elim

/-! ### Transactions that create no invoice -/

/-- What a row has become asks for what the row asked for, and is payable only if the row was. -/
structure Fades (now now' : Time) (inv inv' : CryptoInvoice) : Prop where
  currency : inv'.currency = inv.currency
  depositAddress : inv'.depositAddress = inv.depositAddress
  amountUnits : inv'.amountUnits = inv.amountUnits
  payable : inv'.Payable now' → inv.Payable now

/-- Every invoice was there before, and has at most faded. -/
structure Faded (db db' : Db) : Prop where
  depositAddress : db'.depositAddress = db.depositAddress
  row : ∀ id inv', db'.invoices.get? id = some inv' →
    ∃ inv, db.invoices.get? id = some inv ∧ Fades db.now db'.now inv inv'

theorem Fades.refl (now : Time) (inv : CryptoInvoice) : Fades now now inv inv :=
  ⟨rfl, rfl, rfl, id⟩

theorem Faded.of_invoices (hinvoices : db'.invoices = db.invoices) (hnow : db'.now = db.now)
    (haddress : db'.depositAddress = db.depositAddress) : Faded db db' := by
  refine ⟨haddress, fun id inv' h ↦ ⟨inv', ?_, ?_⟩⟩
  · rwa [hinvoices] at h
  · rw [hnow]
    exact .refl _ _

/-- Rewriting rows in place fades them when it fades each. -/
theorem Faded.of_map {f : InvoiceId → CryptoInvoice → CryptoInvoice}
    (hf : ∀ id inv, db.invoices.get? id = some inv → Fades db.now db.now inv (f id inv)) :
    Faded db { db with invoices := db.invoices.map f } := by
  refine ⟨rfl, fun id inv' h ↦ ?_⟩
  rw [Table.get?_map] at h
  obtain ⟨inv, hinv, rfl⟩ := Option.map_eq_some_iff.mp h
  exact ⟨inv, hinv, hf id inv hinv⟩

/-- So does rewriting one of them. -/
theorem Faded.of_insert {inv inv' : CryptoInvoice} (h : db.invoices.get? id = some inv)
    (hfades : Fades db.now db.now inv inv') :
    Faded db { db with invoices := db.invoices.insert id inv' } := by
  refine ⟨rfl, fun k row hrow ↦ ?_⟩
  rw [Table.get?_insert] at hrow
  split at hrow
  · next hk =>
    obtain rfl := Option.some.inj hrow
    exact ⟨inv, hk ▸ h, hfades⟩
  · exact ⟨row, hrow, .refl _ _⟩

/-- A row that is neither open nor expired has faded. -/
theorem Fades.of_closed {now : Time} {inv inv' : CryptoInvoice}
    (hcurrency : inv'.currency = inv.currency)
    (haddress : inv'.depositAddress = inv.depositAddress)
    (hunits : inv'.amountUnits = inv.amountUnits) (hpending : inv'.status ≠ .pending)
    (hexpired : inv'.status ≠ .expired) : Fades now now inv inv' :=
  ⟨hcurrency, haddress, hunits, fun h ↦ (h.elim hpending fun h ↦ hexpired h.1).elim⟩

theorem confirmKeepingHash_fades (now : Time) (tx : Text) (inv : CryptoInvoice) :
    Fades now now inv (confirmKeepingHash tx inv) := by
  unfold confirmKeepingHash
  split
  · exact .refl _ _
  · exact .of_closed rfl rfl rfl (fun h ↦ nomatch h) (fun h ↦ nomatch h)

theorem closeReview_fades (now : Time) (review : ReviewStatus) (paidTx reason note : Option Text)
    (inv : CryptoInvoice) : Fades now now inv (closeReview review paidTx reason note inv) := by
  unfold closeReview
  dsimp only
  split
  · exact ⟨rfl, rfl, rfl, id⟩
  · split
    · exact ⟨rfl, rfl, rfl, id⟩
    · exact .of_closed rfl rfl rfl (fun h ↦ nomatch h) (fun h ↦ nomatch h)

/-- So does rewriting the row under one key. -/
theorem Faded.of_modify {f : CryptoInvoice → CryptoInvoice}
    (hf : ∀ inv, Fades db.now db.now inv (f inv)) :
    Faded db { db with invoices := db.invoices.modify id f } := by
  refine .of_map (f := fun k inv ↦ if k = id then f inv else inv) fun k inv _ ↦ ?_
  split
  · exact hf inv
  · exact .refl _ _

/-- The transaction creates no invoice. -/
def Uncreating : BillingOp → Prop
  | .createCryptoInvoice .. => False
  | _ => True

/-- A transaction that creates no invoice fades them. -/
theorem exec_faded {o : BillingOp} (ho : Uncreating o) (db : Db) : Faded db (o.exec db).1 := by
  cases o with
  | createCryptoInvoice id inv => exact ho.elim
  | confirmAndCreditInvoice id tx ref expired cents =>
    have hspec := confirmAndCreditInvoice_spec 0 id tx ref expired cents db
    simp only [BillingOp.exec]
    generalize confirmAndCreditInvoice 0 id tx ref expired cents db = out at hspec ⊢
    cases hspec with
    | alreadyConfirmed inv h paid =>
      exact .of_modify fun inv ↦ confirmKeepingHash_fades _ _ inv
    | credited inv user h opened unpaid free found =>
      have hmap : Faded db { db with
          invoices := db.invoices.modify id fun inv ↦
            { inv with status := .confirmed, txHash := some tx } } :=
        .of_modify fun inv ↦ .of_closed rfl rfl rfl (by rintro ⟨⟩) (by rintro ⟨⟩)
      exact ⟨hmap.depositAddress, hmap.row⟩
    | _ => exact .of_invoices rfl rfl rfl
  | expireStalePendingInvoices g =>
    refine .of_map fun k inv _ ↦ ?_
    split
    · next hstale =>
      simp only [Bool.decide_and, Bool.and_eq_true, decide_eq_true_eq] at hstale
      exact ⟨rfl, rfl, rfl, fun _ ↦ .inl hstale.1⟩
    · exact .refl _ _
  | rejectCryptoInvoice k reason note =>
    simp only [BillingOp.exec, rejectCryptoInvoice]
    split
    · exact .of_invoices rfl rfl rfl
    · next inv h =>
      split
      · exact .of_invoices rfl rfl rfl
      · split
        · exact .of_invoices rfl rfl rfl
        · exact .of_insert h (.of_closed rfl rfl rfl (by rintro ⟨⟩) (by rintro ⟨⟩))
  | requestInvoiceReview k u tx note =>
    simp only [BillingOp.exec, requestInvoiceReview]
    split
    · exact .of_invoices rfl rfl rfl
    · next inv h =>
      split
      · exact .of_invoices rfl rfl rfl
      · split
        · exact .of_invoices rfl rfl rfl
        · exact .of_insert h ⟨rfl, rfl, rfl, fun h ↦ h⟩
  | setReviewStatus k review paidTx reason note =>
    exact .of_modify fun inv ↦ closeReview_fades _ _ _ _ _ inv
  | recordDeposit t =>
    simp only [BillingOp.exec, recordDeposit]
    split <;> exact .of_invoices rfl rfl rfl
  | creditDeposit ref u cents how =>
    have hspec := creditDeposit_spec 0 ref u cents how db
    simp only [BillingOp.exec]
    generalize creditDeposit 0 ref u cents how db = out at hspec ⊢
    cases hspec <;> exact .of_invoices rfl rfl rfl
  | ignoreDeposit ref =>
    simp only [BillingOp.exec, ignoreDeposit]
    split
    · exact .of_invoices rfl rfl rfl
    · split <;> exact .of_invoices rfl rfl rfl
  | addVerifiedWallet u c a =>
    simp only [BillingOp.exec, addVerifiedWallet]
    split
    · exact .of_invoices rfl rfl rfl
    · split <;> exact .of_invoices rfl rfl rfl
  | advance seconds =>
    refine ⟨rfl, fun id inv h ↦ ⟨inv, h, rfl, rfl, rfl, fun hpayable ↦ ?_⟩⟩
    refine hpayable.imp_right fun hexpired ↦ ⟨hexpired.1, le_trans ?_ hexpired.2⟩
    -- Time only passes.
    simp only [BillingOp.exec]
    linarith [le_max_left 0 seconds]
  | _ => exact .of_invoices rfl rfl rfl

/-- What fades stays unambiguous. -/
theorem Unambiguous.faded (h : Unambiguous db) (hfaded : Faded db db') : Unambiguous db' := by
  constructor
  · intro id id' halike
    obtain ⟨inv, inv', hinv, hinv'⟩ := exists_of_askAlike halike
    obtain ⟨hp, hp', hcurrency, haddress, hsome, hunits⟩ := (askAlike_iff hinv hinv').mp halike
    obtain ⟨was, hwas, hfade⟩ := hfaded.row id inv hinv
    obtain ⟨was', hwas', hfade'⟩ := hfaded.row id' inv' hinv'
    refine h.alone id id' ((askAlike_iff hwas hwas').mpr ?_)
    refine ⟨hfade.payable hp, hfade'.payable hp', ?_, ?_, ?_, ?_⟩
    · rw [← hfade.currency, hcurrency, hfade'.currency]
    · rw [← hfade.depositAddress, haddress, hfade'.depositAddress]
    · rw [← hfade.amountUnits, hsome]
    · rw [← hfade.amountUnits, hunits, hfade'.amountUnits]
  · have huse (c : Currency) (a : Text) (ha : db'.InUse c a) : db.InUse c a := by
      rcases ha with rfl | ⟨id, inv, hinv, rfl, rfl⟩
      · exact .inl (by rw [hfaded.depositAddress])
      · obtain ⟨was, hwas, hfade⟩ := hfaded.row id inv hinv
        exact .inr ⟨id, was, hwas, hfade.currency.symm, hfade.depositAddress.symm⟩
    exact fun c a b ha hb ↦ h.spelling c a b (huse c a ha) (huse c b hb)

/-- A method that creates no invoice keeps the open ones unambiguous. -/
theorem Unambiguous.eval {α : Type} {p : Program Billing α} (hp : p.Uses Uncreating)
    (h : Unambiguous db) : Unambiguous (Program.eval billing.toMachine p db).1 := by
  induction p generalizing db with
  | done a => exact h
  | call o k ih => exact ih _ (hp.2 _) (h.faded (exec_faded hp.1 db))

/-! ### Creating an invoice -/

/-- A new invoice asks for an amount that no payable one asks for at its address. -/
theorem Unambiguous.create {inv : CryptoInvoice} {units : ℤ} (h : Unambiguous db)
    (haddress : inv.depositAddress = db.depositAddress inv.currency)
    (hunits : inv.amountUnits = some units)
    (hfree : units ∉ reservedInvoiceUnits inv.currency inv.depositAddress
      (db.now - latePaymentWindow) db) :
    Unambiguous (BillingRepository.createCryptoInvoice id inv db).1 := by
  -- An old row that asks alike would have its amount among the reserved ones.
  have hold (k : InvoiceId) (row : CryptoInvoice) (hrow : db.invoices.get? k = some row)
      (hpayable : row.Payable db.now) (hcurrency : row.currency = inv.currency)
      (hsame : row.depositAddress = inv.depositAddress) :
      row.amountUnits ≠ some units := by
    intro hasks
    refine hfree (List.mem_filterMap.mpr ⟨(k, row), ?_, hasks⟩)
    refine Table.mem_select.mpr ⟨hrow, ?_⟩
    simpa only [decide_eq_true_eq] using ⟨hcurrency, hsame, hpayable⟩
  unfold BillingRepository.createCryptoInvoice
  dsimp only
  split
  · exact h
  · constructor
    · intro k k' halike
      obtain ⟨row, row', hrow, hrow'⟩ := exists_of_askAlike halike
      obtain ⟨hp, hp', hcurrency, hsame, hsome, hequal⟩ := (askAlike_iff hrow hrow').mp halike
      rw [Table.get?_insert] at hrow hrow'
      split at hrow <;> split at hrow'
      · next hk hk' => rw [hk, hk']
      · obtain rfl := Option.some.inj hrow
        exact absurd (hequal.symm.trans hunits) (hold k' row' hrow' hp' hcurrency.symm hsame.symm)
      · obtain rfl := Option.some.inj hrow'
        exact absurd (hequal.trans hunits) (hold k row hrow hp hcurrency hsame)
      · exact h.alone k k' ((askAlike_iff hrow hrow').mpr
          ⟨hp, hp', hcurrency, hsame, hsome, hequal⟩)
    · have huse (c : Currency) (a : Text)
          (ha : Db.InUse { db with invoices := db.invoices.insert id inv } c a) :
          db.InUse c a := by
        rcases ha with rfl | ⟨k, row, hrow, rfl, rfl⟩
        · exact .inl rfl
        · rw [Table.get?_insert] at hrow
          split at hrow
          · obtain rfl := Option.some.inj hrow
            exact .inl haddress
          · exact .inr ⟨k, row, hrow, rfl, rfl⟩
      exact fun c a b ha hb ↦ h.spelling c a b (huse c a ha) (huse c b hb)

/-- The amounts that are taken when an invoice of a currency is created. -/
def Db.takenUnits (db : Db) (c : Currency) : List ℤ :=
  reservedInvoiceUnits c (db.depositAddress c) (db.now - latePaymentWindow) db

/-- Where every small extra is taken, the amount that is asked for instead is not. -/
def SparesFallback (taken : List ℤ) (baseUnits : ℤ) (maxExtra : ℕ) : Prop :=
  (∀ e ∈ (List.range maxExtra).map (· + 1), baseUnits + (e : ℕ) ∈ taken) →
    baseUnits + (maxExtra + 1 + taken.dedup.length : ℕ) ∉ taken

instance (taken : List ℤ) (baseUnits : ℤ) (maxExtra : ℕ) :
    Decidable (SparesFallback taken baseUnits maxExtra) :=
  inferInstanceAs (Decidable (_ → _))

/-- The extra that an attempt adds to the price. -/
def chosenExtra (taken : List ℤ) (baseUnits : ℤ) (maxExtra draw : ℕ) : ℕ :=
  let free := ((List.range maxExtra).map (· + 1)).filter fun e : ℕ ↦ baseUnits + e ∉ taken
  if free = [] then maxExtra + 1 + taken.dedup.length else free.getD (draw % free.length) 0

/-- A free extra is free, and so is the fallback where it is spared. -/
theorem SparesFallback.chosenExtra_free {taken : List ℤ} {baseUnits : ℤ} {maxExtra : ℕ}
    (h : SparesFallback taken baseUnits maxExtra) (draw : ℕ) :
    baseUnits + (chosenExtra taken baseUnits maxExtra draw : ℕ) ∉ taken := by
  unfold chosenExtra
  dsimp only
  split
  · next hnone =>
    refine h fun e he ↦ ?_
    simpa using List.filter_eq_nil_iff.mp hnone e he
  · next hsome =>
    generalize hfree : ((List.range maxExtra).map (· + 1)).filter
      (fun e : ℕ ↦ baseUnits + e ∉ taken) = free at hsome ⊢
    have hlt : draw % free.length < free.length :=
      Nat.mod_lt _ (List.length_pos_iff.mpr hsome)
    have hmem : free.getD (draw % free.length) 0 ∈ free := by
      rw [List.getD_eq_getElem?_getD, List.getElem?_eq_getElem hlt]
      exact List.getElem_mem hlt
    generalize free.getD (draw % free.length) 0 = e at hmem ⊢
    rw [← hfree] at hmem
    simpa using List.of_mem_filter hmem

/-- One attempt, and the remaining ones where it fails. -/
theorem eval_reserveAmount (maxExtra : ℕ) (baseUnits : ℤ) (invoice : Time → ℤ → CryptoInvoice)
    (draw : ℕ → InvoiceId × ℕ) (n : ℕ) (db : Db) :
    (Program.eval billing.toMachine
        (reserveAmount c (db.depositAddress c) maxExtra baseUnits invoice draw (n + 1)) db).1 =
      let extra := chosenExtra (db.takenUnits c) baseUnits maxExtra (draw n).2
      let created := BillingRepository.createCryptoInvoice (draw n).1
        (invoice db.now (baseUnits + extra)) db
      if created.2 then created.1
      else (Program.eval billing.toMachine
        (reserveAmount c (db.depositAddress c) maxExtra baseUnits invoice draw n) created.1).1 := by
  dsimp only
  split
  · next h => exact congrArg (fun p ↦ (Program.eval billing.toMachine p _).1) (if_pos h)
  · next h => exact congrArg (fun p ↦ (Program.eval billing.toMachine p _).1) (if_neg h)

/-- A creation that fails changes nothing. -/
theorem createCryptoInvoice_failed {inv : CryptoInvoice}
    (h : (BillingRepository.createCryptoInvoice id inv db).2 ≠ true) :
    (BillingRepository.createCryptoInvoice id inv db).1 = db := by
  unfold BillingRepository.createCryptoInvoice at h ⊢
  dsimp only at h ⊢
  split
  · rfl
  · next hfree => exact absurd (by rw [if_neg hfree]) h

/-- However often the creation is tried, it leaves the payable invoices unambiguous. -/
theorem reserveAmount_unambiguous {maxExtra : ℕ} {baseUnits : ℤ}
    {invoice : Time → ℤ → CryptoInvoice} {draw : ℕ → InvoiceId × ℕ} (h : Unambiguous db)
    (hcurrency : ∀ now units, (invoice now units).currency = c)
    (haddress : ∀ now units, (invoice now units).depositAddress = db.depositAddress c)
    (hunits : ∀ now units, (invoice now units).amountUnits = some units)
    (hspares : SparesFallback (db.takenUnits c) baseUnits maxExtra) (n : ℕ) :
    Unambiguous (Program.eval billing.toMachine
      (reserveAmount c (db.depositAddress c) maxExtra baseUnits invoice draw n) db).1 := by
  induction n with
  | zero => exact h
  | succ n ih =>
    rw [eval_reserveAmount]
    dsimp only
    split
    · refine h.create (by rw [haddress, hcurrency]) (hunits _ _) ?_
      rw [haddress, hcurrency]
      exact hspares.chosenExtra_free _
    · next hfailed =>
      rw [createCryptoInvoice_failed hfailed]
      exact ih

/-! ### Whole calls -/

/-- What an amount in dollars is in a currency, to a millionth. -/
def Db.pricedAmount (db : Db) (base : BaseCurrency) (amountUsd : ℚ) : ℚ :=
  if base.isStable then amountUsd
  else if 0 < db.price base then
    (roundHalfEven (amountUsd / db.price base * 10 ^ 6) : ℚ) / 10 ^ 6
  else 0

/-- The price of an invoice in millionths, before an extra is added. -/
def Db.baseUnits (db : Db) (c : Currency) (amountUsd : ℚ) : ℤ :=
  roundHalfEven (db.pricedAmount c.base amountUsd * 10 ^ 6)

/-- How many extras there are: those worth under a cent. -/
def Db.maxExtra (db : Db) (c : Currency) (amountUsd : ℚ) : ℕ :=
  let usdPerToken := if c.base.isStable then 1 else amountUsd / db.pricedAmount c.base amountUsd
  max 20 (min 9999 ⌊1 / 100 / usdPerToken * 10 ^ 6⌋.toNat)

/-- Where an invoice is created while every extra is taken, the amount it falls back to is not. -/
def sparesFallback : BillingCall → Db → Prop
  | .createCryptoInvoice _ c amountUsd _, db =>
    SparesFallback (db.takenUnits c) (db.baseUnits c amountUsd) (db.maxExtra c amountUsd)
  | _, _ => True

instance (call : BillingCall) (db : Db) : Decidable (sparesFallback call db) := by
  cases call <;> unfold sparesFallback <;> infer_instance

theorem eval_cryptoAmount (base : BaseCurrency) (amountUsd : ℚ) (db : Db) :
    Program.eval billing.toMachine (cryptoAmount base amountUsd) db =
      (db, db.pricedAmount base amountUsd) := by
  unfold cryptoAmount Db.pricedAmount
  split <;> rfl

theorem createCryptoInvoice_unambiguous (h : Unambiguous db) (u : UserId) (amountUsd : ℚ)
    (draw : ℕ → InvoiceId × ℕ)
    (hspares : SparesFallback (db.takenUnits c) (db.baseUnits c amountUsd)
      (db.maxExtra c amountUsd)) :
    Unambiguous (Program.eval billing.toMachine
      (BillingService.createCryptoInvoice u c amountUsd draw) db).1 := by
  have haddress : Program.eval billing.toMachine (call (.depositAddressFor c)) db =
      (db, db.depositAddress c) := rfl
  have hcount : Program.eval billing.toMachine (call (.countPendingInvoices u)) db =
      (db, BillingRepository.countPendingInvoices u db) := rfl
  rw [BillingService.createCryptoInvoice, Program.eval_bind, eval_cryptoAmount, Program.eval_bind,
    haddress]
  split
  · exact h
  · split
    · exact h
    · rw [Program.eval_bind, hcount]
      split
      · exact h
      · dsimp only
        refine reserveAmount_unambiguous h ?_ ?_ ?_ hspares 8
        · exact fun _ _ ↦ rfl
        · exact fun _ _ ↦ rfl
        · exact fun _ _ ↦ rfl

theorem uncreating_of_plain {o : BillingOp} (h : Plain o) : Uncreating o := by
  cases o with
  | createCryptoInvoice => exact h
  | _ => trivial

open Program (Uses)

theorem Program.Uses.uncreating {α : Type} {p : Program Billing α} (h : p.Uses Plain) :
    p.Uses Uncreating :=
  h.mono fun _ ↦ uncreating_of_plain

variable {t : Transfer}

theorem uncreating_creditInvoice (id : InvoiceId) (inv : CryptoInvoice) (how : MatchedBy)
    (cents : Option ℤ) (expired : Bool) :
    (creditInvoice id inv t how cents expired).Uses Uncreating := by
  unfold creditInvoice
  refine Uses.op_bind trivial fun result ↦ ?_
  cases result with
  | credited | alreadyConfirmed | duplicateDeposit => exact Uses.op_bind trivial fun _ ↦ trivial
  | _ => trivial

theorem uncreating_creditExact (l : List (InvoiceId × CryptoInvoice)) :
    (creditExact t l).Uses Uncreating := by
  induction l with
  | nil => trivial
  | cons r l ih =>
    refine Uses.bind (uncreating_creditInvoice _ _ _ _ _) fun outcome ↦ ?_
    cases outcome with
    | some outcome => trivial
    | none => exact ih

theorem uncreating_creditAtValue (id : InvoiceId) (inv : CryptoInvoice) (how : MatchedBy)
    (expired : Bool) (amount : ℚ) :
    (depositValueCents t.info.currency amount t.info.usdPrice >>= fun cents ↦
      creditInvoice id inv t how (some cents) expired).Uses Uncreating :=
  Uses.bind (plain_depositValueCents _ _ _).uncreating fun _ ↦ uncreating_creditInvoice _ _ _ _ _

theorem uncreating_orElse {rule : Program Billing (Option Resolution)}
    {rest : Program Billing Resolution} (h : rule.Uses Uncreating) (h' : rest.Uses Uncreating) :
    (orElse rule rest).Uses Uncreating := by
  refine Uses.bind h fun outcome ↦ ?_
  cases outcome with
  | some outcome => trivial
  | none => exact h'

theorem uncreating_creditLate : (creditLate t).Uses Uncreating := by
  unfold creditLate
  refine Uses.op_bind trivial fun now ↦ Uses.op_bind trivial fun expired ↦ ?_
  split
  · exact uncreating_creditAtValue _ _ _ _ _
  · trivial

theorem uncreating_creditOneCustomersInvoice (l : List (InvoiceId × CryptoInvoice)) :
    (creditOneCustomersInvoice t l).Uses Uncreating := by
  unfold creditOneCustomersInvoice
  refine Uses.op_bind trivial fun now ↦ Uses.op_bind trivial fun expired ↦ ?_
  dsimp only
  split
  · trivial
  · split
    · exact uncreating_creditInvoice _ _ _ _ _
    · exact uncreating_creditAtValue _ _ _ _ _
    · trivial

theorem uncreating_settleUnpaid : (settleUnpaid t).Uses Uncreating := by
  unfold settleUnpaid
  refine Uses.op_bind trivial fun invoices ↦ ?_
  refine uncreating_orElse (uncreating_creditExact _) (uncreating_orElse uncreating_creditLate
    (uncreating_orElse ?_ (uncreating_orElse ?_ ?_)))
  · exact (plain_creditWallet t).uncreating
  · exact uncreating_creditOneCustomersInvoice _
  · exact (plain_leaveUnmatched t).uncreating

theorem uncreating_resolveDeposit : (BillingService.resolveDeposit t).Uses Uncreating := by
  unfold BillingService.resolveDeposit
  refine Uses.op_bind trivial fun status ↦ ?_
  split
  · trivial
  · refine Uses.op_bind trivial fun earlier ↦ ?_
    cases earlier with
    | some earlier => exact Uses.op_bind trivial fun _ ↦ trivial
    | none => exact uncreating_settleUnpaid

theorem uncreating_reviewConfirmInvoice (id : InvoiceId) (review : CryptoInvoice) :
    (reviewConfirmInvoice id review).Uses Uncreating := by
  unfold reviewConfirmInvoice
  refine Uses.op_bind trivial fun owner ↦ ?_
  cases owner with
  | some owner => trivial
  | none =>
    refine Uses.op_bind trivial fun result ↦ ?_
    cases result with
    | credited =>
      dsimp only
      split
      · exact Uses.op_bind trivial fun _ ↦ Uses.op_bind trivial fun _ ↦ trivial
      · exact Uses.op_bind trivial fun _ ↦ trivial
    | _ => trivial

theorem uncreating_resolveReview (id : InvoiceId) (action : ReviewAction) :
    (BillingService.resolveReview id action).Uses Uncreating := by
  unfold BillingService.resolveReview
  refine Uses.op_bind trivial fun review ↦ ?_
  cases review with
  | none => trivial
  | some review =>
    dsimp only
    split
    · trivial
    · split
      · split
        · trivial
        · exact Uses.op_bind trivial fun _ ↦ trivial
      · trivial
      · exact (plain_reviewCreditDeposit _ _ _).uncreating
      · exact uncreating_reviewConfirmInvoice _ _

theorem uncreating_confirmCryptoDeposit (id : InvoiceId) (tx : Text) :
    (BillingService.confirmCryptoDeposit id tx).Uses Uncreating := by
  unfold BillingService.confirmCryptoDeposit
  refine Uses.op_bind trivial fun invoice ↦ ?_
  cases invoice with
  | none => trivial
  | some invoice =>
    refine Uses.op_bind trivial fun paid ↦ ?_
    dsimp only
    split
    · trivial
    · refine Uses.op_bind trivial fun result ↦ ?_
      cases result with
      | credited =>
        dsimp only
        split
        · exact Uses.op_bind trivial fun _ ↦ trivial
        · trivial
      | _ => trivial

/-- Every call that creates no invoice keeps the payable ones unambiguous, and so does a creation
that does not have to fall back to a taken amount. -/
theorem Unambiguous.after {call : BillingCall} (h : Unambiguous db)
    (hspares : sparesFallback call db) : Unambiguous (billing.after call db) := by
  have hdiscard {α : Type} {p : Program Billing α} (hp : p.Uses Uncreating) :
      Unambiguous (Program.eval billing.toMachine p.discard db).1 :=
    h.eval (Uses.bind hp fun _ ↦ trivial)
  cases call with
  | createCryptoInvoice u c amountUsd draw =>
    have hcreated := createCryptoInvoice_unambiguous h u amountUsd draw hspares
    unfold Service.after billing BillingCall.body Program.discard
    rwa [Program.eval_bind]
  | resolveDeposit => exact hdiscard uncreating_resolveDeposit
  | resolveReview => exact hdiscard (uncreating_resolveReview _ _)
  | confirmCryptoDeposit => exact hdiscard (uncreating_confirmCryptoDeposit _ _)
  | assignDeposit =>
    exact hdiscard (Uses.bind (plain_assignDepositTo _ _).uncreating fun _ ↦ trivial)
  | claimWalletDeposits => exact hdiscard (plain_claimWalletDeposits _ _ _).uncreating
  | linkWallet => exact hdiscard (plain_linkWallet _ _ _ _ _).uncreating
  | rejectInvoice => exact hdiscard (plain_rejectInvoice _ _ _).uncreating
  | requestInvoiceReview | expireStalePendingInvoices =>
    exact hdiscard (Program.uses_op.mpr trivial)
  | ignoreDeposit | advance | setPrice => exact h.eval (Program.uses_op.mpr trivial)

/-! ## Payments of an exact amount -/

/-- Invoices that a transfer pays exactly ask for the same amount. -/
theorem amountUnits_eq_of_exact {inv inv' : CryptoInvoice} {info : TransferInfo}
    (h : exactAmount inv info = true) (h' : exactAmount inv' info = true) :
    inv.amountUnits = inv'.amountUnits := by
  unfold exactAmount at h h'
  split at h
  · cases h
  · next units hunits =>
    split at h'
    · cases h'
    · next units' hunits' =>
      rw [hunits, hunits', Option.some_inj]
      dsimp only at h h'
      rw [decide_eq_true_eq] at h h'
      have hscale : (0 : ℚ) < 10 ^ info.decimals / 10 ^ 6 := by positivity
      -- One unit is more than what two readings within the tolerance can differ by.
      have hwide : 2 * (if 9 ≤ info.decimals then (100 : ℚ) else 0) <
          10 ^ info.decimals / 10 ^ 6 := by
        split
        · next hnine =>
          have : (10 : ℚ) ^ 9 ≤ 10 ^ info.decimals := pow_le_pow_right₀ (by norm_num) hnine
          linarith
        · simp
      generalize (10 : ℚ) ^ info.decimals / 10 ^ 6 = scale at h h' hscale hwide
      have hdiff : |((units - units' : ℤ) : ℚ)| * scale < 1 * scale := by
        calc |((units - units' : ℤ) : ℚ)| * scale
            = |(units : ℚ) * scale - units' * scale| := by
              rw [Int.cast_sub, ← sub_mul, abs_mul, abs_of_pos hscale]
          _ ≤ |(units : ℚ) * scale - info.amountRaw| + |(info.amountRaw : ℚ) - units' * scale| :=
              abs_sub_le _ _ _
          _ < 1 * scale := by
              rw [abs_sub_comm, one_mul]
              linarith
      have hlt : |units - units'| < 1 := by
        have := lt_of_mul_lt_mul_right hdiff hscale.le
        exact_mod_cast this
      rwa [Int.abs_lt_one_iff, sub_eq_zero] at hlt

/-- The transfer pays exactly what the invoice asks for, in its currency and to its address. -/
def PaysExactly (t : Transfer) (inv : CryptoInvoice) : Prop :=
  inv.currency = t.info.currency ∧
    normalized inv.depositAddress = normalized t.info.depositAddress ∧
    exactAmount inv t.info = true

/-- A transfer pays at most one payable invoice exactly. -/
theorem Unambiguous.paysExactly {id' : InvoiceId} {inv inv' : CryptoInvoice} (h : Unambiguous db)
    (hinv : db.invoices.get? id = some inv) (hinv' : db.invoices.get? id' = some inv')
    (hpayable : inv.Payable db.now) (hpayable' : inv'.Payable db.now)
    (hpays : PaysExactly t inv) (hpays' : PaysExactly t inv') : id = id' := by
  obtain ⟨hcurrency, haddress, hexact⟩ := hpays
  obtain ⟨hcurrency', haddress', hexact'⟩ := hpays'
  have hsame : inv.depositAddress = inv'.depositAddress :=
    h.spelling t.info.currency _ _ (.inr ⟨id, inv, hinv, hcurrency, rfl⟩)
      (.inr ⟨id', inv', hinv', hcurrency', rfl⟩) (haddress.trans haddress'.symm)
  refine h.alone id id' ((askAlike_iff hinv hinv').mpr ⟨hpayable, hpayable',
    hcurrency.trans hcurrency'.symm, hsame, ?_, amountUnits_eq_of_exact hexact hexact'⟩)
  unfold exactAmount at hexact
  split at hexact
  · cases hexact
  · next units hunits => rw [hunits, Option.isSome_some]

/-- What a transfer adds to the ledger is for this invoice and its owner. -/
def CreditsOnly (id : InvoiceId) (inv : CryptoInvoice) (db db' : Db) : Prop :=
  ∀ e ∈ db'.ledger, e ∈ db.ledger ∨ e.referenceId = some (.invoice id) ∧ e.userId = inv.userId

/-- An invoice that may be paid settles the transfer it is tried for. -/
theorem creditInvoice_settles {inv : CryptoInvoice} (h : db.invoices.get? id = some inv)
    (expired : Bool) (hopen : inv.status = .pending ∨ inv.status = .expired ∧ expired = true)
    (how : MatchedBy) (cents : Option ℤ) :
    (Program.eval billing.toMachine (creditInvoice id inv t how cents expired) db).2 ≠ none ∧
      CreditsOnly id inv db
        (Program.eval billing.toMachine (creditInvoice id inv t how cents expired) db).1 := by
  have hspec := confirmAndCreditInvoice_spec 0 id (recordedHash t) (some (.transfer t.depositRef))
    expired cents db
  rw [creditInvoice, Program.eval_bind]
  generalize hout : Program.eval billing.toMachine (call (.confirmAndCreditInvoice id
    (recordedHash t) (some (.transfer t.depositRef)) expired cents)) db = out
  replace hout : confirmAndCreditInvoice 0 id (recordedHash t) (some (.transfer t.depositRef))
    expired cents db = out := hout
  rw [hout] at hspec
  cases hspec with
  | notFound hnone => rw [hnone] at h; cases h
  | refused row hrow closed =>
    obtain rfl := Option.some.inj (hrow.symm.trans h)
    rcases closed with hrejected | ⟨hexpired, hlate⟩
    · rw [hrejected] at hopen
      simp at hopen
    · rw [hexpired, hlate] at hopen
      simp at hopen
  | credited row user hrow =>
    obtain rfl := Option.some.inj (hrow.symm.trans h)
    refine ⟨nofun, fun e he ↦ ?_⟩
    rcases List.mem_append.mp he with he | he
    · exact .inl he
    · obtain rfl := List.mem_singleton.mp he
      exact .inr ⟨rfl, rfl⟩
  | _ => exact ⟨nofun, fun e he ↦ .inl he⟩

theorem mem_invoicesWhere {address : Text} {condition : CryptoInvoice → Bool}
    {r : InvoiceId × CryptoInvoice} :
    r ∈ invoicesWhere c address condition db ↔ db.invoices.get? r.1 = some r.2 ∧
      r.2.currency = c ∧ condition r.2 = true ∧
      normalized r.2.depositAddress = normalized address := by
  obtain ⟨k, row⟩ := r
  rw [invoicesWhere, List.mem_filter, List.mem_insertionSort, Table.mem_select]
  simp only [decide_eq_true_eq, normalized]
  tauto

theorem nodup_invoicesWhere (c : Currency) (address : Text) (condition : CryptoInvoice → Bool)
    (db : Db) : (invoicesWhere c address condition db).Nodup := by
  have hrows : db.invoices.rows.Nodup := db.invoices.nodup.of_map
  exact ((List.perm_insertionSort _ _).nodup_iff.mpr (hrows.filter _)).filter _

/-- The invoices of a list that the transfer pays exactly are the one it pays. -/
theorem Unambiguous.filter_exact {inv : CryptoInvoice} (h : Unambiguous db)
    (hinv : db.invoices.get? id = some inv) (hpayable : inv.Payable db.now)
    (hpays : PaysExactly t inv) (condition : CryptoInvoice → Bool)
    (hcondition : ∀ row, condition row = true → row.Payable db.now) :
    (invoicesWhere t.info.currency t.info.depositAddress condition db).filter
        (fun r ↦ exactAmount r.2 t.info) =
      if condition inv = true then [(id, inv)] else [] := by
  have hmem (r : InvoiceId × CryptoInvoice) :
      r ∈ (invoicesWhere t.info.currency t.info.depositAddress condition db).filter
          (fun r ↦ exactAmount r.2 t.info) ↔
        condition inv = true ∧ r = (id, inv) := by
    rw [List.mem_filter, mem_invoicesWhere]
    constructor
    · rintro ⟨⟨hrow, hcurrency, hcond, haddress⟩, hexact⟩
      obtain ⟨k, row⟩ := r
      obtain rfl := h.paysExactly hrow hinv (hcondition _ hcond) hpayable
        ⟨hcurrency, haddress, hexact⟩ hpays
      obtain rfl := Option.some.inj (hrow.symm.trans hinv)
      exact ⟨hcond, rfl⟩
    · rintro ⟨hcond, rfl⟩
      exact ⟨⟨hinv, hpays.1, hcond, hpays.2.1⟩, hpays.2.2⟩
  have hnodup := (nodup_invoicesWhere t.info.currency t.info.depositAddress condition db).filter
    fun r ↦ exactAmount r.2 t.info
  generalize (invoicesWhere t.info.currency t.info.depositAddress condition db).filter
    (fun r ↦ exactAmount r.2 t.info) = l at hmem hnodup ⊢
  split
  · next hcond =>
    simp only [hcond, true_and] at hmem
    refine List.perm_singleton.mp ((List.perm_ext_iff_of_nodup hnodup (List.nodup_singleton _)).mpr
      fun r ↦ ?_)
    rw [hmem, List.mem_singleton]
  · next hcond =>
    refine List.eq_nil_iff_forall_not_mem.mpr fun r hr ↦ ?_
    exact hcond ((hmem r).mp hr).1

theorem eval_depositValueCents (c : Currency) (amount : ℚ) (price : Option ℚ) (db : Db) :
    (Program.eval billing.toMachine (depositValueCents c amount price) db).1 = db := by
  unfold depositValueCents unitPrice
  split
  · rfl
  · split <;> rfl

/-- The rules of `resolve_deposit` credit such a transfer to its invoice. -/
theorem Unambiguous.settleUnpaid_named {inv : CryptoInvoice} (h : Unambiguous db)
    (hinv : db.invoices.get? id = some inv) (hpayable : inv.Payable db.now)
    (hpays : PaysExactly t inv) :
    CreditsOnly id inv db (Program.eval billing.toMachine (settleUnpaid t) db).1 := by
  have hpending := h.filter_exact hinv hpayable hpays
    (fun inv ↦ inv.status = .pending) fun row hrow ↦ .inl (of_decide_eq_true hrow)
  have hexpired := h.filter_exact hinv hpayable hpays
    (fun inv ↦ inv.status = .expired ∧ db.now - latePaymentWindow ≤ inv.expiresAt)
    fun row hrow ↦ .inr (of_decide_eq_true hrow)
  -- The rule that finds the invoice settles the transfer, so no later rule is tried.
  have hsettled {rule : Program Billing (Option Resolution)} {rest : Program Billing Resolution}
      (hrule : (Program.eval billing.toMachine rule db).2 ≠ none ∧
        CreditsOnly id inv db (Program.eval billing.toMachine rule db).1) :
      CreditsOnly id inv db (Program.eval billing.toMachine (orElse rule rest) db).1 := by
    obtain ⟨outcome, houtcome⟩ := Option.ne_none_iff_exists'.mp hrule.1
    rw [orElse, Program.eval_bind, houtcome]
    exact hrule.2
  have hread : Program.eval billing.toMachine
      (call (.pendingInvoices t.info.currency t.info.depositAddress)) db =
      (db, pendingInvoices t.info.currency t.info.depositAddress db) := rfl
  rw [settleUnpaid, Program.eval_bind, hread, pendingInvoices]
  rcases hpayable with hstatus | ⟨hstatus, hrecent⟩
  · have hcredit := creditInvoice_settles (t := t) hinv false (.inl hstatus) .invoice none
    rw [if_pos (decide_eq_true hstatus)] at hpending
    refine hsettled ?_
    rw [hpending, creditExact, Program.eval_bind]
    obtain ⟨outcome, houtcome⟩ := Option.ne_none_iff_exists'.mp hcredit.1
    rw [houtcome]
    exact ⟨nofun, hcredit.2⟩
  · have hnotpending : ¬decide (inv.status = .pending) = true := by simp [hstatus]
    have hlate : (decide (inv.status = .expired ∧ db.now - latePaymentWindow ≤ inv.expiresAt)) =
        true := decide_eq_true ⟨hstatus, hrecent⟩
    rw [if_neg hnotpending] at hpending
    rw [if_pos hlate] at hexpired
    rw [hpending]
    change CreditsOnly id inv db
      (Program.eval billing.toMachine (orElse (creditLate t) _) db).1
    refine hsettled ?_
    have hnow : Program.eval billing.toMachine (call .now) db = (db, db.now) := rfl
    have hrecents : Program.eval billing.toMachine (call (.recentlyExpiredInvoices t.info.currency
        t.info.depositAddress (db.now - latePaymentWindow))) db =
        (db, recentlyExpiredInvoices t.info.currency t.info.depositAddress
          (db.now - latePaymentWindow) db) := rfl
    rw [creditLate, Program.eval_bind, hnow, Program.eval_bind, hrecents, recentlyExpiredInvoices,
      hexpired, Program.eval_bind]
    rw [eval_depositValueCents]
    exact creditInvoice_settles hinv true (.inr ⟨hstatus, rfl⟩) _ _

/-- A transfer that pays a payable invoice exactly is credited to no other. -/
theorem Unambiguous.resolveDeposit_named {inv : CryptoInvoice} (h : Unambiguous db)
    (hinv : db.invoices.get? id = some inv) (hpayable : inv.Payable db.now)
    (hpays : PaysExactly t inv) :
    CreditsOnly id inv db (billing.after (.resolveDeposit t) db) := by
  have hlogged := exec_faded (o := .recordDeposit t) trivial db
  have hsame : (recordDeposit t db).1.ledger = db.ledger ∧
      (recordDeposit t db).1.invoices = db.invoices ∧ (recordDeposit t db).1.now = db.now := by
    unfold recordDeposit
    split <;> exact ⟨rfl, rfl, rfl⟩
  simp only [BillingOp.exec] at hlogged
  have hrecord : Program.eval billing.toMachine (call (.recordDeposit t)) db =
      recordDeposit t db := rfl
  change CreditsOnly id inv db
    (Program.eval billing.toMachine (BillingService.resolveDeposit t >>= fun _ ↦ .done ()) db).1
  rw [Program.eval_bind, Program.eval_done, BillingService.resolveDeposit, Program.eval_bind,
    hrecord]
  generalize recordDeposit t db = out at hlogged hsame ⊢
  obtain ⟨logged, status⟩ := out
  obtain ⟨hledger, hinvoices, hnow⟩ := hsame
  have hcredits (db' : Db) (hdb' : CreditsOnly id inv logged db') : CreditsOnly id inv db db' :=
    fun e he ↦ (hdb' e he).imp_left fun he ↦ hledger ▸ he
  refine hcredits _ ?_
  dsimp only
  split
  · exact fun e he ↦ .inl he
  · have hearlier : Program.eval billing.toMachine
        (call (.earlierCredit t.depositRef t.info.txHash)) logged =
        (logged, earlierCredit t.depositRef t.info.txHash logged) := rfl
    rw [settleDeposit, Program.eval_bind, hearlier]
    cases earlierCredit t.depositRef t.info.txHash logged with
    | some earlier => exact fun e he ↦ .inl he
    | none =>
      refine (h.faded hlogged).settleUnpaid_named ?_ ?_ hpays
      · rwa [hinvoices]
      · rwa [hnow]

/-! ## Every sequence of calls -/

/-- Before the first invoice, nothing is ambiguous. -/
theorem Unambiguous.of_no_invoices (h : db.invoices.rows = []) : Unambiguous db := by
  have hnone (k : InvoiceId) (inv : CryptoInvoice) : db.invoices.get? k ≠ some inv := by
    intro hget
    have hmem := Table.mem_rows_iff.mpr hget
    rw [h] at hmem
    exact List.not_mem_nil hmem
  constructor
  · intro id id' halike
    obtain ⟨inv, -, hinv, -⟩ := exists_of_askAlike halike
    exact absurd hinv (hnone id inv)
  · intro c a b ha hb _
    rcases ha with rfl | ⟨id, inv, hinv, -⟩
    · rcases hb with rfl | ⟨id, inv, hinv, -⟩
      · rfl
      · exact absurd hinv (hnone id inv)
    · exact absurd hinv (hnone id inv)

/-- Calls none of which falls back to a taken amount leave the payable invoices unambiguous. -/
theorem Unambiguous.calls (h : Unambiguous db) (run : billing.Calls sparesFallback db db') :
    Unambiguous db' := by
  induction run with
  | refl => exact h
  | tail _ hcall ih =>
    obtain ⟨call, hspares, rfl⟩ := hcall
    exact ih.after hspares

/-- An exact amount names one invoice, after any sequence of calls none of which falls back to a
taken amount: no two payable invoices ask alike, a transfer pays at most one of them exactly, and
one that does is credited to no other. -/
theorem exact_amount_names_one (start : db.invoices.rows = [])
    (run : billing.Calls sparesFallback db db') :
    (∀ id id', db'.AskAlike id id' → id = id') ∧
      (∀ t id id' inv inv', db'.invoices.get? id = some inv → db'.invoices.get? id' = some inv' →
        inv.Payable db'.now → inv'.Payable db'.now → PaysExactly t inv → PaysExactly t inv' →
          id = id') ∧
      ∀ t id inv, db'.invoices.get? id = some inv → inv.Payable db'.now → PaysExactly t inv →
        CreditsOnly id inv db' (billing.after (.resolveDeposit t) db') := by
  have hdb' := (Unambiguous.of_no_invoices start).calls run
  exact ⟨hdb'.alone, fun t id id' inv inv' hinv hinv' hp hp' ↦ hdb'.paysExactly hinv hinv' hp hp',
    fun t id inv ↦ hdb'.resolveDeposit_named⟩

/-- Five customers, no invoice yet, and a token at five hundred dollars. -/
def fiveCustomers : Db where
  users := .ofRows [(1, ⟨"ada".toList, none, none, none, none, [], 0⟩),
    (2, ⟨"bob".toList, none, none, none, none, [], 0⟩),
    (3, ⟨"cyd".toList, none, none, none, none, [], 0⟩),
    (4, ⟨"dan".toList, none, none, none, none, [], 0⟩),
    (5, ⟨"eve".toList, none, none, none, none, [], 0⟩)]
  ledger := []
  invoices := .empty
  deposits := .empty
  wallets := .empty
  stripeSessions := .empty
  now := 0
  price := fun _ ↦ 500
  depositAddress := fun _ ↦ "5D".toList

/-- An invoice of 10.02 dollars that expires unpaid. -/
def expiredUnpaid : List BillingCall :=
  [.createCryptoInvoice 5 .tao (1002 / 100) fun _ ↦ (0, 1), .advance 1801,
    .expireStalePendingInvoices 0]

/-- Invoices of ten dollars, which take the first extra that is free, in turn. -/
def tenDollars (n : ℕ) : List BillingCall :=
  (List.range n).map fun i ↦ .createCryptoInvoice (i / 5 + 1) .tao 10 fun _ ↦ (i + 1, 0)

/-- Two invoices that differ in price. -/
theorem exact_amount_names_one_two :
    ∃ db', fiveCustomers.invoices.rows = [] ∧ billing.Calls sparesFallback fiveCustomers db' ∧
      (db'.invoices.get? 0).isSome ∧ (db'.invoices.get? 2).isSome ∧
      ∀ id id', db'.AskAlike id id' → id = id' := by
  obtain ⟨db', hrun, hsome, hsome'⟩ := Service.exists_calls_of_makeCalls (S := billing)
    (G := sparesFallback) (s := fiveCustomers) (expiredUnpaid ++ tenDollars 2)
    (P := fun db' ↦ (db'.invoices.get? 0).isSome ∧ (db'.invoices.get? 2).isSome)
    (by decide +kernel)
  exact ⟨db', rfl, hrun, hsome, hsome', (exact_amount_names_one rfl hrun).1⟩

/-- When all twenty extras are taken, by twenty open invoices, the next invoice asks for what an
expired one of another price asks for, which a payment could still be for. -/
theorem fallback_amount_taken :
    ∃ db', billing.Calls (fun _ _ ↦ True) fiveCustomers db' ∧ db'.AskAlike 0 21 :=
  Service.exists_calls_of_makeCalls (expiredUnpaid ++ tenDollars 21) (by decide +kernel)

end GreenCompute
