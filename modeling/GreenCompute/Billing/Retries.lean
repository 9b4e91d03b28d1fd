import GreenCompute.Billing.Invoices
import GreenCompute.Foundations.Interruption

/-!
# A transfer is resolved once, whenever the watcher dies

`resolve_deposit` is a chain of transactions: it logs the transfer, looks for an entry that has
paid it, tries its rules, pays, and marks the deposit. The watcher may die between any two of them
and calls it again when it is back.

What carries the retry is that the method writes to the ledger once, and that nothing before that
write changes what the method will find. So the store at each of its transactions is one of two:
the one in which the transfer is logged and nothing else has happened, or one whose ledger is
already the final one (`Careful`). In the first the method runs as if it had never been called. In
the second the transfer has left `unmatched` or has an entry that `earlier_credit` finds, and a
further call writes no entry (`ledger_of_done`).

A confirmation would be answered differently the second time if the invoice had its entry and were
still open: `Consistent` excludes it, and every transaction keeps that.
-/

namespace GreenCompute

open BillingRepository

/-! ## Stores the service can reach -/

/-- An invoice that has its entry is confirmed, and a transfer has one entry under its key. -/
structure Consistent (db : Db) : Prop where
  booked : ∀ id, db.hasTopup id → db.isConfirmed id
  once : ∀ ref : TransferRef,
    (db.ledger.filter fun e ↦ e.depositRef = some (.transfer ref)).length ≤ 1

variable {db : Db}

theorem consistent_of_fresh (h : db.Fresh) : Consistent db := by
  constructor
  · intro id htop
    rw [Db.hasTopup, h.ledger] at htop
    cases htop
  · intro ref
    rw [h.ledger]
    exact Nat.zero_le 1

/-- A confirmed invoice stays confirmed, whatever the transaction is. -/
theorem exec_isConfirmed {id : InvoiceId} (o : BillingOp) (h : db.isConfirmed id) :
    (o.exec db).1.isConfirmed id := by
  have hkept : ∀ {topup : Prop}, InvoiceEffect topup (db.invoices.get? id)
      ((o.exec db).1.invoices.get? id) → (o.exec db).1.isConfirmed id := by
    intro topup heffect
    unfold Db.isConfirmed at h ⊢
    generalize db.invoices.get? id = row at h heffect
    generalize (o.exec db).1.invoices.get? id = row' at heffect ⊢
    revert h
    cases heffect with
    | same => exact fun h ↦ h
    | created => exact nofun
    | paid _ _ confirmed => exact fun _ ↦ congrArg some confirmed
    | reviewed _ _ _ kept => exact fun h ↦ congrArg some (kept (Option.some.inj h))
    | unpaid _ _ was => exact fun h ↦ (was (Option.some.inj h)).elim
  obtain ⟨inv, hinv, hconf⟩ := Option.map_eq_some_iff.mp h
  cases o with
  | confirmAndCreditInvoice k tx ref expired cents =>
    exact hkept (confirm_invoice k tx ref expired cents)
  | createCryptoInvoice k new =>
    simp only [BillingOp.exec, createCryptoInvoice]
    split
    · exact h
    · next hnew =>
      have hne : id ≠ k := by
        rintro rfl
        exact hnew (.inl (by rw [hinv, Option.isSome_some]))
      rwa [Db.isConfirmed, Table.get?_insert, if_neg hne]
  | setReviewStatus k review paidTx reason note =>
    rw [Db.isConfirmed]
    simp only [BillingOp.exec, setReviewStatus, Table.get?_modify]
    split
    · rw [hinv, Option.map_some, Option.map_some, closeReview_confirmed hconf]
    · exact h
  | _ =>
    refine hkept (exec_invoice ?_ id)
    trivial

/-- An invoice gets its entry from the confirmation that confirms it. -/
theorem confirm_hasTopup {id k : InvoiceId} {tx : Text} {ref : Option DepositRef} {expired : Bool}
    {cents : Option ℤ}
    (h : (confirmAndCreditInvoice 0 k tx ref expired cents db).1.hasTopup id) :
    db.hasTopup id ∨ (confirmAndCreditInvoice 0 k tx ref expired cents db).1.isConfirmed id := by
  have hspec := confirmAndCreditInvoice_spec 0 k tx ref expired cents db
  generalize confirmAndCreditInvoice 0 k tx ref expired cents db = out at hspec h ⊢
  cases hspec with
  | credited inv user hget =>
    by_cases hid : id = k
    · right
      rw [Db.isConfirmed, Table.get?_modify, if_pos hid, hid, hget]
      rfl
    · left
      obtain ⟨e, he, htop⟩ := List.any_eq_true.mp h
      rcases List.mem_append.mp he with he | he
      · exact List.any_eq_true.mpr ⟨e, he, htop⟩
      · obtain rfl := List.mem_singleton.mp he
        have hk : k = id := by simpa [isInvoiceTopup] using htop
        exact (hid hk.symm).elim
  | _ => exact .inl h

/-- Every transaction keeps the store consistent. -/
theorem Consistent.exec (hi : Consistent db) (o : BillingOp) : Consistent (o.exec db).1 := by
  constructor
  · intro id htop
    have hold : db.hasTopup id → (o.exec db).1.isConfirmed id :=
      fun h ↦ exec_isConfirmed o (hi.booked id h)
    cases exec_ledger o db with
    | none hsame =>
      rw [Db.hasTopup, hsame] at htop
      exact hold htop
    | confirmed k tx ref expired cents ho =>
      subst ho
      exact (confirm_hasTopup htop).elim hold fun h ↦ h
    | credited _ _ _ _ _ e happ _ _ reference =>
      rw [Db.hasTopup, happ, List.any_append, Bool.or_eq_true] at htop
      refine hold (htop.resolve_right fun hnew ↦ ?_)
      simp [isInvoiceTopup, reference] at hnew
  · intro ref
    have hnone : ∀ e : LedgerEntry, (e.depositRef = some (.transfer ref) →
        db.refTaken (some (.transfer ref)) = false) →
        ((db.ledger ++ [e]).filter fun e ↦ e.depositRef = some (.transfer ref)).length ≤ 1 := by
      intro e hfree
      rw [List.filter_append, List.length_append]
      by_cases hkey : e.depositRef = some (.transfer ref)
      · have hempty : (db.ledger.filter fun e ↦ e.depositRef = some (.transfer ref)) = [] := by
          refine List.filter_eq_nil_iff.mpr fun e' he' htaken ↦ ?_
          have := refTaken_iff.mpr ⟨e', he', of_decide_eq_true htaken⟩
          exact Bool.false_ne_true ((hfree hkey).symm.trans this)
        rw [hempty, List.length_nil, Nat.zero_add]
        exact List.length_filter_le _ _
      · rw [List.filter_singleton, decide_eq_false hkey]
        exact hi.once ref
    cases exec_ledger o db with
    | none hsame =>
      rw [hsame]
      exact hi.once ref
    | confirmed k tx key expired cents ho e happ hkey _ _ _ free =>
      rw [happ]
      refine hnone e fun h ↦ ?_
      rwa [← h, hkey]
    | credited r u cents how ho e happ hkey _ _ dep logged free =>
      rw [happ]
      refine hnone e fun h ↦ Bool.eq_false_of_not_eq_true fun htaken ↦ ?_
      obtain rfl : r = ref := by
        rw [hkey] at h
        exact DepositRef.transfer.inj (Option.some.inj h)
      obtain ⟨e', he', htaken⟩ := refTaken_iff.mp htaken
      have hown := (Option.or_eq_none_iff.mp free).1
      exact List.find?_eq_none.mp hown e' he' (decide_eq_true htaken)

/-! ## The state of a transfer -/

/-- The entry that has paid a transfer, as `earlier_credit` looks for it. -/
def paymentOf (t : Transfer) (db : Db) : Option LedgerEntry :=
  earlierCreditRow t.depositRef t.info.txHash db.ledger

/-- The row of the transfer in the deposit log says who was credited, and with what. -/
def LogAgrees (t : Transfer) (db : Db) : Prop :=
  ∃ dep, db.deposits.get? t.depositRef = some dep ∧
    match paymentOf t db with
    | some e => dep.status = .credited ∧ dep.userId = some e.userId ∧
        dep.creditedCents = some e.amountCents
    | none => dep.status ≠ .credited

/-- The transfer was logged as it was read, if it was, and if it has been resolved its row says who
was credited. -/
structure Retriable (t : Transfer) (db : Db) : Prop extends Consistent db where
  logged : ∀ info, db.logged t.depositRef = some info → info.txHash = t.info.txHash
  resolved : ∀ dep, db.deposits.get? t.depositRef = some dep → dep.status ≠ .unmatched →
    LogAgrees t db

/-- The transfer is logged, and nothing has been decided about it. -/
structure Undecided (t : Transfer) (db : Db) : Prop extends Retriable t db where
  row : ∃ dep, db.deposits.get? t.depositRef = some dep ∧ dep.status = .unmatched

/-- Nor has anything paid it. -/
structure AwaitsPayment (t : Transfer) (db : Db) : Prop extends Undecided t db where
  unpaid : paymentOf t db = none

/-- The transfer has been resolved. -/
structure Resolved (t : Transfer) (db : Db) : Prop extends Retriable t db where
  row : ∃ dep, db.deposits.get? t.depositRef = some dep ∧ dep.status ≠ .unmatched

/-- The transfer has been resolved, or an entry has paid it: whatever is left to do, it is not in
the ledger. -/
structure Done (t : Transfer) (db : Db) : Prop extends Retriable t db where
  row : ∃ dep, db.deposits.get? t.depositRef = some dep ∧
    (dep.status = .unmatched → (paymentOf t db).isSome)

variable {t : Transfer}

theorem Resolved.done (h : Resolved t db) : Done t db := by
  obtain ⟨dep, hdep, hstatus⟩ := h.row
  exact ⟨h.toRetriable, dep, hdep, fun hu ↦ (hstatus hu).elim⟩

theorem Resolved.agrees (h : Resolved t db) : LogAgrees t db := by
  obtain ⟨dep, hdep, hstatus⟩ := h.row
  exact h.resolved dep hdep hstatus

theorem AwaitsPayment.agrees (h : AwaitsPayment t db) : LogAgrees t db := by
  obtain ⟨dep, hdep, hstatus⟩ := h.row
  refine ⟨dep, hdep, ?_⟩
  rw [h.unpaid, hstatus]
  nofun

/-- No entry has the key of a transfer that nothing has paid. -/
theorem AwaitsPayment.free (h : AwaitsPayment t db) :
    db.refTaken (some (.transfer t.depositRef)) = false := by
  refine Bool.eq_false_of_not_eq_true fun htaken ↦ ?_
  obtain ⟨e, he, hkey⟩ := refTaken_iff.mp htaken
  have hown := (Option.or_eq_none_iff.mp h.unpaid).1
  exact List.find?_eq_none.mp hown e he (decide_eq_true hkey)

/-- An entry under the transfer's key, after others that have not paid it, is what has paid it. -/
theorem paymentOf_append {db' : Db} {e : LedgerEntry} (h : paymentOf t db = none)
    (happ : db'.ledger = db.ledger ++ [e]) (hkey : e.depositRef = some (.transfer t.depositRef)) :
    paymentOf t db' = some e := by
  have hown := (Option.or_eq_none_iff.mp h).1
  unfold paymentOf earlierCreditRow
  rw [happ, List.find?_append, hown, Option.none_or]
  simp [hkey]

/-! ## Transactions about one transfer -/

theorem Retriable.of_deposits {db' : Db} (h : Undecided t db) (hc : Consistent db')
    (hsame : db'.deposits = db.deposits) : Retriable t db' := by
  obtain ⟨dep, hdep, hstatus⟩ := h.row
  refine ⟨hc, fun info hinfo ↦ h.logged info ?_, fun dep' hdep' hresolved ↦ ?_⟩
  · rwa [SameLog.of_deposits hsame] at hinfo
  · rw [hsame, hdep] at hdep'
    obtain rfl := Option.some.inj hdep'
    exact (hresolved hstatus).elim

/-- What is written to the row of a transfer when it is resolved. -/
theorem Resolved.of_row {db' : Db} {dep dep' : CryptoDeposit} (h : Undecided t db)
    (hdep : db.deposits.get? t.depositRef = some dep) (hc : Consistent db')
    (hrow : db'.deposits.get? t.depositRef = some dep') (hinfo : dep'.info = dep.info)
    (hstatus : dep'.status ≠ .unmatched)
    (hagrees : match paymentOf t db' with
      | some e => dep'.status = .credited ∧ dep'.userId = some e.userId ∧
          dep'.creditedCents = some e.amountCents
      | none => dep'.status ≠ .credited) : Resolved t db' := by
  refine ⟨⟨hc, fun info h' ↦ ?_, fun _ _ _ ↦ ⟨dep', hrow, hagrees⟩⟩, dep', hrow, hstatus⟩
  rw [Db.logged_of_get? hrow, hinfo] at h'
  exact h.logged info (by rw [Db.logged_of_get? hdep, h'])

theorem mark_get? {dep : CryptoDeposit} {ref : TransferRef} (f : DepositFields)
    (h : db.deposits.get? ref = some dep) :
    (markDeposit ref f db).deposits.get? ref = some (f.apply dep) := by
  rw [markDeposit, Table.get?_modify, if_pos rfl, h, Option.map_some]

/-- Marking a deposit resolves the transfer, where the mark says who was credited. -/
theorem Resolved.of_mark (h : Undecided t db) {f : DepositFields}
    (hstatus : ∀ dep, (f.apply dep).status ≠ .unmatched)
    (hagrees : ∀ dep, match paymentOf t db with
      | some e => (f.apply dep).status = .credited ∧ (f.apply dep).userId = some e.userId ∧
          (f.apply dep).creditedCents = some e.amountCents
      | none => (f.apply dep).status ≠ .credited) :
    Resolved t (markDeposit t.depositRef f db) := by
  obtain ⟨dep, hdep, -⟩ := h.row
  exact .of_row h hdep (h.toConsistent.exec (.markDeposit t.depositRef f)) (mark_get? f hdep) rfl
    (hstatus dep) (hagrees dep)

namespace BillingService

open Program (Along eval Uses)

/-- A method that is to settle the transfer, run from a store in which nothing has been decided: at
each of its transactions nothing has happened, or the ledger is the final one. At its end the
transfer has been resolved, or nothing has happened and nothing has paid it. -/
structure Careful {α : Type} (t : Transfer) (p : Program Billing α) (db : Db) : Prop where
  points : Along billing.toMachine (fun _ s ↦ s = db ∨
    Done t s ∧ s.ledger = (eval billing.toMachine p db).1.ledger) p db
  ends : (eval billing.toMachine p db).1 = db ∧ paymentOf t db = none ∨
    Resolved t (eval billing.toMachine p db).1

/-- A rule of `resolve_deposit` is careful, and one that passes has changed nothing. -/
structure Ruled (t : Transfer) (p : Program Billing (Option Resolution)) (db : Db) : Prop
    extends Careful t p db where
  passes : (eval billing.toMachine p db).2 = none →
    Along billing.toMachine (fun _ s ↦ s = db) p db ∧ (eval billing.toMachine p db).1 = db

/-- A method that reads is at the same store throughout. -/
theorem still_of_reads {α : Type} {p : Program Billing α} (h : p.Uses Reads) (db : Db) :
    Along billing.toMachine (fun _ s ↦ s = db) p db ∧ (eval billing.toMachine p db).1 = db := by
  induction p with
  | done a => exact ⟨trivial, rfl⟩
  | call o k ih =>
    have hsame : (billing.exec o db).1 = db := h.1 db
    obtain ⟨hrest, hend⟩ := ih _ (h.2 (billing.exec o db).2)
    refine ⟨⟨rfl, ?_⟩, ?_⟩
    · rw [hsame]
      exact hrest
    · rw [Program.eval_call, hsame]
      exact hend

variable {α : Type}

/-- A method may first read. -/
theorem Careful.after_reads {p : Program Billing α} {β : Type} {f : α → Program Billing β}
    (h : p.Uses Reads) (hf : Careful t (f (eval billing.toMachine p db).2) db) :
    Careful t (p >>= f) db := by
  obtain ⟨hstill, hend⟩ := still_of_reads h db
  have heval : eval billing.toMachine (p >>= f) db
      = eval billing.toMachine (f (eval billing.toMachine p db).2) db := by
    rw [Program.eval_bind, hend]
  constructor
  · rw [heval]
    refine (hstill.mono fun _ s hs ↦ .inl hs).bind ?_
    rw [hend]
    exact hf.points
  · rw [heval]
    exact hf.ends

theorem Ruled.after_reads {p : Program Billing α} {f : α → Program Billing (Option Resolution)}
    (h : p.Uses Reads) (hf : Ruled t (f (eval billing.toMachine p db).2) db) :
    Ruled t (p >>= f) db := by
  obtain ⟨hstill, hend⟩ := still_of_reads h db
  refine ⟨hf.toCareful.after_reads h, fun hpass ↦ ?_⟩
  rw [Program.eval_bind, hend] at hpass ⊢
  obtain ⟨hrest, hsame⟩ := hf.passes hpass
  refine ⟨hstill.bind ?_, hsame⟩
  rw [hend]
  exact hrest

theorem ruled_done (h : AwaitsPayment t db) (outcome : Option Resolution) :
    Ruled t (.done outcome) db :=
  ⟨⟨trivial, .inl ⟨rfl, h.unpaid⟩⟩, fun _ ↦ ⟨trivial, rfl⟩⟩

/-- A transaction that has changed nothing. -/
theorem Ruled.answered {o : BillingOp} {r : o.Ans}
    {f : o.Ans → Program Billing (Option Resolution)} (h : o.exec db = (db, r))
    (hf : Ruled t (f r) db) : Ruled t (call o >>= f) db := by
  have hnext : eval billing.toMachine (call o >>= f) db = eval billing.toMachine (f r) db := by
    rw [Program.eval_bind, eval_transaction]
    exact congrArg (fun out : Db × o.Ans ↦ eval billing.toMachine (f out.2) out.1) h
  have halong : ∀ {φ : BillingOp → Db → Prop}, φ o db → Along billing.toMachine φ (f r) db →
      Along billing.toMachine φ (call o >>= f) db := by
    intro φ ho hrest
    refine ⟨ho, ?_⟩
    rw [show billing.exec o db = (db, r) from h]
    exact hrest
  refine ⟨⟨?_, ?_⟩, fun hpass ↦ ?_⟩
  · rw [hnext]
    exact halong (.inl rfl) hf.points
  · rw [hnext]
    exact hf.ends
  · rw [hnext] at hpass ⊢
    exact ⟨halong rfl (hf.passes hpass).1, (hf.passes hpass).2⟩

/-- A transaction that pays the transfer, after which the method has settled it. -/
theorem Ruled.paid {o : BillingOp} {r : o.Ans} {db' : Db}
    {f : o.Ans → Program Billing (Option Resolution)} (h : o.exec db = (db', r))
    (settles : (eval billing.toMachine (f r) db').2 ≠ none)
    (points : Along billing.toMachine (fun _ s ↦ Done t s ∧
      s.ledger = (eval billing.toMachine (f r) db').1.ledger) (f r) db')
    (ends : Resolved t (eval billing.toMachine (f r) db').1) : Ruled t (call o >>= f) db := by
  have hnext : eval billing.toMachine (call o >>= f) db = eval billing.toMachine (f r) db' := by
    rw [Program.eval_bind, eval_transaction]
    exact congrArg (fun out : Db × o.Ans ↦ eval billing.toMachine (f out.2) out.1) h
  refine ⟨⟨?_, ?_⟩, fun hpass ↦ ?_⟩
  · rw [hnext]
    refine ⟨.inl rfl, ?_⟩
    rw [show billing.exec o db = (db', r) from h]
    exact points.mono fun _ s hs ↦ .inr hs
  · rw [hnext]
    exact .inr ends
  · rw [hnext] at hpass
    exact (settles hpass).elim

/-- A rule that passes leaves the transfer to what follows. -/
theorem Careful.orElse {rule : Program Billing (Option Resolution)} {β : Type}
    {settled : Resolution → β} {rest : Program Billing β} (h₁ : Ruled t rule db)
    (h₂ : Careful t rest db) :
    Careful t (rule >>= fun
      | some outcome => .done (settled outcome)
      | none => rest) db := by
  have hpasses := h₁.passes
  have hends := h₁.ends
  have hpoints := h₁.points
  cases houtcome : (eval billing.toMachine rule db).2 with
  | none =>
    obtain ⟨hstill, hend⟩ := hpasses houtcome
    have heval : ∀ f : Option Resolution → Program Billing β,
        eval billing.toMachine (rule >>= f) db = eval billing.toMachine (f none) db := by
      intro f
      rw [Program.eval_bind, houtcome, hend]
    constructor
    · rw [heval]
      refine (hstill.mono fun _ s hs ↦ .inl hs).bind ?_
      rw [houtcome, hend]
      exact h₂.points
    · rw [heval]
      exact h₂.ends
  | some outcome =>
    have heval : (eval billing.toMachine (rule >>= fun
        | some outcome => .done (settled outcome)
        | none => rest) db).1 = (eval billing.toMachine rule db).1 := by
      rw [Program.eval_bind, houtcome]
      rfl
    constructor
    · rw [heval]
      refine hpoints.bind ?_
      rw [houtcome]
      trivial
    · rw [heval]
      exact hends

/-- Rules are tried one after the other. -/
theorem Ruled.next {rule rest : Program Billing (Option Resolution)} (h₁ : Ruled t rule db)
    (h₂ : Ruled t rest db) :
    Ruled t (rule >>= fun
      | some outcome => .done (some outcome)
      | none => rest) db := by
  refine ⟨Careful.orElse h₁ h₂.toCareful, fun hpass ↦ ?_⟩
  cases houtcome : (eval billing.toMachine rule db).2 with
  | none =>
    obtain ⟨hstill, hend⟩ := h₁.passes houtcome
    rw [Program.eval_bind, houtcome, hend] at hpass ⊢
    obtain ⟨hrest, hsame⟩ := h₂.passes hpass
    refine ⟨hstill.bind ?_, hsame⟩
    rw [houtcome, hend]
    exact hrest
  | some outcome =>
    rw [Program.eval_bind, houtcome] at hpass
    cases hpass

/-! ### The rules -/

/-- An invoice that is open is not answered as paid already, and an entry for it is the transfer's
own. -/
theorem ruled_creditInvoice {id : InvoiceId} {inv : CryptoInvoice} {how : MatchedBy}
    {cents : Option ℤ} {expired : Bool} (h : AwaitsPayment t db)
    (hinv : db.invoices.get? id = some inv) (hopen : inv.status ≠ .confirmed) :
    Ruled t (creditInvoice id inv t how cents expired) db := by
  obtain ⟨dep, hdep, hstatus⟩ := h.row
  have hspec := confirmAndCreditInvoice_spec 0 id (recordedHash t) (some (.transfer t.depositRef))
    expired cents db
  have hexec := Consistent.exec h.toConsistent (.confirmAndCreditInvoice id (recordedHash t)
    (some (.transfer t.depositRef)) expired cents)
  generalize hout : BillingOp.exec (.confirmAndCreditInvoice id (recordedHash t)
    (some (.transfer t.depositRef)) expired cents) db = out at hexec
  rw [show confirmAndCreditInvoice 0 id (recordedHash t) (some (.transfer t.depositRef)) expired
    cents db = out from hout] at hspec
  unfold creditInvoice
  cases hspec with
  | notFound => exact .answered hout (ruled_done h _)
  | refused => exact .answered hout (ruled_done h _)
  | raised => exact .answered hout (ruled_done h _)
  | alreadyConfirmed inv' _ paid =>
    rw [Db.seenLedger_zero] at paid
    exact (hopen ((isConfirmed_of_get? hinv).mp (h.booked id paid))).elim
  | duplicate _ _ taken => exact (Bool.false_ne_true (h.free.symm.trans taken)).elim
  | credited inv' user hget =>
    obtain rfl : inv = inv' := Option.some.inj (hinv.symm.trans hget)
    have hpaid : ∀ db' : Db, db'.ledger = db.ledger ++ [⟨inv.userId, cents.getD inv.totalCredits,
        user.balanceCredits + cents.getD inv.totalCredits, .topup, some (.invoice id),
        some (.transfer t.depositRef)⟩] → paymentOf t db' = some ⟨inv.userId,
          cents.getD inv.totalCredits, user.balanceCredits + cents.getD inv.totalCredits, .topup,
          some (.invoice id), some (.transfer t.depositRef)⟩ :=
      fun db' happ ↦ paymentOf_append h.unpaid happ rfl
    refine .paid hout nofun ⟨⟨⟨.of_deposits h.toUndecided hexec rfl, dep, hdep, fun _ ↦ ?_⟩, rfl⟩,
      trivial⟩ (.of_row h.toUndecided hdep (hexec.exec (.markDeposit t.depositRef _))
        (mark_get? _ hdep) rfl nofun ?_)
    · rw [hpaid _ rfl]
      rfl
    · rw [hpaid _ rfl]
      exact ⟨rfl, rfl, rfl⟩

/-- The invoices that ask for the exact amount are tried in turn. -/
theorem ruled_creditExact {l : List (InvoiceId × CryptoInvoice)} (h : AwaitsPayment t db)
    (hl : ∀ r ∈ l, db.invoices.get? r.1 = some r.2 ∧ r.2.status ≠ .confirmed) :
    Ruled t (creditExact t l) db := by
  induction l with
  | nil => exact ruled_done h _
  | cons r l ih =>
    obtain ⟨hget, hopen⟩ := hl r (List.mem_cons_self ..)
    refine Ruled.next (ruled_creditInvoice h hget hopen) ?_
    exact ih fun r hr ↦ hl r (List.mem_cons_of_mem _ hr)

theorem open_of_mem_invoicesWhere {c : Currency} {address : Text}
    {condition : CryptoInvoice → Bool} (hc : ∀ inv, condition inv = true → inv.status ≠ .confirmed)
    {r : InvoiceId × CryptoInvoice} (h : r ∈ invoicesWhere c address condition db) :
    db.invoices.get? r.1 = some r.2 ∧ r.2.status ≠ .confirmed := by
  have hrow := (List.mem_insertionSort _).mp (List.mem_filter.mp h).1
  obtain ⟨hget, hcond⟩ := Table.mem_select.mp hrow
  exact ⟨hget, hc r.2 (of_decide_eq_true hcond).2⟩

theorem open_of_mem_pending {c : Currency} {address : Text} {r : InvoiceId × CryptoInvoice}
    (h : r ∈ pendingInvoices c address db) :
    db.invoices.get? r.1 = some r.2 ∧ r.2.status ≠ .confirmed := by
  refine open_of_mem_invoicesWhere (fun inv hinv ↦ ?_) h
  rw [of_decide_eq_true hinv]
  nofun

theorem open_of_mem_expired {c : Currency} {address : Text} {since : Time}
    {r : InvoiceId × CryptoInvoice} (h : r ∈ recentlyExpiredInvoices c address since db) :
    db.invoices.get? r.1 = some r.2 ∧ r.2.status ≠ .confirmed := by
  refine open_of_mem_invoicesWhere (fun inv hinv ↦ ?_) h
  rw [(of_decide_eq_true hinv).1]
  nofun

theorem ruled_creditLate (h : AwaitsPayment t db) : Ruled t (creditLate t) db := by
  unfold creditLate
  refine Ruled.answered rfl (Ruled.answered rfl ?_)
  generalize hfit : List.filter _ _ = fit
  split
  · next id inv =>
    have hmem : (id, inv) ∈ [(id, inv)] := List.mem_singleton_self _
    rw [← hfit] at hmem
    obtain ⟨hget, hopen⟩ := open_of_mem_expired (List.mem_filter.mp hmem).1
    exact Ruled.after_reads (reads_depositValueCents _ _ _) (ruled_creditInvoice h hget hopen)
  · exact ruled_done h _

/-- A transfer that nothing has paid is credited to the owner of the wallet it came from. -/
theorem ruled_creditDeposit {owner : UserId} {cents : ℤ} (h : AwaitsPayment t db) :
    Ruled t (do
      match ← call (.creditDeposit t.depositRef owner cents .wallet) with
      | .credited .. => pure (some (.matched .wallet))
      | .raised => pure (some .raised)
      | _ => pure (some .seen)) db := by
  obtain ⟨dep, hdep, hstatus⟩ := h.row
  have hspec := creditDeposit_spec 0 t.depositRef owner cents .wallet db
  have hexec := Consistent.exec h.toConsistent (.creditDeposit t.depositRef owner cents .wallet)
  generalize hout : BillingOp.exec (.creditDeposit t.depositRef owner cents .wallet) db = out
    at hexec
  rw [show creditDeposit 0 t.depositRef owner cents .wallet db = out from hout] at hspec
  cases hspec with
  | notLogged hnone => cases hdep.symm.trans hnone
  | raised => exact .answered hout (ruled_done h _)
  | wasCredited dep' hget again =>
    obtain rfl : dep = dep' := Option.some.inj (hdep.symm.trans hget)
    rcases again with hcredited | htaken
    · cases hstatus.symm.trans hcredited
    · exact (Bool.false_ne_true (h.free.symm.trans htaken)).elim
  | earlier dep' hget e row =>
    obtain rfl : dep = dep' := Option.some.inj (hdep.symm.trans hget)
    rw [Db.seenLedger_zero, h.logged dep.info (Db.logged_of_get? hdep)] at row
    cases h.unpaid.symm.trans row
  | credited dep' user hget =>
    obtain rfl : dep = dep' := Option.some.inj (hdep.symm.trans hget)
    have hrow : (db.deposits.insert t.depositRef ⟨dep.info, .credited, some .wallet, dep.invoiceId,
        some owner, some cents, dep.observedAt⟩).get? t.depositRef = some ⟨dep.info, .credited,
          some .wallet, dep.invoiceId, some owner, some cents, dep.observedAt⟩ := by
      rw [Table.get?_insert, if_pos rfl]
    refine .paid hout (Option.some_ne_none _) trivial
      (.of_row h.toUndecided hdep hexec hrow rfl nofun ?_)
    rw [paymentOf_append h.unpaid rfl rfl]
    exact ⟨rfl, rfl, rfl⟩

theorem ruled_creditWallet (h : AwaitsPayment t db) : Ruled t (creditWallet t) db := by
  unfold creditWallet
  split
  · exact ruled_done h _
  · next chain hchain =>
    refine Ruled.answered (r := db.wallets.get? (chain, t.info.sender)) rfl ?_
    cases db.wallets.get? (chain, t.info.sender) with
    | none => exact ruled_done h _
    | some owner =>
      refine Ruled.after_reads (reads_depositValueCents _ _ _) ?_
      generalize (eval billing.toMachine (depositValueCents ..) db).2 = cents
      split
      · exact ruled_creditDeposit h
      · exact ruled_done h _

theorem ruled_creditOneCustomersInvoice {l : List (InvoiceId × CryptoInvoice)}
    (h : AwaitsPayment t db)
    (hl : ∀ r ∈ l, db.invoices.get? r.1 = some r.2 ∧ r.2.status ≠ .confirmed) :
    Ruled t (creditOneCustomersInvoice t l) db := by
  unfold creditOneCustomersInvoice
  refine Ruled.answered rfl (Ruled.answered rfl ?_)
  dsimp only
  split
  · exact ruled_done h _
  · split
    · next id inv rest hopen =>
      have hmem : (id, inv) ∈ (id, inv) :: rest := List.mem_cons_self ..
      rw [← hopen] at hmem
      obtain ⟨hget, hunpaid⟩ := hl _ (List.mem_filter.mp hmem).1
      exact ruled_creditInvoice h hget hunpaid
    · next id inv _ hlast =>
      have hmem := List.mem_of_mem_getLast? hlast
      obtain ⟨hget, hunpaid⟩ := open_of_mem_expired (List.mem_filter.mp hmem).1
      exact Ruled.after_reads (reads_depositValueCents _ _ _) (ruled_creditInvoice h hget hunpaid)
    · exact ruled_done h _

theorem careful_leaveUnmatched (h : AwaitsPayment t db) : Careful t (leaveUnmatched t) db := by
  refine Careful.after_reads (reads_depositValueCents _ _ _) ?_
  split
  · have hignored : Resolved t (markDeposit t.depositRef { status := some .ignored } db) := by
      refine .of_mark h.toUndecided (fun _ ↦ nofun) fun dep ↦ ?_
      rw [h.unpaid]
      nofun
    exact ⟨⟨.inl rfl, trivial⟩, .inr hignored⟩
  · exact ⟨trivial, .inl ⟨rfl, h.unpaid⟩⟩

theorem careful_settleUnpaid (h : AwaitsPayment t db) : Careful t (settleUnpaid t) db := by
  have hopen : ∀ r ∈ pendingInvoices t.info.currency t.info.depositAddress db,
      db.invoices.get? r.1 = some r.2 ∧ r.2.status ≠ .confirmed := fun r hr ↦ open_of_mem_pending hr
  refine Careful.after_reads (Program.uses_op.mpr fun _ ↦ rfl) ?_
  refine Careful.orElse (ruled_creditExact h fun r hr ↦ hopen r (List.mem_filter.mp hr).1) ?_
  refine Careful.orElse (ruled_creditLate h) (Careful.orElse (ruled_creditWallet h) ?_)
  exact Careful.orElse (ruled_creditOneCustomersInvoice h hopen) (careful_leaveUnmatched h)

/-- Once the transfer is logged and found unmatched, an entry that has paid it is recognised. -/
theorem careful_settleDeposit (h : Undecided t db) : Careful t (settleDeposit t) db := by
  refine Careful.after_reads (Program.uses_op.mpr fun _ ↦ rfl) ?_
  have hanswer : (eval billing.toMachine (call (.earlierCredit t.depositRef t.info.txHash)) db).2
      = earlierCredit t.depositRef t.info.txHash db := rfl
  rw [hanswer, earlierCredit]
  cases hrow : earlierCreditRow t.depositRef t.info.txHash db.ledger with
  | none => exact careful_settleUnpaid ⟨h, hrow⟩
  | some e =>
    refine ⟨⟨.inl rfl, trivial⟩, .inr (.of_mark h (fun _ ↦ nofun) fun dep ↦ ?_)⟩
    rw [paymentOf, hrow]
    exact ⟨rfl, rfl, rfl⟩

end BillingService

/-! ## A call, and the call after it -/

open BillingService Program

theorem after_resolveDeposit (t : Transfer) (db : Db) : billing.after (.resolveDeposit t) db
    = (eval billing.toMachine (resolveDeposit t) db).1 := by
  have hbody : billing.body (.resolveDeposit t) = resolveDeposit t >>= fun _ ↦ .done () := rfl
  rw [Service.after, hbody, eval_bind]
  rfl

/-- A resolved transfer is left alone. -/
theorem resolve_of_resolved (h : Resolved t db) :
    Along billing.toMachine (fun _ s ↦ s = db) (resolveDeposit t) db ∧
      billing.after (.resolveDeposit t) db = db := by
  obtain ⟨dep, hdep, hstatus⟩ := h.row
  have hrecord : billing.exec (.recordDeposit t) db = (db, dep.status) := by
    change recordDeposit t db = _
    rw [recordDeposit, hdep]
  constructor
  · refine along_call rfl ?_
    rw [hrecord]
    dsimp only
    rw [if_pos hstatus]
    trivial
  · rw [after_resolveDeposit, resolveDeposit, eval_bind, eval_transaction, hrecord]
    dsimp only
    rw [if_pos hstatus]
    rfl

/-- A transfer that has not been resolved is logged, if it was not, and then settled. -/
theorem resolve_of_unmatched (h : Retriable t db)
    (hrow : ∀ dep, db.deposits.get? t.depositRef = some dep → dep.status = .unmatched) :
    ∃ db', Undecided t db' ∧ db'.ledger = db.ledger ∧
      (∀ φ : BillingOp → Db → Prop, φ (.recordDeposit t) db →
        Along billing.toMachine φ (settleDeposit t) db' →
        Along billing.toMachine φ (resolveDeposit t) db) ∧
      billing.after (.resolveDeposit t) db = (eval billing.toMachine (settleDeposit t) db').1 := by
  obtain ⟨db', hrecord, hundecided, hledger⟩ : ∃ db', billing.exec (.recordDeposit t) db
      = (db', .unmatched) ∧ Undecided t db' ∧ db'.ledger = db.ledger := by
    cases hdep : db.deposits.get? t.depositRef with
    | some dep =>
      refine ⟨db, ?_, ⟨h, dep, hdep, hrow dep hdep⟩, rfl⟩
      change recordDeposit t db = _
      rw [recordDeposit, hdep]
      exact congrArg (Prod.mk db) (hrow dep hdep)
    | none =>
      have hc := h.toConsistent.exec (.recordDeposit t)
      have hexec : recordDeposit t db = ({ db with
          deposits := db.deposits.insert t.depositRef
            ⟨t.info, .unmatched, none, none, none, none, db.now⟩ }, .unmatched) := by
        rw [recordDeposit, hdep]
      rw [show BillingOp.exec (.recordDeposit t) db = _ from hexec] at hc
      have hget : (db.deposits.insert t.depositRef
          ⟨t.info, .unmatched, none, none, none, none, db.now⟩).get? t.depositRef
            = some ⟨t.info, .unmatched, none, none, none, none, db.now⟩ := by
        rw [Table.get?_insert, if_pos rfl]
      refine ⟨_, hexec, ⟨⟨hc, fun info hinfo ↦ ?_, fun dep hdep' hresolved ↦ ?_⟩, _, hget, rfl⟩,
        rfl⟩
      · rw [Db.logged_of_get? hget] at hinfo
        exact congrArg TransferInfo.txHash (Option.some.inj hinfo).symm
      · obtain rfl := Option.some.inj (hget.symm.trans hdep')
        exact (hresolved rfl).elim
  refine ⟨db', hundecided, hledger, fun φ hφ hrest ↦ ?_, ?_⟩
  · refine along_call hφ ?_
    rw [hrecord]
    exact hrest
  · rw [after_resolveDeposit, resolveDeposit, eval_bind, eval_transaction, hrecord]
    rfl

/-- A further call for a transfer that has been paid writes no entry. -/
theorem ledger_of_paid {e : LedgerEntry} (h : Retriable t db) (hpaid : paymentOf t db = some e) :
    (billing.after (.resolveDeposit t) db).ledger = db.ledger := by
  by_cases hrow : ∀ dep, db.deposits.get? t.depositRef = some dep → dep.status = .unmatched
  · obtain ⟨db', -, hledger, -, hafter⟩ := resolve_of_unmatched h hrow
    have hanswer : (billing.exec (.earlierCredit t.depositRef t.info.txHash) db').2
        = earlierCredit t.depositRef t.info.txHash db' := rfl
    rw [hafter, settleDeposit, eval_bind, eval_transaction, hanswer, earlierCredit, hledger,
      show earlierCreditRow t.depositRef t.info.txHash db.ledger = some e from hpaid]
    exact hledger
  · obtain ⟨dep, hdep⟩ := not_forall.mp hrow
    obtain ⟨hdep, hstatus⟩ := Classical.not_imp.mp hdep
    rw [(resolve_of_resolved ⟨h, dep, hdep, hstatus⟩).2]

theorem ledger_of_done (h : Done t db) :
    (billing.after (.resolveDeposit t) db).ledger = db.ledger := by
  obtain ⟨dep, hdep, hpaid⟩ := h.row
  by_cases hstatus : dep.status = .unmatched
  · obtain ⟨e, he⟩ := Option.isSome_iff_exists.mp (hpaid hstatus)
    exact ledger_of_paid h.toRetriable he
  · rw [(resolve_of_resolved ⟨h.toRetriable, dep, hdep, hstatus⟩).2]

/-- From this store a call leaves the ledger that it leaves from the first one. -/
def Resumes (t : Transfer) (db s : Db) : Prop :=
  Retriable t s ∧ (billing.after (.resolveDeposit t) s).ledger
    = (billing.after (.resolveDeposit t) db).ledger

/-- At each of its transactions, and at its end, a call may be made again. -/
theorem resolve_points (h : Retriable t db) :
    Along billing.toMachine (fun _ ↦ Resumes t db) (resolveDeposit t) db ∧
      Resumes t db (billing.after (.resolveDeposit t) db) ∧
      LogAgrees t (billing.after (.resolveDeposit t) db) := by
  by_cases hrow : ∀ dep, db.deposits.get? t.depositRef = some dep → dep.status = .unmatched
  · obtain ⟨db', hundecided, hledger, halong, hafter⟩ := resolve_of_unmatched h hrow
    -- From the store in which the transfer is logged, the call does the same.
    have hagain : billing.after (.resolveDeposit t) db' = billing.after (.resolveDeposit t) db := by
      obtain ⟨dep, hdep, hstatus⟩ := hundecided.row
      have hrecord : billing.exec (.recordDeposit t) db' = (db', .unmatched) := by
        change recordDeposit t db' = _
        rw [recordDeposit, hdep]
        exact congrArg (Prod.mk db') hstatus
      rw [hafter, after_resolveDeposit, resolveDeposit, eval_bind, eval_transaction, hrecord]
      rfl
    have hcareful := careful_settleDeposit hundecided
    have hend : billing.after (.resolveDeposit t) db = db' ∧ paymentOf t db' = none ∨
        Resolved t (billing.after (.resolveDeposit t) db) := by
      rw [hafter]
      exact hcareful.ends
    refine ⟨halong _ ⟨h, rfl⟩ (hcareful.points.mono ?_), ?_⟩
    · rintro - s (rfl | ⟨hdone, hsame⟩)
      · exact ⟨hundecided.toRetriable, congrArg Db.ledger hagain⟩
      · exact ⟨hdone.toRetriable, by rw [ledger_of_done hdone, hsame, hafter]⟩
    · rcases hend with ⟨hend, hunpaid⟩ | hresolved
      · rw [hend]
        exact ⟨⟨hundecided.toRetriable, congrArg Db.ledger hagain⟩,
          AwaitsPayment.agrees ⟨hundecided, hunpaid⟩⟩
      · exact ⟨⟨hresolved.toRetriable, ledger_of_done hresolved.done⟩, hresolved.agrees⟩
  · obtain ⟨dep, hdep⟩ := not_forall.mp hrow
    obtain ⟨hdep, hstatus⟩ := Classical.not_imp.mp hdep
    have hresolved : Resolved t db := ⟨h, dep, hdep, hstatus⟩
    obtain ⟨halong, hafter⟩ := resolve_of_resolved hresolved
    rw [hafter]
    refine ⟨halong.mono ?_, ⟨h, rfl⟩, hresolved.agrees⟩
    rintro - s rfl
    exact ⟨h, rfl⟩

/-! ## A watcher that dies -/

deriving instance DecidableEq for TransferInfo
deriving instance DecidableEq for Transfer

/-- The call resolves this transfer. -/
def BillingCall.Resolves (t : Transfer) : BillingCall → Prop
  | .resolveDeposit t' => t' = t
  | _ => False

/-- The call resolves this transfer, or time passes or a price changes. -/
def BillingCall.ResolvesOrWaits (t : Transfer) : BillingCall → Prop
  | .resolveDeposit t' => t' = t
  | .advance _ | .setPrice .. => True
  | _ => False

instance (t : Transfer) (c : BillingCall) : Decidable (c.Resolves t) := by
  rcases c with _ | _ <;> unfold BillingCall.Resolves <;> infer_instance

/-- Time and prices are not part of the state of a transfer. -/
theorem Retriable.advance (h : Retriable t db) (seconds : Time) :
    Retriable t (billing.after (.advance seconds) db) :=
  ⟨h.toConsistent.exec (.advance seconds), h.logged, h.resolved⟩

theorem Retriable.setPrice (h : Retriable t db) (base : BaseCurrency) (price : ℚ) :
    Retriable t (billing.after (.setPrice base price) db) :=
  ⟨h.toConsistent.exec (.setPrice base price), h.logged, h.resolved⟩

/-- **The watcher may die anywhere.** If a transfer was logged as it was read and its row, if it has
been resolved, says who was credited, then a call after any number of interrupted ones leaves the
ledger that one uninterrupted call leaves. Also when the clock and the prices move between the
calls, there is at most one entry under the transfer's key, the row says who was credited exactly
as the entry that has paid the transfer does, and no call adds to the ledger once there is one. -/
theorem resolve_deposit_survives_deaths {t : Transfer} {db : Db} (consistent : Consistent db)
    (logged : ∀ info, db.logged t.depositRef = some info → info.txHash = t.info.txHash)
    (resolved : ∀ dep, db.deposits.get? t.depositRef = some dep → dep.status ≠ .unmatched →
      LogAgrees t db) :
    (∀ p s, billing.Alone Eq (fun c _ _ ↦ c.Resolves t) db p s →
      (billing.after (.resolveDeposit t) s).ledger
        = (billing.after (.resolveDeposit t) db).ledger) ∧
    ∀ p s, billing.Alone Eq (fun c _ _ ↦ c.ResolvesOrWaits t) db p s →
      ((billing.after (.resolveDeposit t) s).ledger.filter fun e ↦
        e.depositRef = some (.transfer t.depositRef)).length ≤ 1 ∧
      LogAgrees t (billing.after (.resolveDeposit t) s) ∧
      ∀ e, paymentOf t s = some e →
        (billing.after (.resolveDeposit t) s).ledger = s.ledger := by
  have start : Retriable t db := ⟨consistent, logged, resolved⟩
  have hbody : ∀ {φ : BillingOp → Db → Prop} {s : Db},
      Along billing.toMachine φ (resolveDeposit t) s →
      Along billing.toMachine φ (billing.body (.resolveDeposit t)) s := fun h ↦ h.bind trivial
  constructor
  · intro p s run
    have hstart : Resumes t db db := ⟨start, rfl⟩
    have hpoint : Resumes t db s := by
      refine run.always hstart fun c o s hc hs ↦ ?_
      cases c with
      | resolveDeposit t' =>
        obtain rfl : t' = t := hc
        obtain ⟨halong, hend, -⟩ := resolve_points hs.1
        refine ⟨hbody (halong.mono fun _ s' h ↦ ⟨h.1, h.2.trans hs.2⟩), hend.1, hend.2.trans hs.2⟩
      | _ => exact hc.elim
    exact hpoint.2
  · intro p s run
    have hpoint : Retriable t s := by
      refine run.always start fun c o s hc hs ↦ ?_
      cases c with
      | resolveDeposit t' =>
        obtain rfl : t' = t := hc
        obtain ⟨halong, hend, -⟩ := resolve_points hs
        exact ⟨hbody (halong.mono fun _ _ h ↦ h.1), hend.1⟩
      | advance seconds => exact ⟨⟨hs, trivial⟩, hs.advance seconds⟩
      | setPrice base price => exact ⟨⟨hs, trivial⟩, hs.setPrice base price⟩
      | _ => exact hc.elim
    obtain ⟨-, hend, hagrees⟩ := resolve_points hpoint
    exact ⟨hend.1.once t.depositRef, hagrees, fun e he ↦ ledger_of_paid hpoint he⟩

/-- The watcher dies when it has credited the invoice and not yet marked the deposit, and then
again on its way to the entry. -/
def diesTwice : List (Turn BillingCall) :=
  [.call (.resolveDeposit (exactTransfer "0xab".toList trimmed_0xab)), .op, .op, .op, .op,
    .call (.resolveDeposit (exactTransfer "0xab".toList trimmed_0xab)), .op]

theorem resolve_deposit_survives_deaths_exact :
    ∃ p s, billing.Alone Eq (fun c _ _ ↦ c.Resolves (exactTransfer "0xab".toList)) twoInvoices.store
        p s ∧
      s.ledger.length = 1 ∧
      (billing.after (.resolveDeposit (exactTransfer "0xab".toList)) s).ledger
        = (billing.after (.resolveDeposit (exactTransfer "0xab".toList))
            twoInvoices.store).ledger := by
  have hnone : ∀ ref, twoInvoices.store.deposits.get? ref = none := fun _ ↦ rfl
  have hrun : ∃ p s, billing.Alone Eq (fun c _ _ ↦ c.Resolves (exactTransfer "0xab".toList))
      twoInvoices.store p s ∧ s.ledger.length = 1 :=
    Service.exists_alone_of_turns diesTwice (by decide +kernel)
  obtain ⟨p, s, run, hpaid⟩ := hrun
  refine ⟨p, s, run, hpaid, ?_⟩
  refine (resolve_deposit_survives_deaths (consistent_of_fresh twoInvoices_fresh) ?_ ?_).1 p s run
  · intro info hinfo
    rw [Db.logged, hnone] at hinfo
    cases hinfo
  · intro dep hdep
    rw [hnone] at hdep
    cases hdep

end GreenCompute
