import GreenCompute.Billing.Effects

/-!
# A credited deposit is backed by money

The deposit log says of each transfer whether it was credited. That status is not written with the
payment: the watcher and the staff methods pay first and mark the deposit in a later transaction,
so what the mark says has to follow from what the paying transaction answered.

It does not always follow. When the watcher confirms an invoice that is already confirmed, the
answer does not say which transfer paid the invoice, and the watcher marks its own transfer
credited all the same. Two transfers that both pay one invoice exactly, handled by two replicas
that read the invoice while it was open, both end credited with one of them paid
(`deposit_swallowed`). `credited_deposit_backed` proves the property for every run in which the
watcher meets a paid invoice only with a transfer that has been paid itself.
-/

namespace GreenCompute

open BillingRepository
open Text (lower)

/-- The key is of a staff confirmation of this transaction, as the source compares hashes: typed
hashes stripped and lower-cased, or by its pattern on the key. -/
def DepositRef.ofTransaction (tx : Text) : DepositRef → Bool
  | .manual c h => txKey h = txKey tx || likeManual (txKey tx) (.manual c h)
  | _ => false

/-- The entry is a top-up for this transfer: under its own key, or a staff confirmation of its
transaction. `chain` tells the hash of the transaction a transfer is part of. -/
def LedgerEntry.backs (chain : TransferRef → Text) (ref : TransferRef) (e : LedgerEntry) : Bool :=
  e.kind = .topup && (e.depositRef = some (.transfer ref) ||
    e.depositRef.any (DepositRef.ofTransaction (chain ref)))

/-- Some entry backs the transfer. -/
def Db.Backs (db : Db) (chain : TransferRef → Text) (ref : TransferRef) : Prop :=
  ∃ e ∈ db.ledger, e.backs chain ref = true

instance (db : Db) (chain : TransferRef → Text) (ref : TransferRef) :
    Decidable (db.Backs chain ref) := inferInstanceAs (Decidable (∃ e ∈ db.ledger, _ = _))

/-- Every deposit marked credited is backed. -/
def CreditedIsBacked (chain : TransferRef → Text) (db : Db) : Prop :=
  ∀ ref d, db.deposits.get? ref = some d → d.status = .credited → db.Backs chain ref

/-! ## Conditions on a run -/

/-- What was read of a transfer has the hash of its transaction, or none. -/
def ReadsChain (chain : TransferRef → Text) (ref : TransferRef) (info : TransferInfo) : Prop :=
  ∀ tx ∈ info.txHash, tx = chain ref

instance (chain : TransferRef → Text) (ref : TransferRef) (info : TransferInfo) :
    Decidable (ReadsChain chain ref info) :=
  inferInstanceAs (Decidable (∀ tx ∈ info.txHash, _ = _))

/-- The watcher reports what is on the chain. -/
def readsGuard (chain : TransferRef → Text) : Guard Billing BillingCall Db := fun _ _ o _ ↦
  match o with
  | .recordDeposit t => ReadsChain chain t.depositRef t.info
  | _ => True

/-- The watcher meets an invoice that has its top-up only with a transfer that is backed. -/
def PaysOwnInvoice (chain : TransferRef → Text) (o : BillingOp) (db : Db) : Prop :=
  match o with
  | .confirmAndCreditInvoice id _ (some (.transfer ref)) _ _ =>
    db.ledger.any (isInvoiceTopup id) = true → db.Backs chain ref
  | _ => True

/-- The runs in which the watcher reports what is on the chain, and meets a paid invoice only with
a transfer that is backed. -/
def backedGuard (chain : TransferRef → Text) : Guard Billing BillingCall Db := fun c past o db ↦
  readsGuard chain c past o db ∧ PaysOwnInvoice chain o db

section

variable (chain : TransferRef → Text) (c : BillingCall) (past : List (Event Billing))
  (o : Billing.Op) (db : Db)

instance : Decidable (readsGuard chain c past o db) := by
  unfold readsGuard
  split <;> infer_instance

instance : Decidable (PaysOwnInvoice chain o db) := by
  unfold PaysOwnInvoice
  split <;> infer_instance

instance : Decidable (backedGuard chain c past o db) := inferInstanceAs (Decidable (_ ∧ _))

end

/-! ## The invariant -/

/-- Credited deposits are backed, entries are top-ups, and what is logged is on the chain. -/
structure Backed (chain : TransferRef → Text) (db : Db) : Prop where
  credited : CreditedIsBacked chain db
  topups : ∀ e ∈ db.ledger, e.kind = .topup
  reads : ∀ ref info, db.logged ref = some info → ReadsChain chain ref info

variable {chain : TransferRef → Text} {db db' : Db}

theorem Db.Backs.mono {ref : TransferRef} (h : db.Backs chain ref)
    (hpre : db.ledger <+: db'.ledger) :
    db'.Backs chain ref := by
  obtain ⟨e, he, hb⟩ := h
  exact ⟨e, hpre.subset he, hb⟩

theorem backs_of_transfer {ref : TransferRef} {e : LedgerEntry} (he : e ∈ db.ledger)
    (kind : e.kind = .topup) (key : e.depositRef = some (.transfer ref)) : db.Backs chain ref :=
  ⟨e, he, by simp [LedgerEntry.backs, kind, key]⟩

/-- A staff confirmation backs a transfer whose hash it was given. -/
theorem backs_of_manual {ref : TransferRef} {info : TransferInfo} {e : LedgerEntry} {c : Currency}
    {h : Text} (he : e ∈ db.ledger) (kind : e.kind = .topup)
    (key : e.depositRef = some (.manual c h)) (hreads : ReadsChain chain ref info)
    (hinfo : info.lowerTx = some (txKey h)) : db.Backs chain ref := by
  obtain ⟨tx, htx, heq⟩ := Option.map_eq_some_iff.mp hinfo
  have hkey : txKey (chain ref) = txKey h := by
    rw [← hreads tx htx, txKey, info.trimmed tx htx, heq]
  exact ⟨e, he, by simp [LedgerEntry.backs, kind, key, DepositRef.ofTransaction, hkey]⟩

/-- What `earlier_credit` finds backs the transfer. -/
theorem backs_of_earlierCreditRow {ref : TransferRef} {txHash : Option Text} {e : LedgerEntry}
    (htopups : ∀ e ∈ db.ledger, e.kind = .topup) (hreads : ∀ tx ∈ txHash, tx = chain ref)
    (hrow : earlierCreditRow ref txHash db.ledger = some e) : db.Backs chain ref := by
  rcases Option.or_eq_some_iff.mp hrow with hown | ⟨-, hmanual⟩
  · have he := List.mem_of_find?_eq_some hown
    exact backs_of_transfer he (htopups e he) (by simpa using List.find?_some hown)
  · unfold manualCreditRow at hmanual
    split at hmanual
    · cases hmanual
    · next tx =>
      split at hmanual
      · cases hmanual
      · have he := List.mem_of_find?_eq_some hmanual
        have hlike := List.find?_some hmanual
        rw [hreads tx rfl] at hlike
        refine ⟨e, he, ?_⟩
        obtain ⟨r, hr, hlike⟩ := (Option.any_eq_true _ _).mp hlike
        have hof : DepositRef.ofTransaction (chain ref) r = true := by
          cases r with
          | manual c h => simp [DepositRef.ofTransaction, hlike]
          | _ => cases hlike
        simp [LedgerEntry.backs, htopups e he, hr, hof]

/-! ## Marking a deposit credited -/

/-- A transaction marks a deposit credited only where an entry backs it. Crediting a deposit
directly is no such mark: it writes the entry itself. -/
def MarksBacked (chain : TransferRef → Text) (o : BillingOp) (db : Db) : Prop :=
  match o with
  | .markDeposit ref f => f.status = some .credited → db.Backs chain ref
  | .markDepositsByTx _ tx f => f.status = some .credited →
    ∀ ref info, db.logged ref = some info → info.lowerTx = some (txKey tx) → db.Backs chain ref
  | _ => True

theorem marksBacked_of_routine {o : BillingOp} (h : Routine o) : MarksBacked chain o db := by
  cases o with
  | markDeposit ref f => exact fun hf ↦ absurd hf h
  | markDepositsByTx => exact h.elim
  | _ => trivial

private theorem apply_status_ne {f : DepositFields} {d : CryptoDeposit}
    (h : (f.apply d).status = .credited) (hf : f.status ≠ some .credited) :
    d.status = .credited := by
  unfold DepositFields.apply at h
  cases hs : f.status with
  | none => simpa [hs] using h
  | some status =>
    rw [hs] at hf
    simp only [hs, Option.getD_some] at h
    exact absurd (congrArg some h) hf

/-- A deposit is found credited after a transaction only if it was credited before, or the
transaction backs it. -/
theorem exec_credited {o : BillingOp} (hi : Backed chain db) (hmark : MarksBacked chain o db)
    {ref : TransferRef} {d : CryptoDeposit} (hd : (o.exec db).1.deposits.get? ref = some d)
    (hcredited : d.status = .credited) : (o.exec db).1.Backs chain ref := by
  have hmono : ∀ {r}, db.Backs chain r → (o.exec db).1.Backs chain r :=
    fun h ↦ h.mono (exec_ledger_grows o db)
  have hsame : db.deposits.get? ref = some d → (o.exec db).1.Backs chain ref :=
    fun h ↦ hmono (hi.credited ref d h hcredited)
  cases o with
  | recordDeposit t =>
    simp only [BillingOp.exec, recordDeposit] at hd
    split at hd
    · exact hsame hd
    · rw [Table.get?_insert] at hd
      split at hd
      · obtain rfl := Option.some.inj hd
        cases hcredited
      · exact hsame hd
  | markDeposit r f =>
    simp only [BillingOp.exec, markDeposit, Table.get?_modify] at hd
    split at hd
    · next hr =>
      subst hr
      obtain ⟨d₀, hd₀, rfl⟩ := Option.map_eq_some_iff.mp hd
      by_cases hf : f.status = some .credited
      · exact hmono (hmark hf)
      · exact hmono (hi.credited ref d₀ hd₀ (apply_status_ne hcredited hf))
    · exact hsame hd
  | markDepositsByTx c tx f =>
    simp only [BillingOp.exec, markDepositsByTx, Table.get?_map] at hd
    obtain ⟨d₀, hd₀, rfl⟩ := Option.map_eq_some_iff.mp hd
    split at hcredited
    · next htx =>
      by_cases hf : f.status = some .credited
      · exact hmono (hmark hf ref d₀.info (Db.logged_of_get? hd₀) htx.1)
      · exact hmono (hi.credited ref d₀ hd₀ (apply_status_ne hcredited hf))
    · exact hmono (hi.credited ref d₀ hd₀ hcredited)
  | creditDeposit r u cents how =>
    have hspec := creditDeposit_spec 0 r u cents how db
    simp only [BillingOp.exec] at hd hsame hmono ⊢
    generalize creditDeposit 0 r u cents how db = out at hspec hd hsame hmono ⊢
    cases hspec with
    | earlier dep h e row =>
      rw [Db.seenLedger_zero] at row
      simp only [Table.get?_insert] at hd
      split at hd
      · next hr =>
        subst hr
        exact hmono (backs_of_earlierCreditRow hi.topups
          (hi.reads ref dep.info (Db.logged_of_get? h)) row)
      · exact hsame hd
    | credited dep user h =>
      simp only [Table.get?_insert] at hd
      split at hd
      · next hr =>
        subst hr
        exact backs_of_transfer (List.mem_append_right _ (List.mem_singleton_self _)) rfl rfl
      · exact hsame hd
    | _ => exact hsame hd
  | ignoreDeposit r =>
    simp only [BillingOp.exec, ignoreDeposit] at hd
    split at hd
    · exact hsame hd
    · split at hd
      · exact hsame hd
      · rw [Table.get?_insert] at hd
        split at hd
        · obtain rfl := Option.some.inj hd
          cases hcredited
        · exact hsame hd
  | createCryptoInvoice id inv =>
    simp only [BillingOp.exec, createCryptoInvoice] at hd
    split at hd <;> exact hsame hd
  | confirmAndCreditInvoice id tx r expired cents =>
    have hspec := confirmAndCreditInvoice_spec 0 id tx r expired cents db
    simp only [BillingOp.exec] at hd hsame hmono ⊢
    generalize confirmAndCreditInvoice 0 id tx r expired cents db = out at hspec hd hsame hmono ⊢
    cases hspec <;> exact hsame hd
  | rejectCryptoInvoice id reason note =>
    simp only [BillingOp.exec, rejectCryptoInvoice] at hd
    split at hd
    · exact hsame hd
    · split_ifs at hd <;> exact hsame hd
  | requestInvoiceReview id u tx note =>
    simp only [BillingOp.exec, requestInvoiceReview] at hd
    split at hd
    · exact hsame hd
    · split_ifs at hd <;> exact hsame hd
  | addVerifiedWallet u c a =>
    simp only [BillingOp.exec, addVerifiedWallet] at hd
    split at hd
    · exact hsame hd
    · split_ifs at hd <;> exact hsame hd
  | _ => exact hsame hd

/-- A transaction keeps the invariant when what it logs is on the chain and what it marks is
backed. -/
theorem Backed.exec (hi : Backed chain db) {o : BillingOp}
    (hreads : ∀ t, o = .recordDeposit t → ReadsChain chain t.depositRef t.info)
    (hmark : MarksBacked chain o db) : Backed chain (o.exec db).1 := by
  constructor
  · exact fun ref d hd hcredited ↦ exec_credited hi hmark hd hcredited
  · intro e he
    cases exec_ledger o db with
    | none h => exact hi.topups e (h ▸ he)
    | confirmed _ _ _ _ _ _ e' h _ kind =>
      rcases List.mem_append.mp (h ▸ he) with he | he
      · exact hi.topups e he
      · rw [List.mem_singleton.mp he, kind]
    | credited _ _ _ _ _ e' h _ kind =>
      rcases List.mem_append.mp (h ▸ he) with he | he
      · exact hi.topups e he
      · rw [List.mem_singleton.mp he, kind]
  · intro ref info hinfo
    rcases exec_log o db with hlog | ⟨t, ho, -, hlog⟩
    · exact hi.reads ref info (hlog ref ▸ hinfo)
    · rw [hlog] at hinfo
      split at hinfo
      · next hr =>
        obtain rfl := Option.some.inj hinfo
        rw [hr]
        exact hreads t ho
      · exact hi.reads ref info hinfo

theorem Backed.of_fresh (h : db.Fresh) : Backed chain db := by
  have hnone : ∀ ref, db.deposits.get? ref = none := by
    intro ref
    simp [Table.get?, h.deposits]
  constructor
  · intro ref d hd
    rw [hnone] at hd
    cases hd
  · intro e he
    rw [h.ledger] at he
    cases he
  · intro ref info hinfo
    rw [Db.logged, hnone] at hinfo
    cases hinfo

/-! ## Runs -/

variable (chain) in
/-- Credited deposits are backed, entries are never taken back, and the log is not rewritten. -/
def backedContract : Contract Db where
  inv := Backed chain
  rel := fun s s' ↦ s.ledger <+: s'.ledger
  refl := fun _ ↦ List.prefix_refl _
  trans := List.IsPrefix.trans

variable (chain) in
/-- The method keeps credited deposits backed from every store that meets the condition. -/
private abbrev KeepsBacked {α : Type} (c : BillingCall) (P : Db → Prop) (p : Program Billing α) : Prop :=
  p.SafeFrom billing.toMachine (backedContract chain) (backedGuard chain c) P

variable {c : BillingCall} {P : Db → Prop} {α : Type}

/-- One transaction that marks only what is backed, then the rest of the method. -/
private theorem keeps_op {o : BillingOp} {f : o.Ans → Program Billing α}
    (hmark : ∀ s, P s → Backed chain s → MarksBacked chain o s)
    (stable : ∀ {s s' : Db}, s.ledger <+: s'.ledger → P s → P s')
    (hf : ∀ past s, P s → Backed chain s → backedGuard chain c past o s →
      ∀ past', Program.Safe billing.toMachine (backedContract chain) (backedGuard chain c)
        (fun _ _ _ ↦ True) (f (o.exec s).2) past' (o.exec s).1) :
    KeepsBacked chain c P (BillingService.call o >>= f) := by
  intro past s hs
  refine Program.Safe.op_bind fun s' hrel hinv _ hg ↦ ?_
  have hs' := stable hrel hs
  refine ⟨hinv.exec ?_ (hmark s' hs' hinv), exec_ledger_grows o s', hf past s' hs' hinv hg _⟩
  rintro t rfl
  exact hg.1

variable (chain) in
/-- The method, taken up in a store, keeps credited deposits backed. -/
private abbrev SafeNow {α : Type} (c : BillingCall) (p : Program Billing α)
    (past : List (Event Billing)) (s : Db) : Prop :=
  Program.Safe billing.toMachine (backedContract chain) (backedGuard chain c) (fun _ _ _ ↦ True) p
    past s

variable {past : List (Event Billing)} {s : Db}

/-- One transaction that marks nothing, then the rest of the method. -/
private theorem safe_op {o : BillingOp} {f : o.Ans → Program Billing α}
    (hmark : ∀ s, MarksBacked chain o s)
    (hf : ∀ past s, Backed chain s → backedGuard chain c past o s →
      ∀ past', SafeNow chain c (f (o.exec s).2) past' (o.exec s).1) :
    SafeNow chain c (BillingService.call o >>= f) past s := by
  refine keeps_op (P := fun _ ↦ True) (fun s _ _ ↦ hmark s) (fun _ _ ↦ trivial) ?_ past s trivial
  exact fun past s _ hinv hg past' ↦ hf past s hinv hg past'

private theorem safe_routine {p : Program Billing α} (hp : p.Uses Routine) :
    SafeNow chain c p past s := by
  refine Program.Safe.of_uses hp fun past o s' ho _ hinv _ hg ↦ ?_
  refine ⟨hinv.exec ?_ (marksBacked_of_routine ho), exec_ledger_grows o s'⟩
  rintro t rfl
  exact hg.1

/-- Marking a backed transfer credited. -/
private theorem keeps_mark {ref : TransferRef} (f : DepositFields) (a : α) :
    KeepsBacked chain c (fun s ↦ s.Backs chain ref)
      (BillingService.call (.markDeposit ref f) >>= fun _ ↦ .done a) :=
  keeps_op (fun _ hs _ _ ↦ hs) (fun hpre h ↦ h.mono hpre) fun _ _ _ _ _ _ _ _ _ ↦ trivial

/-- After a confirmation under a transfer's key that found the invoice or the transfer paid, or
paid it, the transfer is backed. -/
private theorem confirm_backs {id : InvoiceId} {ref : TransferRef} (tx : Text) (expired : Bool)
    (cents : Option ℤ) (htopups : ∀ e ∈ db.ledger, e.kind = .topup)
    (hown : db.ledger.any (isInvoiceTopup id) = true → db.Backs chain ref) :
    match confirmAndCreditInvoice 0 id tx (some (.transfer ref)) expired cents db with
    | (_, .notFound) | (_, .refused _) | (_, .raised) => True
    | (db', _) => db'.Backs chain ref := by
  have hspec := confirmAndCreditInvoice_spec 0 id tx (some (.transfer ref)) expired cents db
  generalize confirmAndCreditInvoice 0 id tx (some (.transfer ref)) expired cents db = out
    at hspec ⊢
  cases hspec with
  | notFound | refused | raised => trivial
  | alreadyConfirmed inv h paid =>
    rw [Db.seenLedger_zero] at paid
    exact hown paid
  | duplicate inv h taken =>
    obtain ⟨e, he, hkey⟩ := refTaken_iff.mp taken
    exact backs_of_transfer he (htopups e he) hkey
  | credited inv user h =>
    exact backs_of_transfer (List.mem_append_right _ (List.mem_singleton_self _)) rfl rfl

private theorem keeps_creditInvoice (id : InvoiceId) (inv : CryptoInvoice) (t : Transfer)
    (how : MatchedBy) (cents : Option ℤ) (expired : Bool) :
    KeepsBacked chain c (fun _ ↦ True) (BillingService.creditInvoice id inv t how cents expired) := by
  intro past s _
  refine safe_op (fun _ ↦ trivial) fun past s hinv hg past' ↦ ?_
  have hbacks := confirm_backs (BillingService.recordedHash t) expired cents hinv.topups hg.2
  simp only [BillingOp.exec]
  generalize confirmAndCreditInvoice 0 id (BillingService.recordedHash t)
    (some (.transfer t.depositRef)) expired cents s = out at hbacks ⊢
  obtain ⟨db', r⟩ := out
  cases r with
  | notFound | refused | raised => exact fun _ _ _ ↦ trivial
  | credited | alreadyConfirmed | duplicateDeposit => exact keeps_mark _ _ _ _ hbacks

/-- Routine methods and payments of invoices keep deposits backed from any store. -/
private theorem backed_settles (t : Transfer) :
    BillingService.Settles (backedContract chain) (backedGuard chain c) (fun _ ↦ True) t where
  stable := fun _ h ↦ h
  routine := fun hp _ _ _ ↦ safe_routine hp
  credit := fun id inv how cents expired ↦ keeps_creditInvoice id inv t how cents expired

private theorem keeps_resolveDeposit (t : Transfer) :
    KeepsBacked chain c (fun _ ↦ True) (BillingService.resolveDeposit t) := by
  intro past s _
  refine safe_op (fun _ ↦ trivial) fun past s hinv hg past' ↦ ?_
  split
  · exact fun _ _ _ ↦ trivial
  -- What the transfer's hash is does not change while the call runs.
  refine safe_op (fun _ ↦ trivial) fun past s' hinv' _ past' ↦ ?_
  simp only [BillingOp.exec, earlierCredit]
  cases hrow : earlierCreditRow t.depositRef t.info.txHash s'.ledger with
  | some e => exact keeps_mark _ _ _ _ (backs_of_earlierCreditRow hinv'.topups hg.1 hrow)
  | none => exact (backed_settles t).settleUnpaid _ _ trivial

/-- Marking the transfers of a transaction that staff have just confirmed. -/
private theorem keeps_markByTx {tx : Text} {currency : Currency} (f : DepositFields)
    {rest : Unit → Program Billing α} (hrest : (rest ()).Uses Routine) :
    KeepsBacked chain c (fun s ↦ ∃ e ∈ s.ledger, e.kind = .topup ∧
        e.depositRef = some (.manual currency tx))
      (BillingService.call (.markDepositsByTx none tx f) >>= rest) := by
  refine keeps_op ?_ ?_ fun past s _ _ _ _ ↦ safe_routine hrest
  · rintro s ⟨e, he, kind, key⟩ hinv - ref info hinfo htx
    exact backs_of_manual he kind key (hinv.reads ref info hinfo) htx
  · rintro s s' hpre ⟨e, he, h⟩
    exact ⟨e, hpre.subset he, h⟩

/-- A staff confirmation that credits leaves its entry in the ledger. -/
private theorem confirm_manual {id : InvoiceId} {tx : Text} {currency : Currency} {expired : Bool}
    {cents : Option ℤ} (htx : tx ≠ []) {total after : ℤ} {db' : Db}
    (h : confirmAndCreditInvoice 0 id tx (BillingService.manualRef currency tx) expired cents db
      = (db', .credited total after)) :
    ∃ e ∈ db'.ledger, e.kind = .topup ∧ e.depositRef = some (.manual currency tx) := by
  have hspec := confirmAndCreditInvoice_spec 0 id tx (BillingService.manualRef currency tx) expired
    cents db
  rw [BillingService.manualRef, if_neg htx] at h hspec
  rw [h] at hspec
  cases hspec with
  | credited inv user => exact ⟨_, List.mem_append_right _ (List.mem_singleton_self _), rfl, rfl⟩

private theorem keeps_reviewConfirmInvoice (id : InvoiceId) (review : CryptoInvoice) :
    KeepsBacked chain c (fun _ ↦ True) (BillingService.reviewConfirmInvoice id review) := by
  intro past s _
  refine safe_op (fun _ ↦ trivial) fun past s _ _ past' ↦ ?_
  cases (BillingOp.exec (.txCreditOwner (review.txHash.getD [])) s).2 with
  | some => exact fun _ _ _ ↦ trivial
  | none =>
    refine safe_op (fun _ ↦ trivial) fun past s' _ _ past' ↦ ?_
    simp only [BillingOp.exec]
    generalize hout : confirmAndCreditInvoice 0 id (review.txHash.getD [])
      (BillingService.manualRef review.currency (review.txHash.getD [])) true none s' = out
    obtain ⟨db', r⟩ := out
    cases r with
    | credited =>
      dsimp only
      split
      · next htx =>
        refine keeps_markByTx _ ?_ _ _ (confirm_manual htx hout)
        exact Program.Uses.op_bind (by rintro ⟨⟩) fun _ ↦ trivial
      · exact safe_routine (Program.Uses.op_bind (by rintro ⟨⟩) fun _ ↦ trivial)
    | _ => exact fun _ _ _ ↦ trivial

private theorem keeps_confirmCryptoDeposit (id : InvoiceId) (tx : Text) :
    KeepsBacked chain c (fun _ ↦ True) (BillingService.confirmCryptoDeposit id tx) := by
  intro past s _
  refine safe_op (fun _ ↦ trivial) fun past s _ _ past' ↦ ?_
  cases (BillingOp.exec (.getCryptoInvoice id) s).2 with
  | none => exact fun _ _ _ ↦ trivial
  | some invoice =>
    refine safe_op (fun _ ↦ trivial) fun past s' _ _ past' ↦ ?_
    split
    · exact fun _ _ _ ↦ trivial
    refine safe_op (fun _ ↦ trivial) fun past s' _ _ past' ↦ ?_
    simp only [BillingOp.exec]
    generalize hout : confirmAndCreditInvoice 0 id tx
      (BillingService.manualRef invoice.currency tx) false none s' = out
    obtain ⟨db', r⟩ := out
    cases r with
    | credited =>
      dsimp only
      split
      · next htx => exact keeps_markByTx _ (Program.uses_done _ _) _ _ (confirm_manual htx hout)
      · exact fun _ _ _ ↦ trivial
    | _ => exact fun _ _ _ ↦ trivial

private theorem keeps_resolveReview (id : InvoiceId) (action : BillingService.ReviewAction) :
    KeepsBacked chain c (fun _ ↦ True) (BillingService.resolveReview id action) := by
  intro past s _
  refine safe_op (fun _ ↦ trivial) fun past s _ _ past' ↦ ?_
  cases (BillingOp.exec (.getInvoiceReview id) s).2 with
  | none => exact fun _ _ _ ↦ trivial
  | some review =>
    dsimp only
    split
    · exact fun _ _ _ ↦ trivial
    · split
      · split
        · exact fun _ _ _ ↦ trivial
        · exact safe_routine (Program.Uses.op_bind nofun fun _ ↦ trivial)
      · exact fun _ _ _ ↦ trivial
      · exact safe_routine (BillingService.plain_reviewCreditDeposit _ _ _).routine
      · exact keeps_reviewConfirmInvoice _ _ _ _ trivial

private theorem keeps_discard {p : Program Billing α} (h : KeepsBacked chain c (fun _ ↦ True) p) :
    KeepsBacked chain c (fun _ ↦ True) p.discard :=
  Program.SafeFrom.bind (fun _ h ↦ h) h fun _ ↦ Program.SafeFrom.done ()

theorem billing_backed (c : BillingCall) (s : Db) :
    Program.Safe billing.toMachine (backedContract chain) (backedGuard chain c) (fun _ _ _ ↦ True)
      (billing.body c) [] s := by
  have hroutine : ∀ {α : Type} {p : Program Billing α}, p.Uses Routine →
      KeepsBacked chain c (fun _ ↦ True) p.discard := fun hp ↦ keeps_discard fun _ _ _ ↦ safe_routine hp
  suffices h : KeepsBacked chain c (fun _ ↦ True) (billing.body c) from h _ _ trivial
  open BillingService in
  cases c with
  | createCryptoInvoice => exact hroutine (routine_createCryptoInvoice _ _ _ _)
  | resolveDeposit t => exact keeps_discard (keeps_resolveDeposit t)
  | requestInvoiceReview => exact hroutine (Program.uses_op.mpr trivial)
  | resolveReview => exact keeps_discard (keeps_resolveReview _ _)
  | confirmCryptoDeposit => exact keeps_discard (keeps_confirmCryptoDeposit _ _)
  | assignDeposit =>
    exact hroutine (Program.Uses.bind (plain_assignDepositTo _ _).routine fun _ ↦ trivial)
  | claimWalletDeposits => exact hroutine (plain_claimWalletDeposits _ _ _).routine
  | linkWallet => exact hroutine (plain_linkWallet _ _ _ _ _).routine
  | rejectInvoice => exact hroutine (plain_rejectInvoice _ _ _).routine
  | expireStalePendingInvoices => exact hroutine (Program.uses_op.mpr trivial)
  | ignoreDeposit => exact fun _ _ _ ↦ safe_routine (Program.uses_op.mpr trivial)
  | advance => exact fun _ _ _ ↦ safe_routine (Program.uses_op.mpr trivial)
  | setPrice => exact fun _ _ _ ↦ safe_routine (Program.uses_op.mpr trivial)

/-- **No deposit is swallowed.** In every interleaving of any number of calls in which the watcher
reports what is on the chain, and meets an invoice that has its top-up only with a transfer that
is backed, every deposit marked credited is backed by an entry of the ledger. -/
theorem credited_deposit_backed {w w' : World Billing BillingCall Db}
    (run : billing.Reaches (backedGuard chain) w w') (fresh : w.store.Fresh)
    (idle : w.threads = []) : CreditedIsBacked chain w'.store :=
  (run.sound (fun c s _ ↦ billing_backed c s) (.of_fresh fresh) idle).1.inv.credited

/-- The transaction of a transfer on an EVM chain is part of its key. -/
private def keyHash : TransferRef → Text
  | .evm _ tx _ => tx
  | .bittensor .. => []

/-- A run that meets the condition: a watcher dies between paying an invoice and marking its
deposit, and the next tick finds the payment and marks it. -/
theorem credited_deposit_backed_resumed :
    ∃ w', billing.Reaches (backedGuard keyHash) twoInvoices w' ∧
      CreditedIsBacked keyHash w'.store ∧
      (w'.store.deposits.rows.map fun r ↦ r.2.status) = [.credited] := by
  have hrun : ((Service.replay billing (backedGuard keyHash) twoInvoices
      [.start (.resolveDeposit (exactTransfer "0xab".toList)), .step 0, .step 0, .step 0, .step 0,
        .start (.resolveDeposit (exactTransfer "0xab".toList)), .step 1, .step 1,
        .step 1]).any fun w ↦
      decide ((w.store.deposits.rows.map fun r ↦ r.2.status) = [.credited])) = true := by
    decide +kernel
  obtain ⟨w', run, hstatus⟩ := Service.exists_reaches_of_replay _ hrun
  exact ⟨w', run, credited_deposit_backed run twoInvoices_fresh rfl, hstatus⟩

/-- Without the second condition a deposit is swallowed: two replicas read the invoice while it is
open, each with a transfer that pays it exactly; both transfers end credited, and one is paid. -/
theorem deposit_swallowed :
    ∃ w w' : World Billing BillingCall Db, w.store.Fresh ∧ w.threads = [] ∧
      billing.Reaches (readsGuard keyHash) w w' ∧ ¬CreditedIsBacked keyHash w'.store := by
  have hrun : ((Service.replay billing (readsGuard keyHash) twoInvoices
      [.start (.resolveDeposit (exactTransfer "0xab".toList)), .step 0, .step 0, .step 0,
        .start (.resolveDeposit (exactTransfer "0xcd".toList)), .step 1, .step 1, .step 1,
        .step 0, .step 0, .step 1, .step 1]).any fun w ↦
      decide (∃ d ∈ w.store.deposits.get? (exactTransfer "0xcd".toList).depositRef,
        d.status = .credited ∧
          ¬w.store.Backs keyHash (exactTransfer "0xcd".toList).depositRef)) = true := by
    decide +kernel
  obtain ⟨w', run, d, hd, hcredited, hbacks⟩ := Service.exists_reaches_of_replay _ hrun
  exact ⟨twoInvoices, w', twoInvoices_fresh, rfl, run, fun h ↦ hbacks (h _ d hd hcredited)⟩

end GreenCompute
