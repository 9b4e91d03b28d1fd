import GreenCompute.Billing.Effects

/-!
# One transfer, one payment

Two keys guard the money of an on-chain transfer: the watcher's key of the transfer, and the key
of a staff confirmation of its transaction. `UNIQUE(deposit_ref)` stops two entries with one key;
it does not stop an entry under each. The source covers that by looking for the other key first:
`earlier_credit` in the watcher, `tx_credit_owner` in the staff methods, and a lookup inside the
transaction in `credit_deposit`.

The first two lookups are made in transactions of their own, before the one that inserts. A staff
confirmation that commits between the watcher's lookup and its insertion is therefore not seen,
and the transfer is paid twice (`transfer_paid_twice`). What is true is proved as
`paid_at_most_once`: a run pays no transfer twice as long as, whenever an insertion goes through
the idempotency layers, the lookup of the other key would still come back empty if it were made
then.
-/

namespace GreenCompute

open BillingRepository
open Text (lower strip Trimmed)

/-- The entry pays the transfer: it carries the transfer's key, or it is the staff confirmation of
its transaction, in any currency and up to case. -/
def LedgerEntry.pays (ref : TransferRef) (info : TransferInfo) (e : LedgerEntry) : Bool :=
  match e.depositRef with
  | some (.transfer r) => r = ref
  | some (.manual _ h) => h ≠ [] ∧ info.lowerTx = some (lower h)
  | _ => false

/-- No logged transfer has two entries that pay it. -/
def PaidAtMostOnce (db : Db) : Prop :=
  ∀ ref d, db.deposits.get? ref = some d → (db.ledger.filter fun e ↦ e.pays ref d.info).length ≤ 1

/-! ## The lookup of the other key -/

/-- The entry the caller of an insertion under this key looks for beforehand: `earlier_credit` for
the key of a logged transfer, the ledger's part of `tx_credit_owner` for a staff confirmation. -/
def crossKeyRow (ref : DepositRef) (db : Db) : Option LedgerEntry :=
  match ref with
  | .transfer r => (db.deposits.get? r).bind fun d ↦ earlierCreditRow r d.info.txHash db.ledger
  | .manual _ h => if txKey h = [] then none else txCreditRow (txKey h) db
  | _ => none

/-- Neither idempotency layer stops an insertion for this invoice under this key. -/
def Unpaid (id : InvoiceId) (ref : DepositRef) (db : Db) : Prop :=
  db.ledger.any (isInvoiceTopup id) = false ∧ db.refTaken (some ref) = false

/-- A confirmation that the idempotency layers let through would still not find the other key. -/
def CrossKeyHolds (o : BillingOp) (db : Db) : Prop :=
  match o with
  | .confirmAndCreditInvoice id _ (some ref) _ _ => Unpaid id ref db → crossKeyRow ref db = none
  | _ => True

instance (id : InvoiceId) (ref : DepositRef) (db : Db) : Decidable (Unpaid id ref db) :=
  inferInstanceAs (Decidable (_ ∧ _))

instance (o : BillingOp) (db : Db) : Decidable (CrossKeyHolds o db) := by
  unfold CrossKeyHolds
  split <;> infer_instance

/-- The runs in which every confirmation's lookup still holds when it inserts. -/
def crossKeyGuard : Guard Billing BillingCall Db := fun _ _ o db ↦ CrossKeyHolds o db

instance (c : BillingCall) (past : List (Event Billing)) (o : Billing.Op) (db : Db) :
    Decidable (crossKeyGuard c past o db) := inferInstanceAs (Decidable (CrossKeyHolds o db))

/-! ## Hashes as they are compared

A hash is compared lower-cased and, when a person typed it, stripped. A logged hash is trimmed, so
a typed hash that agrees with it up to case is found by both comparisons. -/

theorem txKey_of_lowerTx {info : TransferInfo} {h : Text} (hinfo : info.lowerTx = some (lower h)) :
    txKey h = lower h := by
  obtain ⟨tx, htx, heq⟩ := Option.map_eq_some_iff.mp hinfo
  exact (info.trimmed tx htx).of_lower_eq heq.symm

theorem txKey_eq_lower_of_lower_eq {h h' : Text} (hkey : txKey h = lower h)
    (heq : lower h = lower h') : txKey h' = lower h' := by
  rw [txKey, ← Text.strip_lower, ← heq, Text.strip_lower]
  exact hkey

theorem txKey_lower {h : Text} (hkey : txKey h = lower h) : txKey (lower h) = lower h := by
  rw [txKey, Text.strip_lower, Text.lower_lower]
  exact hkey

private theorem lower_ne_nil {h : Text} (hne : h ≠ []) : lower h ≠ [] := by
  intro hnil
  exact hne (List.map_eq_nil_iff.mp hnil)

theorem likeManual_of_lower_eq {c : Currency} {h tx : Text} (heq : lower h = tx) :
    DepositRef.likeManual tx (.manual c h) = true := by
  simp [DepositRef.likeManual, heq]

/-- A staff confirmation of a transaction is found by its hash. -/
theorem manualCreditRow_ne_none {ledger : List LedgerEntry} {e : LedgerEntry} {c : Currency}
    {h tx : Text} (he : e ∈ ledger) (hkey : e.depositRef = some (.manual c h)) (hne : tx ≠ [])
    (heq : lower h = txKey tx) : manualCreditRow (some tx) ledger ≠ none := by
  intro hnone
  rw [manualCreditRow, if_neg hne, List.find?_eq_none] at hnone
  refine hnone e he ?_
  rw [hkey, Option.any_some]
  exact likeManual_of_lower_eq heq

/-! ## The invariant -/

/-- What keeps transfers paid once: no two entries pay one logged transfer; a transfer's key is
used only once it is logged; and no two staff confirmations are of one transaction, so that no
transfer logged later can find two. -/
structure PaidOnce (db : Db) : Prop where
  once : db.ledger.Pairwise fun e e' ↦ ∀ ref info, db.logged ref = some info →
    ¬(e.pays ref info = true ∧ e'.pays ref info = true)
  logged : ∀ e ∈ db.ledger, ∀ r, e.depositRef = some (.transfer r) → (db.logged r).isSome
  manual : db.ledger.Pairwise fun e e' ↦ ∀ c h c' h', e.depositRef = some (.manual c h) →
    e'.depositRef = some (.manual c' h') → txKey h = lower h → h ≠ [] → lower h ≠ lower h'

theorem pays_iff {ref : TransferRef} {info : TransferInfo} {e : LedgerEntry} :
    e.pays ref info = true ↔ e.depositRef = some (.transfer ref) ∨
      ∃ c h, e.depositRef = some (.manual c h) ∧ h ≠ [] ∧ info.lowerTx = some (lower h) := by
  unfold LedgerEntry.pays
  split <;> simp_all

private theorem length_le_one_of_pairwise {α : Type} {l : List α}
    (h : l.Pairwise fun _ _ ↦ False) : l.length ≤ 1 := by
  match l, h with
  | [], _ => exact Nat.zero_le 1
  | [_], _ => exact le_rfl
  | a :: b :: l, h => exact ((List.pairwise_cons.mp h).1 b List.mem_cons_self).elim

namespace PaidOnce

variable {db db' : Db}

theorem congr (hi : PaidOnce db) (hledger : db'.ledger = db.ledger) (hlog : SameLog db db') :
    PaidOnce db' := by
  constructor
  · rw [hledger]
    refine hi.once.imp fun h ref info hinfo ↦ h ref info ?_
    rwa [hlog] at hinfo
  · intro e he r hr
    rw [hlog]
    exact hi.logged e (hledger ▸ he) r hr
  · rw [hledger]
    exact hi.manual

/-- Logging a transfer that was not logged before. -/
theorem record (hi : PaidOnce db) {t : Transfer} (hledger : db'.ledger = db.ledger)
    (hnew : db.logged t.depositRef = none)
    (hlog : ∀ ref, db'.logged ref = if ref = t.depositRef then some t.info else db.logged ref) :
    PaidOnce db' := by
  -- Its key is in no entry yet, so only a staff confirmation can pay it.
  have hmanual : ∀ e ∈ db.ledger, e.pays t.depositRef t.info = true →
      ∃ c h, e.depositRef = some (.manual c h) ∧ h ≠ [] ∧ t.info.lowerTx = some (lower h) := by
    intro e he hpays
    refine (pays_iff.mp hpays).resolve_left fun hkey ↦ ?_
    have hlogged := hi.logged e he _ hkey
    rw [hnew] at hlogged
    cases hlogged
  constructor
  · rw [hledger]
    refine List.Pairwise.imp_of_mem (fun {e e'} he he' hboth ref info hinfo ↦ ?_)
      (hi.once.and hi.manual)
    rw [hlog] at hinfo
    split at hinfo
    · next href =>
      subst href
      obtain rfl := Option.some.inj hinfo
      rintro ⟨hpays, hpays'⟩
      obtain ⟨c, h, hkey, hne, hinfo⟩ := hmanual e he hpays
      obtain ⟨c', h', hkey', -, hinfo'⟩ := hmanual e' he' hpays'
      refine hboth.2 c h c' h' hkey hkey' (txKey_of_lowerTx hinfo) hne ?_
      rw [hinfo] at hinfo'
      exact Option.some.inj hinfo'
    · exact hboth.1 ref info hinfo
  · intro e he r hr
    rw [hlog]
    split
    · rfl
    · exact hi.logged e (hledger ▸ he) r hr
  · rw [hledger]
    exact hi.manual

/-- Appending an entry that pays nothing an entry pays already. -/
theorem append (hi : PaidOnce db) {e : LedgerEntry} (hledger : db'.ledger = db.ledger ++ [e])
    (hlog : SameLog db db')
    (hkey : ∀ r, e.depositRef = some (.transfer r) → (db.logged r).isSome)
    (honce : ∀ e₀ ∈ db.ledger, ∀ ref info, db.logged ref = some info →
      e.pays ref info = true → e₀.pays ref info = true → False)
    (hmanual : ∀ e₀ ∈ db.ledger, ∀ c h c' h', e₀.depositRef = some (.manual c h) →
      e.depositRef = some (.manual c' h') → txKey h = lower h → h ≠ [] → lower h ≠ lower h') :
    PaidOnce db' := by
  constructor
  · rw [hledger, List.pairwise_append]
    refine ⟨hi.once.imp fun h ref info hinfo ↦ h ref info (by rwa [hlog] at hinfo),
      List.pairwise_singleton _ _, ?_⟩
    intro e₀ he₀ e' he' ref info hinfo hboth
    obtain rfl := List.mem_singleton.mp he'
    rw [hlog] at hinfo
    exact honce e₀ he₀ ref info hinfo hboth.2 hboth.1
  · intro e₀ he₀ r hr
    rw [hlog]
    rcases List.mem_append.mp (hledger ▸ he₀) with he₀ | he₀
    · exact hi.logged e₀ he₀ r hr
    · obtain rfl := List.mem_singleton.mp he₀
      exact hkey r hr
  · rw [hledger, List.pairwise_append]
    refine ⟨hi.manual, List.pairwise_singleton _ _, ?_⟩
    intro e₀ he₀ e' he' c h c' h' h₁ h₂
    obtain rfl := List.mem_singleton.mp he'
    exact hmanual e₀ he₀ c h c' h' h₁ h₂

/-- An entry under a logged transfer's key, when `earlier_credit` finds nothing. -/
theorem append_transfer (hi : PaidOnce db) {e : LedgerEntry} {r : TransferRef} {info : TransferInfo}
    (hledger : db'.ledger = db.ledger ++ [e]) (hlog : SameLog db db')
    (hkey : e.depositRef = some (.transfer r)) (hlogged : db.logged r = some info)
    (hrow : earlierCreditRow r info.txHash db.ledger = none) : PaidOnce db' := by
  obtain ⟨hown, hcross⟩ := Option.or_eq_none_iff.mp hrow
  refine hi.append hledger hlog ?_ ?_ ?_
  · intro r' hr'
    obtain rfl : r = r' := by simpa [hkey] using hr'
    rw [hlogged]
    rfl
  · intro e₀ he₀ ref info' hinfo' hpays hpays₀
    obtain rfl : r = ref := by
      rcases pays_iff.mp hpays with h | ⟨c, h, h', -⟩
      · simpa [hkey] using h
      · simp [hkey] at h'
    obtain rfl : info = info' := Option.some.inj (hlogged.symm.trans hinfo')
    rcases pays_iff.mp hpays₀ with h₀ | ⟨c, h, h₀, hne, hlower⟩
    · have := List.find?_eq_none.mp hown e₀ he₀
      simp [h₀] at this
    · obtain ⟨tx, htx, heq⟩ := Option.map_eq_some_iff.mp hlower
      rw [htx] at hcross
      refine manualCreditRow_ne_none he₀ h₀ ?_ ?_ hcross
      · rintro rfl
        exact lower_ne_nil hne heq.symm
      · rw [txKey, info.trimmed tx htx, heq]
  · intro e₀ _ c h c' h' _ hkey'
    rw [hkey] at hkey'
    cases hkey'

/-- A staff confirmation, when `tx_credit_owner` finds nothing in the ledger. -/
theorem append_manual (hi : PaidOnce db) {e : LedgerEntry} {c : Currency} {h : Text}
    (hledger : db'.ledger = db.ledger ++ [e]) (hlog : SameLog db db')
    (hkey : e.depositRef = some (.manual c h)) (hrow : crossKeyRow (.manual c h) db = none) :
    PaidOnce db' := by
  -- A confirmation of the same transaction would be found by its hash.
  have hfound : ∀ e₀ ∈ db.ledger, ∀ c₀ h₀, e₀.depositRef = some (.manual c₀ h₀) →
      txKey h = lower h → h ≠ [] → lower h₀ = lower h → False := by
    intro e₀ he₀ c₀ h₀ hkey₀ hbare hne heq
    rw [crossKeyRow, if_neg (hbare ▸ lower_ne_nil hne)] at hrow
    refine manualCreditRow_ne_none he₀ hkey₀ ?_ ?_ (Option.or_eq_none_iff.mp hrow).2
    · exact hbare ▸ lower_ne_nil hne
    · rw [hbare, txKey_lower hbare, heq]
  refine hi.append hledger hlog ?_ ?_ ?_
  · intro r hr
    rw [hkey] at hr
    cases hr
  · intro e₀ he₀ ref info hinfo hpays hpays₀
    obtain ⟨c', h', hkey', hne, hlower⟩ := (pays_iff.mp hpays).resolve_left (by simp [hkey])
    obtain ⟨rfl, rfl⟩ : c = c' ∧ h = h' := by simpa [hkey] using hkey'
    have hbare := txKey_of_lowerTx hlower
    rcases pays_iff.mp hpays₀ with h₀ | ⟨c₀, h₀, hkey₀, -, hlower₀⟩
    · rw [crossKeyRow, if_neg (hbare ▸ lower_ne_nil hne)] at hrow
      have hnone := List.find?_eq_none.mp (Option.or_eq_none_iff.mp hrow).1 e₀ he₀
      obtain ⟨d, hd, rfl⟩ := Option.map_eq_some_iff.mp hinfo
      refine hnone (List.any_eq_true.mpr ⟨(ref, d), ?_, by simp [h₀]⟩)
      exact Table.mem_select.mpr ⟨hd, by simp [hlower, hbare]⟩
    · refine hfound e₀ he₀ c₀ h₀ hkey₀ hbare hne ?_
      rw [hlower] at hlower₀
      exact (Option.some.inj hlower₀).symm
  · intro e₀ he₀ c₀ h₀ c' h' hkey₀ hkey' hbare₀ hne₀ heq
    obtain ⟨rfl, rfl⟩ : c = c' ∧ h = h' := by simpa [hkey] using hkey'
    refine hfound e₀ he₀ c₀ h₀ hkey₀ (txKey_eq_lower_of_lower_eq hbare₀ heq) ?_ heq
    rintro rfl
    exact lower_ne_nil hne₀ heq

/-- An entry without a transfer's key or a staff confirmation's. -/
theorem append_other (hi : PaidOnce db) {e : LedgerEntry} (hledger : db'.ledger = db.ledger ++ [e])
    (hlog : SameLog db db') (htransfer : ∀ r, e.depositRef ≠ some (.transfer r))
    (hmanual : ∀ c h, e.depositRef ≠ some (.manual c h)) : PaidOnce db' := by
  refine hi.append hledger hlog (fun r hr ↦ absurd hr (htransfer r)) ?_
    (fun _ _ _ _ c' h' _ h ↦ absurd h (hmanual c' h'))
  intro e₀ _ ref info _ hpays
  rcases pays_iff.mp hpays with h | ⟨c, h, hkey, -⟩
  · exact absurd h (htransfer ref)
  · exact absurd hkey (hmanual c h)

theorem of_fresh (h : db.Fresh) : PaidOnce db := by
  constructor
  · rw [h.ledger]
    exact .nil
  · intro e he
    rw [h.ledger] at he
    cases he
  · rw [h.ledger]
    exact .nil

theorem paidAtMostOnce (hi : PaidOnce db) : PaidAtMostOnce db := by
  intro ref d hd
  have hinfo := Db.logged_of_get? hd
  have hpair := (hi.once.filter fun e ↦ e.pays ref d.info).imp_of_mem
    (S := fun _ _ ↦ False) fun {e e'} he he' h ↦ h ref d.info hinfo
      ⟨(List.mem_filter.mp he).2, (List.mem_filter.mp he').2⟩
  exact length_le_one_of_pairwise hpair

/-- A transaction keeps the invariant when the lookup of the other key holds, and when the
transfers it pays are logged. -/
theorem exec (hi : PaidOnce db) {o : BillingOp} (hguard : CrossKeyHolds o db)
    (hlogged : ∀ id tx r expired cents,
      o = .confirmAndCreditInvoice id tx (some (.transfer r)) expired cents →
        (db.logged r).isSome) : PaidOnce (o.exec db).1 := by
  rcases exec_log o db with hlog | ⟨t, rfl, hnew, hlog⟩
  · cases exec_ledger o db with
    | none h => exact hi.congr h hlog
    | confirmed id tx ref expired cents ho e h key _ _ unpaid free =>
      subst ho
      match ref with
      | some (.transfer r) =>
        obtain ⟨info, hinfo⟩ := Option.isSome_iff_exists.mp (hlogged _ _ _ _ _ rfl)
        have hrow := hguard ⟨unpaid, free⟩
        obtain ⟨d, hd, rfl⟩ := Option.map_eq_some_iff.mp hinfo
        rw [crossKeyRow, hd, Option.bind_some] at hrow
        exact hi.append_transfer h hlog key hinfo hrow
      | some (.manual c h') => exact hi.append_manual h hlog key (hguard ⟨unpaid, free⟩)
      | some (.stripe _) | some (.stripeRefund _) | none =>
        exact hi.append_other h hlog (by simp [key]) (by simp [key])
    | credited ref u cents how ho e h key _ _ dep logged free =>
      exact hi.append_transfer h hlog key (Db.logged_of_get? logged) free
  · cases exec_ledger (.recordDeposit t) db with
    | none h => exact hi.record h hnew hlog
    | confirmed _ _ _ _ _ ho => cases ho
    | credited _ _ _ _ ho => cases ho

end PaidOnce

/-! ## The transactions of a call

A confirmation under a transfer's key is made only by `resolve_deposit`, and only for the transfer
it has just logged. -/

/-- The transaction confirms under a transfer's key only for the given transfer. -/
def KeyedBy (own : Option TransferRef) : BillingOp → Prop
  | .confirmAndCreditInvoice _ _ (some (.transfer r)) _ _ => own = some r
  | _ => True

namespace BillingService

open Program (Uses)

variable {own : Option TransferRef}

theorem keyedBy_of_routine {α : Type} {p : Program Billing α} (h : p.Uses Routine) :
    p.Uses (KeyedBy own) := by
  refine h.mono fun o ho ↦ ?_
  cases o <;> first | exact ho.elim | trivial

theorem uses_creditInvoice (id : InvoiceId) (inv : CryptoInvoice) (t : Transfer) (how : MatchedBy)
    (cents : Option ℤ) (expired : Bool) :
    (creditInvoice id inv t how cents expired).Uses (KeyedBy (some t.depositRef)) := by
  unfold creditInvoice
  refine Uses.op_bind rfl fun r ↦ ?_
  cases r with
  | notFound | refused | raised => trivial
  | credited | alreadyConfirmed | duplicateDeposit => exact Uses.op_bind trivial fun _ ↦ trivial

theorem keyedBy_manualRef (id : InvoiceId) (tx tx' : Text) (c : Currency) (expired : Bool)
    (cents : Option ℤ) :
    KeyedBy own (.confirmAndCreditInvoice id tx (manualRef c tx') expired cents) := by
  unfold manualRef
  split <;> trivial

theorem uses_reviewConfirmInvoice (id : InvoiceId) (review : CryptoInvoice) :
    (reviewConfirmInvoice id review).Uses (KeyedBy own) := by
  unfold reviewConfirmInvoice
  refine Uses.op_bind trivial fun owner ↦ ?_
  cases owner with
  | some => trivial
  | none =>
    refine Uses.op_bind (keyedBy_manualRef _ _ _ _ _ _) fun r ↦ ?_
    cases r with
    | credited =>
      dsimp only
      split
      · exact Uses.op_bind trivial fun _ ↦ Uses.op_bind trivial fun _ ↦ trivial
      · exact Uses.op_bind trivial fun _ ↦ trivial
    | _ => trivial

theorem uses_resolveReview (id : InvoiceId) (action : ReviewAction) :
    (resolveReview id action).Uses (KeyedBy own) := by
  unfold resolveReview
  refine Uses.op_bind trivial fun review ↦ ?_
  cases review with
  | none => trivial
  | some review =>
    dsimp only
    split
    · trivial
    · split
      · split
        · trivial
        · exact Uses.op_bind trivial fun _ ↦ trivial
      · trivial
      · exact keyedBy_of_routine (plain_reviewCreditDeposit _ _ _).routine
      · exact uses_reviewConfirmInvoice _ _

theorem uses_confirmCryptoDeposit (id : InvoiceId) (tx : Text) :
    (confirmCryptoDeposit id tx).Uses (KeyedBy own) := by
  unfold confirmCryptoDeposit
  refine Uses.op_bind trivial fun invoice ↦ ?_
  cases invoice with
  | none => trivial
  | some invoice =>
    refine Uses.op_bind trivial fun paid ↦ ?_
    split
    · trivial
    · refine Uses.op_bind (keyedBy_manualRef _ _ _ _ _ _) fun r ↦ ?_
      cases r with
      | credited =>
        dsimp only
        split
        · exact Uses.op_bind trivial fun _ ↦ trivial
        · trivial
      | _ => trivial

end BillingService

/-! ## Runs -/

/-- Transfers are paid once, and what is logged stays logged. -/
def paidOnceContract : Contract Db where
  inv := PaidOnce
  rel := fun s s' ↦ ∀ ref info, s.logged ref = some info → s'.logged ref = some info
  refl := fun _ _ _ h ↦ h
  trans := fun h h' ref info hinfo ↦ h' ref info (h ref info hinfo)

/-- The judgement a call has to meet. -/
private abbrev Once {α : Type} (c : BillingCall) (p : Program Billing α)
    (past : List (Event Billing)) (s : Db) : Prop :=
  Program.Safe billing.toMachine paidOnceContract (crossKeyGuard c) (fun _ _ _ ↦ True) p past s

private theorem once_of_uses {α : Type} {c : BillingCall} {p : Program Billing α}
    {past : List (Event Billing)} {s : Db} {own : Option TransferRef} (hp : p.Uses (KeyedBy own))
    (hown : ∀ r, own = some r → ∃ info, s.logged r = some info) : Once c p past s := by
  refine Program.Safe.of_uses hp fun past o s' ho hrel hinv _ hg ↦ ?_
  refine ⟨PaidOnce.exec hinv hg ?_, fun ref info h ↦ exec_logged h⟩
  intro id tx r expired cents heq
  subst heq
  obtain ⟨info, hinfo⟩ := hown r ho
  rw [hrel r info hinfo]
  rfl

private theorem once_discard {α : Type} {c : BillingCall} {p : Program Billing α}
    {past : List (Event Billing)} {s : Db} (h : Once c p past s) : Once c p.discard past s :=
  Program.Safe.bind h fun _ _ _ _ _ _ _ ↦ trivial

/-- A call that makes no confirmation under a transfer's key. -/
private theorem once_of_uses_none {α : Type} {c : BillingCall} {p : Program Billing α}
    {past : List (Event Billing)} {s : Db} (hp : p.Uses (KeyedBy none)) : Once c p past s :=
  once_of_uses hp fun _ h ↦ by cases h

private theorem once_of_routine {α : Type} {c : BillingCall} {p : Program Billing α}
    {past : List (Event Billing)} {s : Db} (hp : p.Uses Routine) : Once c p past s :=
  once_of_uses_none (BillingService.keyedBy_of_routine hp)

/-- Where the transfer is logged, its payments and everything routine keep the contract. -/
private theorem once_settles (c : BillingCall) (t : Transfer) :
    BillingService.Settles paidOnceContract (crossKeyGuard c)
      (fun s ↦ ∃ info, s.logged t.depositRef = some info) t where
  stable := fun hrel ⟨info, h⟩ ↦ ⟨info, hrel _ info h⟩
  routine := fun hp _ _ _ ↦ once_of_routine hp
  credit := fun id inv how cents expired _ _ hs ↦
    once_of_uses (BillingService.uses_creditInvoice id inv t how cents expired)
      (by rintro r ⟨⟩; exact hs)

private theorem once_settleDeposit {c : BillingCall} (t : Transfer) (past : List (Event Billing))
    {s : Db} (hs : ∃ info, s.logged t.depositRef = some info) :
    Once c (BillingService.settleDeposit t) past s := by
  have hread := (once_settles c t).read (.earlierCredit t.depositRef t.info.txHash) trivial
  refine Program.SafeFrom.bind (once_settles c t).stable hread (fun earlier ↦ ?_) past s hs
  cases earlier with
  | some earlier =>
    exact fun past s _ ↦ once_of_uses_none (Program.Uses.op_bind trivial fun _ ↦ trivial)
  | none => exact (once_settles c t).settleUnpaid

/-- `resolve_deposit` logs its transfer before it does anything else. -/
private theorem once_resolveDeposit {c : BillingCall} (t : Transfer) (past : List (Event Billing))
    (s : Db) : Once c (BillingService.resolveDeposit t) past s := by
  refine Program.Safe.op_bind fun s' _ hinv _ hg ↦ ?_
  refine ⟨PaidOnce.exec hinv hg fun id tx r expired cents h ↦ (nomatch h),
    fun ref info h ↦ exec_logged h, ?_⟩
  split
  · exact fun _ _ _ ↦ trivial
  · refine once_settleDeposit t _ ?_
    change ∃ info, (recordDeposit t s').1.logged t.depositRef = some info
    unfold recordDeposit
    split
    · next dep h => exact ⟨dep.info, Db.logged_of_get? h⟩
    · exact ⟨t.info, by simp [Db.logged]⟩

theorem billing_paidOnce (c : BillingCall) (s : Db) :
    Program.Safe billing.toMachine paidOnceContract (crossKeyGuard c) (fun _ _ _ ↦ True)
      (billing.body c) [] s := by
  open BillingService in
  cases c with
  | createCryptoInvoice =>
    exact once_discard (once_of_routine (routine_createCryptoInvoice _ _ _ _))
  | resolveDeposit t => exact once_discard (once_resolveDeposit t _ _)
  | requestInvoiceReview => exact once_discard (once_of_routine (Program.uses_op.mpr trivial))
  | resolveReview => exact once_discard (once_of_uses_none (uses_resolveReview _ _))
  | confirmCryptoDeposit => exact once_discard (once_of_uses_none (uses_confirmCryptoDeposit _ _))
  | assignDeposit =>
    exact once_discard (once_of_routine
      (Program.Uses.bind (plain_assignDepositTo _ _).routine fun _ ↦ trivial))
  | claimWalletDeposits =>
    exact once_discard (once_of_routine (plain_claimWalletDeposits _ _ _).routine)
  | linkWallet => exact once_discard (once_of_routine (plain_linkWallet _ _ _ _ _).routine)
  | rejectInvoice => exact once_discard (once_of_routine (plain_rejectInvoice _ _ _).routine)
  | expireStalePendingInvoices =>
    exact once_discard (once_of_routine (Program.uses_op.mpr trivial))
  | ignoreDeposit => exact once_of_routine (Program.uses_op.mpr trivial)
  | advance => exact once_of_routine (Program.uses_op.mpr trivial)
  | setPrice => exact once_of_routine (Program.uses_op.mpr trivial)

/-- **Append-only.** In every interleaving of any calls, the ledger only grows: no entry is taken
back, moved or rewritten. What the transfer log says of a transfer stays as it was first read. -/
theorem ledger_append_only {G : Guard Billing BillingCall Db} {w w' : World Billing BillingCall Db}
    (run : billing.Reaches G w w') : w.store.ledger <+: w'.store.ledger ∧
      ∀ ref info, w.store.logged ref = some info → w'.store.logged ref = some info := by
  induction run with
  | refl => exact ⟨List.prefix_rfl, fun _ _ h ↦ h⟩
  | tail _ hstep ih =>
    obtain ⟨hledger, hlogged⟩ := ih
    cases hstep with
    | start c => exact ⟨hledger, hlogged⟩
    | answer i c past o k =>
      exact ⟨hledger.trans (exec_ledger_grows o _), fun ref info h ↦
        exec_logged (hlogged ref info h)⟩

/-- The first invoice is paid, then staff confirm the second. -/
theorem ledger_append_only_twice :
    ∃ w w' : World Billing BillingCall Db, w.store.ledger.length = 1 ∧
      w'.store.ledger.length = 2 ∧ w.store.ledger <+: w'.store.ledger := by
  obtain ⟨w, w', -, hone, hrun, htwo⟩ := Service.exists_reaches_then_of_replay (S := billing)
    (G := Guard.free) (w := twoInvoices)
    (.start (.resolveDeposit (exactTransfer "0xab".toList)) :: List.replicate 5 (.step 0))
    (.start (.confirmCryptoDeposit 2 "0xcd".toList) :: List.replicate 3 (.step 1))
    (P := fun w ↦ w.store.ledger.length = 1) (Q := fun w ↦ w.store.ledger.length = 2)
    (by decide +kernel)
  exact ⟨w, w', hone, htwo, (ledger_append_only hrun).1⟩

end GreenCompute
