import GreenCompute.Foundations.Interruption
import GreenCompute.Validator.Registrations

/-!
# Payouts

A payout is written in four transactions around a transfer: the row that says a transfer is being
submitted, the transfer, its outcome, and the credit to the wallet's running total. The worker may
die between any two of them.

A transfer is only submitted for a wallet that has no other unresolved payout, whatever the worker
has died of before. The running total and the confirmed payouts agree as long as the worker does
not die between recording a confirmed payout and crediting it: that payout is resolved, so nothing
makes up for the credit.
-/

namespace GreenCompute

open ManagedWalletService Program

/-- The states in which a wallet is paid. -/
def WalletState.payable : WalletState → Bool
  | active | suspended => true
  | _ => false

theorem WalletState.payable_iff {state : WalletState} :
    state.payable = true ↔ state = .active ∨ state = .suspended := by
  cases state <;> simp [payable]

/-- What counts of a payout for the running total of a wallet. -/
def Payout.confirmedFor (id : WalletId) (row : Payout) : ℚ :=
  if row.walletId = id ∧ row.status = .confirmed then row.alphaAmount else 0

/-- The payout with the outcome that an update brings. -/
def Payout.resolve (old row : Payout) : Payout :=
  { old with status := row.status, extrinsicHash := row.extrinsicHash }

namespace WalletStore

/-- The sum of the wallet's confirmed payouts. -/
def confirmedAlpha (s : WalletStore) (id : WalletId) : ℚ :=
  s.payouts.total fun _ row ↦ row.confirmedFor id

/-- Every wallet's running total, with what it is owed, is the sum of its confirmed payouts. -/
def Owing (owed : WalletId → ℚ) (s : WalletStore) : Prop :=
  ∀ id w, s.wallets.get? id = some w → w.totalPaidAlpha + owed id = s.confirmedAlpha id

/-- The identifiers yet to be drawn are those of no payout. -/
def Fresh (s : WalletStore) : Prop :=
  ∀ k, s.drawn ≤ k → s.payouts.get? k = none

/-- What others do to the store: they create wallets that have not been paid, and change the
states of wallets, but none becomes unpayable; the chain changes and time passes. -/
structure Elsewhere (s s' : WalletStore) : Prop where
  wallet : ∀ id w, s.wallets.get? id = some w → ∃ w', s'.wallets.get? id = some w' ∧
    w'.payoutAddress = w.payoutAddress ∧ w'.totalPaidAlpha = w.totalPaidAlpha ∧
      (w.state.payable = true → w'.state.payable = true)
  created : ∀ id w', s'.wallets.get? id = some w' → s.wallets.get? id = none →
    w'.totalPaidAlpha = 0 ∧ ∀ k row, s.payouts.get? k = some row → row.walletId ≠ id
  payouts : s'.payouts = s.payouts
  drawn : s.drawn ≤ s'.drawn

variable {s t u : WalletStore}

theorem Elsewhere.refl (s : WalletStore) : s.Elsewhere s where
  wallet _ w hw := ⟨w, hw, rfl, rfl, fun h ↦ h⟩
  created id w' hw' hnone := by
    rw [hnone] at hw'
    cases hw'
  payouts := rfl
  drawn := le_rfl

theorem Elsewhere.trans (s t u : WalletStore) (h : s.Elsewhere t) (h' : t.Elsewhere u) :
    s.Elsewhere u where
  wallet id w hw := by
    obtain ⟨w₁, hw₁, haddress₁, htotal₁, hpayable₁⟩ := h.wallet id w hw
    obtain ⟨w₂, hw₂, haddress₂, htotal₂, hpayable₂⟩ := h'.wallet id w₁ hw₁
    exact ⟨w₂, hw₂, haddress₂.trans haddress₁, htotal₂.trans htotal₁, hpayable₂ ∘ hpayable₁⟩
  created id w hw hnone := by
    cases hbetween : t.wallets.get? id with
    | none =>
      have hnew := h'.created id w hw hbetween
      rwa [h.payouts] at hnew
    | some v =>
      obtain ⟨hzero, hunpaid⟩ := h.created id v hbetween hnone
      obtain ⟨w', hw', -, htotal, -⟩ := h'.wallet id v hbetween
      obtain rfl := Option.some.inj (hw.symm.trans hw')
      exact ⟨htotal.trans hzero, hunpaid⟩
  payouts := h'.payouts.trans h.payouts
  drawn := h.drawn.trans h'.drawn

theorem Elsewhere.confirmedAlpha (h : s.Elsewhere t) (id : WalletId) :
    t.confirmedAlpha id = s.confirmedAlpha id := by
  rw [WalletStore.confirmedAlpha, h.payouts]
  rfl

theorem Fresh.elsewhere (hs : s.Fresh) (h : s.Elsewhere t) : t.Fresh := by
  intro k hk
  rw [h.payouts]
  exact hs k (h.drawn.trans hk)

/-- A wallet that has no payouts has no confirmed ones. -/
theorem confirmedAlpha_of_unpaid {id : WalletId}
    (h : ∀ k row, s.payouts.get? k = some row → row.walletId ≠ id) : s.confirmedAlpha id = 0 := by
  refine List.sum_eq_zero fun x hx ↦ ?_
  obtain ⟨⟨k, row⟩, hmem, rfl⟩ := List.mem_map.mp hx
  exact if_neg fun hrow ↦ h k row (Table.mem_rows_iff.mp hmem) hrow.1

/-- Others leave what is owed to the wallets there are. -/
theorem Owing.elsewhere {owed : WalletId → ℚ} (hs : s.Owing owed) (h : s.Elsewhere t)
    (known : ∀ id, s.wallets.get? id = none → owed id = 0) : t.Owing owed := by
  intro id w hw
  rw [h.confirmedAlpha]
  cases hbefore : s.wallets.get? id with
  | none =>
    obtain ⟨hzero, hunpaid⟩ := h.created id w hw hbefore
    rw [hzero, known id hbefore, confirmedAlpha_of_unpaid hunpaid, add_zero]
  | some v =>
    obtain ⟨w', hw', -, htotal, -⟩ := h.wallet id v hbefore
    obtain rfl := Option.some.inj (hw.symm.trans hw')
    rw [htotal]
    exact hs id v hbefore

/-! ### Recording a payout -/

variable {k : PayoutId} {row old : Payout} {id : WalletId} {owed : WalletId → ℚ}

theorem confirmedAlpha_record_new (habsent : s.payouts.get? k = none) :
    ({ s with payouts := s.payouts.insert k row } : WalletStore).confirmedAlpha id =
      s.confirmedAlpha id + row.confirmedFor id := by
  rw [confirmedAlpha, Table.total_insert, Table.total_of_get?_none habsent, confirmedAlpha]

theorem confirmedAlpha_record_old (hold : s.payouts.get? k = some old)
    (unconfirmed : old.status ≠ .confirmed) :
    ({ s with payouts := s.payouts.insert k row } : WalletStore).confirmedAlpha id =
      s.confirmedAlpha id + row.confirmedFor id := by
  have hzero : old.confirmedFor id = 0 := if_neg fun h ↦ unconfirmed h.2
  have hsplit := Table.total_of_get? hold (f := fun _ row ↦ row.confirmedFor id)
  rw [confirmedAlpha, Table.total_insert, confirmedAlpha, hsplit, hzero, add_zero]

/-- A new payout without an extrinsic is recorded as it is. -/
theorem recordManagedPayout_new (habsent : s.payouts.get? k = none)
    (hhash : row.extrinsicHash = none) :
    s.recordManagedPayout k row = ({ s with payouts := s.payouts.insert k row }, true) := by
  simp [recordManagedPayout, hhash, habsent]

/-- An outcome is recorded, unless another payout has the extrinsic. -/
theorem recordManagedPayout_old (row : Payout) (hold : s.payouts.get? k = some old) :
    s.recordManagedPayout k row = (s, false) ∨
      s.recordManagedPayout k row =
        ({ s with payouts := s.payouts.insert k (old.resolve row) }, true) := by
  rw [recordManagedPayout, hold]
  split
  · exact .inl rfl
  · exact .inr rfl

theorem Fresh.record (hs : s.Fresh) (hk : k < s.drawn) :
    ({ s with payouts := s.payouts.insert k row } : WalletStore).Fresh := by
  intro k' hk'
  have hne : k' ≠ k := by
    rintro rfl
    exact absurd hk (Nat.not_lt.mpr hk')
  rw [Table.get?_insert_ne _ hne]
  exact hs k' hk'

end WalletStore

/-! ## What holds in front of each step -/

/-- The wallet may be paid: it is in a state in which wallets are, and has this address. -/
def WalletStore.Held (s : WalletStore) (id : WalletId) (wallet : ManagedWallet) : Prop :=
  ∃ w, s.wallets.get? id = some w ∧ w.state.payable = true ∧
    w.payoutAddress = wallet.payoutAddress

theorem WalletStore.Held.elsewhere {s t : WalletStore} {id : WalletId} {wallet : ManagedWallet}
    (h : s.Held id wallet) (hst : s.Elsewhere t) : t.Held id wallet := by
  obtain ⟨w, hw, hpayable, haddress⟩ := h
  obtain ⟨w', hw', haddress', -, hpayable'⟩ := hst.wallet id w hw
  exact ⟨w', hw', hpayable' hpayable, haddress'.trans haddress⟩

/-- A transfer goes to the wallet's own address, which is valid, the wallet is in a state in which
wallets are paid, and its only unresolved payout is the one that records this transfer. -/
structure TransferFit (blake2b : List ℕ → List ℕ) (id : WalletId) (destination : Text)
    (netuid : ℕ) (alphaAmount : ℚ) (s : WalletStore) : Prop where
  wallet : ∃ w, s.wallets.get? id = some w ∧ (w.state = .active ∨ w.state = .suspended) ∧
    w.payoutAddress = destination ∧ isValidSs58 blake2b destination = true
  only : ∃ k, s.payouts.get? k = some ⟨id, destination, alphaAmount, netuid, .submitting, none⟩ ∧
    ∀ k' row, s.payouts.get? k' = some row → row.walletId = id → row.status = .submitting →
      k' = k

/-- What is owed to the wallets when this operation is about to be taken. -/
def WalletOp.owed : WalletOp → WalletId → ℚ
  | creditManagedPayout id alphaAmount, k => if k = id then alphaAmount else 0
  | _, _ => 0

theorem WalletOp.owed_eq_zero {o : WalletOp} {id : WalletId}
    (h : ∀ alphaAmount, o ≠ .creditManagedPayout id alphaAmount) : o.owed id = 0 := by
  cases o with
  | creditManagedPayout k alphaAmount =>
    refine if_neg ?_
    rintro rfl
    exact h alphaAmount rfl
  | _ => rfl

/-- What holds in front of an operation of the payouts; that the accounts are right is kept track
of where `accounting` is. -/
structure PayoutFit (blake2b : List ℕ → List ℕ) (accounting : Prop) (o : WalletOp)
    (s : WalletStore) : Prop where
  fresh : s.Fresh
  transfer : ∀ id hotkey destination netuid alphaAmount,
    o = .transferAlpha id hotkey destination netuid alphaAmount →
      TransferFit blake2b id destination netuid alphaAmount s
  credit : ∀ id alphaAmount, o = .creditManagedPayout id alphaAmount → minPayoutAlpha ≤ alphaAmount
  owing : accounting → s.Owing o.owed

/-- What holds between payouts. -/
def Between (accounting : Prop) (s : WalletStore) : Prop :=
  s.Fresh ∧ (accounting → s.Owing 0)

theorem Between.elsewhere {accounting : Prop} {s t : WalletStore} (hs : Between accounting s)
    (h : s.Elsewhere t) : Between accounting t :=
  ⟨hs.1.elsewhere h, fun ha ↦ (hs.2 ha).elsewhere h fun _ _ ↦ rfl⟩

/-- In front of an operation that neither transfers nor credits. -/
theorem PayoutFit.of_between {blake2b : List ℕ → List ℕ} {accounting : Prop} {o : WalletOp}
    {s : WalletStore} (hs : Between accounting s)
    (transfer : ∀ id hotkey destination netuid alphaAmount,
      o ≠ .transferAlpha id hotkey destination netuid alphaAmount)
    (credit : ∀ id alphaAmount, o ≠ .creditManagedPayout id alphaAmount) :
    PayoutFit blake2b accounting o s where
  fresh := hs.1
  transfer id hotkey destination netuid alphaAmount ho :=
    absurd ho (transfer id hotkey destination netuid alphaAmount)
  credit id alphaAmount ho := absurd ho (credit id alphaAmount)
  owing ha := by
    have hzero : o.owed = 0 := by
      cases o with
      | creditManagedPayout id alphaAmount => exact absurd rfl (credit id alphaAmount)
      | _ => rfl
    rw [hzero]
    exact hs.2 ha

section

variable {blake2b : List ℕ → List ℕ} {accounting : Prop} {α : Type} {Q : α → WalletStore → Prop}
  {s t : WalletStore} {id : WalletId} {wallet : ManagedWallet} {k : PayoutId} {row : Payout}

variable (blake2b accounting) in
/-- In front of every step of the method holds what is to hold there, and `Q` at its end. -/
abbrev Pays (Q : α → WalletStore → Prop) (p : Program Wallets α) (s : WalletStore) : Prop :=
  p.Throughout (wallets blake2b).toMachine WalletStore.Elsewhere (PayoutFit blake2b accounting) Q s

/-- One step that neither transfers nor credits, then the rest. -/
theorem Pays.op_bind {o : WalletOp} {f : o.Ans → Program Wallets α} (hs : Between accounting s)
    (transfer : ∀ id hotkey destination netuid alphaAmount,
      o ≠ .transferAlpha id hotkey destination netuid alphaAmount)
    (credit : ∀ id alphaAmount, o ≠ .creditManagedPayout id alphaAmount)
    (rest : ∀ t, s.Elsewhere t → Between accounting t →
      Pays blake2b accounting Q (f (o.exec t).2) (o.exec t).1) :
    Pays blake2b accounting Q (call o >>= f) s :=
  Throughout.op_bind fun t hst ↦
    ⟨.of_between (hs.elsewhere hst) transfer credit, rest t hst (hs.elsewhere hst)⟩

/-- Between payouts a method may end. -/
theorem Pays.done {a : α} (hs : Between accounting s) :
    Pays blake2b accounting (fun _ ↦ Between accounting) (.done a) s :=
  fun _ hst ↦ hs.elsewhere hst

/-- A payout is only planned from a state in which wallets are paid, of no small amount, and to a
valid address. -/
theorem planPayout_pays {accrued : Reading}
    (h : (planPayout blake2b wallet accrued).shouldPay = true) :
    wallet.state.payable = true ∧
      (planPayout blake2b wallet accrued).destination = wallet.payoutAddress ∧
      isValidSs58 blake2b wallet.payoutAddress = true ∧
      minPayoutAlpha ≤ (planPayout blake2b wallet accrued).alphaAmount := by
  unfold planPayout at h ⊢
  by_cases hstate : wallet.state ≠ .active ∧ wallet.state ≠ .suspended
  · simp [hstate] at h
  · have hpayable : wallet.state.payable = true := by
      cases hw : wallet.state <;> simp_all [WalletState.payable]
    rw [if_neg hstate] at h ⊢
    cases accrued with
    | finite alpha =>
      dsimp only at h ⊢
      split at h
      · cases h
      · next hpositive =>
        split at h
        · cases h
        · next hsmall =>
          split at h
          · cases h
          · next hvalid =>
            rw [if_neg hpositive, if_neg hsmall, if_neg hvalid]
            exact ⟨hpayable, rfl, Bool.eq_true_of_not_eq_false hvalid, not_lt.mp hsmall⟩
    | _ => cases h

/-- The accounts, while a payout is being submitted. -/
structure Submitted (accounting : Prop) (k : PayoutId) (row : Payout) (s : WalletStore) : Prop where
  between : Between accounting s
  recorded : s.payouts.get? k = some row
  drawn : k < s.drawn

theorem Submitted.elsewhere (h : Submitted accounting k row s) (hst : s.Elsewhere t) :
    Submitted accounting k row t :=
  ⟨h.between.elsewhere hst, by rw [hst.payouts, h.recorded], h.drawn.trans_le hst.drawn⟩

/-- Recording that a payout is being submitted. -/
theorem Submitted.of_new (row : Payout) (hs : Between accounting s)
    (habsent : s.payouts.get? k = none)
    (hk : k < s.drawn) (unconfirmed : row.status ≠ .confirmed) :
    Submitted accounting k row { s with payouts := s.payouts.insert k row } := by
  refine ⟨⟨hs.1.record hk, fun ha id w hw ↦ ?_⟩, Table.get?_insert_self _ _ _, hk⟩
  have hnothing : row.confirmedFor id = 0 := if_neg fun hrow ↦ unconfirmed hrow.2
  rw [WalletStore.confirmedAlpha_record_new habsent, hnothing, add_zero]
  exact hs.2 ha id w hw

variable {outcome : Payout} {recorded : Bool}

/-- An outcome is recorded, unless another payout has the extrinsic. -/
theorem Pays.record {f : Bool → Program Wallets α} (h : Submitted accounting k row s)
    (rest : ∀ t t' recorded, s.Elsewhere t → t.recordManagedPayout k outcome = (t', recorded) →
      Pays blake2b accounting Q (f recorded) t') :
    Pays blake2b accounting Q (call (.recordManagedPayout k outcome) >>= f) s :=
  Pays.op_bind h.between nofun nofun fun t hst _ ↦ rest t _ _ hst rfl

/-- A refused outcome leaves everything as it is. -/
theorem Submitted.refused (h : Submitted accounting k row s)
    (hrecord : s.recordManagedPayout k outcome = (t, false)) : Between accounting t := by
  rcases WalletStore.recordManagedPayout_old outcome h.recorded with heq | heq
  · obtain ⟨rfl, -⟩ := Prod.mk.inj (heq.symm.trans hrecord)
    exact h.between
  · cases heq.symm.trans hrecord

/-- Recording another outcome than confirmed leaves the accounts as they are. -/
theorem Submitted.unconfirmed (h : Submitted accounting k row s)
    (submitting : row.status = .submitting)
    (hrecord : s.recordManagedPayout k outcome = (t, recorded))
    (failed : outcome.status ≠ .confirmed) : Between accounting t := by
  rcases WalletStore.recordManagedPayout_old outcome h.recorded with heq | heq
  · obtain ⟨rfl, -⟩ := Prod.mk.inj (heq.symm.trans hrecord)
    exact h.between
  · obtain ⟨rfl, -⟩ := Prod.mk.inj (heq.symm.trans hrecord)
    refine ⟨h.between.1.record h.drawn, fun ha id w hw ↦ ?_⟩
    have hnothing : (row.resolve outcome).confirmedFor id = 0 := if_neg fun hrow ↦ failed hrow.2
    rw [WalletStore.confirmedAlpha_record_old h.recorded (by rw [submitting]; exact nofun),
      hnothing, add_zero]
    exact h.between.2 ha id w hw

/-- Recording that it is confirmed leaves its amount to be credited. -/
theorem Submitted.confirmed (h : Submitted accounting k row s)
    (submitting : row.status = .submitting)
    (hrecord : s.recordManagedPayout k outcome = (t, true))
    (confirmed : outcome.status = .confirmed) :
    t.wallets = s.wallets ∧ t.Fresh ∧
      (accounting → t.Owing (WalletOp.creditManagedPayout row.walletId row.alphaAmount).owed) := by
  rcases WalletStore.recordManagedPayout_old outcome h.recorded with heq | heq
  · cases heq.symm.trans hrecord
  · obtain ⟨rfl, -⟩ := Prod.mk.inj (heq.symm.trans hrecord)
    refine ⟨rfl, h.between.1.record h.drawn, fun ha id w hw ↦ ?_⟩
    have howed : (row.resolve outcome).confirmedFor id =
        (WalletOp.creditManagedPayout row.walletId row.alphaAmount).owed id := by
      simp [Payout.confirmedFor, Payout.resolve, confirmed, WalletOp.owed, eq_comm]
    rw [WalletStore.confirmedAlpha_record_old h.recorded (by rw [submitting]; exact nofun), howed]
    congr 1
    have hbefore := h.between.2 ha id w hw
    rwa [Pi.zero_apply, add_zero] at hbefore

/-- The credit brings the accounts in order. -/
theorem between_credit {alphaAmount : ℚ} (fresh : s.Fresh)
    (owing : accounting → s.Owing (WalletOp.creditManagedPayout id alphaAmount).owed) :
    Between accounting (s.creditManagedPayout id alphaAmount) := by
  refine ⟨fresh, fun ha k w hw ↦ ?_⟩
  rw [Pi.zero_apply, add_zero]
  simp only [WalletStore.creditManagedPayout, Table.get?_modify] at hw
  split at hw
  · next hk =>
    obtain ⟨v, hv, rfl⟩ := Option.map_eq_some_iff.mp hw
    have hbefore := owing ha k v hv
    rwa [WalletOp.owed, if_pos hk] at hbefore
  · next hk =>
    have hbefore := owing ha k w hw
    rwa [WalletOp.owed, if_neg hk, add_zero] at hbefore

theorem WalletStore.unresolved_none (h : s.hasInflightPayout id = false) {k : PayoutId}
    {row : Payout} (hrow : s.payouts.get? k = some row) (hid : row.walletId = id) :
    row.status ≠ .submitting := by
  intro hsubmitting
  have hmem : (k, row) ∈ s.payouts.select fun _ p ↦ p.walletId = id ∧ p.status = .submitting :=
    Table.mem_select.mpr ⟨hrow, by simp [hid, hsubmitting]⟩
  rw [not_not.mp (of_decide_eq_false h)] at hmem
  exact List.not_mem_nil hmem

theorem pays_payOne (hs : Between accounting s) (held : s.Held id wallet) :
    Pays blake2b accounting (fun _ ↦ Between accounting) (payOne blake2b id wallet) s := by
  refine Pays.op_bind hs (by rintro _ _ _ _ _ ⟨⟩) (by rintro _ _ ⟨⟩) fun t hst ht ↦ ?_
  have hheld := held.elsewhere hst
  split
  · exact .done ht
  · next hnone =>
    -- No payout of the wallet is unresolved, and only this worker adds any.
    have hunresolved : t.hasInflightPayout id = false := Bool.eq_false_of_not_eq_true hnone
    clear hnone
    refine Pays.op_bind ht (by rintro _ _ _ _ _ ⟨⟩) (by rintro _ _ ⟨⟩) fun u htu hu ↦ ?_
    have hheld := hheld.elsewhere htu
    split
    · exact .done hu
    · next accrued _ =>
      dsimp only
      split
      · exact .done hu
      · next hpays =>
        obtain ⟨-, hdestination, hvalid, hamount⟩ :=
          planPayout_pays (Bool.eq_true_of_not_eq_false hpays)
        generalize planPayout blake2b wallet accrued = plan at hdestination hamount ⊢
        refine Pays.op_bind hu (by rintro _ _ _ _ _ ⟨⟩) (by rintro _ _ ⟨⟩) fun v huv hv ↦ ?_
        have hheld := hheld.elsewhere huv
        have hdrawn : Between accounting (WalletOp.drawId.exec v).1 :=
          ⟨fun k hk ↦ hv.1 k ((Nat.le_succ _).trans hk), hv.2⟩
        refine Pays.op_bind hdrawn (by rintro _ _ _ _ _ ⟨⟩) (by rintro _ _ ⟨⟩) fun w hvw hw ↦ ?_
        have habsent : w.payouts.get? v.drawn = none := by
          rw [hvw.payouts]
          exact hv.1 v.drawn le_rfl
        have hrecord : (WalletOp.recordManagedPayout v.drawn
            ⟨id, plan.destination, plan.alphaAmount, wallet.netuid, .submitting, none⟩).exec w =
              ({ w with payouts := w.payouts.insert v.drawn ⟨id, plan.destination,
                plan.alphaAmount, wallet.netuid, .submitting, none⟩ }, true) :=
          WalletStore.recordManagedPayout_new habsent rfl
        have hsubmitted := Submitted.of_new ⟨id, plan.destination, plan.alphaAmount,
          wallet.netuid, .submitting, none⟩ hw habsent hvw.drawn (by rintro ⟨⟩)
        rw [show (WalletOp.drawId.exec v).2 = v.drawn from rfl, hrecord]
        dsimp only
        rw [if_neg Bool.noConfusion]
        have hdrawn : (WalletOp.drawId.exec v).1.Held id wallet := hheld
        have hbefore : w.Held id wallet := hdrawn.elsewhere hvw
        have hheld : ({ w with payouts := w.payouts.insert v.drawn ⟨id, plan.destination,
            plan.alphaAmount, wallet.netuid, .submitting, none⟩ } : WalletStore).Held id wallet :=
          hbefore
        refine Throughout.op_bind fun x hwx ↦ ⟨⟨(hsubmitted.elsewhere hwx).between.1, ?_, by rintro _ _ ⟨⟩,
          (hsubmitted.elsewhere hwx).between.2⟩, ?_⟩
        · rintro _ _ _ _ _ ⟨⟩
          obtain ⟨row, hrow, hpayable, haddress⟩ := hheld.elsewhere hwx
          refine ⟨⟨row, hrow, WalletState.payable_iff.mp hpayable, ?_, ?_⟩,
            v.drawn, (hsubmitted.elsewhere hwx).recorded, fun k row hk hid hsubmitting ↦ ?_⟩
          · rw [haddress, hdestination]
          · rw [hdestination, hvalid]
          · rw [hwx.payouts, Table.get?_insert] at hk
            split at hk
            · assumption
            · rw [hvw.payouts] at hk
              change v.payouts.get? k = some row at hk
              rw [huv.payouts] at hk
              change u.payouts.get? k = some row at hk
              rw [htu.payouts] at hk
              exact absurd hsubmitting (WalletStore.unresolved_none hunresolved hk hid)
        · have hx := hsubmitted.elsewhere hwx
          split
          · refine Pays.record hx fun y z recorded hxy hyz ↦ ?_
            exact .done ((hx.elsewhere hxy).unconfirmed rfl hyz (by rintro ⟨⟩))
          · next outcome _ =>
            refine Pays.record hx fun y z recorded hxy hyz ↦ ?_
            have hy := hx.elsewhere hxy
            cases recorded with
            | false => exact .done (hy.refused hyz)
            | true =>
              rw [if_neg Bool.noConfusion]
              cases hsuccess : outcome.success with
              | false =>
                rw [hsuccess] at hyz
                exact .done (hy.unconfirmed rfl hyz (by rintro ⟨⟩))
              | true =>
                rw [hsuccess] at hyz
                obtain ⟨hwallets, hfresh, howing⟩ := hy.confirmed rfl hyz rfl
                obtain ⟨row, hrow, -⟩ := (hheld.elsewhere hwx).elsewhere hxy
                have hknown (k : WalletId) (hnone : z.wallets.get? k = none) :
                    (WalletOp.creditManagedPayout id plan.alphaAmount).owed k = 0 := by
                  refine if_neg ?_
                  rintro rfl
                  rw [hwallets, hrow] at hnone
                  cases hnone
                refine Throughout.op_bind fun z' hz ↦ ⟨⟨hfresh.elsewhere hz, by rintro _ _ _ _ _ ⟨⟩, ?_, ?_⟩, ?_⟩
                · rintro _ _ ⟨⟩
                  exact hamount
                · exact fun ha ↦ (howing ha).elsewhere hz hknown
                · exact Pays.done (between_credit (hfresh.elsewhere hz)
                    fun ha ↦ (howing ha).elsewhere hz hknown)

/-- A payout changes no wallet's state or address. -/
theorem WalletStore.Held.exec (h : s.Held id wallet) {o : WalletOp} (ho : o.aside = true) :
    (o.exec s).1.Held id wallet := by
  obtain ⟨w, hw, hpayable, haddress⟩ := h
  cases o with
  | createManagedWallet k new =>
    simp only [WalletOp.exec, WalletStore.createManagedWallet]
    split
    · exact ⟨w, hw, hpayable, haddress⟩
    · next hfree =>
      have hne : id ≠ k := by
        rintro rfl
        rw [hw] at hfree
        exact hfree (.inl rfl)
      exact ⟨w, (Table.get?_insert_ne _ hne _).trans hw, hpayable, haddress⟩
  | advanceManagedWallet k target fields =>
    simp only [WalletOp.exec, WalletStore.advanceManagedWallet]
    by_cases hk : k = id
    · subst hk
      -- A wallet that is paid does not become funded, nor does its funding expire.
      have hillegal : w.state.canTransition target = false := by
        have htarget : target = .funded ∨ target = .fundingExpired := of_decide_eq_true ho
        rcases htarget with rfl | rfl <;>
          rcases WalletState.payable_iff.mp hpayable with hstate | hstate <;> rw [hstate] <;> rfl
      rw [hw]
      dsimp only
      rw [if_pos hillegal]
      exact ⟨w, hw, hpayable, haddress⟩
    · split
      · exact ⟨w, hw, hpayable, haddress⟩
      · split
        · exact ⟨w, hw, hpayable, haddress⟩
        · exact ⟨w, (Table.get?_insert_ne _ (Ne.symm hk) _).trans hw, hpayable, haddress⟩
  | recordManagedPayout k row =>
    simp only [WalletOp.exec, WalletStore.recordManagedPayout]
    split <;> exact ⟨w, hw, hpayable, haddress⟩
  | creditManagedPayout k alphaAmount =>
    by_cases hk : id = k
    · refine ⟨{ w with totalPaidAlpha := w.totalPaidAlpha + alphaAmount }, ?_, hpayable, haddress⟩
      simp only [WalletOp.exec, WalletStore.creditManagedPayout]
      rw [hk, Table.get?_modify_self, ← hk, hw, Option.map_some]
    · exact ⟨w, (Table.get?_modify_ne _ hk _).trans hw, hpayable, haddress⟩
  | addWhitelistEntry | register | setChain => cases ho
  | _ => exact ⟨w, hw, hpayable, haddress⟩

theorem pays_payEach {l : List (WalletId × ManagedWallet)} (hs : Between accounting s)
    (held : ∀ r ∈ l, s.Held r.1 r.2) :
    Pays blake2b accounting (fun _ ↦ Between accounting) (payEach blake2b l) s := by
  induction l generalizing s with
  | nil => exact .done hs
  | cons r l ih =>
    obtain ⟨id, wallet⟩ := r
    have hone : Pays blake2b accounting (fun _ s ↦ Between accounting s ∧ ∀ r ∈ l, s.Held r.1 r.2)
        (payOne blake2b id wallet) s :=
      (pays_payOne hs (held _ List.mem_cons_self)).carry
        ((uses_payOne blake2b id wallet).mono fun _ ↦ WalletOp.aside_of_routine)
        (fun _ _ hst hheld r hr ↦ (hheld r hr).elsewhere hst)
        (fun _ _ ho hheld r hr ↦ (hheld r hr).exec ho)
        fun r hr ↦ held r (List.mem_cons_of_mem _ hr)
    refine Throughout.bind .refl (hone.mono fun paid t ht ↦ ?_)
    cases paid with
    | none => exact Pays.done ht.1
    | some paid =>
      refine Throughout.bind .refl ((ih ht.1 ht.2).mono fun count u hu ↦ ?_)
      cases count with
      | none => exact Pays.done hu
      | some count => exact Pays.done hu

theorem pays_tickPayouts (hs : Between accounting s) :
    Pays blake2b accounting (fun _ ↦ Between accounting)
      (ManagedWalletService.tickPayouts blake2b) s := by
  have hlisted (state : WalletState) (hstate : state.payable = true) (t : WalletStore)
      (r : WalletId × ManagedWallet) (hr : r ∈ t.listManagedWalletsInState state) :
      t.Held r.1 r.2 := by
    obtain ⟨hget, hlist⟩ := Table.mem_select.mp hr
    exact ⟨r.2, hget, by rw [of_decide_eq_true hlist, hstate], rfl⟩
  refine Pays.op_bind hs nofun nofun fun t _ ht ↦ ?_
  refine Throughout.bind .refl ((pays_payEach ht (hlisted _ rfl t)).mono fun paid u hu ↦ ?_)
  cases paid with
  | none => exact Pays.done hu
  | some paid =>
    refine Pays.op_bind hu nofun nofun fun v _ hv ↦ ?_
    refine Throughout.bind .refl ((pays_payEach hv (hlisted _ rfl v)).mono fun paid' x hx ↦ ?_)
    cases paid' with
    | none => exact Pays.done hx
    | some paid' => exact Pays.done hx

end

/-! ## Every run -/

/-- The worker runs the tick of payouts again and again, and may die at any moment. -/
def payingOut : WalletCall → Option WalletOp → WalletStore → Prop
  | .tickPayouts, _, _ => True
  | _, _, _ => False

/-- It does not die between recording a confirmed payout and crediting it. -/
def notBeforeCredit : WalletCall → Option WalletOp → WalletStore → Prop
  | .tickPayouts, some (.creditManagedPayout ..), _ => False
  | .tickPayouts, _, _ => True
  | _, _, _ => False

instance (c : WalletCall) (o : Option WalletOp) (s : WalletStore) :
    Decidable (payingOut c o s) := by
  unfold payingOut
  split <;> infer_instance

instance (c : WalletCall) (o : Option WalletOp) (s : WalletStore) :
    Decidable (notBeforeCredit c o s) := by
  unfold notBeforeCredit
  split <;> infer_instance

section

variable {blake2b : List ℕ → List ℕ} {accounting : Prop} {s₀ s : WalletStore}
  {p : Program Wallets Unit} {G : WalletCall → Option WalletOp → WalletStore → Prop}

/-- What holds at every point of a run. -/
theorem pays_run (run : (wallets blake2b).Alone WalletStore.Elsewhere G s₀ p s)
    (tick : ∀ c o s, G c o s → c = .tickPayouts) (start : Between accounting s₀)
    (cut : ∀ c o s, PayoutFit blake2b accounting o s → G c (some o) s → Between accounting s) :
    Pays blake2b accounting (fun _ ↦ Between accounting) p s := by
  refine run.throughout .refl .trans (fun _ _ hst hs ↦ hs.elsewhere hst) start cut ?_
  intro c o t hc ht
  obtain rfl := tick c o t hc
  exact Throughout.bind .refl ((pays_tickPayouts ht).mono fun _ _ hu ↦ Pays.done hu)

end

/-- In every run of the tick of payouts by one worker that may die between any two steps, a
transfer is only submitted for a wallet that is active or suspended, to its valid address, while
no other payout of the wallet is unresolved. In a run in which the worker does not die in front of
a credit, a wallet's running total is the sum of its confirmed payouts exactly where the worker is
not about to credit one of them. -/
theorem payouts_accounted (blake2b : List ℕ → List ℕ) (s₀ s : WalletStore)
    (p : Program Wallets Unit) (fresh : s₀.Fresh) (accounted : s₀.Owing 0)
    (run : (wallets blake2b).Alone WalletStore.Elsewhere payingOut s₀ p s) :
    (∀ id hotkey destination netuid alphaAmount,
      p.next = some (.transferAlpha id hotkey destination netuid alphaAmount) →
        TransferFit blake2b id destination netuid alphaAmount s) ∧
      ((wallets blake2b).Alone WalletStore.Elsewhere notBeforeCredit s₀ p s →
        ∀ id w, s.wallets.get? id = some w → (w.totalPaidAlpha = s.confirmedAlpha id ↔
          ∀ alphaAmount, p.next ≠ some (.creditManagedPayout id alphaAmount))) := by
  constructor
  · intro id hotkey destination netuid alphaAmount hnext
    have hpays : Pays blake2b False (fun _ ↦ Between False) p s :=
      pays_run run (fun c _ _ hc ↦ by cases c <;> first | rfl | exact hc.elim)
        ⟨fresh, False.elim⟩ fun _ _ _ hfit _ ↦ ⟨hfit.fresh, False.elim⟩
    cases p with
    | done a => cases hnext
    | call o k =>
      exact (hpays s (.refl s)).1.transfer id hotkey destination netuid alphaAmount
        (Option.some.inj hnext)
  · intro guarded id w hw
    have hpays : Pays blake2b True (fun _ ↦ Between True) p s := by
      refine pays_run guarded (fun c o t hc ↦ ?_) ⟨fresh, fun _ ↦ accounted⟩ fun c o t hfit hc ↦ ?_
      · cases c <;> first | rfl | exact hc.elim
      · refine ⟨hfit.fresh, fun ha ↦ ?_⟩
        have howing := hfit.owing ha
        cases c with
        | tickPayouts =>
          cases o with
          | creditManagedPayout => exact hc.elim
          | _ => exact howing
        | _ => exact hc.elim
    cases p with
    | done a =>
      have htotal := (hpays s (.refl s)).2 trivial id w hw
      rw [Pi.zero_apply, add_zero] at htotal
      exact ⟨fun _ ↦ nofun, fun _ ↦ htotal⟩
    | call o k =>
      have hfit := (hpays s (.refl s)).1
      have htotal := hfit.owing trivial id w hw
      by_cases hcredit : ∃ alphaAmount, o = .creditManagedPayout id alphaAmount
      · obtain ⟨alphaAmount, rfl⟩ := hcredit
        have hpositive : 0 < alphaAmount :=
          lt_of_lt_of_le (by norm_num [minPayoutAlpha]) (hfit.credit id alphaAmount rfl)
        rw [WalletOp.owed, if_pos rfl] at htotal
        exact ⟨fun heq ↦ by linarith, fun hnot ↦ absurd rfl (hnot alphaAmount)⟩
      · have hnot (alphaAmount : ℚ) : o ≠ .creditManagedPayout id alphaAmount :=
          fun ho ↦ hcredit ⟨alphaAmount, ho⟩
        rw [WalletOp.owed_eq_zero hnot, add_zero] at htotal
        exact ⟨fun _ alphaAmount hnext ↦ hnot alphaAmount (Option.some.inj hnext), fun _ ↦ htotal⟩

/-- An active wallet with a stake of one alpha. The digest begins with the checksum of its payout
address. -/
def stakedWallet : WalletStore where
  wallets := .ofRows [(1, ⟨1, "5C".toList, "5H".toList,
    "5GrwvaEF5zXb26Fz9rcQpDWS57CtERHpNehXCPcNoHGKutQY".toList, .active, 110, 1, 1, some 7, 0, 0⟩)]
  payouts := .empty
  whitelist := ["5H".toList]
  chain :=
    { uid := fun _ _ ↦ some 7
      answersUid := true
      burn := fun _ ↦ none
      balance := fun _ ↦ none
      attempt := fun _ _ ↦ ⟨none, false⟩
      stakedAlpha := fun _ _ _ ↦ some (.finite 1)
      transfer := fun _ _ ↦ some ⟨true, none⟩ }
  now := 0
  drawn := 0

/-- The digest of the address's prefix, up to its length of 64 bytes. -/
def addressDigest (_ : List ℕ) : List ℕ :=
  [29, 33, 224, 81, 130, 170, 147, 122, 170, 215, 22, 56, 131, 46, 229, 69, 71, 89, 126, 55, 75, 27,
    190, 101, 96, 201, 178, 244, 247, 56, 3, 79, 198, 22, 13, 230, 140, 118, 25, 28, 192, 181, 32,
    133, 102, 230, 187, 26, 59, 102, 52, 41, 250, 88, 13, 15, 27, 231, 200, 247, 155, 175, 155, 151]

theorem stakedWallet_accounted : stakedWallet.Fresh ∧ stakedWallet.Owing 0 := by
  refine ⟨fun k _ ↦ Table.get?_empty k, fun id w hw ↦ ?_⟩
  obtain ⟨rfl, rfl⟩ := Prod.mk.inj (List.mem_singleton.mp (Table.mem_rows_iff.mpr hw))
  exact add_zero (0 : ℚ)

/-- A tick that is not interrupted pays the stake out and accounts for it. -/
theorem payouts_accounted_tick : ∃ p s,
    (wallets addressDigest).Alone WalletStore.Elsewhere payingOut stakedWallet p s ∧
      s.confirmedAlpha 1 = 1 ∧ ∀ w, s.wallets.get? 1 = some w → w.totalPaidAlpha = 1 := by
  have hended : ∃ p s,
      (wallets addressDigest).Alone WalletStore.Elsewhere notBeforeCredit stakedWallet p s ∧
        p.next.isNone = true ∧ s.confirmedAlpha 1 = 1 :=
    Service.exists_alone_of_turns (.call .tickPayouts :: List.replicate 9 .op) (by decide +kernel)
  obtain ⟨p, s, hrun, hnext, hconfirmed⟩ := hended
  have hpaying :
      (wallets addressDigest).Alone WalletStore.Elsewhere payingOut stakedWallet p s := by
    refine hrun.mono fun c o t hc ↦ ?_
    cases c with
    | tickPayouts => trivial
    | _ => exact hc.elim
  refine ⟨p, s, hpaying, hconfirmed, fun w hw ↦ ?_⟩
  have haccounted := payouts_accounted addressDigest stakedWallet s p stakedWallet_accounted.1
    stakedWallet_accounted.2 hpaying
  rw [← hconfirmed]
  refine ((haccounted.2 hrun) 1 w hw).mpr fun alphaAmount hcredit ↦ ?_
  rw [hcredit] at hnext
  cases hnext

/-- The worker dies between recording a confirmed payout and crediting it: once the next tick has
ended nothing is unresolved, and the first payout is still missing from the total. -/
theorem confirmed_payout_not_credited : ∃ p s,
    (wallets addressDigest).Alone WalletStore.Elsewhere payingOut stakedWallet p s ∧
      p.next.isNone = true ∧ s.hasInflightPayout 1 = false ∧
      ∃ r ∈ s.wallets.rows, r.1 = 1 ∧ r.2.totalPaidAlpha = 1 ∧ s.confirmedAlpha 1 = 2 :=
  Service.exists_alone_of_turns
    (.call .tickPayouts :: List.replicate 7 .op ++ .call .tickPayouts :: List.replicate 9 .op)
    (by decide +kernel)

end GreenCompute
