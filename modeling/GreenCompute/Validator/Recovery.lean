import GreenCompute.Foundations.Interruption
import GreenCompute.Validator.Registrations

/-!
# Wallets after a crash

The process that runs the ticks may die between any two steps. The next tick of registration is to
pick up what was left: a hotkey that the chain reports registered is adopted, and a registered
wallet is activated. It looks at funded and at registered wallets only, so a wallet whose process
died between its advance to registering and the outcome of its attempt is not picked up, even if
the attempt has landed.

What holds after every crash is that a wallet is registered or active only with the uid that the
chain reports, and active only with its hotkey on the whitelist.
-/

namespace GreenCompute

open ManagedWalletService Program

/-! ## What every step keeps -/

/-- The wallet's registration has been adopted. -/
def WalletState.adopted : WalletState → Bool
  | registered | active => true
  | _ => false

/-- No two wallets share a hotkey; those registered or active have the uid that the chain reports,
and the hotkeys of active ones are on the whitelist. -/
structure WalletStore.Sound (s : WalletStore) : Prop where
  distinct : ∀ id id' w w', s.wallets.get? id = some w → s.wallets.get? id' = some w' →
    w.hotkeySs58 = w'.hotkeySs58 → id = id'
  enrolled : ∀ id w, s.wallets.get? id = some w → w.state.adopted = true →
    ∃ uid, w.uid = some uid ∧ s.chain.uid w.hotkeySs58 w.netuid = some uid
  listed : ∀ id w, s.wallets.get? id = some w → w.state = .active → w.hotkeySs58 ∈ s.whitelist

/-- Wallets stay, with their hotkeys, and stay adopted; so do the uids of registered hotkeys and
the entries of the whitelist. -/
structure WalletStore.Keeps (s s' : WalletStore) : Prop where
  wallet : ∀ id w, s.wallets.get? id = some w → ∃ w', s'.wallets.get? id = some w' ∧
    w'.hotkeySs58 = w.hotkeySs58 ∧ w'.netuid = w.netuid ∧
      (w.state.adopted = true → w'.state.adopted = true)
  uid : ∀ hotkey netuid uid, s.chain.uid hotkey netuid = some uid →
    s'.chain.uid hotkey netuid = some uid
  whitelist : ∀ hotkey ∈ s.whitelist, hotkey ∈ s'.whitelist

namespace WalletStore

theorem Keeps.refl (s : WalletStore) : s.Keeps s :=
  ⟨fun _ w hw ↦ ⟨w, hw, rfl, rfl, fun h ↦ h⟩, fun _ _ _ h ↦ h, fun _ h ↦ h⟩

theorem Keeps.trans {s t u : WalletStore} (h : s.Keeps t) (h' : t.Keeps u) : s.Keeps u := by
  refine ⟨fun id w hw ↦ ?_, fun _ _ _ huid ↦ h'.uid _ _ _ (h.uid _ _ _ huid),
    fun hotkey hlisted ↦ h'.whitelist hotkey (h.whitelist hotkey hlisted)⟩
  obtain ⟨w₁, hw₁, hhotkey₁, hnetuid₁, hadopted₁⟩ := h.wallet id w hw
  obtain ⟨w₂, hw₂, hhotkey₂, hnetuid₂, hadopted₂⟩ := h'.wallet id w₁ hw₁
  exact ⟨w₂, hw₂, hhotkey₂.trans hhotkey₁, hnetuid₂.trans hnetuid₁, hadopted₂ ∘ hadopted₁⟩

/-- The contract that every step of the ticks keeps. -/
def sound : Contract WalletStore := ⟨Sound, Keeps, Keeps.refl, Keeps.trans⟩

variable {s s' : WalletStore}

/-- Where the wallets are the same and nothing else is lost, the contract is kept. -/
theorem Sound.grow (hs : s.Sound) (wallets : ∀ id, s'.wallets.get? id = s.wallets.get? id)
    (uid : ∀ hotkey netuid uid, s.chain.uid hotkey netuid = some uid →
      s'.chain.uid hotkey netuid = some uid)
    (whitelist : ∀ hotkey ∈ s.whitelist, hotkey ∈ s'.whitelist) : s'.Sound ∧ s.Keeps s' := by
  refine ⟨⟨?_, ?_, ?_⟩, ⟨fun id w hw ↦ ?_, uid, whitelist⟩⟩
  · intro id id' w w' hw hw'
    rw [wallets] at hw hw'
    exact hs.distinct id id' w w' hw hw'
  · intro id w hw hadopted
    rw [wallets] at hw
    obtain ⟨n, hn, huid⟩ := hs.enrolled id w hw hadopted
    exact ⟨n, hn, uid _ _ _ huid⟩
  · intro id w hw hactive
    rw [wallets] at hw
    exact whitelist _ (hs.listed id w hw hactive)
  · exact ⟨w, (wallets id).trans hw, rfl, rfl, fun h ↦ h⟩

/-- One wallet may be written, as long as it keeps its hotkey and what it says is true. -/
theorem Sound.write (hs : s.Sound) {id : WalletId} {w w' : ManagedWallet}
    (hw : s.wallets.get? id = some w)
    (wallets : ∀ k, s'.wallets.get? k = if k = id then some w' else s.wallets.get? k)
    (chain : s'.chain = s.chain) (whitelist : s'.whitelist = s.whitelist)
    (hotkey : w'.hotkeySs58 = w.hotkeySs58) (netuid : w'.netuid = w.netuid)
    (adopted : w.state.adopted = true → w'.state.adopted = true)
    (enrolled : w'.state.adopted = true →
      ∃ uid, w'.uid = some uid ∧ s.chain.uid w.hotkeySs58 w.netuid = some uid)
    (listed : w'.state = .active → w.hotkeySs58 ∈ s.whitelist) :
    s'.Sound ∧ s.Keeps s' := by
  -- What is now in the table was there before, with the same hotkey.
  have hold (k : WalletId) (v : ManagedWallet) (hv : s'.wallets.get? k = some v) :
      ∃ v₀, s.wallets.get? k = some v₀ ∧ v.hotkeySs58 = v₀.hotkeySs58 := by
    rw [wallets] at hv
    split at hv
    · next hk =>
      obtain rfl := Option.some.inj hv
      exact ⟨w, by rw [hk, hw], hotkey⟩
    · exact ⟨v, hv, rfl⟩
  refine ⟨⟨?_, ?_, ?_⟩, ⟨?_, ?_, ?_⟩⟩
  · intro k k' v v' hv hv' heq
    obtain ⟨v₀, hv₀, hhotkey⟩ := hold k v hv
    obtain ⟨v₀', hv₀', hhotkey'⟩ := hold k' v' hv'
    exact hs.distinct k k' v₀ v₀' hv₀ hv₀' (by rw [← hhotkey, heq, hhotkey'])
  · intro k v hv hadopted
    rw [wallets] at hv
    rw [chain]
    split at hv
    · obtain rfl := Option.some.inj hv
      rw [hotkey, netuid]
      exact enrolled hadopted
    · exact hs.enrolled k v hv hadopted
  · intro k v hv hactive
    rw [wallets] at hv
    rw [whitelist]
    split at hv
    · obtain rfl := Option.some.inj hv
      rw [hotkey]
      exact listed hactive
    · exact hs.listed k v hv hactive
  · intro k v hv
    by_cases hk : k = id
    · subst hk
      obtain rfl := Option.some.inj (hw.symm.trans hv)
      exact ⟨w', by rw [wallets, if_pos rfl], hotkey, netuid, adopted⟩
    · exact ⟨v, by rw [wallets, if_neg hk, hv], rfl, rfl, fun h ↦ h⟩
  · intro _ _ _ huid
    rw [chain]
    exact huid
  · intro _ hlisted
    rw [whitelist]
    exact hlisted

end WalletStore

/-- Where an operation keeps the contract: an adoption records the uid that the chain reports, and
an activation is of an adopted wallet on the whitelist. -/
def WalletOp.Fit : WalletOp → WalletStore → Prop
  | createManagedWallet _ wallet, _ => wallet.state.adopted = false
  | advanceManagedWallet _ .suspended _, _ => False
  | advanceManagedWallet id .registered fields, s => ∀ w, s.wallets.get? id = some w →
    ∃ uid, fields.uid = some uid ∧ s.chain.uid w.hotkeySs58 w.netuid = some uid
  | advanceManagedWallet id .active fields, s => fields.uid = none ∧
    ∀ w, s.wallets.get? id = some w → w.state.adopted = true ∧ w.hotkeySs58 ∈ s.whitelist
  | setChain _, _ => False
  | _, _ => True

/-- From an adopted state, an advance other than to suspended is to an adopted state. -/
theorem WalletState.adopted_of_canTransition {current target : WalletState}
    (legal : current.canTransition target = true) (hne : target ≠ .suspended)
    (h : current.adopted = true) : target.adopted = true := by
  cases current with
  | registered | active =>
    cases target <;> simp_all [canTransition, validTransitions, adopted]
  | _ => cases h

theorem advance_keeps {s : WalletStore} (hs : s.Sound) {id : WalletId} {target : WalletState}
    {fields : AdvanceFields} (fit : (WalletOp.advanceManagedWallet id target fields).Fit s) :
    (s.advanceManagedWallet id target fields).1.Sound ∧
      s.Keeps (s.advanceManagedWallet id target fields).1 := by
  unfold WalletStore.advanceManagedWallet
  cases hw : s.wallets.get? id with
  | none => exact ⟨hs, .refl s⟩
  | some w =>
    dsimp only
    split
    · exact ⟨hs, .refl s⟩
    · next hlegal =>
      have hne : target ≠ .suspended := by
        rintro rfl
        exact fit
      refine hs.write hw (fun k ↦ Table.get?_insert _ id k _) rfl rfl rfl rfl ?_ ?_ ?_
      · exact WalletState.adopted_of_canTransition (Bool.eq_true_of_not_eq_false hlegal) hne
      · intro hadopted
        cases target with
        | registered =>
          obtain ⟨uid, huid, hchain⟩ := fit w hw
          exact ⟨uid, by simp [AdvanceFields.apply, huid], hchain⟩
        | active =>
          obtain ⟨uid, huid, hchain⟩ := hs.enrolled id w hw (fit.2 w hw).1
          exact ⟨uid, by simp [AdvanceFields.apply, fit.1, huid], hchain⟩
        | _ => cases hadopted
      · intro hactive
        obtain rfl : target = .active := hactive
        exact (fit.2 w hw).2

theorem exec_keeps {o : WalletOp} {s : WalletStore} (hs : s.Sound) (fit : o.Fit s) :
    (o.exec s).1.Sound ∧ s.Keeps (o.exec s).1 := by
  cases o with
  | createManagedWallet id wallet =>
    simp only [WalletOp.exec, WalletStore.createManagedWallet]
    split
    · exact ⟨hs, .refl s⟩
    · next hfree =>
      rw [not_or] at hfree
      have habsent := Option.not_isSome_iff_eq_none.mp hfree.1
      have hnew (k : WalletId) (w : ManagedWallet) (hw : s.wallets.get? k = some w) :
          w.hotkeySs58 ≠ wallet.hotkeySs58 := by
        intro heq
        have hmem : (k, w) ∈ s.wallets.select fun _ w ↦
            w.coldkeySs58 = wallet.coldkeySs58 ∨ w.hotkeySs58 = wallet.hotkeySs58 :=
          Table.mem_select.mpr ⟨hw, by simp [heq]⟩
        rw [not_not.mp hfree.2] at hmem
        exact List.not_mem_nil hmem
      have hget (k : WalletId) := Table.get?_insert s.wallets id k wallet
      refine ⟨⟨?_, ?_, ?_⟩, ⟨?_, fun _ _ _ h ↦ h, fun _ h ↦ h⟩⟩
      · intro k k' w w' hw hw' heq
        rw [hget] at hw hw'
        split at hw <;> split at hw'
        · next hk hk' => rw [hk, hk']
        · obtain rfl := Option.some.inj hw
          exact absurd heq.symm (hnew k' w' hw')
        · obtain rfl := Option.some.inj hw'
          exact absurd heq (hnew k w hw)
        · exact hs.distinct k k' w w' hw hw' heq
      · intro k w hw hadopted
        rw [hget] at hw
        split at hw
        · obtain rfl := Option.some.inj hw
          rw [show wallet.state.adopted = false from fit] at hadopted
          cases hadopted
        · exact hs.enrolled k w hw hadopted
      · intro k w hw hactive
        rw [hget] at hw
        split at hw
        · obtain rfl := Option.some.inj hw
          have hfit : wallet.state.adopted = false := fit
          rw [hactive] at hfit
          cases hfit
        · exact hs.listed k w hw hactive
      · intro k w hw
        have hk : k ≠ id := by
          rintro rfl
          rw [habsent] at hw
          cases hw
        exact ⟨w, by rw [hget, if_neg hk, hw], rfl, rfl, fun h ↦ h⟩
  | advanceManagedWallet id target fields => exact advance_keeps hs fit
  | addWhitelistEntry hotkey =>
    simp only [WalletOp.exec, WalletStore.addWhitelistEntry]
    split
    · exact ⟨hs, .refl s⟩
    · exact hs.grow (fun _ ↦ rfl) (fun _ _ _ h ↦ h) fun _ h ↦ List.mem_append_left _ h
  | recordManagedPayout id row =>
    simp only [WalletOp.exec, WalletStore.recordManagedPayout]
    split
    · exact ⟨hs, .refl s⟩
    · exact hs.grow (fun _ ↦ rfl) (fun _ _ _ h ↦ h) fun _ h ↦ h
  | creditManagedPayout id alphaAmount =>
    cases hw : s.wallets.get? id with
    | none =>
      refine hs.grow (fun k ↦ ?_) (fun _ _ _ h ↦ h) fun _ h ↦ h
      simp only [WalletOp.exec, WalletStore.creditManagedPayout, Table.get?_modify]
      split
      · next hk => rw [hk, hw, Option.map_none]
      · rfl
    | some w =>
      have hget (k : WalletId) : (s.creditManagedPayout id alphaAmount).wallets.get? k =
          if k = id then some { w with totalPaidAlpha := w.totalPaidAlpha + alphaAmount }
          else s.wallets.get? k := by
        rw [WalletStore.creditManagedPayout, Table.get?_modify]
        split
        · next hk => rw [hk, hw, Option.map_some]
        · rfl
      exact hs.write hw hget rfl rfl rfl rfl (fun h ↦ h) (hs.enrolled id w hw)
        (hs.listed id w hw)
  | register id hotkey netuid =>
    refine hs.grow (fun _ ↦ rfl) (fun h n uid huid ↦ ?_) fun _ h ↦ h
    simp only [WalletOp.exec, WalletStore.register]
    split
    · next heq =>
      rw [← heq.1, ← heq.2, huid]
      rfl
    · exact huid
  | setChain chain => exact fit.elim
  | drawId | advance => exact hs.grow (fun _ ↦ rfl) (fun _ _ _ h ↦ h) fun _ h ↦ h
  | _ => exact ⟨hs, .refl s⟩

/-! ## Every call keeps it -/

theorem WalletOp.aside_fit {o : WalletOp} (h : o.aside = true) (s : WalletStore) : o.Fit s := by
  cases o with
  | createManagedWallet id wallet =>
    have hstate : wallet.state = .awaitingFunding := of_decide_eq_true h
    rw [Fit, hstate]
    rfl
  | advanceManagedWallet id target fields =>
    rcases (of_decide_eq_true h : target = .funded ∨ target = .fundingExpired) with rfl | rfl <;>
      trivial
  | setChain => cases h
  | _ => trivial

/-- The table has a wallet with this hotkey, which is still adopted if it was. -/
def WalletStore.Holds (s : WalletStore) (id : WalletId) (wallet : ManagedWallet) : Prop :=
  ∃ w, s.wallets.get? id = some w ∧ w.hotkeySs58 = wallet.hotkeySs58 ∧
    w.netuid = wallet.netuid ∧ (wallet.state.adopted = true → w.state.adopted = true)

theorem WalletStore.Holds.keeps {s s' : WalletStore} {id : WalletId} {wallet : ManagedWallet}
    (h : s.Holds id wallet) (hs : s.Keeps s') : s'.Holds id wallet := by
  obtain ⟨w, hw, hhotkey, hnetuid, hadopted⟩ := h
  obtain ⟨w', hw', hhotkey', hnetuid', hadopted'⟩ := hs.wallet id w hw
  exact ⟨w', hw', hhotkey'.trans hhotkey, hnetuid'.trans hnetuid, hadopted' ∘ hadopted⟩

theorem WalletStore.holds_of_listed {s : WalletStore} {state : WalletState}
    {r : WalletId × ManagedWallet} (hr : r ∈ s.listManagedWalletsInState state) :
    s.wallets.get? r.1 = some r.2 ∧ r.2.state = state ∧ s.Holds r.1 r.2 := by
  obtain ⟨hget, hstate⟩ := Table.mem_select.mp hr
  exact ⟨hget, of_decide_eq_true hstate, r.2, hget, rfl, rfl, fun h ↦ h⟩

section

variable (blake2b : List ℕ → List ℕ) {α : Type} {past : List (Event Wallets)} {s : WalletStore}
  {id : WalletId} {wallet : ManagedWallet}

/-- The method keeps the contract whatever happens in between, and ends in `Q`. -/
abbrev KeepsSound (Q : α → WalletStore → Prop) (p : Program Wallets α)
    (past : List (Event Wallets)) (s : WalletStore) : Prop :=
  Safe (wallets blake2b).toMachine WalletStore.sound (fun _ _ _ ↦ True) (fun a _ s ↦ Q a s) p past s

variable {blake2b}

/-- One step that fits, then the rest. -/
theorem KeepsSound.op_bind {o : WalletOp} {f : o.Ans → Program Wallets α}
    {Q : α → WalletStore → Prop}
    (fit : ∀ t, s.Keeps t → o.Fit t)
    (rest : ∀ t past, s.Keeps t → t.Keeps (o.exec t).1 →
      KeepsSound blake2b Q (f (o.exec t).2) past (o.exec t).1) :
    KeepsSound blake2b Q (call o >>= f) past s := by
  refine Safe.op_bind fun t hst hsound _ _ ↦ ?_
  have hsound' : t.Sound := hsound
  obtain ⟨hexec, hkeeps⟩ := exec_keeps hsound' (fit t hst)
  exact ⟨hexec, hkeeps, rest t _ hst hkeeps⟩

theorem KeepsSound.of_uses {p : Program Wallets α}
    (h : p.Uses fun o : WalletOp ↦ ∀ t, o.Fit t) :
    KeepsSound blake2b (fun _ _ ↦ True) p past s :=
  Safe.of_uses h fun _ _ t ho _ ht _ _ ↦ exec_keeps ht (ho t)

theorem KeepsSound.of_aside {p : Program Wallets α}
    (h : p.Uses fun o : WalletOp ↦ o.aside = true) :
    KeepsSound blake2b (fun _ _ ↦ True) p past s :=
  .of_uses (h.mono fun _ ho ↦ WalletOp.aside_fit ho)

/-- A plan to adopt is made of a hotkey that the chain reports registered. -/
theorem safe_planRegistration : KeepsSound blake2b (fun plan s ↦ ∀ p ∈ plan, ∀ uid,
    p.reason = .alreadyRegistered uid → s.chain.uid wallet.hotkeySs58 wallet.netuid = some uid)
    (planRegistration wallet) past s := by
  unfold planRegistration
  split
  · rintro t - - p ⟨⟩ uid ⟨⟩
  · refine KeepsSound.op_bind (fun _ _ ↦ trivial) fun t past _ _ ↦ ?_
    by_cases hanswers : t.chain.answersUid = true
    · have hread : ((WalletOp.isRegistered wallet.hotkeySs58 wallet.netuid).exec t).2 =
          some (t.chain.uid wallet.hotkeySs58 wallet.netuid) := if_pos hanswers
      rw [hread]
      cases huid : t.chain.uid wallet.hotkeySs58 wallet.netuid with
      | some uid =>
        rintro u hu - p ⟨⟩ n ⟨⟩
        exact hu.uid _ _ _ huid
      | none =>
        refine KeepsSound.op_bind (fun _ _ ↦ trivial) fun t past _ _ ↦ ?_
        split
        · exact fun _ _ _ _ h ↦ nomatch h
        · refine KeepsSound.op_bind (fun _ _ ↦ trivial) fun t past _ _ ↦ ?_
          split
          · exact fun _ _ _ _ h ↦ nomatch h
          · dsimp only
            split
            · rintro t - - p ⟨⟩ uid ⟨⟩
            · rintro t - - p ⟨⟩ uid ⟨⟩
    · have hread : ((WalletOp.isRegistered wallet.hotkeySs58 wallet.netuid).exec t).2 = none :=
        if_neg hanswers
      rw [hread]
      exact fun _ _ _ _ h ↦ nomatch h

theorem safe_adoptRegistration (held : s.Holds id wallet) {uid : ℕ}
    (registered : s.chain.uid wallet.hotkeySs58 wallet.netuid = some uid) :
    KeepsSound blake2b (fun _ _ ↦ True) (adoptRegistration id wallet) past s := by
  refine KeepsSound.op_bind (fun _ _ ↦ trivial) fun t past hst _ ↦ ?_
  have huid := hst.uid _ _ _ registered
  by_cases hanswers : t.chain.answersUid = true
  · have hread : ((WalletOp.isRegistered wallet.hotkeySs58 wallet.netuid).exec t).2 =
        some (some uid) := by
      rw [← huid]
      exact if_pos hanswers
    rw [hread]
    refine KeepsSound.op_bind (fun _ _ ↦ trivial) fun u past htu huv ↦
      KeepsSound.op_bind (fun v hv ↦ ?_) fun _ _ _ _ ↦ fun _ _ _ ↦ trivial
    -- The uid just read is still the one that the chain reports.
    have hkeeps := htu.trans (huv.trans hv)
    intro w hw
    obtain ⟨w', hw', hhotkey, hnetuid, -⟩ := (held.keeps hst).keeps hkeeps
    obtain rfl := Option.some.inj (hw.symm.trans hw')
    rw [hhotkey, hnetuid]
    exact ⟨uid, rfl, hkeeps.uid _ _ _ huid⟩
  · have hread : ((WalletOp.isRegistered wallet.hotkeySs58 wallet.netuid).exec t).2 = none :=
      if_neg hanswers
    rw [hread]
    exact fun _ _ _ ↦ trivial

theorem safe_submitRegistration (held : s.Holds id wallet) :
    KeepsSound blake2b (fun _ _ ↦ True) (submitRegistration id wallet) past s := by
  refine KeepsSound.op_bind (fun _ _ ↦ trivial) fun t past hst htt ↦ ?_
  have hheld := (held.keeps hst).keeps htt
  split
  · exact fun _ _ _ ↦ trivial
  · refine KeepsSound.op_bind (fun _ _ ↦ trivial) fun u past hu huu ↦ ?_
    have hheld := (hheld.keeps hu).keeps huu
    split
    · exact KeepsSound.op_bind (fun _ _ ↦ trivial) fun _ _ _ _ ↦ fun _ _ _ ↦ trivial
    · refine KeepsSound.op_bind (fun _ _ ↦ trivial) fun v past hv _ ↦ ?_
      by_cases hanswers : v.chain.answersUid = true
      · have hread : ((WalletOp.isRegistered wallet.hotkeySs58 wallet.netuid).exec v).2 =
            some (v.chain.uid wallet.hotkeySs58 wallet.netuid) := if_pos hanswers
        rw [hread]
        cases huid : v.chain.uid wallet.hotkeySs58 wallet.netuid with
        | none =>
          exact KeepsSound.op_bind (fun _ _ ↦ trivial) fun _ _ _ _ ↦ fun _ _ _ ↦ trivial
        | some uid =>
          refine KeepsSound.op_bind (fun x hx ↦ ?_) fun _ _ _ _ ↦ fun _ _ _ ↦ trivial
          intro w hw
          have hvx : v.Keeps x := hx
          obtain ⟨w', hw', hhotkey, hnetuid, -⟩ := (hheld.keeps hv).keeps hvx
          obtain rfl := Option.some.inj (hw.symm.trans hw')
          rw [hhotkey, hnetuid]
          exact ⟨uid, rfl, hvx.uid _ _ _ huid⟩
      · have hread : ((WalletOp.isRegistered wallet.hotkeySs58 wallet.netuid).exec v).2 = none :=
          if_neg hanswers
        rw [hread]
        exact fun _ _ _ ↦ trivial

theorem safe_registerOne (held : s.Holds id wallet) :
    KeepsSound blake2b (fun _ _ ↦ True) (registerOne id wallet) past s := by
  refine (Safe.carry (P := fun s ↦ s.Holds id wallet) (fun hkeeps hold ↦ hold.keeps hkeeps)
    safe_planRegistration held).seq fun plan past t _ hplan ↦ ?_
  obtain ⟨hreason, hheld⟩ := hplan
  cases plan with
  | none => exact fun _ _ _ ↦ trivial
  | some plan =>
    dsimp only
    split
    · split
      · exact KeepsSound.op_bind (fun _ _ ↦ trivial) fun _ _ _ _ ↦ fun _ _ _ ↦ trivial
      · split
        · next uid hplan => exact safe_adoptRegistration hheld (hreason plan rfl uid hplan)
        · exact fun _ _ _ ↦ trivial
    · exact safe_submitRegistration hheld

theorem safe_registerEach {l : List (WalletId × ManagedWallet)}
    (held : ∀ r ∈ l, s.Holds r.1 r.2) :
    KeepsSound blake2b (fun _ _ ↦ True) (registerEach l) past s := by
  induction l generalizing past s with
  | nil => exact fun _ _ _ ↦ trivial
  | cons r l ih =>
    obtain ⟨id, wallet⟩ := r
    refine ((safe_registerOne (held _ List.mem_cons_self)).carry
      (P := fun s ↦ ∀ r ∈ l, s.Holds r.1 r.2) (fun hkeeps hold r hr ↦ (hold r hr).keeps hkeeps)
      fun r hr ↦ held r (List.mem_cons_of_mem _ hr)).seq fun registered past t _ hheld ↦ ?_
    cases registered with
    | none => exact fun _ _ _ ↦ trivial
    | some registered =>
      refine (ih hheld.2).seq fun count past t _ _ ↦ ?_
      cases count <;> exact fun _ _ _ ↦ trivial

theorem safe_activateOne (held : s.Holds id wallet) (adopted : wallet.state.adopted = true) :
    KeepsSound blake2b (fun _ _ ↦ True) (activateOne id wallet) past s := by
  refine KeepsSound.op_bind (fun _ _ ↦ trivial) fun t past hst htt ↦
    KeepsSound.op_bind (fun u hu ↦ ⟨rfl, fun w hw ↦ ?_⟩) fun _ _ _ _ ↦ fun _ _ _ ↦ trivial
  have hlisted : wallet.hotkeySs58 ∈ (t.addWhitelistEntry wallet.hotkeySs58).whitelist := by
    rw [WalletStore.addWhitelistEntry]
    split
    · assumption
    · exact List.mem_append_right _ (List.mem_singleton_self _)
  obtain ⟨w', hw', hhotkey, -, hadopted⟩ := ((held.keeps hst).keeps htt).keeps hu
  obtain rfl := Option.some.inj (hw.symm.trans hw')
  exact ⟨hadopted adopted, by rw [hhotkey]; exact hu.whitelist _ hlisted⟩

theorem safe_activateEach {l : List (WalletId × ManagedWallet)}
    (held : ∀ r ∈ l, s.Holds r.1 r.2 ∧ r.2.state.adopted = true) :
    KeepsSound blake2b (fun _ _ ↦ True) (activateEach l) past s := by
  induction l generalizing past s with
  | nil => exact fun _ _ _ ↦ trivial
  | cons r l ih =>
    obtain ⟨id, wallet⟩ := r
    obtain ⟨hheld, hadopted⟩ := held _ List.mem_cons_self
    refine ((safe_activateOne hheld hadopted).carry
      (P := fun s ↦ ∀ r ∈ l, s.Holds r.1 r.2 ∧ r.2.state.adopted = true)
      (fun hkeeps hold r hr ↦ ⟨(hold r hr).1.keeps hkeeps, (hold r hr).2⟩)
      fun r hr ↦ held r (List.mem_cons_of_mem _ hr)).seq fun _ past t _ hrest ↦ ih hrest.2

theorem safe_tickRegistration :
    KeepsSound blake2b (fun _ _ ↦ True) tickRegistration past s := by
  refine KeepsSound.op_bind (fun _ _ ↦ trivial) fun t past _ _ ↦ ?_
  have hfunded (r) (hr : r ∈ t.listManagedWalletsInState .funded) : t.Holds r.1 r.2 :=
    (WalletStore.holds_of_listed hr).2.2
  refine (safe_registerEach hfunded).seq fun count past u _ _ ↦ ?_
  cases count with
  | none => exact fun _ _ _ ↦ trivial
  | some count =>
    refine KeepsSound.op_bind (fun _ _ ↦ trivial) fun v past _ _ ↦ ?_
    refine (safe_activateEach fun r hr ↦ ?_).seq fun _ _ _ _ _ ↦ fun _ _ _ ↦ trivial
    obtain ⟨-, hstate, hheld⟩ := WalletStore.holds_of_listed hr
    exact ⟨hheld, by rw [hstate]; rfl⟩

end

/-! ## The ticks and what happens around them -/

/-- The process makes these calls, and may be started anew at any moment. -/
def ticking : WalletCall → Option WalletOp → WalletStore → Prop
  | .provisionForApplication .., _, _ | .tickFunding, _, _ | .tickRegistration, _, _
  | .tickPayouts, _, _ => True
  | _, _, _ => False

instance (c : WalletCall) (o : Option WalletOp) (s : WalletStore) : Decidable (ticking c o s) := by
  rcases c with _ | _ <;> unfold ticking <;> infer_instance

/-- Around the process time passes and the chain changes, but drops no registration. -/
structure WalletStore.Around (s s' : WalletStore) : Prop where
  wallets : s'.wallets = s.wallets
  payouts : s'.payouts = s.payouts
  whitelist : s'.whitelist = s.whitelist
  drawn : s'.drawn = s.drawn
  uid : ∀ hotkey netuid uid, s.chain.uid hotkey netuid = some uid →
    s'.chain.uid hotkey netuid = some uid

theorem safe_body {blake2b : List ℕ → List ℕ} {c : WalletCall} {o : Option WalletOp}
    {s s' : WalletStore} (h : ticking c o s) :
    KeepsSound blake2b (fun _ _ ↦ True) (c.body blake2b) [] s' := by
  cases c with
  | provisionForApplication netuid application payoutAddress keys =>
    refine Safe.seq (KeepsSound.of_aside (uses_provisionForApplication _ _ _ _ _))
      fun _ _ _ _ _ ↦ fun _ _ _ ↦ trivial
  | tickFunding =>
    refine Safe.seq (P := fun _ _ _ ↦ True) ?_ fun _ _ _ _ _ ↦ fun _ _ _ ↦ trivial
    refine KeepsSound.op_bind (fun _ _ ↦ trivial) fun t past _ _ ↦ ?_
    have hfunding := uses_fundEach (t.listManagedWalletsInState .awaitingFunding)
      fun r hr ↦ (WalletStore.holds_of_listed hr).2.1
    exact .of_aside (hfunding.mono fun _ ↦ WalletOp.aside_of_routine)
  | tickRegistration =>
    exact safe_tickRegistration.seq fun _ _ _ _ _ ↦ fun _ _ _ ↦ trivial
  | tickPayouts =>
    have hpayouts := (uses_tickPayouts blake2b).mono fun _ ↦ WalletOp.aside_of_routine
    exact Safe.seq (KeepsSound.of_aside hpayouts)
      fun _ _ _ _ _ ↦ fun _ _ _ ↦ trivial
  | _ => exact h.elim

/-- Whatever the process has died of, the store is sound. -/
theorem sound_of_run {blake2b : List ℕ → List ℕ} {s₀ s : WalletStore} {p : Program Wallets Unit}
    (start : s₀.Sound) (run : (wallets blake2b).Alone WalletStore.Around ticking s₀ p s) :
    s.Sound :=
  run.sound (K := WalletStore.sound) (fun _ _ ↦ rfl) start
    (fun _ _ h hs ↦ hs.grow (fun _ ↦ by rw [h.wallets]) h.uid fun _ hw ↦ by rwa [h.whitelist])
    fun _ _ _ h _ ↦ safe_body h

/-! ## One more tick -/

/-- The chain can be asked which hotkeys are registered, and answers a registration that lands. -/
structure ChainState.Reachable (chain : ChainState) : Prop where
  answersUid : chain.answersUid = true
  attempt : ∀ hotkey netuid, (chain.attempt hotkey netuid).lands.isSome = true →
    (chain.attempt hotkey netuid).answers = true

/-- The operation is about one of these wallets, or only reads. -/
def WalletOp.About (l : List (WalletId × ManagedWallet)) : WalletOp → Prop
  | isRegistered .. | registrationBurnTao _ | coldkeyBalanceTao _ | addWhitelistEntry _ => True
  | advanceManagedWallet id .. => id ∈ l.map Prod.fst
  | register _ hotkey _ => hotkey ∈ l.map fun r ↦ r.2.hotkeySs58
  | _ => False

/-- Apart from these wallets and their hotkeys nothing has changed. -/
structure WalletStore.Beside (l : List (WalletId × ManagedWallet)) (s s' : WalletStore) : Prop where
  wallet : ∀ id, id ∉ l.map Prod.fst → s'.wallets.get? id = s.wallets.get? id
  uid : ∀ hotkey, hotkey ∉ l.map (fun r ↦ r.2.hotkeySs58) →
    ∀ netuid, s'.chain.uid hotkey netuid = s.chain.uid hotkey netuid
  answersUid : s'.chain.answersUid = s.chain.answersUid
  attempt : s'.chain.attempt = s.chain.attempt

namespace WalletStore

variable {l : List (WalletId × ManagedWallet)} {s t u : WalletStore}

theorem Beside.refl (s : WalletStore) : s.Beside l s :=
  ⟨fun _ _ ↦ rfl, fun _ _ _ ↦ rfl, rfl, rfl⟩

theorem Beside.trans (h : s.Beside l t) (h' : t.Beside l u) : s.Beside l u where
  wallet id hid := (h'.wallet id hid).trans (h.wallet id hid)
  uid hotkey hhotkey netuid := (h'.uid hotkey hhotkey netuid).trans (h.uid hotkey hhotkey netuid)
  answersUid := h'.answersUid.trans h.answersUid
  attempt := h'.attempt.trans h.attempt

theorem Beside.reachable (h : s.Beside l t) (hs : s.chain.Reachable) : t.chain.Reachable :=
  ⟨h.answersUid.trans hs.answersUid, by rw [h.attempt]; exact hs.attempt⟩

end WalletStore

theorem exec_beside {l : List (WalletId × ManagedWallet)} {o : WalletOp} (h : o.About l)
    (s : WalletStore) : s.Beside l (o.exec s).1 := by
  cases o with
  | advanceManagedWallet id target fields =>
    simp only [WalletOp.exec, WalletStore.advanceManagedWallet]
    split
    · exact .refl s
    · split
      · exact .refl s
      · refine ⟨fun k hk ↦ Table.get?_insert_ne _ ?_ _, fun _ _ _ ↦ rfl, rfl, rfl⟩
        rintro rfl
        exact hk h
  | addWhitelistEntry hotkey =>
    simp only [WalletOp.exec, WalletStore.addWhitelistEntry]
    split
    · exact .refl s
    · exact ⟨fun _ _ ↦ rfl, fun _ _ _ ↦ rfl, rfl, rfl⟩
  | register id hotkey netuid =>
    refine ⟨fun _ _ ↦ rfl, fun k hk n ↦ ?_, rfl, rfl⟩
    have hne : ¬(k = hotkey ∧ n = netuid) := by
      rintro ⟨rfl, -⟩
      exact hk h
    exact if_neg hne
  | isRegistered | registrationBurnTao | coldkeyBalanceTao => exact .refl s
  | _ => exact h.elim

section

variable {blake2b : List ℕ → List ℕ} {l : List (WalletId × ManagedWallet)} {s : WalletStore}
  {id : WalletId} {wallet : ManagedWallet}

theorem eval_beside {α : Type} {p : Program Wallets α} (h : p.Uses (WalletOp.About l))
    (s : WalletStore) : s.Beside l (eval (wallets blake2b).toMachine p s).1 :=
  ((Along.of_uses (h.mono fun _ ho ↦ exec_beside ho) s).rel (r := WalletStore.Beside l)
    (P := fun _ ↦ True) .refl .trans (fun _ _ _ ho ↦ ⟨trivial, ho⟩) trivial).2

theorem uses_planRegistration : (planRegistration wallet).Uses (WalletOp.About l) := by
  unfold planRegistration
  split
  · trivial
  · refine Uses.op_bind trivial fun uid ↦ ?_
    match uid with
    | none | some (some uid) => trivial
    | some none =>
      refine Uses.op_bind trivial fun burn ↦ ?_
      cases burn with
      | none => trivial
      | some burn =>
        refine Uses.op_bind trivial fun balance ↦ ?_
        cases balance with
        | none => trivial
        | some balance =>
          dsimp only
          split <;> trivial

theorem uses_registerOne (hmem : (id, wallet) ∈ l) :
    (registerOne id wallet).Uses (WalletOp.About l) := by
  have hid : id ∈ l.map Prod.fst := List.mem_map_of_mem hmem
  have hhotkey : wallet.hotkeySs58 ∈ l.map fun r ↦ r.2.hotkeySs58 :=
    List.mem_map_of_mem (f := fun r ↦ r.2.hotkeySs58) hmem
  refine Uses.bind uses_planRegistration fun plan ↦ ?_
  cases plan with
  | none => trivial
  | some plan =>
    dsimp only
    split
    · split
      · exact Uses.op_bind hid fun _ ↦ trivial
      · split
        · refine Uses.op_bind trivial fun uid ↦ ?_
          cases uid with
          | none => trivial
          | some uid => exact Uses.op_bind hid fun _ ↦ Uses.op_bind hid fun _ ↦ trivial
        · trivial
    · refine Uses.op_bind hid fun row ↦ ?_
      cases row with
      | none => trivial
      | some row =>
        refine Uses.op_bind hhotkey fun answered ↦ ?_
        split
        · exact Uses.op_bind hid fun _ ↦ trivial
        · refine Uses.op_bind trivial fun uid ↦ ?_
          match uid with
          | none => trivial
          | some none | some (some uid) => exact Uses.op_bind hid fun _ ↦ trivial

theorem uses_registerEach {l' : List (WalletId × ManagedWallet)} (hl : ∀ r ∈ l', r ∈ l) :
    (registerEach l').Uses (WalletOp.About l) := by
  induction l' with
  | nil => trivial
  | cons r l' ih =>
    refine Uses.bind (uses_registerOne (hl r List.mem_cons_self)) fun registered ↦ ?_
    cases registered with
    | none => trivial
    | some registered =>
      refine Uses.bind (ih fun r hr ↦ hl r (List.mem_cons_of_mem _ hr)) fun count ↦ ?_
      cases count <;> trivial

theorem uses_activateEach {l' : List (WalletId × ManagedWallet)} (hl : ∀ r ∈ l', r ∈ l) :
    (activateEach l').Uses fun o : WalletOp ↦ o.About l ∧ ∀ s, (o.exec s).1.chain = s.chain := by
  induction l' with
  | nil => trivial
  | cons r l' ih =>
    refine Uses.bind ?_ fun _ ↦ ih fun r hr ↦ hl r (List.mem_cons_of_mem _ hr)
    refine Uses.op_bind ⟨trivial, fun s ↦ ?_⟩ fun _ ↦ Uses.op_bind ⟨?_, fun s ↦ ?_⟩ fun _ ↦ trivial
    · simp only [WalletOp.exec, WalletStore.addWhitelistEntry]
      split <;> rfl
    · exact List.mem_map_of_mem (hl r List.mem_cons_self)
    · simp only [WalletOp.exec, WalletStore.advanceManagedWallet]
      split
      · rfl
      · split <;> rfl

theorem advance_legal {w : ManagedWallet} {target : WalletState} {fields : AdvanceFields}
    (hw : s.wallets.get? id = some w) (legal : w.state.canTransition target = true) :
    s.advanceManagedWallet id target fields =
      ({ s with wallets := s.wallets.insert id (fields.apply target w) },
        some (fields.apply target w)) := by
  rw [WalletStore.advanceManagedWallet, hw]
  exact if_neg (by rw [legal]; exact Bool.noConfusion)

/-- A call to the chain or the repository, then the rest. -/
theorem eval_step {α : Type} (o : WalletOp) (f : o.Ans → Program Wallets α) (s : WalletStore) :
    eval (wallets blake2b).toMachine (call o >>= f) s =
      eval (wallets blake2b).toMachine (f (o.exec s).2) (o.exec s).1 := rfl

/-- The wallet's registration has been adopted in the store, or there is none. -/
def WalletStore.Settled (id : WalletId) (wallet : ManagedWallet) (s : WalletStore) : Prop :=
  (∃ w, s.wallets.get? id = some w ∧ w.state.adopted = true) ∨
    s.chain.uid wallet.hotkeySs58 wallet.netuid = none

/-- What a method about a wallet came to, run with nothing in between: it did not raise, and the
wallet is settled. -/
def Settles (blake2b : List ℕ → List ℕ) (id : WalletId) (wallet : ManagedWallet)
    (p : Program Wallets (Option Bool)) (s : WalletStore) : Prop :=
  (eval (wallets blake2b).toMachine p s).2.isSome = true ∧
    WalletStore.Settled id wallet (eval (wallets blake2b).toMachine p s).1

theorem isRegistered_reachable (reach : s.chain.Reachable) (hotkey : Text) (netuid : ℕ) :
    ((WalletOp.isRegistered hotkey netuid).exec s).2 = some (s.chain.uid hotkey netuid) :=
  if_pos reach.answersUid

/-- Recording the uid of a wallet that is registering settles it. -/
theorem record_settles (hw : ∃ w, s.wallets.get? id = some w ∧ w.state = .registering)
    (uid : Option ℕ) :
    WalletStore.Settled id wallet (s.advanceManagedWallet id .registered { uid := uid }).1 := by
  obtain ⟨w, hget, hstate⟩ := hw
  rw [advance_legal hget (by rw [hstate]; rfl)]
  exact .inl ⟨_, Table.get?_insert_self _ _ _, rfl⟩

/-- A funded wallet may be advanced to registering. -/
theorem advance_registering (hw : s.wallets.get? id = some wallet)
    (funded : wallet.state = .funded) :
    ∃ w, s.advanceManagedWallet id .registering {} =
        ({ s with wallets := s.wallets.insert id w }, some w) ∧ w.state = .registering :=
  ⟨_, advance_legal hw (by rw [funded]; rfl), rfl⟩

theorem settles_adoptRegistration (reach : s.chain.Reachable)
    (hw : s.wallets.get? id = some wallet) (funded : wallet.state = .funded) :
    Settles blake2b id wallet (adoptRegistration id wallet) s := by
  obtain ⟨w, hadvance, hstate⟩ := advance_registering hw funded
  have hrow : (s.advanceManagedWallet id .registering {}).1.wallets.get? id = some w := by
    rw [hadvance]
    exact Table.get?_insert_self _ _ _
  rw [Settles, adoptRegistration, eval_step, isRegistered_reachable reach]
  exact ⟨rfl, record_settles ⟨w, hrow, hstate⟩ _⟩

/-- Recording a failure leaves the chain as it is. -/
theorem fail_settles (unregistered : s.chain.uid wallet.hotkeySs58 wallet.netuid = none)
    (target : WalletState) (fields : AdvanceFields) :
    WalletStore.Settled id wallet (s.advanceManagedWallet id target fields).1 := by
  refine .inr ?_
  rw [WalletStore.advanceManagedWallet]
  split
  · exact unregistered
  · split <;> exact unregistered

/-- An attempt that does not answer has not landed. -/
theorem register_reachable (reach : s.chain.Reachable) (hotkey : Text) (netuid : ℕ)
    (unregistered : s.chain.uid hotkey netuid = none) :
    (s.register hotkey netuid).1.wallets = s.wallets ∧
      (s.register hotkey netuid).1.chain.Reachable ∧ ((s.register hotkey netuid).2 = false →
        (s.register hotkey netuid).1.chain.uid hotkey netuid = none) := by
  refine ⟨rfl, ⟨reach.answersUid, reach.attempt⟩, fun hsilent ↦ ?_⟩
  have hnothing : (s.chain.attempt hotkey netuid).lands = none := by
    by_contra hlands
    have hanswers := reach.attempt hotkey netuid (Option.isSome_iff_ne_none.mpr hlands)
    rw [show (s.chain.attempt hotkey netuid).answers = false from hsilent] at hanswers
    cases hanswers
  simp [WalletStore.register, hnothing, unregistered]

theorem settles_submitRegistration (reach : s.chain.Reachable)
    (hw : s.wallets.get? id = some wallet) (funded : wallet.state = .funded)
    (unregistered : s.chain.uid wallet.hotkeySs58 wallet.netuid = none) :
    Settles blake2b id wallet (submitRegistration id wallet) s := by
  obtain ⟨w, hadvance, hstate⟩ := advance_registering hw funded
  have hread : (WalletOp.advanceManagedWallet id .registering {}).exec s =
      ({ s with wallets := s.wallets.insert id w }, some w) := hadvance
  rw [Settles, submitRegistration, eval_step, hread, eval_step]
  have hreach : ({ s with wallets := s.wallets.insert id w } : WalletStore).chain.Reachable := reach
  obtain ⟨hwallets, hreach, huid⟩ :=
    register_reachable hreach wallet.hotkeySs58 wallet.netuid unregistered
  -- The store after the attempt, in which the wallet is registering.
  generalize hattempt : (WalletOp.register id wallet.hotkeySs58 wallet.netuid).exec
    { s with wallets := s.wallets.insert id w } = attempted
  obtain ⟨t, answered⟩ := attempted
  have hregister : ({ s with wallets := s.wallets.insert id w } : WalletStore).register
      wallet.hotkeySs58 wallet.netuid = (t, answered) := hattempt
  rw [hregister] at hwallets hreach huid
  have hrow : t.wallets.get? id = some w := by
    rw [hwallets]
    exact Table.get?_insert_self _ _ _
  dsimp only
  split
  · next hfailed => exact ⟨rfl, fail_settles (huid hfailed) _ _⟩
  · rw [eval_step, isRegistered_reachable hreach]
    cases hlanded : t.chain.uid wallet.hotkeySs58 wallet.netuid with
    | none => exact ⟨rfl, fail_settles hlanded _ _⟩
    | some uid => exact ⟨rfl, record_settles ⟨w, hrow, hstate⟩ _⟩

/-- Planning only reads. -/
theorem eval_planRegistration :
    (eval (wallets blake2b).toMachine (planRegistration wallet) s).1 = s := by
  refine eval_reads ?_ s
  unfold planRegistration
  split
  · trivial
  · refine Uses.op_bind (fun _ ↦ rfl) fun uid ↦ ?_
    match uid with
    | none | some (some uid) => trivial
    | some none =>
      refine Uses.op_bind (fun _ ↦ rfl) fun burn ↦ ?_
      cases burn with
      | none => trivial
      | some burn =>
        refine Uses.op_bind (fun _ ↦ rfl) fun balance ↦ ?_
        cases balance with
        | none => trivial
        | some balance =>
          dsimp only
          split <;> trivial

theorem plan_registered (reach : s.chain.Reachable) (funded : wallet.state = .funded) {uid : ℕ}
    (registered : s.chain.uid wallet.hotkeySs58 wallet.netuid = some uid) :
    (eval (wallets blake2b).toMachine (planRegistration wallet) s).2 =
      some ⟨false, 0, 0, .alreadyRegistered uid, 0⟩ := by
  rw [planRegistration, if_neg (by simp [funded]), eval_step, isRegistered_reachable reach,
    registered]
  rfl

theorem plan_unregistered (reach : s.chain.Reachable) (funded : wallet.state = .funded)
    (unregistered : s.chain.uid wallet.hotkeySs58 wallet.netuid = none) {plan : RegistrationPlan}
    (h : (eval (wallets blake2b).toMachine (planRegistration wallet) s).2 = some plan) :
    ∀ uid, plan.reason ≠ .alreadyRegistered uid := by
  rw [planRegistration, if_neg (by simp [funded]), eval_step, isRegistered_reachable reach,
    unregistered] at h
  dsimp only at h
  rw [eval_step] at h
  split at h
  · cases h
  · rw [eval_step] at h
    split at h
    · cases h
    · split at h
      · obtain rfl := Option.some.inj h
        exact fun _ h ↦ nomatch h
      · obtain rfl := Option.some.inj h
        exact fun _ h ↦ nomatch h

theorem settles_registerOne (reach : s.chain.Reachable) (hw : s.wallets.get? id = some wallet)
    (funded : wallet.state = .funded) : Settles blake2b id wallet (registerOne id wallet) s := by
  rw [Settles, registerOne, eval_bind, eval_planRegistration]
  cases huid : s.chain.uid wallet.hotkeySs58 wallet.netuid with
  | some uid =>
    rw [plan_registered reach funded huid]
    exact settles_adoptRegistration reach hw funded
  | none =>
    cases hplan : (eval (wallets blake2b).toMachine (planRegistration wallet) s).2 with
    | none => exact ⟨rfl, .inr huid⟩
    | some plan =>
      dsimp only
      split
      · split
        · exact ⟨rfl, fail_settles huid _ _⟩
        · split
          · next uid heq => exact absurd heq (plan_unregistered reach funded huid hplan uid)
          · exact ⟨rfl, .inr huid⟩
      · exact settles_submitRegistration reach hw funded huid

/-- What is settled stays so while other wallets and other hotkeys are dealt with. -/
theorem WalletStore.Settled.beside {t : WalletStore} (h : WalletStore.Settled id wallet s)
    (hst : s.Beside l t) (hid : id ∉ l.map Prod.fst) (hhotkey : wallet.hotkeySs58 ∉ l.map fun r ↦ r.2.hotkeySs58) :
    WalletStore.Settled id wallet t := by
  rcases h with ⟨w, hw, hadopted⟩ | hnone
  · exact .inl ⟨w, (hst.wallet id hid).trans hw, hadopted⟩
  · exact .inr ((hst.uid _ hhotkey _).trans hnone)

variable (blake2b) in
/-- The first pass settles the funded wallets it is given. -/
theorem settles_registerEach (reach : s.chain.Reachable)
    (hl : ∀ r ∈ l, s.wallets.get? r.1 = some r.2 ∧ r.2.state = .funded)
    (ids : (l.map Prod.fst).Nodup) (hotkeys : (l.map fun r ↦ r.2.hotkeySs58).Nodup) :
    (eval (wallets blake2b).toMachine (registerEach l) s).2.isSome = true ∧
      ∀ r ∈ l, WalletStore.Settled r.1 r.2
        (eval (wallets blake2b).toMachine (registerEach l) s).1 := by
  induction l generalizing s with
  | nil => exact ⟨rfl, fun r hr ↦ absurd hr List.not_mem_nil⟩
  | cons r l ih =>
    obtain ⟨id, wallet⟩ := r
    rw [List.map_cons, List.nodup_cons] at ids hotkeys
    obtain ⟨hget, hfunded⟩ := hl _ List.mem_cons_self
    have hone : Settles blake2b id wallet (registerOne id wallet) s :=
      settles_registerOne reach hget hfunded
    have hbeside : s.Beside [(id, wallet)]
        (eval (wallets blake2b).toMachine (registerOne id wallet) s).1 :=
      eval_beside (uses_registerOne (List.mem_singleton_self _)) s
    rw [Settles] at hone
    rw [registerEach, eval_bind]
    generalize eval (wallets blake2b).toMachine (registerOne id wallet) s = after
      at hone hbeside ⊢
    obtain ⟨t, registered⟩ := after
    obtain ⟨registered, rfl⟩ := Option.isSome_iff_exists.mp hone.1
    -- The other wallets are still funded, and are settled in turn.
    have hother (r : WalletId × ManagedWallet) (hr : r ∈ l) :
        r.1 ∉ [(id, wallet)].map Prod.fst := by
      intro hmem
      rw [List.map_singleton, List.mem_singleton] at hmem
      exact ids.1 (hmem ▸ List.mem_map_of_mem hr)
    obtain ⟨hcount, hsettled⟩ := ih (hbeside.reachable reach)
      (fun r hr ↦ by
        rw [hbeside.wallet r.1 (hother r hr)]
        exact hl r (List.mem_cons_of_mem _ hr))
      ids.2 hotkeys.2
    have hrest : t.Beside l (eval (wallets blake2b).toMachine (registerEach l) t).1 :=
      eval_beside (uses_registerEach fun _ hr ↦ hr) t
    dsimp only
    rw [eval_bind]
    generalize eval (wallets blake2b).toMachine (registerEach l) t = after
      at hcount hsettled hrest ⊢
    obtain ⟨u, count⟩ := after
    obtain ⟨count, rfl⟩ := Option.isSome_iff_exists.mp hcount
    refine ⟨rfl, fun r hr ↦ ?_⟩
    rcases List.mem_cons.mp hr with rfl | hr
    · exact WalletStore.Settled.beside hone.2 hrest ids.1 hotkeys.1
    · exact hsettled r hr

end

/-! ## Recovery -/

/-- Wallets that were funded, registering or registered, and whose hotkey the chain reports
registered, are registered or active with that uid. -/
def WalletStore.PickedUp (s s' : WalletStore) : Prop :=
  ∀ id w, s.wallets.get? id = some w →
    w.state = .funded ∨ w.state = .registering ∨ w.state = .registered →
    ∀ uid, s'.chain.uid w.hotkeySs58 w.netuid = some uid →
      ∃ w', s'.wallets.get? id = some w' ∧ (w'.state = .registered ∨ w'.state = .active) ∧
        w'.uid = some uid

/-- The hotkeys of active wallets are registered and on the whitelist. -/
def WalletStore.ActivesListed (s : WalletStore) : Prop :=
  ∀ id w, s.wallets.get? id = some w → w.state = .active →
    (∃ uid, s.chain.uid w.hotkeySs58 w.netuid = some uid) ∧ w.hotkeySs58 ∈ s.whitelist

/-- No wallet was left registering whose attempt has landed. -/
def WalletStore.NoneStranded (s : WalletStore) : Prop :=
  ∀ id w, s.wallets.get? id = some w → w.state = .registering →
    s.chain.uid w.hotkeySs58 w.netuid = none

theorem WalletState.adopted_iff {state : WalletState} :
    state.adopted = true ↔ state = .registered ∨ state = .active := by
  cases state <;> simp [adopted]

theorem WalletStore.Sound.activesListed {s : WalletStore} (h : s.Sound) : s.ActivesListed := by
  intro id w hw hactive
  obtain ⟨uid, -, huid⟩ := h.enrolled id w hw (by rw [hactive]; rfl)
  exact ⟨⟨uid, huid⟩, h.listed id w hw hactive⟩

section

variable {blake2b : List ℕ → List ℕ} {s : WalletStore}

variable (blake2b) in
/-- The first pass does not raise, and settles the funded wallets. -/
theorem first_pass (hs : s.Sound) (reach : s.chain.Reachable)
    {l : List (WalletId × ManagedWallet)} (hl : l = s.listManagedWalletsInState .funded) :
    ∃ t count, eval (wallets blake2b).toMachine (registerEach l) s = (t, some count) ∧
      t.Sound ∧ s.Keeps t ∧ s.Beside l t ∧ ∀ r ∈ l, WalletStore.Settled r.1 r.2 t := by
  have hfunded (r) (hr : r ∈ l) :
      s.wallets.get? r.1 = some r.2 ∧ r.2.state = .funded ∧ s.Holds r.1 r.2 := by
    rw [hl] at hr
    exact WalletStore.holds_of_listed hr
  have hids : (l.map Prod.fst).Nodup := by
    rw [hl]
    exact Table.nodup_select _ _
  have hhotkeys : (l.map fun r ↦ r.2.hotkeySs58).Nodup := by
    refine List.Nodup.map_on ?_ (List.Nodup.of_map _ hids)
    rintro ⟨id, w⟩ hr ⟨id', w'⟩ hr' heq
    obtain rfl := hs.distinct id id' w w' (hfunded _ hr).1 (hfunded _ hr').1 heq
    obtain rfl := Option.some.inj ((hfunded _ hr).1.symm.trans (hfunded _ hr').1)
    rfl
  have hkept : Safe (wallets blake2b).toMachine WalletStore.sound (fun _ _ _ ↦ True)
      (fun _ _ _ ↦ True) (registerEach l) [] s :=
    safe_registerEach fun r hr ↦ (hfunded r hr).2.2
  obtain ⟨hsound, hkeeps⟩ := hkept.eval (fun _ _ ↦ rfl) hs
  have hbeside : s.Beside l (eval (wallets blake2b).toMachine (registerEach l) s).1 :=
    eval_beside (uses_registerEach fun _ hr ↦ hr) s
  have hsettled := settles_registerEach blake2b reach
    (fun r hr ↦ ⟨(hfunded r hr).1, (hfunded r hr).2.1⟩) hids hhotkeys
  generalize eval (wallets blake2b).toMachine (registerEach l) s = after
    at hsound hkeeps hbeside hsettled ⊢
  obtain ⟨t, count⟩ := after
  obtain ⟨count, rfl⟩ := Option.isSome_iff_exists.mp hsettled.1
  exact ⟨t, count, rfl, hsound, hkeeps, hbeside, hsettled.2⟩

/-- The second pass keeps the chain, and deals with the registered wallets only. -/
theorem second_pass {t : WalletStore} (ht : t.Sound) {l : List (WalletId × ManagedWallet)}
    (hl : l = t.listManagedWalletsInState .registered) :
    let s' := (eval (wallets blake2b).toMachine (activateEach l) t).1
    s'.Sound ∧ t.Keeps s' ∧ t.Beside l s' ∧ s'.chain = t.chain := by
  have hkept : Safe (wallets blake2b).toMachine WalletStore.sound (fun _ _ _ ↦ True)
      (fun _ _ _ ↦ True) (activateEach l) [] t := by
    refine safe_activateEach fun r hr ↦ ?_
    rw [hl] at hr
    obtain ⟨-, hstate, hheld⟩ := WalletStore.holds_of_listed hr
    exact ⟨hheld, by rw [hstate]; rfl⟩
  obtain ⟨hsound, hkeeps⟩ := hkept.eval (fun _ _ ↦ rfl) ht
  have huses := uses_activateEach (l := l) fun _ hr ↦ hr
  refine ⟨hsound, hkeeps, eval_beside (huses.mono fun _ h ↦ h.1) t, ?_⟩
  exact (Along.of_uses (huses.mono fun _ h ↦ h.2) t).keeps WalletStore.chain fun _ _ h ↦ h

variable (blake2b) in
/-- A tick of registration: the first pass, then the second. -/
theorem after_tickRegistration (hs : s.Sound) (reach : s.chain.Reachable) :
    ∃ t, (t.Sound ∧ s.Keeps t ∧ s.Beside (s.listManagedWalletsInState .funded) t ∧
      ∀ r ∈ s.listManagedWalletsInState .funded, WalletStore.Settled r.1 r.2 t) ∧
      let s' := (wallets blake2b).after .tickRegistration s
      s'.Sound ∧ t.Keeps s' ∧ t.Beside (t.listManagedWalletsInState .registered) s' ∧
        s'.chain = t.chain := by
  obtain ⟨t, count, heval, hfirst⟩ := first_pass blake2b hs reach rfl
  refine ⟨t, hfirst, ?_⟩
  have hafter : (wallets blake2b).after .tickRegistration s =
      (eval (wallets blake2b).toMachine
        (activateEach (t.listManagedWalletsInState .registered)) t).1 := by
    have hlist : (WalletOp.listManagedWalletsInState .funded).exec s =
        (s, s.listManagedWalletsInState .funded) := rfl
    have hbody : (wallets blake2b).body .tickRegistration =
        tickRegistration >>= fun _ ↦ .done () := rfl
    rw [Service.after, hbody, eval_bind, eval_done, tickRegistration, eval_step, hlist, eval_bind,
      heval]
    dsimp only
    rw [eval_step, eval_bind]
    rfl
  rw [hafter]
  exact second_pass hfirst.1 rfl

variable (blake2b) in
/-- A wallet that is registering is left as it is, and its hotkey too. -/
theorem registering_left (hs : s.Sound) (reach : s.chain.Reachable) {id : WalletId}
    {w : ManagedWallet} (hw : s.wallets.get? id = some w) (registering : w.state = .registering) :
    ((wallets blake2b).after .tickRegistration s).wallets.get? id = some w ∧
      ((wallets blake2b).after .tickRegistration s).chain.uid w.hotkeySs58 w.netuid =
        s.chain.uid w.hotkeySs58 w.netuid := by
  obtain ⟨t, ⟨-, -, hbeside, -⟩, -, -, hbeside', hchain⟩ :=
    after_tickRegistration blake2b hs reach
  have hother (r) (hr : r ∈ s.listManagedWalletsInState .funded) : r.1 ≠ id := by
    rintro rfl
    obtain ⟨hget, hstate, -⟩ := WalletStore.holds_of_listed hr
    obtain rfl := Option.some.inj (hget.symm.trans hw)
    rw [registering] at hstate
    cases hstate
  have hwt : t.wallets.get? id = some w := by
    rw [hbeside.wallet id, hw]
    intro hmem
    obtain ⟨r, hr, hid⟩ := List.mem_map.mp hmem
    exact hother r hr hid
  refine ⟨?_, ?_⟩
  · rw [hbeside'.wallet id, hwt]
    intro hmem
    obtain ⟨r, hr, rfl⟩ := List.mem_map.mp hmem
    obtain ⟨hget, hstate, -⟩ := WalletStore.holds_of_listed hr
    obtain rfl := Option.some.inj (hget.symm.trans hwt)
    rw [registering] at hstate
    cases hstate
  · rw [hchain]
    refine hbeside.uid _ (fun hmem ↦ ?_) _
    obtain ⟨r, hr, hhotkey⟩ := List.mem_map.mp hmem
    obtain ⟨hget, -, -⟩ := WalletStore.holds_of_listed hr
    exact hother r hr (hs.distinct r.1 id r.2 w hget hw hhotkey)

theorem pickedUp_of_noneStranded (hs : s.Sound) (reach : s.chain.Reachable)
    (h : s.NoneStranded) : s.PickedUp ((wallets blake2b).after .tickRegistration s) := by
  intro id w hw hstate uid huid
  obtain ⟨t, ⟨-, hkeeps, -, hsettled⟩, hsound', hkeeps', -, hchain⟩ :=
    after_tickRegistration blake2b hs reach
  -- An adopted wallet has the uid that the chain reports.
  have hadopted {w' : ManagedWallet}
      (hw' : ((wallets blake2b).after .tickRegistration s).wallets.get? id = some w')
      (hhotkey : w'.hotkeySs58 = w.hotkeySs58) (hnetuid : w'.netuid = w.netuid)
      (hadopted : w'.state.adopted = true) :
      ∃ w', ((wallets blake2b).after .tickRegistration s).wallets.get? id = some w' ∧
        (w'.state = .registered ∨ w'.state = .active) ∧ w'.uid = some uid := by
    obtain ⟨n, hn, hchain'⟩ := hsound'.enrolled id w' hw' hadopted
    rw [hhotkey, hnetuid, huid] at hchain'
    exact ⟨w', hw', WalletState.adopted_iff.mp hadopted, by rw [hn, ← hchain']⟩
  rcases hstate with hfunded | hregistering | hregistered
  · have hmem : (id, w) ∈ s.listManagedWalletsInState .funded :=
      Table.mem_select.mpr ⟨hw, decide_eq_true hfunded⟩
    rcases hsettled _ hmem with ⟨w₁, hw₁, hadopted₁⟩ | hnone
    · obtain ⟨w₁', hw₁', hhotkey₁, hnetuid₁, -⟩ := hkeeps.wallet id w hw
      obtain rfl := Option.some.inj (hw₁.symm.trans hw₁')
      obtain ⟨w₂, hw₂, hhotkey₂, hnetuid₂, hadopted₂⟩ := hkeeps'.wallet id w₁ hw₁
      exact hadopted hw₂ (hhotkey₂.trans hhotkey₁) (hnetuid₂.trans hnetuid₁) (hadopted₂ hadopted₁)
    · rw [hchain, hnone] at huid
      cases huid
  · rw [(registering_left blake2b hs reach hw hregistering).2, h id w hw hregistering] at huid
    cases huid
  · obtain ⟨w', hw', hhotkey, hnetuid, hstays⟩ := (hkeeps.trans hkeeps').wallet id w hw
    exact hadopted hw' hhotkey hnetuid (hstays (by rw [hregistered]; rfl))

theorem noneStranded_of_pickedUp (hs : s.Sound) (reach : s.chain.Reachable)
    (h : s.PickedUp ((wallets blake2b).after .tickRegistration s)) : s.NoneStranded := by
  intro id w hw hregistering
  by_contra hlanded
  obtain ⟨uid, huid⟩ := Option.ne_none_iff_exists'.mp hlanded
  obtain ⟨hleft, hsame⟩ := registering_left blake2b hs reach hw hregistering
  obtain ⟨w', hw', hstate, -⟩ := h id w hw (.inr (.inl hregistering)) uid (hsame.trans huid)
  obtain rfl := Option.some.inj (hleft.symm.trans hw')
  rw [hregistering] at hstate
  rcases hstate with hstate | hstate <;> cases hstate

end

/-- In every run of the ticks whose process may die between any two of their steps, one further
tick of registration with a reachable chain picks up every wallet whose hotkey the chain reports
registered, exactly if no wallet was left registering whose attempt has landed; the hotkeys of
active wallets are registered and on the whitelist in any case. -/
theorem picked_up_iff (blake2b : List ℕ → List ℕ) (s₀ s : WalletStore) (p : Program Wallets Unit)
    (start : s₀.Sound) (run : (wallets blake2b).Alone WalletStore.Around ticking s₀ p s)
    (reach : s.chain.Reachable) :
    (s.PickedUp ((wallets blake2b).after .tickRegistration s) ∧
        ((wallets blake2b).after .tickRegistration s).ActivesListed ↔ s.NoneStranded) ∧
      ((wallets blake2b).after .tickRegistration s).ActivesListed := by
  have hs := sound_of_run start run
  obtain ⟨t, -, hsound, -⟩ := after_tickRegistration blake2b hs reach
  have hlisted := hsound.activesListed
  exact ⟨⟨fun h ↦ noneStranded_of_pickedUp hs reach h.1,
    fun h ↦ ⟨pickedUp_of_noneStranded hs reach h, hlisted⟩⟩, hlisted⟩

theorem fundedWallet_sound : fundedWallet.store.Sound := by
  have hrow (id : WalletId) (w : ManagedWallet) (hw : fundedWallet.store.wallets.get? id = some w) :
      id = 1 ∧ w.state = .funded := by
    have hmem := Table.mem_rows_iff.mpr hw
    obtain ⟨rfl, rfl⟩ := Prod.mk.inj (List.mem_singleton.mp hmem)
    exact ⟨rfl, rfl⟩
  refine ⟨fun id id' w w' hw hw' _ ↦ ?_, fun id w hw hadopted ↦ ?_, fun id w hw hactive ↦ ?_⟩
  · rw [(hrow id w hw).1, (hrow id' w' hw').1]
  · rw [(hrow id w hw).2] at hadopted
    cases hadopted
  · rw [(hrow id w hw).2] at hactive
    cases hactive

/-- A process that dies after `n` steps of a tick of registration. -/
def crashAfter (n : ℕ) : Program Wallets Unit × WalletStore :=
  ((wallets id).turns ticking (.done ()) fundedWallet.store
    (.call .tickRegistration :: List.replicate n .op)).getD (.done (), fundedWallet.store)

theorem crashAfter_run (n : ℕ) : (wallets id).Alone WalletStore.Around ticking fundedWallet.store
    (crashAfter n).1 (crashAfter n).2 := by
  rw [crashAfter]
  cases h : (wallets id).turns ticking (.done ()) fundedWallet.store
      (.call .tickRegistration :: List.replicate n .op) with
  | none => exact .idle
  | some point => exact Service.alone_of_turns .idle h

/-- The process dies once the wallet is registered: the next tick activates it. -/
theorem picked_up_iff_crash :
    (crashAfter 8).2.PickedUp ((wallets id).after .tickRegistration (crashAfter 8).2) := by
  have hreach : (crashAfter 8).2.chain.Reachable := by
    have hattempt : (crashAfter 8).2.chain.attempt = fun _ _ ↦ ⟨some 7, true⟩ := by
      with_unfolding_all rfl
    exact ⟨by decide +kernel, fun hotkey netuid _ ↦ by rw [hattempt]⟩
  have hrows : ∀ r ∈ (crashAfter 8).2.wallets.rows, r.2.state ≠ .registering := by
    decide +kernel
  have hstranded : (crashAfter 8).2.NoneStranded := fun id w hw hstate ↦
    absurd hstate (hrows _ (Table.mem_rows_iff.mpr hw))
  have h := picked_up_iff id _ _ _ fundedWallet_sound (crashAfter_run 8) hreach
  exact (h.1.mpr hstranded).1

/-- The process dies once the attempt has landed, before its outcome is recorded: the wallet stays
registering. -/
theorem landed_attempt_not_picked_up :
    fundedWallet.store.Sound ∧ (crashAfter 6).2.chain.Reachable ∧
      (wallets id).Alone WalletStore.Around ticking fundedWallet.store
        (crashAfter 6).1 (crashAfter 6).2 ∧
      ¬(crashAfter 6).2.PickedUp ((wallets id).after .tickRegistration (crashAfter 6).2) := by
  refine ⟨fundedWallet_sound, ?_, crashAfter_run 6, fun hpicked ↦ ?_⟩
  · have hattempt : (crashAfter 6).2.chain.attempt = fun _ _ ↦ ⟨some 7, true⟩ := by
      with_unfolding_all rfl
    exact ⟨by decide +kernel, fun hotkey netuid _ ↦ by rw [hattempt]⟩
  · have hstuck : ∃ r ∈ (crashAfter 6).2.wallets.rows, r.2.state = .registering ∧
        ((wallets id).after .tickRegistration (crashAfter 6).2).chain.uid r.2.hotkeySs58
          r.2.netuid = some 7 := by
      decide +kernel
    have hafter : ∀ r ∈ ((wallets id).after .tickRegistration (crashAfter 6).2).wallets.rows,
        r.2.state = .registering := by
      decide +kernel
    obtain ⟨⟨k, w⟩, hmem, hstate, huid⟩ := hstuck
    obtain ⟨w', hw', hadopted, -⟩ :=
      hpicked k w (Table.mem_rows_iff.mp hmem) (.inr (.inl hstate)) 7 huid
    rw [hafter _ (Table.mem_rows_iff.mpr hw')] at hadopted
    rcases hadopted with hadopted | hadopted <;> cases hadopted

end GreenCompute
