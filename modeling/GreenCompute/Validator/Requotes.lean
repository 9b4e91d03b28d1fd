import GreenCompute.Validator.Recovery

/-!
# Asking for more

The burn may have risen when a funded wallet is to be registered. The wallet then goes back to
awaiting funding, and is asked for more. What it is asked for is put together from two readings of
one balance: the difference to the burn is taken from the balance now, but added to the balance that
was recorded when the wallet was funded.

So it is asked for enough exactly when nothing has been deposited since
(`requote_asks_for_enough`). Rounding apart, that is: amounts are rounded to six decimals twice on
the way, which moves what is asked for by a millionth at most.
-/

namespace GreenCompute

open ManagedWalletService Program

section

variable {blake2b : List ℕ → List ℕ} {l : List (WalletId × ManagedWallet)} {s : WalletStore}
  {id : WalletId} {wallet : ManagedWallet}

/-! ## The sweep over the wallets that await funding -/

/-- The row of a wallet awaiting funding after a sweep. -/
def ManagedWallet.swept (chain : ChainState) (now : Time) (wallet : ManagedWallet) :
    ManagedWallet :=
  match chain.balance wallet.coldkeySs58 with
  | none => wallet
  | some balance =>
    if (checkFunding wallet balance now).state = .awaitingFunding then wallet
    else AdvanceFields.apply { fundedTao := some (checkFunding wallet balance now).balanceTao }
      (checkFunding wallet balance now).state wallet

/-- A check leaves a wallet awaiting funding as it is, or finds it funded or expired. -/
theorem canTransition_checkFunding (balance : ℚ) (now : Time)
    (hwallet : wallet.state = .awaitingFunding) :
    wallet.state.canTransition (checkFunding wallet balance now).state = true := by
  rw [checkFunding, if_neg (not_not.mpr hwallet), hwallet]
  dsimp only
  split_ifs <;> rfl

/-- One wallet of the sweep: the rest is swept from a store in which only its row has changed. -/
theorem fundEach_cons (hrow : s.wallets.get? id = some wallet)
    (hwallet : wallet.state = .awaitingFunding) :
    ∃ t, (eval (wallets blake2b).toMachine (fundEach ((id, wallet) :: l)) s).1 =
        (eval (wallets blake2b).toMachine (fundEach l) t).1 ∧ t.chain = s.chain ∧ t.now = s.now ∧
      ∀ k, t.wallets.get? k =
        if k = id then some (wallet.swept s.chain s.now) else s.wallets.get? k := by
  -- Where the row is left as it is, so is the store.
  have hsame : ∀ k, s.wallets.get? k = if k = id then some wallet else s.wallets.get? k := by
    intro k
    split_ifs with hk
    · rw [hk, hrow]
    · rfl
  cases hbalance : s.chain.balance wallet.coldkeySs58 with
  | none =>
    have heval : eval (wallets blake2b).toMachine (fundEach ((id, wallet) :: l)) s =
        eval (wallets blake2b).toMachine (fundEach l) s := by
      rw [fundEach, eval_step]
      dsimp only [WalletOp.exec]
      rw [hbalance]
    rw [heval, ManagedWallet.swept, hbalance]
    exact ⟨s, rfl, rfl, rfl, hsame⟩
  | some balance =>
    have heval : eval (wallets blake2b).toMachine (fundEach ((id, wallet) :: l)) s =
        eval (wallets blake2b).toMachine
          (if (checkFunding wallet balance s.now).state = .awaitingFunding then fundEach l
            else call (.advanceManagedWallet id (checkFunding wallet balance s.now).state
                { fundedTao := some (checkFunding wallet balance s.now).balanceTao }) >>= fun _ ↦
              fundEach l >>= fun advanced ↦ .done (advanced + 1)) s := by
      rw [fundEach, eval_step]
      dsimp only [WalletOp.exec]
      rw [hbalance]
      rfl
    rw [heval, ManagedWallet.swept, hbalance]
    dsimp only
    by_cases hawaiting : (checkFunding wallet balance s.now).state = .awaitingFunding
    · rw [if_pos hawaiting, if_pos hawaiting]
      exact ⟨s, rfl, rfl, rfl, hsame⟩
    · have hadvance : (WalletOp.advanceManagedWallet id (checkFunding wallet balance s.now).state
          { fundedTao := some (checkFunding wallet balance s.now).balanceTao }).exec s = _ :=
        advance_legal hrow (canTransition_checkFunding balance s.now hwallet)
      rw [if_neg hawaiting, if_neg hawaiting, eval_step, eval_bind, hadvance]
      exact ⟨_, rfl, rfl, rfl, fun k ↦ Table.get?_insert _ _ _ _⟩

/-- A sweep over some wallets changes no other, nor the chain. -/
theorem get?_fundEach (hl : ∀ r ∈ l, s.wallets.get? r.1 = some r.2 ∧ r.2.state = .awaitingFunding)
    (ids : (l.map Prod.fst).Nodup) :
    (∀ r ∈ l, (eval (wallets blake2b).toMachine (fundEach l) s).1.wallets.get? r.1 =
      some (r.2.swept s.chain s.now)) ∧
    ∀ k ∉ l.map Prod.fst, (eval (wallets blake2b).toMachine (fundEach l) s).1.wallets.get? k =
      s.wallets.get? k := by
  induction l generalizing s with
  | nil => exact ⟨fun _ h ↦ (List.not_mem_nil h).elim, fun _ _ ↦ rfl⟩
  | cons r l ih =>
    obtain ⟨id, wallet⟩ := r
    obtain ⟨hid, hids⟩ := List.nodup_cons.mp ids
    obtain ⟨hrow, hwallet⟩ := hl _ List.mem_cons_self
    obtain ⟨t, heval, hchain, hnow, hget⟩ := @fundEach_cons blake2b l s id wallet hrow hwallet
    have hne : ∀ r ∈ l, r.1 ≠ id := by
      intro r hr heq
      have hmem : r.1 ∈ l.map Prod.fst := List.mem_map_of_mem hr
      exact hid (heq ▸ hmem)
    obtain ⟨hin, hout⟩ := @ih t (fun r hr ↦ by
      rw [hget, if_neg (hne r hr)]
      exact hl r (List.mem_cons_of_mem _ hr)) hids
    rw [heval]
    rw [hchain, hnow] at hin
    refine ⟨fun r hr ↦ ?_, fun k hk ↦ ?_⟩
    · rcases List.mem_cons.mp hr with rfl | hr
      · rw [hout _ hid, hget, if_pos rfl]
      · exact hin r hr
    · obtain ⟨hkid, hkl⟩ := not_or.mp fun h ↦ hk (List.mem_cons.mpr h)
      rw [hout k hkl, hget, if_neg hkid]

/-- The row of a wallet after a sweep. -/
theorem get?_tickFunding (hrow : s.wallets.get? id = some wallet) :
    ((wallets blake2b).after .tickFunding s).wallets.get? id =
      some (if wallet.state = .awaitingFunding then wallet.swept s.chain s.now else wallet) := by
  have hlisted : ∀ r ∈ s.listManagedWalletsInState .awaitingFunding,
      s.wallets.get? r.1 = some r.2 ∧ r.2.state = .awaitingFunding := by
    intro r hr
    obtain ⟨hget, hstate⟩ := Table.mem_select.mp hr
    exact ⟨hget, of_decide_eq_true hstate⟩
  obtain ⟨hin, hout⟩ := @get?_fundEach blake2b _ s hlisted (s.wallets.nodup_select _)
  have hafter : (wallets blake2b).after .tickFunding s = (eval (wallets blake2b).toMachine
      (fundEach (s.listManagedWalletsInState .awaitingFunding)) s).1 :=
    congrArg Prod.fst (eval_bind _ _ _ _)
  rw [hafter]
  split_ifs with hwallet
  · exact hin (id, wallet) (Table.mem_select.mpr ⟨hrow, decide_eq_true hwallet⟩)
  · rw [hout id ?_, hrow]
    intro hid
    obtain ⟨r, hr, rfl⟩ := List.mem_map.mp hid
    obtain ⟨hget, hstate⟩ := hlisted r hr
    rw [hrow] at hget
    exact hwallet (Option.some.inj hget ▸ hstate)

/-! ## Going back to awaiting funding -/

/-- The operation creates no wallet and sends none back to awaiting funding. -/
def WalletOp.onward : WalletOp → Prop
  | createManagedWallet .. => False
  | advanceManagedWallet _ target _ => target ≠ .awaitingFunding
  | _ => True

theorem exec_onward {o : WalletOp} (ho : o.onward) (hs : s.stateOf id ≠ some .awaitingFunding) :
    (o.exec s).1.stateOf id ≠ some .awaitingFunding := by
  cases o with
  | createManagedWallet => exact ho.elim
  | advanceManagedWallet k target fields =>
    simp only [WalletOp.exec, WalletStore.advanceManagedWallet]
    split
    · exact hs
    · split
      · exact hs
      · next w _ _ =>
        rw [WalletStore.stateOf, Table.get?_insert]
        split_ifs
        · exact fun h ↦ ho (Option.some.inj h)
        · exact hs
  | addWhitelistEntry hotkey =>
    simp only [WalletOp.exec, WalletStore.addWhitelistEntry]
    split <;> exact hs
  | recordManagedPayout k row =>
    simp only [WalletOp.exec, WalletStore.recordManagedPayout]
    split <;> exact hs
  | creditManagedPayout k alpha =>
    simp only [WalletOp.exec, WalletStore.creditManagedPayout, WalletStore.stateOf,
      Table.get?_modify]
    split_ifs
    · rwa [Option.map_map]
    · exact hs
  | _ => exact hs

/-- A method of such operations sends no wallet back. -/
theorem eval_onward {α : Type} {p : Program Wallets α} (hp : p.Uses WalletOp.onward)
    (hs : s.stateOf id ≠ some .awaitingFunding) :
    (eval (wallets blake2b).toMachine p s).1.stateOf id ≠ some .awaitingFunding := by
  induction p generalizing s with
  | done a => exact hs
  | call o k ih => exact ih _ (hp.2 _) (exec_onward hp.1 hs)

theorem onward_adoptRegistration : (adoptRegistration id wallet).Uses WalletOp.onward := by
  refine Uses.op_bind trivial fun uid ↦ ?_
  cases uid with
  | none => trivial
  | some uid =>
    refine Uses.op_bind (fun h ↦ nomatch h) fun _ ↦ Uses.op_bind (fun h ↦ nomatch h) fun _ ↦ trivial

theorem onward_submitRegistration : (submitRegistration id wallet).Uses WalletOp.onward := by
  refine Uses.op_bind (fun h ↦ nomatch h) fun row ↦ ?_
  cases row with
  | none => trivial
  | some row =>
    refine Uses.op_bind trivial fun answered ↦ ?_
    split
    · exact Uses.op_bind (fun h ↦ nomatch h) fun _ ↦ trivial
    · refine Uses.op_bind trivial fun uid ↦ ?_
      match uid with
      | none => trivial
      | some none | some (some uid) => exact Uses.op_bind (fun h ↦ nomatch h) fun _ ↦ trivial

/-- A plan that asks for more has read a burn and a balance, and asks for the difference. -/
theorem additional_planRegistration {plan : RegistrationPlan}
    (hplan : (eval (wallets blake2b).toMachine (planRegistration wallet) s).2 = some plan)
    (hmore : 0 < plan.additionalFundingTao) :
    ∃ burn balance, s.chain.burn wallet.netuid = some burn ∧
      s.chain.balance wallet.coldkeySs58 = some balance ∧
      plan.additionalFundingTao = round6 (burn - (balance - payoutFeeReserveTao)) := by
  rw [planRegistration] at hplan
  split at hplan
  · obtain rfl := Option.some.inj hplan
    exact (lt_irrefl _ hmore).elim
  · rw [eval_step] at hplan
    dsimp only [WalletOp.exec] at hplan
    split at hplan
    · cases hplan
    · obtain rfl := Option.some.inj hplan
      exact (lt_irrefl _ hmore).elim
    · rw [eval_step] at hplan
      dsimp only [WalletOp.exec] at hplan
      split at hplan
      · cases hplan
      · next burn hburn =>
        rw [eval_step] at hplan
        dsimp only [WalletOp.exec] at hplan
        split at hplan
        · cases hplan
        · next balance hbalance =>
          refine ⟨burn, balance, hburn, hbalance, ?_⟩
          split at hplan
          · obtain rfl := Option.some.inj hplan
            rfl
          · obtain rfl := Option.some.inj hplan
            exact (lt_irrefl _ hmore).elim

/-- A funded wallet that registration sends back is asked for what was recorded when it was funded,
and what the balance falls short by now. -/
theorem registerOne_back (hrow : s.wallets.get? id = some wallet) (hfunded : wallet.state = .funded)
    (hback : (eval (wallets blake2b).toMachine (registerOne id wallet) s).1.stateOf id =
      some .awaitingFunding) :
    ∃ burn balance, s.chain.burn wallet.netuid = some burn ∧
      s.chain.balance wallet.coldkeySs58 = some balance ∧
      (eval (wallets blake2b).toMachine (registerOne id wallet) s).1.wallets.get? id =
        some (AdvanceFields.apply { requiredFundingTao := some (round6 (wallet.fundedTao +
          round6 (burn - (balance - payoutFeeReserveTao)))) } .awaitingFunding wallet) := by
  have hstart : s.stateOf id ≠ some .awaitingFunding := by
    rw [WalletStore.stateOf, hrow, Option.map_some, hfunded]
    rintro ⟨⟩
  rw [registerOne, eval_bind, eval_planRegistration] at hback ⊢
  cases hplan : (eval (wallets blake2b).toMachine (planRegistration wallet) s).2 with
  | none =>
    rw [hplan] at hback
    exact (hstart hback).elim
  | some plan =>
    rw [hplan] at hback
    dsimp only at hback ⊢
    split_ifs at hback ⊢ with hregister hmore
    · obtain ⟨burn, balance, hburn, hbalance, hadditional⟩ := additional_planRegistration hplan hmore
      refine ⟨burn, balance, hburn, hbalance, ?_⟩
      have hadvance : (WalletOp.advanceManagedWallet id .awaitingFunding
          { requiredFundingTao :=
              some (round6 (wallet.fundedTao + plan.additionalFundingTao)) }).exec s = _ :=
        advance_legal hrow (by rw [hfunded]; rfl)
      rw [eval_step, hadvance, ← hadditional]
      exact Table.get?_insert_self _ _ _
    · split at hback
      · exact (eval_onward onward_adoptRegistration hstart hback).elim
      · exact (hstart hback).elim
    · exact (eval_onward onward_submitRegistration hstart hback).elim

/-! ## Being funded again -/

/-- The call sweeps the wallets that await funding, or it is the chain that changes or time that
passes. -/
def WalletCall.sweeps : WalletCall → Bool
  | tickFunding | advance _ | setChain _ => true
  | _ => false

variable (blake2b) in
/-- Through any sequence of later balances, the wallet is found funded only where its balance is so
much. -/
def FundedOnlyWith (s : WalletStore) (id : WalletId) (coldkey : Text) (needed : ℚ) : Prop :=
  ∀ later : List WalletCall, (∀ c ∈ later, c.sweeps = true) →
    ((wallets blake2b).afterAll s later).stateOf id ≠ some .funded →
    ((wallets blake2b).after .tickFunding ((wallets blake2b).afterAll s later)).stateOf id =
      some .funded →
    ∃ balance, ((wallets blake2b).afterAll s later).chain.balance coldkey = some balance ∧
      needed ≤ balance

/-- A sweep changes neither what a wallet is asked for nor where it is to come. -/
theorem swept_required (chain : ChainState) (now : Time) (w : ManagedWallet) :
    (w.swept chain now).coldkeySs58 = w.coldkeySs58 ∧
      (w.swept chain now).requiredFundingTao = w.requiredFundingTao := by
  rw [ManagedWallet.swept]
  split
  · exact ⟨rfl, rfl⟩
  · split_ifs <;> exact ⟨rfl, rfl⟩

/-- Through sweeps, changes of the chain and time a wallet is asked for the same. -/
theorem required_afterAll {later : List WalletCall} (hlater : ∀ c ∈ later, c.sweeps = true)
    (hrow : s.wallets.get? id = some wallet) :
    ∃ w, ((wallets blake2b).afterAll s later).wallets.get? id = some w ∧
      w.coldkeySs58 = wallet.coldkeySs58 ∧ w.requiredFundingTao = wallet.requiredFundingTao := by
  induction later generalizing s wallet with
  | nil => exact ⟨wallet, hrow, rfl, rfl⟩
  | cons c later ih =>
    have hone : ∃ w, ((wallets blake2b).after c s).wallets.get? id = some w ∧
        w.coldkeySs58 = wallet.coldkeySs58 ∧
        w.requiredFundingTao = wallet.requiredFundingTao := by
      cases c with
      | tickFunding =>
        refine ⟨_, get?_tickFunding hrow, ?_⟩
        split_ifs
        · exact swept_required _ _ _
        · exact ⟨rfl, rfl⟩
      | advance | setChain => exact ⟨wallet, hrow, rfl, rfl⟩
      | _ => cases hlater _ List.mem_cons_self
    obtain ⟨w, hw, hcoldkey, hrequired⟩ := hone
    obtain ⟨w', hw', hcoldkey', hrequired'⟩ :=
      ih (fun c hc ↦ hlater c (List.mem_cons_of_mem _ hc)) hw
    exact ⟨w', hw', hcoldkey'.trans hcoldkey, hrequired'.trans hrequired⟩

/-- A sweep finds a wallet funded exactly where its balance is what it is asked for. -/
theorem swept_funded (chain : ChainState) (now : Time) {w : ManagedWallet}
    (hw : w.state = .awaitingFunding) :
    (w.swept chain now).state = .funded ↔
      ∃ balance, chain.balance w.coldkeySs58 = some balance ∧ w.requiredFundingTao ≤ balance := by
  rw [ManagedWallet.swept]
  cases hbalance : chain.balance w.coldkeySs58 with
  | none => simp [hw]
  | some balance =>
    have hcheck : (checkFunding w balance now).state = .funded ↔
        w.requiredFundingTao ≤ balance := by
      rw [checkFunding, if_neg (not_not.mpr hw)]
      dsimp only
      split_ifs with hpaid <;> simp [hpaid]
    simp only [Option.some.injEq, exists_eq_left', ← hcheck]
    split_ifs with hawaiting
    · simp [hawaiting, hw]
    · exact Iff.rfl

/-- Whether a wallet may be found funded with too little is seen in what it is asked for. -/
theorem fundedOnlyWith_iff (hrow : s.wallets.get? id = some wallet)
    (hwallet : wallet.state = .awaitingFunding) (needed : ℚ) :
    FundedOnlyWith blake2b s id wallet.coldkeySs58 needed ↔ needed ≤ wallet.requiredFundingTao := by
  constructor
  · intro h
    -- The balance may come to be just what the wallet is asked for.
    obtain ⟨chain, hchain⟩ : ∃ chain : ChainState,
        chain.balance = fun _ ↦ some wallet.requiredFundingTao :=
      ⟨{ s.chain with balance := fun _ ↦ some wallet.requiredFundingTao }, rfl⟩
    have hlater : ((wallets blake2b).afterAll s [.setChain chain]).wallets.get? id = some wallet :=
      hrow
    have hpaid : (wallet.swept chain s.now).state = .funded :=
      (swept_funded _ _ hwallet).mpr ⟨_, congrFun hchain _, le_rfl⟩
    obtain ⟨balance, hbalance, hneeded⟩ := h [.setChain chain] (by simp [WalletCall.sweeps])
      (by rw [WalletStore.stateOf, hlater, Option.map_some, hwallet]; rintro ⟨⟩)
      (by
        rw [WalletStore.stateOf, get?_tickFunding hlater, if_pos hwallet]
        exact congrArg some hpaid)
    obtain rfl := Option.some.inj ((congrFun hchain _).symm.trans hbalance)
    exact hneeded
  · intro hneeded later hlater hbefore hafter
    obtain ⟨w, hw, hcoldkey, hrequired⟩ := @required_afterAll blake2b s id wallet later hlater hrow
    rw [WalletStore.stateOf, hw] at hbefore
    rw [WalletStore.stateOf, get?_tickFunding hw, Option.map_some, Option.some.injEq] at hafter
    split_ifs at hafter with hawaiting
    · obtain ⟨balance, hbalance, hpaid⟩ := (swept_funded _ _ hawaiting).mp hafter
      rw [hcoldkey] at hbalance
      rw [hrequired] at hpaid
      exact ⟨balance, hbalance, hneeded.trans hpaid⟩
    · exact (hbefore (congrArg some hafter)).elim

/-! ## Asking for enough -/

/-- Rounding moves an amount by half a millionth at most. -/
theorem abs_round6_sub (x : ℚ) : |round6 x - x| ≤ 1 / 2 / 10 ^ 6 := by
  have hround := abs_sub_roundHalfEven (x * 10 ^ 6)
  rw [abs_le] at hround ⊢
  rw [round6]
  constructor <;> linarith

/-- An amount is left as it is exactly when it has six decimals. -/
theorem round6_eq_self_iff {x : ℚ} : round6 x = x ↔ ∃ n : ℤ, x = n / 10 ^ 6 := by
  constructor
  · intro h
    exact ⟨roundHalfEven (x * 10 ^ 6), h.symm⟩
  · rintro ⟨n, rfl⟩
    rw [round6, div_mul_cancel₀ _ (by norm_num), roundHalfEven_intCast]

theorem round6_add {x y : ℚ} (hx : round6 x = x) (hy : round6 y = y) :
    round6 (x + y) = x + y := by
  obtain ⟨m, rfl⟩ := round6_eq_self_iff.mp hx
  obtain ⟨n, rfl⟩ := round6_eq_self_iff.mp hy
  exact round6_eq_self_iff.mpr ⟨m + n, by rw [← add_div, Int.cast_add]⟩

theorem round6_sub {x y : ℚ} (hx : round6 x = x) (hy : round6 y = y) :
    round6 (x - y) = x - y := by
  obtain ⟨m, rfl⟩ := round6_eq_self_iff.mp hx
  obtain ⟨n, rfl⟩ := round6_eq_self_iff.mp hy
  exact round6_eq_self_iff.mpr ⟨m - n, by rw [← sub_div, Int.cast_sub]⟩

theorem round6_payoutFeeReserveTao : round6 payoutFeeReserveTao = payoutFeeReserveTao :=
  round6_eq_self_iff.mpr ⟨50000, by norm_num [payoutFeeReserveTao]⟩

variable (blake2b) in
/-- The wallet is asked for so much, and will not be found funded with less. -/
structure AsksForEnough (s : WalletStore) (id : WalletId) (coldkey : Text) (needed : ℚ) : Prop where
  required : ∃ w, s.wallets.get? id = some w ∧ needed ≤ w.requiredFundingTao
  funded : FundedOnlyWith blake2b s id coldkey needed

theorem asksForEnough_iff (hrow : s.wallets.get? id = some wallet)
    (hwallet : wallet.state = .awaitingFunding) (needed : ℚ) :
    AsksForEnough blake2b s id wallet.coldkeySs58 needed ↔ needed ≤ wallet.requiredFundingTao :=
  ⟨fun h ↦ (fundedOnlyWith_iff hrow hwallet needed).mp h.funded,
    fun h ↦ ⟨⟨wallet, hrow, h⟩, (fundedOnlyWith_iff hrow hwallet needed).mpr h⟩⟩

end

/-- **A wallet that is sent back is asked for enough exactly when nothing has been deposited since
it was funded**, where its amounts have six decimals; otherwise what it is asked for is the sum of
the burn and the reserve, less what has been deposited since, to a millionth. -/
theorem requote_asks_for_enough (blake2b : List ℕ → List ℕ) (s : WalletStore) (id : WalletId)
    (wallet : ManagedWallet) (burn balance : ℚ) (hrow : s.wallets.get? id = some wallet)
    (hfunded : wallet.state = .funded)
    (hback : (eval (wallets blake2b).toMachine (registerOne id wallet) s).1.stateOf id =
      some .awaitingFunding)
    (hburn : s.chain.burn wallet.netuid = some burn)
    (hbalance : s.chain.balance wallet.coldkeySs58 = some balance) :
    (∃ w, (eval (wallets blake2b).toMachine (registerOne id wallet) s).1.wallets.get? id = some w ∧
      |w.requiredFundingTao - (burn + payoutFeeReserveTao - (balance - wallet.fundedTao))| ≤
        1 / 10 ^ 6) ∧
    (balance ≤ wallet.fundedTao →
      AsksForEnough blake2b (eval (wallets blake2b).toMachine (registerOne id wallet) s).1 id
        wallet.coldkeySs58 (burn + payoutFeeReserveTao - 1 / 10 ^ 6)) ∧
    (round6 burn = burn → round6 balance = balance → round6 wallet.fundedTao = wallet.fundedTao →
      (AsksForEnough blake2b (eval (wallets blake2b).toMachine (registerOne id wallet) s).1 id
        wallet.coldkeySs58 (burn + payoutFeeReserveTao) ↔ balance ≤ wallet.fundedTao)) := by
  obtain ⟨burn', balance', hburn', hbalance', hstored⟩ := registerOne_back hrow hfunded hback
  obtain rfl := Option.some.inj (hburn.symm.trans hburn')
  obtain rfl := Option.some.inj (hbalance.symm.trans hbalance')
  have henough (needed : ℚ) := @asksForEnough_iff blake2b _ id _ hstored rfl needed
  have hinner := abs_le.mp (abs_round6_sub (burn - (balance - payoutFeeReserveTao)))
  have houter := abs_le.mp (abs_round6_sub
    (wallet.fundedTao + round6 (burn - (balance - payoutFeeReserveTao))))
  refine ⟨⟨_, hstored, abs_le.mpr ⟨?_, ?_⟩⟩, fun hle ↦ (henough _).mpr ?_,
    fun hburn6 hbalance6 hfunded6 ↦ (henough _).trans ?_⟩
  · simp only [AdvanceFields.apply, Option.getD_some]
    linarith
  · simp only [AdvanceFields.apply, Option.getD_some]
    linarith
  · simp only [AdvanceFields.apply, Option.getD_some]
    linarith
  · have hshort : round6 (burn - (balance - payoutFeeReserveTao)) =
        burn - (balance - payoutFeeReserveTao) :=
      round6_sub hburn6 (round6_sub hbalance6 round6_payoutFeeReserveTao)
    simp only [AdvanceFields.apply, Option.getD_some, hshort]
    rw [round6_add hfunded6 hshort]
    constructor <;> intro h <;> linarith

/-- The funded wallet, with a burn and a balance. -/
def atBurn (burn balance : ℚ) : WalletStore :=
  { fundedWallet.store with
    chain := { fundedWallet.store.chain with
      burn := fun _ ↦ some burn
      balance := fun _ ↦ some balance } }

/-- The row of the funded wallet. -/
def oneFunded : ManagedWallet :=
  ⟨1, "5C".toList, "5H".toList, "5P".toList, .funded, 110, 1, 1, none, 0, 0⟩

/-- The burn has risen to all that the wallet was funded with: it is asked for the reserve too. -/
theorem requote_asks_for_enough_unchanged :
    AsksForEnough id (eval (wallets id).toMachine (registerOne 1 oneFunded) (atBurn 1 1)).1 1
      oneFunded.coldkeySs58 (1 + payoutFeeReserveTao) :=
  ((requote_asks_for_enough id (atBurn 1 1) 1 oneFunded 1 1 rfl rfl (by decide +kernel) rfl
    rfl).2.2 (by decide +kernel) (by decide +kernel) (by decide +kernel)).mpr le_rfl

/-- One more has been deposited since the wallet was funded with one, and the burn has risen to two
and a half. The wallet is asked for less than it has, and the next sweep finds it funded. -/
theorem requote_asks_for_less :
    (eval (wallets id).toMachine (registerOne 1 oneFunded) (atBurn (5 / 2) 2)).1.stateOf 1 =
        some .awaitingFunding ∧
      (((eval (wallets id).toMachine (registerOne 1 oneFunded)
        (atBurn (5 / 2) 2)).1.wallets.get? 1).map ManagedWallet.requiredFundingTao) =
          some (31 / 20) ∧
      ((wallets id).after .tickFunding (eval (wallets id).toMachine (registerOne 1 oneFunded)
        (atBurn (5 / 2) 2)).1).stateOf 1 = some .funded ∧
      (2 : ℚ) < 5 / 2 + payoutFeeReserveTao := by
  decide +kernel

end GreenCompute
