import GreenCompute.Validator.ManagedWallets

/-!
# Registering once

Registering a hotkey burns the provider's funds, so a funded wallet is to be registered once. A
worker advances it to registering before it submits, and the transition table is there to turn a
second worker away. It does so from every state but one: a wallet that is registering may be
advanced to registering again, and the second worker submits as well.

Where no worker about to submit meets a wallet that is registering already, at most one worker at
a time is engaged with a wallet, from its advance to the outcome of its attempt, and in that time
nobody else moves the wallet back to where it could be registered again.
-/

namespace GreenCompute

open ManagedWalletService Program

/-! ## What a run has registered -/

/-- The state of a wallet, if there is one. -/
def WalletStore.stateOf (s : WalletStore) (id : WalletId) : Option WalletState :=
  (s.wallets.get? id).map ManagedWallet.state

/-- The event is a registration attempt for this wallet. -/
def registers (id : WalletId) : Event Wallets → Bool
  | ⟨.register k .., _⟩ => k = id
  | _ => false

/-- One operation, and how often the wallet has been registered since it last became funded. -/
def countRegistration (id : WalletId) (acc : WalletStore × ℕ)
    (entry : Entry Wallets WalletCall) : WalletStore × ℕ :=
  let s' := (entry.event.1.exec acc.1).1
  (s',
    if acc.1.stateOf id ≠ some .funded ∧ s'.stateOf id = some .funded then 0
    else if registers id entry.event then acc.2 + 1 else acc.2)

/-- How often a run from this store has registered the wallet since it last became funded. -/
def WalletStore.registrations (s : WalletStore) (id : WalletId)
    (log : List (Entry Wallets WalletCall)) : ℕ :=
  (log.foldl (countRegistration id) (s, 0)).2

/-! ## What a worker has done -/

/-- The worker has just planned to register: it has read a balance that covers the burn. -/
def submitting (past : List (Event Wallets)) : Bool :=
  match past.getLast? with
  | some ⟨.coldkeyBalanceTao _, some _⟩ => true
  | _ => false

/-- No worker that has planned to register advances a wallet that is registering already. -/
def meetsFunded : Guard Wallets WalletCall WalletStore := fun _ past o s ↦
  match o with
  | .advanceManagedWallet id .registering _ =>
    submitting past = true → s.stateOf id ≠ some .registering
  | _ => True

instance (c : WalletCall) (past : List (Event Wallets)) (o : WalletOp) (s : WalletStore) :
    Decidable (meetsFunded c past o s) := by
  unfold meetsFunded
  split <;> infer_instance

/-- An attempt begins the wait for its outcome, and recording the outcome ends it. -/
def awaitOutcome (id : WalletId) (awaiting : Bool) : Event Wallets → Bool
  | ⟨.register k .., _⟩ => if k = id then true else awaiting
  | ⟨.advanceManagedWallet k .registered _, _⟩ => if k = id then false else awaiting
  | ⟨.advanceManagedWallet k .registrationFailed _, _⟩ => if k = id then false else awaiting
  | _ => awaiting

/-- The worker has attempted to register the wallet and not recorded the outcome yet. -/
def awaitsOutcome (id : WalletId) (past : List (Event Wallets)) : Bool :=
  past.foldl (awaitOutcome id) false

theorem awaitsOutcome_concat (id : WalletId) (past : List (Event Wallets)) (e : Event Wallets) :
    awaitsOutcome id (past ++ [e]) = awaitOutcome id (awaitsOutcome id past) e := by
  rw [awaitsOutcome, List.foldl_append]
  rfl

/-- A worker registers only right after its own advance, and records a failure only of its own
attempt. -/
def Disciplined (past : List (Event Wallets)) : WalletOp → Prop
  | .register id .. => ∃ past' fields row, submitting past' = true ∧
      past = past' ++ [⟨.advanceManagedWallet id .registering fields, some row⟩]
  | .advanceManagedWallet id .registrationFailed _ => awaitsOutcome id past = true
  | _ => True

/-- A list of wallets in a state holds only such. -/
def ListsState : (o : WalletOp) → o.Ans → Prop
  | .listManagedWalletsInState state, rows => ∀ r ∈ rows, r.2.state = state
  | _, _ => True

theorem exec_listsState (o : WalletOp) (s : WalletStore) : ListsState o (o.exec s).2 := by
  cases o with
  | listManagedWalletsInState state =>
    rintro ⟨id, wallet⟩ hr
    have hmem : (id, wallet) ∈ s.listManagedWalletsInState state := hr
    exact of_decide_eq_true (Table.mem_select.mp hmem).2
  | _ => trivial

/-- An operation away from registration: it creates a wallet to be funded, records that one was or
was not, or advances none. -/
def WalletOp.aside : WalletOp → Bool
  | createManagedWallet _ wallet => wallet.state = .awaitingFunding
  | advanceManagedWallet _ target _ => target = .funded ∨ target = .fundingExpired
  | addWhitelistEntry _ | register .. | setChain _ => false
  | _ => true

/-- An operation of the ticks for funding and payouts: it records whether a wallet was funded, or
advances none and creates none. -/
def WalletOp.routine : WalletOp → Bool
  | createManagedWallet .. => false
  | o => o.aside

theorem WalletOp.aside_of_routine {o : WalletOp} (h : o.routine = true) : o.aside = true := by
  cases o with
  | createManagedWallet => cases h
  | _ => exact h

theorem WalletOp.aside_disciplined {o : WalletOp} (h : o.aside = true)
    (past : List (Event Wallets)) : Disciplined past o := by
  cases o with
  | advanceManagedWallet id target fields =>
    cases target with
    | registrationFailed => simp [aside] at h
    | _ => trivial
  | register => cases h
  | _ => trivial

/-! ### Provisioning, funding and payouts -/

theorem uses_quoteFunding (netuid : ℕ) :
    (quoteFunding netuid).Uses fun o : WalletOp ↦ o = .registrationBurnTao netuid := by
  refine Uses.op_bind rfl fun burn ↦ ?_
  cases burn with
  | none => trivial
  | some burn =>
    dsimp only
    split <;> trivial

theorem uses_provisionForApplication (blake2b : List ℕ → List ℕ) (netuid : ℕ)
    (application : ApplicationId) (payoutAddress : Text) (keys : Text × Text) :
    (provisionForApplication blake2b netuid application payoutAddress keys).Uses
      fun o : WalletOp ↦ o.aside = true := by
  refine Uses.op_bind rfl fun known ↦ ?_
  cases known with
  | some known => trivial
  | none =>
    have hquote : (quoteFunding netuid).Uses fun o : WalletOp ↦ o.aside = true :=
      (uses_quoteFunding netuid).mono (by rintro _ rfl; rfl)
    refine hquote.bind fun required ↦ ?_
    cases required with
    | none => trivial
    | some required =>
      refine Uses.op_bind rfl fun id ↦ ?_
      split
      · trivial
      · exact Uses.op_bind rfl fun createdAt ↦ Uses.op_bind rfl fun created ↦ trivial

/-- A wallet awaiting funding becomes funded or expires. -/
theorem checkFunding_awaiting {wallet : ManagedWallet} (h : wallet.state = .awaitingFunding)
    (balanceTao : ℚ) (now : Time) :
    (checkFunding wallet balanceTao now).state = .awaitingFunding ∨
      ((checkFunding wallet balanceTao now).state = .funded ∨
        (checkFunding wallet balanceTao now).state = .fundingExpired) := by
  simp only [checkFunding, h, ne_eq, not_true_eq_false, if_false]
  split
  · exact .inr (.inl rfl)
  · split
    · exact .inr (.inr rfl)
    · exact .inl rfl

theorem uses_fundEach (l : List (WalletId × ManagedWallet))
    (hl : ∀ r ∈ l, r.2.state = .awaitingFunding) :
    (fundEach l).Uses fun o : WalletOp ↦ o.routine = true := by
  induction l with
  | nil => trivial
  | cons r l ih =>
    obtain ⟨id, wallet⟩ := r
    have hrest := ih fun r hr ↦ hl r (List.mem_cons_of_mem _ hr)
    refine Uses.op_bind rfl fun balance ↦ ?_
    cases balance with
    | none => exact hrest
    | some balance =>
      refine Uses.op_bind rfl fun now ↦ ?_
      dsimp only
      split
      · exact hrest
      · next hchecked =>
        refine Uses.op_bind ?_ fun row ↦ Uses.bind hrest fun _ ↦ trivial
        have hstate := checkFunding_awaiting (hl _ List.mem_cons_self) balance now
        exact decide_eq_true (hstate.resolve_left hchecked)

theorem uses_payOne (blake2b : List ℕ → List ℕ) (id : WalletId) (wallet : ManagedWallet) :
    (payOne blake2b id wallet).Uses fun o : WalletOp ↦ o.routine = true := by
  unfold payOne
  refine Uses.op_bind rfl fun inflight ↦ ?_
  split
  · trivial
  · refine Uses.op_bind rfl fun accrued ↦ ?_
    cases accrued with
    | none => trivial
    | some accrued =>
      dsimp only
      split
      · trivial
      · refine Uses.op_bind rfl fun payoutId ↦
          Uses.op_bind rfl fun recorded ↦ ?_
        split
        · trivial
        · refine Uses.op_bind rfl fun outcome ↦ ?_
          cases outcome with
          | none => exact Uses.op_bind rfl fun _ ↦ trivial
          | some outcome =>
            refine Uses.op_bind rfl fun recorded ↦ ?_
            split
            · trivial
            · split
              · trivial
              · exact Uses.op_bind rfl fun _ ↦ trivial

theorem uses_payEach (blake2b : List ℕ → List ℕ) (l : List (WalletId × ManagedWallet)) :
    (payEach blake2b l).Uses fun o : WalletOp ↦ o.routine = true := by
  induction l with
  | nil => trivial
  | cons r l ih =>
    refine Uses.bind (uses_payOne blake2b r.1 r.2) fun paid ↦ ?_
    cases paid with
    | none => trivial
    | some paid =>
      refine Uses.bind ih fun count ↦ ?_
      cases count <;> trivial

theorem uses_tickPayouts (blake2b : List ℕ → List ℕ) :
    (ManagedWalletService.tickPayouts blake2b).Uses fun o : WalletOp ↦ o.routine = true := by
  refine Uses.op_bind rfl fun active ↦
    Uses.bind (uses_payEach blake2b active) fun paid ↦ ?_
  cases paid with
  | none => trivial
  | some paid =>
    refine Uses.op_bind rfl fun suspended ↦
      Uses.bind (uses_payEach blake2b suspended) fun paid' ↦ ?_
    cases paid' <;> trivial

/-! ### Registration -/

/-- The method is disciplined, whatever it is answered. -/
abbrev AsksDisciplined {α : Type} (p : Program Wallets α) (past : List (Event Wallets)) : Prop :=
  p.Asks ListsState Disciplined (fun _ _ ↦ True) past

section

variable {past : List (Event Wallets)}

theorem asks_planRegistration (wallet : ManagedWallet) :
    (planRegistration wallet).Asks ListsState Disciplined
      (fun plan past ↦ ∀ p ∈ plan, p.shouldRegister = true → submitting past = true) past := by
  unfold planRegistration
  split
  · rintro p ⟨⟩ ⟨⟩
  · refine Asks.op_bind trivial fun uid _ ↦ ?_
    match uid with
    | none => exact fun _ h ↦ nomatch h
    | some (some uid) => rintro p ⟨⟩ ⟨⟩
    | some none =>
      refine Asks.op_bind trivial fun burn _ ↦ ?_
      cases burn with
      | none => exact fun _ h ↦ nomatch h
      | some burn =>
        refine Asks.op_bind trivial fun balance _ ↦ ?_
        cases balance with
        | none => exact fun _ h ↦ nomatch h
        | some balance =>
          dsimp only
          split
          · rintro p ⟨⟩ ⟨⟩
          · intro p _ _
            rw [submitting, List.getLast?_concat]

theorem asks_submitRegistration (id : WalletId) (wallet : ManagedWallet)
    (h : submitting past = true) : AsksDisciplined (submitRegistration id wallet) past := by
  refine Asks.op_bind trivial fun row _ ↦ ?_
  cases row with
  | none => trivial
  | some row =>
    refine Asks.op_bind ⟨past, _, row, h, rfl⟩ fun answered _ ↦ ?_
    have hawaits : ∀ past, awaitsOutcome id
        (past ++ [⟨.register id wallet.hotkeySs58 wallet.netuid, answered⟩]) = true := by
      intro past
      rw [awaitsOutcome_concat]
      exact if_pos rfl
    dsimp only
    split
    · exact Asks.op_bind (hawaits _) fun _ _ ↦ trivial
    · refine Asks.op_bind trivial fun uid _ ↦ ?_
      match uid with
      | none => trivial
      | some none =>
        refine Asks.op_bind ?_ fun _ _ ↦ trivial
        rw [Disciplined, awaitsOutcome_concat]
        exact hawaits _
      | some (some uid) => exact Asks.op_bind trivial fun _ _ ↦ trivial

theorem asks_registerOne (id : WalletId) (wallet : ManagedWallet) :
    AsksDisciplined (registerOne id wallet) past := by
  refine Asks.bind (asks_planRegistration wallet) fun plan past hplan ↦ ?_
  cases plan with
  | none => trivial
  | some plan =>
    dsimp only
    split
    · split
      · exact Asks.op_bind trivial fun _ _ ↦ trivial
      · split
        · refine Asks.op_bind trivial fun uid _ ↦ ?_
          cases uid with
          | none => trivial
          | some uid =>
            exact Asks.op_bind trivial fun _ _ ↦
              Asks.op_bind trivial fun _ _ ↦ trivial
        · trivial
    · next hregister =>
      exact asks_submitRegistration id wallet
        (hplan plan rfl (Bool.eq_true_of_not_eq_false hregister))

theorem asks_registerEach (l : List (WalletId × ManagedWallet)) :
    AsksDisciplined (registerEach l) past := by
  induction l generalizing past with
  | nil => trivial
  | cons r l ih =>
    refine Asks.bind (asks_registerOne r.1 r.2) fun registered past _ ↦ ?_
    cases registered with
    | none => trivial
    | some registered =>
      refine Asks.bind ih fun count past _ ↦ ?_
      cases count <;> trivial

theorem asks_activateEach (l : List (WalletId × ManagedWallet)) :
    AsksDisciplined (activateEach l) past := by
  induction l generalizing past with
  | nil => trivial
  | cons r l ih =>
    refine Asks.bind (P := fun _ _ ↦ True) ?_ fun _ past _ ↦ ih
    exact Asks.op_bind trivial fun _ _ ↦ Asks.op_bind trivial fun _ _ ↦ trivial

end

theorem asks_of_uses {α : Type} {p : Program Wallets α} {past : List (Event Wallets)}
    (h : p.Uses fun o : WalletOp ↦ o.aside = true) : AsksDisciplined p past :=
  h.asks (fun past _ ho ↦ WalletOp.aside_disciplined ho past) (fun _ ↦ True)
    (fun _ _ _ _ _ ↦ trivial) trivial

theorem body_disciplined (blake2b : List ℕ → List ℕ) (c : WalletCall) :
    AsksDisciplined (c.body blake2b) [] := by
  cases c with
  | provisionForApplication netuid application payoutAddress keys =>
    have hprovision := uses_provisionForApplication blake2b netuid application payoutAddress keys
    exact Asks.bind (asks_of_uses hprovision) fun _ _ _ ↦ trivial
  | tickFunding =>
    refine Asks.bind (P := fun _ _ ↦ True) ?_ fun _ _ _ ↦ trivial
    exact Asks.op_bind trivial fun rows hrows ↦ 
      asks_of_uses ((uses_fundEach rows hrows).mono fun _ ↦ WalletOp.aside_of_routine)
  | tickRegistration =>
    refine Asks.bind (P := fun _ _ ↦ True) ?_ fun _ _ _ ↦ trivial
    refine Asks.op_bind trivial fun rows _ ↦ Asks.bind (asks_registerEach rows) fun count _ _ ↦ ?_
    cases count with
    | none => trivial
    | some count =>
      exact Asks.op_bind trivial fun rows _ ↦ Asks.bind (asks_activateEach rows) fun _ _ _ ↦ trivial
  | tickPayouts =>
    have hpayouts := (uses_tickPayouts blake2b).mono fun _ ↦ WalletOp.aside_of_routine
    exact Asks.bind (asks_of_uses hpayouts) fun _ _ _ ↦ trivial
  | intervene id how => cases how <;> exact Asks.op_bind trivial fun _ _ ↦ trivial
  | advance seconds => exact ⟨trivial, fun _ _ ↦ trivial⟩
  | setChain chain => exact ⟨trivial, fun _ _ ↦ trivial⟩

/-! ## What an operation does to a wallet's state -/

/-- Only an advance of the wallet along a legal edge changes its state, or its creation. -/
inductive StateEffect (id : WalletId) (o : WalletOp) (s s' : WalletStore) : Prop
  | same (h : s'.stateOf id = s.stateOf id)
  | created (wallet : ManagedWallet) (ho : o = .createManagedWallet id wallet)
      (absent : s.stateOf id = none)
  | advanced (target : WalletState) (fields : AdvanceFields) (current : WalletState)
      (ho : o = .advanceManagedWallet id target fields) (before : s.stateOf id = some current)
      (legal : WalletState.canTransition current target = true)
      (after : s'.stateOf id = some target)

theorem exec_stateOf (id : WalletId) (o : WalletOp) (s : WalletStore) :
    StateEffect id o s (o.exec s).1 := by
  cases o with
  | createManagedWallet k wallet =>
    simp only [WalletOp.exec, WalletStore.createManagedWallet]
    split
    · exact .same rfl
    · next hfree =>
      by_cases hk : k = id
      · refine .created wallet (by rw [hk]) ?_
        subst hk
        rw [not_or] at hfree
        rw [WalletStore.stateOf, Option.not_isSome_iff_eq_none.mp hfree.1, Option.map_none]
      · refine .same ?_
        rw [WalletStore.stateOf, Table.get?_insert_ne _ (Ne.symm hk), WalletStore.stateOf]
  | advanceManagedWallet k target fields =>
    simp only [WalletOp.exec, WalletStore.advanceManagedWallet]
    split
    · exact .same rfl
    · next w hw =>
      split
      · exact .same rfl
      · next hlegal =>
        by_cases hk : k = id
        · subst hk
          refine .advanced target fields w.state rfl ?_ (Bool.eq_true_of_not_eq_false hlegal) ?_
          · rw [WalletStore.stateOf, hw, Option.map_some]
          · rw [WalletStore.stateOf, Table.get?_insert_self, Option.map_some]
            rfl
        · refine .same ?_
          rw [WalletStore.stateOf, Table.get?_insert_ne _ (Ne.symm hk), WalletStore.stateOf]
  | creditManagedPayout k alpha =>
    refine .same ?_
    simp only [WalletOp.exec, WalletStore.creditManagedPayout, WalletStore.stateOf,
      Table.get?_modify]
    split
    · rw [Option.map_map]
      rfl
    · rfl
  | addWhitelistEntry hotkey =>
    refine .same ?_
    simp only [WalletOp.exec, WalletStore.addWhitelistEntry]
    split <;> rfl
  | recordManagedPayout k row =>
    refine .same ?_
    simp only [WalletOp.exec, WalletStore.recordManagedPayout]
    split <;> rfl
  | _ => exact .same rfl

theorem advance_some {id : WalletId} {target : WalletState} {fields : AdvanceFields}
    {s : WalletStore} {row : ManagedWallet}
    (h : (s.advanceManagedWallet id target fields).2 = some row) :
    ∃ current, s.stateOf id = some current ∧ WalletState.canTransition current target = true ∧
      (s.advanceManagedWallet id target fields).1.stateOf id = some target := by
  unfold WalletStore.advanceManagedWallet at h ⊢
  cases hw : s.wallets.get? id with
  | none => rw [hw] at h; cases h
  | some w =>
    rw [hw] at h
    dsimp only at h ⊢
    split at h
    · cases h
    · next hlegal =>
      refine ⟨w.state, ?_, Bool.eq_true_of_not_eq_false hlegal, ?_⟩
      · rw [WalletStore.stateOf, hw, Option.map_some]
      · rw [if_neg hlegal, WalletStore.stateOf, Table.get?_insert_self, Option.map_some]
        rfl

/-- The states of a wallet that has left funding and not failed. -/
def WalletState.beyondFunded : WalletState → Bool
  | registering | registered | active | suspended => true
  | _ => false

/-- From beyond funding, the only way out is a failed registration. -/
theorem WalletState.canTransition_beyond {current target : WalletState}
    (h : current.beyondFunded = true) (legal : current.canTransition target = true) :
    target.beyondFunded = true ∨ target = .registrationFailed := by
  cases current with
  | registering | registered | active | suspended =>
    cases target <;> simp_all [canTransition, validTransitions, beyondFunded]
  | _ => cases h

theorem WalletState.canTransition_registering {current : WalletState}
    (legal : current.canTransition .registering = true) :
    current = .funded ∨ current = .registering := by
  cases current <;> simp_all [canTransition, validTransitions]

/-! ## Workers engaged with a wallet -/

/-- The next thing the method does is to register this wallet. -/
def AboutToRegister (id : WalletId) : Program Wallets Unit → Prop
  | .call (.register k ..) _ => k = id
  | _ => False

/-- A worker is engaged with a wallet from its advance to the outcome of its attempt. -/
def Engaged (id : WalletId) (t : Thread Wallets WalletCall) : Prop :=
  AboutToRegister id t.rest ∨ awaitsOutcome id t.past = true

theorem aboutToRegister_iff {id : WalletId} {p : Program Wallets Unit} :
    AboutToRegister id p ↔ ∃ hotkey netuid k, p = .call (.register id hotkey netuid) k := by
  constructor
  · intro h
    match p with
    | .done _ => exact h.elim
    | .call o k =>
      cases o with
      | register key hotkey netuid =>
        obtain rfl : key = id := h
        exact ⟨hotkey, netuid, k, rfl⟩
      | _ => exact h.elim
  · rintro ⟨hotkey, netuid, k, rfl⟩
    rfl

theorem awaitOutcome_true {id : WalletId} {awaiting : Bool} {o : WalletOp} {r : o.Ans}
    (h : awaitOutcome id awaiting ⟨o, r⟩ = true) :
    awaiting = true ∨ ∃ hotkey netuid, o = .register id hotkey netuid := by
  cases o with
  | register k hotkey netuid =>
    simp only [awaitOutcome] at h
    split at h
    · next hk => exact .inr ⟨hotkey, netuid, by rw [hk]⟩
    · exact .inl h
  | advanceManagedWallet k target fields =>
    left
    cases target with
    | registered | registrationFailed =>
      simp only [awaitOutcome] at h
      split at h
      · cases h
      · exact h
    | _ => exact h
  | _ => exact .inl h

section

variable {id : WalletId} {past : List (Event Wallets)} {o : WalletOp}
  {k : o.Ans → Program Wallets Unit} {c : WalletCall} {s : WalletStore}

/-- A worker that is now about to register has just advanced a funded wallet. -/
theorem funded_of_aboutToRegister
    (fit : AsksDisciplined (Program.call (I := Wallets) o k) past)
    (guarded : meetsFunded c past o s) (h : AboutToRegister id (k (o.exec s).2)) :
    (∃ fields, o = .advanceManagedWallet id .registering fields) ∧
      s.stateOf id = some .funded ∧ (o.exec s).1.stateOf id = some .registering := by
  obtain ⟨hotkey, netuid, rest, hrest⟩ := aboutToRegister_iff.mp h
  have hnext := fit.2 _ (exec_listsState o s)
  rw [hrest] at hnext
  obtain ⟨past', fields, row, hsubmitting, hpast⟩ := hnext.1
  obtain ⟨rfl, hevent⟩ := List.append_inj' hpast rfl
  obtain ⟨rfl, hanswer⟩ := Sigma.mk.inj (List.singleton_inj.mp hevent)
  obtain ⟨current, hcurrent, hlegal, hafter⟩ := advance_some (eq_of_heq hanswer)
  refine ⟨⟨fields, rfl⟩, ?_, hafter⟩
  rcases WalletState.canTransition_registering hlegal with rfl | rfl
  · exact hcurrent
  · exact absurd hcurrent (guarded hsubmitting)

/-- A worker that is engaged was so before, or is now about to register. -/
theorem engaged_before
    (h : Engaged id ⟨c, past ++ [⟨o, (o.exec s).2⟩], k (o.exec s).2⟩) :
    Engaged id ⟨c, past, Program.call (I := Wallets) o k⟩ ∨
      AboutToRegister id (k (o.exec s).2) := by
  rcases h with hnext | hawaits
  · exact .inr hnext
  · rw [awaitsOutcome_concat] at hawaits
    rcases awaitOutcome_true hawaits with hbefore | ⟨hotkey, netuid, rfl⟩
    · exact .inl (.inr hbefore)
    · exact .inl (.inl rfl)

/-- Recording a failure ends the worker's engagement. -/
theorem not_engaged_of_failed {fields : AdvanceFields}
    (ho : o = .advanceManagedWallet id .registrationFailed fields)
    (fit : AsksDisciplined (Program.call (I := Wallets) o k) past)
    (guarded : meetsFunded c past o s) :
    ¬Engaged id ⟨c, past ++ [⟨o, (o.exec s).2⟩], k (o.exec s).2⟩ := by
  rintro (hnext | hawaits)
  · obtain ⟨⟨fields', heq⟩, -⟩ := funded_of_aboutToRegister fit guarded hnext
    rw [ho] at heq
    cases heq
  · subst ho
    rw [awaitsOutcome_concat, awaitOutcome, if_pos rfl] at hawaits
    cases hawaits

end

/-! ## Every run -/

/-- At most one worker is engaged with the wallet, which is then beyond funding; and once the wallet
has been registered, `n` times since it was last funded, nobody is about to register it. -/
structure RegistersOnce (id : WalletId) (n : ℕ) (w : World Wallets WalletCall WalletStore) :
    Prop where
  alone : ∀ (i j : ℕ) (t u : Thread Wallets WalletCall), w.threads[i]? = some t →
    w.threads[j]? = some u → Engaged id t → Engaged id u → i = j
  held : ∀ t ∈ w.threads, Engaged id t →
    ∃ state, w.store.stateOf id = some state ∧ state.beyondFunded = true
  once : n ≤ 1
  spent : n = 1 → w.store.stateOf id ≠ some .funded ∧
    ∀ t ∈ w.threads, ¬AboutToRegister id t.rest

section

variable {blake2b : List ℕ → List ℕ} {id : WalletId} {n i : ℕ}
  {w : World Wallets WalletCall WalletStore} {past : List (Event Wallets)} {o : WalletOp}
  {k : o.Ans → Program Wallets Unit} {c : WalletCall}

/-- Nobody is engaged with a funded wallet. -/
theorem RegistersOnce.not_funded (h : RegistersOnce id n w) {t : Thread Wallets WalletCall}
    (ht : t ∈ w.threads) (hengaged : Engaged id t) : w.store.stateOf id ≠ some .funded := by
  obtain ⟨state, hstate, hbeyond⟩ := h.held t ht hengaged
  rintro hfunded
  obtain rfl := Option.some.inj (hstate.symm.trans hfunded)
  cases hbeyond

theorem RegistersOnce.start (h : RegistersOnce id n w) (c : WalletCall) :
    RegistersOnce id n (w.start (wallets blake2b) c) := by
  have hbody := body_disciplined blake2b c
  have hnew : ¬AboutToRegister id (c.body blake2b) := by
    intro hnext
    obtain ⟨hotkey, netuid, rest, hrest⟩ := aboutToRegister_iff.mp hnext
    rw [hrest] at hbody
    obtain ⟨past', fields, row, -, hpast⟩ := hbody.1
    simp at hpast
  have hidle : ¬Engaged id ⟨c, [], c.body blake2b⟩ := by
    rintro (hnext | hawaits)
    · exact hnew hnext
    · cases hawaits
  -- The new worker is not engaged, so an engaged one was there before.
  have hold (j : ℕ) (t : Thread Wallets WalletCall)
      (ht : (w.start (wallets blake2b) c).threads[j]? = some t) (hengaged : Engaged id t) :
      w.threads[j]? = some t := by
    rcases List.mem_append.mp (List.mem_of_getElem? ht) with hmem | hmem
    · rw [World.start, List.getElem?_append] at ht
      split at ht
      · exact ht
      · obtain rfl := List.mem_singleton.mp (List.mem_of_getElem? ht)
        exact absurd hengaged hidle
    · obtain rfl := List.mem_singleton.mp hmem
      exact absurd hengaged hidle
  constructor
  · intro i j t u ht hu htengaged huengaged
    exact h.alone i j t u (hold i t ht htengaged) (hold j u hu huengaged) htengaged huengaged
  · intro t ht hengaged
    obtain ⟨j, hj⟩ := List.mem_iff_getElem?.mp ht
    exact h.held t (List.mem_of_getElem? (hold j t hj hengaged)) hengaged
  · exact h.once
  · intro hn
    refine ⟨(h.spent hn).1, fun t ht ↦ ?_⟩
    rcases List.mem_append.mp ht with ht | ht
    · exact (h.spent hn).2 t ht
    · obtain rfl := List.mem_singleton.mp ht
      exact hnew

theorem eq_of_answer {S : Service Wallets WalletCall WalletStore} {t : Thread Wallets WalletCall}
    (ht : (w.answer S i c past o k).threads[i]? = some t) :
    t = ⟨c, past ++ [⟨o, (S.exec o w.store).2⟩], k (S.exec o w.store).2⟩ := by
  rw [World.answer, List.getElem?_set_self'] at ht
  obtain ⟨_, -, rfl⟩ := Option.map_eq_some_iff.mp ht
  rfl

theorem eq_register_of_registers {o : WalletOp} {r : o.Ans} (h : registers id ⟨o, r⟩ = true) :
    ∃ hotkey netuid, o = .register id hotkey netuid := by
  cases o with
  | register key hotkey netuid =>
    obtain rfl : key = id := of_decide_eq_true h
    exact ⟨hotkey, netuid, rfl⟩
  | _ => cases h

theorem RegistersOnce.answer (h : RegistersOnce id n w)
    (thread : w.threads[i]? = some ⟨c, past, Program.call (I := Wallets) o k⟩)
    (fit : AsksDisciplined (Program.call (I := Wallets) o k) past)
    (guarded : meetsFunded c past o w.store) :
    RegistersOnce id (countRegistration id (w.store, n) ⟨c, ⟨o, (o.exec w.store).2⟩⟩).2
      (w.answer (wallets blake2b) i c past o k) := by
  have hthread := List.mem_of_getElem? thread
  -- Whoever is engaged now was so before, or is this worker, about to register.
  have hbefore (j : ℕ) (t : Thread Wallets WalletCall)
      (ht : (w.answer (wallets blake2b) i c past o k).threads[j]? = some t)
      (hengaged : Engaged id t) :
      (∃ t₀, w.threads[j]? = some t₀ ∧ Engaged id t₀) ∨
        j = i ∧ AboutToRegister id (k (o.exec w.store).2) := by
    by_cases hij : i = j
    · subst hij
      obtain rfl := eq_of_answer ht
      exact (engaged_before hengaged).imp (fun hwas ↦ ⟨_, thread, hwas⟩) fun hnext ↦ ⟨rfl, hnext⟩
    · rw [World.answer, List.getElem?_set_ne hij] at ht
      exact .inl ⟨t, ht, hengaged⟩
  -- Nobody was engaged if this worker is now about to register.
  have hnone (hnext : AboutToRegister id (k (o.exec w.store).2)) (t : Thread Wallets WalletCall)
      (ht : t ∈ w.threads) : ¬Engaged id t := fun hengaged ↦
    h.not_funded ht hengaged (funded_of_aboutToRegister fit guarded hnext).2.1
  have hpending (hold : ∀ t ∈ w.threads, ¬AboutToRegister id t.rest)
      (hnew : ¬AboutToRegister id (k (o.exec w.store).2)) :
      ∀ t ∈ (w.answer (wallets blake2b) i c past o k).threads, ¬AboutToRegister id t.rest := by
    intro t ht
    rcases List.mem_or_eq_of_mem_set ht with ht | rfl
    · exact hold t ht
    · exact hnew
  constructor
  · intro a b t u ht hu htengaged huengaged
    rcases hbefore a t ht htengaged with ⟨t₀, ht₀, hwas⟩ | ⟨rfl, hnext⟩
    · rcases hbefore b u hu huengaged with ⟨u₀, hu₀, hwas'⟩ | ⟨rfl, hnext⟩
      · exact h.alone a b t₀ u₀ ht₀ hu₀ hwas hwas'
      · exact absurd hwas (hnone hnext t₀ (List.mem_of_getElem? ht₀))
    · rcases hbefore b u hu huengaged with ⟨u₀, hu₀, hwas⟩ | ⟨rfl, -⟩
      · exact absurd hwas (hnone hnext u₀ (List.mem_of_getElem? hu₀))
      · rfl
  · intro t ht hengaged
    obtain ⟨j, hj⟩ := List.mem_iff_getElem?.mp ht
    rcases hbefore j t hj hengaged with ⟨t₀, ht₀, hwas⟩ | ⟨rfl, hnext⟩
    · obtain ⟨state, hstate, hbeyond⟩ := h.held t₀ (List.mem_of_getElem? ht₀) hwas
      cases exec_stateOf id o w.store with
      | same hsame => exact ⟨state, hsame.trans hstate, hbeyond⟩
      | created wallet ho absent =>
        rw [absent] at hstate
        cases hstate
      | advanced target fields current ho before legal after =>
        obtain rfl := Option.some.inj (before.symm.trans hstate)
        rcases WalletState.canTransition_beyond hbeyond legal with htarget | rfl
        · exact ⟨target, after, htarget⟩
        · -- Only the engaged worker records a failure, and then it is engaged no longer.
          have hmine : Engaged id ⟨c, past, Program.call (I := Wallets) o k⟩ := by
            have hfit := fit.1
            rw [ho] at hfit
            exact .inr hfit
          obtain rfl := h.alone _ _ _ _ ht₀ thread hwas hmine
          obtain rfl := eq_of_answer hj
          exact absurd hengaged (not_engaged_of_failed ho fit guarded)
    · exact ⟨.registering, (funded_of_aboutToRegister fit guarded hnext).2.2, rfl⟩
  · rw [countRegistration]
    dsimp only
    split
    · exact Nat.zero_le 1
    · split
      · next hregisters =>
        obtain ⟨hotkey, netuid, rfl⟩ := eq_register_of_registers hregisters
        have hn : n ≠ 1 := fun hn ↦ (h.spent hn).2 _ hthread rfl
        have := h.once
        omega
      · exact h.once
  · rw [countRegistration]
    dsimp only
    split
    · rintro ⟨⟩
    · next hentered =>
      split
      · next hregisters =>
        obtain ⟨hotkey, netuid, rfl⟩ := eq_register_of_registers hregisters
        have hmine : Engaged id
            ⟨c, past, Program.call (I := Wallets) (.register id hotkey netuid) k⟩ := .inl rfl
        refine fun _ ↦ ⟨h.not_funded hthread hmine, fun t ht hnext ↦ ?_⟩
        obtain ⟨j, hj⟩ := List.mem_iff_getElem?.mp ht
        by_cases hij : i = j
        · subst hij
          obtain rfl := eq_of_answer hj
          obtain ⟨⟨fields, heq⟩, -⟩ := funded_of_aboutToRegister fit guarded hnext
          cases heq
        · rw [World.answer, List.getElem?_set_ne hij] at hj
          exact hij (h.alone i j _ t thread hj hmine (.inl hnext))
      · intro hn
        obtain ⟨hstate, hold⟩ := h.spent hn
        refine ⟨fun hfunded ↦ hentered ⟨hstate, hfunded⟩, hpending hold fun hnext ↦ ?_⟩
        exact hstate (funded_of_aboutToRegister fit guarded hnext).2.1

/-- At every moment of a run, the invariant holds of the registrations counted so far. -/
theorem RegistersOnce.logs {w w' : World Wallets WalletCall WalletStore}
    {log : List (Entry Wallets WalletCall)} (hidle : w.threads = [])
    (run : (wallets blake2b).Logs meetsFunded w log w') (id : WalletId) :
    (log.foldl (countRegistration id) (w.store, 0)).1 = w'.store ∧
      RegistersOnce id (w.store.registrations id log) w' := by
  induction run with
  | refl =>
    refine ⟨rfl, ?_, ?_, Nat.zero_le 1, fun h ↦ nomatch h⟩
    · intro i j t u ht
      simp [hidle] at ht
    · intro t ht
      simp [hidle] at ht
  | start run c ih => exact ⟨ih.1, ih.2.start c⟩
  | @answer log v run i c past o k thread ready guarded ih =>
    have hfit := run.reaches.asks hidle (A := ListsState) (φ := fun _ ↦ Disciplined)
      (Q := fun _ _ ↦ True) (body_disciplined blake2b) exec_listsState _
      (List.mem_of_getElem? thread)
    have hacc : log.foldl (countRegistration id) (w.store, 0) =
        (v.store, w.store.registrations id log) := Prod.ext ih.1 rfl
    rw [WalletStore.registrations, List.foldl_append, hacc]
    exact ⟨rfl, ih.2.answer thread hfit guarded⟩

end

/-- In every run of any number of workers in which no worker that has planned to register meets a
wallet that is registering already, a wallet is registered at most once between two times it
becomes funded. -/
theorem registered_once_per_funding (blake2b : List ℕ → List ℕ)
    (w w' : World Wallets WalletCall WalletStore) (log : List (Entry Wallets WalletCall))
    (idle : w.threads = []) (run : (wallets blake2b).Logs meetsFunded w log w') (id : WalletId) :
    w.store.registrations id log ≤ 1 :=
  (RegistersOnce.logs idle run id).2.once

/-- A funded wallet whose registration will land. -/
def fundedWallet : World Wallets WalletCall WalletStore where
  store :=
    { wallets := .ofRows [(1,
        ⟨1, "5C".toList, "5H".toList, "5P".toList, .funded, 110, 1, 1, none, 0, 0⟩)]
      payouts := .empty
      whitelist := []
      chain :=
        { uid := fun _ _ ↦ none
          answersUid := true
          burn := fun _ ↦ some (1 / 2)
          balance := fun _ ↦ some 1
          attempt := fun _ _ ↦ ⟨some 7, true⟩
          stakedAlpha := fun _ _ _ ↦ none
          transfer := fun _ _ ↦ none }
      now := 0
      drawn := 0 }
  threads := []

/-- One worker registers the wallet; a second one comes later and finds it registered. -/
theorem registered_once_per_funding_two :
    ∃ log w', (wallets id).Logs meetsFunded fundedWallet log w' ∧
      w'.store.stateOf 1 = some .active ∧ fundedWallet.store.registrations 1 log ≤ 1 := by
  obtain ⟨log, w', hrun, hstate⟩ := Service.exists_logs_of_record (S := wallets id)
    (G := meetsFunded) (w := fundedWallet)
    (.start .tickRegistration :: List.replicate 11 (.step 0) ++
      .start .tickRegistration :: List.replicate 2 (.step 1))
    (P := fun _ w' ↦ w'.store.stateOf 1 = some .active) (by decide +kernel)
  exact ⟨log, w', hrun, hstate, registered_once_per_funding id _ _ log rfl hrun 1⟩

/-- Two workers see the wallet funded, and both are let through to register it. -/
theorem registered_twice :
    ∃ log w', (wallets id).Logs Guard.free fundedWallet log w' ∧
      fundedWallet.store.registrations 1 log = 2 :=
  Service.exists_logs_of_record
    ([.start .tickRegistration, .start .tickRegistration] ++
      [0, 0, 0, 0, 1, 1, 1, 1, 0, 1, 0, 1].map .step) (by decide +kernel)

end GreenCompute
