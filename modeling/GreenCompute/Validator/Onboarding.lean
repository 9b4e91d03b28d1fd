import GreenCompute.Validator.Provisioning

/-!
# Approved applicants are onboarded

Whoever is approved is to be onboarded. Manual approval asks whether there is a hotkey to whitelist,
and provisions a wallet where there is none. Automatic approval does not ask, and whitelists the
empty hotkey of an applicant who gave an address to be paid at. Where the automated review approves
no such applicant, the whitelist has no empty hotkey, and everybody who is told to be approved has
their hotkey on it or a wallet of their own.
-/

namespace GreenCompute

open ApplicationRoutes ManagedWalletService Program

/-! ## Onboarding -/

namespace ApplicationStore

/-- The applicant's own hotkey is on the whitelist, or a wallet has been provisioned that pays the
address they gave. -/
def Onboarded (s : ApplicationStore) (application : ApplicationId) : Prop :=
  ∃ app, s.applications.get? application = some app ∧
    ((app.hotkey ≠ [] ∧ app.hotkey ∈ s.wallets.whitelist) ∨
      ∃ id wallet, s.wallets.wallets.get? id = some wallet ∧
        wallet.applicationId = application ∧ app.payoutAddress = some wallet.payoutAddress)

/-- The whitelist has no empty hotkey, and whoever was told to be approved is onboarded; wallets
have a hotkey and pay the address of their application, and an application has one or the other. -/
structure Vetted (s : ApplicationStore) : Prop where
  whitelist : [] ∉ s.wallets.whitelist
  wallets : ∀ id x, s.wallets.identityOf id = some x → x.hotkeySs58 ≠ [] ∧
    ∃ hotkey, s.applicantOf x.applicationId = some (hotkey, some x.payoutAddress)
  applicants : ∀ application hotkey payoutAddress,
    s.applicantOf application = some (hotkey, payoutAddress) →
      hotkey = [] → payoutAddress.getD [] ≠ []
  replies : ∀ reply ∈ s.replies, ∀ application ∈ reply.approves, s.Onboarded application

variable {s s' : ApplicationStore} {application : ApplicationId}

theorem onboarded_iff : s.Onboarded application ↔ ∃ hotkey payoutAddress,
    s.applicantOf application = some (hotkey, payoutAddress) ∧
      ((hotkey ≠ [] ∧ hotkey ∈ s.wallets.whitelist) ∨
        ∃ id x, s.wallets.identityOf id = some x ∧ x.applicationId = application ∧
          payoutAddress = some x.payoutAddress) := by
  constructor
  · rintro ⟨app, happ, hlisted | ⟨id, wallet, hwallet, hown⟩⟩
    · exact ⟨_, _, by rw [applicantOf, happ, Option.map_some], .inl hlisted⟩
    · refine ⟨_, _, by rw [applicantOf, happ, Option.map_some], .inr ⟨id, wallet.identity, ?_, hown⟩⟩
      rw [WalletStore.identityOf, hwallet, Option.map_some]
  · rintro ⟨hotkey, payoutAddress, happlicant, hcase⟩
    obtain ⟨app, happ, heq⟩ := Option.map_eq_some_iff.mp happlicant
    obtain ⟨rfl, rfl⟩ := Prod.mk.inj heq
    refine ⟨app, happ, ?_⟩
    rcases hcase with hlisted | ⟨id, x, hx, hown⟩
    · exact .inl hlisted
    · obtain ⟨wallet, hwallet, rfl⟩ := Option.map_eq_some_iff.mp hx
      exact .inr ⟨id, wallet, hwallet, hown⟩

theorem Onboarded.keeps (h : s.Onboarded application) (hs : s.Keeps s') :
    s'.Onboarded application := by
  obtain ⟨hotkey, payoutAddress, happlicant, hcase⟩ := onboarded_iff.mp h
  refine onboarded_iff.mpr ⟨hotkey, payoutAddress, hs.applicant _ _ happlicant, ?_⟩
  rcases hcase with ⟨hne, hlisted⟩ | ⟨id, x, hx, hown⟩
  · exact .inl ⟨hne, hs.whitelist _ hlisted⟩
  · exact .inr ⟨id, x, hs.identity _ _ hx, hown⟩

theorem Vetted.onboarded (hs : s.Vetted) {wallet : WalletId × ManagedWallet}
    (h : s.Provisioned application wallet) : s.Onboarded application := by
  obtain ⟨-, hotkey, happlicant⟩ := hs.wallets _ _ h.1
  obtain ⟨hidentity, rfl⟩ := h
  exact onboarded_iff.mpr ⟨hotkey, _, happlicant, .inr ⟨_, _, hidentity, rfl, rfl⟩⟩

end ApplicationStore

/-- What an operation has to be like to keep everybody onboarded. -/
def ApplicationOp.Vets : ApplicationOp → ApplicationStore → Prop
  | wallet (.addWhitelistEntry hotkey), _ => hotkey ≠ []
  | wallet (.createManagedWallet _ row), s => row.hotkeySs58 ≠ [] ∧
    ∃ hotkey, s.applicantOf row.applicationId = some (hotkey, some row.payoutAddress)
  | createApplication app, _ => app.hotkey = [] → app.payoutAddress.getD [] ≠ []
  | respond reply, s => ∀ application ∈ reply.approves, s.Onboarded application
  | _, _ => True

open ApplicationStore in
theorem vetted_exec {o : ApplicationOp} {s : ApplicationStore} (hnumbered : s.Numbered)
    (hs : s.Vetted) (vets : o.Vets s) : (o.exec s).1.Vetted := by
  have hkeeps := (o.exec_keeps hnumbered).2
  have htold : ∀ reply ∈ s.replies, ∀ application ∈ reply.approves,
      (o.exec s).1.Onboarded application :=
    fun reply hreply application happroves ↦
      (hs.replies reply hreply application happroves).keeps hkeeps
  have hwallets (id : WalletId) (x : WalletIdentity) (hx : s.wallets.identityOf id = some x) :
      x.hotkeySs58 ≠ [] ∧ ∃ hotkey,
        (o.exec s).1.applicantOf x.applicationId = some (hotkey, some x.payoutAddress) := by
    obtain ⟨hne, hotkey, happlicant⟩ := hs.wallets id x hx
    exact ⟨hne, hotkey, hkeeps.applicant _ _ happlicant⟩
  cases o with
  | wallet o =>
    refine ⟨?_, fun id x hx ↦ ?_, hs.applicants, htold⟩
    · show [] ∉ (o.exec s.wallets).1.whitelist
      rcases o.whitelist_exec s.wallets with hsame | ⟨hotkey, rfl, hadded⟩
      · rw [hsame]
        exact hs.whitelist
      · rw [hadded, mem_addWhitelistEntry, not_or]
        exact ⟨hs.whitelist, fun h ↦ vets h.symm⟩
    · rcases o.identityOf_exec s.wallets with hsame | ⟨new, wallet, rfl, -, hnew⟩
      · exact hwallets id x ((hsame id).symm.trans hx)
      · have hx' := (hnew id).symm.trans hx
        split at hx'
        · obtain rfl := Option.some.inj hx'
          exact vets
        · exact hwallets id x hx'
  | createApplication app =>
    refine ⟨hs.whitelist, hwallets, fun application hotkey payoutAddress happlicant hnone ↦ ?_,
      htold⟩
    rw [ApplicationOp.exec, applicantOf_create] at happlicant
    split at happlicant
    · obtain ⟨rfl, rfl⟩ := Prod.mk.inj (Option.some.inj happlicant)
      exact vets hnone
    · exact hs.applicants _ _ _ happlicant hnone
  | updateApplicationStatus application status =>
    refine ⟨hs.whitelist, hwallets, fun k hotkey payoutAddress happlicant ↦ ?_, htold⟩
    rw [ApplicationOp.exec, applicantOf_update] at happlicant
    exact hs.applicants _ _ _ happlicant
  | isWhitelisted hotkey => exact hs
  | respond reply =>
    refine ⟨hs.whitelist, hs.wallets, hs.applicants, fun reply' hreply' application happroves ↦ ?_⟩
    rcases List.mem_append.mp hreply' with hreply' | hreply'
    · exact htold reply' hreply' application happroves
    · obtain rfl := List.mem_singleton.mp hreply'
      exact (vets application happroves).keeps hkeeps

/-- The automated review approves no application without a hotkey. -/
def approvesHotkeys : Guard Applications ApplicationCall ApplicationStore := fun c _ _ _ ↦
  match c with
  | .submitApplication form review => form.hotkey.strip = [] → review ≠ .approve
  | _ => True

instance (c : ApplicationCall) (past : List (Event Applications)) (o : ApplicationOp)
    (s : ApplicationStore) : Decidable (approvesHotkeys c past o s) := by
  unfold approvesHotkeys
  split <;> infer_instance

/-- An operation that onboards nobody and tells nobody to be approved. -/
def ApplicationOp.Plain : ApplicationOp → Prop
  | wallet (.addWhitelistEntry _) | wallet (.createManagedWallet ..) | createApplication _ => False
  | respond reply => reply.approves = none
  | _ => True

theorem ApplicationOp.Plain.vets {o : ApplicationOp} (h : o.Plain) (s : ApplicationStore) :
    o.Vets s := by
  cases o with
  | wallet o =>
    cases o with
    | addWhitelistEntry => exact h.elim
    | createManagedWallet => exact h.elim
    | _ => trivial
  | createApplication => exact h.elim
  | respond reply =>
    intro application happroves
    rw [show reply.approves = none from h] at happroves
    cases happroves
  | _ => trivial

theorem uses_refuse_plain (status : ℕ) (detail : String) :
    (ApplicationRoutes.refuse status detail).Uses ApplicationOp.Plain := uses_op.mpr rfl

section

variable {blake2b : List ℕ → List ℕ} {c : ApplicationCall} {past : List (Event Applications)}
  {s : ApplicationStore}

/-- One operation that onboards whom it has to, then the rest. -/
theorem safe_op_bind_vets {α : Type} {o : ApplicationOp} {f : o.Ans → Program Applications α}
    {Q : α → ApplicationStore → Prop}
    (vets : ∀ t, s.Keeps t → t.Vetted → approvesHotkeys c past o t → o.Vets t)
    (rest : ∀ t past, s.Keeps t → t.Vetted → t.Keeps (o.exec t).1 → (o.exec t).1.Vetted →
      SafeKeeping blake2b ApplicationStore.Vetted (approvesHotkeys c) Q (f (o.exec t).2) past
        (o.exec t).1) :
    SafeKeeping blake2b ApplicationStore.Vetted (approvesHotkeys c) Q
      (ApplicationRoutes.call o >>= f) past s :=
  SafeKeeping.op_bind
    (fun t hst hnumbered ht guarded ↦ vetted_exec hnumbered ht (vets t hst ht guarded))
    rest

theorem SafeKeeping.of_plain {α : Type} {p : Program Applications α}
    (hp : p.Uses ApplicationOp.Plain) :
    SafeKeeping blake2b ApplicationStore.Vetted (approvesHotkeys c) (fun _ _ ↦ True) p past s :=
  .of_uses hp fun _ _ t ho _ hnumbered ht _ ↦ vetted_exec hnumbered ht (ho.vets t)

/-- Whoever is told to be approved has been onboarded before. -/
theorem safe_respond_approved {reply : ApplicationReply}
    (h : ∀ application ∈ reply.approves, s.Onboarded application) :
    SafeKeeping blake2b ApplicationStore.Vetted (approvesHotkeys c) (fun _ _ ↦ True)
      (ApplicationRoutes.call (.respond reply)) past s :=
  safe_op_bind_vets (fun _ hst _ _ application happroves ↦ (h application happroves).keeps hst)
    fun _ _ _ _ _ _ _ _ _ ↦ trivial

theorem runAutomatedReview_approved {review : AutomatedReview} :
    ((runAutomatedReview review).2 = true ↔ review = .approve) ∧
      ((runAutomatedReview review).1 = .approved ↔ review = .approve) := by
  cases review <;> simp [runAutomatedReview]

/-- An applicant is told to be approved once their hotkey is on the whitelist. -/
theorem safe_respond_submitted {application : ApplicationId} {app : Application}
    (happlicant : s.applicantOf application = some (app.hotkey, app.payoutAddress))
    (hlisted : app.status = .approved → app.hotkey ≠ [] ∧ app.hotkey ∈ s.wallets.whitelist) :
    SafeKeeping blake2b ApplicationStore.Vetted (approvesHotkeys c) (fun _ _ ↦ True)
      (ApplicationRoutes.call (.respond (.submitted application app))) past s := by
  refine safe_respond_approved fun k hk ↦ ?_
  rw [ApplicationReply.approves] at hk
  split at hk
  · next happroved =>
    obtain rfl := Option.some.inj hk
    exact ApplicationStore.onboarded_iff.mpr ⟨_, _, happlicant, .inl (hlisted happroved)⟩
  · cases hk

/-- The application is stored, its hotkey is whitelisted if the review approves, and the applicant
is answered. -/
theorem safe_submitApplication (form : ApplicationForm) (review : AutomatedReview) :
    SafeKeeping blake2b ApplicationStore.Vetted
      (approvesHotkeys (.submitApplication form review)) (fun _ _ ↦ True)
      (ApplicationRoutes.submitApplication blake2b form review) past s := by
  unfold ApplicationRoutes.submitApplication
  dsimp only
  split
  · exact .of_plain (uses_refuse_plain ..)
  next hgiven =>
  split
  · exact .of_plain (uses_refuse_plain ..)
  split
  · exact .of_plain (uses_refuse_plain ..)
  split
  · exact .of_plain (uses_refuse_plain ..)
  split
  · exact .of_plain (uses_refuse_plain ..)
  generalize happ : Application.mk form.hotkey.strip _ _ = app
  have hhotkey : form.hotkey.strip = app.hotkey := by rw [← happ]
  have hstatus : app.status = (runAutomatedReview review).1 := by rw [← happ]
  have hpayout : app.hotkey = [] → app.payoutAddress.getD [] ≠ [] := by
    intro hnone
    have hne : form.payoutAddress.strip ≠ [] := fun h ↦ hgiven ⟨hhotkey.trans hnone, h⟩
    rw [← happ]
    simp only [if_neg hne, Option.getD_some]
    exact hne
  have happroved : ((runAutomatedReview review).2 = true ↔ review = .approve) ∧
      ((runAutomatedReview review).1 = .approved ↔ review = .approve) := runAutomatedReview_approved
  rw [← hstatus] at happroved
  rw [hhotkey]
  refine safe_op_bind_vets (fun _ _ _ _ ↦ hpayout) fun t past _ _ _ _ ↦ ?_
  have happlicant := (ApplicationStore.applicantOf_create app t t.nextApplication).trans (if_pos rfl)
  change SafeKeeping blake2b _ _ _ _ _ (t.createApplication app).1
  split
  · next hwhitelist =>
    have hreview := happroved.1.mp hwhitelist
    refine safe_op_bind_vets (fun _ _ _ _ ↦ trivial) fun u past htu hu _ _ ↦ ?_
    have happlicant' := htu.applicant _ _ happlicant
    split
    · -- The hotkey is not empty, since the review has approved.
      refine safe_op_bind_vets (fun v _ _ hguarded hnone ↦ ?_) fun v past huv _ hvv hv ↦ ?_
      · exact hguarded (hhotkey.trans hnone) hreview
      · have hlisted : app.hotkey ∈ (v.wallets.addWhitelistEntry app.hotkey).whitelist :=
          mem_addWhitelistEntry.mpr (.inr rfl)
        refine safe_respond_submitted (hvv.applicant _ _ (huv.applicant _ _ happlicant'))
          fun _ ↦ ⟨fun hnone ↦ hv.whitelist (hnone ▸ hlisted), hlisted⟩
    · next hlisted =>
      have hmem : app.hotkey ∈ u.wallets.whitelist := by
        simpa [ApplicationOp.exec] using hlisted
      exact safe_respond_submitted happlicant'
        fun _ ↦ ⟨fun hnone ↦ hu.whitelist (hnone ▸ hmem), hmem⟩
  · next hwhitelist =>
    refine safe_respond_submitted happlicant fun hcase ↦ ?_
    exact absurd (happroved.1.mpr (happroved.2.mp hcase)) hwhitelist

theorem ApplicationStore.applicantOf_of_updated {application : ApplicationId}
    {status : ApplicationStatus} {app : Application}
    (h : (s.updateApplicationStatus application status).2 = some app) :
    (s.updateApplicationStatus application status).1.applicantOf application =
      some (app.hotkey, app.payoutAddress) := by
  have hget : (s.updateApplicationStatus application status).1.applications.get? application =
      some app := h
  rw [applicantOf, hget, Option.map_some]

/-- An applicant without a hotkey is given a wallet, and any other one is whitelisted. -/
theorem safe_approveApplication_onboards (netuid : Option ℕ) (application : ApplicationId)
    (coldkey hotkey : GeneratedKeypair) :
    SafeKeeping blake2b ApplicationStore.Vetted (approvesHotkeys c) (fun _ _ ↦ True)
      (ApplicationRoutes.approveApplication blake2b netuid application coldkey hotkey) past s := by
  refine safe_op_bind_vets (fun _ _ _ _ ↦ trivial) fun t past _ _ _ ht ↦ ?_
  cases happ : (t.updateApplicationStatus application .approved).2 with
  | none =>
    have hread : ((ApplicationOp.updateApplicationStatus application .approved).exec t).2 =
        none := happ
    rw [hread]
    exact .of_plain (uses_refuse_plain ..)
  | some app =>
    have hread : ((ApplicationOp.updateApplicationStatus application .approved).exec t).2 =
        some app := happ
    have happlicant := ApplicationStore.applicantOf_of_updated happ
    rw [hread]
    dsimp only
    split
    · next hmanaged =>
      obtain ⟨hpayout, -⟩ := hmanaged
      obtain ⟨payoutAddress, hsome⟩ : ∃ payoutAddress, app.payoutAddress = some payoutAddress := by
        cases hnone : app.payoutAddress with
        | none => simp [hnone] at hpayout
        | some payoutAddress => exact ⟨payoutAddress, rfl⟩
      rw [hsome, Option.getD_some]
      split
      · exact .of_plain (uses_refuse_plain ..)
      · refine Safe.seq (safe_provisionForApplication fun past o u provides htu hnumbered hu _ ↦
          vetted_exec hnumbered hu ?_) fun found past u hu hfound ↦ ?_
        · cases o with
          | createManagedWallet id wallet =>
            obtain ⟨rfl, rfl, hkey⟩ := provides
            refine ⟨by rw [hkey]; exact hotkey.nonempty, app.hotkey, ?_⟩
            rw [← hsome]
            exact htu.applicant _ _ happlicant
          | addWhitelistEntry => exact provides.elim
          | _ => trivial
        · cases found with
          | none => exact SafeKeeping.of_plain (uses_refuse_plain ..)
          | some wallet =>
            refine safe_respond_approved fun k hk ↦ ?_
            obtain rfl := Option.some.inj hk
            exact hu.2.onboarded (hfound wallet rfl)
    · next hself =>
      have hne : app.hotkey ≠ [] := fun hnone ↦
        hself ⟨ht.applicants _ _ _ happlicant hnone, hnone⟩
      refine safe_op_bind_vets (fun _ _ _ _ ↦ hne) fun u past htu _ huu _ ↦ ?_
      refine safe_respond_approved fun k hk ↦ ?_
      obtain rfl := Option.some.inj hk
      exact ApplicationStore.onboarded_iff.mpr
        ⟨_, _, huu.applicant _ _ (htu.applicant _ _ happlicant),
          .inl ⟨hne, mem_addWhitelistEntry.mpr (.inr rfl)⟩⟩

end

/-! ### The registration tick -/

/-- An operation of the wallet service that neither creates a wallet nor whitelists one. -/
def WalletOp.Unlisting : WalletOp → Prop
  | createManagedWallet .. | addWhitelistEntry _ => False
  | _ => True

theorem WalletOp.Unlisting.of_routine {o : WalletOp} (h : o.routine = true) : o.Unlisting := by
  cases o with
  | createManagedWallet => cases h
  | addWhitelistEntry => cases h
  | _ => trivial

theorem uses_onWallets_plain {α : Type} {p : Program Wallets α} (hp : p.Uses WalletOp.Unlisting) :
    (onWallets p).Uses ApplicationOp.Plain :=
  hp.embed fun o ho ↦ by
    cases o with
    | createManagedWallet => exact ho.elim
    | addWhitelistEntry => exact ho.elim
    | _ => trivial

theorem planRegistration_unlisting (wallet : ManagedWallet) :
    (planRegistration wallet).Uses WalletOp.Unlisting := by
  unfold planRegistration
  split
  · trivial
  · refine Uses.op_bind trivial fun uid ↦ ?_
    match uid with
    | none => trivial
    | some (some uid) => trivial
    | some none =>
      refine Uses.op_bind trivial fun burn ↦ ?_
      cases burn with
      | none => trivial
      | some burn =>
        refine Uses.op_bind trivial fun balance ↦ ?_
        cases balance with
        | none => trivial
        | some balance =>
          dsimp only
          split <;> trivial

theorem uses_submitRegistration (id : WalletId) (wallet : ManagedWallet) :
    (submitRegistration id wallet).Uses WalletOp.Unlisting := by
  refine Uses.op_bind trivial fun row ↦ ?_
  cases row with
  | none => trivial
  | some row =>
    refine Uses.op_bind trivial fun answered ↦ ?_
    split
    · exact Uses.op_bind trivial fun _ ↦ trivial
    · refine Uses.op_bind trivial fun uid ↦ ?_
      match uid with
      | none => trivial
      | some none => exact Uses.op_bind trivial fun _ ↦ trivial
      | some (some uid) => exact Uses.op_bind trivial fun _ ↦ trivial

theorem registerOne_unlisting (id : WalletId) (wallet : ManagedWallet) :
    (registerOne id wallet).Uses WalletOp.Unlisting := by
  refine (planRegistration_unlisting wallet).bind fun plan ↦ ?_
  cases plan with
  | none => trivial
  | some plan =>
    dsimp only
    split
    · split
      · exact Uses.op_bind trivial fun _ ↦ trivial
      · split
        · refine Uses.op_bind trivial fun uid ↦ ?_
          cases uid with
          | none => trivial
          | some uid => exact Uses.op_bind trivial fun _ ↦ Uses.op_bind trivial fun _ ↦ trivial
        · trivial
    · exact uses_submitRegistration id wallet

theorem registerEach_unlisting (l : List (WalletId × ManagedWallet)) :
    (registerEach l).Uses WalletOp.Unlisting := by
  induction l with
  | nil => trivial
  | cons r l ih =>
    refine (registerOne_unlisting r.1 r.2).bind fun registered ↦ ?_
    cases registered with
    | none => trivial
    | some registered =>
      refine ih.bind fun count ↦ ?_
      cases count <;> trivial

section

variable {blake2b : List ℕ → List ℕ} {c : ApplicationCall} {past : List (Event Applications)}
  {s : ApplicationStore}

/-- The wallets that are activated have a hotkey. -/
theorem safe_activateEach_vets {l : List (WalletId × ManagedWallet)}
    (hl : ∀ r ∈ l, r.2.hotkeySs58 ≠ []) :
    SafeKeeping blake2b ApplicationStore.Vetted (approvesHotkeys c) (fun _ _ ↦ True)
      (onWallets (activateEach l)) past s := by
  induction l generalizing past s with
  | nil => exact fun _ _ _ ↦ trivial
  | cons r l ih =>
    obtain ⟨id, wallet⟩ := r
    have hne : wallet.hotkeySs58 ≠ [] := hl _ List.mem_cons_self
    refine safe_op_bind_vets (fun _ _ _ _ ↦ hne) fun t past _ _ _ _ ↦ ?_
    refine safe_op_bind_vets (fun _ _ _ _ ↦ trivial) fun u past _ _ _ _ ↦ ?_
    exact ih fun r hr ↦ hl r (List.mem_cons_of_mem _ hr)

theorem hotkey_of_listed {state : WalletState} {r : WalletId × ManagedWallet}
    (hs : s.Vetted) (hr : r ∈ s.wallets.listManagedWalletsInState state) :
    r.2.hotkeySs58 ≠ [] := by
  obtain ⟨hget, -⟩ := Table.mem_select.mp (show (r.1, r.2) ∈ _ from hr)
  exact (hs.wallets r.1 r.2.identity (by rw [WalletStore.identityOf, hget, Option.map_some])).1

theorem safe_tickRegistration_vets :
    SafeKeeping blake2b ApplicationStore.Vetted (approvesHotkeys c) (fun _ _ ↦ True)
      (onWallets tickRegistration) past s := by
  refine safe_op_bind_vets (fun _ _ _ _ ↦ trivial) fun t past _ _ _ _ ↦ ?_
  show SafeKeeping blake2b _ _ _ (onWallets (registerEach _ >>= _)) _ _
  rw [onWallets, embed_bind]
  refine Safe.seq (SafeKeeping.of_plain (uses_onWallets_plain (registerEach_unlisting _)))
    fun count past u _ _ ↦ ?_
  cases count with
  | none => exact fun _ _ _ ↦ trivial
  | some count =>
    refine safe_op_bind_vets (fun _ _ _ _ ↦ trivial) fun v past _ hv _ _ ↦ ?_
    show SafeKeeping blake2b _ _ _ (onWallets (activateEach _ >>= _)) _ _
    rw [onWallets, embed_bind]
    exact Safe.seq (safe_activateEach_vets fun r hr ↦ hotkey_of_listed hv hr)
      fun _ _ _ _ _ ↦ fun _ _ _ ↦ trivial

theorem safe_body_vets (c : ApplicationCall) :
    SafeKeeping blake2b ApplicationStore.Vetted (approvesHotkeys c) (fun _ _ ↦ True)
      (c.body blake2b) past s := by
  cases c with
  | submitApplication form review => exact safe_submitApplication form review
  | approveApplication netuid application coldkey hotkey =>
    exact safe_approveApplication_onboards netuid application coldkey hotkey
  | rejectApplication application =>
    refine .of_plain (Uses.op_bind trivial fun app ↦ ?_)
    cases app with
    | none => exact uses_refuse_plain ..
    | some app => exact uses_op.mpr rfl
  | managedWalletStatus enabled application =>
    refine .of_plain ?_
    show (ApplicationRoutes.managedWalletStatus enabled application).Uses _
    unfold ApplicationRoutes.managedWalletStatus
    split
    · exact uses_refuse_plain ..
    · refine Uses.op_bind trivial fun found ↦ ?_
      cases found with
      | none => exact uses_refuse_plain ..
      | some wallet => exact uses_op.mpr rfl
  | tickFunding =>
    refine safe_op_bind_vets (fun _ _ _ _ ↦ trivial) fun t past _ _ _ _ ↦ ?_
    have hfunding : (fundEach (t.wallets.listManagedWalletsInState .awaitingFunding)).Uses _ :=
      uses_fundEach _ fun r hr ↦
        of_decide_eq_true (Table.mem_select.mp (show (r.1, r.2) ∈ _ from hr)).2
    exact SafeKeeping.of_plain (uses_onWallets_plain
      ((hfunding.mono fun _ ↦ .of_routine).bind fun _ ↦ trivial))
  | tickRegistration =>
    show SafeKeeping blake2b _ _ _ (onWallets (tickRegistration >>= _)) _ _
    rw [onWallets, embed_bind]
    exact Safe.seq safe_tickRegistration_vets fun _ _ _ _ _ ↦ fun _ _ _ ↦ trivial
  | tickPayouts =>
    refine .of_plain (uses_onWallets_plain (Uses.bind ?_ fun _ ↦ trivial))
    exact (uses_tickPayouts blake2b).mono fun _ ↦ .of_routine
  | intervene id how =>
    exact .of_plain (uses_onWallets_plain (Uses.op_bind trivial fun _ ↦ trivial))
  | advance seconds => exact .of_plain (uses_onWallets_plain (uses_op.mpr trivial))
  | setChain chain => exact .of_plain (uses_onWallets_plain (uses_op.mpr trivial))

end

theorem ApplicationStore.Fresh.vetted {s : ApplicationStore} (h : s.Fresh) : s.Vetted := by
  refine ⟨h.whitelist, fun id x hx ↦ ?_, fun application _ _ happlicant ↦ ?_,
    fun reply hreply ↦ ?_⟩
  · rw [WalletStore.identityOf, h.wallets, Option.map_none] at hx
    cases hx
  · rw [applicantOf, h.applications, Option.map_none] at happlicant
    cases happlicant
  · rw [h.replies] at hreply
    exact absurd hreply List.not_mem_nil

/-- Where the automated review approves no application without a hotkey, the whitelist never has an
empty one, and whoever is told that their application is approved has their hotkey on it or has a
wallet that pays their address. -/
theorem approval_onboards (blake2b : List ℕ → List ℕ) (s₀ : ApplicationStore) (start : s₀.Fresh)
    (w : World Applications ApplicationCall ApplicationStore)
    (run : (applications blake2b).Reaches approvesHotkeys ⟨s₀, []⟩ w) :
    [] ∉ w.store.wallets.whitelist ∧
      ∀ reply ∈ w.store.replies, ∀ application ∈ reply.approves,
        w.store.Onboarded application := by
  have hmeets := (run.sound (K := ApplicationStore.keeping ApplicationStore.Vetted)
    (Q := fun _ _ _ ↦ True) (fun c s _ ↦ safe_body_vets c) ⟨start.numbered, start.vetted⟩ rfl).1
  exact ⟨hmeets.inv.2.whitelist, hmeets.inv.2.replies⟩

/-- An administrator approves an applicant with an address to be paid at: they are onboarded. -/
theorem approval_onboards_managed : ∃ w,
    (applications addressDigest).Reaches approvesHotkeys ⟨newValidator, []⟩ w ∧
      w.store.replies.any (fun r ↦ r.approves = some 0) = true ∧ w.store.Onboarded 0 := by
  obtain ⟨w, hrun, htold⟩ := Service.exists_reaches_of_replay (S := applications addressDigest)
    (G := approvesHotkeys) (w := ⟨newValidator, []⟩) approving
    (P := fun w ↦ w.store.replies.any (fun r ↦ r.approves = some 0) = true) (by decide +kernel)
  obtain ⟨reply, hreply, happroves⟩ := List.any_eq_true.mp htold
  exact ⟨w, hrun, htold, (approval_onboards addressDigest newValidator newValidator_fresh w hrun).2
    reply hreply 0 (of_decide_eq_true happroves)⟩

/-- The automated review approves an applicant with an address to be paid at: the empty hotkey goes
on the whitelist, and the applicant, told to be approved, has no wallet. -/
theorem approval_whitelists_nobody : ¬ ∀ s₀ : ApplicationStore, s₀.Fresh →
    ∀ w, (applications addressDigest).Reaches Guard.free ⟨s₀, []⟩ w →
      [] ∉ w.store.wallets.whitelist ∧
        ∀ reply ∈ w.store.replies, ∀ application ∈ reply.approves,
          w.store.Onboarded application := by
  intro h
  obtain ⟨w, hrun, hempty, -⟩ := Service.exists_reaches_of_replay (S := applications addressDigest)
    (G := Guard.free) (w := ⟨newValidator, []⟩)
    (.start (.submitApplication payoutForm .approve) :: List.replicate 4 (.step 0))
    (P := fun w ↦ [] ∈ w.store.wallets.whitelist ∧
      w.store.replies.any (fun r ↦ r.approves = some 0) = true ∧
        w.store.wallets.wallets.rows.isEmpty = true) (by decide +kernel)
  exact (h newValidator newValidator_fresh w hrun).1 hempty

end GreenCompute
