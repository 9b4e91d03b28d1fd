import GreenCompute.Validator.Applications
import GreenCompute.Validator.Payouts

/-!
# One wallet for each application

Whatever requests and ticks come together, applications keep their applicant, wallets keep their
application and their addresses, and the whitelist only grows.

An application is to have one wallet. The lookup that sees to it and the insert are transactions of
their own, with a question to the chain between them, and nothing in the table forbids a second
wallet. It holds where each wallet is inserted while its application still has none.
-/

namespace GreenCompute

open ApplicationRoutes ManagedWalletService Program

/-! ## What every step keeps -/

/-- What a wallet is from its creation on. -/
structure WalletIdentity where
  applicationId : ApplicationId
  coldkeySs58 : Text
  hotkeySs58 : Text
  payoutAddress : Text

def ManagedWallet.identity (w : ManagedWallet) : WalletIdentity :=
  ⟨w.applicationId, w.coldkeySs58, w.hotkeySs58, w.payoutAddress⟩

/-- What the wallet under an identifier is, if there is one. -/
def WalletStore.identityOf (s : WalletStore) (id : WalletId) : Option WalletIdentity :=
  (s.wallets.get? id).map ManagedWallet.identity

/-- Who applied, with which hotkey or payout address. -/
def ApplicationStore.applicantOf (s : ApplicationStore) (application : ApplicationId) :
    Option (Text × Option Text) :=
  (s.applications.get? application).map fun app ↦ (app.hotkey, app.payoutAddress)

theorem AdvanceFields.identity_apply (f : AdvanceFields) (target : WalletState)
    (w : ManagedWallet) : (f.apply target w).identity = w.identity := rfl

/-- An operation leaves the wallets what they are, or it inserts one under a free identifier. -/
theorem WalletOp.identityOf_exec (o : WalletOp) (s : WalletStore) :
    (∀ k, (o.exec s).1.identityOf k = s.identityOf k) ∨
      ∃ id wallet, o = .createManagedWallet id wallet ∧ s.wallets.get? id = none ∧
        ∀ k, (o.exec s).1.identityOf k =
          if k = id then some wallet.identity else s.identityOf k := by
  cases o with
  | createManagedWallet id wallet =>
    simp only [exec, WalletStore.createManagedWallet]
    split
    · exact .inl fun _ ↦ rfl
    · next hfree =>
      rw [not_or] at hfree
      refine .inr ⟨id, wallet, rfl, by simpa using hfree.1, fun k ↦ ?_⟩
      simp only [WalletStore.identityOf, Table.get?_insert]
      split <;> rfl
  | advanceManagedWallet id target fields =>
    refine .inl fun k ↦ ?_
    simp only [exec, WalletStore.advanceManagedWallet]
    cases hw : s.wallets.get? id with
    | none => rfl
    | some w =>
      dsimp only
      split
      · rfl
      · simp only [WalletStore.identityOf, Table.get?_insert]
        split
        · next hk => rw [hk, hw, Option.map_some, Option.map_some, AdvanceFields.identity_apply]
        · rfl
  | creditManagedPayout id alphaAmount =>
    refine .inl fun k ↦ ?_
    simp only [exec, WalletStore.creditManagedPayout, WalletStore.identityOf, Table.get?_modify]
    split
    · rw [Option.map_map]
      rfl
    · rfl
  | addWhitelistEntry hotkey =>
    simp only [exec, WalletStore.addWhitelistEntry]
    split <;> exact .inl fun _ ↦ rfl
  | recordManagedPayout id row =>
    simp only [exec, WalletStore.recordManagedPayout]
    split <;> exact .inl fun _ ↦ rfl
  | _ => exact .inl fun _ ↦ rfl

/-- The whitelist is what it was, or it is what an entry has been added to. -/
theorem WalletOp.whitelist_exec (o : WalletOp) (s : WalletStore) :
    (o.exec s).1.whitelist = s.whitelist ∨ ∃ hotkey, o = .addWhitelistEntry hotkey ∧
      (o.exec s).1.whitelist = (s.addWhitelistEntry hotkey).whitelist := by
  cases o with
  | addWhitelistEntry hotkey => exact .inr ⟨hotkey, rfl, rfl⟩
  | createManagedWallet id wallet =>
    simp only [exec, WalletStore.createManagedWallet]
    split <;> exact .inl rfl
  | advanceManagedWallet id target fields =>
    simp only [exec, WalletStore.advanceManagedWallet]
    cases s.wallets.get? id with
    | none => exact .inl rfl
    | some w =>
      dsimp only
      split <;> exact .inl rfl
  | recordManagedPayout id row =>
    simp only [exec, WalletStore.recordManagedPayout]
    split <;> exact .inl rfl
  | _ => exact .inl rfl

theorem mem_addWhitelistEntry {hotkey h : Text} {s : WalletStore} :
    h ∈ (s.addWhitelistEntry hotkey).whitelist ↔ h ∈ s.whitelist ∨ h = hotkey := by
  rw [WalletStore.addWhitelistEntry]
  split
  · next hlisted =>
    refine ⟨.inl, ?_⟩
    rintro (h | rfl)
    · exact h
    · exact hlisted
  · simp only [List.mem_append, List.mem_singleton]

namespace ApplicationStore

/-- Applicants and wallets stay what they are, and nobody leaves the whitelist. -/
structure Keeps (s s' : ApplicationStore) : Prop where
  applicant : ∀ application x, s.applicantOf application = some x →
    s'.applicantOf application = some x
  identity : ∀ id x, s.wallets.identityOf id = some x → s'.wallets.identityOf id = some x
  whitelist : ∀ hotkey ∈ s.wallets.whitelist, hotkey ∈ s'.wallets.whitelist

/-- No identifier of an application is still to be drawn. -/
def Numbered (s : ApplicationStore) : Prop :=
  ∀ application x, s.applicantOf application = some x → application < s.nextApplication

theorem Keeps.refl (s : ApplicationStore) : s.Keeps s :=
  ⟨fun _ _ h ↦ h, fun _ _ h ↦ h, fun _ h ↦ h⟩

theorem Keeps.trans {s t u : ApplicationStore} (h : s.Keeps t) (h' : t.Keeps u) : s.Keeps u where
  applicant := fun application x hx ↦ h'.applicant application x (h.applicant application x hx)
  identity := fun id x hx ↦ h'.identity id x (h.identity id x hx)
  whitelist := fun hotkey hlisted ↦ h'.whitelist hotkey (h.whitelist hotkey hlisted)

/-- Every step keeps who is there, beside an invariant of its own. -/
def keeping (P : ApplicationStore → Prop) : Contract ApplicationStore :=
  ⟨fun s ↦ s.Numbered ∧ P s, Keeps, Keeps.refl, Keeps.trans⟩

theorem applicantOf_create (app : Application) (s : ApplicationStore)
    (application : ApplicationId) : (s.createApplication app).1.applicantOf application =
      if application = s.nextApplication then some (app.hotkey, app.payoutAddress)
      else s.applicantOf application := by
  simp only [createApplication, applicantOf, Table.get?_insert]
  split <;> rfl

theorem applicantOf_update (application k : ApplicationId) (status : ApplicationStatus)
    (s : ApplicationStore) :
    (s.updateApplicationStatus application status).1.applicantOf k = s.applicantOf k := by
  simp only [updateApplicationStatus, applicantOf, Table.get?_modify]
  split
  · rw [Option.map_map]
    rfl
  · rfl

end ApplicationStore

open ApplicationStore in
theorem ApplicationOp.exec_keeps (o : ApplicationOp) {s : ApplicationStore} (hs : s.Numbered) :
    (o.exec s).1.Numbered ∧ s.Keeps (o.exec s).1 := by
  cases o with
  | wallet o =>
    refine ⟨hs, fun _ _ h ↦ h, fun id x hx ↦ ?_, fun hotkey hlisted ↦ ?_⟩
    · show (o.exec s.wallets).1.identityOf id = some x
      rcases o.identityOf_exec s.wallets with hsame | ⟨k, wallet, -, hfree, hnew⟩
      · rw [hsame, hx]
      · rw [hnew, if_neg, hx]
        rintro rfl
        rw [WalletStore.identityOf, hfree] at hx
        cases hx
    · show hotkey ∈ (o.exec s.wallets).1.whitelist
      rcases o.whitelist_exec s.wallets with hsame | ⟨added, -, hadded⟩
      · rwa [hsame]
      · rw [hadded]
        exact mem_addWhitelistEntry.mpr (.inl hlisted)
  | createApplication app =>
    have hnew := applicantOf_create app s
    refine ⟨fun k x hx ↦ ?_, fun k x hx ↦ ?_, fun _ _ h ↦ h, fun _ h ↦ h⟩
    · rw [exec, hnew] at hx
      split at hx
      · next heq => exact heq ▸ Nat.lt_succ_self _
      · exact Nat.lt_succ_of_lt (hs k x hx)
    · rw [exec, hnew, if_neg (Nat.ne_of_lt (hs k x hx)), hx]
  | updateApplicationStatus application status =>
    have hsame := fun k ↦ applicantOf_update application k status s
    refine ⟨fun k x hx ↦ hs k x ?_, fun k x hx ↦ ?_, fun _ _ h ↦ h, fun _ h ↦ h⟩
    · rwa [exec, hsame] at hx
    · rw [exec, hsame, hx]
  | isWhitelisted hotkey => exact ⟨hs, .refl s⟩
  | respond reply => exact ⟨hs, fun _ _ h ↦ h, fun _ _ h ↦ h, fun _ h ↦ h⟩

/-! ## Provisioning -/

/-- The wallet is in the table, and it is one of the application's. -/
def ApplicationStore.Provisioned (s : ApplicationStore) (application : ApplicationId)
    (wallet : WalletId × ManagedWallet) : Prop :=
  s.wallets.identityOf wallet.1 = some wallet.2.identity ∧ wallet.2.applicationId = application

theorem ApplicationStore.Provisioned.keeps {s s' : ApplicationStore} {application : ApplicationId}
    {wallet : WalletId × ManagedWallet} (h : s.Provisioned application wallet)
    (hs : s.Keeps s') : s'.Provisioned application wallet :=
  ⟨hs.identity _ _ h.1, h.2⟩

theorem provisioned_of_lookup {s : ApplicationStore} {application : ApplicationId}
    {wallet : WalletId × ManagedWallet}
    (h : s.wallets.getManagedWalletByApplication application = some wallet) :
    s.Provisioned application wallet := by
  have hmem : (wallet.1, wallet.2) ∈ s.wallets.wallets.select fun _ w ↦
      w.applicationId = application := List.mem_of_getLast? h
  obtain ⟨hget, happlication⟩ := Table.mem_select.mp hmem
  exact ⟨by rw [WalletStore.identityOf, hget, Option.map_some], of_decide_eq_true happlication⟩

theorem provisioned_of_create {s : ApplicationStore} {id : WalletId} {wallet : ManagedWallet}
    (h : (s.wallets.createManagedWallet id wallet).2 = true) :
    ((ApplicationOp.wallet (.createManagedWallet id wallet)).exec s).1.Provisioned
      wallet.applicationId (id, wallet) := by
  refine ⟨?_, rfl⟩
  simp only [ApplicationOp.exec, WalletOp.exec]
  unfold WalletStore.createManagedWallet at h ⊢
  split at h
  · cases h
  · next hfree =>
    rw [if_neg hfree, WalletStore.identityOf, Table.get?_insert_self, Option.map_some]

/-- What provisioning does to the wallets: at most it inserts one, for this application. -/
def WalletOp.Provides (application : ApplicationId) (payoutAddress hotkey : Text) :
    WalletOp → Prop
  | createManagedWallet _ wallet => wallet.applicationId = application ∧
    wallet.payoutAddress = payoutAddress ∧ wallet.hotkeySs58 = hotkey
  | getManagedWalletByApplication _ | registrationBurnTao _ | drawId | now => True
  | _ => False

section

variable {blake2b : List ℕ → List ℕ} {α : Type} {P : ApplicationStore → Prop}
  {G : List (Event Applications) → ApplicationOp → ApplicationStore → Prop}
  {past : List (Event Applications)} {s : ApplicationStore}

variable (blake2b P G) in
/-- The method keeps the contract whatever happens in between, and ends in `Q`. -/
abbrev SafeKeeping (Q : α → ApplicationStore → Prop) (p : Program Applications α)
    (past : List (Event Applications)) (s : ApplicationStore) : Prop :=
  Safe (applications blake2b).toMachine (ApplicationStore.keeping P) G (fun a _ s ↦ Q a s) p past s

/-- One operation that keeps the invariant, then the rest. -/
theorem SafeKeeping.op_bind {o : ApplicationOp} {f : o.Ans → Program Applications α}
    {Q : α → ApplicationStore → Prop}
    (keep : ∀ t, s.Keeps t → t.Numbered → P t → G past o t → P (o.exec t).1)
    (rest : ∀ t past, s.Keeps t → P t → t.Keeps (o.exec t).1 → P (o.exec t).1 →
      SafeKeeping blake2b P G Q (f (o.exec t).2) past (o.exec t).1) :
    SafeKeeping blake2b P G Q (ApplicationRoutes.call o >>= f) past s := by
  refine Safe.op_bind fun t hst hinv _ hguard ↦ ?_
  obtain ⟨hnumbered, hP⟩ := hinv
  obtain ⟨hnumbered', hkeeps⟩ := o.exec_keeps hnumbered
  have hP' := keep t hst hnumbered hP hguard
  exact ⟨⟨hnumbered', hP'⟩, hkeeps, rest t _ hst hP hkeeps hP'⟩

theorem SafeKeeping.of_uses {allowed : ApplicationOp → Prop} {p : Program Applications α}
    (hp : p.Uses allowed)
    (keep : ∀ past o t, allowed o → s.Keeps t → t.Numbered → P t → G past o t → P (o.exec t).1) :
    SafeKeeping blake2b P G (fun _ _ ↦ True) p past s := by
  refine Safe.of_uses hp fun past o t ho hst hinv _ hguard ↦ ?_
  obtain ⟨hnumbered', hkeeps⟩ := o.exec_keeps hinv.1
  exact ⟨⟨hnumbered', keep past o t ho hst hinv.1 hinv.2 hguard⟩, hkeeps⟩

/-- Where provisioning keeps the invariant, the wallet it returns is one of the application's. -/
theorem safe_provisionForApplication {netuid : ℕ} {application : ApplicationId}
    {payoutAddress : Text} {keys : Text × Text}
    (keep : ∀ past o t, o.Provides application payoutAddress keys.2 → s.Keeps t → t.Numbered →
      P t → G past (.wallet o) t → P ((ApplicationOp.wallet o).exec t).1) :
    SafeKeeping blake2b P G (fun found s ↦ ∀ wallet ∈ found, s.Provisioned application wallet)
      (onWallets (provisionForApplication blake2b netuid application payoutAddress keys))
      past s := by
  refine SafeKeeping.op_bind (fun t ↦ keep _ _ t trivial) fun t past hst _ htt _ ↦ ?_
  have hlater := hst.trans htt
  cases hfound : t.wallets.getManagedWalletByApplication application with
  | some existing =>
    have hread : ((ApplicationOp.wallet (.getManagedWalletByApplication application)).exec t).2 =
        some existing := hfound
    rw [hread]
    rintro u hu - wallet ⟨⟩
    exact ((provisioned_of_lookup hfound).keeps htt).keeps hu
  | none =>
    have hread : ((ApplicationOp.wallet (.getManagedWalletByApplication application)).exec t).2 =
        none := hfound
    rw [hread]
    have hquote : SafeKeeping blake2b P G (fun _ _ ↦ True) (onWallets (quoteFunding netuid)) past
        ((ApplicationOp.wallet (.getManagedWalletByApplication application)).exec t).1 := by
      have huses : (onWallets (quoteFunding netuid)).Uses fun o : ApplicationOp ↦
          ∃ o', o = .wallet o' ∧ o'.Provides application payoutAddress keys.2 :=
        (uses_quoteFunding netuid).embed fun o ho ↦ ⟨o, rfl, ho ▸ trivial⟩
      refine SafeKeeping.of_uses huses ?_
      rintro past _ u ⟨o, rfl, ho⟩ hu
      exact keep past o u ho (hlater.trans hu)
    show SafeKeeping blake2b P G _ (onWallets (quoteFunding netuid >>= _)) _ _
    rw [onWallets, embed_bind]
    refine (Safe.carry (P := fun u ↦ s.Keeps u) (fun h h' ↦ h'.trans h) hquote hlater).seq
      fun required past u _ hpost ↦ ?_
    cases required with
    | none => exact fun _ _ _ _ h ↦ nomatch h
    | some required =>
      refine SafeKeeping.op_bind (fun v hv ↦ keep _ .drawId v trivial (hpost.2.trans hv))
        fun v past hv _ hvv _ ↦ ?_
      have hsv := (hpost.2.trans hv).trans hvv
      dsimp only
      split
      · exact fun _ _ _ _ h ↦ nomatch h
      · refine SafeKeeping.op_bind (fun x hx ↦ keep _ .now x trivial (hsv.trans hx))
          fun x past hx _ hxx _ ↦ ?_
        have hsx := (hsv.trans hx).trans hxx
        refine SafeKeeping.op_bind
          (fun y hy ↦ keep _ (.createManagedWallet ..) y ⟨rfl, rfl, rfl⟩ (hsx.trans hy))
          fun y past _ _ _ _ ↦ ?_
        rintro z hz - wallet hwallet
        obtain ⟨hcreated, rfl⟩ : _ ∧ _ = wallet := by simpa using hwallet
        have hprovisioned := provisioned_of_create hcreated
        exact hprovisioned.keeps hz

end

/-! ## One wallet for an application -/

namespace ApplicationStore

/-- The application has one wallet at most, and whatever funding address its requests have been told
is that of the wallet that a lookup finds now. -/
structure OneWallet (s : ApplicationStore) (application : ApplicationId) : Prop where
  single : (s.wallets.wallets.select fun _ w ↦ w.applicationId = application).length ≤ 1
  told : ∀ reply ∈ s.replies, ∀ address, reply.fundingAddress = some (application, address) →
    (s.wallets.getManagedWalletByApplication application).map (fun w ↦ w.2.coldkeySs58) =
      some address

/-- A wallet of the application has this address to be funded at. -/
def FundedAt (s : ApplicationStore) (funding : ApplicationId × Text) : Prop :=
  ∃ id x, s.wallets.identityOf id = some x ∧ x.applicationId = funding.1 ∧
    x.coldkeySs58 = funding.2

/-- No two wallets are of one application, and what requests have been told is so. -/
structure FundedOnce (s : ApplicationStore) : Prop where
  single : ∀ id id' x x', s.wallets.identityOf id = some x → s.wallets.identityOf id' = some x' →
    x.applicationId = x'.applicationId → id = id'
  told : ∀ reply ∈ s.replies, ∀ funding ∈ reply.fundingAddress, s.FundedAt funding

theorem FundedAt.keeps {s s' : ApplicationStore} {funding : ApplicationId × Text}
    (h : s.FundedAt funding) (hs : s.Keeps s') : s'.FundedAt funding := by
  obtain ⟨id, x, hx, hfunding⟩ := h
  exact ⟨id, x, hs.identity id x hx, hfunding⟩

theorem Provisioned.fundedAt {s : ApplicationStore} {application : ApplicationId}
    {wallet : WalletId × ManagedWallet} (h : s.Provisioned application wallet) :
    s.FundedAt (application, wallet.2.coldkeySs58) :=
  ⟨wallet.1, wallet.2.identity, h.1, h.2, rfl⟩

/-- The rows that a lookup goes through. -/
theorem identityOf_of_mem {s : ApplicationStore} {application : ApplicationId}
    {r : WalletId × ManagedWallet}
    (hr : r ∈ s.wallets.wallets.select fun _ w ↦ w.applicationId = application) :
    s.wallets.identityOf r.1 = some r.2.identity ∧ r.2.identity.applicationId = application := by
  obtain ⟨hget, happlication⟩ := Table.mem_select.mp (show (r.1, r.2) ∈ _ from hr)
  exact ⟨by rw [WalletStore.identityOf, hget, Option.map_some], of_decide_eq_true happlication⟩

theorem FundedOnce.oneWallet {s : ApplicationStore} (hs : s.FundedOnce)
    (application : ApplicationId) : s.OneWallet application := by
  have hsame (r r' : WalletId × ManagedWallet)
      (hr : r ∈ s.wallets.wallets.select fun _ w ↦ w.applicationId = application)
      (hr' : r' ∈ s.wallets.wallets.select fun _ w ↦ w.applicationId = application) :
      r.1 = r'.1 := by
    obtain ⟨hid, happlication⟩ := identityOf_of_mem hr
    obtain ⟨hid', happlication'⟩ := identityOf_of_mem hr'
    exact hs.single _ _ _ _ hid hid' (happlication.trans happlication'.symm)
  constructor
  · have hnodup := s.wallets.wallets.nodup_select fun _ w ↦ w.applicationId = application
    match hrows : s.wallets.wallets.select fun _ w ↦ w.applicationId = application with
    | [] => exact Nat.zero_le _
    | [_] => exact Nat.le_refl _
    | a :: b :: rows =>
      rw [hrows] at hsame hnodup
      have hab : a.1 = b.1 := hsame a b List.mem_cons_self
        (List.mem_cons_of_mem _ List.mem_cons_self)
      simp only [List.map_cons, List.nodup_cons, hab, List.mem_cons, true_or, not_true_eq_false,
        false_and] at hnodup
  · intro reply hreply address hfunding
    obtain ⟨id, x, hx, happlication, rfl⟩ := hs.told reply hreply _ hfunding
    obtain ⟨w, hw, rfl⟩ := Option.map_eq_some_iff.mp hx
    have hmem : (id, w) ∈ s.wallets.wallets.select fun _ w ↦ w.applicationId = application :=
      Table.mem_select.mpr ⟨hw, decide_eq_true happlication⟩
    cases hfound : s.wallets.getManagedWalletByApplication application with
    | none =>
      rw [WalletStore.getManagedWalletByApplication, List.getLast?_eq_none_iff] at hfound
      rw [hfound] at hmem
      exact absurd hmem List.not_mem_nil
    | some r =>
      have hr := List.mem_of_getLast? hfound
      obtain ⟨hget, -⟩ := Table.mem_select.mp (show (r.1, r.2) ∈ _ from hr)
      have hid : r.1 = id := hsame r (id, w) hr hmem
      rw [hid, hw] at hget
      obtain rfl := Option.some.inj hget
      rfl

end ApplicationStore

/-- A wallet is inserted only while its application still has none, as the lookup before said. -/
def firstOfApplication : Guard Applications ApplicationCall ApplicationStore := fun _ _ o s ↦
  match o with
  | .wallet (.createManagedWallet _ wallet) =>
    (s.wallets.getManagedWalletByApplication wallet.applicationId).isNone = true
  | _ => True

instance (c : ApplicationCall) (past : List (Event Applications)) (o : ApplicationOp)
    (s : ApplicationStore) : Decidable (firstOfApplication c past o s) := by
  unfold firstOfApplication
  split <;> infer_instance

open ApplicationStore in
/-- An operation keeps it that no application has two wallets, where it inserts a wallet only as the
first and tells only what is so. -/
theorem fundedOnce_exec {c : ApplicationCall} {past : List (Event Applications)}
    {o : ApplicationOp} {s : ApplicationStore} (hnumbered : s.Numbered) (hs : s.FundedOnce)
    (first : firstOfApplication c past o s)
    (told : ∀ reply, o = .respond reply → ∀ funding ∈ reply.fundingAddress, s.FundedAt funding) :
    (o.exec s).1.FundedOnce := by
  have hkeeps := (o.exec_keeps hnumbered).2
  cases o with
  | wallet o =>
    refine ⟨?_, fun reply hreply funding hfunding ↦ ?_⟩
    · rcases o.identityOf_exec s.wallets with hsame | ⟨new, wallet, rfl, -, hnew⟩
      · intro id id' x x' hx hx'
        exact hs.single id id' x x' ((hsame id).symm.trans hx) ((hsame id').symm.trans hx')
      · -- The other wallets are not of the application of the new one.
        have hother (k : WalletId) (x : WalletIdentity) (hx : s.wallets.identityOf k = some x) :
            x.applicationId ≠ wallet.identity.applicationId := by
          intro heq
          obtain ⟨w, hw, rfl⟩ := Option.map_eq_some_iff.mp hx
          have hmem : (k, w) ∈ s.wallets.wallets.select fun _ w ↦
              w.applicationId = wallet.applicationId :=
            Table.mem_select.mpr ⟨hw, decide_eq_true heq⟩
          have hnone : s.wallets.getManagedWalletByApplication wallet.applicationId = none :=
            Option.isNone_iff_eq_none.mp first
          rw [WalletStore.getManagedWalletByApplication, List.getLast?_eq_none_iff] at hnone
          rw [hnone] at hmem
          exact absurd hmem List.not_mem_nil
        intro id id' x x' hx hx' heq
        have hid := (hnew id).symm.trans hx
        have hid' := (hnew id').symm.trans hx'
        split at hid <;> split at hid'
        · next h h' => rw [h, h']
        · obtain rfl := Option.some.inj hid
          exact absurd heq.symm (hother id' x' hid')
        · obtain rfl := Option.some.inj hid'
          exact absurd heq (hother id x hid)
        · exact hs.single id id' x x' hid hid' heq
    · exact (hs.told reply hreply funding hfunding).keeps hkeeps
  | respond reply =>
    refine ⟨hs.single, fun reply' hreply' funding hfunding ↦ ?_⟩
    rcases List.mem_append.mp hreply' with hreply' | hreply'
    · exact hs.told reply' hreply' funding hfunding
    · obtain rfl := List.mem_singleton.mp hreply'
      exact told reply' rfl funding hfunding
  | _ => exact ⟨hs.single, fun reply hreply funding hfunding ↦
      (hs.told reply hreply funding hfunding).keeps hkeeps⟩

/-- An operation that tells nobody where to fund a wallet. -/
def ApplicationOp.Untold (o : ApplicationOp) : Prop :=
  ∀ reply, o = .respond reply → reply.fundingAddress = none

section

variable {blake2b : List ℕ → List ℕ} {c : ApplicationCall} {past : List (Event Applications)}
  {s : ApplicationStore}

theorem uses_onWallets_untold {α : Type} (p : Program Wallets α) :
    (onWallets p).Uses ApplicationOp.Untold :=
  (Uses.of_forall (fun _ ↦ trivial) p : p.Uses fun _ ↦ True).embed fun _ _ _ h ↦ nomatch h

theorem uses_submitApplication_untold (form : ApplicationForm) (review : AutomatedReview) :
    (ApplicationRoutes.submitApplication blake2b form review).Uses ApplicationOp.Untold := by
  have hrefuse (status : ℕ) (detail : String) : (ApplicationRoutes.refuse status detail).Uses
      ApplicationOp.Untold := by
    refine uses_op.mpr ?_
    rintro reply ⟨⟩
    rfl
  have hreply (application : ApplicationId) (app : Application) :
      (ApplicationRoutes.call (.respond (.submitted application app))).Uses
        ApplicationOp.Untold := by
    refine uses_op.mpr ?_
    rintro reply ⟨⟩
    rfl
  unfold ApplicationRoutes.submitApplication
  dsimp only
  split
  · exact hrefuse ..
  · split
    · exact hrefuse ..
    · split
      · exact hrefuse ..
      · split
        · exact hrefuse ..
        · split
          · exact hrefuse ..
          · refine Uses.op_bind (fun _ h ↦ nomatch h) fun application ↦ ?_
            split
            · refine Uses.op_bind (fun _ h ↦ nomatch h) fun listed ↦ ?_
              split
              · exact Uses.op_bind (fun _ h ↦ nomatch h) fun _ ↦ hreply ..
              · exact hreply ..
            · exact hreply ..

theorem uses_refuse_untold (status : ℕ) (detail : String) :
    (ApplicationRoutes.refuse status detail).Uses ApplicationOp.Untold := by
  refine uses_op.mpr ?_
  rintro reply ⟨⟩
  rfl

theorem SafeKeeping.of_untold {α : Type} {p : Program Applications α}
    (hp : p.Uses ApplicationOp.Untold) :
    SafeKeeping blake2b ApplicationStore.FundedOnce (firstOfApplication c) (fun _ _ ↦ True) p past
      s := by
  refine .of_uses hp fun past o t ho _ hnumbered ht first ↦ ?_
  refine fundedOnce_exec hnumbered ht first fun reply heq funding hfunding ↦ ?_
  rw [ho reply heq] at hfunding
  cases hfunding

/-- A reply about funding is right when the wallet it names is one of the application's. -/
theorem safe_respond_funding {reply : ApplicationReply} {application : ApplicationId}
    {wallet : WalletId × ManagedWallet} (hwallet : s.Provisioned application wallet)
    (hreply : reply.fundingAddress = some (application, wallet.2.coldkeySs58)) :
    SafeKeeping blake2b ApplicationStore.FundedOnce (firstOfApplication c) (fun _ _ ↦ True)
      (ApplicationRoutes.call (.respond reply)) past s := by
  refine SafeKeeping.op_bind (fun t hst hnumbered ht first ↦ ?_) fun _ _ _ _ _ _ _ _ _ ↦ trivial
  refine fundedOnce_exec hnumbered ht first ?_
  rintro _ ⟨⟩ funding hfunding
  rw [hreply] at hfunding
  obtain rfl := Option.some.inj hfunding
  exact (hwallet.keeps hst).fundedAt

theorem safe_approveApplication (netuid : Option ℕ) (application : ApplicationId)
    (coldkey hotkey : GeneratedKeypair) :
    SafeKeeping blake2b ApplicationStore.FundedOnce (firstOfApplication c) (fun _ _ ↦ True)
      (ApplicationRoutes.approveApplication blake2b netuid application coldkey hotkey) past s := by
  refine SafeKeeping.op_bind (fun t _ hnumbered ht first ↦
    fundedOnce_exec hnumbered ht first fun _ h ↦ nomatch h) fun t past _ _ _ _ ↦ ?_
  split
  · exact .of_untold (uses_refuse_untold ..)
  · dsimp only
    split
    · split
      · exact .of_untold (uses_refuse_untold ..)
      · refine Safe.seq (safe_provisionForApplication fun past o u _ _ hnumbered hu first ↦
          fundedOnce_exec hnumbered hu first fun _ h ↦ nomatch h) fun found past u _ hfound ↦ ?_
        cases found with
        | none => exact SafeKeeping.of_untold (uses_refuse_untold ..)
        | some wallet => exact safe_respond_funding (hfound wallet rfl) rfl
    · refine .of_untold (Uses.op_bind (fun _ h ↦ nomatch h) fun _ ↦ uses_op.mpr ?_)
      rintro reply ⟨⟩
      rfl

theorem safe_managedWalletStatus (enabled : Bool) (application : ApplicationId) :
    SafeKeeping blake2b ApplicationStore.FundedOnce (firstOfApplication c) (fun _ _ ↦ True)
      (ApplicationRoutes.managedWalletStatus enabled application) past s := by
  unfold ApplicationRoutes.managedWalletStatus
  split
  · exact .of_untold (uses_refuse_untold ..)
  · refine SafeKeeping.op_bind (fun t _ hnumbered ht first ↦
      fundedOnce_exec hnumbered ht first fun _ h ↦ nomatch h) fun t past _ _ htt _ ↦ ?_
    cases hfound : t.wallets.getManagedWalletByApplication application with
    | none =>
      have hread : ((ApplicationOp.wallet
          (.getManagedWalletByApplication application)).exec t).2 = none := hfound
      rw [hread]
      exact .of_untold (uses_refuse_untold ..)
    | some wallet =>
      have hread : ((ApplicationOp.wallet
          (.getManagedWalletByApplication application)).exec t).2 = some wallet := hfound
      rw [hread]
      exact safe_respond_funding ((provisioned_of_lookup hfound).keeps htt) rfl

theorem safe_body_fundedOnce (c : ApplicationCall) :
    SafeKeeping blake2b ApplicationStore.FundedOnce (firstOfApplication c) (fun _ _ ↦ True)
      (c.body blake2b) past s := by
  cases c with
  | submitApplication form review => exact .of_untold (uses_submitApplication_untold form review)
  | approveApplication netuid application coldkey hotkey =>
    exact safe_approveApplication netuid application coldkey hotkey
  | rejectApplication application =>
    refine .of_untold (Uses.op_bind (fun _ h ↦ nomatch h) fun app ↦ ?_)
    cases app with
    | none => exact uses_refuse_untold ..
    | some app =>
      refine uses_op.mpr ?_
      rintro reply ⟨⟩
      rfl
  | managedWalletStatus enabled application => exact safe_managedWalletStatus ..
  | tickFunding => exact .of_untold (uses_onWallets_untold _)
  | tickRegistration => exact .of_untold (uses_onWallets_untold _)
  | tickPayouts => exact .of_untold (uses_onWallets_untold _)
  | intervene id how => exact .of_untold (uses_onWallets_untold _)
  | advance seconds => exact .of_untold (uses_onWallets_untold _)
  | setChain chain => exact .of_untold (uses_onWallets_untold _)

end

/-- Nobody has applied yet, and nobody without a hotkey is on the whitelist. -/
structure ApplicationStore.Fresh (s : ApplicationStore) : Prop where
  applications : ∀ application, s.applications.get? application = none
  wallets : ∀ id, s.wallets.wallets.get? id = none
  whitelist : [] ∉ s.wallets.whitelist
  replies : s.replies = []

theorem ApplicationStore.Fresh.numbered {s : ApplicationStore} (h : s.Fresh) : s.Numbered := by
  intro application x hx
  rw [applicantOf, h.applications, Option.map_none] at hx
  cases hx

theorem ApplicationStore.Fresh.fundedOnce {s : ApplicationStore} (h : s.Fresh) :
    s.FundedOnce := by
  have hnone (id : WalletId) : s.wallets.identityOf id = none := by
    rw [WalletStore.identityOf, h.wallets, Option.map_none]
  refine ⟨fun id _ x _ hx ↦ ?_, fun reply hreply ↦ ?_⟩
  · rw [hnone] at hx
    cases hx
  · rw [h.replies] at hreply
    exact absurd hreply List.not_mem_nil

/-- An applicant with an address to be paid at, and no hotkey. -/
def payoutForm : ApplicationForm where
  hotkey := []
  payoutAddress := "5GrwvaEF5zXb26Fz9rcQpDWS57CtERHpNehXCPcNoHGKutQY".toList
  detailsParse := true
  fileSizes := []

/-- A validator that nobody has applied to, on a chain where registering costs one TAO. -/
def newValidator : ApplicationStore where
  wallets :=
    { stakedWallet with
      wallets := .empty
      whitelist := []
      chain := { stakedWallet.chain with burn := fun _ ↦ some 1 } }
  applications := .empty
  nextApplication := 0
  replies := []

theorem newValidator_fresh : newValidator.Fresh :=
  ⟨fun _ ↦ rfl, fun _ ↦ rfl, List.not_mem_nil, rfl⟩

/-- A key with this address. -/
def keypair (c : Char) : GeneratedKeypair := ⟨[c], List.cons_ne_nil _ _⟩

/-- An application for a managed wallet is submitted, and an administrator approves it. -/
def approving : List (Move ApplicationCall) :=
  .start (.submitApplication payoutForm .disabled) :: List.replicate 2 (.step 0) ++
    .start (.approveApplication (some 110) 0 (keypair 'A') (keypair 'B')) ::
      List.replicate 7 (.step 1)

end GreenCompute
