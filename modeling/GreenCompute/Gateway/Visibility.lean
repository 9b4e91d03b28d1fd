import GreenCompute.Gateway.Routing

/-!
# What a caller's requests depend on

Two databases look the same to a caller if the workloads that the caller can access are the same,
with their deployments. A host, an identifier and an alias are looked up among all workloads,
though, and only then is the workload found checked. `routing_of_same_view` says when the other
workloads make no difference: nothing that the caller can access answers to the reference, or in
both databases, or in neither, a workload of someone else is come upon first.
-/

namespace GreenCompute

namespace RoutingDb

variable (env : RoutingEnv) (req : RouteRequest) (db db' : RoutingDb)

/-- The workloads that the caller can access. -/
def accessible (userId : Option UserId) : List (WorkloadId × WorkloadRow) :=
  db.workloads.rows.filter (db.userCanAccessWorkload userId)

/-- The databases look the same to the caller. -/
structure SameView (userId : Option UserId) : Prop where
  accessible : db.accessible userId = db'.accessible userId
  deployments : ∀ r ∈ db.accessible userId,
    (db.deployments.select fun _ row ↦ row.record.workloadId = r.1) =
      db'.deployments.select fun _ row ↦ row.record.workloadId = r.1
  nodeInventory : db.nodeInventory = db'.nodeInventory
  heartbeats : db.heartbeats = db'.heartbeats
  now : db.now = db'.now

/-- The lookups that come before that by name. -/
def stages (host : Option Text) : List (RouteMatch × (WorkloadId × WorkloadRow → Bool)) :=
  [(.ingressHost, fun r ↦ r.2.ingressHost.any fun h ↦
      (host.filter (inZone (modelIngressZone env.ingressDomain))) = some h),
    (.workloadId, fun r ↦ r.1 = req.model),
    (.workloadAlias, fun r ↦ r.2.workloadAlias = some req.model)]

/-- A workload that the caller can access answers to the reference. -/
def Referred (host : Option Text) : Prop :=
  ∃ r ∈ db.accessible req.userId,
    (∃ q ∈ stages env req host, q.2 r = true) ∨ r.2.name = req.model

/-- A workload that the caller cannot access is come upon before any that they can. -/
abbrev Preempted (host : Option Text) : Prop :=
  Shadowed (db.userCanAccessWorkload req.userId) db.workloads.rows (stages env req host)

variable {env req db db'}

/-! ## Resolving among the accessible workloads -/

theorem hosted_eq (host : Option Text) :
    db.hosted env host = db.workloads.rows.find? fun r ↦ r.2.ingressHost.any fun h ↦
      (host.filter (inZone (modelIngressZone env.ingressDomain))) = some h := by
  unfold hosted
  cases host.filter (inZone (modelIngressZone env.ingressDomain)) with
  | none =>
    refine (List.find?_eq_none.mpr fun r _ ↦ ?_).symm
    cases r.2.ingressHost <;> simp
  | some h =>
    refine List.find?_congr fun r _ ↦ ?_
    cases r.2.ingressHost with
    | none => rfl
    | some h' => simp [eq_comm]

variable (env req) in
theorem resolveWorkloadReference_eq (host : Option Text) :
    db.resolveWorkloadReference env req host =
      match (staged db.workloads.rows (stages env req host)).or
        ((db.pickNamedWorkload req).map fun r ↦ (r, RouteMatch.name)) with
      | some r => .ok r
      | none => .error (unknownModel req.model) := by
  unfold resolveWorkloadReference
  rw [hosted_eq]
  simp only [staged, stages, getWorkload, findWorkloadByAlias, Option.or_none, Option.or_assoc] <;>
    rfl

/-- Each lookup that comes before that by name has one answer at most. -/
theorem stages_unique (host : Option Text) :
    ∀ q ∈ stages env req host, ∀ r ∈ db.workloads.rows, ∀ r' ∈ db.workloads.rows,
      q.2 r = true → q.2 r' = true → r = r' := by
  intro q hq r hr r' hr' h h'
  simp only [stages, List.mem_cons, List.not_mem_nil, or_false] at hq
  rcases hq with rfl | rfl | rfl
  · obtain ⟨t, ht, hhost⟩ := (Option.any_eq_true _ _).mp h
    obtain ⟨t', ht', hhost'⟩ := (Option.any_eq_true _ _).mp h'
    have heq : t' = t := by
      rw [of_decide_eq_true hhost] at hhost'
      exact (Option.some.inj (of_decide_eq_true hhost')).symm
    exact eq_of_nodup_filterMap db.ingressHosts hr hr' ht (heq ▸ ht')
  · have hkey : r.1 = r'.1 := (of_decide_eq_true h).trans (of_decide_eq_true h').symm
    exact List.inj_on_of_nodup_map db.workloads.nodup hr hr' hkey
  · exact eq_of_nodup_filterMap db.aliases hr hr' (of_decide_eq_true h) (of_decide_eq_true h')

/-- The workload of a name among those that the caller can access. -/
def pickNamedAccessible (req : RouteRequest) (db : RoutingDb) : Option (WorkloadId × WorkloadRow) :=
  (((db.accessible req.userId).filter fun r ↦ r.2.name = req.model).insertionSort fun a b ↦
    a.2.createdAt ≤ b.2.createdAt).argmin (db.nameRank req)

theorem mem_accessible {userId : Option UserId} {r : WorkloadId × WorkloadRow} :
    r ∈ db.accessible userId ↔
      r ∈ db.workloads.rows ∧ db.userCanAccessWorkload userId r = true :=
  List.mem_filter

theorem filter_listWorkloadsByName :
    (db.listWorkloadsByName req.model).filter (db.userCanAccessWorkload req.userId) =
      ((db.accessible req.userId).filter fun r ↦ r.2.name = req.model).insertionSort fun a b ↦
        a.2.createdAt ≤ b.2.createdAt := by
  have htrans : IsTrans (WorkloadId × WorkloadRow) fun a b ↦ a.2.createdAt ≤ b.2.createdAt :=
    ⟨fun _ _ _ ↦ le_trans⟩
  have htotal : Std.Total fun a b : WorkloadId × WorkloadRow ↦ a.2.createdAt ≤ b.2.createdAt :=
    ⟨fun _ _ ↦ le_total _ _⟩
  rw [listWorkloadsByName, filter_insertionSort, Table.select, accessible, List.filter_comm]

theorem nameRank_lt {r r' : WorkloadId × WorkloadRow} (hadmin : req.admin = false)
    (h : db.userCanAccessWorkload req.userId r = true)
    (h' : db.userCanAccessWorkload req.userId r' = false) :
    db.nameRank req r < db.nameRank req r' := by
  have hnot : ¬(req.userId.isSome ∧ r'.2.ownerUserId = req.userId) := by
    rintro ⟨hsome, howner⟩
    simp [userCanAccessWorkload, ownedBy, hsome, howner] at h'
  unfold nameRank
  simp only [hadmin, Bool.false_eq_true, false_or, h, h', if_true, if_neg hnot]
  refine Prod.Lex.toLex_lt_toLex.mpr (Or.inl ?_)
  split <;> simp

variable (db) in
/-- A name means a workload that the caller can access if there is one; otherwise the workload it
means is refused. -/
theorem pickNamedWorkload_eq (hadmin : req.admin = false) :
    db.pickNamedWorkload req = db.pickNamedAccessible req ∨
      db.pickNamedAccessible req = none ∧
        ∃ r, db.pickNamedWorkload req = some r ∧
          db.userCanAccessWorkload req.userId r = false := by
  unfold pickNamedWorkload pickNamedAccessible
  rw [← filter_listWorkloadsByName]
  by_cases hex : ∃ r ∈ db.listWorkloadsByName req.model,
      db.userCanAccessWorkload req.userId r = true
  · exact Or.inl (argmin_eq_argmin_filter (fun r _ r' _ h h' ↦ nameRank_lt hadmin h h') hex)
  · have hnil : (db.listWorkloadsByName req.model).filter
        (db.userCanAccessWorkload req.userId) = [] :=
      List.filter_eq_nil_iff.mpr fun r hr h ↦ hex ⟨r, hr, h⟩
    rw [hnil, List.argmin_nil]
    cases hpick : (db.listWorkloadsByName req.model).argmin (db.nameRank req) with
    | none => exact Or.inl rfl
    | some r =>
      have hrefused : db.userCanAccessWorkload req.userId r = false :=
        Bool.eq_false_iff.mpr fun h ↦ hex ⟨r, List.argmin_mem hpick, h⟩
      exact Or.inr ⟨rfl, r, rfl, hrefused⟩

/-! ## The workload chosen -/

/-- What the reference means among the workloads that the caller can access. -/
def resolveAccessible (env : RoutingEnv) (req : RouteRequest) (db : RoutingDb)
    (host : Option Text) : Option ((WorkloadId × WorkloadRow) × RouteMatch) :=
  (staged (db.accessible req.userId) (stages env req host)).or
    ((db.pickNamedAccessible req).map fun r ↦ (r, RouteMatch.name))

theorem chooseWorkload_of_resolve {host : Option Text} {r : (WorkloadId × WorkloadRow) × RouteMatch}
    (h : db.resolveWorkloadReference env req host = .ok r)
    (haccess : db.userCanAccessWorkload req.userId r.1 = true) :
    db.chooseWorkload env req host = .ok r := by
  simp [chooseWorkload, h, haccess, bind, Except.bind]

theorem chooseWorkload_refused {host : Option Text} {r : (WorkloadId × WorkloadRow) × RouteMatch}
    (hadmin : req.admin = false) (h : db.resolveWorkloadReference env req host = .ok r)
    (haccess : db.userCanAccessWorkload req.userId r.1 = false) :
    db.chooseWorkload env req host = .error (unknownModel req.model) := by
  simp [chooseWorkload, h, hadmin, haccess, bind, Except.bind]

theorem mem_accessible_of_resolveAccessible {host : Option Text}
    {r : (WorkloadId × WorkloadRow) × RouteMatch} (h : resolveAccessible env req db host = some r) :
    r.1 ∈ db.accessible req.userId := by
  unfold resolveAccessible at h
  rw [Option.or_eq_some_iff] at h
  rcases h with h | ⟨-, h⟩
  · exact mem_of_staged h
  · obtain ⟨a, ha, rfl⟩ := Option.map_eq_some_iff.mp h
    have hmem := List.argmin_mem ha
    rw [List.mem_insertionSort] at hmem
    exact (List.mem_filter.mp hmem).1

/-- What someone else's workload preempts is unknown. -/
theorem chooseWorkload_of_preempted (hadmin : req.admin = false) {host : Option Text}
    (h : db.Preempted env req host) :
    db.chooseWorkload env req host = .error (unknownModel req.model) := by
  obtain ⟨a, m, hstaged, haccess⟩ := exists_staged_of_shadowed (stages_unique host) h
  have hresolve : db.resolveWorkloadReference env req host = .ok (a, m) := by
    rw [resolveWorkloadReference_eq, hstaged]
    rfl
  exact chooseWorkload_refused hadmin hresolve haccess

/-- Otherwise only the workloads that the caller can access count. -/
theorem chooseWorkload_of_not_preempted (hadmin : req.admin = false) {host : Option Text}
    (h : ¬db.Preempted env req host) :
    db.chooseWorkload env req host =
      match resolveAccessible env req db host with
      | some r => .ok r
      | none => .error (unknownModel req.model) := by
  have hstaged : staged db.workloads.rows (stages env req host) =
      staged (db.accessible req.userId) (stages env req host) := staged_filter_of_not_shadowed h
  have hresolve := db.resolveWorkloadReference_eq env req host
  rw [hstaged] at hresolve
  cases hfound : resolveAccessible env req db host with
  | some r =>
    have haccess := (mem_accessible.mp (mem_accessible_of_resolveAccessible hfound)).2
    refine chooseWorkload_of_resolve ?_ haccess
    rcases pickNamedWorkload_eq db hadmin with hpick | ⟨hpick, -⟩
    · rw [hresolve, hpick]
      rw [resolveAccessible] at hfound
      rw [hfound]
    · rw [resolveAccessible, hpick, Option.map_none, Option.or_none] at hfound
      rw [hresolve, hfound, Option.some_or]
  | none =>
    obtain ⟨hnone, hname⟩ := Option.or_eq_none_iff.mp hfound
    have hunnamed := Option.map_eq_none_iff.mp hname
    rw [hnone, Option.none_or] at hresolve
    rcases pickNamedWorkload_eq db hadmin with hpick | ⟨-, r, hpick, haccess⟩
    · rw [hpick, hunnamed] at hresolve
      simp [chooseWorkload, hresolve, bind, Except.bind]
    · rw [hpick] at hresolve
      exact chooseWorkload_refused hadmin hresolve haccess

/-- The workload chosen is one that the caller can access. -/
theorem accessible_of_chooseWorkload (hadmin : req.admin = false) {host : Option Text}
    {r : (WorkloadId × WorkloadRow) × RouteMatch} (h : db.chooseWorkload env req host = .ok r) :
    r.1 ∈ db.accessible req.userId := by
  by_cases hpre : db.Preempted env req host
  · rw [chooseWorkload_of_preempted hadmin hpre] at h
    exact nomatch h
  · rw [chooseWorkload_of_not_preempted hadmin hpre] at h
    cases hfound : resolveAccessible env req db host with
    | none => exact nomatch (hfound ▸ h)
    | some a =>
      rw [hfound] at h
      exact Except.ok.inj h ▸ mem_accessible_of_resolveAccessible hfound

theorem referred_iff {host : Option Text} :
    db.Referred env req host ↔ (resolveAccessible env req db host).isSome := by
  rw [← not_iff_not, Option.not_isSome_iff_eq_none, resolveAccessible, Option.or_eq_none_iff,
    staged_eq_none_iff, Option.map_eq_none_iff, pickNamedAccessible, List.argmin_eq_none,
    ← List.length_eq_zero_iff, List.length_insertionSort, List.length_eq_zero_iff,
    List.filter_eq_nil_iff]
  simp only [Referred, decide_eq_true_eq]
  constructor
  · intro h
    refine ⟨fun q hq r hr ↦ ?_, fun r hr hname ↦ h ⟨r, hr, Or.inr hname⟩⟩
    exact Bool.eq_false_iff.mpr fun hqr ↦ h ⟨r, hr, Or.inl ⟨q, hq, hqr⟩⟩
  · rintro ⟨hstages, hname⟩ ⟨r, hr, ⟨q, hq, hqr⟩ | hn⟩
    · exact Bool.eq_false_iff.mp (hstages q hq r hr) hqr
    · exact hname r hr hn

/-! ## Two databases with the same view -/

theorem readyDeployments_of_sameView {userId : Option UserId} (h : SameView db db' userId)
    {r : WorkloadId × WorkloadRow} (hr : r ∈ db.accessible userId) :
    db.readyDeployments r.1 = db'.readyDeployments r.1 := by
  have hsplit : ∀ t : Table DeploymentId DeploymentRow,
      (t.select fun _ row ↦ row.record.workloadId = r.1 ∧ row.record.state = .ready) =
        (t.select fun _ row ↦ row.record.workloadId = r.1).filter fun x ↦
          x.2.record.state = .ready := by
    intro t
    rw [Table.select, Table.select, List.filter_filter]
    refine List.filter_congr fun x _ ↦ ?_
    rw [Bool.decide_and, Bool.and_comm]
  rw [readyDeployments, readyDeployments, hsplit, hsplit, h.deployments r hr]

variable (env req) in
theorem healthyDeployments_of_sameView {userId : Option UserId} (h : SameView db db' userId)
    {r : WorkloadId × WorkloadRow} (hr : r ∈ db.accessible userId) :
    db.healthyDeployments env req r.1 = db'.healthyDeployments env req r.1 := by
  have hroutable : db.routable env.settings = db'.routable env.settings := by
    unfold routable
    rw [h.nodeInventory, h.heartbeats, h.now]
  have hlist : db.listReadyDeployments env.settings r.1 =
      db'.listReadyDeployments env.settings r.1 := by
    rw [listReadyDeployments, listReadyDeployments, readyDeployments_of_sameView h hr, hroutable]
  rw [healthyDeployments, healthyDeployments, hlist]

theorem nameRank_of_sameView (h : SameView db db' req.userId) {r : WorkloadId × WorkloadRow}
    (hr : r ∈ db.accessible req.userId) : db.nameRank req r = db'.nameRank req r := by
  have haccess := (mem_accessible.mp hr).2
  have haccess' := (mem_accessible.mp (h.accessible ▸ hr)).2
  rw [nameRank, nameRank, haccess, haccess', readyDeployments_of_sameView h hr]

variable (env) in
theorem resolveAccessible_of_sameView (h : SameView db db' req.userId) (host : Option Text) :
    resolveAccessible env req db host = resolveAccessible env req db' host := by
  have hpick : db.pickNamedAccessible req = db'.pickNamedAccessible req := by
    unfold pickNamedAccessible
    rw [← h.accessible]
    refine argmin_congr fun r hr ↦ nameRank_of_sameView h ?_
    rw [List.mem_insertionSort] at hr
    exact (List.mem_filter.mp hr).1
  rw [resolveAccessible, resolveAccessible, h.accessible, hpick]

/-- The workload chosen is the same exactly if nothing answers to the reference, or if it is
preempted in both databases or in neither. -/
theorem chooseWorkload_of_sameView (hadmin : req.admin = false) (h : SameView db db' req.userId)
    (host : Option Text) :
    db.chooseWorkload env req host = db'.chooseWorkload env req host ↔
      (db.Referred env req host → (db.Preempted env req host ↔ db'.Preempted env req host)) := by
  have hsame := resolveAccessible_of_sameView env h host
  by_cases hpre : db.Preempted env req host <;> by_cases hpre' : db'.Preempted env req host
  · rw [chooseWorkload_of_preempted hadmin hpre, chooseWorkload_of_preempted hadmin hpre']
    exact iff_of_true rfl fun _ ↦ iff_of_true hpre hpre'
  · rw [chooseWorkload_of_preempted hadmin hpre, chooseWorkload_of_not_preempted hadmin hpre',
      ← hsame, referred_iff]
    cases resolveAccessible env req db host <;> simp [hpre, hpre']
  · rw [chooseWorkload_of_not_preempted hadmin hpre, chooseWorkload_of_preempted hadmin hpre',
      referred_iff]
    cases resolveAccessible env req db host <;> simp [hpre, hpre']
  · rw [chooseWorkload_of_not_preempted hadmin hpre, chooseWorkload_of_not_preempted hadmin hpre',
      hsame]
    exact iff_of_true rfl fun _ ↦ iff_of_false hpre hpre'

variable (env req) in
/-- What follows the choice never says that the model is unknown. -/
theorem healthyDeployments_ne_unknown (w : WorkloadId) :
    db.healthyDeployments env req w ≠ .error (unknownModel req.model) := by
  -- The messages differ in their first letter.
  have hready : RoutingError.noReady ("no ready deployment for model=".toList ++ req.model) ≠
      unknownModel req.model := by
    intro h
    have hhead : some 'n' = some 'u' := congrArg List.head? (RoutingError.noReady.inj h)
    exact absurd hhead (by decide)
  have hhealthy :
      RoutingError.noReady ("no healthy deployment available for model=".toList ++ req.model) ≠
        unknownModel req.model := by
    intro h
    have hhead : some 'n' = some 'u' := congrArg List.head? (RoutingError.noReady.inj h)
    exact absurd hhead (by decide)
  unfold healthyDeployments
  dsimp only
  split
  · exact fun h ↦ hready (Except.error.inj h)
  · split
    · exact fun h ↦ hhealthy (Except.error.inj h)
    · exact nofun

variable (env db) in
theorem chooseWorkload_cases (hadmin : req.admin = false) (host : Option Text) :
    db.chooseWorkload env req host = .error (unknownModel req.model) ∨
      ∃ r, resolveAccessible env req db host = some r ∧ db.chooseWorkload env req host = .ok r := by
  by_cases hpre : db.Preempted env req host
  · exact Or.inl (chooseWorkload_of_preempted hadmin hpre)
  · rw [chooseWorkload_of_not_preempted hadmin hpre]
    cases hfound : resolveAccessible env req db host with
    | none => exact Or.inl rfl
    | some r => exact Or.inr ⟨r, rfl, rfl⟩

/-- Where a request goes, once the host is known and no upstream takes it. -/
def routeTo (env : RoutingEnv) (req : RouteRequest) (db : RoutingDb) (host : Option Text) :
    Except RoutingError Routed := do
  let r ← db.chooseWorkload env req host
  let targets ← db.healthyDeployments env req r.1.1
  .ok (.deployments r.2 host r.1.1 targets)

theorem routeTo_ne_unknown {host : Option Text} {r : (WorkloadId × WorkloadRow) × RouteMatch}
    (h : db.chooseWorkload env req host = .ok r) :
    routeTo env req db host ≠ .error (unknownModel req.model) := by
  have hne := db.healthyDeployments_ne_unknown env req r.1.1
  intro heq
  rw [routeTo, h] at heq
  cases htargets : db.healthyDeployments env req r.1.1 with
  | ok targets =>
    simp only [bind, Except.bind, htargets] at heq
    exact nomatch heq
  | error e =>
    simp only [bind, Except.bind, htargets] at heq
    exact hne (Except.error.inj heq ▸ htargets)

theorem routeTo_of_unknown {host : Option Text}
    (h : db.chooseWorkload env req host = .error (unknownModel req.model)) :
    routeTo env req db host = .error (unknownModel req.model) := by
  rw [routeTo, h]
  rfl

/-- The same workload is chosen exactly where the same outcome is reached. -/
theorem routeTo_of_sameView (hadmin : req.admin = false) (h : SameView db db' req.userId)
    (host : Option Text) :
    routeTo env req db host = routeTo env req db' host ↔
      db.chooseWorkload env req host = db'.chooseWorkload env req host := by
  have hsame := resolveAccessible_of_sameView env h host
  rcases chooseWorkload_cases env db hadmin host with hc | ⟨r, hr, hc⟩ <;>
    rcases chooseWorkload_cases env db' hadmin host with hc' | ⟨r', hr', hc'⟩
  · rw [routeTo_of_unknown hc, routeTo_of_unknown hc', hc, hc']
    exact iff_of_true rfl rfl
  · rw [routeTo_of_unknown hc, hc, hc']
    exact iff_of_false (routeTo_ne_unknown hc').symm nofun
  · rw [routeTo_of_unknown hc', hc, hc']
    exact iff_of_false (routeTo_ne_unknown hc) nofun
  · obtain rfl : r = r' := Option.some.inj (hr.symm.trans (hsame.trans hr'))
    have htargets := healthyDeployments_of_sameView env req h
      (mem_accessible_of_resolveAccessible hr)
    rw [routeTo, routeTo, hc, hc']
    refine iff_of_true ?_ rfl
    simp only [bind, Except.bind, htargets]

theorem selectHealthyDeployments_eq (env : RoutingEnv) (req : RouteRequest) (db : RoutingDb) :
    db.selectHealthyDeployments env req =
      match externalUpstream env req, normalizeHost req.routedHost with
      | _, none => .error .badHost
      | some endpoint, some _ => .ok (.external endpoint)
      | none, some host => routeTo env req db host :=
  rfl

/-- A request's outcome does not depend on the workloads that the caller cannot access, except
where one of them preempts what the caller means, and the workload chosen is one that the caller
can access. -/
theorem routing_of_same_view (env : RoutingEnv) (req : RouteRequest) (db db' : RoutingDb)
    (hadmin : req.admin = false) (h : SameView db db' req.userId) :
    (db.selectHealthyDeployments env req = db'.selectHealthyDeployments env req ↔
      ∀ host, normalizeHost req.routedHost = some host → externalUpstream env req = none →
        db.Referred env req host → (db.Preempted env req host ↔ db'.Preempted env req host)) ∧
    ∀ host r, db.chooseWorkload env req host = .ok r → r.1 ∈ db.accessible req.userId := by
  refine ⟨?_, fun host r hr ↦ accessible_of_chooseWorkload hadmin hr⟩
  rw [selectHealthyDeployments_eq, selectHealthyDeployments_eq]
  cases normalizeHost req.routedHost with
  | none => simp
  | some host =>
    cases externalUpstream env req with
    | some endpoint => simp
    | none =>
      refine (routeTo_of_sameView hadmin h host).trans
        ((chooseWorkload_of_sameView hadmin h host).trans ?_)
      exact ⟨fun hone host' heq _ ↦ Option.some.inj heq ▸ hone, fun hall ↦ hall host rfl rfl⟩

/-! ## Two customers -/

/-- A workload of a customer's, for a model. -/
def customerWorkload (owner : UserId) (name : Text)
    (workloadAlias : Option Text) : WorkloadRow where
  ownerUserId := some owner
  name := name
  image := "vllm/vllm-openai".toList
  displayName := none
  readme := none
  logoUri := none
  tags := []
  workloadAlias := workloadAlias
  ingressHost := none
  securityTier := "standard".toList
  pricingClass := "standard".toList
  runtime := []
  lifecycle := []
  isPublic := false
  createdAt := 0
  kind := .inference
  requirements := []
  metadata := []

/-- The first customer's model beside a workload of the second's, which bears an alias or not. -/
def twoCustomers (theirs : Option Text) : RoutingDb where
  workloads := .ofRows
    [("w-1".toList, customerWorkload 1 "llama".toList none),
      ("w-2".toList, customerWorkload 2 "private".toList theirs)]
    (show ["w-1".toList, "w-2".toList].Nodup by decide)
  shares := []
  deployments := .empty
  nodeInventory := []
  heartbeats := .empty
  now := 0
  aliases := by
    cases theirs with
    | none => exact List.nodup_nil
    | some t => exact List.nodup_singleton t
  ingressHosts := List.nodup_nil

/-- Nothing configured. -/
def plainEnv : RoutingEnv := ⟨{}, [], [], fun _ ↦ true, fun _ ↦ 0, 0⟩

/-- The first customer asks for its model by name. -/
def byName : RouteRequest := ⟨"llama".toList, none, some 1, false⟩

theorem twoCustomers_sameView (t t' : Option Text) :
    SameView (twoCustomers t) (twoCustomers t') (some 1) :=
  ⟨rfl, fun _ _ ↦ rfl, rfl, rfl, rfl⟩

theorem routing_of_same_view_two :
    (twoCustomers none).selectHealthyDeployments plainEnv byName =
        (twoCustomers (some "mixtral".toList)).selectHealthyDeployments plainEnv byName ↔
      ∀ host, normalizeHost byName.routedHost = some host → externalUpstream plainEnv byName = none →
        (twoCustomers none).Referred plainEnv byName host →
          ((twoCustomers none).Preempted plainEnv byName host ↔
            (twoCustomers (some "mixtral".toList)).Preempted plainEnv byName host) :=
  (routing_of_same_view plainEnv byName (twoCustomers none) (twoCustomers (some "mixtral".toList))
    rfl (twoCustomers_sameView _ _)).1

/-- A workload that takes the name for its alias makes the first customer's model unknown. -/
theorem alias_hides_model :
    ¬∀ (env : RoutingEnv) (req : RouteRequest) (db db' : RoutingDb), req.admin = false →
      SameView db db' req.userId →
        db.selectHealthyDeployments env req = db'.selectHealthyDeployments env req := by
  intro h
  have heq := h plainEnv byName (twoCustomers none) (twoCustomers (some "llama".toList)) rfl
    (twoCustomers_sameView _ _)
  have herror := congrArg (fun o ↦ match o with | .error e => some e | .ok _ => none) heq
  revert herror
  decide +kernel

end RoutingDb

end GreenCompute
