import GreenCompute.Foundations.Classes
import GreenCompute.Validator.Catalog
import Mathlib.Algebra.Order.Ring.Int
import Mathlib.Algebra.Order.Ring.Rat
import Mathlib.Data.List.Sort
import Mathlib.Data.Prod.Lex

/-!
# Replicas that span several nodes

A model that is too large for one chassis is served by one engine on several nodes. The planner
decides which nodes form a replica and what rank each takes. Nodes are only combined where the
operator, the fabric and the hardware are the same; of the classes that are large enough the one
with the most GPUs to spare is taken, then the one with the fastest fabric, then by operator and
fabric.

Two classes that differ only in their hardware can tie, and then the order of the candidates
decides (`plan_depends_on_order`). `multi_node_plan_sound` is about all the rest, and says when the
order makes no difference.
-/

namespace GreenCompute

open OrderDual (toDual)

/-- What a label is read as by `float`: a number, or an infinite one. NaN, which passes no
comparison, stands below every number, where it fails every floor as well. -/
abbrev Gbps := WithBot (WithTop ℚ)

/-- `NodeCandidate`: a node that Flux may use for a replica. -/
structure NodeCandidate where
  hotkey : Text
  nodeId : Text
  availableGpus : ℤ
  vramGbPerGpu : ℤ
  gpuModel : Text
  labels : List (Text × Text)
  deriving DecidableEq

/-- `MultiNodeNodeAssignment` -/
structure MultiNodeNodeAssignment where
  hotkey : Text
  nodeId : Text
  rank : ℕ
  gpuCount : ℕ
  deriving DecidableEq

/-- `MultiNodePlan` -/
structure MultiNodePlan where
  modelId : Text
  assignments : List MultiNodeNodeAssignment
  tensorParallelSize : ℕ
  pipelineParallelSize : ℕ
  backend : Text
  deriving DecidableEq

/-! ## The planner -/

namespace NodeCandidate

/-- `interconnect_gbps`; `float` gives none where it raises. -/
def interconnectGbps (float : Text → Option Gbps) (node : NodeCandidate) : Gbps :=
  match node.labels.lookup "interconnect_gbps".toList with
  | none => ((0 : ℚ) : WithTop ℚ)
  | some label => (float label).getD ((0 : ℚ) : WithTop ℚ)

/-- `domain` -/
def domain (node : NodeCandidate) : Text :=
  match node.labels.lookup "interconnect_domain".toList with
  | none => node.hotkey
  | some label => if label = [] then node.hotkey else label

/-- `serves_ingress` -/
def servesIngress (node : NodeCandidate) : Bool :=
  Text.lower (Text.strip ((node.labels.lookup "serves_ingress".toList).getD [])) ∈
    ["1".toList, "true".toList, "yes".toList]

/-- `_eligible` -/
def eligible (float : Text → Option Gbps) (config : MultiNodeConfig) (minVramGb : ℤ)
    (node : NodeCandidate) : Bool :=
  (config.gpusPerNode : ℤ) ≤ node.availableGpus ∧ minVramGb ≤ node.vramGbPerGpu ∧
    ((config.minInterconnectGbps : WithTop ℚ) : Gbps) ≤ node.interconnectGbps float

/-- `_group_key` -/
def groupKey (node : NodeCandidate) : Text × Text × Text × ℤ :=
  (node.hotkey, node.domain, Text.lower node.gpuModel, node.vramGbPerGpu)

/-- `group_rank` -/
def groupRank (float : Text → Option Gbps) (group : List NodeCandidate) :
    ℤ ×ₗ (WithTop Gbps)ᵒᵈ ×ₗ Text ×ₗ Text :=
  toLex (-(group.map availableGpus).sum,
    toLex (toDual (group.map (interconnectGbps float)).minimum,
      toLex (((group.head?.map hotkey).getD []), ((group.head?.map domain).getD []))))

/-- Where a node stands in its group: nodes that serve ingress first, then the nodes with the most
GPUs, then by id. -/
def memberRank (node : NodeCandidate) : Bool ×ₗ ℤ ×ₗ Text :=
  toLex (!node.servesIngress, toLex (-node.availableGpus, node.nodeId))

/-- The nodes of a group in order. -/
def ordered (group : List NodeCandidate) : List NodeCandidate :=
  group.insertionSort fun n n' ↦ n.memberRank ≤ n'.memberRank

end NodeCandidate

open NodeCandidate

/-- Whether a group is large enough. -/
def viable (config : MultiNodeConfig) (group : List NodeCandidate) : Bool :=
  config.nodeCount ≤ group.length

/-- The plan for the nodes of a group. -/
def planFor (modelId : Text) (config : MultiNodeConfig) (group : List NodeCandidate) :
    MultiNodePlan where
  modelId := modelId
  assignments := ((ordered group).take config.nodeCount).zipIdx.map fun node ↦
    ⟨node.1.hotkey, node.1.nodeId, node.2, config.gpusPerNode⟩
  tensorParallelSize := config.effectiveTensorParallelSize
  pipelineParallelSize := config.effectivePipelineParallelSize
  backend := config.backend

/-- `plan_multi_node_placement` -/
def planMultiNodePlacement (float : Text → Option Gbps) (modelId : Text) (config : MultiNodeConfig)
    (candidates : List NodeCandidate) (minVramGb : ℤ) : Option MultiNodePlan :=
  if config.isDistributed = false then none
  else
    let eligible := candidates.filter (eligible float config minVramGb)
    (bestClass groupKey (viable config) (groupRank float) eligible).map (planFor modelId config)

/-! ## One class, in any order -/

section

variable {float : Text → Option Gbps} {config : MultiNodeConfig} {modelId : Text} {minVramGb : ℤ}
  {l l' c c' : List NodeCandidate} {n : NodeCandidate}

theorem orderFree_groupRank : OrderFree groupKey (viable config) (groupRank float) where
  fit c c' h := by rw [viable, viable, h.length_eq]
  rank c c' h huniform := by
    have hspare : (c.map availableGpus).sum = (c'.map availableGpus).sum := (h.map _).sum_eq
    have hslowest : (c.map (interconnectGbps float)).minimum =
        (c'.map (interconnectGbps float)).minimum := (h.map _).minimum_eq
    cases c with
    | nil => rw [List.nil_perm.mp h]
    | cons a c =>
      cases c' with
      | nil => exact nomatch List.perm_nil.mp h
      | cons b c' =>
        have hkey := huniform a List.mem_cons_self b (h.mem_iff.mpr List.mem_cons_self)
        have hhotkey : a.hotkey = b.hotkey := congrArg Prod.fst hkey
        have hdomain : a.domain = b.domain := congrArg (fun k ↦ k.2.1) hkey
        simp only [groupRank, hspare, hslowest, List.head?_cons, Option.map_some, hhotkey, hdomain]

/-- The nodes of a group are told apart by their ids. -/
theorem ordered_perm (h : c.Perm c') (hids : (c.map nodeId).Nodup) : ordered c = ordered c' := by
  refine List.Perm.eq_of_pairwise ?_ (List.pairwise_insertionSort _ c)
    (List.pairwise_insertionSort _ c')
    ((List.perm_insertionSort _ c).trans (h.trans (List.perm_insertionSort _ c').symm))
  intro a b ha hb hab hba
  have hrank : a.memberRank = b.memberRank := le_antisymm hab hba
  have hid : a.nodeId = b.nodeId := congrArg (fun r ↦ (ofLex (ofLex r).2).2) hrank
  have ha := (List.mem_insertionSort _).mp ha
  have hb := h.mem_iff.mpr ((List.mem_insertionSort _).mp hb)
  exact List.inj_on_of_nodup_map hids ha hb hid

/-- The plan is for nodes of a group. -/
structure MultiNodePlan.On (plan : MultiNodePlan) (config : MultiNodeConfig)
    (group : List NodeCandidate) : Prop where
  large : config.nodeCount ≤ group.length
  ranks : plan.assignments.map MultiNodeNodeAssignment.rank = List.range config.nodeCount
  distinct : (plan.assignments.map fun a ↦ (a.hotkey, a.nodeId)).Nodup
  placed : ∀ a ∈ plan.assignments, ∃ node ∈ group, node.hotkey = a.hotkey ∧ node.nodeId = a.nodeId
  head : (∃ node ∈ group, node.servesIngress = true) → ∀ a ∈ plan.assignments, a.rank = 0 →
    ∃ node ∈ group, node.servesIngress = true ∧ node.hotkey = a.hotkey ∧ node.nodeId = a.nodeId

theorem mem_ordered : n ∈ ordered c ↔ n ∈ c := List.mem_insertionSort _

/-- The first node of a group serves ingress where one of them does. -/
theorem servesIngress_of_head (h : ∃ node ∈ c, node.servesIngress = true) {first : NodeCandidate}
    {rest : List NodeCandidate} (hfirst : ordered c = first :: rest) :
    first.servesIngress = true := by
  obtain ⟨node, hnode, hserves⟩ := h
  have hsorted := List.pairwise_insertionSort
    (fun n n' : NodeCandidate ↦ n.memberRank ≤ n'.memberRank) c
  have hle : first.memberRank ≤ node.memberRank := by
    have hmem : node ∈ first :: rest := hfirst ▸ mem_ordered.mpr hnode
    rcases List.mem_cons.mp hmem with rfl | hrest
    · exact le_rfl
    · rw [ordered] at hfirst
      rw [hfirst] at hsorted
      exact List.rel_of_pairwise_cons hsorted hrest
  by_contra hnot
  have hlt : node.memberRank < first.memberRank := by
    refine Prod.Lex.toLex_lt_toLex.mpr (.inl ?_)
    rw [hserves, Bool.eq_false_iff.mpr hnot]
    exact Bool.false_lt_true
  exact absurd hle hlt.not_ge

theorem on_planFor (hlarge : viable config c = true)
    (hdistinct : (c.map fun n ↦ (n.hotkey, n.nodeId)).Nodup) :
    (planFor modelId config c).On config c := by
  have hlarge : config.nodeCount ≤ c.length := of_decide_eq_true hlarge
  have hmem {a : MultiNodeNodeAssignment} (ha : a ∈ (planFor modelId config c).assignments) :
      ∃ node ∈ c, (ordered c)[a.rank]? = some node ∧ node.hotkey = a.hotkey ∧
        node.nodeId = a.nodeId := by
    obtain ⟨⟨node, rank⟩, hnode, rfl⟩ := List.mem_map.mp ha
    have hget := List.mk_mem_zipIdx_iff_getElem?.mp hnode
    rw [List.getElem?_take] at hget
    split at hget
    · exact ⟨node, mem_ordered.mp (List.mem_of_getElem? hget), hget, rfl, rfl⟩
    · exact nomatch hget
  refine ⟨hlarge, ?_, ?_, fun a ha ↦ ?_, fun hserves a ha hrank ↦ ?_⟩
  · have hlength : ((ordered c).take config.nodeCount).length = config.nodeCount := by
      rw [List.length_take, ordered, List.length_insertionSort, Nat.min_eq_left hlarge]
    rw [planFor, List.map_map]
    change List.map Prod.snd _ = _
    rw [List.zipIdx_map_snd, hlength, List.range_eq_range']
  · rw [planFor, List.map_map]
    have hfst : (((ordered c).take config.nodeCount).zipIdx.map
        ((fun a : MultiNodeNodeAssignment ↦ (a.hotkey, a.nodeId)) ∘ fun node : NodeCandidate × ℕ ↦
          ⟨node.1.hotkey, node.1.nodeId, node.2, config.gpusPerNode⟩)) =
        ((ordered c).take config.nodeCount).map fun n ↦ (n.hotkey, n.nodeId) := by
      conv_rhs => rw [← List.zipIdx_map_fst 0 ((ordered c).take config.nodeCount), List.map_map]
      rfl
    rw [hfst]
    have hordered : ((ordered c).map fun n ↦ (n.hotkey, n.nodeId)).Nodup :=
      (((List.perm_insertionSort _ c).map _).nodup_iff).mpr hdistinct
    exact hordered.sublist ((List.take_sublist _ _).map _)
  · obtain ⟨node, hnode, -, hsame⟩ := hmem ha
    exact ⟨node, hnode, hsame⟩
  · obtain ⟨node, hnode, hget, hsame⟩ := hmem ha
    rw [hrank] at hget
    cases hordered : ordered c with
    | nil => rw [hordered] at hget; exact nomatch hget
    | cons first rest =>
      rw [hordered] at hget
      obtain rfl := Option.some.inj hget
      exact ⟨_, hnode, servesIngress_of_head hserves hordered, hsame⟩

/-- Nodes of a class are told apart by their ids. -/
theorem nodup_ids_of_mem_classes (hdistinct : (l.map fun n ↦ (n.hotkey, n.nodeId)).Nodup)
    (hc : c ∈ classes groupKey l) : (c.map nodeId).Nodup := by
  obtain ⟨a, -, rfl⟩ := mem_classes_iff.mp hc
  have hpairs : ((classOf groupKey l (groupKey a)).map fun n ↦ (n.hotkey, n.nodeId)).Nodup :=
    hdistinct.sublist (List.filter_sublist.map _)
  have hids : ((classOf groupKey l (groupKey a)).map fun n ↦ (n.hotkey, n.nodeId)) =
      ((classOf groupKey l (groupKey a)).map nodeId).map (Prod.mk a.hotkey) := by
    rw [List.map_map]
    refine List.map_congr_left fun b hb ↦ ?_
    rw [Function.comp_apply, show b.hotkey = a.hotkey from congrArg Prod.fst (mem_classOf.mp hb).2]
  rw [hids] at hpairs
  exact hpairs.of_map

/-- Plans for different classes place their ranks on different nodes. -/
theorem eq_of_planFor_eq (hdistinct : (l.map fun n ↦ (n.hotkey, n.nodeId)).Nodup)
    (hcount : 0 < config.nodeCount) (hc : c ∈ classes groupKey l) (hc' : c' ∈ classes groupKey l)
    (hlarge : viable config c = true) (hlarge' : viable config c' = true)
    (h : planFor modelId config c = planFor modelId config c') : c = c' := by
  have hnodes {d : List NodeCandidate} (hd : d ∈ classes groupKey l) :
      d.Sublist l ∧ (d.map fun n ↦ (n.hotkey, n.nodeId)).Nodup := by
    obtain ⟨a, -, rfl⟩ := mem_classes_iff.mp hd
    exact ⟨List.filter_sublist, hdistinct.sublist (List.filter_sublist.map _)⟩
  have hon : (planFor modelId config c).On config c := on_planFor hlarge (hnodes hc).2
  have hon' : (planFor modelId config c').On config c' := on_planFor hlarge' (hnodes hc').2
  rw [← h] at hon'
  -- Some node carries rank 0 in both.
  obtain ⟨a, ha⟩ : ∃ a, a ∈ (planFor modelId config c).assignments := by
    refine List.exists_mem_of_ne_nil _ fun hnil ↦ ?_
    have hranks := congrArg List.length hon.ranks
    rw [hnil, List.map_nil, List.length_nil, List.length_range] at hranks
    omega
  obtain ⟨node, hnode, hhotkey, hid⟩ := hon.placed a ha
  obtain ⟨node', hnode', hhotkey', hid'⟩ := hon'.placed a ha
  have hsame : node = node' := by
    refine List.inj_on_of_nodup_map hdistinct ((hnodes hc).1.subset hnode)
      ((hnodes hc').1.subset hnode') ?_
    exact Prod.ext (hhotkey.trans hhotkey'.symm) (hid.trans hid'.symm)
  exact eq_of_mem_classes hc hc' hnode hnode' (congrArg groupKey hsame)

theorem planFor_perm (h : c.Perm c') (hids : (c.map nodeId).Nodup) :
    planFor modelId config c = planFor modelId config c' := by
  rw [planFor, planFor, ordered_perm h hids]

theorem plan_eq (hdistributed : config.isDistributed = true) (l : List NodeCandidate) :
    planMultiNodePlacement float modelId config l minVramGb =
      (bestClass groupKey (viable config) (groupRank float)
        (l.filter (eligible float config minVramGb))).map (planFor modelId config) := by
  rw [planMultiNodePlacement, if_neg (by rw [hdistributed]; exact Bool.noConfusion)]

/-- The eligible nodes can be listed in any order. -/
theorem exists_candidates (candidates : List NodeCandidate)
    (hl : l.Perm (candidates.filter (eligible float config minVramGb))) :
    ∃ l' : List NodeCandidate, l'.Perm candidates ∧
      l'.filter (eligible float config minVramGb) = l := by
  refine ⟨l ++ candidates.filter fun n ↦ !eligible float config minVramGb n, ?_, ?_⟩
  · exact (hl.append_right _).trans (List.filter_append_perm _ candidates)
  · have hkept : l.filter (eligible float config minVramGb) = l :=
      List.filter_eq_self.mpr fun n hn ↦ (List.mem_filter.mp (hl.mem_iff.mp hn)).2
    have hdropped : (candidates.filter fun n ↦ !eligible float config minVramGb n).filter
        (eligible float config minVramGb) = [] := by
      refine List.filter_eq_nil_iff.mpr fun n hn hfit ↦ ?_
      have hnot := (List.mem_filter.mp hn).2
      rw [hfit] at hnot
      exact nomatch hnot
    rw [List.filter_append, hkept, hdropped, List.append_nil]

end

/-- **A replica is placed on one class of nodes**, where there is one that is large enough, and rank
0 on a node that serves ingress where the class has one. The order of the candidates makes no
difference exactly when no class ties with the best one. -/
theorem multi_node_plan_sound (float : Text → Option Gbps) (modelId : Text)
    {config : MultiNodeConfig} (hdistributed : config.isDistributed = true)
    (hcount : 1 < config.nodeCount) {candidates : List NodeCandidate}
    (hdistinct : (candidates.map fun n ↦ (n.hotkey, n.nodeId)).Nodup) (minVramGb : ℤ) :
    ((planMultiNodePlacement float modelId config candidates minVramGb).isSome = true ↔
      ∃ k, config.nodeCount ≤
        (classOf groupKey (candidates.filter (eligible float config minVramGb)) k).length) ∧
    (∀ plan, planMultiNodePlacement float modelId config candidates minVramGb = some plan →
      ∃ k, plan.On config
        (classOf groupKey (candidates.filter (eligible float config minVramGb)) k)) ∧
    ((∀ l : List NodeCandidate, l.Perm candidates →
        planMultiNodePlacement float modelId config l minVramGb =
          planMultiNodePlacement float modelId config candidates minVramGb) ↔
      Untied groupKey (viable config) (groupRank float)
        (candidates.filter (eligible float config minVramGb))) := by
  have heligible : ((candidates.filter (eligible float config minVramGb)).map fun n ↦
      (n.hotkey, n.nodeId)).Nodup := hdistinct.sublist (List.filter_sublist.map _)
  simp only [plan_eq hdistributed]
  refine ⟨?_, fun plan hplan ↦ ?_, fun hsame c c' hc hc' ↦ ?_, fun huntied l hl ↦ ?_⟩
  · rw [Option.isSome_map, isSome_bestClass_iff]
    constructor
    · rintro ⟨c, hc, hlarge⟩
      obtain ⟨a, -, rfl⟩ := mem_classes_iff.mp hc
      exact ⟨_, of_decide_eq_true hlarge⟩
    · rintro ⟨k, hlarge⟩
      obtain ⟨a, ha⟩ := List.exists_mem_of_length_pos ((Nat.zero_lt_of_lt hcount).trans_le hlarge)
      obtain ⟨hmem, rfl⟩ := mem_classOf.mp ha
      exact ⟨_, mem_classes_iff.mpr ⟨a, hmem, rfl⟩, decide_eq_true hlarge⟩
  · obtain ⟨c, hbest, rfl⟩ := Option.map_eq_some_iff.mp hplan
    have hleads := leads_of_bestClass hbest
    obtain ⟨a, -, rfl⟩ := mem_classes_iff.mp hleads.mem
    exact ⟨_, on_planFor hleads.fit (heligible.sublist (List.filter_sublist.map _))⟩
  · -- Either class can be the one that is taken.
    obtain ⟨l, hl, hbest⟩ := exists_bestClass orderFree_groupRank hc
    obtain ⟨l', hl', hbest'⟩ := exists_bestClass orderFree_groupRank hc'
    obtain ⟨m, hm, rfl⟩ := exists_candidates candidates hl
    obtain ⟨m', hm', rfl⟩ := exists_candidates candidates hl'
    have hplans := (hsame m hm).trans (hsame m' hm').symm
    rw [hbest, hbest', Option.map_some, Option.map_some, Option.some.injEq] at hplans
    exact eq_of_planFor_eq heligible (Nat.zero_lt_of_lt hcount) hc.mem hc'.mem hc.fit hc'.fit hplans
  · have hperm := hl.filter (eligible float config minVramGb)
    cases hbest : bestClass groupKey (viable config) (groupRank float)
        (candidates.filter (eligible float config minVramGb)) with
    | none =>
      cases hbest' : bestClass groupKey (viable config) (groupRank float)
          (l.filter (eligible float config minVramGb)) with
      | none => rfl
      | some c' =>
        obtain ⟨c, hleads, -⟩ := (leads_of_bestClass hbest').perm orderFree_groupRank hperm
        have hsome : (bestClass groupKey (viable config) (groupRank float)
            (candidates.filter (eligible float config minVramGb))).isSome = true :=
          isSome_bestClass_iff.mpr ⟨c, hleads.mem, hleads.fit⟩
        rw [hbest] at hsome
        exact nomatch hsome
    | some c =>
      obtain ⟨c', hleads', -⟩ := (leads_of_bestClass hbest).perm orderFree_groupRank hperm.symm
      have hsome : (bestClass groupKey (viable config) (groupRank float)
          (l.filter (eligible float config minVramGb))).isSome = true :=
        isSome_bestClass_iff.mpr ⟨c', hleads'.mem, hleads'.fit⟩
      obtain ⟨d, hbest'⟩ := Option.isSome_iff_exists.mp hsome
      rw [hbest', Option.map_some, Option.map_some]
      have hids := nodup_ids_of_mem_classes heligible (leads_of_bestClass hbest).mem
      have hsame := huntied.perm orderFree_groupRank hperm hbest hbest'
      exact congrArg some (planFor_perm hsame.symm hids).symm

/-- Two nodes for each replica, with eight GPUs each. -/
def pairOfNodes : MultiNodeConfig := ⟨2, 8, 8, 2, 100, "ray".toList, true⟩

/-- A box of an operator, with its link. -/
def rackNode (nodeId gpuModel : String) : NodeCandidate :=
  ⟨"operator".toList, nodeId.toList, 8, 80, gpuModel.toList,
    [("interconnect_gbps".toList, "100".toList)]⟩

/-- The one label of these boxes, read as a number. -/
def readHundred (label : Text) : Option Gbps :=
  if label = "100".toList then some ((100 : ℚ) : WithTop ℚ) else none

/-- Three boxes with the same hardware. -/
def rack : List NodeCandidate := [rackNode "c" "H100", rackNode "a" "H100", rackNode "b" "h100"]

/-- The first two by id form the replica, in whatever order the three are listed. -/
theorem multi_node_plan_sound_rack :
    (planMultiNodePlacement readHundred [] pairOfNodes rack 80).map MultiNodePlan.assignments =
        some [⟨"operator".toList, "a".toList, 0, 8⟩, ⟨"operator".toList, "b".toList, 1, 8⟩] ∧
      ∀ l : List NodeCandidate, l.Perm rack →
        planMultiNodePlacement readHundred [] pairOfNodes l 80 =
          planMultiNodePlacement readHundred [] pairOfNodes rack 80 := by
  refine ⟨by decide +kernel, ?_⟩
  have hdistributed : pairOfNodes.isDistributed = true := rfl
  have hcount : 1 < pairOfNodes.nodeCount := by decide
  have hdistinct : (rack.map fun n ↦ (n.hotkey, n.nodeId)).Nodup := by decide +kernel
  have hsound := multi_node_plan_sound readHundred [] hdistributed hcount hdistinct 80
  refine hsound.2.2.mpr fun c c' hc hc' ↦ ?_
  have hone : classes groupKey (rack.filter (eligible readHundred pairOfNodes 80)) = [rack] := by
    decide +kernel
  have hmem := hc.mem
  have hmem' := hc'.mem
  rw [hone, List.mem_singleton] at hmem hmem'
  exact hmem.trans hmem'.symm

/-- Two racks of one operator that differ in their GPUs alone: the rack whose node is named first is
taken. -/
theorem plan_depends_on_order :
    ¬∀ (float : Text → Option Gbps) (modelId : Text) (config : MultiNodeConfig),
      config.isDistributed = true → 1 < config.nodeCount → ∀ candidates : List NodeCandidate,
        (candidates.map fun n ↦ (n.hotkey, n.nodeId)).Nodup → ∀ (minVramGb : ℤ)
          (l : List NodeCandidate), l.Perm candidates →
            planMultiNodePlacement float modelId config l minVramGb =
              planMultiNodePlacement float modelId config candidates minVramGb := by
  intro h
  have hsame := h readHundred [] pairOfNodes rfl (by decide)
    [rackNode "a" "H100", rackNode "b" "A100", rackNode "c" "H100", rackNode "d" "A100"]
    (by decide +kernel) 80 [rackNode "b" "A100", rackNode "a" "H100", rackNode "c" "H100",
      rackNode "d" "A100"] (.swap _ _ _)
  revert hsame
  decide +kernel

end GreenCompute
