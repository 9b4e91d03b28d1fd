import GreenCompute.ControlPlane.Placing
import GreenCompute.Gateway.CapacityAlerts

/-!
# What is advertised can be rented

The greatest count of the price list and the alerts against what placement grants. The counts take
every node of a model that the scheduler has no objection to; placement also asks whether the node
takes pods, and by placing a pod it opens nodes that no count takes. The two agree exactly where
neither makes a difference (`free_can_be_rented`).
-/

namespace GreenCompute

open ControlPlaneRepository ControlPlaneService PlacementPolicy CapacityAlerts

variable {settings : Settings} {s : Fleet} {workload : WorkloadSpec} {model : Text}
  {node : NodeCapability} {k : ℕ}

/-! ## Requests and machines -/

/-- A pod workload that asks for GPUs of one model. -/
structure WorkloadSpec.AsksFor (workload : WorkloadSpec) (model : Text) : Prop where
  kind : workload.kind = .pod
  some_gpu : 0 < workload.requirements.gpuCount
  names : workload.requirements.supportedGpuModels ≠ []
  models : ∀ m ∈ workload.requirements.supportedGpuModels, normalizeGpuModel m = model

/-- The node has the memory and the processors that are needed. -/
def NodeCapability.Meets (node : NodeCapability) (needs : Requirements) : Prop :=
  needs.minVramGbPerGpu ≤ node.vramGbPerGpu ∧ needs.cpuCores ≤ node.cpuCores ∧
    needs.memoryGb ≤ node.memoryGb

instance (node : NodeCapability) (needs : Requirements) : Decidable (node.Meets needs) :=
  inferInstanceAs (Decidable (_ ∧ _))

/-- The node declares no kinds of workload, or pods among them. -/
def NodeCapability.takesPods (node : NodeCapability) : Bool :=
  allowedKinds node = [] ∨ WorkloadKind.pod.value ∈ allowedKinds node

/-- The nodes of a model that the scheduler has no objection to. -/
def Fleet.machines (settings : Settings) (s : Fleet) (model : Text) : List NodeCapability :=
  (s.schedulable settings).filter fun node ↦ normalizeGpuModel node.gpuModel = model

/-- Placing a workload can come to the node: it would take the workload, and it is open or listed
with a node that suits. -/
def Fleet.reaches (settings : Settings) (s : Fleet) (workload : WorkloadSpec)
    (node : NodeCapability) : Bool :=
  accepts workload node ∧ (objections settings none s node = [] ∨
    ∃ sibling ∈ s.schedulable settings, suits workload s.reservedGpus sibling = true ∧
      s.listedBy node.nodeId = some sibling.hotkey)

/-- The nodes that placing a workload can come to. -/
def Fleet.withinReach (settings : Settings) (s : Fleet) (workload : WorkloadSpec) :
    List NodeCapability :=
  (listNodes s).filter (s.reaches settings workload)

/-- The machines of a model that take pods. -/
def Fleet.podMachines (settings : Settings) (s : Fleet) (model : Text) : List NodeCapability :=
  (s.machines settings model).filter NodeCapability.takesPods

/-- The machines of a model that declare other kinds of workload only. -/
def Fleet.otherMachines (settings : Settings) (s : Fleet) (model : Text) : List NodeCapability :=
  (s.machines settings model).filter fun node ↦ !node.takesPods

/-- The nodes that placing a workload opens: the scheduler objects to them now, and their miner's
row lists them with a node that suits. -/
def Fleet.awoken (settings : Settings) (s : Fleet) (workload : WorkloadSpec) :
    List NodeCapability :=
  (s.withinReach settings workload).filter fun node ↦ objections settings none s node ≠ []

/-- How many requests for `k` GPUs some nodes have room for. -/
def Fleet.roomOn (s : Fleet) (nodes : List NodeCapability) (k : ℕ) : ℕ :=
  (nodes.map fun node ↦ freeGpus node s.reservedGpus / k).sum

/-- A node would take a pod workload where it is of the model, takes pods and meets its needs. -/
theorem WorkloadSpec.AsksFor.accepts_iff (asks : workload.AsksFor model) :
    accepts workload node = true ↔ normalizeGpuModel node.gpuModel = model ∧
      node.takesPods = true ∧ node.Meets workload.requirements := by
  have hmodel : normalizeGpuModel node.gpuModel ∈
      workload.requirements.supportedGpuModels.map normalizeGpuModel ↔
        normalizeGpuModel node.gpuModel = model := by
    rw [List.mem_map]
    constructor
    · rintro ⟨m, hm, heq⟩
      exact heq ▸ asks.models m hm
    · intro heq
      obtain ⟨m, hm⟩ := List.exists_mem_of_ne_nil _ asks.names
      exact ⟨m, hm, (asks.models m hm).trans heq.symm⟩
  rw [accepts, NodeCapability.takesPods, NodeCapability.Meets, asks.kind, decide_eq_true_iff,
    decide_eq_true_iff, or_iff_right asks.names, hmodel]
  constructor
  · rintro ⟨hkinds, hvram, hcpu, hmemory, hnode⟩
    exact ⟨hnode, hkinds, hvram, hcpu, hmemory⟩
  · rintro ⟨hnode, hkinds, hvram, hcpu, hmemory⟩
    exact ⟨hkinds, hvram, hcpu, hmemory, hnode⟩

/-! ## The counts -/

theorem run_schedulableCapacity (settings : Settings) (s : Fleet) :
    run settings (schedulableCapacity settings) s = (s, (s.schedulable settings).map
      fun node ↦ (node, freeGpus node s.reservedGpus)) := by
  rw [schedulableCapacity, run_bind, capacitySnapshot, run_bind, run_schedulableNodes_none]
  rfl

/-- The greatest count that is advertised. -/
theorem le_maxGpus_iff (hk : 0 < k) :
    k ≤ maxGpus (run settings (capacityByModel settings) s).2 model ↔
      ∃ node ∈ s.machines settings model, k ≤ freeGpus node s.reservedGpus := by
  rw [capacityByModel, run_bind, run_schedulableCapacity, run_pure, le_maxGpus_byModel hk]
  constructor
  · rintro ⟨machine, hmem, hmodel, hle⟩
    obtain ⟨node, hnode, rfl⟩ := List.mem_map.mp hmem
    exact ⟨node, List.mem_filter.mpr ⟨hnode, decide_eq_true hmodel⟩, hle⟩
  · rintro ⟨node, hmem, hle⟩
    obtain ⟨hnode, hmodel⟩ := List.mem_filter.mp hmem
    exact ⟨_, List.mem_map_of_mem hnode, of_decide_eq_true hmodel, hle⟩

/-- What an alert counts. -/
theorem fits_iff (alert : CapacityAlert) :
    fits (machinesFor (freeByModel (run settings (schedulableCapacity settings) s).2) alert)
      alert.gpuCount alert.count = true ↔
    alert.count ≤ s.roomOn (s.machines settings alert.gpuModel) alert.gpuCount := by
  rw [fits, decide_eq_true_iff, machinesFor, machines_freeByModel, sum_div_filter_pos,
    run_schedulableCapacity, List.filter_map, List.map_map, List.map_map]
  rfl

/-! ## What placement grants -/

section

variable (registered : s.Registered settings) (asks : workload.AsksFor model)
  (meets : ∀ node ∈ s.machines settings model, node.Meets workload.requirements)

include registered asks meets

/-- A placement goes through where a node of the model takes pods and has the GPUs. -/
theorem isSome_assignLease {d : DeploymentId} (hd : s.NeverFailed d) :
    (run settings (assignLease settings workload d) s).2.isSome = true ↔
      ∃ node ∈ s.machines settings model, node.takesPods = true ∧
        workload.requirements.gpuCount ≤ freeGpus node s.reservedGpus := by
  have hperm (nodes : List NodeCapability) : (byScore nodes).Perm nodes :=
    List.perm_insertionSort _ _
  have hsuits (node : NodeCapability) (hnode : node ∈ s.schedulable settings) :
      suits workload s.reservedGpus node = true ↔ node ∈ s.machines settings model ∧
        node.takesPods = true ∧ workload.requirements.gpuCount ≤ freeGpus node s.reservedGpus := by
    rw [suits_iff asks.some_gpu, asks.accepts_iff]
    constructor
    · rintro ⟨⟨hmodel, hpods, -⟩, hle⟩
      exact ⟨List.mem_filter.mpr ⟨hnode, decide_eq_true hmodel⟩, hpods, hle⟩
    · rintro ⟨hmachine, hpods, hle⟩
      have hmodel := of_decide_eq_true (List.mem_filter.mp hmachine).2
      exact ⟨⟨hmodel, hpods, meets node hmachine⟩, hle⟩
  rw [assignLease_eq]
  rcases @run_assignLeaseBy _ _ workload _ registered hd _ hperm with
    ⟨hnone, hrefused⟩ | ⟨node, hnode, hnodeSuits, -, -, -, hgranted⟩
  · rw [hrefused]
    refine iff_of_false Bool.noConfusion ?_
    rintro ⟨node, hmachine, hpods, hle⟩
    have hnode := (List.mem_filter.mp hmachine).1
    exact hnone node hnode ((hsuits node hnode).mpr ⟨hmachine, hpods, hle⟩)
  · exact iff_of_true hgranted ⟨node, (hsuits node hnode).mp hnodeSuits⟩

end

/-- A bin counts where its node is within reach. -/
theorem yard_reaches (registered : s.Registered settings)
    (hk : 0 < workload.requirements.gpuCount) {n : NodeId} {row : NodeInventory}
    (hrow : s.nodeInventory.get? n = some row) :
    (s.yard settings workload).accepts n ∧
        (s.yard settings workload).Reaches workload.requirements.gpuCount n ↔
      s.reaches settings workload row.payload = true := by
  obtain rfl : row.payload.nodeId = n := registered.keyed n row hrow
  have hsibling (sibling : NodeCapability) (hnode : sibling ∈ s.schedulable settings) :
      s.listedBy sibling.nodeId = some sibling.hotkey := by
    obtain ⟨cap, t, hcap, hmem, hinventory, -⟩ := registered.row_of_schedulable hnode
    exact Fleet.listedBy_eq_some.mpr ⟨_, cap, hinventory, rfl, hcap, List.mem_map_of_mem hmem⟩
  rw [Fleet.reaches, decide_eq_true_iff]
  refine and_congr ?_ (or_congr ?_ ⟨?_, ?_⟩)
  · change (∃ row', _ = some row' ∧ _) ↔ _
    simp only [hrow, Option.some.injEq, exists_eq_left']
  · change (∃ row', _ = some row' ∧ _) ↔ _
    simp only [hrow, Option.some.injEq, exists_eq_left']
  · rintro ⟨n, htakes, hgroup⟩
    obtain ⟨sibling, hnode, rfl, hsuits⟩ := (registered.takes_iff hk).mp htakes
    exact ⟨sibling, hnode, hsuits, hgroup.trans (hsibling sibling hnode)⟩
  · rintro ⟨sibling, hnode, hsuits, hgroup⟩
    exact ⟨sibling.nodeId, (registered.takes_iff hk).mpr ⟨sibling, hnode, rfl, hsuits⟩,
      hgroup.trans (hsibling sibling hnode).symm⟩

/-- What the bins have room for, counted over the nodes within reach. -/
theorem capacity_yard (registered : s.Registered settings)
    (hk : 0 < workload.requirements.gpuCount) :
    (s.yard settings workload).capacity workload.requirements.gpuCount =
      s.roomOn (s.withinReach settings workload) workload.requirements.gpuCount := by
  classical
  have hnodes (f : NodeCapability → ℕ) : ((listNodes s).map f).sum =
      (s.nodeInventory.rows.map fun r ↦ f r.2.payload).sum := by
    have hperm := (List.perm_insertionSort (fun a b : NodeInventory ↦ b.observedAt ≤ a.observedAt)
      (s.nodeInventory.rows.map Prod.snd)).map fun row ↦ f row.payload
    rw [listNodes, List.map_map]
    refine hperm.sum_eq.trans ?_
    rw [List.map_map]
    rfl
  rw [Yard.capacity, Fleet.roomOn, Fleet.withinReach, sum_filter_map, hnodes]
  refine (List.sum_toFinset _ s.nodeInventory.nodup).trans ?_
  rw [List.map_map]
  refine congrArg List.sum (List.map_congr_left fun r hr ↦ ?_)
  have hrow := Table.mem_rows_iff.mp hr
  exact if_congr (yard_reaches registered hk hrow) (by rw [Fleet.yard_room hrow]) rfl

theorem roomOn_split (s : Fleet) (p : NodeCapability → Bool) (nodes : List NodeCapability) (k : ℕ) :
    s.roomOn nodes k = s.roomOn (nodes.filter p) k + s.roomOn (nodes.filter fun n ↦ !p n) k := by
  rw [Fleet.roomOn, Fleet.roomOn, Fleet.roomOn, ← List.sum_append, ← List.map_append]
  exact ((List.filter_append_perm p nodes).map _).sum_eq.symm

/-- The nodes within reach are the machines that take pods, and those that a placement opens. -/
theorem roomOn_withinReach (asks : workload.AsksFor model)
    (meets : ∀ node ∈ s.machines settings model, node.Meets workload.requirements) (k : ℕ) :
    s.roomOn (s.withinReach settings workload) k =
      s.roomOn (s.podMachines settings model) k + s.roomOn (s.awoken settings workload) k := by
  have hopen : (s.withinReach settings workload).filter
      (fun node ↦ objections settings none s node = []) = s.podMachines settings model := by
    rw [Fleet.withinReach, Fleet.podMachines, Fleet.machines, Fleet.schedulable, List.filter_filter,
      List.filter_filter, List.filter_filter]
    refine List.filter_congr fun node hnode ↦ ?_
    have hmachine (hmodel : normalizeGpuModel node.gpuModel = model)
        (hclear : objections settings none s node = []) : node ∈ s.machines settings model :=
      List.mem_filter.mpr ⟨List.mem_filter.mpr ⟨hnode, decide_eq_true hclear⟩,
        decide_eq_true hmodel⟩
    rw [Bool.eq_iff_iff, Bool.and_eq_true, Bool.and_eq_true, Bool.and_eq_true, decide_eq_true_iff,
      decide_eq_true_iff, Fleet.reaches, decide_eq_true_iff, asks.accepts_iff]
    constructor
    · rintro ⟨hclear, ⟨hmodel, hpods, -⟩, -⟩
      exact ⟨⟨hpods, hmodel⟩, hclear⟩
    · rintro ⟨⟨hpods, hmodel⟩, hclear⟩
      exact ⟨hclear, ⟨hmodel, hpods, meets node (hmachine hmodel hclear)⟩, .inl hclear⟩
  rw [roomOn_split s (fun node ↦ objections settings none s node = []), hopen, Fleet.awoken]
  refine congrArg (fun nodes ↦ _ + s.roomOn nodes k) (List.filter_congr fun node _ ↦ ?_)
  exact decide_not.symm

/-! ## The result -/

/-- **What is advertised as free can be rented**, exactly where two things make no difference: the
machines that refuse pods, which are counted but not placed on; and the machines that had fallen
silent, which are not counted but opened by a placement on another machine of their miner. -/
theorem free_can_be_rented (registered : s.Registered settings) (asks : workload.AsksFor model)
    (meets : ∀ node ∈ s.machines settings model, node.Meets workload.requirements)
    {d : DeploymentId} (neverFailed : s.NeverFailed d) {alerts : Table AlertId CapacityAlert}
    {id : AlertId} {alert : CapacityAlert} (found : alerts.get? id = some alert)
    (waits : alert.state = .waiting ∧ s.now < alert.expiresAt)
    (names : alert.gpuModel = model ∧ alert.gpuCount = workload.requirements.gpuCount)
    {requests : List PlacementRequest} (count : requests.length = alert.count)
    (same : ∀ request ∈ requests, request.workload.kind = workload.kind ∧
      request.workload.requirements = workload.requirements)
    (awaits : s.Awaits requests) :
    (((run settings (assignLease settings workload d) s).2.isSome = true ↔
        workload.requirements.gpuCount ≤
          maxGpus (run settings (capacityByModel settings) s).2 model) ∧
      (id ∈ (checkOnce (freeByModel (run settings (schedulableCapacity settings) s).2) s.now
          alerts).fired ↔
        (run settings (placeAll settings requests) s).2 = true)) ↔
    ((∃ node ∈ s.otherMachines settings model,
        workload.requirements.gpuCount ≤ freeGpus node s.reservedGpus) →
      ∃ node ∈ s.podMachines settings model,
        workload.requirements.gpuCount ≤ freeGpus node s.reservedGpus) ∧
    (alert.count ≤ s.roomOn (s.podMachines settings model) alert.gpuCount +
        s.roomOn (s.otherMachines settings model) alert.gpuCount ↔
      alert.count ≤ s.roomOn (s.podMachines settings model) alert.gpuCount +
        s.roomOn (s.awoken settings workload) alert.gpuCount) := by
  obtain ⟨hmodel, hgpus⟩ := names
  have hfired : id ∈ (checkOnce (freeByModel (run settings (schedulableCapacity settings) s).2)
      s.now alerts).fired ↔ alert.count ≤ s.roomOn (s.podMachines settings model) alert.gpuCount +
        s.roomOn (s.otherMachines settings model) alert.gpuCount := by
    rw [mem_fired_checkOnce, Fleet.podMachines, Fleet.otherMachines, ← roomOn_split, ← hmodel,
      ← fits_iff]
    constructor
    · rintro ⟨alert', hfound, -, -, hfits⟩
      obtain rfl := Option.some.inj (found.symm.trans hfound)
      exact hfits
    · intro hfits
      exact ⟨alert, found, waits.1, waits.2, hfits⟩
  have hplaced : (run settings (placeAll settings requests) s).2 = true ↔
      alert.count ≤ s.roomOn (s.podMachines settings model) alert.gpuCount +
        s.roomOn (s.awoken settings workload) alert.gpuCount := by
    rw [run_placeAll asks.some_gpu same registered awaits, capacity_yard registered asks.some_gpu,
      roomOn_withinReach asks meets, count, hgpus]
  have hgranted : (run settings (assignLease settings workload d) s).2.isSome = true ↔
      ∃ node ∈ s.podMachines settings model,
        workload.requirements.gpuCount ≤ freeGpus node s.reservedGpus := by
    rw [isSome_assignLease registered asks meets neverFailed]
    simp only [Fleet.podMachines, List.mem_filter, and_assoc]
  have hadvertised : workload.requirements.gpuCount ≤
      maxGpus (run settings (capacityByModel settings) s).2 model ↔
      (∃ node ∈ s.podMachines settings model,
        workload.requirements.gpuCount ≤ freeGpus node s.reservedGpus) ∨
      ∃ node ∈ s.otherMachines settings model,
        workload.requirements.gpuCount ≤ freeGpus node s.reservedGpus := by
    rw [le_maxGpus_iff asks.some_gpu]
    simp only [Fleet.podMachines, Fleet.otherMachines, List.mem_filter]
    constructor
    · rintro ⟨node, hnode, hle⟩
      cases hpods : node.takesPods with
      | true => exact .inl ⟨node, ⟨hnode, hpods⟩, hle⟩
      | false => exact .inr ⟨node, ⟨hnode, by rw [hpods]; rfl⟩, hle⟩
    · rintro (⟨node, ⟨hnode, -⟩, hle⟩ | ⟨node, ⟨hnode, -⟩, hle⟩)
      · exact ⟨node, hnode, hle⟩
      · exact ⟨node, hnode, hle⟩
  rw [hgranted, hadvertised, hfired, hplaced]
  refine and_congr ⟨fun h hother ↦ h.mpr (.inr hother), fun h ↦ ⟨.inl, ?_⟩⟩ Iff.rfl
  rintro (hpod | hother)
  · exact hpod
  · exact h hother

/-! ### A box that is offered, one that refuses pods, and one that has fallen silent -/

/-- A box of miner 7 with four cards. -/
private def fourCards (n : NodeId) (labels : List (Text × Text)) : NodeCapability :=
  { oneNode with
    nodeId := n, serverId := some (.named n), gpuCount := 4, availableGpus := 4, labels := labels }

/-- A pod that asks for four cards. -/
private def fourCardPod : WorkloadSpec :=
  { onePod with requirements := ⟨4, 24, 1, 1, ["RTX 4090".toList]⟩ }

/-- Miner 7 is alive, and no box is known. -/
private def aliveMiner (now : Time) : Fleet :=
  { Fleet.empty with
    heartbeats := Table.empty.insert 7 ⟨true, some now⟩
    billing := { Db.empty with now := now } }

/-- One box is reported at the time of the clock. -/
private def oneBox (labels : List (Text × Text)) : Fleet :=
  upsertCapacity {} ⟨7, [fourCards 1 labels], 0⟩ (aliveMiner 0)

/-- Box 1 is reported now, box 2 was 400 seconds ago. -/
private def silentBox : Fleet :=
  upsertCapacity {} ⟨7, [fourCards 1 []], 400⟩
    (upsertCapacity {} ⟨7, [fourCards 2 []], 0⟩ (aliveMiner 400))

/-- An alert for some rentals of four cards. -/
private def fourCardAlert (count : ℕ) (h : 0 < count) : CapacityAlert :=
  ⟨1, "rtx4090".toList, 4, count, .waiting, 0, 604800, none, by decide, h⟩

private def alertsOf (alert : CapacityAlert) : Table AlertId CapacityAlert :=
  Table.empty.insert 5 alert

/-- Deployments of the pod, under the scheduler's own ranking. -/
private def fourCardRequests (ds : List DeploymentId) : List PlacementRequest :=
  ds.map fun d ↦ ⟨fourCardPod, d, byScore, fun _ ↦ List.perm_insertionSort _ _⟩

private theorem fourCardPod_asksFor : fourCardPod.AsksFor "rtx4090".toList :=
  ⟨rfl, by decide, by decide, by decide⟩

private theorem same_fourCardRequests (ds : List DeploymentId) :
    ∀ request ∈ fourCardRequests ds, request.workload.kind = fourCardPod.kind ∧
      request.workload.requirements = fourCardPod.requirements := by
  intro request hmem
  obtain ⟨d, -, rfl⟩ := List.mem_map.mp hmem
  exact ⟨rfl, rfl⟩

private theorem registered_aliveMiner (now : Time) : (aliveMiner now).Registered {} :=
  registered_of_unreported rfl rfl

private theorem inOrder_first (node : NodeCapability) {t now : Time} (h : t ≤ now) :
    (aliveMiner now).InOrder ⟨7, [node], t⟩ where
  distinct := List.nodup_singleton _
  own _ _ _ h := nomatch h
  ownServer _ _ _ _ h := nomatch h
  later _ h := nomatch h
  keeps := .inl h

private theorem registered_oneBox (labels : List (Text × Text)) : (oneBox labels).Registered {} :=
  (registered_aliveMiner 0).upsertCapacity (inOrder_first _ le_rfl)

private theorem registered_silentBox : silentBox.Registered {} := by
  have hstart : (0 : Time) ≤ 400 := by norm_num
  have hfirst := inOrder_first (fourCards 2 []) hstart
  refine ((registered_aliveMiner 400).upsertCapacity hfirst).upsertCapacity ?_
  have hmine (n : NodeId) (row : NodeInventory) (hrow : (upsertCapacity {}
      ⟨7, [fourCards 2 []], 0⟩ (aliveMiner 400)).nodeInventory.get? n = some row) :
      row.payload.hotkey = 7 := by
    rcases inventory_cases hfirst.distinct hrow with ⟨hmem, -⟩ | ⟨-, hbefore⟩
    · exact (mem_normalized hmem).1
    · exact nomatch hbefore
  refine ⟨List.nodup_singleton _, fun _ _ row hrow ↦ hmine _ row hrow,
    fun _ _ n row hrow _ ↦ hmine n row hrow, fun cap hcap ↦ ?_, .inl ?_⟩
  · rw [capacities_upsertCapacity, if_pos rfl] at hcap
    obtain rfl := Option.some.inj hcap
    norm_num
  · rw [now_upsertCapacity]
    exact le_rfl

private theorem awaits_oneBox (labels : List (Text × Text)) :
    (oneBox labels).Awaits (fourCardRequests [1]) :=
  ⟨by decide, fun _ _ ↦ rfl, fun _ _ _ _ h ↦ nomatch h⟩

/-- A box with four cards free, which takes any kind of workload. -/
theorem free_can_be_rented_box :
    ((run {} (assignLease {} fourCardPod 9) (oneBox [])).2.isSome = true ↔
        4 ≤ maxGpus (run {} (capacityByModel {}) (oneBox [])).2 "rtx4090".toList) ∧
      (5 ∈ (checkOnce (freeByModel (run {} (schedulableCapacity {}) (oneBox [])).2) 0
          (alertsOf (fourCardAlert 1 (by decide)))).fired ↔
        (run {} (placeAll {} (fourCardRequests [1])) (oneBox [])).2 = true) :=
  (free_can_be_rented (registered_oneBox []) fourCardPod_asksFor (by decide +kernel)
    (fun _ _ h ↦ nomatch h) rfl ⟨rfl, by decide +kernel⟩ ⟨rfl, rfl⟩ rfl
    (same_fourCardRequests [1]) (awaits_oneBox [])).mpr (by decide +kernel)

/-- A box that declares inference only is advertised as free for rent, and its alert fires, but no
pod is placed on it. And while one box of a miner is silent, an alert for two rentals does not fire
although two in a row are placed: the first opens the silent box for the second. -/
theorem advertised_not_rentable :
    let refusing := oneBox [("workload_kinds".toList, "inference".toList)]
    (refusing.Registered {} ∧ refusing.Awaits (fourCardRequests [1]) ∧
      (∀ node ∈ refusing.machines {} "rtx4090".toList, node.Meets fourCardPod.requirements) ∧
      4 ≤ maxGpus (run {} (capacityByModel {}) refusing).2 "rtx4090".toList ∧
      (run {} (assignLease {} fourCardPod 9) refusing).2.isSome = false ∧
      5 ∈ (checkOnce (freeByModel (run {} (schedulableCapacity {}) refusing).2) 0
        (alertsOf (fourCardAlert 1 (by decide)))).fired ∧
      (run {} (placeAll {} (fourCardRequests [1])) refusing).2 = false) ∧
    silentBox.Registered {} ∧ silentBox.Awaits (fourCardRequests [1, 2]) ∧
      (∀ node ∈ silentBox.machines {} "rtx4090".toList, node.Meets fourCardPod.requirements) ∧
      5 ∉ (checkOnce (freeByModel (run {} (schedulableCapacity {}) silentBox).2) 400
        (alertsOf (fourCardAlert 2 (by decide)))).fired ∧
      (run {} (placeAll {} (fourCardRequests [1, 2])) silentBox).2 = true :=
  ⟨⟨registered_oneBox _, awaits_oneBox _, by decide +kernel, by decide +kernel, by decide +kernel,
      by decide +kernel, by decide +kernel⟩,
    registered_silentBox, ⟨by decide, fun _ _ ↦ rfl, fun _ _ _ _ h ↦ nomatch h⟩,
    by decide +kernel, by decide +kernel, by decide +kernel⟩

end GreenCompute
