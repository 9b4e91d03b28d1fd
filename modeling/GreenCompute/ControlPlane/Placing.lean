import GreenCompute.ControlPlane.Advertised
import GreenCompute.ControlPlane.Registered
import GreenCompute.Foundations.Packing

/-!
# One placement after another

The registered nodes as bins to pack: a node is open where the scheduler has no objection to it,
its room is the GPUs that can be handed out on it, and the nodes that one miner's row lists are a
group. A placement takes the GPUs off the node that it picks, both in the holds and in the miner's
row, and it writes the whole row to do so. The write gives every node on the row, and its server,
the time of the row, so a node that had fallen silent is open again (`puts_placedOn`).

How many placements go through is therefore the capacity of the yard, and it does not depend on
which of the nodes that suit is picked (`run_placeAll`).
-/

namespace GreenCompute

open ControlPlaneRepository ControlPlaneService

variable {settings : Settings} {s : Fleet} {workload : WorkloadSpec} {d : DeploymentId}
  {node : NodeCapability} {reserved : NodeId → ℕ} {k : ℕ} {cap : Capacity} {n : NodeId}

namespace PlacementPolicy

/-- Would the node take the workload if it had the GPUs? -/
def accepts (workload : WorkloadSpec) (node : NodeCapability) : Bool :=
  let needs := workload.requirements
  (allowedKinds node = [] ∨ workload.kind.value ∈ allowedKinds node) ∧
    needs.minVramGbPerGpu ≤ node.vramGbPerGpu ∧
    needs.cpuCores ≤ node.cpuCores ∧
    needs.memoryGb ≤ node.memoryGb ∧
    (needs.supportedGpuModels = [] ∨
      normalizeGpuModel node.gpuModel ∈ needs.supportedGpuModels.map normalizeGpuModel)

/-- A node suits when it would take the workload and has the GPUs. -/
theorem suits_iff (hk : 0 < workload.requirements.gpuCount) :
    suits workload reserved node = true ↔
      accepts workload node = true ∧ workload.requirements.gpuCount ≤ freeGpus node reserved := by
  have hroom : (workload.requirements.gpuCount : ℤ) ≤ effectiveAvailableGpus node reserved ↔
      workload.requirements.gpuCount ≤ freeGpus node reserved := by
    rw [freeGpus]
    omega
  rw [suits, accepts, decide_eq_true_iff, decide_eq_true_iff, hroom]
  exact and_left_comm.trans and_comm

variable {rank : List NodeCapability → List NodeCapability} {nodes : List NodeCapability}
  {now : Time}

/-- Under any ranking a lease is of a node that suits. -/
theorem assignLeaseBy_eq_some (hrank : ∀ nodes, (rank nodes).Perm nodes) {lease : LeaseAssignment}
    (h : assignLeaseBy rank workload nodes reserved now = some lease) :
    ∃ node ∈ nodes, suits workload reserved node = true ∧ lease.hotkey = node.hotkey ∧
      lease.nodeId = node.nodeId := by
  obtain ⟨node, hhead, rfl⟩ := Option.map_eq_some_iff.mp h
  obtain ⟨hmem, hsuits⟩ := List.mem_filter.mp ((hrank _).mem_iff.mp (List.mem_of_mem_head? hhead))
  exact ⟨node, hmem, hsuits, rfl, rfl⟩

/-- There is no lease only where no node suits. -/
theorem assignLeaseBy_eq_none (hrank : ∀ nodes, (rank nodes).Perm nodes)
    (h : assignLeaseBy rank workload nodes reserved now = none) :
    ∀ node ∈ nodes, suits workload reserved node ≠ true := by
  intro node hmem hsuits
  rw [assignLeaseBy, Option.map_eq_none_iff, List.head?_eq_none_iff] at h
  have hranked : node ∈ rank (nodes.filter (suits workload reserved)) :=
    (hrank _).mem_iff.mpr (List.mem_filter.mpr ⟨hmem, hsuits⟩)
  rw [h] at hranked
  exact List.not_mem_nil hranked

end PlacementPolicy

open PlacementPolicy

/-! ## The nodes the scheduler looks at -/

/-- The nodes that the scheduler has no objection to. -/
def Fleet.schedulable (settings : Settings) (s : Fleet) : List NodeCapability :=
  (listNodes s).filter fun node ↦ objections settings none s node = []

theorem Fleet.mem_schedulable : node ∈ s.schedulable settings ↔
    ∃ n row, s.nodeInventory.get? n = some row ∧ row.payload = node ∧
      objections settings none s node = [] := by
  rw [Fleet.schedulable, List.mem_filter, mem_listNodes, decide_eq_true_iff]
  constructor
  · rintro ⟨⟨n, row, hrow, hnode⟩, hopen⟩
    exact ⟨n, row, hrow, hnode, hopen⟩
  · rintro ⟨n, row, hrow, hnode, hopen⟩
    exact ⟨⟨n, row, hrow, hnode⟩, hopen⟩

/-- No placement of the deployment has failed. -/
def Fleet.NeverFailed (s : Fleet) (d : DeploymentId) : Prop :=
  ∀ id p, s.placements.get? id = some p → p.deploymentId = d → p.cooldownUntil = none


theorem coolingDown_of_neverFailed (hd : s.NeverFailed d) (n : NodeId) :
    (run settings (coolingDown n (some d)) s).2 = false := by
  change (listPlacements 1000 s).any _ = false
  rw [List.any_eq_false]
  intro p hp hcooling
  obtain ⟨-, hdeployment, huntil⟩ := of_decide_eq_true hcooling
  have hrow := (List.mem_insertionSort _).mp (List.mem_of_mem_take hp)
  obtain ⟨⟨id, p'⟩, hmem, rfl⟩ := List.mem_map.mp hrow
  rw [hd id p' (Table.mem_rows_iff.mp hmem) hdeployment] at huntil
  exact Bool.noConfusion huntil

/-- What speaks against a node, beside a failed placement on it. -/
theorem objections_of_neverFailed (hd : s.NeverFailed d) (node : NodeCapability) :
    objections settings (some d) s node = objections settings none s node := by
  rw [objections, coolingDown_of_neverFailed hd]
  rfl

/-- The miner itself is not drained, and its heartbeat is healthy and fresh. -/
def Fleet.LiveMiner (settings : Settings) (s : Fleet) (hotkey : Hotkey) : Prop :=
  (s.drained.get? hotkey).getD false = false ∧
    heartbeatReasons settings s.now (s.heartbeats.get? hotkey) = []

/-- The server of a node was not seen for too long. -/
def Fleet.serverStale (settings : Settings) (s : Fleet) (node : NodeCapability) : Bool :=
  (node.serverId.bind s.servers.get?).any fun row ↦
    settings.serverObservedTimeoutSeconds < s.now - row.observedAt

theorem objections_eq_nil_iff : objections settings none s node = [] ↔
    s.LiveMiner settings node.hotkey ∧ nodeStale settings s.now node = false ∧
      s.serverStale settings node = false := by
  have hreason (applies : Bool) (r : SkipReason) : reason applies r = [] ↔ applies = false := by
    cases applies <;> simp [reason]
  have hcool : (run settings (coolingDown node.nodeId none) s).2 = false := rfl
  rw [objections, hcool]
  simp only [List.append_eq_nil_iff, hreason, Fleet.LiveMiner, Fleet.serverStale]
  tauto

theorem objections_ne_cooldown (node : NodeCapability) :
    objections settings none s node ≠ [.cooldown] := by
  have hcool : (run settings (coolingDown node.nodeId none) s).2 = false := rfl
  rw [objections, hcool]
  unfold heartbeatReasons
  split <;> simp [reason] <;> grind

/-- The scheduler looks at the nodes that it has no objection to, and at no others. -/
theorem run_schedulableNodes_none (settings : Settings) (s : Fleet) :
    run settings (schedulableNodes settings none) s = (s, s.schedulable settings) := by
  have hstate : (run settings (schedulableNodes settings none) s).1 = s :=
    run_of_looks settings (schedulableNodes_uses (fun _ h ↦ h) none) s
  refine Prod.ext hstate ?_
  rw [run_schedulableNodes, eligibleNodes, Fleet.schedulable, List.filter_map, List.map_map,
    List.filter_map, List.map_map]
  have hcooling : (listNodes s).filter ((fun r : NodeCapability × List SkipReason ↦
      decide (r.2 = [.cooldown])) ∘ fun node ↦ (node, objections settings none s node)) = [] := by
    refine List.filter_eq_nil_iff.mpr fun node _ ↦ ?_
    exact fun h ↦ objections_ne_cooldown node (of_decide_eq_true h)
  rw [hcooling]
  change (if ((listNodes s).filter fun node ↦ objections settings none s node = []).map id = []
    then [] else _) = _
  rw [List.map_id]
  split
  · next hnone => exact hnone.symm
  · exact List.map_id _

/-- They are the same nodes for a deployment that no placement of has failed. -/
theorem run_schedulableNodes_of_neverFailed (settings : Settings) (hd : s.NeverFailed d) :
    run settings (schedulableNodes settings (some d)) s = (s, s.schedulable settings) := by
  have hstate : (run settings (schedulableNodes settings (some d)) s).1 = s :=
    run_of_looks settings (schedulableNodes_uses (fun _ h ↦ h) (some d)) s
  refine Prod.ext hstate ?_
  have hsame := congrArg Prod.snd (run_schedulableNodes_none settings s)
  rw [run_schedulableNodes] at hsame ⊢
  rw [← hsame]
  exact congrArg _ (List.map_congr_left fun node _ ↦ by rw [objections_of_neverFailed hd])

/-! ## The write of a miner's row -/

theorem ids_adjustNode (n : NodeId) (deltaGpus : ℤ) (nodes : List NodeCapability) :
    (adjustNode n deltaGpus nodes).map NodeCapability.nodeId =
      nodes.map NodeCapability.nodeId := by
  induction nodes with
  | nil => rfl
  | cons node nodes ih =>
    rw [adjustNode]
    split_ifs
    · rfl
    · rw [List.map_cons, List.map_cons, ih]

theorem adjustNode_eq_map {nodes : List NodeCapability} (n : NodeId) (deltaGpus : ℤ)
    (hdistinct : (nodes.map NodeCapability.nodeId).Nodup) :
    adjustNode n deltaGpus nodes = nodes.map fun node ↦
      if node.nodeId = n then { node with availableGpus := node.availableGpus + deltaGpus }
      else node := by
  induction nodes with
  | nil => rfl
  | cons node nodes ih =>
    obtain ⟨hfirst, hrest⟩ := List.nodup_cons.mp hdistinct
    rw [adjustNode, List.map_cons]
    split_ifs with hn
    · -- No later node has the identifier.
      have hkeep (node' : NodeCapability) (hmem : node' ∈ nodes) : (if node'.nodeId = n then
          { node' with availableGpus := node'.availableGpus + deltaGpus } else node') = node' := by
        rw [if_neg]
        intro hn'
        have hsame : node'.nodeId = node.nodeId := hn'.trans hn.symm
        exact hfirst (hsame ▸ List.mem_map_of_mem hmem)
      rw [List.map_congr_left hkeep, List.map_id']
    · rw [ih hrest]

/-- The report that a placement of `k` GPUs on a node makes of its miner's row. -/
def rowAfter (node : NodeCapability) (k : ℕ) (cap : Capacity) : CapacityUpdate :=
  ⟨node.hotkey, adjustNode node.nodeId (-k) cap.nodes, cap.observedAt⟩

/-- A node of the row, as the write leaves it. -/
def NodeCapability.after (node listed : NodeCapability) (k : ℕ) (seen : Time) : NodeCapability :=
  { listed with
    observedAt := some seen
    availableGpus :=
      if listed.nodeId = node.nodeId then listed.availableGpus - k else listed.availableGpus }

/-- The store after `k` GPUs of a node are held for a deployment. -/
def Fleet.placedOn (settings : Settings) (s : Fleet) (d : DeploymentId) (node : NodeCapability)
    (k : ℕ) (cap : Capacity) : Fleet :=
  { upsertCapacity settings (rowAfter node k cap)
      { s with
        reservations := s.reservations.insert d ⟨node.hotkey, node.nodeId, k, .active⟩
        placementLock := true } with
    placementLock := false }

/-- A lease on a node that suits is granted, and its GPUs are held. -/
theorem run_holdNode {nodes : List NodeCapability} {assignment : LeaseAssignment}
    (hfound : nodes.find? (fun n ↦ n.nodeId = assignment.nodeId) = some node)
    (hhotkey : assignment.hotkey = node.hotkey)
    (hroom : (k : ℤ) ≤ effectiveAvailableGpus node s.reservedGpus)
    (hcap : s.capacities.get? node.hotkey = some cap) :
    run settings (holdNode nodes d k assignment) s =
      (upsertCapacity settings (rowAfter node k cap)
        { s with reservations := s.reservations.insert d ⟨node.hotkey, node.nodeId, k, .active⟩ },
        true) := by
  have hfoundNode := List.find?_some hfound
  have hnode : node.nodeId = assignment.nodeId := of_decide_eq_true hfoundNode
  have hothers : s.heldGpus node.nodeId (· ≠ d) ≤ s.reservedGpus node.nodeId := by
    rw [Fleet.heldGpus, Fleet.reservedGpus, Fleet.heldGpus]
    refine Table.total_le_total fun d' r _ ↦ ?_
    split_ifs with hother hall
    · exact le_rfl
    · exact absurd ⟨hother.1, hother.2.1, rfl⟩ hall
    · exact Nat.zero_le _
    · exact le_rfl
  have hfits : ¬node.gpuCount < s.heldGpus node.nodeId (· ≠ d) + k := by
    rw [effectiveAvailableGpus] at hroom
    omega
  have hreserve : reserveGpus d node.hotkey node.nodeId k (some node.gpuCount) s =
      ({ s with reservations := s.reservations.insert d ⟨node.hotkey, node.nodeId, k, .active⟩ },
        true) := by
    rw [reserveGpus, if_neg]
    rw [Option.any_some, decide_eq_true_iff]
    exact hfits
  rw [holdNode, run_bind, run_call, hfound, hhotkey, ← hnode]
  simp only [FleetOp.exec, Option.map_some, hreserve, if_true, run_bind, run_pure]
  rw [adjustNodeCapacity, run_bind, run_call]
  simp only [FleetOp.exec, getCapacity, hcap, Option.map_some]
  rfl

/-- A node that the scheduler has no objection to is listed in its miner's row. -/
theorem Fleet.Registered.row_of_schedulable (h : s.Registered settings)
    (hnode : node ∈ s.schedulable settings) :
    ∃ cap t, s.capacities.get? node.hotkey = some cap ∧ node ∈ cap.nodes ∧
      s.nodeInventory.get? node.nodeId = some ⟨node, t⟩ ∧
      s.Lists node.hotkey cap.observedAt node := by
  obtain ⟨n, row, hrow, rfl, hopen⟩ := Fleet.mem_schedulable.mp hnode
  obtain rfl : row.payload.nodeId = n := h.keyed n row hrow
  obtain ⟨-, hfresh, -⟩ := objections_eq_nil_iff.mp hopen
  rcases h.unlisted _ row hrow with hlisted | hstale
  · obtain ⟨cap, node, t, hcap, hmem, -, hinventory, hlists⟩ := h.listed hlisted
    obtain rfl := Option.some.inj (hinventory.symm.trans hrow)
    exact ⟨cap, t, hcap, hmem, hinventory, hlists⟩
  · exact absurd hstale (hfresh ▸ Bool.noConfusion)

theorem run_assignLeaseBy_of_neverFailed (hd : s.NeverFailed d)
    (rank : List NodeCapability → List NodeCapability) :
    run settings (assignLeaseBy settings rank workload d) s = run settings
      (match PlacementPolicy.assignLeaseBy rank workload (s.schedulable settings) s.reservedGpus
          s.now with
        | none => do
          call .unlockPlacement
          pure none
        | some assignment => do
          let held ← holdNode (s.schedulable settings) d workload.requirements.gpuCount assignment
          call .unlockPlacement
          if held then do
            let now ← call .now
            pure (some { assignment with
              expiresAt := some (now + settings.defaultLeaseTtlSeconds) })
          else pure none) { s with placementLock := true } := by
  rw [ControlPlaneService.assignLeaseBy, run_bind, run_schedulableNodes_of_neverFailed settings hd]
  rfl

/-- **One placement**: it fails where no node suits, and otherwise it is on some node that does. -/
theorem run_assignLeaseBy (h : s.Registered settings) (hd : s.NeverFailed d)
    {rank : List NodeCapability → List NodeCapability} (hrank : ∀ nodes, (rank nodes).Perm nodes) :
    ((∀ node ∈ s.schedulable settings, suits workload s.reservedGpus node ≠ true) ∧
      (run settings (assignLeaseBy settings rank workload d) s).2 = none) ∨
    ∃ node ∈ s.schedulable settings, suits workload s.reservedGpus node = true ∧
      ∃ cap, s.capacities.get? node.hotkey = some cap ∧
        (run settings (assignLeaseBy settings rank workload d) s).1 =
          s.placedOn settings d node workload.requirements.gpuCount cap ∧
        (run settings (assignLeaseBy settings rank workload d) s).2.isSome := by
  rw [run_assignLeaseBy_of_neverFailed hd]
  cases hpick : PlacementPolicy.assignLeaseBy rank workload (s.schedulable settings)
      s.reservedGpus s.now with
  | none => exact .inl ⟨assignLeaseBy_eq_none hrank hpick, rfl⟩
  | some assignment =>
    obtain ⟨node, hnode, hsuits, hhotkey, hid⟩ := assignLeaseBy_eq_some hrank hpick
    obtain ⟨cap, t, hcap, hmem, hinventory, hlists⟩ := h.row_of_schedulable hnode
    refine .inr ⟨node, hnode, hsuits, cap, hcap, ?_⟩
    -- The node that the lease names is the one that was picked: identifiers are distinct.
    have hfound : (s.schedulable settings).find? (fun n ↦ n.nodeId = assignment.nodeId) =
        some node := by
      cases hfind : (s.schedulable settings).find? (fun n ↦ n.nodeId = assignment.nodeId) with
      | none =>
        have hmissing := List.find?_eq_none.mp hfind node hnode
        exact absurd (decide_eq_true hid.symm) hmissing
      | some node' =>
        have hfoundNode := List.find?_some hfind
        have hsame : node'.nodeId = node.nodeId := (of_decide_eq_true hfoundNode).trans hid
        obtain ⟨-, t', -, -, hinventory', -⟩ :=
          h.row_of_schedulable (List.mem_of_find?_eq_some hfind)
        rw [hsame, hinventory] at hinventory'
        obtain ⟨rfl, -⟩ := NodeInventory.mk.inj (Option.some.inj hinventory')
        rfl
    let locked : Fleet := { s with placementLock := true }
    have hroom : (workload.requirements.gpuCount : ℤ) ≤
        effectiveAvailableGpus node locked.reservedGpus := by
      rw [suits, decide_eq_true_iff] at hsuits
      exact hsuits.2.1
    have hcapLocked : locked.capacities.get? node.hotkey = some cap := hcap
    dsimp only
    rw [run_bind, run_holdNode hfound hhotkey hroom hcapLocked]
    exact ⟨rfl, rfl⟩

/-! ## What a placement does to the nodes -/

theorem normalized_rowAfter (h : s.Registered settings)
    (hcap : s.capacities.get? node.hotkey = some cap) (k : ℕ) :
    (rowAfter node k cap).normalized =
      cap.nodes.map fun listed ↦ node.after listed k cap.observedAt := by
  rw [CapacityUpdate.normalized, rowAfter, adjustNode_eq_map _ _ (h.distinct _ _ hcap),
    List.map_map]
  refine List.map_congr_left fun listed hmem ↦ ?_
  have hlists := h.lists _ _ hcap listed hmem
  obtain ⟨id, -, hid, -, -⟩ := hlists.server
  change normalizeNode node.hotkey cap.observedAt (if listed.nodeId = node.nodeId then _ else _) = _
  rw [← hlists.hotkey, NodeCapability.after, normalizeNode]
  split_ifs
  · rw [hid, sub_eq_add_neg]
    rfl
  · rw [hid]
    rfl

theorem inOrder_rowAfter (h : s.Registered settings)
    (hcap : s.capacities.get? node.hotkey = some cap) (k : ℕ) :
    s.InOrder (rowAfter node k cap) := by
  have hids : (rowAfter node k cap).nodes.map NodeCapability.nodeId =
      cap.nodes.map NodeCapability.nodeId := ids_adjustNode ..
  -- What the write lists of a node is what the row listed, but for the GPUs.
  have hwritten (written : NodeCapability) (hmem : written ∈ (rowAfter node k cap).nodes) :
      ∃ listed ∈ cap.nodes, listed.nodeId = written.nodeId ∧
        listed.server node.hotkey = written.server node.hotkey := by
    rw [rowAfter, adjustNode_eq_map _ _ (h.distinct _ _ hcap)] at hmem
    obtain ⟨listed, hlisted, rfl⟩ := List.mem_map.mp hmem
    refine ⟨listed, hlisted, ?_, ?_⟩ <;> split_ifs <;> rfl
  refine ⟨hids ▸ h.distinct _ _ hcap, fun written hmem row hrow ↦ ?_,
    fun written hmem n row hrow hserver ↦ ?_, fun cap' hcap' ↦ ?_, .inr fun cap' hcap' ↦ ?_⟩
  · obtain ⟨listed, hlisted, hid, -⟩ := hwritten written hmem
    obtain ⟨hkey, ⟨t, -, -, hinventory⟩, -⟩ := h.lists _ _ hcap listed hlisted
    rw [← hid, hinventory] at hrow
    obtain rfl := Option.some.inj hrow
    exact hkey
  · obtain ⟨listed, hlisted, -, hsame⟩ := hwritten written hmem
    obtain ⟨hkey, ⟨t, -, -, hinventory⟩, id, -, hid, -, -⟩ := h.lists _ _ hcap listed hlisted
    have hlistedServer : listed.serverId = some (written.server node.hotkey) := by
      rw [← hsame, NodeCapability.server, hid]
      rfl
    exact (h.apart _ _ _ _ _ hinventory hrow hlistedServer hserver).symm.trans hkey
  · obtain rfl := Option.some.inj (hcap.symm.trans hcap')
    exact le_rfl
  · obtain rfl := Option.some.inj (hcap.symm.trans hcap')
    exact fun listed hlisted ↦ hids.symm ▸ List.mem_map_of_mem hlisted

/-- The store with the hold taken, before the row is written. -/
private abbrev heldFleet (s : Fleet) (d : DeploymentId) (node : NodeCapability) (k : ℕ) : Fleet :=
  { s with
    reservations := s.reservations.insert d ⟨node.hotkey, node.nodeId, k, .active⟩
    placementLock := true }

section

variable (h : s.Registered settings) (hcap : s.capacities.get? node.hotkey = some cap)

include h hcap

private theorem inOrder_heldFleet : (heldFleet s d node k).InOrder (rowAfter node k cap) := by
  obtain ⟨hdistinct, hown, hownServer, hlater, hkeeps⟩ := inOrder_rowAfter h hcap k
  exact ⟨hdistinct, hown, hownServer, hlater, hkeeps⟩

/-- A placement keeps the nodes registered. -/
theorem registered_placedOn (d : DeploymentId) (k : ℕ) :
    (s.placedOn settings d node k cap).Registered settings := by
  have hheld : (heldFleet s d node k).Registered settings := h.of_same rfl rfl rfl rfl
  exact (hheld.upsertCapacity (inOrder_heldFleet h hcap)).of_same rfl rfl rfl rfl

/-- A node of the row after the placement. -/
theorem inventory_placedOn {listed : NodeCapability} (hmem : listed ∈ cap.nodes) :
    (s.placedOn settings d node k cap).nodeInventory.get? listed.nodeId =
      some ⟨node.after listed k cap.observedAt, cap.observedAt⟩ := by
  have hafter : node.after listed k cap.observedAt ∈ (rowAfter node k cap).normalized := by
    rw [normalized_rowAfter h hcap]
    exact List.mem_map_of_mem hmem
  exact inventory_of_mem (inOrder_rowAfter h hcap k).distinct hafter

omit h hcap in
/-- A node that the row does not list is as it was. -/
theorem inventory_placedOn_of_not_mem (hn : n ∉ cap.nodes.map NodeCapability.nodeId) :
    (s.placedOn settings d node k cap).nodeInventory.get? n = s.nodeInventory.get? n := by
  have hids : n ∉ (rowAfter node k cap).nodes.map NodeCapability.nodeId := by
    rwa [rowAfter, ids_adjustNode]
  exact inventory_of_not_mem hids

/-- The server of a node of the row is seen at the time of the row. -/
theorem servers_placedOn {listed : NodeCapability} (hmem : listed ∈ cap.nodes) {id : ServerId}
    (hid : listed.serverId = some id) :
    (s.placedOn settings d node k cap).servers.get? id = some ⟨node.hotkey, cap.observedAt⟩ := by
  have hafter : node.after listed k cap.observedAt ∈ (rowAfter node k cap).normalized := by
    rw [normalized_rowAfter h hcap]
    exact List.mem_map_of_mem hmem
  have hserver : (node.after listed k cap.observedAt).server node.hotkey = id := by
    rw [NodeCapability.server, NodeCapability.after, hid]
    rfl
  exact hserver ▸ servers_of_mem hafter

/-- Another miner's servers are as they were. -/
theorem servers_placedOn_of_apart {row : NodeInventory} {id : ServerId}
    (hrow : s.nodeInventory.get? n = some row) (hid : row.payload.serverId = some id)
    (hother : row.payload.hotkey ≠ node.hotkey) :
    (s.placedOn settings d node k cap).servers.get? id = s.servers.get? id := by
  have hnone (written : NodeCapability) (hmem : written ∈ (rowAfter node k cap).normalized) :
      written.server (rowAfter node k cap).hotkey ≠ id := by
    refine fun hserver ↦ hother ?_
    obtain ⟨-, -, reported, hreported, -, hsame⟩ := mem_normalized hmem
    refine (inOrder_rowAfter h hcap k).ownServer reported hreported n row hrow ?_
    rw [hid, ← hserver]
    exact congrArg some hsame.symm
  exact servers_of_forall_ne hnone

end

/-- What a placement leaves of the rest: the holds have one more, and nothing else that the
scheduler looks at changes. -/
theorem placedOn_rest (settings : Settings) (s : Fleet) (d : DeploymentId) (node : NodeCapability)
    (k : ℕ) (cap : Capacity) :
    (s.placedOn settings d node k cap).now = s.now ∧
      (s.placedOn settings d node k cap).drained = s.drained ∧
      (s.placedOn settings d node k cap).heartbeats = s.heartbeats ∧
      (s.placedOn settings d node k cap).placements = s.placements ∧
      (s.placedOn settings d node k cap).reservations =
        s.reservations.insert d ⟨node.hotkey, node.nodeId, k, .active⟩ := by
  obtain ⟨capacities, inventory, servers, heq⟩ :=
    upsertCapacity_eq settings (rowAfter node k cap) (heldFleet s d node k)
  rw [Fleet.placedOn, heq]
  exact ⟨rfl, rfl, rfl, rfl, rfl⟩

/-- The GPUs held on a node grow by those of the placement, where the deployment held none. -/
theorem reservedGpus_placedOn (hfree : s.hold d = none) (n : NodeId) :
    (s.placedOn settings d node k cap).reservedGpus n =
      s.reservedGpus n + if n = node.nodeId then k else 0 := by
  obtain ⟨-, -, -, -, hreservations⟩ := placedOn_rest settings s d node k cap
  have hothers : (s.reservations.total fun d' r ↦ if d' = d then 0 else
      if r.status = .active ∧ r.nodeId = n ∧ true = true then r.gpuCount else 0) =
      s.reservedGpus n := by
    cases hrow : s.reservations.get? d with
    | none => exact Table.total_of_get?_none hrow _
    | some r =>
      have hreleased : r.status ≠ .active := by
        intro hactive
        rw [Fleet.hold, hrow, Option.filter_some, if_pos (decide_eq_true hactive)] at hfree
        cases hfree
      have hsplit := Table.total_of_get? hrow fun _ r ↦
        if r.status = .active ∧ r.nodeId = n ∧ true = true then r.gpuCount else 0
      rw [if_neg fun hall ↦ hreleased hall.1, Nat.add_zero] at hsplit
      exact hsplit.symm
  rw [Fleet.reservedGpus, Fleet.heldGpus, hreservations, Table.total_insert, hothers]
  refine congrArg _ (if_congr ?_ rfl rfl)
  exact ⟨fun hall ↦ hall.2.1.symm, fun hn ↦ ⟨rfl, hn.symm, rfl⟩⟩

/-! ## The nodes as bins -/

/-- The nodes of the inventory as bins to pack deployments of a workload into. -/
def Fleet.yard (settings : Settings) (workload : WorkloadSpec) (s : Fleet) :
    Yard NodeId (Option Hotkey) where
  bins := (s.nodeInventory.rows.map Prod.fst).toFinset
  group := s.listedBy
  accepts n := ∃ row, s.nodeInventory.get? n = some row ∧ accepts workload row.payload = true
  isOpen n := ∃ row, s.nodeInventory.get? n = some row ∧ objections settings none s row.payload = []
  room n := ((s.nodeInventory.get? n).map fun row ↦ freeGpus row.payload s.reservedGpus).getD 0

theorem Fleet.mem_yard_bins : n ∈ (s.yard settings workload).bins ↔
    ∃ row, s.nodeInventory.get? n = some row := by
  rw [Fleet.yard, List.mem_toFinset, Table.mem_keys_iff, Option.isSome_iff_exists]

theorem Fleet.yard_room {row : NodeInventory} (hrow : s.nodeInventory.get? n = some row) :
    (s.yard settings workload).room n = freeGpus row.payload s.reservedGpus := by
  change ((s.nodeInventory.get? n).map _).getD 0 = _
  rw [hrow, Option.map_some, Option.getD_some]

/-- A bin can be picked where the scheduler has a node of that identifier that suits. -/
theorem Fleet.Registered.takes_iff (h : s.Registered settings)
    (hk : 0 < workload.requirements.gpuCount) :
    (s.yard settings workload).Takes workload.requirements.gpuCount n ↔
      ∃ node ∈ s.schedulable settings, node.nodeId = n ∧
        suits workload s.reservedGpus node = true := by
  constructor
  · rintro ⟨hmem, ⟨row, hrow, haccepts⟩, ⟨row', hrow', hopen⟩, hroom⟩
    obtain rfl := Option.some.inj (hrow.symm.trans hrow')
    rw [Fleet.yard_room hrow] at hroom
    exact ⟨row.payload, Fleet.mem_schedulable.mpr ⟨n, row, hrow, rfl, hopen⟩, h.keyed n row hrow,
      (suits_iff hk).mpr ⟨haccepts, hroom⟩⟩
  · rintro ⟨node, hnode, rfl, hsuits⟩
    obtain ⟨n, row, hrow, rfl, hopen⟩ := Fleet.mem_schedulable.mp hnode
    obtain rfl : row.payload.nodeId = n := h.keyed n row hrow
    obtain ⟨haccepts, hroom⟩ := (suits_iff hk).mp hsuits
    refine ⟨Fleet.mem_yard_bins.mpr ⟨row, hrow⟩, ⟨row, hrow, haccepts⟩, ⟨row, hrow, hopen⟩, ?_⟩
    rw [Fleet.yard_room hrow]
    exact hroom

section

variable (h : s.Registered settings) (hcap : s.capacities.get? node.hotkey = some cap)

include h hcap

/-- A node is on the row and as the write leaves it, or it is not and as it was. -/
theorem inventory_placedOn_cases (d : DeploymentId) (k : ℕ) (n : NodeId) :
    (∃ listed ∈ cap.nodes, ∃ t, listed.nodeId = n ∧
      s.nodeInventory.get? n = some ⟨listed, t⟩ ∧
      (s.placedOn settings d node k cap).nodeInventory.get? n =
        some ⟨node.after listed k cap.observedAt, cap.observedAt⟩) ∨
    (n ∉ cap.nodes.map NodeCapability.nodeId ∧
      (s.placedOn settings d node k cap).nodeInventory.get? n = s.nodeInventory.get? n) := by
  by_cases hn : n ∈ cap.nodes.map NodeCapability.nodeId
  · obtain ⟨listed, hlisted, rfl⟩ := List.mem_map.mp hn
    obtain ⟨t, -, -, hinventory⟩ := (h.lists _ _ hcap listed hlisted).inventory
    exact .inl ⟨listed, hlisted, t, rfl, hinventory, inventory_placedOn h hcap hlisted⟩
  · exact .inr ⟨hn, inventory_placedOn_of_not_mem hn⟩

/-- The rows list the same nodes as before. -/
theorem listedBy_placedOn (d : DeploymentId) (k : ℕ) (n : NodeId) :
    (s.placedOn settings d node k cap).listedBy n = s.listedBy n := by
  have hkeys : ((s.placedOn settings d node k cap).nodeInventory.get? n).map
      (fun row ↦ row.payload.hotkey) = (s.nodeInventory.get? n).map fun row ↦ row.payload.hotkey := by
    rcases inventory_placedOn_cases h hcap d k n with ⟨listed, -, t, -, hrow, hrow'⟩ | ⟨-, hsame⟩
    · rw [hrow, hrow']
      rfl
    · rw [hsame]
  have hids : (rowAfter node k cap).normalized.map NodeCapability.nodeId =
      cap.nodes.map NodeCapability.nodeId := (ids_normalized _).trans (ids_adjustNode ..)
  have hlists (hotkey : Hotkey) : ((s.placedOn settings d node k cap).capacities.get? hotkey).any
      (fun cap ↦ decide (n ∈ cap.nodes.map NodeCapability.nodeId)) =
      (s.capacities.get? hotkey).any fun cap ↦ decide (n ∈ cap.nodes.map NodeCapability.nodeId) := by
    have hcapacities : (s.placedOn settings d node k cap).capacities.get? hotkey =
        if hotkey = node.hotkey then
          some ⟨mergedNodes settings (rowAfter node k cap) (s.capacities.get? node.hotkey),
            cap.observedAt⟩
        else s.capacities.get? hotkey :=
      capacities_upsertCapacity settings (rowAfter node k cap) (heldFleet s d node k) hotkey
    rw [hcapacities]
    split_ifs with hmine
    · -- The write lists every node that the row lists.
      rw [hmine, hcap, Option.any_some, Option.any_some, decide_eq_decide, mergedNodes,
        List.map_append, List.mem_append, hids, or_iff_right_iff_imp]
      intro hkept
      exact (List.filter_sublist.map _).subset hkept
    · rfl
  rw [Fleet.listedBy, Fleet.listedBy, hkeys]
  exact congrArg (Option.filter · _) (funext hlists)

/-- Every node on the row is open after a placement on one of them. -/
theorem isOpen_placedOn (hnode : node ∈ s.schedulable settings) {listed : NodeCapability}
    (hlisted : listed ∈ cap.nodes) (d : DeploymentId) (k : ℕ) :
    objections settings none (s.placedOn settings d node k cap)
      (node.after listed k cap.observedAt) = [] := by
  obtain ⟨n, row, hrow, rfl, hopen⟩ := Fleet.mem_schedulable.mp hnode
  obtain ⟨hlive, hfresh, hserverFresh⟩ := objections_eq_nil_iff.mp hopen
  obtain ⟨cap', t, hcap', hmem, -, hlists⟩ := h.row_of_schedulable hnode
  obtain rfl := Option.some.inj (hcap.symm.trans hcap')
  obtain ⟨-, ⟨t', ht', hseen, -⟩, id, server, hid, hserver, hsaw⟩ := hlists
  obtain ⟨hnow, hdrained, hheartbeats, -, -⟩ :=
    placedOn_rest settings s d row.payload k cap
  have hkey := (h.lists _ _ hcap listed hlisted).hotkey
  obtain ⟨id', -, hid', -, -⟩ := (h.lists _ _ hcap listed hlisted).server
  rw [nodeStale, ht', Option.any_some, decide_eq_false_iff_not, not_lt] at hfresh
  rw [Fleet.serverStale, hid, Option.bind_some, hserver, Option.any_some,
    decide_eq_false_iff_not, not_lt] at hserverFresh
  refine objections_eq_nil_iff.mpr ⟨?_, ?_, ?_⟩
  · change Fleet.LiveMiner settings _ listed.hotkey
    rw [hkey, Fleet.LiveMiner, hnow, hdrained, hheartbeats]
    exact hlive
  · change decide (settings.nodeInventoryTimeoutSeconds < _ - cap.observedAt) = false
    rw [hnow, decide_eq_false_iff_not, not_lt]
    linarith
  · have hafter : (row.payload.after listed k cap.observedAt).serverId = some id' := hid'
    rw [Fleet.serverStale, hafter, Option.bind_some, servers_placedOn h hcap hlisted hid',
      Option.any_some, hnow, decide_eq_false_iff_not, not_lt]
    linarith

/-- A node that the row does not list is open as before. -/
theorem isOpen_placedOn_of_not_mem {row : NodeInventory} (hrow : s.nodeInventory.get? n = some row)
    (hn : n ∉ cap.nodes.map NodeCapability.nodeId) (d : DeploymentId) (k : ℕ) :
    objections settings none (s.placedOn settings d node k cap) row.payload = [] ↔
      objections settings none s row.payload = [] := by
  obtain ⟨hnow, hdrained, hheartbeats, -, -⟩ := placedOn_rest settings s d node k cap
  rw [objections_eq_nil_iff, objections_eq_nil_iff, Fleet.LiveMiner, Fleet.LiveMiner, hnow,
    hdrained, hheartbeats]
  by_cases hmine : row.payload.hotkey = node.hotkey
  · -- The miner's row has dropped it: it is stale, before and after.
    have hstale : nodeStale settings s.now row.payload = true := by
      refine (h.unlisted n row hrow).resolve_left fun hlisted ↦ ?_
      obtain ⟨row', cap', -, -, hcap', hmem⟩ := Fleet.listedBy_eq_some.mp hlisted
      rw [hmine, hcap] at hcap'
      obtain rfl := Option.some.inj hcap'
      exact hn hmem
    simp [hstale]
  · have hserver : (s.placedOn settings d node k cap).serverStale settings row.payload =
        s.serverStale settings row.payload := by
      rw [Fleet.serverStale, Fleet.serverStale, hnow]
      cases hid : row.payload.serverId with
      | none => rfl
      | some id =>
        rw [Option.bind_some, Option.bind_some, servers_placedOn_of_apart h hcap hrow hid hmine]
    rw [hserver]

/-- **A placement is a request put into a bin.** -/
theorem puts_placedOn (hk : 0 < workload.requirements.gpuCount)
    (hnode : node ∈ s.schedulable settings) (hsuits : suits workload s.reservedGpus node = true)
    (hfree : s.hold d = none) :
    Yard.Puts workload.requirements.gpuCount node.nodeId (s.yard settings workload)
      ((s.placedOn settings d node workload.requirements.gpuCount cap).yard settings workload) := by
  obtain ⟨cap', t, hcap', hmem, hrow, hlists⟩ := h.row_of_schedulable hnode
  obtain rfl := Option.some.inj (hcap.symm.trans hcap')
  have hcases := inventory_placedOn_cases h hcap d workload.requirements.gpuCount
  have hgroup := listedBy_placedOn h hcap d workload.requirements.gpuCount
  have hlisted (n : NodeId) : s.listedBy n = some node.hotkey ↔
      n ∈ cap.nodes.map NodeCapability.nodeId := by
    constructor
    · intro hn
      obtain ⟨row, cap', -, -, hcap', hmem'⟩ := Fleet.listedBy_eq_some.mp hn
      obtain rfl := Option.some.inj (hcap.symm.trans hcap')
      exact hmem'
    · intro hn
      obtain ⟨listed, hlisted, rfl⟩ := List.mem_map.mp hn
      obtain ⟨hkey, ⟨t, -, -, hinventory⟩, -⟩ := h.lists _ _ hcap listed hlisted
      exact Fleet.listedBy_eq_some.mpr ⟨_, cap, hinventory, hkey, hcap, hn⟩
  have hnodeGroup : s.listedBy node.nodeId = some node.hotkey :=
    (hlisted node.nodeId).mpr (List.mem_map_of_mem hmem)
  refine ⟨(h.takes_iff hk).mpr ⟨node, hnode, rfl, hsuits⟩, ?_, hgroup, fun n ↦ ?_, fun n hn ↦ ?_,
    ?_, fun n hne ↦ ?_⟩
  · ext n
    rw [Fleet.mem_yard_bins, Fleet.mem_yard_bins]
    rcases hcases n with ⟨listed, -, t, -, hbefore, hafter⟩ | ⟨-, hsame⟩
    · exact iff_of_true ⟨_, hafter⟩ ⟨_, hbefore⟩
    · rw [hsame]
  · change (∃ row, _ ∧ _) ↔ ∃ row, _ ∧ _
    rcases hcases n with ⟨listed, -, t, -, hbefore, hafter⟩ | ⟨-, hsame⟩
    · rw [hbefore, hafter]
      simp only [Option.some.injEq, exists_eq_left']
      rfl
    · rw [hsame]
  · change (∃ row, _ ∧ _) ↔ (∃ row, _ ∧ _) ∨ s.listedBy n = s.listedBy node.nodeId
    rw [hnodeGroup]
    rcases hcases n with ⟨listed, hmem', t, rfl, hbefore, hafter⟩ | ⟨hn, hsame⟩
    · refine iff_of_true ⟨_, hafter, ?_⟩ (.inr ((hlisted _).mpr (List.mem_map_of_mem hmem')))
      exact isOpen_placedOn h hcap hnode hmem' d _
    · rw [hsame, or_iff_left fun hgrouped ↦ hn ((hlisted n).mp hgrouped)]
      refine exists_congr fun row ↦ and_congr_right fun hrow ↦ ?_
      exact isOpen_placedOn_of_not_mem h hcap hrow hn d _
  · have hafter : (s.placedOn settings d node workload.requirements.gpuCount
        cap).nodeInventory.get? node.nodeId = some ⟨node.after node
          workload.requirements.gpuCount cap.observedAt, cap.observedAt⟩ :=
      inventory_placedOn h hcap hmem
    rw [Fleet.yard_room hafter, Fleet.yard_room hrow, freeGpus, freeGpus]
    have hroom := ((suits_iff hk).mp hsuits).2
    rw [freeGpus] at hroom
    simp only [effectiveAvailableGpus, NodeCapability.after, reservedGpus_placedOn hfree,
      if_true] at hroom ⊢
    omega
  · rcases hcases n with ⟨listed, hmem', t, rfl, hbefore, hafter⟩ | ⟨hn, hsame⟩
    · rw [Fleet.yard_room hafter, Fleet.yard_room hbefore, freeGpus, freeGpus]
      simp only [effectiveAvailableGpus, NodeCapability.after, reservedGpus_placedOn hfree,
        if_neg hne, Nat.add_zero]
    · change ((Table.get? _ n).map _).getD 0 = ((Table.get? _ n).map _).getD 0
      rw [hsame]
      congr 1
      refine Option.map_congr fun row hrow ↦ ?_
      obtain rfl : row.payload.nodeId = n := h.keyed n row hrow
      rw [freeGpus, freeGpus, effectiveAvailableGpus, effectiveAvailableGpus,
        reservedGpus_placedOn hfree, if_neg hne, Nat.add_zero]

end

/-! ## Placements in a row -/

/-- A deployment of a workload to place, and the ranking of the nodes that suit it. -/
structure PlacementRequest where
  workload : WorkloadSpec
  deployment : DeploymentId
  rank : List NodeCapability → List NodeCapability
  rank_perm : ∀ nodes, (rank nodes).Perm nodes

/-- Requests placed one after another, while they can be. -/
def placeAll (settings : Settings) : List PlacementRequest → Program ControlPlane Bool
  | [] => pure true
  | request :: requests => do
    match ← assignLeaseBy settings request.rank request.workload request.deployment with
    | none => pure false
    | some _ => placeAll settings requests

/-- The requests are for different deployments, which hold no GPUs and had no failed placement. -/
structure Fleet.Awaits (s : Fleet) (requests : List PlacementRequest) : Prop where
  distinct : (requests.map PlacementRequest.deployment).Nodup
  free : ∀ request ∈ requests, s.hold request.deployment = none
  neverFailed : ∀ request ∈ requests, s.NeverFailed request.deployment

/-- The other requests wait as before once one is placed. -/
theorem Fleet.Awaits.placedOn {request : PlacementRequest} {requests : List PlacementRequest}
    (h : s.Awaits (request :: requests)) (node : NodeCapability) (k : ℕ) (cap : Capacity) :
    (s.placedOn settings request.deployment node k cap).Awaits requests := by
  obtain ⟨-, -, -, hplacements, hreservations⟩ :=
    placedOn_rest settings s request.deployment node k cap
  obtain ⟨hfirst, hrest⟩ := List.nodup_cons.mp h.distinct
  refine ⟨hrest, fun other hother ↦ ?_, fun other hother ↦ ?_⟩
  · have hne : other.deployment ≠ request.deployment := fun heq ↦
      hfirst (heq ▸ List.mem_map_of_mem hother)
    rw [Fleet.hold, hreservations, Table.get?_insert_ne _ hne]
    exact h.free other (List.mem_cons_of_mem _ hother)
  · rw [Fleet.NeverFailed, hplacements]
    exact h.neverFailed other (List.mem_cons_of_mem _ hother)

/-- **How many placements go through** does not depend on which nodes are picked: it is what the
bins within reach have room for. -/
theorem run_placeAll (hk : 0 < workload.requirements.gpuCount) {requests : List PlacementRequest}
    (hsame : ∀ request ∈ requests, request.workload.kind = workload.kind ∧
      request.workload.requirements = workload.requirements)
    (h : s.Registered settings) (hawaits : s.Awaits requests) :
    (run settings (placeAll settings requests) s).2 = true ↔
      requests.length ≤
        (s.yard settings workload).capacity workload.requirements.gpuCount := by
  induction requests generalizing s with
  | nil => exact iff_of_true rfl (Nat.zero_le _)
  | cons request requests ih =>
    obtain ⟨hkind, hneeds⟩ := hsame request List.mem_cons_self
    have hsuits (reserved : NodeId → ℕ) (node : NodeCapability) :
        suits request.workload reserved node = suits workload reserved node := by
      rw [suits, suits, hkind, hneeds]
    have hnew : s.NeverFailed request.deployment := hawaits.neverFailed request List.mem_cons_self
    rw [placeAll, run_bind]
    rcases @run_assignLeaseBy _ _ request.workload _ h hnew _ request.rank_perm with
      ⟨hnone, hrefused⟩ | ⟨node, hnode, hnodeSuits, cap, hcap, hplaced, hgranted⟩
    · rw [hrefused]
      refine iff_of_false Bool.noConfusion fun hle ↦ ?_
      have hpos := (Nat.succ_pos _).trans_le hle
      obtain ⟨n, htakes⟩ := (Yard.capacity_pos_iff hk).mp hpos
      obtain ⟨node, hnode, -, hnodeSuits⟩ := (h.takes_iff hk).mp htakes
      exact hnone node hnode ((hsuits _ node).trans hnodeSuits)
    · obtain ⟨lease, hlease⟩ := Option.isSome_iff_exists.mp hgranted
      rw [hsuits] at hnodeSuits
      have hputs := puts_placedOn h hcap hk hnode hnodeSuits
        (hawaits.free request List.mem_cons_self)
      rw [hneeds] at hplaced
      rw [hlease, hplaced, hputs.capacity_eq hk, List.length_cons, Nat.add_le_add_iff_right]
      exact ih (fun other hother ↦ hsame other (List.mem_cons_of_mem _ hother))
        (registered_placedOn h hcap _ _) (hawaits.placedOn node _ cap)

end GreenCompute
