import GreenCompute.ControlPlane.Tables
import Mathlib.Data.List.Sort

/-!
# The placement policy

Which nodes could run a workload, in the order in which they are preferred. A miner's report of
free GPUs is only a ceiling: what may be handed out on a node is also bounded by its physical
GPUs less the holds on it (`effectiveAvailableGpus`).
-/

namespace GreenCompute

/-- `normalize_gpu_model`: lower case, letters and digits only. -/
def normalizeGpuModel (raw : Text) : Text := (Text.lower raw).filter Char.isAlphanum

/-- `effective_available_gpus` -/
def effectiveAvailableGpus (node : NodeCapability) (reserved : NodeId → ℕ) : ℤ :=
  min node.availableGpus (node.gpuCount - reserved node.nodeId)

namespace PlacementPolicy

/-- The kinds of workload a node declares it takes; a node that declares none takes all. -/
def allowedKinds (node : NodeCapability) : List Text :=
  let label := (node.labels.lookup "workload_kinds".toList).getD []
  ((label.splitOn ',').map fun k ↦ Text.lower (Text.strip k)).filter (· ≠ [])

/-- Can the node take the workload now? -/
def suits (workload : WorkloadSpec) (reserved : NodeId → ℕ) (node : NodeCapability) : Bool :=
  let needs := workload.requirements
  (allowedKinds node = [] ∨ workload.kind.value ∈ allowedKinds node) ∧
    (needs.gpuCount : ℤ) ≤ effectiveAvailableGpus node reserved ∧
    needs.minVramGbPerGpu ≤ node.vramGbPerGpu ∧
    needs.cpuCores ≤ node.cpuCores ∧
    needs.memoryGb ≤ node.memoryGb ∧
    (needs.supportedGpuModels = [] ∨
      normalizeGpuModel node.gpuModel ∈ needs.supportedGpuModels.map normalizeGpuModel)

/-- The score of a node. -/
def score (node : NodeCapability) : ℚ :=
  node.healthScore * (4 / 10) + node.reliabilityScore * (3 / 10) +
    node.performanceScore * (2 / 10) + 1 / (1 + node.hourlyCostUsd) * (1 / 10)

/-- `rank_nodes` -/
def rankNodes (workload : WorkloadSpec) (nodes : List NodeCapability) (reserved : NodeId → ℕ) :
    List NodeCapability :=
  (nodes.filter (suits workload reserved)).insertionSort fun a b ↦ score b ≤ score a

/-- `assign_lease` -/
def assignLease (workload : WorkloadSpec) (nodes : List NodeCapability) (reserved : NodeId → ℕ)
    (now : Time) : Option LeaseAssignment :=
  (rankNodes workload nodes reserved).head?.map fun selected ↦
    { workloadId := workload.workloadId
      hotkey := selected.hotkey
      nodeId := selected.nodeId
      assignedAt := now
      expiresAt := none
      status := .assigned }

variable {workload : WorkloadSpec} {nodes : List NodeCapability} {reserved : NodeId → ℕ}
  {now : Time}

theorem mem_rankNodes {node : NodeCapability} :
    node ∈ rankNodes workload nodes reserved ↔ node ∈ nodes ∧ suits workload reserved node := by
  rw [rankNodes, List.mem_insertionSort, List.mem_filter]

/-- The lease is of a node on the list that suits the workload. -/
theorem assignLease_eq_some {lease : LeaseAssignment}
    (h : assignLease workload nodes reserved now = some lease) :
    ∃ node ∈ nodes, suits workload reserved node ∧ lease.nodeId = node.nodeId ∧
      lease.hotkey = node.hotkey ∧ lease.status = .assigned := by
  obtain ⟨node, hhead, rfl⟩ := Option.map_eq_some_iff.mp h
  have hmem := mem_rankNodes.mp (List.mem_of_mem_head? hhead)
  exact ⟨node, hmem.1, hmem.2, rfl, rfl, rfl⟩

end PlacementPolicy

end GreenCompute
