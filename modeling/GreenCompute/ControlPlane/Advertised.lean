import GreenCompute.ControlPlane.Reports
import GreenCompute.Foundations.Grouping

/-!
# What is advertised as free

The public pool and the price list count the free GPUs of each model, in all and the most on one
machine, over the nodes that the scheduler would look at. Placement looks at the same nodes but
asks more of them. It is stated here with the ranking of the nodes that suit as a parameter, so
that a result about it holds whichever of them comes first.
-/

namespace GreenCompute

open ControlPlaneRepository

/-- The GPUs of a model that are free: in all, and the most together on one machine. -/
structure ModelCapacity where
  availableGpus : ℕ
  maxGpusPerDeployment : ℕ
  deriving DecidableEq

/-- The GPUs that can be handed out on a node, never less than none. -/
def freeGpus (node : NodeCapability) (reserved : NodeId → ℕ) : ℕ :=
  (effectiveAvailableGpus node reserved).toNat

namespace PlacementPolicy

/-- The order of `rank_nodes`: the highest score first. -/
def byScore (nodes : List NodeCapability) : List NodeCapability :=
  nodes.insertionSort fun a b ↦ score b ≤ score a

/-- `assign_lease` under a ranking of the nodes that suit. -/
def assignLeaseBy (rank : List NodeCapability → List NodeCapability) (workload : WorkloadSpec)
    (nodes : List NodeCapability) (reserved : NodeId → ℕ) (now : Time) :
    Option LeaseAssignment :=
  (rank (nodes.filter (suits workload reserved))).head?.map fun selected ↦
    { workloadId := workload.workloadId
      hotkey := selected.hotkey
      nodeId := selected.nodeId
      assignedAt := now
      expiresAt := none
      status := .assigned }

end PlacementPolicy

namespace ControlPlaneService

section

variable (settings : Settings)

/-! ## The counts -/

/-- `_capacity_snapshot` -/
def capacitySnapshot : Program ControlPlane
    (List NodeCapability × (NodeId → ℕ) × List (NodeCapability × ℕ)) := do
  let nodes ← schedulableNodes settings none
  let reserved ← call .reservedGpusByNode
  pure (nodes, reserved, nodes.map fun node ↦ (node, freeGpus node reserved))

/-- `schedulable_capacity` -/
def schedulableCapacity : Program ControlPlane (List (NodeCapability × ℕ)) := do
  let snapshot ← capacitySnapshot settings
  pure snapshot.2.2

/-- `_by_model`: an entry for each model, set up where its first machine is met. -/
def byModel (capacity : List (NodeCapability × ℕ)) : Table Text ModelCapacity :=
  Table.accumulate (fun machine ↦ normalizeGpuModel machine.1.gpuModel) (fun _ ↦ ⟨0, 0⟩)
    (fun machine entry ↦
      ⟨entry.availableGpus + machine.2, max entry.maxGpusPerDeployment machine.2⟩)
    .empty capacity

/-- `capacity_by_model` -/
def capacityByModel : Program ControlPlane (Table Text ModelCapacity) := do
  let capacity ← schedulableCapacity settings
  pure (byModel capacity)

/-- `placement_preview` -/
def placementPreview (workload : WorkloadSpec) :
    Program ControlPlane (Bool × Table Text ModelCapacity) := do
  let snapshot ← capacitySnapshot settings
  let canPlace := !snapshot.1.isEmpty &&
    !(PlacementPolicy.rankNodes workload snapshot.1 snapshot.2.1).isEmpty
  pure (canPlace, byModel snapshot.2.2)

/-! ## Placement under any ranking -/

/-- `_assign_lease` under a ranking of the nodes that suit. -/
def assignLeaseBy (rank : List NodeCapability → List NodeCapability) (workload : WorkloadSpec)
    (d : DeploymentId) : Program ControlPlane (Option LeaseAssignment) := do
  let nodes ← schedulableNodes settings (some d)
  call .lockPlacement
  let reserved ← call .reservedGpusByNode
  let now ← call .now
  match PlacementPolicy.assignLeaseBy rank workload nodes reserved now with
  | none => do
    call .unlockPlacement
    pure none
  | some assignment => do
    let held ← holdNode nodes d workload.requirements.gpuCount assignment
    call .unlockPlacement
    if held then do
      let now ← call .now
      pure (some { assignment with expiresAt := some (now + settings.defaultLeaseTtlSeconds) })
    else pure none

theorem assignLease_eq (workload : WorkloadSpec) (d : DeploymentId) :
    assignLease settings workload d =
      assignLeaseBy settings PlacementPolicy.byScore workload d := rfl

end

/-! ## The greatest count -/

/-- The most GPUs of a model that are free together, and none where the model has no entry. -/
def maxGpus (counts : Table Text ModelCapacity) (model : Text) : ℕ :=
  ((counts.get? model).getD ⟨0, 0⟩).maxGpusPerDeployment

/-- **What the greatest count counts**: so many GPUs are advertised as free together where one
machine of the model has them. -/
theorem le_maxGpus_byModel {capacity : List (NodeCapability × ℕ)} {model : Text} {k : ℕ}
    (hk : 0 < k) : k ≤ maxGpus (byModel capacity) model ↔
      ∃ machine ∈ capacity, normalizeGpuModel machine.1.gpuModel = model ∧ k ≤ machine.2 := by
  rw [maxGpus, byModel, Table.getD_accumulate, Table.get?_empty, Option.getD_none]
  induction capacity using List.reverseRecOn with
  | nil => simp [hk.ne']
  | append_singleton capacity machine ih =>
    simp only [List.mem_append, List.mem_singleton, or_and_right, exists_or, exists_eq_left]
    rw [List.filter_append, List.foldl_append, ← ih, List.filter_singleton]
    by_cases hm : normalizeGpuModel machine.1.gpuModel = model
    · rw [decide_eq_true hm, cond_true, List.foldl_cons, List.foldl_nil, le_max_iff]
      exact or_congr_right (and_iff_right hm).symm
    · rw [decide_eq_false hm, cond_false, List.foldl_nil, or_iff_left fun h ↦ hm h.1]

end ControlPlaneService

end GreenCompute
