import GreenCompute.ControlPlane.Reports

/-!
# How long ago a node was seen

The control plane judges a machine by the time its node was last reported, and several machines may
report under one key, each its own nodes. Moving a node's availability goes through the same merge
as a report: it reads the miner's capacity row and writes all its nodes back under the row's one
timestamp. So a node is as old as its last report as long as every such write finds each node of the
row still stored with the row's own timestamp.
-/

namespace GreenCompute

open ControlPlaneRepository ControlPlaneService

variable {settings : Settings} {protocol : Protocol} {s : Fleet} {hotkey : Hotkey}

/-- When a node was seen last, by the inventory. -/
def Fleet.seenAt (s : Fleet) (n : NodeId) : Option Time :=
  (s.nodeInventory.get? n).map NodeInventory.observedAt

/-- The report that an operation of a call is, if it is one. -/
def reportOf : FleetCall → FleetOp → Option CapacityUpdate
  | .updateCapacity _, .upsertCapacity update => some update
  | _, _ => none

/-- The time an operation reports a node with. -/
def reportTime (n : NodeId) (entry : Entry ControlPlane FleetCall) : Option Time :=
  (reportOf entry.call entry.event.1).bind fun update ↦
    if n ∈ update.nodes.map NodeCapability.nodeId then some update.observedAt else none

/-- The time of the last report of a node. -/
def lastReport (n : NodeId) (log : List (Entry ControlPlane FleetCall)) : Option Time :=
  log.reverse.findSome? (reportTime n)

theorem lastReport_concat (n : NodeId) (log : List (Entry ControlPlane FleetCall))
    (entry : Entry ControlPlane FleetCall) :
    lastReport n (log ++ [entry]) = (reportTime n entry).or (lastReport n log) := by
  rw [lastReport, List.reverse_append, List.reverse_singleton, List.singleton_append,
    List.findSome?_cons]
  cases reportTime n entry <;> rfl

/-- All reports are of one miner and come in the order of their times, and where a call other than a
report writes nodes, each of them was seen last at the time it is written with. -/
def stampedByReports (hotkey : Hotkey) : Guard ControlPlane FleetCall Fleet
  | .updateCapacity _, _, .upsertCapacity update, s => update.hotkey = hotkey ∧
    ∀ node ∈ update.nodes, ∀ t ∈ s.seenAt node.nodeId, t ≤ update.observedAt
  | _, _, .upsertCapacity update, s =>
    ∀ node ∈ update.nodes, s.seenAt node.nodeId = some update.observedAt
  | _, _, _, _ => True

instance (c : FleetCall) (past : List (Event ControlPlane)) (o : FleetOp) (s : Fleet) :
    Decidable (stampedByReports hotkey c past o s) := by
  rcases o with _ | _
  case upsertCapacity => rcases c with _ | _ <;> unfold stampedByReports <;> infer_instance
  all_goals exact isTrue (by cases c <;> trivial)

/-! ## One operation -/

/-- A write stamps the nodes that it lists. -/
theorem seenAt_upsertCapacity (update : CapacityUpdate) (s : Fleet) (n : NodeId) :
    (upsertCapacity settings update s).seenAt n =
      if n ∈ update.nodes.map NodeCapability.nodeId then some update.observedAt
      else s.seenAt n := by
  rw [Fleet.seenAt, nodeInventory_upsertCapacity, ← ids_normalized]
  cases hlast : lastNode update.normalized n with
  | none =>
    rw [if_neg]
    · rfl
    · intro hmem
      obtain ⟨node, hnode, rfl⟩ := List.mem_map.mp hmem
      rw [lastNode] at hlast
      have hmissing := List.find?_eq_none.mp hlast node (List.mem_reverse.mpr hnode)
      exact hmissing (decide_eq_true rfl)
  | some node =>
    obtain ⟨hmem, rfl⟩ := lastNode_eq_some hlast
    rw [if_pos (List.mem_map_of_mem hmem)]
    rfl

/-- Each node carries the time of its last report, in the inventory and in the miner's row. -/
structure Fresh (hotkey : Hotkey) (log : List (Entry ControlPlane FleetCall)) (s : Fleet) :
    Prop where
  seen : ∀ n, s.seenAt n = lastReport n log
  payload : ∀ n row, s.nodeInventory.get? n = some row →
    row.payload.observedAt = some row.observedAt
  capacity : ∀ row, s.capacities.get? hotkey = some row → ∀ node ∈ row.nodes,
    node.observedAt = lastReport node.nodeId log

/-- A write of another call than a report leaves the nodes at the times they were seen. -/
theorem restamped {c : FleetCall} {past : List (Event ControlPlane)} {update : CapacityUpdate}
    (guarded : stampedByReports hotkey c past (.upsertCapacity update) s)
    (hc : ¬∃ reported, c = .updateCapacity reported) :
    reportOf c (.upsertCapacity update) = none ∧
      ∀ n ∈ update.nodes.map NodeCapability.nodeId, s.seenAt n = some update.observedAt := by
  cases c with
  | updateCapacity reported => exact absurd ⟨reported, rfl⟩ hc
  | _ =>
    refine ⟨rfl, fun n hn ↦ ?_⟩
    obtain ⟨node, hnode, rfl⟩ := List.mem_map.mp hn
    exact guarded node hnode

/-- What the log says after a write that the guard lets through. -/
theorem lastReport_upsertCapacity {c : FleetCall} {past : List (Event ControlPlane)}
    {update : CapacityUpdate} {log : List (Entry ControlPlane FleetCall)} (h : Fresh hotkey log s)
    (guarded : stampedByReports hotkey c past (.upsertCapacity update) s) (n : NodeId) :
    lastReport n (log ++ [⟨c, ⟨.upsertCapacity update, ()⟩⟩]) =
      if n ∈ update.nodes.map NodeCapability.nodeId then some update.observedAt
      else lastReport n log := by
  rw [lastReport_concat]
  by_cases hreport : ∃ reported, c = .updateCapacity reported
  · obtain ⟨reported, rfl⟩ := hreport
    change (if n ∈ update.nodes.map NodeCapability.nodeId then some update.observedAt
      else none).or _ = _
    split <;> rfl
  · obtain ⟨hnone, hseen⟩ := restamped guarded hreport
    rw [reportTime, hnone, Option.bind_none, Option.none_or]
    split
    · next hmem => rw [← h.seen, hseen n hmem]
    · rfl

theorem Fresh.exec {c : FleetCall} {past : List (Event ControlPlane)} {o : FleetOp}
    {log : List (Entry ControlPlane FleetCall)} (h : Fresh hotkey log s)
    (guarded : stampedByReports hotkey c past o s) :
    Fresh hotkey (log ++ [⟨c, ⟨o, (o.exec settings s).2⟩⟩]) (o.exec settings s).1 := by
  by_cases hwrite : o.reports = true
  · cases o with
    | upsertCapacity update =>
      have hlast := lastReport_upsertCapacity h guarded
      refine ⟨fun n ↦ ?_, fun n row hrow ↦ ?_, fun row hrow node hnode ↦ ?_⟩
      · rw [hlast, ← h.seen]
        exact seenAt_upsertCapacity update s n
      · have hrow' : (upsertCapacity settings update s).nodeInventory.get? n = some row := hrow
        rw [nodeInventory_upsertCapacity] at hrow'
        cases hnode : lastNode update.normalized n with
        | none =>
          rw [hnode] at hrow'
          exact h.payload n row hrow'
        | some node =>
          rw [hnode] at hrow'
          obtain rfl := Option.some.inj hrow'
          obtain ⟨reported, -, rfl⟩ := List.mem_map.mp (lastNode_eq_some hnode).1
          rfl
      · have hrow' : (upsertCapacity settings update s).capacities.get? hotkey = some row := hrow
        rw [capacities_upsertCapacity] at hrow'
        rw [hlast]
        by_cases hmine : hotkey = update.hotkey
        · rw [if_pos hmine] at hrow'
          obtain rfl := Option.some.inj hrow'
          rcases List.mem_append.mp hnode with hkept | hincoming
          · -- A node that is kept is not among those written.
            obtain ⟨hexisting, hkeep⟩ := List.mem_filter.mp hkept
            obtain ⟨hother, -⟩ := of_decide_eq_true hkeep
            rw [ids_normalized] at hother
            rw [if_neg hother]
            rw [← hmine] at hexisting
            cases hbefore : s.capacities.get? hotkey with
            | none => simp [hbefore] at hexisting
            | some before =>
              rw [hbefore] at hexisting
              exact h.capacity before hbefore node hexisting
          · rw [if_pos (ids_normalized update ▸ List.mem_map_of_mem hincoming)]
            obtain ⟨reported, -, rfl⟩ := List.mem_map.mp hincoming
            rfl
        · -- Another miner's row is written, by a call that is no report.
          rw [if_neg hmine] at hrow'
          have hbefore := h.capacity row hrow' node hnode
          have hreport : ¬∃ reported, c = .updateCapacity reported := by
            rintro ⟨reported, rfl⟩
            exact hmine guarded.1.symm
          split
          · next hmem => rw [hbefore, ← h.seen, (restamped guarded hreport).2 _ hmem]
          · exact hbefore
    | _ => cases hwrite
  · have hleaves := leaves_exec settings o s
    have hquiet := Bool.not_eq_true _ ▸ hwrite
    have hlog (n : NodeId) :
        lastReport n (log ++ [⟨c, ⟨o, (o.exec settings s).2⟩⟩]) = lastReport n log := by
      have hnone : reportOf c o = none := by
        cases o with
        | upsertCapacity => exact absurd rfl hwrite
        | _ => cases c <;> rfl
      rw [lastReport_concat, reportTime, hnone]
      rfl
    refine ⟨fun n ↦ ?_, ?_, ?_⟩
    · rw [hlog, Fleet.seenAt, hleaves.nodeInventory hquiet]
      exact h.seen n
    · rw [hleaves.nodeInventory hquiet]
      exact h.payload
    · rw [hleaves.capacities hquiet]
      exact fun row hrow node hnode ↦ (hlog node.nodeId).symm ▸ h.capacity row hrow node hnode

/-- A node's time does not go back. -/
theorem seenAt_exec {c : FleetCall} {past : List (Event ControlPlane)} {o : FleetOp} {n : NodeId}
    {t : Time} (guarded : stampedByReports hotkey c past o s)
    (h : ∃ t' ∈ s.seenAt n, t ≤ t') : ∃ t' ∈ (o.exec settings s).1.seenAt n, t ≤ t' := by
  obtain ⟨t', ht', hle⟩ := h
  by_cases hwrite : o.reports = true
  · cases o with
    | upsertCapacity update =>
      change ∃ t' ∈ (upsertCapacity settings update s).seenAt n, t ≤ t'
      rw [seenAt_upsertCapacity]
      by_cases hmem : n ∈ update.nodes.map NodeCapability.nodeId
      · rw [if_pos hmem]
        refine ⟨update.observedAt, rfl, ?_⟩
        by_cases hreport : ∃ reported, c = .updateCapacity reported
        · obtain ⟨reported, rfl⟩ := hreport
          obtain ⟨node, hnode, rfl⟩ := List.mem_map.mp hmem
          exact hle.trans (guarded.2 node hnode t' ht')
        · have hseen := (restamped guarded hreport).2 n hmem
          exact hle.trans_eq (Option.some.inj (ht'.symm.trans hseen))
      · rw [if_neg hmem]
        exact ⟨t', ht', hle⟩
    | _ => cases hwrite
  · rw [Fleet.seenAt, (leaves_exec settings o s).nodeInventory (Bool.not_eq_true _ ▸ hwrite)]
    exact ⟨t', ht', hle⟩

/-! ## Every run -/

/-- User 1 and the rental, with no call in progress. -/
private def idleFleet : World ControlPlane FleetCall Fleet := ⟨podOwner 0, []⟩

/-- The moves of a call made as a whole. -/
private def wholly (i : ℕ) (c : FleetCall) (operations : ℕ) : List (Move FleetCall) :=
  .start c :: List.replicate operations (.step i)

end GreenCompute
