import GreenCompute.ControlPlane.Reports

/-!
# Registered nodes

What reports make of the tables when the miners keep to their own: each node has one identifier and
each server one miner, and a miner's reports come in the order of their times. Then a miner's row
lists its nodes as the inventory has them, each seen no later than the row, and a node that no row
lists any more was silent for too long to be used (`Fleet.Registered`).

The row's time is the time of the miner's last report of any node. A node that was reported earlier
stays in the row with its own time for as long as the source keeps it, and a write of the whole row
gives it the row's time.
-/

namespace GreenCompute

open ControlPlaneRepository ControlPlaneService

variable {settings : Settings} {s : Fleet} {update : CapacityUpdate} {n : NodeId}

/-! ## What a report leaves -/

theorem lastNode_of_mem {nodes : List NodeCapability}
    (hdistinct : (nodes.map NodeCapability.nodeId).Nodup) {node : NodeCapability}
    (hmem : node ∈ nodes) : lastNode nodes node.nodeId = some node := by
  cases hlast : lastNode nodes node.nodeId with
  | none =>
    have hmissing := List.find?_eq_none.mp hlast node (List.mem_reverse.mpr hmem)
    exact absurd (decide_eq_true rfl) hmissing
  | some node' =>
    obtain ⟨hmem', hid⟩ := lastNode_eq_some hlast
    rw [List.inj_on_of_nodup_map hdistinct hmem' hmem hid]

/-- A node that was not reported keeps its row. -/
theorem inventory_of_not_mem (hn : n ∉ update.nodes.map NodeCapability.nodeId) :
    (upsertCapacity settings update s).nodeInventory.get? n = s.nodeInventory.get? n := by
  rw [nodeInventory_upsertCapacity]
  cases hlast : lastNode update.normalized n with
  | none => rfl
  | some node =>
    obtain ⟨hmem, rfl⟩ := lastNode_eq_some hlast
    rw [← ids_normalized] at hn
    exact absurd (List.mem_map_of_mem hmem) hn

/-- A node that was reported has the row of the report. -/
theorem inventory_of_mem (hdistinct : (update.nodes.map NodeCapability.nodeId).Nodup)
    {node : NodeCapability} (hmem : node ∈ update.normalized) :
    (upsertCapacity settings update s).nodeInventory.get? node.nodeId =
      some ⟨node, update.observedAt⟩ := by
  rw [nodeInventory_upsertCapacity, lastNode_of_mem (ids_normalized update ▸ hdistinct) hmem]
  rfl

/-- A server that a reported node is on is seen with the report. -/
theorem servers_of_mem {node : NodeCapability} (hmem : node ∈ update.normalized) :
    (upsertCapacity settings update s).servers.get? (node.server update.hotkey) =
      some ⟨update.hotkey, update.observedAt⟩ := by
  rw [servers_upsertCapacity, if_pos]
  exact List.any_eq_true.mpr ⟨node, hmem, decide_eq_true rfl⟩

/-- A server that no reported node is on keeps its row. -/
theorem servers_of_forall_ne {id : ServerId}
    (hid : ∀ node ∈ update.normalized, node.server update.hotkey ≠ id) :
    (upsertCapacity settings update s).servers.get? id = s.servers.get? id := by
  rw [servers_upsertCapacity, if_neg]
  intro hany
  obtain ⟨node, hmem, hserver⟩ := List.any_eq_true.mp hany
  exact hid node hmem (of_decide_eq_true hserver)

@[simp] theorem now_upsertCapacity (settings : Settings) (update : CapacityUpdate) (s : Fleet) :
    (upsertCapacity settings update s).now = s.now := by
  obtain ⟨capacities, inventory, servers, heq⟩ := upsertCapacity_eq settings update s
  rw [heq]
  rfl

/-! ## The invariant -/

/-- A row seen at some time has the node as the inventory has it, and neither the node nor its
server was seen later. -/
structure Fleet.Lists (s : Fleet) (hotkey : Hotkey) (seen : Time) (node : NodeCapability) :
    Prop where
  hotkey : node.hotkey = hotkey
  inventory : ∃ t, node.observedAt = some t ∧ t ≤ seen ∧
    s.nodeInventory.get? node.nodeId = some ⟨node, t⟩
  server : ∃ id row, node.serverId = some id ∧ s.servers.get? id = some row ∧
    row.observedAt ≤ seen

/-- The miner whose row lists a node. -/
def Fleet.listedBy (s : Fleet) (n : NodeId) : Option Hotkey :=
  ((s.nodeInventory.get? n).map fun row ↦ row.payload.hotkey).filter fun hotkey ↦
    (s.capacities.get? hotkey).any fun cap ↦ n ∈ cap.nodes.map NodeCapability.nodeId

/-- The nodes are registered: rows and inventory agree, a node that no row lists is stale, and a
server has nodes of one miner only. -/
structure Fleet.Registered (settings : Settings) (s : Fleet) : Prop where
  keyed : s.Keyed
  distinct : ∀ hotkey cap, s.capacities.get? hotkey = some cap →
    (cap.nodes.map NodeCapability.nodeId).Nodup
  lists : ∀ hotkey cap, s.capacities.get? hotkey = some cap → ∀ node ∈ cap.nodes,
    s.Lists hotkey cap.observedAt node
  unlisted : ∀ n row, s.nodeInventory.get? n = some row →
    s.listedBy n = some row.payload.hotkey ∨ nodeStale settings s.now row.payload = true
  apart : ∀ n n' row row' id, s.nodeInventory.get? n = some row →
    s.nodeInventory.get? n' = some row' → row.payload.serverId = some id →
    row'.payload.serverId = some id → row.payload.hotkey = row'.payload.hotkey

/-- Before any report there are no nodes to register. -/
theorem registered_of_unreported (hcapacities : s.capacities = .empty)
    (hinventory : s.nodeInventory = .empty) : s.Registered settings where
  keyed n row hrow := by
    rw [hinventory] at hrow
    exact nomatch hrow
  distinct hotkey cap hcap := by
    rw [hcapacities] at hcap
    exact nomatch hcap
  lists hotkey cap hcap := by
    rw [hcapacities] at hcap
    exact nomatch hcap
  unlisted n row hrow := by
    rw [hinventory] at hrow
    exact nomatch hrow
  apart n n' row row' id hrow := by
    rw [hinventory] at hrow
    exact nomatch hrow

theorem Fleet.listedBy_eq_some {hotkey : Hotkey} : s.listedBy n = some hotkey ↔
    ∃ row cap, s.nodeInventory.get? n = some row ∧ row.payload.hotkey = hotkey ∧
      s.capacities.get? hotkey = some cap ∧ n ∈ cap.nodes.map NodeCapability.nodeId := by
  rw [Fleet.listedBy, Option.filter_eq_some_iff, Option.map_eq_some_iff, Option.any_eq_true]
  constructor
  · rintro ⟨⟨row, hrow, hkey⟩, cap, hcap, hmem⟩
    exact ⟨row, cap, hrow, hkey, hcap, of_decide_eq_true hmem⟩
  · rintro ⟨row, cap, hrow, hkey, hcap, hmem⟩
    exact ⟨⟨row, hrow, hkey⟩, cap, hcap, decide_eq_true hmem⟩

/-- A listed node, as its row has it. -/
theorem Fleet.Registered.listed (h : s.Registered settings) {hotkey : Hotkey}
    (hlisted : s.listedBy n = some hotkey) :
    ∃ cap node t, s.capacities.get? hotkey = some cap ∧ node ∈ cap.nodes ∧ node.nodeId = n ∧
      s.nodeInventory.get? n = some ⟨node, t⟩ ∧ s.Lists hotkey cap.observedAt node := by
  obtain ⟨row, cap, -, -, hcap, hmem⟩ := Fleet.listedBy_eq_some.mp hlisted
  obtain ⟨node, hnode, rfl⟩ := List.mem_map.mp hmem
  have hlists := h.lists hotkey cap hcap node hnode
  obtain ⟨t, -, -, hinventory⟩ := hlists.inventory
  exact ⟨cap, node, t, hcap, hnode, rfl, hinventory, hlists⟩

/-- The nodes are registered wherever the machines and the clock are the same. -/
theorem Fleet.Registered.of_same {s' : Fleet} (h : s.Registered settings)
    (hcapacities : s'.capacities = s.capacities) (hinventory : s'.nodeInventory = s.nodeInventory)
    (hservers : s'.servers = s.servers) (hnow : s'.now = s.now) : s'.Registered settings where
  keyed n row hrow := h.keyed n row (hinventory ▸ hrow)
  distinct hotkey cap hcap := h.distinct hotkey cap (hcapacities ▸ hcap)
  lists hotkey cap hcap node hnode := by
    obtain ⟨hkey, hrow, hserver⟩ := h.lists hotkey cap (hcapacities ▸ hcap) node hnode
    exact ⟨hkey, hinventory.symm ▸ hrow, hservers.symm ▸ hserver⟩
  unlisted n row hrow := by
    rw [Fleet.listedBy, hcapacities, hinventory, hnow]
    exact h.unlisted n row (hinventory ▸ hrow)
  apart := by
    rw [hinventory]
    exact h.apart

/-! ## A report in order -/

/-- The report is the miner's own and in order: it lists distinct nodes, none of them and none of
their servers another miner's; it is no earlier than the miner's last one; and it is not ahead of
the clock, or leaves out none of the nodes that the row lists. -/
structure Fleet.InOrder (s : Fleet) (update : CapacityUpdate) : Prop where
  distinct : (update.nodes.map NodeCapability.nodeId).Nodup
  own : ∀ node ∈ update.nodes, ∀ row, s.nodeInventory.get? node.nodeId = some row →
    row.payload.hotkey = update.hotkey
  ownServer : ∀ node ∈ update.nodes, ∀ n row, s.nodeInventory.get? n = some row →
    row.payload.serverId = some (node.server update.hotkey) → row.payload.hotkey = update.hotkey
  later : ∀ cap, s.capacities.get? update.hotkey = some cap → cap.observedAt ≤ update.observedAt
  keeps : update.observedAt ≤ s.now ∨ ∀ cap, s.capacities.get? update.hotkey = some cap →
    ∀ node ∈ cap.nodes, node.nodeId ∈ update.nodes.map NodeCapability.nodeId

/-- What a report leaves of a node: it is the report's, or it is the miner's or another's and as it
was. -/
theorem inventory_cases (hdistinct : (update.nodes.map NodeCapability.nodeId).Nodup)
    {row : NodeInventory}
    (hrow : (upsertCapacity settings update s).nodeInventory.get? n = some row) :
    (row.payload ∈ update.normalized ∧ row.payload.nodeId = n ∧
      row.observedAt = update.observedAt) ∨
    (n ∉ update.nodes.map NodeCapability.nodeId ∧ s.nodeInventory.get? n = some row) := by
  by_cases hn : n ∈ update.nodes.map NodeCapability.nodeId
  · rw [← ids_normalized] at hn
    obtain ⟨node, hmem, rfl⟩ := List.mem_map.mp hn
    obtain rfl := Option.some.inj ((inventory_of_mem hdistinct hmem).symm.trans hrow)
    exact .inl ⟨hmem, rfl, rfl⟩
  · exact .inr ⟨hn, (inventory_of_not_mem hn).symm.trans hrow⟩

section

variable (h : s.Registered settings) (hreport : s.InOrder update)

include hreport

/-- A node that another miner's row lists, or that the row still lists, is as it was. -/
theorem lists_of_not_mem {hotkey : Hotkey} {seen seen' : Time} {node : NodeCapability}
    (hlists : s.Lists hotkey seen node) (hseen : seen ≤ seen')
    (hn : node.nodeId ∉ update.nodes.map NodeCapability.nodeId)
    (hmine : hotkey = update.hotkey → update.observedAt ≤ seen') :
    (upsertCapacity settings update s).Lists hotkey seen' node := by
  obtain ⟨t, ht, hle, hrow⟩ := hlists.inventory
  obtain ⟨id, server, hid, hserver, hsaw⟩ := hlists.server
  refine ⟨hlists.hotkey, ⟨t, ht, hle.trans hseen, (inventory_of_not_mem hn).trans hrow⟩, id, ?_⟩
  by_cases hon : ∃ reported ∈ update.normalized, reported.server update.hotkey = id
  · -- Its server has a node of the report, so the node is the miner's own.
    obtain ⟨reported, hmem, rfl⟩ := hon
    obtain ⟨-, -, reported', hmem', -, hsame⟩ := mem_normalized hmem
    have hkey := hreport.ownServer reported' hmem' node.nodeId _ hrow (hsame ▸ hid)
    exact ⟨_, hid, servers_of_mem hmem, hmine (hlists.hotkey.symm.trans hkey)⟩
  · push Not at hon
    exact ⟨server, hid, (servers_of_forall_ne hon).trans hserver, hsaw.trans hseen⟩

include h

/-- Every row lists its nodes as the inventory has them after the report. -/
theorem lists_upsertCapacity {hotkey : Hotkey} {cap : Capacity}
    (hcap : (upsertCapacity settings update s).capacities.get? hotkey = some cap)
    {node : NodeCapability} (hnode : node ∈ cap.nodes) :
    (upsertCapacity settings update s).Lists hotkey cap.observedAt node := by
  rw [capacities_upsertCapacity] at hcap
  by_cases hmine : hotkey = update.hotkey
  · rw [if_pos hmine] at hcap
    obtain rfl := Option.some.inj hcap
    rcases List.mem_append.mp hnode with hkept | hincoming
    · obtain ⟨hexisting, hkeep⟩ := List.mem_filter.mp hkept
      obtain ⟨hother, -⟩ := of_decide_eq_true hkeep
      rw [ids_normalized] at hother
      cases hbefore : s.capacities.get? update.hotkey with
      | none => simp [hbefore] at hexisting
      | some before =>
        rw [hbefore] at hexisting
        have hlists := h.lists update.hotkey before hbefore node hexisting
        rw [hmine]
        exact lists_of_not_mem hreport hlists (hreport.later before hbefore) hother
          fun _ ↦ le_rfl
    · obtain ⟨hkey, hserver, -⟩ := mem_normalized hincoming
      obtain ⟨reported, -, rfl⟩ := List.mem_map.mp hincoming
      exact ⟨hkey.trans hmine.symm,
        ⟨update.observedAt, rfl, le_rfl, inventory_of_mem hreport.distinct hincoming⟩,
        _, _, hserver, servers_of_mem hincoming, le_rfl⟩
  · rw [if_neg hmine] at hcap
    have hlists := h.lists hotkey cap hcap node hnode
    refine lists_of_not_mem hreport hlists le_rfl ?_ fun heq ↦ absurd heq hmine
    intro hn
    obtain ⟨reported, hmem, hid⟩ := List.mem_map.mp hn
    obtain ⟨t, -, -, hrow⟩ := hlists.inventory
    have hown := hreport.own reported hmem _ (hid ▸ hrow)
    exact hmine (hlists.hotkey.symm.trans hown)

/-- A node that was listed stays listed, or was silent for too long. -/
theorem unlisted_upsertCapacity {row : NodeInventory}
    (hrow : (upsertCapacity settings update s).nodeInventory.get? n = some row) :
    (upsertCapacity settings update s).listedBy n = some row.payload.hotkey ∨
      nodeStale settings (upsertCapacity settings update s).now row.payload = true := by
  rw [Fleet.listedBy_eq_some, now_upsertCapacity]
  have hmerged : (upsertCapacity settings update s).capacities.get? update.hotkey = some
      ⟨mergedNodes settings update (s.capacities.get? update.hotkey), update.observedAt⟩ := by
    rw [capacities_upsertCapacity, if_pos rfl]
  rcases inventory_cases hreport.distinct hrow with ⟨hmem, hid, -⟩ | ⟨hn, hbefore⟩
  · have hkey := (mem_normalized hmem).1
    refine .inl ⟨row, _, hrow, rfl, hkey ▸ hmerged, ?_⟩
    exact List.mem_map.mpr ⟨row.payload, List.mem_append_right _ hmem, hid⟩
  rcases h.unlisted n row hbefore with hlisted | hstale
  · obtain ⟨cap, node, t, hcap, hnode, rfl, hinventory, hlists⟩ := h.listed hlisted
    obtain rfl := Option.some.inj (hinventory.symm.trans hbefore)
    by_cases hmine : node.hotkey = update.hotkey
    · rw [hmine] at hcap
      by_cases hkept : node ∈ preservedNodes settings update.observedAt update.normalized cap.nodes
      · refine .inl ⟨_, _, hrow, rfl, hmine ▸ hmerged, ?_⟩
        rw [hmine, hcap]
        exact List.mem_map_of_mem (List.mem_append_left _ hkept)
      · -- The row no longer lists it: it was seen too long before the report, which is no later
        -- than the clock.
        right
        obtain ⟨t', ht', -, -⟩ := hlists.inventory
        have hold : t' < update.observedAt - settings.nodeInventoryTimeoutSeconds := by
          by_contra hle
          refine hkept (List.mem_filter.mpr ⟨hnode, decide_eq_true ⟨?_, ?_⟩⟩)
          · rwa [ids_normalized]
          · rintro seen hseen
            obtain rfl := Option.some.inj (ht'.symm.trans hseen)
            exact not_lt.mp hle
        have hclock : update.observedAt ≤ s.now := by
          rcases hreport.keeps with hclock | hall
          · exact hclock
          · exact absurd (hall cap hcap node hnode) hn
        rw [nodeStale, ht']
        refine decide_eq_true ?_
        linarith
    · refine .inl ⟨_, cap, hrow, rfl, ?_, List.mem_map_of_mem hnode⟩
      rw [capacities_upsertCapacity, if_neg hmine]
      exact hcap
  · exact .inr hstale

/-- **A report in order keeps the nodes registered.** -/
theorem Fleet.Registered.upsertCapacity :
    (upsertCapacity settings update s).Registered settings where
  keyed := h.keyed.upsertCapacity update
  distinct hotkey cap hcap := by
    rw [capacities_upsertCapacity] at hcap
    by_cases hmine : hotkey = update.hotkey
    · rw [if_pos hmine] at hcap
      obtain rfl := Option.some.inj hcap
      rw [mergedNodes, List.map_append, List.nodup_append]
      refine ⟨?_, (ids_normalized update).symm ▸ hreport.distinct, ?_⟩
      · cases hbefore : s.capacities.get? update.hotkey with
        | none => exact List.nodup_nil
        | some before =>
          exact (h.distinct _ before hbefore).sublist (List.filter_sublist.map _)
      · rintro id hkept _ hincoming rfl
        obtain ⟨node, hnode, rfl⟩ := List.mem_map.mp hkept
        exact (of_decide_eq_true (List.mem_filter.mp hnode).2).1 hincoming
    · rw [if_neg hmine] at hcap
      exact h.distinct hotkey cap hcap
  lists hotkey cap hcap node hnode := lists_upsertCapacity h hreport hcap hnode
  unlisted n row hrow := unlisted_upsertCapacity h hreport hrow
  apart n n' row row' id hrow hrow' hid hid' := by
    have howner (n' : NodeId) (row row' : NodeInventory) (hmem : row.payload ∈ update.normalized)
        (hid : row.payload.serverId = some id) (hbefore : s.nodeInventory.get? n' = some row')
        (hid' : row'.payload.serverId = some id) : row'.payload.hotkey = update.hotkey := by
      obtain ⟨-, hserver, reported, hreported, -, hsame⟩ := mem_normalized hmem
      refine hreport.ownServer reported hreported n' row' hbefore ?_
      rw [hid', hsame, ← hserver, hid]
    rcases inventory_cases hreport.distinct hrow with ⟨hmem, -, -⟩ | ⟨-, hbefore⟩ <;>
      rcases inventory_cases hreport.distinct hrow' with ⟨hmem', -, -⟩ | ⟨-, hbefore'⟩
    · rw [(mem_normalized hmem).1, (mem_normalized hmem').1]
    · rw [(mem_normalized hmem).1, howner n' row row' hmem hid hbefore' hid']
    · rw [(mem_normalized hmem').1, howner n row' row hmem' hid' hbefore hid]
    · exact h.apart n n' row row' id hbefore hbefore' hid hid'

end

end GreenCompute
