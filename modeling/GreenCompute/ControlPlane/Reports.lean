import GreenCompute.ControlPlane.Metering

/-!
# What miners report

Each miner reports its nodes and that it is alive. The capacity rows and the heartbeats are kept
under the miner's key, but the inventory is kept under the identifiers of the nodes and the servers
under theirs, and a miner may put any identifier into a report. What is known of a miner's machines
is what the miner's own reports make it, as long as no other miner reports a node or a server that
is the miner's.
-/

namespace GreenCompute

open ControlPlaneRepository ControlPlaneService

variable {settings : Settings} {protocol : Protocol} {s s' t : Fleet} {b : Hotkey}

/-! ## What a report makes of the inventory -/

/-- The server that a reported node is put on. -/
def NodeCapability.server (hotkey : Hotkey) (node : NodeCapability) : ServerId :=
  node.serverId.getD (.ofHotkey hotkey)

/-- The last of some nodes with an identifier. -/
def lastNode (nodes : List NodeCapability) (n : NodeId) : Option NodeCapability :=
  nodes.reverse.find? fun node ↦ node.nodeId = n

section

variable (hotkey : Hotkey) (observedAt : Time) (nodes : List NodeCapability)

/-- The inventory after some nodes are recorded: the last one under an identifier stays. -/
theorem nodeInventory_foldl_recordNode (s : Fleet) (n : NodeId) :
    (nodes.foldl (recordNode hotkey observedAt) s).nodeInventory.get? n =
      ((lastNode nodes n).map fun node ↦ ⟨node, observedAt⟩).or (s.nodeInventory.get? n) := by
  induction nodes using List.reverseRecOn with
  | nil => rfl
  | append_singleton nodes node ih =>
    rw [List.foldl_append, List.foldl_cons, List.foldl_nil, recordNode, Table.get?_insert, lastNode,
      List.reverse_append, List.reverse_singleton, List.singleton_append, List.find?_cons]
    by_cases hn : node.nodeId = n
    · rw [if_pos hn.symm, decide_eq_true hn]
      rfl
    · rw [if_neg (Ne.symm hn), decide_eq_false hn]
      exact ih

/-- The servers after some nodes are recorded: each node's server is seen. -/
theorem servers_foldl_recordNode (s : Fleet) (id : ServerId) :
    (nodes.foldl (recordNode hotkey observedAt) s).servers.get? id =
      if nodes.any (fun node ↦ node.server hotkey = id) then some ⟨hotkey, observedAt⟩
      else s.servers.get? id := by
  induction nodes using List.reverseRecOn with
  | nil => rfl
  | append_singleton nodes node ih =>
    rw [List.foldl_append, List.foldl_cons, List.foldl_nil, recordNode, Table.get?_insert,
      ← NodeCapability.server, List.any_append, List.any_cons, List.any_nil, Bool.or_false]
    by_cases hid : node.server hotkey = id
    · rw [if_pos hid.symm, decide_eq_true hid, Bool.or_true, if_pos rfl]
    · rw [if_neg (Ne.symm hid), decide_eq_false hid, Bool.or_false]
      exact ih

end

/-- The nodes of a report, as they are kept. -/
def CapacityUpdate.normalized (update : CapacityUpdate) : List NodeCapability :=
  update.nodes.map (normalizeNode update.hotkey update.observedAt)

theorem ids_normalized (update : CapacityUpdate) :
    update.normalized.map NodeCapability.nodeId = update.nodes.map NodeCapability.nodeId := by
  rw [CapacityUpdate.normalized, List.map_map]
  rfl

section

variable (settings : Settings) (update : CapacityUpdate) (s : Fleet)

theorem nodeInventory_upsertCapacity (n : NodeId) :
    (upsertCapacity settings update s).nodeInventory.get? n =
      ((lastNode update.normalized n).map fun node ↦ ⟨node, update.observedAt⟩).or
        (s.nodeInventory.get? n) :=
  nodeInventory_foldl_recordNode ..

theorem servers_upsertCapacity (id : ServerId) :
    (upsertCapacity settings update s).servers.get? id =
      if update.normalized.any (fun node ↦ node.server update.hotkey = id) then
        some ⟨update.hotkey, update.observedAt⟩
      else s.servers.get? id :=
  servers_foldl_recordNode ..

/-- The nodes of a miner after its report. -/
def mergedNodes (existing : Option Capacity) : List NodeCapability :=
  preservedNodes settings update.observedAt update.normalized
    ((existing.map Capacity.nodes).getD []) ++ update.normalized

theorem capacities_upsertCapacity (hotkey : Hotkey) :
    (upsertCapacity settings update s).capacities.get? hotkey =
      if hotkey = update.hotkey then
        some ⟨mergedNodes settings update (s.capacities.get? update.hotkey), update.observedAt⟩
      else s.capacities.get? hotkey := by
  obtain ⟨inventory, servers, h⟩ := foldl_recordNode_eq update.hotkey update.observedAt
    update.normalized { s with
      capacities := s.capacities.insert update.hotkey
        ⟨mergedNodes settings update (s.capacities.get? update.hotkey), update.observedAt⟩ }
  -- The nodes are recorded after the capacity row is merged, and leave it alone.
  have hrow := congrArg (fun f : Fleet ↦ f.capacities.get? hotkey) h
  exact hrow.trans (Table.get?_insert ..)

end

/-- What a node that is kept carries. -/
theorem mem_normalized {update : CapacityUpdate} {node : NodeCapability}
    (h : node ∈ update.normalized) : node.hotkey = update.hotkey ∧
      node.serverId = some (node.server update.hotkey) ∧
      ∃ reported ∈ update.nodes, reported.nodeId = node.nodeId ∧
        reported.server update.hotkey = node.server update.hotkey := by
  obtain ⟨reported, hmem, rfl⟩ := List.mem_map.mp h
  exact ⟨rfl, rfl, reported, hmem, rfl, rfl⟩

theorem lastNode_eq_some {nodes : List NodeCapability} {n : NodeId} {node : NodeCapability}
    (h : lastNode nodes n = some node) : node ∈ nodes ∧ node.nodeId = n := by
  rw [lastNode] at h
  have hfound := List.find?_some h
  exact ⟨List.mem_reverse.mp (List.mem_of_find?_eq_some h), of_decide_eq_true hfound⟩

/-! ## What is known of a miner -/

/-- What the tables know of one miner's machines. -/
@[ext]
structure Machines where
  capacity : Option Capacity
  heartbeat : Option Heartbeat
  nodes : NodeId → Option NodeInventory
  servers : ServerId → Option Server

/-- The rows of a miner. -/
def Fleet.machinesOf (s : Fleet) (b : Hotkey) : Machines where
  capacity := s.capacities.get? b
  heartbeat := s.heartbeats.get? b
  nodes n := (s.nodeInventory.get? n).filter fun row ↦ row.payload.hotkey = b
  servers id := (s.servers.get? id).filter fun row ↦ row.hotkey = b

/-- A node is the miner's: it is in the inventory under the miner's key, or the miner has a lease
on it. -/
def Fleet.Claims (s : Fleet) (b : Hotkey) (n : NodeId) : Prop :=
  (∃ row ∈ s.nodeInventory.rows, row.1 = n ∧ row.2.payload.hotkey = b) ∨
    ∃ row ∈ s.leases.rows, row.2.nodeId = n ∧ row.2.hotkey = b

/-- A server is the miner's: it was seen last with the miner's key, or one of its nodes is on it. -/
def Fleet.ClaimsServer (s : Fleet) (b : Hotkey) (id : ServerId) : Prop :=
  (∃ row ∈ s.servers.rows, row.1 = id ∧ row.2.hotkey = b) ∨
    ∃ row ∈ s.nodeInventory.rows, row.2.payload.hotkey = b ∧ row.2.payload.serverId = some id

instance (s : Fleet) (b : Hotkey) (n : NodeId) : Decidable (s.Claims b n) :=
  inferInstanceAs (Decidable (_ ∨ _))

instance (s : Fleet) (b : Hotkey) (id : ServerId) : Decidable (s.ClaimsServer b id) :=
  inferInstanceAs (Decidable (_ ∨ _))

/-- The calls are reports, and no other miner reports a node or a server that is the miner's. -/
def reportsApart (b : Hotkey) : FleetCall → Fleet → Prop
  | .updateCapacity update, s => update.hotkey ≠ b → ∀ node ∈ update.nodes,
    ¬s.Claims b node.nodeId ∧ ¬s.ClaimsServer b (node.server update.hotkey)
  | .recordHeartbeat .., _ | .advance _, _ => True
  | _, _ => False

instance (c : FleetCall) (s : Fleet) : Decidable (reportsApart b c s) := by
  unfold reportsApart
  split <;> infer_instance

/-- The calls that stay when the other miners' reports are left out. -/
def FleetCall.concerns (b : Hotkey) : FleetCall → Bool
  | updateCapacity update => update.hotkey = b
  | recordHeartbeat hotkey _ => hotkey = b
  | _ => true

/-- Two stores look the same where one miner is concerned. -/
structure SameFor (b : Hotkey) (s t : Fleet) : Prop where
  now : s.now = t.now
  drained : s.drained = t.drained
  leases : s.leases = t.leases
  placements : s.placements = t.placements
  machines : s.machinesOf b = t.machinesOf b
  server : ∀ n row id, s.nodeInventory.get? n = some row → row.payload.hotkey = b →
    row.payload.serverId = some id → s.servers.get? id = t.servers.get? id
  leased : ∀ d lease, s.leases.get? d = some lease → lease.hotkey = b →
    s.nodeInventory.get? lease.nodeId = t.nodeInventory.get? lease.nodeId

theorem SameFor.refl (b : Hotkey) (s : Fleet) : SameFor b s s :=
  ⟨rfl, rfl, rfl, rfl, rfl, fun _ _ _ _ _ _ ↦ rfl, fun _ _ _ _ ↦ rfl⟩

theorem claims_of_node {n : NodeId} {row : NodeInventory} (h : s.nodeInventory.get? n = some row)
    (hb : row.payload.hotkey = b) : s.Claims b n :=
  .inl ⟨(n, row), Table.mem_rows_iff.mpr h, rfl, hb⟩

theorem claims_of_lease {d : DeploymentId} {lease : LeaseAssignment}
    (h : s.leases.get? d = some lease) (hb : lease.hotkey = b) : s.Claims b lease.nodeId :=
  .inr ⟨(d, lease), Table.mem_rows_iff.mpr h, rfl, hb⟩

theorem claimsServer_of_server {id : ServerId} {row : Server} (h : s.servers.get? id = some row)
    (hb : row.hotkey = b) : s.ClaimsServer b id :=
  .inl ⟨(id, row), Table.mem_rows_iff.mpr h, rfl, hb⟩

theorem claimsServer_of_node {n : NodeId} {id : ServerId} {row : NodeInventory}
    (h : s.nodeInventory.get? n = some row) (hb : row.payload.hotkey = b)
    (hid : row.payload.serverId = some id) : s.ClaimsServer b id :=
  .inr ⟨(n, row), Table.mem_rows_iff.mpr h, hb, hid⟩

/-! ### Another miner's report -/

section

variable {update : CapacityUpdate} {n : NodeId} {id : ServerId}
  (apart : ∀ node ∈ update.nodes,
    ¬s.Claims b node.nodeId ∧ ¬s.ClaimsServer b (node.server update.hotkey))

include apart

theorem nodeInventory_of_claims (h : s.Claims b n) :
    (upsertCapacity settings update s).nodeInventory.get? n = s.nodeInventory.get? n := by
  rw [nodeInventory_upsertCapacity]
  cases hlast : lastNode update.normalized n with
  | none => rfl
  | some node =>
    obtain ⟨hmem, rfl⟩ := lastNode_eq_some hlast
    obtain ⟨-, -, reported, hreported, hnode, -⟩ := mem_normalized hmem
    exact absurd h (hnode ▸ (apart reported hreported).1)

theorem servers_of_claims (h : s.ClaimsServer b id) :
    (upsertCapacity settings update s).servers.get? id = s.servers.get? id := by
  rw [servers_upsertCapacity, if_neg]
  intro hany
  obtain ⟨node, hmem, hid⟩ := List.any_eq_true.mp hany
  obtain ⟨-, -, reported, hreported, -, hserver⟩ := mem_normalized hmem
  refine (apart reported hreported).2 ?_
  rwa [hserver, of_decide_eq_true hid]

/-- It touches none of the miner's rows. -/
theorem machinesOf_upsertCapacity (hb : update.hotkey ≠ b) :
    (upsertCapacity settings update s).machinesOf b = s.machinesOf b := by
  obtain ⟨capacities, inventory, servers, heq⟩ := upsertCapacity_eq settings update s
  have hcapacity : (upsertCapacity settings update s).capacities.get? b = s.capacities.get? b := by
    rw [capacities_upsertCapacity, if_neg (Ne.symm hb)]
  have hheartbeat : (upsertCapacity settings update s).heartbeats = s.heartbeats := by rw [heq]
  have hnodes : ((upsertCapacity settings update s).machinesOf b).nodes =
      (s.machinesOf b).nodes := by
    funext n
    by_cases hclaims : s.Claims b n
    · exact congrArg (Option.filter _) (nodeInventory_of_claims apart hclaims)
    · -- Neither the node there was nor the one reported is the miner's.
      have hbefore : (s.nodeInventory.get? n).filter (fun row ↦ row.payload.hotkey = b) = none := by
        refine Option.filter_eq_none_iff.mpr fun row hrow hmine ↦ ?_
        exact hclaims (claims_of_node hrow (of_decide_eq_true hmine))
      have hafter : ((upsertCapacity settings update s).nodeInventory.get? n).filter
          (fun row ↦ row.payload.hotkey = b) = none := by
        rw [nodeInventory_upsertCapacity]
        cases hlast : lastNode update.normalized n with
        | none => exact hbefore
        | some node =>
          have hnode := (mem_normalized (lastNode_eq_some hlast).1).1
          exact Option.filter_eq_none_iff.mpr fun row hrow hmine ↦ by
            obtain rfl := Option.some.inj hrow
            exact hb (hnode.symm.trans (of_decide_eq_true hmine))
      exact hafter.trans hbefore.symm
  have hservers : ((upsertCapacity settings update s).machinesOf b).servers =
      (s.machinesOf b).servers := by
    funext id
    by_cases hclaims : s.ClaimsServer b id
    · exact congrArg (Option.filter _) (servers_of_claims apart hclaims)
    · have hbefore : (s.servers.get? id).filter (fun row ↦ row.hotkey = b) = none := by
        refine Option.filter_eq_none_iff.mpr fun row hrow hmine ↦ ?_
        exact hclaims (claimsServer_of_server hrow (of_decide_eq_true hmine))
      have hafter : ((upsertCapacity settings update s).servers.get? id).filter
          (fun row ↦ row.hotkey = b) = none := by
        rw [servers_upsertCapacity]
        split
        · exact Option.filter_eq_none_iff.mpr fun row hrow hmine ↦ by
            obtain rfl := Option.some.inj hrow
            exact hb (of_decide_eq_true hmine)
        · exact hbefore
      exact hafter.trans hbefore.symm
  exact Machines.ext hcapacity (congrArg (Table.get? · b) hheartbeat) hnodes hservers

/-- The stores stay alike for the miner. -/
theorem SameFor.upsertCapacity_left (h : SameFor b s t) (hb : update.hotkey ≠ b) :
    SameFor b (upsertCapacity settings update s) t := by
  obtain ⟨capacities, inventory, servers, heq⟩ := upsertCapacity_eq settings update s
  refine ⟨by rw [heq]; exact h.now, by rw [heq]; exact h.drained, by rw [heq]; exact h.leases,
    by rw [heq]; exact h.placements, (machinesOf_upsertCapacity apart hb).trans h.machines,
    fun n row id hrow hmine hid ↦ ?_, fun d lease hlease hmine ↦ ?_⟩
  · have hbefore : s.nodeInventory.get? n = some row := by
      rw [nodeInventory_upsertCapacity] at hrow
      cases hlast : lastNode update.normalized n with
      | none => rwa [hlast] at hrow
      | some node =>
        rw [hlast] at hrow
        obtain rfl := Option.some.inj hrow
        exact absurd ((mem_normalized (lastNode_eq_some hlast).1).1.symm.trans hmine) hb
    rw [servers_of_claims apart (claimsServer_of_node hbefore hmine hid)]
    exact h.server n row id hbefore hmine hid
  · rw [heq] at hlease
    rw [nodeInventory_of_claims apart (claims_of_lease hlease hmine)]
    exact h.leased d lease hlease hmine

end

/-! ### The miner's own report -/

/-- A report of the miner's own does the same to both stores. -/
theorem SameFor.upsertCapacity_both {update : CapacityUpdate} (h : SameFor b s t)
    (hb : update.hotkey = b) :
    SameFor b (upsertCapacity settings update s) (upsertCapacity settings update t) := by
  obtain ⟨capacities, inventory, servers, heq⟩ := upsertCapacity_eq settings update s
  obtain ⟨capacities', inventory', servers', heq'⟩ := upsertCapacity_eq settings update t
  have hcapacity : s.capacities.get? b = t.capacities.get? b :=
    congrArg Machines.capacity h.machines
  have hheartbeat : s.heartbeats.get? b = t.heartbeats.get? b :=
    congrArg Machines.heartbeat h.machines
  refine ⟨by rw [heq, heq']; exact h.now, by rw [heq, heq']; exact h.drained,
    by rw [heq, heq']; exact h.leases, by rw [heq, heq']; exact h.placements,
    Machines.ext ?_ (by rw [heq, heq']; exact hheartbeat) ?_ ?_,
    fun n row id hrow hmine hid ↦ ?_, fun d lease hlease hmine ↦ ?_⟩
  · change (upsertCapacity settings update s).capacities.get? b = _
    rw [capacities_upsertCapacity, hb, hcapacity]
    change _ = (upsertCapacity settings update t).capacities.get? b
    rw [capacities_upsertCapacity, hb]
  · funext n
    change Option.filter _ ((upsertCapacity settings update s).nodeInventory.get? n) =
      Option.filter _ ((upsertCapacity settings update t).nodeInventory.get? n)
    rw [nodeInventory_upsertCapacity, nodeInventory_upsertCapacity]
    cases lastNode update.normalized n with
    | none => exact congrFun (congrArg Machines.nodes h.machines) n
    | some node => rfl
  · funext id
    change Option.filter _ ((upsertCapacity settings update s).servers.get? id) =
      Option.filter _ ((upsertCapacity settings update t).servers.get? id)
    rw [servers_upsertCapacity, servers_upsertCapacity]
    split
    · rfl
    · exact congrFun (congrArg Machines.servers h.machines) id
  · rw [servers_upsertCapacity, servers_upsertCapacity]
    by_cases hany : update.normalized.any (fun node ↦ node.server update.hotkey = id) = true
    · rw [if_pos hany, if_pos hany]
    · rw [if_neg hany, if_neg hany]
      rw [nodeInventory_upsertCapacity] at hrow
      cases hlast : lastNode update.normalized n with
      | none =>
        rw [hlast] at hrow
        exact h.server n row id hrow hmine hid
      | some node =>
        -- A node just reported has its server seen.
        rw [hlast] at hrow
        obtain rfl := Option.some.inj hrow
        have hmem := (lastNode_eq_some hlast).1
        obtain ⟨-, hserver, -⟩ := mem_normalized hmem
        have hnode : node.server update.hotkey = id := Option.some.inj (hserver.symm.trans hid)
        exact absurd (List.any_eq_true.mpr ⟨node, hmem, decide_eq_true hnode⟩) hany
  · rw [heq] at hlease
    rw [nodeInventory_upsertCapacity, nodeInventory_upsertCapacity]
    cases lastNode update.normalized lease.nodeId with
    | none => exact h.leased d lease hlease hmine
    | some node => rfl

/-! ## What the scheduler and the sweep see -/

/-- Each node of the inventory is kept under its own identifier. -/
def Fleet.Keyed (s : Fleet) : Prop :=
  ∀ n row, s.nodeInventory.get? n = some row → row.payload.nodeId = n

theorem Fleet.Keyed.upsertCapacity (h : s.Keyed) (update : CapacityUpdate) :
    (upsertCapacity settings update s).Keyed := by
  intro n row hrow
  rw [nodeInventory_upsertCapacity] at hrow
  cases hlast : lastNode update.normalized n with
  | none =>
    rw [hlast] at hrow
    exact h n row hrow
  | some node =>
    rw [hlast] at hrow
    obtain rfl := Option.some.inj hrow
    exact (lastNode_eq_some hlast).2

theorem mem_listNodes {node : NodeCapability} :
    node ∈ listNodes s ↔ ∃ n row, s.nodeInventory.get? n = some row ∧ row.payload = node := by
  rw [listNodes, List.mem_map]
  constructor
  · rintro ⟨row, hmem, rfl⟩
    obtain ⟨⟨n, row'⟩, hrows, rfl⟩ := List.mem_map.mp ((List.mem_insertionSort _).mp hmem)
    exact ⟨n, row', Table.mem_rows_iff.mp hrows, rfl⟩
  · rintro ⟨n, row, hrow, rfl⟩
    refine ⟨row, (List.mem_insertionSort _).mpr ?_, rfl⟩
    exact List.mem_map.mpr ⟨(n, row), Table.mem_rows_iff.mpr hrow, rfl⟩

/-- `_find_node` finds the node that the inventory has under the identifier. -/
theorem run_findNode (settings : Settings) (h : s.Keyed) (n : NodeId) :
    (run settings (findNode n) s).2 = (s.nodeInventory.get? n).map NodeInventory.payload := by
  rw [findNode, run_bind, run_listNodes]
  change (listNodes s).find? (fun node ↦ node.nodeId = n) = _
  cases hfound : (listNodes s).find? (fun node ↦ node.nodeId = n) with
  | none =>
    cases hrow : s.nodeInventory.get? n with
    | none => rfl
    | some row =>
      have hmissing := List.find?_eq_none.mp hfound row.payload
        (mem_listNodes.mpr ⟨n, row, hrow, rfl⟩)
      exact absurd (decide_eq_true (h n row hrow)) hmissing
  | some node =>
    obtain ⟨n', row, hrow, rfl⟩ := mem_listNodes.mp (List.mem_of_find?_eq_some hfound)
    have hnode := List.find?_some hfound
    obtain rfl : n' = n := (h n' row hrow).symm.trans (of_decide_eq_true hnode)
    rw [hrow, Option.map_some]

/-- What speaks against a node. -/
def objections (settings : Settings) (d : Option DeploymentId) (s : Fleet) (node : NodeCapability) :
    List SkipReason :=
  reason ((s.drained.get? node.hotkey).getD false) .drained ++
    heartbeatReasons settings s.now (s.heartbeats.get? node.hotkey) ++
    reason (nodeStale settings s.now node) .stale ++
    reason ((node.serverId.bind s.servers.get?).any fun row ↦
      settings.serverObservedTimeoutSeconds < s.now - row.observedAt) .serverStale ++
    reason (run settings (coolingDown node.nodeId d) s).2 .cooldown

/-- The scheduler goes by the objections to each node of the inventory. -/
theorem run_schedulableNodes (settings : Settings) (d : Option DeploymentId) (s : Fleet) :
    (run settings (schedulableNodes settings d) s).2 =
      eligibleNodes ((listNodes s).map fun node ↦ (node, objections settings d s node)) := by
  have hskip (node : NodeCapability) :
      run settings (skipReasons settings s.drained.rows s.heartbeats.rows s.servers.rows s.now d
        node) s = (s, objections settings d s node) := by
    have hcooling := run_of_looks settings (coolingDown_uses (fun _ h ↦ h) node.nodeId d) s
    have hstale : run settings (isNodeStale settings node) s = (s, nodeStale settings s.now node) :=
      rfl
    have hservers : (fun id ↦ List.lookup id s.servers.rows) = s.servers.get? :=
      funext (Table.lookup_rows s.servers)
    rw [skipReasons, run_bind, hstale, run_bind, hcooling, Table.lookup_rows, Table.lookup_rows,
      hservers]
    rfl
  have hexamine (nodes : List NodeCapability) :
      run settings (examineNodes (skipReasons settings s.drained.rows s.heartbeats.rows
        s.servers.rows s.now d) nodes) s =
        (s, nodes.map fun node ↦ (node, objections settings d s node)) := by
    induction nodes with
    | nil => rfl
    | cons node nodes ih =>
      rw [examineNodes, run_bind, hskip, run_bind, ih]
      rfl
  rw [schedulableNodes, run_bind, run_listNodes, run_bind, run_bind, run_bind, run_bind, run_bind]
  change eligibleNodes (run settings (examineNodes (skipReasons settings s.drained.rows
    s.heartbeats.rows s.servers.rows s.now d) (listNodes s)) s).2 = _
  rw [hexamine]

/-- Where no node is cooling down for the deployment, the scheduler offers the nodes that nothing
speaks against. -/
theorem mem_schedulableNodes {d : Option DeploymentId} {node : NodeCapability}
    (hcool : ∀ n, (run settings (coolingDown n d) s).2 = false) :
    node ∈ (run settings (schedulableNodes settings d) s).2 ↔
      node ∈ listNodes s ∧ objections settings d s node = [] := by
  have hcooling (node : NodeCapability) : objections settings d s node ≠ [.cooldown] := by
    rw [objections, hcool]
    unfold heartbeatReasons
    split <;> simp [reason] <;> grind
  rw [run_schedulableNodes, eligibleNodes]
  split
  · next hnone =>
    have hempty (node : NodeCapability) (hmem : node ∈ listNodes s) :
        objections settings d s node ≠ [] := by
      intro hnode
      have hkept := List.map_eq_nil_iff.mp hnone
      have hmissing := List.filter_eq_nil_iff.mp hkept (node, objections settings d s node)
        (List.mem_map.mpr ⟨node, hmem, rfl⟩)
      exact hmissing (decide_eq_true hnode)
    constructor
    · intro hmem
      obtain ⟨entry, hentry, rfl⟩ := List.mem_map.mp hmem
      obtain ⟨hentry, honly⟩ := List.mem_filter.mp hentry
      obtain ⟨node', -, rfl⟩ := List.mem_map.mp hentry
      exact absurd (of_decide_eq_true honly) (hcooling node')
    · rintro ⟨hmem, hnode⟩
      exact absurd hnode (hempty node hmem)
  · constructor
    · intro hmem
      obtain ⟨entry, hentry, rfl⟩ := List.mem_map.mp hmem
      obtain ⟨hentry, hnode⟩ := List.mem_filter.mp hentry
      obtain ⟨node', hmem', rfl⟩ := List.mem_map.mp hentry
      exact ⟨hmem', of_decide_eq_true hnode⟩
    · rintro ⟨hmem, hnode⟩
      refine List.mem_map.mpr ⟨(node, objections settings d s node), ?_, rfl⟩
      exact List.mem_filter.mpr ⟨List.mem_map.mpr ⟨node, hmem, rfl⟩, decide_eq_true hnode⟩

/-! ## Leaving out the other miners' reports -/

section

variable (h : SameFor b s t)

include h

/-- The miner's nodes in the inventory are the same. -/
theorem SameFor.nodeInventory {n : NodeId} {row : NodeInventory} (hmine : row.payload.hotkey = b) :
    s.nodeInventory.get? n = some row ↔ t.nodeInventory.get? n = some row := by
  have hrows := congrFun (congrArg Machines.nodes h.machines) n
  change (s.nodeInventory.get? n).filter (fun row ↦ row.payload.hotkey = b) =
    (t.nodeInventory.get? n).filter (fun row ↦ row.payload.hotkey = b) at hrows
  constructor
  · intro hrow
    have hkept : (s.nodeInventory.get? n).filter (fun row ↦ row.payload.hotkey = b) = some row :=
      Option.filter_eq_some_iff.mpr ⟨hrow, decide_eq_true hmine⟩
    exact (Option.filter_eq_some_iff.mp (hrows.symm.trans hkept)).1
  · intro hrow
    have hkept : (t.nodeInventory.get? n).filter (fun row ↦ row.payload.hotkey = b) = some row :=
      Option.filter_eq_some_iff.mpr ⟨hrow, decide_eq_true hmine⟩
    exact (Option.filter_eq_some_iff.mp (hrows.trans hkept)).1

theorem SameFor.coolingDown (n : NodeId) (d : Option DeploymentId) :
    (run settings (coolingDown n d) s).2 = (run settings (coolingDown n d) t).2 := by
  cases d with
  | none => rfl
  | some d =>
    have hplacements : listPlacements 1000 s = listPlacements 1000 t := by
      rw [listPlacements, h.placements, listPlacements]
    change List.any (listPlacements 1000 s) (fun p ↦ p.nodeId = n ∧ p.deploymentId = d ∧
      (p.cooldownUntil.any fun until_ ↦ s.now < until_) = true) = _
    rw [hplacements, h.now]
    rfl

/-- The scheduler has the same objections to a node of the miner. -/
theorem SameFor.objections {n : NodeId} {row : NodeInventory} (d : Option DeploymentId)
    (hrow : s.nodeInventory.get? n = some row) (hmine : row.payload.hotkey = b) :
    objections settings d s row.payload = objections settings d t row.payload := by
  have hheartbeat : s.heartbeats.get? row.payload.hotkey =
      t.heartbeats.get? row.payload.hotkey := by
    rw [hmine]
    exact congrArg Machines.heartbeat h.machines
  have hserver : row.payload.serverId.bind s.servers.get? =
      row.payload.serverId.bind t.servers.get? := by
    cases hid : row.payload.serverId with
    | none => rfl
    | some id => exact h.server n row id hrow hmine hid
  rw [GreenCompute.objections, GreenCompute.objections, h.drained, h.now, hheartbeat, hserver,
    h.coolingDown]

/-- The scheduler offers the same nodes of the miner, where nothing is cooling down. -/
theorem SameFor.schedulableNodes {d : Option DeploymentId} {node : NodeCapability}
    (hmine : node.hotkey = b)
    (hcool : ∀ n, (run settings (ControlPlaneService.coolingDown n d) s).2 = false) :
    node ∈ (run settings (ControlPlaneService.schedulableNodes settings d) s).2 ↔
      node ∈ (run settings (ControlPlaneService.schedulableNodes settings d) t).2 := by
  have hcool' (n : NodeId) : (run settings (ControlPlaneService.coolingDown n d) t).2 = false := by
    rw [← h.coolingDown, hcool]
  rw [mem_schedulableNodes hcool, mem_schedulableNodes hcool', mem_listNodes, mem_listNodes]
  constructor
  · rintro ⟨⟨n, row, hrow, rfl⟩, hnone⟩
    exact ⟨⟨n, row, (h.nodeInventory hmine).mp hrow, rfl⟩, h.objections d hrow hmine ▸ hnone⟩
  · rintro ⟨⟨n, row, hrow, rfl⟩, hnone⟩
    have hrow' := (h.nodeInventory hmine).mpr hrow
    exact ⟨⟨n, row, hrow', rfl⟩, (h.objections d hrow' hmine).trans hnone⟩

/-- `_assignment_problem` answers the same for a lease of the miner. -/
theorem SameFor.assignmentProblem {d : DeploymentId} {lease : LeaseAssignment}
    (hs : s.Keyed) (ht : t.Keyed) (hlease : s.leases.get? d = some lease) (hmine : lease.hotkey = b)
    (now : Time) : (run settings (assignmentProblem settings lease now) s).2 =
      (run settings (assignmentProblem settings lease now) t).2 := by
  have hheartbeat : s.heartbeats.get? lease.hotkey = t.heartbeats.get? lease.hotkey := by
    rw [hmine]
    exact congrArg Machines.heartbeat h.machines
  have hnode : (run settings (findNode lease.nodeId) s).2 =
      (run settings (findNode lease.nodeId) t).2 := by
    rw [run_findNode settings hs, run_findNode settings ht, h.leased d lease hlease hmine]
  unfold ControlPlaneService.assignmentProblem
  rw [run_bind, run_bind, run_getHeartbeat, run_getHeartbeat, hheartbeat]
  dsimp only
  split
  · rfl
  · split
    · rfl
    · split
      · rfl
      · rw [run_bind, run_bind, hnode]
        rfl

end

/-- A call that the miner's reports are left in with keeps the stores alike. -/
theorem SameFor.after_both {c : FleetCall} (hc : c.concerns b = true) (hr : reportsApart b c s)
    (h : SameFor b s t ∧ s.Keyed ∧ t.Keyed) :
    SameFor b ((controlPlane settings protocol).after c s)
        ((controlPlane settings protocol).after c t) ∧
      ((controlPlane settings protocol).after c s).Keyed ∧
      ((controlPlane settings protocol).after c t).Keyed := by
  obtain ⟨hsame, hs, ht⟩ := h
  cases c with
  | updateCapacity update =>
    exact ⟨hsame.upsertCapacity_both (of_decide_eq_true hc), hs.upsertCapacity _,
      ht.upsertCapacity _⟩
  | recordHeartbeat hotkey heartbeat =>
    obtain rfl : hotkey = b := of_decide_eq_true hc
    refine ⟨⟨hsame.now, hsame.drained, hsame.leases, hsame.placements, ?_, hsame.server,
      hsame.leased⟩, hs, ht⟩
    obtain ⟨hcapacity, -, hnodes, hservers⟩ := Machines.ext_iff.mp hsame.machines
    refine Machines.ext hcapacity ?_ hnodes hservers
    exact (Table.get?_insert_self ..).trans (Table.get?_insert_self ..).symm
  | advance seconds =>
    refine ⟨⟨?_, hsame.drained, hsame.leases, hsame.placements, hsame.machines, hsame.server,
      hsame.leased⟩, hs, ht⟩
    rw [now_after_advance, now_after_advance, hsame.now]
  | _ => exact hr.elim

/-- Another miner's report leaves the stores alike. -/
theorem SameFor.after_left {c : FleetCall} (hc : c.concerns b = false) (hr : reportsApart b c s)
    (h : SameFor b s t ∧ s.Keyed ∧ t.Keyed) :
    SameFor b ((controlPlane settings protocol).after c s) t ∧
      ((controlPlane settings protocol).after c s).Keyed ∧ t.Keyed := by
  obtain ⟨hsame, hs, ht⟩ := h
  cases c with
  | updateCapacity update =>
    have hb : update.hotkey ≠ b := of_decide_eq_false hc
    refine ⟨hsame.upsertCapacity_left ?_ hb, hs.upsertCapacity _, ht⟩
    intro node hmem
    obtain ⟨reported, hreported, rfl⟩ := List.mem_map.mp hmem
    exact hr hb reported hreported
  | recordHeartbeat hotkey heartbeat =>
    have hb : hotkey ≠ b := of_decide_eq_false hc
    refine ⟨⟨hsame.now, hsame.drained, hsame.leases, hsame.placements, ?_, hsame.server,
      hsame.leased⟩, hs, ht⟩
    obtain ⟨hcapacity, hheartbeat, hnodes, hservers⟩ := Machines.ext_iff.mp hsame.machines
    refine Machines.ext hcapacity ?_ hnodes hservers
    exact (Table.get?_insert_ne _ (Ne.symm hb) _).trans hheartbeat
  | advance seconds => exact nomatch hc
  | _ => exact hr.elim

/-- **A miner's reports affect only its own machines.** In every run of reports in which no other
miner reports a node or a server that is the miner's, what is known of the miner's machines is what
it would be without the others' reports, and so are the nodes of the miner that the scheduler offers
and what the sweep finds about the miner's leases. -/
theorem reports_affect_own_machines {cs : List FleetCall} (keyed : s.Keyed)
    (admitted : (controlPlane settings protocol).Admits (reportsApart b) s cs) :
    let full := (controlPlane settings protocol).afterAll s cs
    let own := (controlPlane settings protocol).afterAll s (cs.filter (FleetCall.concerns b))
    full.machinesOf b = own.machinesOf b ∧
      (∀ d node, node.hotkey = b → (∀ n, (run settings (coolingDown n d) full).2 = false) →
        (node ∈ (run settings (schedulableNodes settings d) full).2 ↔
          node ∈ (run settings (schedulableNodes settings d) own).2)) ∧
      ∀ d lease now, full.leases.get? d = some lease → lease.hotkey = b →
        (run settings (assignmentProblem settings lease now) full).2 =
          (run settings (assignmentProblem settings lease now) own).2 := by
  obtain ⟨hsame, hs, ht⟩ := admitted.related (R := fun s t ↦ SameFor b s t ∧ s.Keyed ∧ t.Keyed)
    ⟨.refl b s, keyed, keyed⟩ (fun c s t ↦ SameFor.after_both) fun c s t ↦ SameFor.after_left
  refine ⟨hsame.machines, fun d node hmine hcool ↦ hsame.schedulableNodes hmine hcool, ?_⟩
  exact fun d lease now hlease hmine ↦ hsame.assignmentProblem hs ht hlease hmine now

/-- Miner 7 reports its node, and then miner 8 reports a node of its own. -/
private def twoMiners (n : NodeId) : List FleetCall :=
  [.updateCapacity ⟨7, [oneNode], 0⟩, .recordHeartbeat 7 ⟨true, some 0⟩, .advance 10,
    .updateCapacity ⟨8, [{ oneNode with nodeId := n }], 10⟩, .recordHeartbeat 8 ⟨true, some 10⟩]

/-- A node with an identifier of its own. -/
theorem reports_affect_own_machines_apart :
    ((controlPlane {} quotedRates).afterAll (podOwner 0) (twoMiners 4)).machinesOf 7 =
      ((controlPlane {} quotedRates).afterAll (podOwner 0)
        ((twoMiners 4).filter (FleetCall.concerns 7))).machinesOf 7 := by
  have keyed : (podOwner 0).Keyed := by
    intro n row hrow
    simp [podOwner, Fleet.empty] at hrow
  exact (reports_affect_own_machines keyed (by decide +kernel)).1

/-- A node with the identifier of miner 7's: miner 7 has a node no more, and the scheduler has none
of it to offer. -/
theorem node_taken_over :
    ((((controlPlane {} quotedRates).afterAll (podOwner 0) (twoMiners 3)).machinesOf 7).nodes
        3).isNone ∧
      ((((controlPlane {} quotedRates).afterAll (podOwner 0)
        ((twoMiners 3).filter (FleetCall.concerns 7))).machinesOf 7).nodes 3).isSome ∧
      ((run {} (schedulableNodes {} none) ((controlPlane {} quotedRates).afterAll (podOwner 0)
        (twoMiners 3))).2.map NodeCapability.hotkey = [8]) ∧
      ((run {} (schedulableNodes {} none) ((controlPlane {} quotedRates).afterAll (podOwner 0)
        ((twoMiners 3).filter (FleetCall.concerns 7)))).2.map NodeCapability.hotkey = [7]) :=
  ⟨by decide +kernel, by decide +kernel, by decide +kernel, by decide +kernel⟩

end GreenCompute
