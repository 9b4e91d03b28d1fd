import GreenCompute.ControlPlane.Shifts

/-!
# Running deployments hold their GPUs

A deployment is given its GPUs when it is placed, gives them back when it stops, and takes them
again when it is resumed. The state machine lets a machine report a suspended deployment as pulling,
starting or ready whether it was resumed or not: in runs without such a report every deployment that
may be running holds what its workload needs on its own node, and none that has failed or was
terminated holds anything. The calls of a run are made one after the other.

The invariant is `Stand.Sound`. It also says what makes the methods keep it: a deployment that holds
GPUs has an active lease, which is where the operators' methods look, and one that waits in the
queue has no miner that could report it.
-/

namespace GreenCompute

open ControlPlaneRepository ControlPlaneService

variable {settings : Settings} {protocol : Protocol} {s s' : Fleet} {d : DeploymentId}

/-- Where a report that the deployment may be running can come from. -/
theorem DeploymentState.origin_of_running {current next : DeploymentState}
    (hallowed : current.transition next = some next) (hrunning : next.Running) :
    current.Running ∨ current = .pending ∨
      current = .suspended ∧ next ∈ [.pulling, .starting, .ready] := by
  revert hallowed hrunning
  cases current <;> cases next <;> decide

/-! ## The invariant -/

namespace Stand

/-- The record, the reservation and the lease of a deployment are in step. -/
inductive Sound (workloads : Table WorkloadId WorkloadSpec) (f : Stand) : Prop
  | absent (missing : f.record = none) (idle : f.holding = false)
  | free (record : DeploymentRecord) (found : f.record = some record) (idle : f.holding = false)
      (still : ¬record.state.Running) (queued : record.state = .pending → record.hotkey = none)
      (leased : record.nodeId.isSome → f.lease.isSome)
  | held (record : DeploymentRecord) (found : f.record = some record)
      (r : GpuReservation) (reserved : f.reservation = some r) (active : r.status = .active)
      (workload : WorkloadSpec) (needs : workloads.get? record.workloadId = some workload)
      (count : r.gpuCount = workload.requirements.gpuCount) (node : record.nodeId = some r.nodeId)
      (lease : LeaseAssignment) (leased : f.lease = some lease)
      (on : lease.status ∈ activeStatuses) (living : record.state.Running ∨ record.state = .suspended)

variable {workloads : Table WorkloadId WorkloadSpec} {f : Stand} {record saved : DeploymentRecord}

theorem holding_of_active {r : GpuReservation} (hr : f.reservation = some r)
    (hactive : r.status = .active) : f.holding = true := by
  rw [holding, hr, Option.any_some, hactive]
  rfl

namespace Sound

/-- A deployment that may be running holds GPUs. -/
theorem holding_of_running (h : f.Sound workloads) (hrecord : f.record = some record)
    (hrunning : record.state.Running) : f.holding = true := by
  cases h with
  | absent missing idle => exact nomatch missing.symm.trans hrecord
  | free record' found idle still queued leased =>
    obtain rfl := Option.some.inj (found.symm.trans hrecord)
    exact absurd hrunning still
  | held record' found r reserved active => exact holding_of_active reserved active

/-- A deployment that is neither running nor suspended holds none. -/
theorem idle_of_still (h : f.Sound workloads) (hrecord : f.record = some record)
    (hstill : ¬record.state.Running) (hsuspended : record.state ≠ .suspended) :
    f.holding = false := by
  cases h with
  | absent missing idle => exact idle
  | free record' found idle => exact idle
  | held record' found r reserved active workload needs count node lease leased on living =>
    obtain rfl := Option.some.inj (found.symm.trans hrecord)
    exact absurd living (not_or.mpr ⟨hstill, hsuspended⟩)

/-- A deployment that does not exist holds none. -/
theorem idle_of_missing (h : f.Sound workloads) (hrecord : f.record = none) :
    f.holding = false := by
  cases h with
  | absent missing idle => exact idle
  | free record found => exact nomatch hrecord.symm.trans found
  | held record found => exact nomatch hrecord.symm.trans found

/-- A deployment whose workload is gone holds none. -/
theorem idle_of_unneeded (h : f.Sound workloads) (hrecord : f.record = some record)
    (hneeds : workloads.get? record.workloadId = none) : f.holding = false := by
  cases h with
  | absent missing idle => exact idle
  | free record' found idle => exact idle
  | held record' found r reserved active workload needs =>
    obtain rfl := Option.some.inj (found.symm.trans hrecord)
    exact nomatch hneeds.symm.trans needs

/-- A deployment without an active lease holds none. -/
theorem idle_of_unleased (h : f.Sound workloads)
    (hlease : f.activeLease = none) :
    f.holding = false := by
  cases h with
  | absent missing idle => exact idle
  | free record' found idle => exact idle
  | held record' found r reserved active workload needs count node lease leased on =>
    rw [activeLease, leased, Option.filter_some, if_pos (decide_eq_true on)] at hlease
    cases hlease

/-- A deployment that is on a node, or was when it stopped, has a lease. -/
theorem leased_of_node (h : f.Sound workloads) (hrecord : f.record = some record)
    (hnode : record.nodeId.isSome) : f.lease.isSome := by
  cases h with
  | absent missing => exact nomatch missing.symm.trans hrecord
  | free record' found idle still queued leased =>
    obtain rfl := Option.some.inj (found.symm.trans hrecord)
    exact leased hnode
  | held record' found r reserved active workload needs count node lease leased =>
    rw [leased]
    rfl

/-- A deployment that waits in the queue has no miner. -/
theorem hotkey_of_pending (h : f.Sound workloads) (hrecord : f.record = some record)
    (hpending : record.state = .pending) : record.hotkey = none := by
  cases h with
  | absent missing => exact nomatch missing.symm.trans hrecord
  | free record' found idle still queued =>
    obtain rfl := Option.some.inj (found.symm.trans hrecord)
    exact queued hpending
  | held record' found r reserved active workload needs count node lease leased on living =>
    obtain rfl := Option.some.inj (found.symm.trans hrecord)
    rw [hpending] at living
    exact absurd living (by decide)

/-- Saving a record that leaves state, place and workload as they are. -/
theorem save_same (h : f.Sound workloads) (hrecord : f.record = some record)
    (hstate : saved.state = record.state) (hhotkey : saved.hotkey = record.hotkey)
    (hnode : saved.nodeId = record.nodeId) (hworkload : saved.workloadId = record.workloadId) :
    (f.save saved).Sound workloads := by
  cases h with
  | absent missing => exact nomatch missing.symm.trans hrecord
  | free record' found idle still queued leased =>
    obtain rfl := Option.some.inj (found.symm.trans hrecord)
    exact .free saved rfl idle (hstate ▸ still) (hstate ▸ hhotkey ▸ queued) (hnode ▸ leased)
  | held record' found r reserved active workload needs count node lease leased on living =>
    obtain rfl := Option.some.inj (found.symm.trans hrecord)
    exact .held saved rfl r reserved active workload (hworkload ▸ needs) count (hnode ▸ node) lease
      leased on (hstate ▸ living)

end Sound

/-! ### Reports -/

theorem holding_follow {state : DeploymentState} (h : releasesHold state = true) :
    (f.follow state).holding = false := by
  rw [follow, if_pos h, holding_release]

theorem reservation_follow {state : DeploymentState} (h : releasesHold state = false) :
    (f.follow state).reservation = f.reservation := by
  rw [follow, if_neg (by rw [h]; decide)]
  split <;> rfl

/-- A running deployment's active lease stays active. -/
theorem lease_follow {state : DeploymentState} (hrunning : state.Running) {lease : LeaseAssignment}
    (hlease : f.lease = some lease) (hon : lease.status ∈ activeStatuses) :
    ∃ lease', (f.follow state).lease = some lease' ∧ lease'.status ∈ activeStatuses := by
  obtain ⟨record, reservation, _⟩ := f
  obtain rfl : _ = some lease := hlease
  have hactivating : LeaseStatus.activating ∈ activeStatuses := by decide
  have hactive : LeaseStatus.active ∈ activeStatuses := by decide
  rcases hrunning with rfl | rfl | rfl | rfl | rfl
  · exact ⟨lease, rfl, hon⟩
  · exact ⟨{ lease with status := .activating }, rfl, hactivating⟩
  · exact ⟨{ lease with status := .activating }, rfl, hactivating⟩
  · exact ⟨{ lease with status := .active }, rfl, hactive⟩
  · exact ⟨lease, rfl, hon⟩

variable {update : DeploymentStatusUpdate} {readyAt : Option Time}

/-- A report that gives the GPUs back leaves the deployment free, whatever it held before. -/
theorem sound_report_of_releases (hreleases : releasesHold update.state = true)
    (hleased : record.nodeId.isSome → f.lease.isSome) :
    ((f.follow update.state).save (reported update record update.state readyAt)).Sound
      workloads := by
  have hstate : (reported update record update.state readyAt).state = update.state := rfl
  refine .free _ rfl (holding_follow hreleases) ?_ ?_ fun hnode ↦ ?_
  · rw [hstate]
    revert hreleases
    cases update.state <;> decide
  · intro hpending
    rw [← hstate, hpending] at hreleases
    cases hreleases
  · exact (isSome_lease_follow f _).trans (hleased hnode)

/-- A report that the deployment may be running, when it holds its GPUs. -/
theorem Sound.report_of_running (h : f.Sound workloads) (hrecord : f.record = some record)
    (hrunning : update.state.Running) (hholding : f.holding = true) :
    ((f.follow update.state).save (reported update record update.state readyAt)).Sound
      workloads := by
  cases h with
  | absent missing idle => exact nomatch idle.symm.trans hholding
  | free record' found idle => exact nomatch idle.symm.trans hholding
  | held record' found r reserved active workload needs count node lease leased on =>
    obtain rfl := Option.some.inj (found.symm.trans hrecord)
    have hkeeps : releasesHold update.state = false := by
      rcases hrunning with h | h | h | h | h <;> rw [h] <;> rfl
    obtain ⟨lease', hlease', hon'⟩ := lease_follow hrunning leased on
    exact .held (reported update record' update.state readyAt) rfl r
      ((reservation_follow hkeeps).trans reserved) active workload needs count node lease' hlease'
      hon' (.inl hrunning)

/-- **Reports.** A report that the state machine admits keeps a deployment in step, if one that it
may be running meets the hold. -/
theorem Sound.report (h : f.Sound workloads) (hrecord : f.record = some record)
    (hlive : ¬(record.state = .terminated ∨ record.state = .failed))
    (hallowed : record.state.transition update.state = some update.state)
    (hheld : update.state.Running → f.holding = true) :
    ((f.follow update.state).save (reported update record update.state readyAt)).Sound
      workloads := by
  by_cases hrunning : update.state.Running
  · exact h.report_of_running hrecord hrunning (hheld hrunning)
  by_cases hreleases : releasesHold update.state = true
  · exact sound_report_of_releases hreleases (h.leased_of_node hrecord)
  -- What is left is the report that a deployment in the queue is in the queue.
  have hpending : update.state = .pending := by
    revert hrunning hreleases
    cases update.state <;> decide
  have hqueued : record.state = .pending := by
    rw [hpending] at hallowed
    revert hlive hallowed
    cases record.state <;> decide
  have hfollow : f.follow update.state = f := by rw [hpending]; rfl
  rw [hfollow]
  exact h.save_same hrecord (hpending.trans hqueued.symm) rfl rfl rfl

/-! ### Shifts -/

/-- A deployment that goes back to the queue holds nothing. -/
theorem sound_unplaced (hidle : f.holding = false) (same : Unplaced record saved) :
    (f.save saved).Sound workloads := by
  refine .free saved rfl hidle (by rw [same.state]; decide) (fun _ ↦ same.hotkey) fun h ↦ ?_
  rw [same.nodeId] at h
  cases h

/-- A deployment taken off its machine is free, unless its record still says that it runs. -/
theorem Sound.ended (h : f.Sound workloads) (hrecord : f.record = some record)
    (hstill : ¬record.state.Running) (status : LeaseStatus) :
    (f.release.setLease status).Sound workloads := by
  refine .free record hrecord ?_ hstill (h.hotkey_of_pending hrecord) fun hnode ↦ ?_
  · rw [holding_setLease, holding_release]
  · rw [isSome_lease_setLease]
    exact h.leased_of_node hrecord hnode

/-- The GPUs taken again. -/
theorem Sound.resume (h : f.Sound workloads) (hrecord : f.record = some record)
    (hsuspended : record.state = .suspended) {node : NodeId} (hnode : record.nodeId = some node)
    {workload : WorkloadSpec} (hneeds : workloads.get? record.workloadId = some workload)
    (hotkey : Hotkey) (same : Noted record saved) :
    ((f.resume hotkey node workload.requirements.gpuCount).save saved).Sound workloads := by
  have hleased := h.leased_of_node hrecord (by rw [hnode]; rfl)
  obtain ⟨lease, hlease⟩ := Option.isSome_iff_exists.mp hleased
  have hactive : (f.resume hotkey node workload.requirements.gpuCount).lease =
      some { lease with status := .active } := by
    rw [Stand.resume, setLease, hlease]
    rfl
  exact .held saved rfl ⟨hotkey, node, workload.requirements.gpuCount, .active⟩ rfl rfl workload
    (same.workloadId ▸ hneeds) rfl (same.nodeId ▸ hnode) _ hactive active_mem_activeStatuses
    (.inr (same.state.trans hsuspended))

/-- A deployment in step has no orphaned hold. -/
theorem Sound.not_gone (h : f.Sound workloads) {r : GpuReservation} (hr : f.reservation = some r)
    (hactive : r.status = .active) {since : Option Time} :
    ¬((⟨f, since⟩ : Position).state = none ∨ (⟨f, since⟩ : Position).state = some .terminated ∨
      (⟨f, since⟩ : Position).state = some .failed) := by
  intro hgone
  have hholding : f.holding = true := holding_of_active hr hactive
  cases h with
  | absent missing idle => exact nomatch idle.symm.trans hholding
  | free record found idle => exact nomatch idle.symm.trans hholding
  | held record found r reserved active workload needs count node lease leased on living =>
    rw [Position.state_of_record found] at hgone
    revert hgone living
    cases record.state <;> decide

/-- Every shift keeps a deployment in step, if a report that it may be running meets the hold. -/
theorem Sound.shift {c : FleetCall} {now : Time} {p q : Position} (h : p.stand.Sound workloads)
    (hshift : PositionShift workloads c d now p q)
    (hheld : ∀ update record, p.stand.record = some record → c.Reports d now update record →
      record.state.transition update.state = some update.state → update.state.Running →
        p.stand.holding = true) : q.stand.Sound workloads := by
  cases hshift with
  | created request quote made missing =>
    have hstill : ¬DeploymentState.pending.Running := by decide
    exact .free _ rfl (h.idle_of_missing missing) hstill (fun _ ↦ rfl) fun h ↦ nomatch h
  | noted record saved found same =>
    exact h.save_same found same.state same.hotkey same.nodeId same.workloadId
  | reported q report =>
    cases report with
    | admitted update record readyAt found origin live allowed =>
      exact h.report found live allowed (hheld update record found origin allowed)
  | scheduled record saved workload assignment attempts granted made found waiting needs assigned
      terms state node =>
    exact .held saved rfl _ rfl rfl workload (terms.workloadId ▸ needs) rfl node assignment rfl
      (by rw [assigned]; decide) (.inl (.inl state))
  | requeued record saved origin found same => exact sound_unplaced (holding_release _) same
  | unplaced record saved origin found same why =>
    refine sound_unplaced ?_ same
    rcases why with hlease | hover | hneeds
    · exact h.idle_of_unleased hlease
    · refine h.idle_of_still found ?_ ?_ <;> rcases hover with h | h <;> rw [h] <;> decide
    · exact h.idle_of_unneeded found hneeds
  | released record made found leased why =>
    refine h.ended found (fun hrunning ↦ ?_) _
    -- From every state in which it may be running a deployment can fail.
    unfold DeploymentRecord.Over at why
    revert hrunning why
    cases record.state <;> decide
  | ended record saved stand reason made found kept lease hold terms state hotkey nodeId =>
    have hidle : stand.holding = false := by
      by_contra hholding
      obtain ⟨hheld, hunleased⟩ := hold (Bool.not_eq_false _ ▸ hholding)
      exact nomatch hheld.symm.trans (h.idle_of_unleased hunleased)
    refine .free saved rfl hidle (by rw [state]; decide) (fun h ↦ nomatch state.symm.trans h)
      fun hnode ↦ ?_
    exact lease.trans (h.leased_of_node found (nodeId ▸ hnode))
  | reclaimed r made reserved active gone => exact absurd gone (h.not_gone reserved active)
  | resumed record saved workload hotkey node made found suspended onHotkey onNode needs same =>
    exact h.resume found suspended onNode needs hotkey same
  | stamped => exact h

end Stand

/-- Every deployment is in step. -/
def InStep (s : Fleet) : Prop := ∀ d, (s.stand d).Sound s.workloads

/-! ## Every call -/

/-- No machine reports a suspended deployment as pulling, starting or ready while that holds no
GPUs, and the control plane's own status updates are suspensions and ends. -/
def reportsHeld : FleetCall → Fleet → Prop
  | .deploymentStatus d hotkey update, s =>
    update.state ∈ [.pulling, .starting, .ready] → ∀ record ∈ s.record d,
      record.state = .suspended → record.hotkey = some hotkey → (s.hold d).isSome
  | .updateDeploymentStatus _ update, _ => ¬update.state.Running
  | _, _ => True

instance (c : FleetCall) (s : Fleet) : Decidable (reportsHeld c s) := by
  unfold reportsHeld
  split <;> infer_instance

/-- Only machines report that a deployment may be running. -/
theorem not_running_of_reports {c : FleetCall} (hc : reportsHeld c s)
    (hmachine : ¬∃ d hotkey update, c = .deploymentStatus d hotkey update) {now : Time}
    {update : DeploymentStatusUpdate} {record : DeploymentRecord}
    (h : c.Reports d now update record) : ¬update.state.Running := by
  cases c with
  | deploymentStatus d hotkey update => exact absurd ⟨d, hotkey, update, rfl⟩ hmachine
  | updateDeploymentStatus => exact h.2 ▸ hc
  | meterUsage | processIdleInferenceDeployments =>
    rw [h.1]
    decide
  | recordDeploymentHealthFailure | processDeploymentRequest | failDeployment =>
    rw [h.2]
    decide
  | processUnhealthyMiners | reapExhaustedPods | processTimeouts =>
    rw [show update.state = _ from h]
    decide
  | _ => exact h.elim

/-- A machine's report, where one that a suspended deployment is running again meets its hold. -/
theorem inStep_deploymentStatus (hs : InStep s) {hotkey : Hotkey} {update : DeploymentStatusUpdate}
    (hheld : reportsHeld (.deploymentStatus d hotkey update) s) :
    InStep (run settings (deploymentStatus d hotkey update) s).1 := by
  intro d'
  rw [workloads_run]
  by_cases heq : d' = d
  · subst heq
    have hreport := report_deploymentStatus (d := d') (s := s) settings hotkey update
    generalize hafter : (run settings (deploymentStatus d' hotkey update) s).1.position d' = q
      at hreport
    have hstand : (run settings (deploymentStatus d' hotkey update) s).1.stand d' = q.stand :=
      congrArg Position.stand hafter
    rw [hstand]
    cases hreport with
    | refl => exact hs d'
    | single hreport =>
      refine Stand.Sound.shift (p := s.position d') (hs d') (.reported q hreport) ?_
      rintro update' record hrecord ⟨-, hown, rfl⟩ hallowed hrunning
      rcases DeploymentState.origin_of_running hallowed hrunning with
        hstate | hstate | ⟨hstate, hmem⟩
      · exact (hs d').holding_of_running hrecord hstate
      · -- The miner has nothing to say about a deployment in the queue.
        have hnone := (hs d').hotkey_of_pending hrecord hstate
        exact nomatch hnone.symm.trans hown
      · exact (s.holding_stand d').trans (hheld hmem record hrecord hstate hown)
  · rw [stand_run_of_about settings ((permits_about d).deploymentStatus_uses hotkey update) heq]
    exact hs d'

/-- Every call keeps every deployment in step. -/
theorem inStep_after (hs : InStep s) {c : FleetCall} (hc : reportsHeld c s) :
    InStep ((controlPlane settings protocol).after c s) := by
  by_cases hmachine : ∃ d hotkey update, c = .deploymentStatus d hotkey update
  · obtain ⟨d, hotkey, update, rfl⟩ := hmachine
    change InStep (run settings (discard (deploymentStatus d hotkey update)) s).1
    rw [run_discard]
    exact inStep_deploymentStatus hs hc
  · intro d
    have hworkloads : ((controlPlane settings protocol).after c s).workloads = s.workloads :=
      workloads_run _ s
    rw [hworkloads]
    refine position_after_of_shifts (P := fun p ↦ p.stand.Sound s.workloads) settings protocol c ?_
      (hs d)
    intro p q hshift hp
    exact hp.shift hshift fun _ _ _ horigin _ hrunning ↦
      absurd hrunning (not_running_of_reports hc hmachine horigin)

/-- A database in which nothing has been deployed yet. -/
structure Undeployed (s : Fleet) : Prop where
  deployments : s.deployments = .empty
  leases : s.leases = .empty
  reservations : s.reservations = .empty

theorem Undeployed.inStep (h : Undeployed s) : InStep s := by
  intro d
  refine .absent ?_ ?_
  · rw [stand_record, Fleet.record, h.deployments]
    rfl
  · rw [Fleet.holding_stand, Fleet.hold, h.reservations]
    rfl

/-- The deployment holds as many GPUs as its workload needs, on its own node. -/
def HoldsOwn (s : Fleet) (d : DeploymentId) : Prop :=
  ∃ record workload r, s.record d = some record ∧
    s.workloads.get? record.workloadId = some workload ∧ s.hold d = some r ∧
    record.nodeId = some r.nodeId ∧ r.gpuCount = workload.requirements.gpuCount

/-- **Running deployments hold their GPUs.** In every run from an empty database in which no machine
reports a suspended deployment as pulling, starting or ready while that holds no GPUs, a deployment
that may be running holds what its workload needs on its own node, and one that has failed or was
terminated holds nothing. -/
theorem running_deployments_hold_gpus {s₀ : Fleet} (fresh : Undeployed s₀)
    (run : (controlPlane settings protocol).Calls reportsHeld s₀ s) (d : DeploymentId) :
    (∀ state, s.state d = some state → state.Running → HoldsOwn s d) ∧
      (s.state d = some .failed ∨ s.state d = some .terminated → s.hold d = none) := by
  have hs : InStep s := by
    induction run with
    | refl => exact fresh.inStep
    | tail _ hstep ih =>
      obtain ⟨c, hc, rfl⟩ := hstep
      exact inStep_after ih hc
  constructor
  · intro state hstate hrunning
    obtain ⟨record, hrecord, rfl⟩ := Option.map_eq_some_iff.mp hstate
    cases hs d with
    | absent missing => exact nomatch missing.symm.trans hrecord
    | free record' found idle still =>
      obtain rfl := Option.some.inj (found.symm.trans hrecord)
      exact absurd hrunning still
    | held record' found r reserved active workload needs count node =>
      obtain rfl := Option.some.inj (found.symm.trans hrecord)
      refine ⟨record', workload, r, hrecord, needs, ?_, node, count⟩
      have hr : s.reservations.get? d = some r := reserved
      rw [Fleet.hold, hr, Option.filter_some, active]
      rfl
  · intro hended
    obtain ⟨state, hstate, hends⟩ : ∃ state, s.state d = some state ∧
        (state = .failed ∨ state = .terminated) := by
      rcases hended with h | h
      · exact ⟨_, h, .inl rfl⟩
      · exact ⟨_, h, .inr rfl⟩
    obtain ⟨record, hrecord, rfl⟩ := Option.map_eq_some_iff.mp hstate
    have hidle : (s.stand d).holding = false := by
      refine (hs d).idle_of_still hrecord ?_ ?_ <;> rcases hends with h | h <;> rw [h] <;> decide
    rw [Fleet.holding_stand] at hidle
    exact Option.not_isSome_iff_eq_none.mp (by rw [hidle]; decide)

/-- The pod is placed and runs, and holds its GPU. -/
theorem running_deployments_hold_gpus_started :
    ∃ s, (controlPlane {} quotedRates).Calls reportsHeld (podOwner 0) s ∧
      s.state 1 = some .ready ∧ HoldsOwn s 1 := by
  obtain ⟨s, run, hready⟩ := Service.exists_calls_of_makeCalls
    (S := controlPlane {} quotedRates) (G := reportsHeld) (s := podOwner 0) startPod
    (P := fun s ↦ s.state 1 = some .ready) (by decide +kernel)
  have h := running_deployments_hold_gpus ⟨rfl, rfl, rfl⟩ run 1
  exact ⟨s, run, hready, h.1 _ hready (by decide)⟩

/-- A machine's report that the pod is ready, after the meter has suspended it: the pod runs on and
holds nothing. -/
theorem suspended_deployment_runs_unheld :
    ∃ s, (controlPlane {} quotedRates).Calls (fun _ _ ↦ True) (podOwner 0) s ∧
      s.state 1 = some .ready ∧ s.hold 1 = none :=
  Service.exists_calls_of_makeCalls
    (startPod ++ [.advance 100, .meterUsage (some 100),
      .deploymentStatus 1 7 { state := .ready, readyInstances := 1, observedAt := 100 }])
    (by decide +kernel)

end GreenCompute
