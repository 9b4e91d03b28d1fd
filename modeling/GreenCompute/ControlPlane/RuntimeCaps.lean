import GreenCompute.ControlPlane.Cycles
import GreenCompute.ControlPlane.Suspensions
import GreenCompute.ControlPlane.Termination
import GreenCompute.Foundations.Steps

/-!
# A cap on the running time

A deployment may be given a number of minutes after which it is stopped. A sweep counts them from
the time at which the deployment became ready first. That time is stamped once and stays, so the
clock runs on while the deployment is suspended or on its way to another machine.

`runtime_cap_counts_from_start` says what the sweep does in every run: it stops nothing before the
minutes are over, counted from the first start, and leaves nothing running that has been ready for
as long as that. `suspended_time_counts` is a run in which a deployment is stopped that was ready for
a minute of its thirty.
-/

namespace GreenCompute

open ControlPlaneRepository ControlPlaneService

/-! ## The sweep -/

namespace ControlPlaneService

/-- What a stopped deployment's owner is told. -/
def runtimeMessage (minutes : ℕ) : Text :=
  "stopped automatically after max_runtime_minutes=".toList ++ (toString minutes).toList

/-- The checks of `stop_expired_runtimes` on a row: the minutes, if they are over. -/
def runtimeExpired (maxRuntimeMinutes : Option ℕ) (observedAt : Time) (record : DeploymentRecord) :
    Option ℕ :=
  match maxRuntimeMinutes, record.readyAt with
  | some minutes, some readyAt =>
    if minutes = 0 ∨ observedAt - readyAt < minutes * 60 then none else some minutes
  | _, _ => none

variable (maxRuntimeMinutes : DeploymentId → Option ℕ) (raises : DeploymentId → Bool)

/-- One turn of the loop of `stop_expired_runtimes`: whether the deployment was stopped. What raises
is logged. -/
def stopRuntime (observedAt : Time) (d : DeploymentId) (record : DeploymentRecord) :
    Program ControlPlane Bool :=
  match runtimeExpired (maxRuntimeMinutes d) observedAt record with
  | none => pure false
  | some minutes =>
    if raises d then pure false
    else do
      let now ← call .now
      match ← updateDeploymentStatus d
          { state := .terminated
            error := some (runtimeMessage minutes)
            observedAt := now } with
      | .ok _ => pure true
      | .error _ => pure false

/-- The loop of `stop_expired_runtimes`. -/
def stopRuntimes (observedAt : Time) :
    List (DeploymentId × DeploymentRecord) → Program ControlPlane (List DeploymentId)
  | [] => pure []
  | (d, record) :: rest => do
    let stopped ← stopRuntime maxRuntimeMinutes raises observedAt d record
    let others ← stopRuntimes observedAt rest
    pure (if stopped then d :: others else others)

/-- `stop_expired_runtimes` -/
def stopExpiredRuntimes (now : Option Time) : Program ControlPlane (List DeploymentId) := do
  let observedAt ← timeOr now
  let ready ← call (.listDeploymentsByState .ready)
  stopRuntimes maxRuntimeMinutes raises observedAt ready

end ControlPlaneService

/-! ## Runs -/

/-- The control plane's tables. With them goes a note of when each deployment was first seen ready,
and of how long it has been ready in all. -/
structure RuntimeWorld where
  fleet : Fleet
  firstReady : DeploymentId → Option Time
  readyFor : DeploymentId → Time

namespace RuntimeWorld

variable (w : RuntimeWorld)

/-- The clock. -/
def now : Time := w.fleet.now

/-- The tables have changed, or time has passed. -/
def move (s : Fleet) : RuntimeWorld where
  fleet := s
  firstReady d := (w.firstReady d).or (if s.state d = some .ready then some s.now else none)
  readyFor d := w.readyFor d + if w.fleet.state d = some .ready then s.now - w.now else 0

/-- No deployment has been ready yet. -/
structure Unstarted : Prop where
  firstReady : ∀ d, w.firstReady d = none
  readyFor : ∀ d, w.readyFor d = 0
  readyAt : ∀ d record, w.fleet.record d = some record →
    record.readyAt = none ∧ record.state ≠ .ready

end RuntimeWorld

/-- What can happen: anything is asked of the control plane or time passes, or the worker sweeps. The
updates that raise in a sweep are given. -/
inductive RuntimeOp where
  | call (c : FleetCall)
  | stopExpiredRuntimes (now : Option Time) (raises : DeploymentId → Bool)

/-- What it does. -/
def RuntimeOp.exec (settings : Settings) (protocol : Protocol)
    (maxRuntimeMinutes : DeploymentId → Option ℕ) : RuntimeOp → RuntimeWorld → RuntimeWorld
  | call c, w => w.move ((controlPlane settings protocol).after c w.fleet)
  | stopExpiredRuntimes now raises, w =>
    w.move (run settings (ControlPlaneService.stopExpiredRuntimes maxRuntimeMinutes raises now)
      w.fleet).1

variable {settings : Settings} {protocol : Protocol} {s : Fleet} {d : DeploymentId}

/-! ## Where a start is stamped -/

/-- Saves that leave the start of a deployment as it was read. -/
abbrev KeepsStart (record saved : DeploymentRecord) : Prop := saved.readyAt = record.readyAt

theorem lenient_keepsStart : Lenient KeepsStart := fun _ _ h _ ↦ h

/-- A method that leaves the start as it reads it, run on its own, leaves it as it is. -/
theorem start_run_of_carrying {α : Type} {p : Program ControlPlane α}
    {Q : α → List (Event ControlPlane) → Prop} {past : List (Event ControlPlane)}
    {start : Option Time} (hp : Carrying KeepsStart Q p past)
    (hread : ∀ record, lastRead past d = some record → record.readyAt = start)
    (hs : (s.record d).map DeploymentRecord.readyAt = some start) :
    ((run settings p s).1.record d).map DeploymentRecord.readyAt = some start := by
  induction p generalizing s past with
  | done a => exact hs
  | call o k ih =>
    obtain ⟨hsave, hrest⟩ := hp
    refine ih (o.exec settings s).2 (hrest (o.exec settings s).2 trivial) ?_ ?_
    · intro record hrecord
      by_cases hget : ∃ d', o = .getDeployment d'
      · obtain ⟨d', rfl⟩ := hget
        by_cases hd : d' = d
        · subst hd
          rw [lastRead_getDeployment] at hrecord
          have hfound : s.record d' = some record := hrecord
          rw [hfound, Option.map_some] at hs
          exact Option.some.inj hs
        · rw [lastRead, List.foldl_append, List.foldl_cons, List.foldl_nil] at hrecord
          dsimp only at hrecord
          rw [if_neg hd] at hrecord
          exact hread record hrecord
      · rw [lastRead_concat fun d' h ↦ hget ⟨d', h⟩] at hrecord
        exact hread record hrecord
    · cases recordStep_exec settings o d s with
      | kept h => exact (congrArg _ h).trans hs
      | saved saved op h =>
        subst op
        obtain ⟨record, hrecord, hkeeps⟩ := hsave
        have hstart : (savedRow saved (s.deployments.get? d)).record.readyAt = saved.readyAt := by
          cases s.deployments.get? d <;> rfl
        exact (congrArg _ h).trans
          (congrArg some (hstart.trans (hkeeps.trans (hread record hrecord))))
      | created record op fresh h =>
        rw [Fleet.record, fresh] at hs
        cases hs

/-- The same at the beginning of a call, when nothing has been read. -/
theorem start_run_of_carrying_nil {α : Type} {p : Program ControlPlane α}
    {Q : α → List (Event ControlPlane) → Prop} {start : Option Time}
    (hp : Carrying KeepsStart Q p [])
    (hs : (s.record d).map DeploymentRecord.readyAt = some start) :
    ((run settings p s).1.record d).map DeploymentRecord.readyAt = some start := by
  refine start_run_of_carrying hp (fun record hrecord ↦ ?_) hs
  have hnone : lastRead [] d = none := rfl
  exact nomatch hnone.symm.trans hrecord

/-- What a report makes of a record, with the start stamped if it is the first of a ready
deployment. -/
def stamped (update : DeploymentStatusUpdate) (record : DeploymentRecord) (now : Time) :
    DeploymentRecord :=
  reported update record update.state
    (if update.state = .ready ∧ record.readyAt = none then some now else record.readyAt)

theorem readyAt_stamped {update : DeploymentStatusUpdate} (h : update.state ≠ .ready)
    (record : DeploymentRecord) (now : Time) :
    (stamped update record now).readyAt = record.readyAt :=
  if_neg fun hboth ↦ h hboth.1

/-- A report is not taken, or saved with the start stamped. -/
theorem record_updateDeploymentStatus (settings : Settings) (d : DeploymentId)
    (update : DeploymentStatusUpdate) (s : Fleet) :
    (run settings (updateDeploymentStatus d update) s).1.record d = s.record d ∨
      ∃ record, s.record d = some record ∧
        (run settings (updateDeploymentStatus d update) s).1.record d =
          some (stamped update record s.now) := by
  rw [updateDeploymentStatus, run_bind, run_getDeployment]
  cases hrecord : s.record d with
  | none => exact .inl hrecord
  | some record =>
    dsimp only
    split
    · exact .inl hrecord
    · cases hnext : record.state.transition update.state with
      | none => exact .inl hrecord
      | some next =>
        obtain rfl := DeploymentState.transition_eq_some hnext
        dsimp only
        simp only [run_bind, run_pure]
        have hstamp : run settings (stampReadyAt update record) s =
            (s, if update.state = .ready ∧ record.readyAt = none then some s.now
              else record.readyAt) := by
          unfold stampReadyAt
          split <;> rfl
        rw [hstamp]
        have hfollow := stand_run_follow settings d update.state s
        generalize run settings (releaseFor d update.state) _ = followed at hfollow ⊢
        have hfound : followed.1.record d = some record := by
          rw [← stand_record, hfollow, Stand.record_follow, ← hrecord, stand_record]
        refine .inr ⟨record, rfl, ?_⟩
        rw [← stand_record, stand_run_of_steady settings (stampBillable_steady d _), stand_record]
        exact record_updateDeployment settings hfound rfl

/-- What can become of a deployment's start at a time: nothing, or the deployment is created, or
changed, or reported ready. -/
inductive StartStep (now : Time) : Option DeploymentRecord → Option DeploymentRecord → Prop
  | kept (r : Option DeploymentRecord) : StartStep now r r
  | created (record : DeploymentRecord) (start : record.readyAt = none)
      (idle : record.state ≠ .ready) : StartStep now none (some record)
  | changed (record saved : DeploymentRecord) (start : saved.readyAt = record.readyAt)
      (idle : saved.state = .ready → record.state = .ready) :
      StartStep now (some record) (some saved)
  | began (record saved : DeploymentRecord) (ready : saved.state = .ready)
      (start : saved.readyAt = record.readyAt.or (some now)) : StartStep now (some record) (some saved)

theorem StartStep.of_eq {now : Time} {r r' : Option DeploymentRecord} (h : r' = r) :
    StartStep now r r' := by
  rw [h]
  exact .kept r

/-- A report keeps the start, or stamps it. -/
theorem startStep_updateDeploymentStatus (settings : Settings) (d : DeploymentId)
    (update : DeploymentStatusUpdate) (s : Fleet) :
    StartStep s.now (s.record d)
      ((run settings (updateDeploymentStatus d update) s).1.record d) := by
  rcases record_updateDeploymentStatus settings d update s with hkept | ⟨record, hrecord, hsaved⟩
  · exact .of_eq hkept
  · rw [hrecord, hsaved]
    by_cases hready : update.state = .ready
    · refine .began record _ hready ?_
      cases hstart : record.readyAt with
      | none => exact if_pos ⟨hready, hstart⟩
      | some start =>
        have hset : record.readyAt ≠ none := by
          rw [hstart]
          exact Option.some_ne_none start
        exact (if_neg fun h ↦ hset h.2).trans hstart
    · exact .changed record _ (readyAt_stamped hready record s.now) fun h ↦ absurd h hready

/-- A deployment becomes ready by a report of its own. -/
theorem Edit.not_ready {c : FleetCall} {now : Time} {p q : Position} (h : Edit c d now p q)
    (hc : ∀ update record, c.Reports d now update record → update.state ≠ .ready)
    (hp : p.state ≠ some .ready) : q.state ≠ some .ready := by
  intro hready
  cases h with
  | created => cases Option.some.inj hready
  | noted record saved found same =>
    refine hp ((Position.state_of_record found).trans ?_)
    rw [← same.state]
    exact hready
  | reported update record readyAt found origin =>
    exact hc update record origin (Option.some.inj hready)
  | scheduled record saved stand attempts granted made found waiting terms state =>
    exact nomatch state.symm.trans (Option.some.inj hready)
  | unplaced record saved stand origin found terms state =>
    exact nomatch state.symm.trans (Option.some.inj hready)
  | ended record saved reason made found terms state =>
    exact nomatch state.symm.trans (Option.some.inj hready)
  | freed stand kept => exact hp ((Position.state_congr kept).symm.trans hready)
  | resumed stand made kept => exact hp ((Position.state_congr kept).symm.trans hready)
  | stamped => exact hp hready

/-- The calls that say that a deployment is ready. -/
def FleetCall.saysReady : FleetCall → Bool
  | .updateDeploymentStatus _ update | .deploymentStatus _ _ update => update.state = .ready
  | _ => false

theorem FleetCall.Reports.not_ready {c : FleetCall} (hc : c.saysReady = false) {now : Time}
    {update : DeploymentStatusUpdate} {record : DeploymentRecord}
    (h : c.Reports d now update record) : update.state ≠ .ready := by
  cases c with
  | deploymentStatus d' hotkey update' =>
    obtain ⟨-, -, rfl⟩ := h
    exact of_decide_eq_false hc
  | updateDeploymentStatus d' update' =>
    obtain ⟨-, rfl⟩ := h
    exact of_decide_eq_false hc
  | meterUsage | processIdleInferenceDeployments =>
    rw [h.1]
    decide
  | processUnhealthyMiners | reapExhaustedPods | processTimeouts =>
    rw [show update.state = _ from h]
    decide
  | recordDeploymentHealthFailure | processDeploymentRequest | failDeployment =>
    rw [h.2]
    decide
  | _ => exact h.elim

/-- A call that does not say so makes no deployment ready. -/
theorem not_ready_after (settings : Settings) (protocol : Protocol) {c : FleetCall}
    (hc : c.saysReady = false) (h : s.state d ≠ some .ready) :
    ((controlPlane settings protocol).after c s).state d ≠ some .ready :=
  position_after_of_edits settings protocol c (P := fun p ↦ p.state ≠ some .ready)
    (fun _ _ hedit hp ↦ hedit.not_ready (fun _ _ hreports ↦ hreports.not_ready hc) hp) h

/-- Only its own creation makes a deployment that there is not. -/
theorem missing_after (settings : Settings) (protocol : Protocol) {c : FleetCall}
    (hc : ∀ request, c ≠ .createDeployment d request) (h : s.record d = none) :
    ((controlPlane settings protocol).after c s).record d = none := by
  refine position_after_of_edits settings protocol c (P := fun p ↦ p.stand.record = none)
    (fun p q hedit hp ↦ ?_) h
  cases hedit with
  | created request quote made => exact absurd made (hc request)
  | noted record saved found => exact nomatch hp.symm.trans found
  | reported update record readyAt found => exact nomatch hp.symm.trans found
  | scheduled record saved stand attempts granted made found => exact nomatch hp.symm.trans found
  | unplaced record saved stand origin found => exact nomatch hp.symm.trans found
  | ended record saved reason made found => exact nomatch hp.symm.trans found
  | freed stand kept => exact kept.trans hp
  | resumed stand made kept => exact kept.trans hp
  | stamped => exact hp

/-- A creation is not made, or makes a deployment that has not been ready. -/
theorem created_after (settings : Settings) (protocol : Protocol)
    (request : DeploymentCreateRequest) (h : s.record d = none) :
    ∀ record, ((controlPlane settings protocol).after (.createDeployment d request) s).record d =
      some record → record.readyAt = none ∧ record.state ≠ .ready := by
  intro record hrecord
  change (run settings (discard (ControlPlaneService.createDeployment settings protocol d
    request)) s).1.record d = some record at hrecord
  rw [run_discard, ControlPlaneService.createDeployment, run_bind, run_getWorkload] at hrecord
  cases hworkload : s.workloads.get? request.workloadId with
  | none =>
    rw [hworkload] at hrecord
    cases h.symm.trans hrecord
  | some workload =>
    rw [hworkload] at hrecord
    dsimp only at hrecord
    have hlook : (run settings (onlineGpuModels settings) s).1 = s :=
      run_of_looks settings (onlineGpuModels_uses fun _ h ↦ h) s
    rw [run_bind, hlook] at hrecord
    obtain ⟨quote, hquote⟩ : ∃ quote, ((FleetOp.createDeployment d
        (newRecord request quote s.now)).exec settings s).1.record d = some record := ⟨_, hrecord⟩
    cases recordStep_exec settings (.createDeployment d (newRecord request quote s.now)) d s with
    | kept hkept => cases h.symm.trans (hkept.symm.trans hquote)
    | saved saved op => cases op
    | created created op fresh hcreated =>
      cases op
      obtain rfl := Option.some.inj (hcreated.symm.trans hquote)
      exact ⟨rfl, by rintro ⟨⟩⟩

/-- Off a machine the record is queued again as it was read. -/
theorem start_requeueUnassigned {start : Option Time} {record : DeploymentRecord}
    (hrecord : record.readyAt = start)
    (hs : (s.record d).map DeploymentRecord.readyAt = some start) :
    ((run settings (requeueUnassigned d record) s).1.record d).map DeploymentRecord.readyAt =
      some start := by
  have hread : lastRead [⟨.getDeployment d, some record⟩] d = some record :=
    lastRead_getDeployment [] d (some record)
  have hcarrying : Carrying KeepsStart Anyhow (requeueUnassigned d record)
      [⟨.getDeployment d, some record⟩] := by
    refine carrying_call (by trivial) hread fun now past hread ↦ ?_
    exact carrying_updateDeployment hread (by rfl) fun past _ ↦ trivial
  refine start_run_of_carrying hcarrying (fun seen hseen ↦ ?_) hs
  obtain rfl := Option.some.inj (hread.symm.trans hseen)
  exact hrecord

/-- The operator's requeue leaves the start as it is. -/
theorem start_requeueDeployment {start : Option Time}
    (hs : (s.record d).map DeploymentRecord.readyAt = some start) :
    ((run settings (requeueDeployment settings d) s).1.record d).map DeploymentRecord.readyAt =
      some start := by
  rw [requeueDeployment, run_bind, run_getDeployment]
  cases hrecord : s.record d with
  | none => cases (congrArg _ hrecord).symm.trans hs
  | some record =>
    have hstart : record.readyAt = start := Option.some.inj ((congrArg _ hrecord).symm.trans hs)
    dsimp only
    rw [run_bind, run_activeAssignment]
    cases (s.stand d).lease.filter (fun lease ↦ lease.status ∈ activeStatuses) with
    | none =>
      dsimp only
      rw [run_bind]
      exact start_requeueUnassigned hstart hs
    | some assignment =>
      dsimp only
      rw [run_bind, run_bind, run_call]
      simp only [FleetOp.exec]
      have hkept : ((run settings (requeueAssignment settings d assignment operatorRequeue s.now)
          s).1.record d).map DeploymentRecord.readyAt = some start :=
        start_run_of_carrying_nil (requeueAssignment_carrying lenient_keepsStart [] d _ _ _) hs
      generalize run settings (requeueAssignment settings d assignment operatorRequeue s.now) s =
        requeued at hkept ⊢
      cases requeued.2 with
      | some saved => exact hkept
      | none =>
        dsimp only
        rw [run_bind]
        exact start_requeueUnassigned hstart hkept

/-- A call that does not say that a deployment is ready leaves every start as it is. -/
theorem start_after (settings : Settings) (protocol : Protocol) {c : FleetCall}
    (hc : c.saysReady = false) {start : Option Time}
    (hs : (s.record d).map DeploymentRecord.readyAt = some start) :
    (((controlPlane settings protocol).after c s).record d).map DeploymentRecord.readyAt =
      some start := by
  by_cases hrequeue : ∃ d', c = .requeueDeployment d'
  · obtain ⟨d', rfl⟩ := hrequeue
    change ((run settings (discard (requeueDeployment settings d')) s).1.record d).map _ = _
    rw [run_discard]
    by_cases hd : d = d'
    · subst hd
      exact start_requeueDeployment hs
    · have habout : (requeueDeployment settings d').Uses (About d') :=
        (permits_about d').requeueDeployment_uses (about_self rfl rfl)
      have hkept := position_run_of_about settings habout hd s
      exact (congrArg (fun p : Position ↦ p.stand.record.map DeploymentRecord.readyAt) hkept).trans hs
  · have hrequeues : c.requeues = false := by
      cases c with
      | requeueDeployment d' => exact absurd ⟨d', rfl⟩ hrequeue
      | _ => rfl
    have hcarrying : Carrying KeepsStart Anyhow (c.body settings protocol) [] := by
      refine body_carrying lenient_keepsStart c hrequeues ?_ ?_
      · rintro d' update rfl
        exact lenient_keepsStart.reportable (of_decide_eq_false hc)
      · rintro d' hotkey update rfl
        exact lenient_keepsStart.reportable (of_decide_eq_false hc)
    exact start_run_of_carrying_nil hcarrying hs

/-- A miner's report is refused, or taken as a report. -/
theorem startStep_deploymentStatus (settings : Settings) (d : DeploymentId) (hotkey : Hotkey)
    (update : DeploymentStatusUpdate) (s : Fleet) :
    StartStep s.now (s.record d) ((run settings (deploymentStatus d hotkey update) s).1.record d) := by
  rw [deploymentStatus, run_bind, run_getDeployment]
  cases hrecord : s.record d with
  | none => exact .of_eq hrecord
  | some record =>
    dsimp only
    split
    · exact .of_eq hrecord
    · have hreport := startStep_updateDeploymentStatus settings d
        { update with suspendedReason := none } s
      rw [run_bind, ← hrecord]
      split <;> exact hreport

theorem startStep_of_about {α : Type} {p : Program ControlPlane α} {d' : DeploymentId}
    (hp : p.Uses (About d')) (hd : d ≠ d') (now : Time) :
    StartStep now (s.record d) ((run settings p s).1.record d) :=
  .of_eq (congrArg (fun position : Position ↦ position.stand.record)
    (position_run_of_about settings hp hd s))

/-- **Where a start is stamped.** A call leaves the start of a deployment as it is, unless it is the
first report that the deployment is ready. -/
theorem startStep_after (settings : Settings) (protocol : Protocol) (c : FleetCall) (s : Fleet)
    (d : DeploymentId) :
    StartStep ((controlPlane settings protocol).after c s).now (s.record d)
      (((controlPlane settings protocol).after c s).record d) := by
  cases hc : c.saysReady with
  | false =>
    cases hrecord : s.record d with
    | none =>
      by_cases hcreate : ∃ request, c = .createDeployment d request
      · obtain ⟨request, rfl⟩ := hcreate
        have hcreated := created_after settings protocol request hrecord
        generalize ((controlPlane settings protocol).after _ s).record d = r at hcreated ⊢
        cases r with
        | none => exact .kept none
        | some record => exact .created record (hcreated record rfl).1 (hcreated record rfl).2
      · exact .of_eq (missing_after settings protocol (not_exists.mp hcreate) hrecord)
    | some record =>
      have hstart := start_after settings protocol hc
        (congrArg (Option.map DeploymentRecord.readyAt) hrecord)
      obtain ⟨saved, hsaved, hsame⟩ := Option.map_eq_some_iff.mp hstart
      rw [hsaved]
      refine .changed record saved hsame fun hready ↦ by_contra fun hidle ↦ ?_
      refine not_ready_after settings protocol hc (d := d) (s := s) ?_
        ((Fleet.state_of_some hsaved).trans (congrArg some hready))
      rw [Fleet.state_of_some hrecord]
      exact fun h ↦ hidle (Option.some.inj h)
  | true =>
    have htime : ∀ seconds, c ≠ .advance seconds := by
      rintro seconds rfl
      cases hc
    rw [(edited_after settings protocol htime s).now]
    -- The call is a report of one deployment.
    cases c with
    | updateDeploymentStatus d' update =>
      change StartStep s.now (s.record d)
        ((run settings (discard (updateDeploymentStatus d' update)) s).1.record d)
      rw [run_discard]
      by_cases hd : d = d'
      · subst hd
        exact startStep_updateDeploymentStatus settings d update s
      · exact startStep_of_about ((permits_about d').updateDeploymentStatus_uses update) hd s.now
    | deploymentStatus d' hotkey update =>
      change StartStep s.now (s.record d)
        ((run settings (discard (deploymentStatus d' hotkey update)) s).1.record d)
      rw [run_discard]
      by_cases hd : d = d'
      · subst hd
        exact startStep_deploymentStatus settings d hotkey update s
      · exact startStep_of_about ((permits_about d').deploymentStatus_uses hotkey update) hd s.now
    | _ => cases hc

/-! ## What a sweep stops -/

variable {maxRuntimeMinutes : DeploymentId → Option ℕ} {raises : DeploymentId → Bool}
  {observedAt : Time}

/-- What a sweep makes of a record: it is left, or it was ready, its minutes are over and it is
stopped. -/
inductive Swept (minutes : Option ℕ) (raises : Bool) (observedAt : Time) :
    Option DeploymentRecord → Option DeploymentRecord → Prop
  | kept (r : Option DeploymentRecord)
      (why : ∀ record, r = some record → record.state = .ready →
        runtimeExpired minutes observedAt record = none ∨ raises = true) :
      Swept minutes raises observedAt r r
  | stopped (record saved : DeploymentRecord) (ready : record.state = .ready)
      (expired : (runtimeExpired minutes observedAt record).isSome) (state : saved.state = .terminated)
      (start : saved.readyAt = record.readyAt) :
      Swept minutes raises observedAt (some record) (some saved)

theorem Swept.startStep {minutes : Option ℕ} {raises : Bool} {r r' : Option DeploymentRecord}
    (h : Swept minutes raises observedAt r r') (now : Time) : StartStep now r r' := by
  cases h with
  | kept => exact .kept r
  | stopped record saved ready expired state start =>
    exact .changed record saved start fun h ↦ nomatch state.symm.trans h

/-- Minutes that are over, counted from the start. -/
theorem runtimeExpired_isSome {minutes : Option ℕ} {record : DeploymentRecord}
    (h : (runtimeExpired minutes observedAt record).isSome) :
    ∃ m readyAt, minutes = some m ∧ record.readyAt = some readyAt ∧ m * 60 ≤ observedAt - readyAt := by
  unfold runtimeExpired at h
  split at h
  · next m readyAt hstart =>
    split at h
    · cases h
    · next hover =>
      rw [not_or, not_lt] at hover
      exact ⟨m, readyAt, rfl, hstart, hover.2⟩
  · cases h

theorem lt_of_runtimeExpired_none {minutes : ℕ} (hpositive : minutes ≠ 0)
    {record : DeploymentRecord} {readyAt : Time} (hstart : record.readyAt = some readyAt)
    (h : runtimeExpired (some minutes) observedAt record = none) :
    observedAt - readyAt < minutes * 60 := by
  unfold runtimeExpired at h
  rw [hstart] at h
  dsimp only at h
  split at h
  · next hrunning => exact hrunning.resolve_left hpositive
  · cases h

theorem stopRuntime_about (observedAt : Time) (d : DeploymentId) (record : DeploymentRecord) :
    (stopRuntime maxRuntimeMinutes raises observedAt d record).Uses (About d) := by
  unfold stopRuntime
  split
  · trivial
  · split
    · trivial
    · refine .op_bind (about_of_none rfl rfl) fun now ↦ ?_
      refine .bind ((permits_about d).updateDeploymentStatus_uses _) fun outcome ↦ ?_
      split <;> trivial

/-- One turn of the loop, over a deployment that is ready. -/
theorem swept_stopRuntime {record : DeploymentRecord} (hrecord : s.record d = some record)
    (hready : record.state = .ready) :
    Swept (maxRuntimeMinutes d) (raises d) observedAt (s.record d)
      ((run settings (stopRuntime maxRuntimeMinutes raises observedAt d record) s).1.record d) := by
  have hkept (h : runtimeExpired (maxRuntimeMinutes d) observedAt record = none ∨ raises d = true) :
      Swept (maxRuntimeMinutes d) (raises d) observedAt (s.record d) (s.record d) :=
    .kept _ fun record' hrecord' _ ↦ Option.some.inj (hrecord.symm.trans hrecord') ▸ h
  unfold stopRuntime
  cases hexpired : runtimeExpired (maxRuntimeMinutes d) observedAt record with
  | none => exact hkept (.inl hexpired)
  | some minutes =>
    dsimp only
    by_cases hraises : raises d = true
    · rw [if_pos hraises]
      exact hkept (.inr hraises)
    · rw [if_neg hraises, run_bind, run_call]
      simp only [FleetOp.exec]
      -- The report is taken, and the start stays.
      have hspec := run_updateDeploymentStatus settings d
        { state := .terminated, error := some (runtimeMessage minutes), observedAt := s.now } s
      have hstart := record_updateDeploymentStatus settings d
        { state := .terminated, error := some (runtimeMessage minutes), observedAt := s.now } s
      rw [run_bind]
      generalize run settings (updateDeploymentStatus d _) s = reported at hspec hstart ⊢
      have hterminated : reported.1.state d = some .terminated := by
        cases hspec with
        | refused same why =>
          rcases why record hrecord with hterminal | hrefused
          · rw [hready] at hterminal
            exact absurd hterminal (by decide)
          · rw [hready] at hrefused
            cases hrefused
        | saved record' readyAt found live allowed moved =>
          exact Fleet.state_of_some (congrArg Stand.record moved)
      have hswept : Swept (maxRuntimeMinutes d) (raises d) observedAt (s.record d)
          (reported.1.record d) := by
        rcases hstart with hsame | ⟨record', hrecord', hsaved⟩
        · rw [Fleet.state_of_some (hsame.trans hrecord), hready] at hterminated
          cases hterminated
        · obtain rfl := Option.some.inj (hrecord.symm.trans hrecord')
          rw [hrecord, hsaved]
          exact .stopped record _ hready (hexpired ▸ rfl) rfl (readyAt_stamped (by rintro ⟨⟩) record s.now)
      split <;> exact hswept

theorem record_stopRuntimes_of_notMem {ready : List (DeploymentId × DeploymentRecord)}
    (h : d ∉ ready.map Prod.fst) (s : Fleet) :
    (run settings (stopRuntimes maxRuntimeMinutes raises observedAt ready) s).1.record d =
      s.record d := by
  induction ready generalizing s with
  | nil => rfl
  | cons row ready ih =>
    rw [List.map_cons, List.mem_cons, not_or] at h
    rw [stopRuntimes, run_bind, run_bind]
    refine (ih h.2 _).trans ?_
    exact congrArg (fun position : Position ↦ position.stand.record)
      (position_run_of_about settings (stopRuntime_about observedAt row.1 row.2) h.1 s)

/-- The loop, over the deployments that are ready. -/
theorem swept_stopRuntimes {ready : List (DeploymentId × DeploymentRecord)}
    (hnodup : (ready.map Prod.fst).Nodup)
    (hmem : ∀ record, (d, record) ∈ ready ↔ s.record d = some record ∧ record.state = .ready) :
    Swept (maxRuntimeMinutes d) (raises d) observedAt (s.record d)
      ((run settings (stopRuntimes maxRuntimeMinutes raises observedAt ready) s).1.record d) := by
  induction ready generalizing s with
  | nil => exact .kept _ fun record hrecord hready ↦ nomatch (hmem record).mpr ⟨hrecord, hready⟩
  | cons row ready ih =>
    obtain ⟨d', record⟩ := row
    rw [List.map_cons, List.nodup_cons] at hnodup
    rw [stopRuntimes, run_bind, run_bind]
    by_cases hd : d = d'
    · subst hd
      obtain ⟨hrecord, hready⟩ := (hmem record).mp List.mem_cons_self
      have hone : Swept (maxRuntimeMinutes d) (raises d) observedAt (s.record d)
          ((run settings (stopRuntime maxRuntimeMinutes raises observedAt d record) s).1.record d) :=
        swept_stopRuntime hrecord hready
      have hrest : (run settings (stopRuntimes maxRuntimeMinutes raises observedAt ready)
          (run settings (stopRuntime maxRuntimeMinutes raises observedAt d record) s).1).1.record d =
          (run settings (stopRuntime maxRuntimeMinutes raises observedAt d record) s).1.record d :=
        record_stopRuntimes_of_notMem hnodup.1 _
      rw [← hrest] at hone
      exact hone
    · have hother : (run settings (stopRuntime maxRuntimeMinutes raises observedAt d' record)
          s).1.record d = s.record d :=
        congrArg (fun position : Position ↦ position.stand.record)
          (position_run_of_about settings (stopRuntime_about observedAt d' record) hd s)
      have hrest := ih (s := (run settings (stopRuntime maxRuntimeMinutes raises observedAt d'
        record) s).1) hnodup.2 fun saved ↦ by
          rw [hother, ← hmem saved, List.mem_cons]
          exact ⟨.inr, fun h ↦ h.resolve_left fun heq ↦ hd (congrArg Prod.fst heq)⟩
      rw [hother] at hrest
      exact hrest

/-- The whole sweep. -/
theorem swept_stopExpiredRuntimes (settings : Settings)
    (maxRuntimeMinutes : DeploymentId → Option ℕ) (raises : DeploymentId → Bool)
    (now : Option Time) (s : Fleet) (d : DeploymentId) :
    Swept (maxRuntimeMinutes d) (raises d) (now.getD s.now) (s.record d)
      ((run settings (ControlPlaneService.stopExpiredRuntimes maxRuntimeMinutes raises now)
        s).1.record d) := by
  have htime : run settings (timeOr now) s = (s, now.getD s.now) := by cases now <;> rfl
  rw [ControlPlaneService.stopExpiredRuntimes, run_bind, htime, run_bind,
    run_listDeploymentsByState]
  exact swept_stopRuntimes (nodup_listDeploymentsByState .ready s) fun record ↦
    mem_listDeploymentsByState

theorem now_stopRuntimes (ready : List (DeploymentId × DeploymentRecord)) (s : Fleet) :
    (run settings (stopRuntimes maxRuntimeMinutes raises observedAt ready) s).1.now = s.now := by
  induction ready generalizing s with
  | nil => rfl
  | cons row ready ih =>
    rw [stopRuntimes, run_bind, run_bind]
    exact (ih _).trans (now_run_of_about settings (stopRuntime_about observedAt row.1 row.2) s)

theorem now_stopExpiredRuntimes (settings : Settings)
    (maxRuntimeMinutes : DeploymentId → Option ℕ) (raises : DeploymentId → Bool)
    (now : Option Time) (s : Fleet) :
    (run settings (ControlPlaneService.stopExpiredRuntimes maxRuntimeMinutes raises now)
      s).1.now = s.now := by
  have htime : run settings (timeOr now) s = (s, now.getD s.now) := by cases now <;> rfl
  rw [ControlPlaneService.stopExpiredRuntimes, run_bind, htime, run_bind]
  exact now_stopRuntimes _ s

/-! ## Counting -/

namespace RuntimeWorld

variable {w : RuntimeWorld}

@[simp] theorem firstReady_move (s : Fleet) (d : DeploymentId) :
    (w.move s).firstReady d =
      (w.firstReady d).or (if s.state d = some .ready then some s.now else none) := rfl

@[simp] theorem readyFor_move (s : Fleet) (d : DeploymentId) :
    (w.move s).readyFor d =
      w.readyFor d + if w.fleet.state d = some .ready then s.now - w.now else 0 := rfl

/-- The start that is kept of a deployment is when it was ready first, and it has not been ready for
longer than since then. -/
structure Counted (w : RuntimeWorld) (d : DeploymentId) : Prop where
  missing : w.fleet.record d = none → w.firstReady d = none
  start : ∀ record, w.fleet.record d = some record → record.readyAt = w.firstReady d
  ready : w.fleet.state d = some .ready → w.firstReady d ≠ none
  spent : ∀ first, w.firstReady d = some first → w.readyFor d ≤ w.now - first
  unspent : w.firstReady d = none → w.readyFor d = 0

theorem Unstarted.counted (h : w.Unstarted) (d : DeploymentId) : w.Counted d where
  missing _ := h.firstReady d
  start record hrecord := (h.readyAt d record hrecord).1.trans (h.firstReady d).symm
  ready hready := by
    obtain ⟨record, hrecord, hstate⟩ := Option.map_eq_some_iff.mp hready
    exact absurd hstate (h.readyAt d record hrecord).2
  spent first hfirst := nomatch (h.firstReady d).symm.trans hfirst
  unspent _ := h.readyFor d

/-- Where nothing becomes ready that has not been ready, the note stays. -/
theorem or_ready_eq {now : Time} {r : Option DeploymentRecord} {first : Option Time}
    (h : r.map DeploymentRecord.state = some .ready → first ≠ none) :
    first.or (if r.map DeploymentRecord.state = some .ready then some now else none) = first := by
  cases first with
  | none => exact if_neg fun hready ↦ h hready rfl
  | some first => rfl

/-- The first time that is noted goes with what becomes of the start. -/
theorem first_of_startStep {now : Time} {r r' : Option DeploymentRecord} {first noted : Option Time}
    (h : StartStep now r r') (hmissing : r = none → first = none)
    (hstart : ∀ record, r = some record → record.readyAt = first)
    (hready : r.map DeploymentRecord.state = some .ready → first ≠ none)
    (hnoted : noted =
      first.or (if r'.map DeploymentRecord.state = some .ready then some now else none)) :
    (r' = none → noted = none) ∧ (∀ record, r' = some record → record.readyAt = noted) ∧
      (r'.map DeploymentRecord.state = some .ready → noted ≠ none) := by
  cases h with
  | kept =>
    rw [or_ready_eq hready] at hnoted
    subst hnoted
    exact ⟨hmissing, hstart, hready⟩
  | created record start idle =>
    have hidle : (some record).map DeploymentRecord.state = some .ready → first ≠ none :=
      fun h ↦ absurd (Option.some.inj h) idle
    rw [or_ready_eq hidle, hmissing rfl] at hnoted
    subst hnoted
    refine ⟨nofun, fun record' hrecord' ↦ ?_, fun h ↦ absurd (Option.some.inj h) idle⟩
    obtain rfl := Option.some.inj hrecord'
    exact start
  | changed record saved start idle =>
    have hwas : (some saved).map DeploymentRecord.state = some .ready → first ≠ none :=
      fun h ↦ hready (congrArg some (idle (Option.some.inj h)))
    rw [or_ready_eq hwas] at hnoted
    subst hnoted
    refine ⟨nofun, fun record' hrecord' ↦ ?_, hwas⟩
    obtain rfl := Option.some.inj hrecord'
    exact start.trans (hstart record rfl)
  | began record saved ready start =>
    have hsaved : (some saved).map DeploymentRecord.state = some .ready := congrArg some ready
    rw [if_pos hsaved] at hnoted
    subst hnoted
    refine ⟨nofun, fun record' hrecord' ↦ ?_, fun _ ↦ ?_⟩
    · obtain rfl := Option.some.inj hrecord'
      rw [start, hstart record rfl]
    · cases first <;> exact Option.some_ne_none _

/-- A step that moves a start as steps do keeps the count. -/
theorem Counted.move (h : w.Counted d) (hstep : StartStep s.now (w.fleet.record d) (s.record d))
    (hnow : w.now ≤ s.now) : (w.move s).Counted d := by
  have hnoted : (w.move s).firstReady d =
      (w.firstReady d).or (if s.state d = some .ready then some s.now else none) := rfl
  obtain ⟨hmissing, hstart, hready⟩ :=
    first_of_startStep hstep h.missing h.start h.ready hnoted
  have hgrown : (w.move s).readyFor d ≤ w.readyFor d + (s.now - w.now) := by
    refine add_le_add_right ?_ _
    split
    · exact le_rfl
    · exact sub_nonneg.mpr hnow
  cases hfirst : w.firstReady d with
  | some first =>
    have hkept : (w.move s).firstReady d = some first := by
      rw [firstReady_move, hfirst]
      rfl
    refine ⟨hmissing, hstart, hready, fun first' hfirst' ↦ ?_, fun hnone ↦ ?_⟩
    · obtain rfl := Option.some.inj (hkept.symm.trans hfirst')
      have hspent := h.spent first hfirst
      have hclock : (w.move s).now = s.now := rfl
      rw [hclock]
      linarith
    · exact nomatch hkept.symm.trans hnone
  | none =>
    -- It was not ready, and has spent no time.
    have hidle : w.fleet.state d ≠ some .ready := fun hr ↦ h.ready hr hfirst
    have hzero : (w.move s).readyFor d = 0 := by
      have hsame : (w.move s).readyFor d = w.readyFor d + 0 := congrArg _ (if_neg hidle)
      rw [hsame, h.unspent hfirst, add_zero]
    refine ⟨hmissing, hstart, hready, fun first' hfirst' ↦ ?_, fun _ ↦ hzero⟩
    rw [firstReady_move, hfirst, Option.none_or] at hfirst'
    split at hfirst'
    · obtain rfl := Option.some.inj hfirst'
      rw [hzero]
      exact (sub_self _).ge
    · cases hfirst'

/-- Every step keeps the count. -/
theorem Counted.exec (h : w.Counted d) (settings : Settings) (protocol : Protocol)
    (maxRuntimeMinutes : DeploymentId → Option ℕ) (o : RuntimeOp) :
    (o.exec settings protocol maxRuntimeMinutes w).Counted d := by
  cases o with
  | call c =>
    exact h.move (startStep_after settings protocol c w.fleet d)
      (now_le_after settings protocol c w.fleet)
  | stopExpiredRuntimes now raises =>
    exact h.move
      ((swept_stopExpiredRuntimes settings maxRuntimeMinutes raises now w.fleet d).startStep _)
      (now_stopExpiredRuntimes settings maxRuntimeMinutes raises now w.fleet).ge

/-- A sweep stops nothing before its minutes are over, counted from when it was ready first; and if
no update raises, it leaves nothing ready that was ready first, or has been ready, for its minutes. -/
def CountsFromStart (w : RuntimeWorld) (settings : Settings) (protocol : Protocol)
    (maxRuntimeMinutes : DeploymentId → Option ℕ) (now : Option Time)
    (raises : DeploymentId → Bool) : Prop :=
  let w' := (RuntimeOp.stopExpiredRuntimes now raises).exec settings protocol maxRuntimeMinutes w
  let observedAt := now.getD w.now
  (∀ d, w.fleet.state d ≠ some .terminated → w'.fleet.state d = some .terminated →
    ∃ minutes first, maxRuntimeMinutes d = some minutes ∧ w.firstReady d = some first ∧
      minutes * 60 ≤ observedAt - first) ∧
  ((∀ d, raises d = false) → ∀ d minutes, maxRuntimeMinutes d = some minutes → minutes ≠ 0 →
    w'.fleet.state d = some .ready →
      (∃ first, w'.firstReady d = some first ∧ observedAt - first < minutes * 60) ∧
        w'.readyFor d + (observedAt - w.now) < minutes * 60)

/-- A sweep counts from the start that is kept. -/
theorem countsFromStart_of_counted (h : ∀ d, w.Counted d) (settings : Settings)
    (protocol : Protocol) (maxRuntimeMinutes : DeploymentId → Option ℕ) (now : Option Time)
    (raises : DeploymentId → Bool) :
    w.CountsFromStart settings protocol maxRuntimeMinutes now raises := by
  have hclock := now_stopExpiredRuntimes settings maxRuntimeMinutes raises now w.fleet
  have hswept := swept_stopExpiredRuntimes settings maxRuntimeMinutes raises now w.fleet
  constructor
  · intro d hbefore hafter
    specialize hswept d
    have hstart := (h d).start
    change (w.fleet.record d).map DeploymentRecord.state ≠ _ at hbefore
    change ((run settings (ControlPlaneService.stopExpiredRuntimes maxRuntimeMinutes raises now)
      w.fleet).1.record d).map DeploymentRecord.state = _ at hafter
    generalize w.fleet.record d = r at hswept hstart hbefore
    generalize (run settings (ControlPlaneService.stopExpiredRuntimes maxRuntimeMinutes raises now)
      w.fleet).1.record d = r' at hswept hafter
    cases hswept with
    | kept => exact absurd hafter hbefore
    | stopped record saved ready expired =>
      obtain ⟨minutes, readyAt, hminutes, hready, hover⟩ := runtimeExpired_isSome expired
      exact ⟨minutes, readyAt, hminutes, (hstart record rfl).symm.trans hready, hover⟩
  · intro hraises d minutes hminutes hpositive hafter
    specialize hswept d
    have hstart := (h d).start
    have hready := (h d).ready
    rw [hminutes, hraises d] at hswept
    change ((run settings (ControlPlaneService.stopExpiredRuntimes maxRuntimeMinutes raises now)
      w.fleet).1.record d).map DeploymentRecord.state = _ at hafter
    have hfirst : ∃ first, w.firstReady d = some first ∧ now.getD w.now - first < minutes * 60 := by
      change (w.fleet.record d).map DeploymentRecord.state = _ → _ at hready
      generalize w.fleet.record d = r at hswept hstart hready
      generalize (run settings (ControlPlaneService.stopExpiredRuntimes maxRuntimeMinutes raises
        now) w.fleet).1.record d = r' at hswept hafter
      cases hswept with
      | kept _ why =>
        obtain ⟨record, rfl, hstate⟩ := Option.map_eq_some_iff.mp hafter
        obtain ⟨first, hfirst⟩ := Option.ne_none_iff_exists'.mp (hready hafter)
        have hrunning := (why record rfl hstate).resolve_right Bool.false_ne_true
        exact ⟨first, hfirst,
          lt_of_runtimeExpired_none hpositive ((hstart record rfl).trans hfirst) hrunning⟩
      | stopped record saved ready expired state =>
        exact nomatch state.symm.trans (Option.some.inj hafter)
    obtain ⟨first, hfirst, hrunning⟩ := hfirst
    refine ⟨⟨first, ?_, hrunning⟩, ?_⟩
    · rw [RuntimeOp.exec, firstReady_move, hfirst]
      rfl
    · have hspent := (h d).spent first hfirst
      have hsame : ((RuntimeOp.stopExpiredRuntimes now raises).exec settings protocol
          maxRuntimeMinutes w).readyFor d = w.readyFor d := by
        rw [RuntimeOp.exec, readyFor_move, hclock, RuntimeWorld.now, sub_self, ite_self, add_zero]
      rw [hsame]
      linarith

end RuntimeWorld

open RuntimeWorld

/-- **The cap counts from the first start.** In every run, whatever is asked and however often the
deployment is suspended, resumed or moved, a sweep counts from when it was ready first. -/
theorem runtime_cap_counts_from_start (settings : Settings) (protocol : Protocol)
    (maxRuntimeMinutes : DeploymentId → Option ℕ) {w₀ w : RuntimeWorld} (unstarted : w₀.Unstarted)
    (run : Steps (RuntimeOp.exec settings protocol maxRuntimeMinutes) (fun _ _ ↦ True) w₀ w)
    (now : Option Time) (raises : DeploymentId → Bool) :
    w.CountsFromStart settings protocol maxRuntimeMinutes now raises := by
  have hcounted : ∀ d, w.Counted d :=
    run.invariant (P := fun w ↦ ∀ d, w.Counted d)
      (fun o _ h _ d ↦ (h d).exec settings protocol maxRuntimeMinutes o) unstarted.counted
  exact countsFromStart_of_counted hcounted settings protocol maxRuntimeMinutes now raises

/-- User 1 and the rental, with nothing deployed yet. -/
private def beforeRuntime : RuntimeWorld := ⟨podOwner 1000, fun _ ↦ none, fun _ ↦ 0⟩

private theorem unstarted_beforeRuntime : beforeRuntime.Unstarted :=
  ⟨fun _ ↦ rfl, fun _ ↦ rfl, fun _ _ h ↦ nomatch h⟩

/-- A pod that may run for half an hour is stopped when it has. -/
theorem runtime_cap_counts_from_start_half_hour :
    ∃ w, w.CountsFromStart {} quotedRates (fun _ ↦ some 30) none (fun _ ↦ false) ∧
      w.fleet.state 1 = some .ready ∧ w.readyFor 1 = 1800 ∧
      ((RuntimeOp.stopExpiredRuntimes none fun _ ↦ false).exec {} quotedRates (fun _ ↦ some 30)
        w).fleet.state 1 = some .terminated := by
  have run := Steps.of_admits (RuntimeOp.exec {} quotedRates fun _ ↦ some 30) (fun _ _ ↦ True)
    beforeRuntime (startPod.map .call ++ [.call (.advance 1800)]) (by decide +kernel)
  exact ⟨_, runtime_cap_counts_from_start {} quotedRates _ unstarted_beforeRuntime run none _,
    by decide +kernel⟩

/-- The pod is suspended after a minute, and resumed the next day. -/
private def suspendedForADay : List FleetCall :=
  startPod ++ [.advance 60, .updateDeploymentStatus 1 { state := .suspended, observedAt := 60 },
    .advance 86400, .resumeDeployment 1,
    .deploymentStatus 1 7 { state := .ready, readyInstances := 1, observedAt := 86460 }]

/-- A pod that was ready for a minute of its thirty, and suspended for a day, is stopped. -/
theorem suspended_time_counts :
    ¬∀ (settings : Settings) (protocol : Protocol) (maxRuntimeMinutes : DeploymentId → Option ℕ)
      (w₀ w : RuntimeWorld), w₀.Unstarted →
        Steps (RuntimeOp.exec settings protocol maxRuntimeMinutes) (fun _ _ ↦ True) w₀ w →
          ∀ d minutes, maxRuntimeMinutes d = some minutes → w.fleet.state d = some .ready →
            ((RuntimeOp.stopExpiredRuntimes none fun _ ↦ false).exec settings protocol
              maxRuntimeMinutes w).fleet.state d = some .terminated → minutes * 60 ≤ w.readyFor d := by
  intro h
  have run := Steps.of_admits (RuntimeOp.exec {} quotedRates fun _ ↦ some 30) (fun _ _ ↦ True)
    beforeRuntime (suspendedForADay.map .call) (by decide +kernel)
  exact absurd (h _ _ _ _ _ unstarted_beforeRuntime run 1 30 rfl (by decide +kernel)
    (by decide +kernel)) (by decide +kernel)

end GreenCompute
