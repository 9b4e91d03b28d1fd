import GreenCompute.ControlPlane.Metering

/-!
# Suspended deployments

A suspended deployment has given its GPUs back, and is to stay as it is until somebody resumes it;
a suspended pod is kept for its retention before the reaper may end it. Both rest on what machines
report. A report that a suspended deployment is running again is taken whether it was resumed or
not, so the first holds where such reports come from deployments that hold their GPUs; and the
time from which the retention runs is one that the machine's report may carry, so the second holds
where that time is no earlier than the server's.
-/

namespace GreenCompute

open ControlPlaneRepository ControlPlaneService

variable {settings : Settings} {protocol : Protocol} {s : Fleet} {d : DeploymentId}
  {c : FleetCall} {now : Time} {p q : Position}

/-! ## Suspended and holding GPUs -/

/-- The deployment is suspended and holds GPUs. -/
def Position.Rearmed (p : Position) : Prop := p.state = some .suspended ∧ p.stand.holding = true

/-- Only a resume gives a suspended deployment its GPUs: one that is suspended by a call has given
them back. -/
theorem Edit.rearmed (h : Edit c d now p q) (hc : c ≠ .resumeDeployment d) (hq : q.Rearmed) :
    p.Rearmed := by
  obtain ⟨hstate, hholding⟩ := hq
  cases h with
  | created => exact nomatch Option.some.inj hstate
  | noted record saved found same =>
    refine ⟨?_, hholding⟩
    rw [Position.state_of_record found, ← same.state]
    exact hstate
  | reported update record readyAt found origin live allowed =>
    have hsuspended : update.state = .suspended := Option.some.inj hstate
    have hreleased : (p.stand.follow update.state).holding = false :=
      Stand.holding_follow (by rw [hsuspended]; rfl)
    exact nomatch hreleased.symm.trans hholding
  | scheduled record saved stand attempts granted made found waiting terms state =>
    exact nomatch state.symm.trans (Option.some.inj hstate)
  | unplaced record saved stand origin found terms state =>
    exact nomatch state.symm.trans (Option.some.inj hstate)
  | ended record saved reason made found terms state =>
    exact nomatch state.symm.trans (Option.some.inj hstate)
  | freed stand kept hold => exact ⟨(Position.state_congr kept).symm.trans hstate, hold hholding⟩
  | resumed stand made => exact absurd made hc
  | stamped => exact ⟨hstate, hholding⟩

/-- A call that takes no time and its edits, or the passing of time. -/
theorem edits_after (settings : Settings) (protocol : Protocol) (c : FleetCall) (s : Fleet)
    (d : DeploymentId) :
    Edits c d s.now (s.position d) (((controlPlane settings protocol).after c s).position d) := by
  by_cases htime : ∃ seconds, c = .advance seconds
  · obtain ⟨seconds, rfl⟩ := htime
    rw [position_after_advance]
  · exact (edited_after settings protocol (fun seconds h ↦ htime ⟨seconds, h⟩) s).position d

/-- The clock does not go back. -/
theorem now_le_after (settings : Settings) (protocol : Protocol) (c : FleetCall) (s : Fleet) :
    s.now ≤ ((controlPlane settings protocol).after c s).now := by
  by_cases htime : ∃ seconds, c = .advance seconds
  · obtain ⟨seconds, rfl⟩ := htime
    rw [now_after_advance]
    exact le_add_of_nonneg_right (le_max_left 0 seconds)
  · exact (edited_after settings protocol (fun seconds h ↦ htime ⟨seconds, h⟩) s).now.ge

theorem rearmed_of_after (hc : c ≠ .resumeDeployment d)
    (h : (((controlPlane settings protocol).after c s).position d).Rearmed) :
    (s.position d).Rearmed := by
  have hedits := edits_after settings protocol c s d
  generalize ((controlPlane settings protocol).after c s).position d = q at hedits h
  induction hedits with
  | refl => exact h
  | tail _ hedit ih => exact ih (hedit.rearmed hc h)

/-- A resume was asked for, and the deployment has been suspended ever since. -/
def ResumedWhileSuspended (settings : Settings) (protocol : Protocol) (d : DeploymentId) (s : Fleet)
    (cs : List FleetCall) : Prop :=
  ∃ before later, cs = before ++ .resumeDeployment d :: later ∧
    ∀ front back, later = front ++ back →
      ((controlPlane settings protocol).afterAll s
        (before ++ .resumeDeployment d :: front)).state d = some .suspended

/-- A deployment that is suspended and holds GPUs was resumed since it was suspended. -/
theorem resumed_of_rearmed {cs : List FleetCall} (start : ¬(s.position d).Rearmed)
    (h : (((controlPlane settings protocol).afterAll s cs).position d).Rearmed) :
    ResumedWhileSuspended settings protocol d s cs := by
  induction cs using List.reverseRecOn with
  | nil => exact absurd h start
  | append_singleton cs c ih =>
    by_cases hc : c = .resumeDeployment d
    · subst hc
      refine ⟨cs, [], rfl, fun front back hnil ↦ ?_⟩
      rw [(List.append_eq_nil_iff.mp hnil.symm).1]
      exact h.1
    · have hlast := h.1
      rw [Service.afterAll_append] at h
      obtain ⟨before, later, rfl, hsince⟩ := ih (rearmed_of_after hc h)
      refine ⟨before, later ++ [c], by simp, fun front back hsplit ↦ ?_⟩
      rcases List.eq_nil_or_concat back with rfl | ⟨back, last, rfl⟩
      · rw [List.append_nil] at hsplit
        rw [← hsplit]
        simpa [state_position] using hlast
      · rw [List.concat_eq_append, ← List.append_assoc] at hsplit
        exact hsince front back (List.append_inj_left' hsplit rfl)

/-! ## Reports of running again -/

/-- The states in which a resumed deployment comes back. -/
abbrev returning : List DeploymentState := [.pulling, .starting, .ready]

/-- The control plane's own methods report stops and ends. -/
theorem FleetCall.Reports.resting {update : DeploymentStatusUpdate} {record : DeploymentRecord}
    (origin : c.Reports d now update record)
    (hminer : ∀ d hotkey update, c ≠ .deploymentStatus d hotkey update)
    (hown : ∀ d update, c ≠ .updateDeploymentStatus d update) :
    update.state = .suspended ∨ update.state = .failed ∨ update.state = .terminated := by
  cases c with
  | deploymentStatus d hotkey update => exact absurd rfl (hminer d hotkey update)
  | updateDeploymentStatus d update => exact absurd rfl (hown d update)
  | meterUsage | processIdleInferenceDeployments => exact .inl origin.1
  | processUnhealthyMiners | reapExhaustedPods => exact .inr (.inr origin)
  | recordDeploymentHealthFailure | processDeploymentRequest | failDeployment =>
    exact .inr (.inl origin.2)
  | processTimeouts => exact .inr (.inl origin)
  | _ => exact origin.elim

theorem not_returning_of_resting {state : DeploymentState}
    (h : state = .suspended ∨ state = .failed ∨ state = .terminated) : state ∉ returning := by
  rcases h with rfl | rfl | rfl <;> decide

/-- A call that makes no report of running leaves a deployment that does not run not running. -/
theorem Edit.not_returning (h : Edit c d now p q)
    (hc : ∀ update record, c.Reports d now update record → update.state ∉ returning)
    (hp : ∀ state ∈ p.state, state ∉ returning) : ∀ state ∈ q.state, state ∉ returning := by
  intro state hstate
  cases h with
  | created =>
    obtain rfl : DeploymentState.pending = state := Option.some.inj hstate
    decide
  | noted record saved found same =>
    obtain rfl := Option.some.inj hstate
    rw [same.state]
    exact hp _ (Position.state_of_record found)
  | reported update record readyAt found origin =>
    obtain rfl := Option.some.inj hstate
    exact hc update record origin
  | scheduled record saved stand attempts granted made found waiting terms hsaved =>
    obtain rfl := Option.some.inj hstate
    rw [hsaved]
    decide
  | unplaced record saved stand origin found terms hsaved =>
    obtain rfl := Option.some.inj hstate
    rw [hsaved]
    decide
  | ended record saved reason made found terms hsaved =>
    obtain rfl := Option.some.inj hstate
    rw [hsaved]
    decide
  | freed stand kept => exact hp state ((Position.state_congr kept).symm.trans hstate)
  | resumed stand made kept => exact hp state ((Position.state_congr kept).symm.trans hstate)
  | stamped => exact hp state hstate

theorem not_returning_after
    (hc : ∀ update record, c.Reports d s.now update record → update.state ∉ returning)
    (h : s.state d = some .suspended) {state : DeploymentState}
    (hafter : ((controlPlane settings protocol).after c s).state d = some state) :
    state ∉ returning := by
  have hedits := edits_after settings protocol c s d
  rw [← state_position] at hafter
  generalize ((controlPlane settings protocol).after c s).position d = q at hedits hafter
  suffices hq : ∀ state ∈ q.state, state ∉ returning from hq state hafter
  clear hafter
  induction hedits with
  | refl =>
    intro state hstate
    obtain rfl := Option.some.inj (h.symm.trans hstate)
    decide
  | tail _ hedit ih => exact hedit.not_returning hc ih

/-- A miner's report, run as a call, makes at most one edit. -/
theorem edit_after_deploymentStatus (settings : Settings) (protocol : Protocol) (s : Fleet)
    (d : DeploymentId) (hotkey : Hotkey) (update : DeploymentStatusUpdate) :
    Relation.ReflGen (Edit (.deploymentStatus d hotkey update) d s.now) (s.position d)
      (((controlPlane settings protocol).after (.deploymentStatus d hotkey update) s).position d) := by
  have hedit := edit_deploymentStatus (s := s) (d := d) settings hotkey update
  rwa [← run_discard] at hedit

theorem edit_after_updateDeploymentStatus (settings : Settings) (protocol : Protocol) (s : Fleet)
    (d : DeploymentId) (update : DeploymentStatusUpdate) :
    Relation.ReflGen (Edit (.updateDeploymentStatus d update) d s.now) (s.position d)
      (((controlPlane settings protocol).after (.updateDeploymentStatus d update) s).position d) := by
  have hedit := edit_updateDeploymentStatus (s := s) (d := d)
    (c := .updateDeploymentStatus d update) settings rfl update fun _ _ ↦ ⟨rfl, rfl⟩
  rwa [← run_discard] at hedit

/-- Where only deployments that hold their GPUs are reported as running again, a deployment that
comes back from its suspension held them. -/
theorem rearmed_of_returning (admitted : reportsHeld c s) (h : s.state d = some .suspended)
    {state : DeploymentState}
    (hafter : ((controlPlane settings protocol).after c s).state d = some state)
    (hreturning : state ∈ returning) : (s.position d).Rearmed := by
  refine ⟨h, ?_⟩
  by_contra hidle
  cases c with
  | deploymentStatus d' hotkey update =>
    by_cases hd : d' = d
    · subst hd
      have hedit := edit_after_deploymentStatus settings protocol s d' hotkey update
      rw [← state_position] at hafter
      generalize ((controlPlane settings protocol).after (.deploymentStatus d' hotkey update)
        s).position d' = q at hedit hafter
      cases hedit with
      | refl =>
        obtain rfl := Option.some.inj (h.symm.trans hafter)
        exact absurd hreturning (by decide)
      | single hedit =>
        cases hedit with
        | reported update' record readyAt found origin =>
          obtain ⟨-, hown, rfl⟩ := origin
          obtain rfl : update.state = state := Option.some.inj hafter
          have hsuspended : record.state = .suspended :=
            Option.some.inj ((Position.state_of_record found).symm.trans h)
          have hheld := admitted hreturning record found hsuspended hown
          rw [← Fleet.holding_stand] at hheld
          exact hidle hheld
        | noted record saved found same =>
          have hstate : saved.state = .suspended := same.state.trans
            (Option.some.inj ((Position.state_of_record found).symm.trans h))
          obtain rfl := Option.some.inj hafter
          rw [hstate] at hreturning
          exact absurd hreturning (by decide)
        | freed stand kept =>
          rw [Position.state_congr (p := s.position d') kept] at hafter
          obtain rfl := Option.some.inj (h.symm.trans hafter)
          exact absurd hreturning (by decide)
        | unplaced record saved stand origin => exact origin
        | _ => contradiction
    · -- A report about another deployment.
      refine not_returning_after (s := s) (fun update record origin ↦ ?_) h hafter hreturning
      exact absurd origin.1 hd
  | updateDeploymentStatus d' update =>
    refine not_returning_after (s := s) (fun update' record origin ↦ ?_) h hafter hreturning
    obtain ⟨rfl, rfl⟩ := origin
    intro hmem
    refine admitted ?_
    revert hmem
    cases update'.state <;> decide
  | _ =>
    refine not_returning_after (s := s) (fun update record origin ↦ ?_) h hafter hreturning
    refine not_returning_of_resting (origin.resting ?_ ?_)
    · intro d hotkey update heq
      cases heq
    · intro d update heq
      cases heq

/-- **A suspension sticks.** In every run in which no machine reports a suspended deployment as
pulling, starting or ready while that holds no GPUs, a suspended deployment that comes back was
resumed after it was suspended. -/
theorem suspension_sticks {s : Fleet} {cs : List FleetCall} {c : FleetCall} {d : DeploymentId}
    (admitted : (controlPlane settings protocol).Admits reportsHeld s (cs ++ [c]))
    (start : s.state d ≠ some .suspended)
    (suspended : ((controlPlane settings protocol).afterAll s cs).state d = some .suspended)
    {state : DeploymentState} (returns : state ∈ [.pulling, .starting, .ready])
    (moved : ((controlPlane settings protocol).afterAll s (cs ++ [c])).state d = some state) :
    ResumedWhileSuspended settings protocol d s cs := by
  obtain ⟨-, hlast, -⟩ := Service.admits_append.mp admitted
  rw [Service.afterAll_append] at moved
  exact resumed_of_rearmed (fun h ↦ start h.1)
    (rearmed_of_returning hlast suspended moved returns)

/-- The pod's owner runs out of credit, and the meter suspends the pod. -/
private def drainedPod : List FleetCall := startPod ++ [.advance 100, .meterUsage (some 100)]

/-- The machine's report that the pod is ready. -/
private def awakeReport : FleetCall :=
  .deploymentStatus 1 7 { state := .ready, readyInstances := 1, observedAt := 100 }

/-- The machine reports its GPU free, the pod is resumed and comes back. -/
theorem suspension_sticks_resumed :
    ResumedWhileSuspended {} quotedRates 1 (podOwner 0)
      (drainedPod ++ [.updateCapacity ⟨7, [oneNode], 100⟩, .resumeDeployment 1]) :=
  suspension_sticks (c := awakeReport) (by decide +kernel) (by decide +kernel) (by decide +kernel)
    (by decide : .ready ∈ _) (by decide +kernel)

/-- Nobody resumes the pod, and the machine's report brings it back. -/
theorem suspended_pod_reported_back :
    ¬ResumedWhileSuspended {} quotedRates 1 (podOwner 0) drainedPod ∧
      ((controlPlane {} quotedRates).afterAll (podOwner 0) drainedPod).state 1 = some .suspended ∧
      ((controlPlane {} quotedRates).afterAll (podOwner 0) (drainedPod ++ [awakeReport])).state 1 =
        some .ready := by
  refine ⟨?_, by decide +kernel, by decide +kernel⟩
  rintro ⟨before, later, hsplit, -⟩
  have hmem : FleetCall.resumeDeployment 1 ∈ drainedPod := by
    rw [hsplit]
    exact List.mem_append_right _ List.mem_cons_self
  simp [drainedPod, startPod] at hmem

/-! ## The retention of saved pods -/

/-- A ready deployment carries no time of suspension, and a suspended one a time no earlier than
`entry`. -/
structure Position.Clocked (entry : Time) (p : Position) : Prop where
  ready : ∀ record, p.stand.record = some record → record.state = .ready →
    record.suspendedAt = none
  suspended : ∀ record, p.stand.record = some record → record.state = .suspended →
    ∃ t, record.suspendedAt = some t ∧ entry ≤ t

theorem Position.Clocked.of_state {entry : Time}
    (h : ∀ record, p.stand.record = some record →
      record.state ≠ .ready ∧ record.state ≠ .suspended) :
    p.Clocked entry :=
  ⟨fun record hrecord hready ↦ absurd hready (h record hrecord).1,
    fun record hrecord hsuspended ↦ absurd hsuspended (h record hrecord).2⟩

theorem Position.Clocked.congr {entry : Time} (h : p.Clocked entry)
    (hrecord : q.stand.record = p.stand.record) : q.Clocked entry :=
  ⟨fun record hq ↦ h.ready record (hrecord ▸ hq), fun record hq ↦ h.suspended record (hrecord ▸ hq)⟩

/-- A saved record in another state than those two. -/
private theorem clocked_of_saved {entry : Time} {stand : Stand} {saved : DeploymentRecord}
    {since : Option Time} (hready : saved.state ≠ .ready) (hsuspended : saved.state ≠ .suspended) :
    (⟨stand.save saved, since⟩ : Position).Clocked entry := by
  refine .of_state fun record hrecord ↦ ?_
  obtain rfl := Option.some.inj hrecord
  exact ⟨hready, hsuspended⟩

/-- A deployment is suspended from the ready state only, at the time of the report that does it. -/
theorem Edit.clocked {entry : Time} (h : Edit c d now p q) (hentry : entry ≤ now)
    (hc : ∀ update record, p.stand.record = some record → c.Reports d now update record →
      update.state = .suspended → record.state = .ready → now ≤ update.observedAt)
    (hp : p.Clocked entry) : q.Clocked entry := by
  cases h with
  | created => exact clocked_of_saved (fun h ↦ nomatch h) fun h ↦ nomatch h
  | noted record saved found same =>
    constructor
    · intro record' hrecord' hready
      obtain rfl := Option.some.inj hrecord'
      rw [same.suspendedAt]
      exact hp.ready record found (same.state ▸ hready)
    · intro record' hrecord' hsuspended
      obtain rfl := Option.some.inj hrecord'
      rw [same.suspendedAt]
      exact hp.suspended record found (same.state ▸ hsuspended)
  | reported update record readyAt found origin live allowed =>
    constructor
    · intro record' hrecord' hready
      obtain rfl := Option.some.inj hrecord'
      have hstate : update.state = .ready := hready
      have hother : ¬update.state = .suspended := by
        rw [hstate]
        decide
      -- A report that the pod is live clears the time.
      exact (if_neg hother).trans (if_pos (.inr (.inr hstate)))
    · intro record' hrecord' hsuspended
      obtain rfl := Option.some.inj hrecord'
      have hstate : update.state = .suspended := hsuspended
      have hstamp : (ControlPlaneService.reported update record update.state readyAt).suspendedAt =
          record.suspendedAt.or (some update.observedAt) := if_pos hstate
      rw [hstamp]
      rw [hstate] at allowed
      by_cases hbefore : record.state = .suspended
      · -- A repeated report keeps the time there is.
        obtain ⟨t, ht, hle⟩ := hp.suspended record found hbefore
        exact ⟨t, by rw [ht, Option.some_or], hle⟩
      · have hready : record.state = .ready := by
          revert hbefore allowed
          cases record.state <;> decide
        rw [hp.ready record found hready]
        exact ⟨_, rfl, hentry.trans (hc update record found origin hstate hready)⟩
  | scheduled record saved stand attempts granted made found waiting terms state =>
    exact clocked_of_saved (by rw [state]; decide) (by rw [state]; decide)
  | unplaced record saved stand origin found terms state =>
    exact clocked_of_saved (by rw [state]; decide) (by rw [state]; decide)
  | ended record saved reason made found terms state =>
    exact clocked_of_saved (by rw [state]; decide) (by rw [state]; decide)
  | freed stand kept => exact hp.congr kept
  | resumed stand made kept => exact hp.congr kept
  | stamped => exact hp.congr rfl

/-- A report that suspends a ready deployment carries a time no earlier than the server's, and the
reaper goes by the server's time. -/
def suspendedByServerTime : FleetCall → Fleet → Prop
  | .deploymentStatus d _ update, s | .updateDeploymentStatus d update, s =>
    update.state = .suspended → s.state d = some .ready → s.now ≤ update.observedAt
  | .reapExhaustedPods time, s => ∀ t ∈ time, t = s.now
  | _, _ => True

instance (c : FleetCall) (s : Fleet) : Decidable (suspendedByServerTime c s) := by
  rcases c with _ | _ <;> unfold suspendedByServerTime <;> infer_instance

theorem clocked_after {entry : Time} (admitted : suspendedByServerTime c s) (hentry : entry ≤ s.now)
    (h : (s.position d).Clocked entry) :
    (((controlPlane settings protocol).after c s).position d).Clocked entry := by
  have hedits := edits_after settings protocol c s d
  cases c with
  | deploymentStatus d' hotkey update =>
    by_cases hd : d' = d
    · subst hd
      have hedit := edit_after_deploymentStatus settings protocol s d' hotkey update
      generalize ((controlPlane settings protocol).after _ s).position d' = q at hedit ⊢
      cases hedit with
      | refl => exact h
      | single hedit =>
        refine hedit.clocked hentry (fun update' record found origin hstate hready ↦ ?_) h
        obtain ⟨-, -, rfl⟩ := origin
        exact admitted hstate (by rw [← state_position, Position.state_of_record found, hready])
    · generalize ((controlPlane settings protocol).after _ s).position d = q at hedits ⊢
      induction hedits with
      | refl => exact h
      | tail _ hedit ih => exact hedit.clocked hentry (fun _ _ _ origin ↦ absurd origin.1 hd) ih
  | updateDeploymentStatus d' update =>
    by_cases hd : d' = d
    · subst hd
      have hedit := edit_after_updateDeploymentStatus settings protocol s d' update
      generalize ((controlPlane settings protocol).after _ s).position d' = q at hedit ⊢
      cases hedit with
      | refl => exact h
      | single hedit =>
        refine hedit.clocked hentry (fun update' record found origin hstate hready ↦ ?_) h
        obtain ⟨-, rfl⟩ := origin
        exact admitted hstate (by rw [← state_position, Position.state_of_record found, hready])
    · generalize ((controlPlane settings protocol).after _ s).position d = q at hedits ⊢
      induction hedits with
      | refl => exact h
      | tail _ hedit ih => exact hedit.clocked hentry (fun _ _ _ origin ↦ absurd origin.1 hd) ih
  | meterUsage | processIdleInferenceDeployments =>
    generalize ((controlPlane settings protocol).after _ s).position d = q at hedits ⊢
    induction hedits with
    | refl => exact h
    | tail _ hedit ih => exact hedit.clocked hentry (fun _ _ _ origin _ _ ↦ origin.2.ge) ih
  | _ =>
    -- The other methods suspend nothing.
    generalize ((controlPlane settings protocol).after _ s).position d = q at hedits ⊢
    induction hedits with
    | refl => exact h
    | tail _ hedit ih =>
      refine hedit.clocked hentry (fun update record _ origin hstate _ ↦ ?_) ih
      simp [FleetCall.Reports, hstate] at origin

/-! ### The reaper -/

/-- A pod that the reaper ends was suspended for its retention. -/
theorem reaped_of_reapAll {observedAt : Time}
    {suspended : List (DeploymentId × DeploymentRecord)} {before : DeploymentState}
    (hbefore : s.state d = some before) (hlive : before ≠ .terminated)
    (h : (run settings (reapAll settings observedAt suspended) s).1.state d = some .terminated) :
    ∃ record, (d, record) ∈ suspended ∧ ∃ t, record.suspendedAt = some t ∧
      retentionSeconds settings record ≤ observedAt - t := by
  induction suspended generalizing s with
  | nil => exact absurd (Option.some.inj (hbefore.symm.trans h)) hlive
  | cons entry suspended ih =>
    obtain ⟨d', record⟩ := entry
    rw [reapAll, run_bind] at h
    by_cases hsame : (run settings (reap settings observedAt d' record) s).1.state d = s.state d
    · obtain ⟨record', hmem, hage⟩ := ih (hsame.trans hbefore) h
      exact ⟨record', List.mem_cons_of_mem _ hmem, hage⟩
    -- This pass has moved the deployment's state.
    have habout : (reap settings observedAt d' record).Uses (About d') := by
      unfold reap
      split
      · trivial
      refine .bind (isRental_uses (about_of_looks d') record) fun rental ↦ ?_
      split
      · trivial
      split
      · trivial
      refine .op_bind (about_of_none rfl rfl) fun now ↦ ?_
      exact .bind ((permits_about d').updateDeploymentStatus_uses _) fun _ ↦ trivial
    have hd : d' = d := by
      by_contra hne
      refine hsame ?_
      rw [← state_position, position_run_of_about settings habout (Ne.symm hne), state_position]
    subst hd
    refine ⟨record, List.mem_cons_self, ?_⟩
    by_contra hyoung
    refine hsame ?_
    unfold reap
    split
    · rfl
    · next t ht =>
      rw [run_bind, run_of_looks settings (isRental_uses (fun _ h ↦ h) record)]
      split
      · rfl
      split
      · rfl
      · next hage => exact absurd ⟨t, ht, not_lt.mp hage⟩ hyoung

/-- The reaper goes by the records of the suspended deployments. -/
theorem reaped_after {time : Option Time}
    (admitted : suspendedByServerTime (.reapExhaustedPods time) s)
    (hsuspended : s.state d = some .suspended)
    (h : ((controlPlane settings protocol).after (.reapExhaustedPods time) s).state d =
      some .terminated) :
    ∃ record t, s.record d = some record ∧ record.suspendedAt = some t ∧
      retentionSeconds settings record ≤ s.now - t := by
  change (run settings (reapExhaustedPods settings time) s).1.state d = _ at h
  have hlook := run_of_looks settings (timeOr_uses (fun _ h ↦ h) time) s
  have htime : (run settings (timeOr time) s).2 = s.now := by
    cases time with
    | none => rfl
    | some t => exact admitted t rfl
  unfold reapExhaustedPods at h
  split at h
  · rw [run_bind, hlook, htime, run_bind, run_listDeploymentsByState] at h
    obtain ⟨record, hmem, t, ht, hage⟩ := reaped_of_reapAll hsuspended (by decide) h
    exact ⟨record, t, (mem_listDeploymentsByState.mp hmem).1, ht, hage⟩
  · exact nomatch hsuspended.symm.trans h

/-- A run keeps the times of suspension, call by call. -/
theorem clocked_afterAll {s : Fleet} {calls : List FleetCall} {entry : Time}
    (admitted : (controlPlane settings protocol).Admits suspendedByServerTime s calls)
    (hentry : entry ≤ s.now) (h : (s.position d).Clocked entry) :
    (((controlPlane settings protocol).afterAll s calls).position d).Clocked entry := by
  have hstep (c : FleetCall) (t : Fleet) (hc : suspendedByServerTime c t)
      (ht : entry ≤ t.now ∧ (t.position d).Clocked entry) :
      entry ≤ ((controlPlane settings protocol).after c t).now ∧
        (((controlPlane settings protocol).after c t).position d).Clocked entry := by
    have hnow := now_le_after settings protocol c t
    exact ⟨le_trans ht.1 hnow, clocked_after hc ht.1 ht.2⟩
  exact (admitted.keeps ⟨hentry, h⟩ hstep).2

/-- **A saved pod is kept for its whole retention.** In every run in which the reports that suspend
a ready deployment carry a time no earlier than the server's, a deployment that the reaper ends has
been suspended for its whole retention: at any moment at which it was not, as much time had still
to pass. -/
theorem saved_pod_kept {s : Fleet} {d : DeploymentId} (fresh : s.record d = none)
    {before later : List FleetCall} {time : Option Time}
    (admitted : (controlPlane settings protocol).Admits suspendedByServerTime s
      (before ++ later ++ [.reapExhaustedPods time]))
    (awake : ((controlPlane settings protocol).afterAll s before).state d ≠ some .suspended)
    (suspended : ((controlPlane settings protocol).afterAll s (before ++ later)).state d =
      some .suspended)
    (reaped : ((controlPlane settings protocol).afterAll s
      (before ++ later ++ [.reapExhaustedPods time])).state d = some .terminated) :
    ∃ record, ((controlPlane settings protocol).afterAll s (before ++ later)).record d =
        some record ∧
      retentionSeconds settings record ≤
        ((controlPlane settings protocol).afterAll s (before ++ later)).now -
          ((controlPlane settings protocol).afterAll s before).now := by
  obtain ⟨hrun, hlast, -⟩ := Service.admits_append.mp admitted
  obtain ⟨hearlier, hlater⟩ := Service.admits_append.mp hrun
  -- Up to the moment, a ready deployment carries no time of suspension.
  have hstart : (s.position d).Clocked s.now :=
    .of_state fun record hrecord ↦ nomatch fresh.symm.trans hrecord
  have hmoment := clocked_afterAll hearlier le_rfl hstart
  -- From the moment on, a suspended one carries a time that is no earlier.
  have hsplit : (controlPlane settings protocol).afterAll s (before ++ later) =
      (controlPlane settings protocol).afterAll
        ((controlPlane settings protocol).afterAll s before) later := Service.afterAll_append ..
  rw [Service.afterAll_append] at reaped
  rw [hsplit] at suspended reaped hlast ⊢
  generalize (controlPlane settings protocol).afterAll s before = moment at *
  have hentered : (moment.position d).Clocked moment.now :=
    ⟨hmoment.ready, fun record hrecord hstate ↦ absurd
      ((Position.state_of_record hrecord).trans (congrArg some hstate)) awake⟩
  have hclocked := clocked_afterAll hlater le_rfl hentered
  obtain ⟨record, t, hrecord, ht, hage⟩ := reaped_after hlast suspended reaped
  refine ⟨record, hrecord, hage.trans (sub_le_sub_left ?_ _)⟩
  have hstate : record.state = .suspended :=
    Option.some.inj ((Fleet.state_of_some hrecord).symm.trans suspended)
  obtain ⟨t', ht', hle⟩ := hclocked.suspended record hrecord hstate
  rw [ht] at ht'
  exact (Option.some.inj ht').symm ▸ hle

/-- The reaper at work. -/
private def reaping : Settings := { podExhaustionReaperEnabled := true }

/-- The meter suspends the pod, and the reaper ends it thirty days later. -/
theorem saved_pod_kept_expired :
    ∃ record, ((controlPlane reaping quotedRates).afterAll (podOwner 0)
        ((startPod ++ [.advance 100]) ++ [.meterUsage (some 100), .advance 2592000])).record 1 =
        some record ∧
      retentionSeconds reaping record ≤
        ((controlPlane reaping quotedRates).afterAll (podOwner 0)
            ((startPod ++ [.advance 100]) ++ [.meterUsage (some 100), .advance 2592000])).now -
          ((controlPlane reaping quotedRates).afterAll (podOwner 0)
            (startPod ++ [.advance 100])).now :=
  have admitted : (controlPlane reaping quotedRates).Admits suspendedByServerTime (podOwner 0)
      ((startPod ++ [.advance 100]) ++ [.meterUsage (some 100), .advance 2592000] ++
        [.reapExhaustedPods none]) := by decide +kernel
  saved_pod_kept rfl admitted (by decide +kernel) (by decide +kernel) (by decide +kernel)

/-- The machine's report that it stopped the pod, by a clock that stands still. -/
private def staleReport : FleetCall :=
  .deploymentStatus 1 7 { state := .suspended, observedAt := 0 }

/-- The pod runs for thirty days, its machine suspends it with the first day's time, and the reaper
ends it at once. -/
theorem saved_pod_reaped_at_once :
    ((controlPlane reaping quotedRates).afterAll (podOwner 0)
        (startPod ++ [.advance 2592000])).state 1 = some .ready ∧
      ((controlPlane reaping quotedRates).afterAll (podOwner 0)
        (startPod ++ [.advance 2592000] ++ [staleReport])).state 1 = some .suspended ∧
      ((controlPlane reaping quotedRates).afterAll (podOwner 0)
        (startPod ++ [.advance 2592000] ++ [staleReport] ++ [.reapExhaustedPods none])).state 1 =
        some .terminated ∧
      ∀ record, ((controlPlane reaping quotedRates).afterAll (podOwner 0)
          (startPod ++ [.advance 2592000] ++ [staleReport])).record 1 = some record →
        ((controlPlane reaping quotedRates).afterAll (podOwner 0)
            (startPod ++ [.advance 2592000] ++ [staleReport])).now -
          ((controlPlane reaping quotedRates).afterAll (podOwner 0)
            (startPod ++ [.advance 2592000])).now < retentionSeconds reaping record := by
  refine ⟨by decide +kernel, by decide +kernel, by decide +kernel, fun record _ ↦ ?_⟩
  have helapsed : ((controlPlane reaping quotedRates).afterAll (podOwner 0)
      (startPod ++ [.advance 2592000] ++ [staleReport])).now -
    ((controlPlane reaping quotedRates).afterAll (podOwner 0)
      (startPod ++ [.advance 2592000])).now = 0 := by decide +kernel
  rw [helapsed]
  unfold retentionSeconds
  split <;> norm_num [reaping]

end GreenCompute
