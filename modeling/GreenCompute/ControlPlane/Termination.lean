import GreenCompute.ControlPlane.Keeping

/-!
# Terminated deployments

Every method that changes a deployment reads its record in one transaction and saves the whole
record in another. A save made from a record that was read before a termination undoes it
(`terminated_saved_over`), and `requeue_deployment` undoes even one that it has seen, although
`ALLOWED_TRANSITIONS` lets nothing leave TERMINATED.

Nothing else does: `terminated_stays` covers every interleaving of every call in which a save over
a terminated row is made by a call that terminates the deployment itself, or from a record that
was read when the row was terminated already. Each method then keeps the state it has read.
-/

namespace GreenCompute

open ControlPlaneService

/-! ## The condition on a run -/

namespace FleetCall

/-- The calls that terminate a deployment whatever they read. -/
def terminates (d : DeploymentId) : FleetCall → Bool
  | cleanupDeployment d' _ => d' = d
  | updateDeploymentStatus d' update | deploymentStatus d' _ update =>
    d' = d ∧ update.state = .terminated
  | _ => false

/-- The operator's requeue. -/
def requeues : FleetCall → Bool
  | requeueDeployment _ => true
  | _ => false

end FleetCall

/-- A save over a terminated row is made by a call that terminates the deployment, or from a
record that was terminated when it was read, and not by the operator's requeue. -/
def savesInformed : Guard ControlPlane FleetCall Fleet := fun c past o s ↦
  match o with
  | .updateDeployment d _ =>
    s.state d = some .terminated →
      c.terminates d = true ∨ c.requeues = false ∧ SawTermination past d
  | _ => True

instance (c : FleetCall) (past : List (Event ControlPlane)) (o : FleetOp) (s : Fleet) :
    Decidable (savesInformed c past o s) := by
  unfold savesInformed
  split <;> infer_instance

/-! ## Every call -/

variable {settings : Settings} {protocol : Protocol} (d : DeploymentId)

/-- Every call but the operator's requeue saves what goes with what it has read, if its own report
may be saved. -/
theorem body_carrying {R : DeploymentRecord → DeploymentRecord → Prop} (hR : Lenient R)
    (c : FleetCall) (hc : c.requeues = false)
    (hstaff : ∀ d update, c = .updateDeploymentStatus d update → Reportable R update)
    (hminer : ∀ d hotkey update, c = .deploymentStatus d hotkey update →
      Reportable R { update with suspendedReason := none }) :
    Carrying R Anyhow (c.body settings protocol) [] := by
  cases c with
  | requeueDeployment d => cases hc
  | createDeployment d request =>
    refine carrying_of_uses _ (.bind (.op_bind trivial fun workload ↦ ?_) fun _ ↦ trivial)
    cases workload with
    | none => trivial
    | some workload =>
      refine .bind (onlineGpuModels_uses quiet_of_looks) fun live ↦ ?_
      exact .op_bind trivial fun now ↦ .op_bind trivial fun _ ↦ trivial
  | updateDeployment d request =>
    exact carrying_discard _ (updateDeployment_carrying hR _ d request)
  | deploymentStatus d hotkey update =>
    exact carrying_discard _ (deploymentStatus_carrying _ d hotkey (hminer d hotkey update rfl))
  | updateDeploymentStatus d update =>
    exact carrying_discard _ (updateDeploymentStatus_carrying _ d (hstaff d update rfl))
  | recordDeploymentHealthFailure d error =>
    exact carrying_discard _ (recordDeploymentHealthFailure_carrying hR _ d error)
  | clearDeploymentHealthFailures d =>
    exact carrying_discard _ (clearDeploymentHealthFailures_carrying hR _ d)
  | processDeploymentRequest d attempts =>
    exact carrying_discard _ (processDeploymentRequest_carrying hR _ d attempts)
  | requeueAssignment d assignment reason observedAt =>
    exact carrying_discard _ (requeueAssignment_carrying hR _ d assignment reason observedAt)
  | resumeDeployment d => exact carrying_discard _ (resumeDeployment_carrying hR _ d)
  | failDeployment d => exact carrying_discard _ (failDeployment_carrying hR _ d)
  | cleanupDeployment d reason =>
    exact carrying_discard _ (cleanupDeployment_carrying hR _ d reason)
  | meterUsage elapsed =>
    refine carrying_discard _ (.op_bind trivial fun now _ ↦ .op_bind trivial fun ready _ ↦ ?_)
    exact meterAll_carrying hR _ _ now ready
  | processTimeouts now =>
    refine carrying_discard _ (carrying_bind (d := 0) (timeOr_uses quiet_of_looks now) rfl
      fun observedAt past hread ↦ ?_)
    exact carrying_call (by trivial) hread fun assignments past _ ↦
      expireAll_carrying hR past observedAt assignments
  | processUnhealthyMiners now =>
    exact carrying_discard _ (processUnhealthyMiners_carrying hR _ now)
  | processIdleInferenceDeployments lastInvocationAt now =>
    refine carrying_bind (d := 0) (timeOr_uses quiet_of_looks now) rfl
      fun observedAt past hread ↦ ?_
    exact carrying_call (by trivial) hread fun ready past _ ↦
      suspendAllIdle_carrying hR past observedAt lastInvocationAt ready
  | reapExhaustedPods now =>
    show Carrying R Anyhow (reapExhaustedPods settings now) []
    unfold reapExhaustedPods
    split
    · refine carrying_bind (d := 0) (timeOr_uses quiet_of_looks now) rfl
        fun observedAt past hread ↦ ?_
      exact carrying_call (by trivial) hread fun suspended past _ ↦
        reapAll_carrying hR past observedAt suspended
    · trivial
  | _ => exact carrying_of_uses _ (.op_bind trivial fun _ ↦ trivial)

/-- Every call but the operator's requeue keeps the termination it has read. -/
theorem body_keeping (c : FleetCall) (hc : c.requeues = false) :
    Keeping Anyhow (c.body settings protocol) [] := by
  have hlenient : Lenient fun record saved ↦
      record.state = .terminated → saved.state = .terminated := fun _ _ _ h ↦ h
  have hreport (update : DeploymentStatusUpdate) : Reportable (fun record saved ↦
      record.state = .terminated → saved.state = .terminated) update :=
    fun _ _ hlive _ hterm ↦ absurd hterm hlive
  exact keeping_of_carrying _ (body_carrying hlenient c hc (fun _ _ _ ↦ hreport _)
    fun _ _ _ _ ↦ hreport _)

/-- A save of a deployment that the call terminates saves it as terminated. -/
def SavesTerminated (c : FleetCall) : FleetOp → Prop
  | .updateDeployment d record => c.terminates d = true → record.state = .terminated
  | _ => True

/-- A termination that is reported is saved. -/
theorem updateDeploymentStatus_savesTerminated (c : FleetCall) (update : DeploymentStatusUpdate)
    (h : c.terminates d = true → update.state = .terminated) :
    (updateDeploymentStatus d update).Uses (SavesTerminated c) := by
  refine updateDeploymentStatus_uses (fun o ho ↦ ?_) trivial (fun _ ↦ trivial) trivial
    (fun record hrecord hc ↦ hrecord.trans (h hc)) fun _ ↦ trivial
  cases o <;> trivial

/-- The calls that terminate a deployment save nothing else of it. -/
theorem body_savesTerminated (settings : Settings) (protocol : Protocol) (c : FleetCall) :
    (c.body settings protocol).Uses (SavesTerminated c) := by
  have hquiet (o : FleetOp) (ho : Quiet o) : SavesTerminated c o := by cases o <;> trivial
  cases c with
  | cleanupDeployment d reason =>
    refine .bind (.op_bind trivial fun record ↦ ?_) fun _ ↦ trivial
    cases record with
    | none => trivial
    | some record =>
      refine .bind (activeAssignment_uses (fun o ho ↦ hquiet o (quiet_of_looks o ho)) d)
        fun assignment ↦ ?_
      refine .bind ((cleanupAssignment_quiet d record assignment).mono hquiet) fun _ ↦ ?_
      exact .op_bind trivial fun now ↦ .op_bind (fun _ ↦ rfl) fun _ ↦ trivial
  | updateDeploymentStatus d update =>
    refine .bind (updateDeploymentStatus_savesTerminated d _ update fun h ↦ ?_) fun _ ↦ trivial
    exact (of_decide_eq_true h).2
  | deploymentStatus d hotkey update =>
    refine .bind (.op_bind trivial fun record ↦ ?_) fun _ ↦ trivial
    cases record with
    | none => trivial
    | some record =>
      dsimp only
      split
      · trivial
      · refine .bind (updateDeploymentStatus_savesTerminated d _ _ fun h ↦ ?_) fun outcome ↦ ?_
        · exact (of_decide_eq_true h).2
        · split <;> trivial
  | _ =>
    -- These calls terminate nothing by name.
    refine .of_forall (fun o ↦ ?_) _
    cases o with
    | updateDeployment d record => exact fun h ↦ (nomatch h)
    | _ => trivial

/-- What each save of a call is fit for. -/
def FitsTermination (c : FleetCall) (past : List (Event ControlPlane)) (o : FleetOp) : Prop :=
  (c.requeues = false → KeepsTermination past o) ∧ SavesTerminated c o

theorem body_fitsTermination (c : FleetCall) :
    (c.body settings protocol).Asks (fun _ _ ↦ True) (FitsTermination c) Anyhow [] := by
  have hsaves := body_savesTerminated settings protocol c
  cases hc : c.requeues with
  | false =>
    exact (body_keeping c hc).with_uses hsaves fun past o hkeeps ho ↦ ⟨fun _ ↦ hkeeps, ho⟩
  | true =>
    refine hsaves.asks (fun past o ho ↦ ⟨fun h ↦ ?_, ho⟩) (fun _ ↦ True) (fun _ _ _ _ h ↦ h) trivial
    rw [hc] at h
    cases h

/-- One transaction leaves terminated what is terminated. -/
theorem terminated_exec (settings : Settings) {c : FleetCall} {past : List (Event ControlPlane)}
    {o : FleetOp}
    {s : Fleet} (hfits : FitsTermination c past o) (hguard : savesInformed c past o s)
    {d : DeploymentId} (hd : s.state d = some .terminated) :
    (o.exec settings s).1.state d = some .terminated := by
  cases recordStep_exec settings o d s with
  | kept h => rw [Fleet.state_of_record h, hd]
  | created record op fresh h =>
    rw [Fleet.state, Fleet.record, fresh] at hd
    cases hd
  | saved record op h =>
    subst op
    have hterm : record.state = .terminated := by
      rcases hguard hd with hterminates | ⟨hrequeues, hsaw⟩
      · exact hfits.2 hterminates
      · exact hfits.1 hrequeues hsaw
    rw [Fleet.state_of_some h, ControlPlaneRepository.savedRow_state, hterm]

/-- Terminated deployments stay terminated. -/
def staysTerminated : Contract Fleet where
  inv _ := True
  rel s s' := ∀ d, s.state d = some .terminated → s'.state d = some .terminated
  refl _ _ h := h
  trans h h' d hd := h' d (h d hd)

/-- **A terminated deployment stays terminated.** In every run of the control plane in which a save
over a terminated row is made by a call that terminates the deployment, or from a record that was
terminated when it was read and not by the operator's requeue, a deployment that is terminated at
some moment is terminated ever after. -/
theorem terminated_stays {s₀ : Fleet} {w w' : World ControlPlane FleetCall Fleet}
    (run : (controlPlane settings protocol).Reaches savesInformed ⟨s₀, []⟩ w)
    {d : DeploymentId} (terminated : w.store.state d = some .terminated)
    (later : (controlPlane settings protocol).Reaches savesInformed w w') :
    w'.store.state d = some .terminated := by
  have hcall (c : FleetCall) (s : Fleet) (_ : staysTerminated.inv s) :
      Program.Safe (controlPlane settings protocol).toMachine staysTerminated (savesInformed c)
        (fun _ _ _ ↦ True) ((controlPlane settings protocol).body c) [] s :=
    .of_asks (body_fitsTermination c) fun past o s hfits _ _ hguard ↦
      ⟨trivial, trivial, fun d hd ↦ terminated_exec settings hfits hguard hd⟩
  obtain ⟨hmeets, -⟩ := run.sound (Q := fun _ _ _ ↦ True) hcall trivial rfl
  exact (hmeets.reaches later hcall).2 d terminated

/-! ## A run in which the condition does not hold -/

/-- A pod of one GPU that is starting on node 3 of miner 7, with its lease and its hold. -/
def startingPod : Fleet :=
  { Fleet.empty with
    workloads := (podOwner 0).workloads
    deployments := .ofRows [(1, ⟨{ podRecord with state := .starting }, 0, none⟩)]
    leases := .ofRows [(1, ⟨"pod".toList, 7, 3, 0, none, .activating⟩)]
    reservations := .ofRows [(1, ⟨7, 3, 1, .active⟩)] }

/-- The machine's report that the pod is ready. -/
def readyReport : FleetCall :=
  .deploymentStatus 1 7 { state := .ready, readyInstances := 1, observedAt := 0 }

/-- A run that meets the condition: the pod is cleaned up, and the machine's report that it is
ready comes too late. -/
theorem terminated_stays_reported :
    ∃ w w' : World ControlPlane FleetCall Fleet,
      (controlPlane {} quotedRates).Reaches savesInformed w w' ∧
        w.store.state 1 = some .terminated ∧ w'.store.state 1 = some .terminated ∧
        w'.threads.length = 2 := by
  obtain ⟨w, w', run, hterm, later, hlength⟩ := Service.exists_reaches_then_of_replay
    (S := controlPlane {} quotedRates) (G := savesInformed) (w := ⟨startingPod, []⟩)
    (.start (.cleanupDeployment 1 []) :: List.replicate 10 (.step 0))
    [.start readyReport, .step 1, .step 1]
    (P := fun w ↦ w.store.state 1 = some .terminated) (Q := fun w ↦ w.threads.length = 2)
    (by decide +kernel)
  exact ⟨w, w', later, hterm, terminated_stays run hterm later, hlength⟩

/-- Without the condition a terminated deployment comes back: the machine's report is read before
the clean-up and saved after it. -/
theorem terminated_saved_over :
    ∃ w w' : World ControlPlane FleetCall Fleet,
      (controlPlane {} quotedRates).Reaches .free ⟨startingPod, []⟩ w ∧
        w.store.state 1 = some .terminated ∧
        (controlPlane {} quotedRates).Reaches .free w w' ∧ w'.store.state 1 = some .ready :=
  Service.exists_reaches_then_of_replay
    ([.start readyReport, .step 0, .step 0, .start (.cleanupDeployment 1 [])] ++
      List.replicate 10 (.step 1))
    [.step 0, .step 0, .step 0] (by decide +kernel)

end GreenCompute
