import GreenCompute.ControlPlane.Effects

/-!
# Who touches the accumulators

Only the meter adds to a deployment's accumulator, takes from it, and debits a user to the floor.
Every other call of the control plane leaves all three alone.
-/

namespace GreenCompute

open ControlPlaneService

/-- The transactions that are the meter's alone. -/
def FleetOp.meters : FleetOp → Bool
  | accrueMetering .. | returnMeteringMcents .. | debitUserToFloor .. => true
  | _ => false

/-- The call that meters. -/
def FleetCall.meters : FleetCall → Bool
  | meterUsage _ => true
  | _ => false

/-- A transaction that is not the meter's. -/
abbrev Unmetered (o : FleetOp) : Prop := o.meters = false

/-- The transactions by which money moves around the control plane. -/
def FleetOp.pays : FleetOp → Bool
  | money _ => true
  | _ => false

/-- A transaction that has nothing to do with what is charged and paid. -/
abbrev Unbilled (o : FleetOp) : Prop := (o.meters || o.pays) = false

variable {settings : Settings} {protocol : Protocol}

theorem unbilled_of_looks (o : FleetOp) (h : o.looks = true) : Unbilled o := by
  cases o with
  | accrueMetering | returnMeteringMcents | debitUserToFloor | money => cases h
  | _ => rfl

theorem unbilled_of_reports (o : FleetOp) (h : o.reports = true) : Unbilled o := by
  cases o with
  | accrueMetering | returnMeteringMcents | debitUserToFloor | money => cases h
  | _ => rfl

theorem permits_unbilled (d : DeploymentId) : Permits Unbilled d where
  looks := unbilled_of_looks
  reports := unbilled_of_reports
  lock := rfl
  unlock := rfl
  read := rfl
  create _ := rfl
  save _ := rfl
  stamp _ := rfl
  assign _ := rfl
  lease _ _ := rfl
  placement _ _ _ := rfl
  reserve _ _ _ _ := rfl
  release := rfl

/-! ## Sweeps -/

theorem expireAll_unbilled (observedAt : Time)
    (assignments : List (DeploymentId × LeaseAssignment)) :
    (expireAll observedAt assignments).Uses Unbilled := by
  induction assignments with
  | nil => trivial
  | cons entry assignments ih =>
    refine .bind ((permits_unbilled entry.1).expire_uses observedAt entry.2) fun outcome ↦ ?_
    cases outcome with
    | error e => trivial
    | ok expired => exact .bind ih fun _ ↦ trivial

theorem reassignAll_unbilled (observedAt : Time)
    (assignments : List (DeploymentId × LeaseAssignment)) :
    (reassignAll settings observedAt assignments).Uses Unbilled := by
  induction assignments with
  | nil => trivial
  | cons entry assignments ih =>
    refine .bind ((permits_unbilled entry.1).reassign_uses rfl observedAt entry.2) fun _ ↦ ?_
    exact .bind ih fun _ ↦ trivial

theorem processUnhealthyMiners_unbilled (now : Option Time) :
    (processUnhealthyMiners settings now).Uses Unbilled := by
  refine .bind (timeOr_uses unbilled_of_looks now) fun observedAt ↦ .op_bind rfl fun leases ↦ ?_
  refine .bind (anyMinerReporting_uses unbilled_of_looks _) fun reporting ↦ ?_
  split
  · trivial
  · exact reassignAll_unbilled observedAt leases

theorem suspendAllIdle_unbilled (observedAt : Time)
    (lastInvocationAt : DeploymentId → Option Time)
    (ready : List (DeploymentId × DeploymentRecord)) :
    (suspendAllIdle settings observedAt lastInvocationAt ready).Uses Unbilled := by
  induction ready with
  | nil => trivial
  | cons entry ready ih =>
    exact .bind ((permits_unbilled entry.1).suspendIdle_uses observedAt _ entry.2) fun _ ↦ ih

theorem reapExhaustedPods_unbilled (now : Option Time) :
    (reapExhaustedPods settings now).Uses Unbilled := by
  have hall (observedAt : Time) (suspended : List (DeploymentId × DeploymentRecord)) :
      (reapAll settings observedAt suspended).Uses Unbilled := by
    induction suspended with
    | nil => trivial
    | cons entry suspended ih =>
      exact .bind ((permits_unbilled entry.1).reap_uses observedAt entry.2) fun _ ↦ ih
  unfold reapExhaustedPods
  split
  · refine .bind (timeOr_uses unbilled_of_looks now) fun observedAt ↦ ?_
    exact .op_bind rfl fun suspended ↦ hall observedAt suspended
  · trivial

/-! ## Every call -/

/-- No call but the meter's and the payments themselves has to do with charges and payments. -/
theorem body_unbilled (settings : Settings) (protocol : Protocol) {c : FleetCall}
    (hc : c.meters = false) (hmoney : ∀ op, c ≠ .money op) :
    (c.body settings protocol).Uses Unbilled := by
  have hdiscard {α : Type} {p : Program ControlPlane α} (hp : p.Uses Unbilled) :
      (discard p).Uses Unbilled := .bind hp fun _ ↦ trivial
  have hp := permits_unbilled
  cases c with
  | meterUsage elapsed => cases hc
  | money op => exact absurd rfl (hmoney op)
  | createDeployment d request => exact hdiscard ((hp d).createDeployment_uses request)
  | updateDeployment d request => exact hdiscard ((hp d).updateDeployment_uses request)
  | deploymentStatus d hotkey update => exact hdiscard ((hp d).deploymentStatus_uses hotkey update)
  | updateDeploymentStatus d update => exact hdiscard ((hp d).updateDeploymentStatus_uses update)
  | recordDeploymentHealthFailure d error =>
    exact hdiscard ((hp d).recordDeploymentHealthFailure_uses error)
  | clearDeploymentHealthFailures d => exact hdiscard (hp d).clearDeploymentHealthFailures_uses
  | processDeploymentRequest d attempts =>
    exact hdiscard ((hp d).processDeploymentRequest_uses attempts)
  | requeueAssignment d assignment reason observedAt =>
    exact hdiscard ((hp d).requeueAssignment_uses rfl assignment reason observedAt)
  | requeueDeployment d => exact hdiscard ((hp d).requeueDeployment_uses rfl)
  | resumeDeployment d => exact hdiscard (hp d).resumeDeployment_uses
  | failDeployment d => exact hdiscard (hp d).failDeployment_uses
  | cleanupDeployment d reason => exact hdiscard ((hp d).cleanupDeployment_uses reason)
  | processTimeouts now =>
    refine hdiscard (.bind (timeOr_uses unbilled_of_looks now) fun observedAt ↦ ?_)
    exact .op_bind rfl fun assignments ↦ expireAll_unbilled observedAt assignments
  | processUnhealthyMiners now => exact hdiscard (processUnhealthyMiners_unbilled now)
  | processIdleInferenceDeployments lastInvocationAt now =>
    refine .bind (timeOr_uses unbilled_of_looks now) fun observedAt ↦ ?_
    exact .op_bind rfl fun ready ↦ suspendAllIdle_unbilled observedAt lastInvocationAt ready
  | reapExhaustedPods now => exact reapExhaustedPods_unbilled now
  | _ => exact .op_bind rfl fun _ ↦ trivial

/-- Calls other than the meter's cycle leave the accumulators alone, and debit nobody to the
floor. -/
theorem body_unmetered (settings : Settings) (protocol : Protocol) {c : FleetCall}
    (hc : c.meters = false) : (c.body settings protocol).Uses Unmetered := by
  by_cases hmoney : ∃ op, c = .money op
  · obtain ⟨op, rfl⟩ := hmoney
    exact ⟨rfl, fun _ ↦ trivial⟩
  · exact (body_unbilled settings protocol hc (not_exists.mp hmoney)).mono fun _ h ↦
      (Bool.or_eq_false_iff.mp h).1

end GreenCompute
