import GreenCompute.ControlPlane.Stands

/-!
# What a metering cycle does

A pass of the meter over one deployment reads who owns it, what it runs and whether its machine is
silent, and then either charges its owner for a number of seconds or leaves it alone. `chargeOf` says
which, as a function of the database, and `run_meterDeployment` that the pass does just that.
-/

namespace GreenCompute

open ControlPlaneRepository ControlPlaneService

variable {settings : Settings} {s : Fleet} {d : DeploymentId}

/-! ## Methods that only look -/

theorem exec_of_looks (settings : Settings) {o : FleetOp} (h : o.looks = true) (s : Fleet) :
    (o.exec settings s).1 = s := by
  cases o <;> first | rfl | cases h

/-- A method that only looks leaves the database as it is. -/
theorem run_of_looks (settings : Settings) {α : Type} {p : Program ControlPlane α}
    (hp : p.Uses fun o : FleetOp ↦ o.looks = true) (s : Fleet) : (run settings p s).1 = s :=
  Program.eval_reads (hp.mono fun _ h ↦ exec_of_looks settings h) s

theorem run_getWorkload (settings : Settings) (w : WorkloadId) (s : Fleet) :
    run settings (call (.getWorkload w)) s = (s, s.workloads.get? w) := rfl

theorem run_getDeployment (settings : Settings) (d : DeploymentId) (s : Fleet) :
    run settings (call (.getDeployment d)) s = (s, s.record d) := rfl

theorem run_listAssignments (settings : Settings) (statuses : List LeaseStatus) (s : Fleet) :
    run settings (call (.listAssignments statuses)) s = (s, listAssignments statuses s) := rfl

theorem run_listDeploymentsByState (settings : Settings) (state : DeploymentState) (s : Fleet) :
    run settings (call (.listDeploymentsByState state)) s = (s, listDeploymentsByState state s) :=
  rfl

theorem run_getBillableSince (settings : Settings) (d : DeploymentId) (s : Fleet) :
    run settings (call (.getBillableSince d)) s = (s, getBillableSince d s) := rfl

/-! ## One pass -/

/-- The GPUs a deployment is charged for. -/
def chargedGpus (s : Fleet) (record : DeploymentRecord) : ℕ :=
  ((s.workloads.get? record.workloadId).map fun w ↦ w.requirements.gpuCount).getD 1

/-- Who is charged in a pass of the meter, and for how many seconds; none when the deployment is
passed over. -/
def chargeOf (settings : Settings) (cycle now : Time) (d : DeploymentId) (record : DeploymentRecord)
    (s : Fleet) : Option (UserId × Time) :=
  match record.ownerUserId with
  | none => none
  | some owner =>
    let workload := s.workloads.get? record.workloadId
    let privateModel := (run settings (isPrivateModel record workload) s).2
    if (workload.any fun w ↦ w.kind = .inference) && !privateModel then none
    else if (run settings (boxSilent settings record now) s).2 then none
    else
      match getBillableSince d s with
      | some since => some (owner, min cycle (max 0 (now - since)))
      | none => if privateModel then none else some (owner, cycle)

/-- What a pass of the meter does: it passes the deployment over, notes when its billing starts, or
charges its owner. -/
inductive MeterSpec (settings : Settings) (cycle now : Time) (d : DeploymentId)
    (record : DeploymentRecord) (s : Fleet) : Fleet × ℤ → Prop
  | passed (h : chargeOf settings cycle now d record s = none) :
      MeterSpec settings cycle now d record s (s, 0)
  | stamped (h : chargeOf settings cycle now d record s = none)
      (unset : getBillableSince d s = none) :
      MeterSpec settings cycle now d record s
        (((FleetOp.setBillableSince d now).exec settings s).1, 0)
  | charged (owner : UserId) (seconds : Time)
      (h : chargeOf settings cycle now d record s = some (owner, seconds)) :
      MeterSpec settings cycle now d record s
        (run settings (charge d owner (meteredMcents (rateOrDefault record) (chargedGpus s record)
          (billedInstances record) seconds)) s)

theorem run_meterDeployment (settings : Settings) (cycle now : Time) (d : DeploymentId)
    (record : DeploymentRecord) (s : Fleet) :
    MeterSpec settings cycle now d record s
      (run settings (meterDeployment settings cycle now d record) s) := by
  unfold meterDeployment
  split
  · next howner => exact .passed (by simp only [chargeOf, howner])
  · next owner howner =>
    have hprivate := run_of_looks settings
      (isPrivateModel_uses (fun _ h ↦ h) record (s.workloads.get? record.workloadId)) s
    have hsilent : (run settings (boxSilent settings record now) s).1 = s :=
      run_of_looks settings (boxSilent_uses (fun _ h ↦ h) record now) s
    rw [run_bind, run_getWorkload, run_bind, hprivate]
    by_cases hshared : ((s.workloads.get? record.workloadId).any fun w ↦ w.kind = .inference) &&
        !(run settings (isPrivateModel record (s.workloads.get? record.workloadId)) s).2
    · rw [if_pos hshared]
      exact .passed (by simp only [chargeOf, howner]; rw [if_pos hshared])
    rw [if_neg hshared, run_bind, hsilent]
    by_cases hquiet : (run settings (boxSilent settings record now) s).2 = true
    · rw [if_pos hquiet]
      exact .passed (by simp only [chargeOf, howner]; rw [if_neg hshared, if_pos hquiet])
    rw [if_neg hquiet, run_bind, run_getBillableSince]
    have hcharge : chargeOf settings cycle now d record s =
        match getBillableSince d s with
        | some since => some (owner, min cycle (max 0 (now - since)))
        | none =>
          if (run settings (isPrivateModel record (s.workloads.get? record.workloadId)) s).2 then none
          else some (owner, cycle) := by
      simp only [chargeOf, howner]
      rw [if_neg hshared, if_neg hquiet]
    cases hsince : getBillableSince d s with
    | some since =>
      rw [hsince] at hcharge
      exact .charged owner _ hcharge
    | none =>
      rw [hsince] at hcharge
      dsimp only at hcharge ⊢
      by_cases hmodel :
          (run settings (isPrivateModel record (s.workloads.get? record.workloadId)) s).2 = true
      · rw [if_pos hmodel] at hcharge ⊢
        exact .stamped hcharge hsince
      · rw [if_neg hmodel] at hcharge ⊢
        exact .charged owner _ hcharge

end GreenCompute
