import GreenCompute.ControlPlane.Suspensions

/-!
# The lease of a suspended deployment

A deployment that was ever placed has a lease, and the lease of a suspended one says that it is
suspended or that it is being resumed: no call but the failing of a deployment that is being resumed
leaves it there with a lease that has ended. The invariant is shown for each method that moves a
stand by what its shifts are, and `tied_after` says it for every call.
-/

namespace GreenCompute

open ControlPlaneRepository ControlPlaneService

variable {settings : Settings} {protocol : Protocol} {s s' : Fleet} {d : DeploymentId}

/-! ## Stands -/

namespace Stand

variable {f : Stand} {record saved : DeploymentRecord}

/-- A placed deployment has a lease, and that of a suspended one is suspended or live. -/
def Tied (f : Stand) : Prop :=
  ∀ record ∈ f.record, (record.hotkey.isSome = true → f.lease.isSome = true) ∧
    (record.state = .suspended → ∀ lease ∈ f.lease,
      lease.status ∈ activeStatuses ∨ lease.status = .suspended)

/-- Saving a record that leaves state and place as they are. -/
theorem Tied.save_same (h : f.Tied) (hrecord : f.record = some record)
    (hstate : saved.state = record.state) (hhotkey : saved.hotkey = record.hotkey) :
    (f.save saved).Tied := by
  rintro _ ⟨⟩
  obtain ⟨hplaced, hlease⟩ := h record hrecord
  exact ⟨fun hsome ↦ hplaced (hhotkey ▸ hsome), fun hsuspended ↦ hlease (hstate ▸ hsuspended)⟩

/-- Saving the record of a deployment that is not suspended. -/
theorem tied_save (hplaced : saved.hotkey.isSome = true → f.lease.isSome = true)
    (hstate : saved.state ≠ .suspended) : (f.save saved).Tied := by
  rintro _ ⟨⟩
  exact ⟨hplaced, fun hsuspended ↦ absurd hsuspended hstate⟩

/-- A report moves the lease along with the state. -/
theorem Tied.report (h : f.Tied) (hrecord : f.record = some record)
    (update : DeploymentStatusUpdate) (readyAt : Option Time) :
    ((f.follow update.state).save (reported update record update.state readyAt)).Tied := by
  rintro _ ⟨⟩
  obtain ⟨hplaced, -⟩ := h record hrecord
  refine ⟨fun hsome ↦ (isSome_lease_follow f _).trans (hplaced hsome), fun hstate lease hlease ↦ ?_⟩
  right
  have hsuspended : update.state = .suspended := hstate
  change lease ∈ (f.follow update.state).lease at hlease
  rw [hsuspended] at hlease
  obtain ⟨old, -, rfl⟩ := Option.map_eq_some_iff.mp hlease
  rfl

/-- Every shift keeps a deployment tied, but the failing of one that is being resumed. -/
theorem Tied.shift {workloads : Table WorkloadId WorkloadSpec} {c : FleetCall} {now : Time}
    {p q : Position} (h : p.stand.Tied) (hshift : PositionShift workloads c d now p q)
    (hspared : c = .failDeployment d → p.state = some .suspended → p.stand.activeLease = none) :
    q.stand.Tied := by
  cases hshift with
  | created => exact tied_save nofun nofun
  | noted record saved found same => exact h.save_same found same.state same.hotkey
  | reported q report =>
    cases report with
    | admitted update record readyAt found => exact h.report found update readyAt
  | scheduled record saved workload assignment attempts granted made found waiting needs assigned
      terms state =>
    rintro _ ⟨⟩
    exact ⟨fun _ ↦ rfl, fun hsuspended ↦ nomatch state.symm.trans hsuspended⟩
  | requeued record saved origin found same | unplaced record saved origin found same =>
    refine tied_save (fun hsome ↦ ?_) (by rw [same.state]; decide)
    rw [same.hotkey] at hsome
    cases hsome
  | released record made found leased =>
    rintro record' hrecord'
    obtain rfl : record = record' := Option.some.inj (found.symm.trans hrecord')
    refine ⟨fun hsome ↦ ?_, fun hsuspended ↦ ?_⟩
    · rw [isSome_lease_setLease]
      exact (h record found).1 hsome
    · have hstate : p.state = some .suspended := by rw [Position.state_of_record found, hsuspended]
      rw [hspared made hstate] at leased
      cases leased
  | ended record saved stand reason made found kept lease hold terms state hotkey =>
    refine tied_save (fun hsome ↦ ?_) (by rw [state]; decide)
    rw [lease]
    exact (h record found).1 (hotkey ▸ hsome)
  | reclaimed | stamped => exact h
  | resumed record saved workload hotkey node made found suspended onHotkey onNode needs same =>
    rintro _ ⟨⟩
    refine ⟨fun _ ↦ ?_, fun _ lease hlease ↦ ?_⟩
    · exact (isSome_lease_setLease _ _).trans ((h record found).1 (by rw [onHotkey]; rfl))
    · obtain ⟨old, -, rfl⟩ := Option.map_eq_some_iff.mp hlease
      exact .inl active_mem_activeStatuses

end Stand

/-- The deployment's lease is one of the `_LIVE_LEASE_STATUSES`. -/
def Fleet.Leased (s : Fleet) (d : DeploymentId) : Prop :=
  ∃ lease ∈ s.leases.get? d, lease.status ∈ activeStatuses

instance (s : Fleet) (d : DeploymentId) : Decidable (s.Leased d) :=
  inferInstanceAs (Decidable (∃ lease ∈ s.leases.get? d, lease.status ∈ activeStatuses))

/-- The leases of suspended deployments are as they should be. -/
def TiedLeases (s : Fleet) : Prop := ∀ d, (s.stand d).Tied

/-- What shifts deployments but fails none keeps the leases as they should be. -/
theorem Shifted.tied {c : FleetCall} (h : Shifted c s s') (hs : TiedLeases s)
    (hspared : ∀ d, c ≠ .failDeployment d) : TiedLeases s' := by
  intro d
  have hshifts := h.position d
  change (s'.position d).stand.Tied
  generalize s'.position d = q at hshifts ⊢
  induction hshifts with
  | refl => exact hs d
  | tail _ hshift ih => exact ih.shift hshift fun hfail ↦ absurd hfail (hspared d)

/-! ## Resuming and failing -/

/-- Where a resume leads: nothing has moved, or the lease is active and the record as it was. -/
inductive ResumeSpec (d : DeploymentId) (s : Fleet) : Fleet × Except ControlPlaneError DeploymentRecord →
    Prop
  | refused (e : ControlPlaneError) (s' : Fleet) (same : s'.stand d = s.stand d) :
      ResumeSpec d s (s', .error e)
  | resumed (record saved : DeploymentRecord) (s' : Fleet) (found : s.record d = some record)
      (suspended : record.state = .suspended) (placed : record.hotkey.isSome = true)
      (saves : s'.record d = some saved) (state : saved.state = .suspended)
      (hotkey : saved.hotkey = record.hotkey)
      (leased : s'.leases.get? d =
        (s.leases.get? d).map fun lease ↦ { lease with status := .active }) :
      ResumeSpec d s (s', .ok saved)

theorem run_resumeDeployment (settings : Settings) (d : DeploymentId) (s : Fleet) :
    ResumeSpec d s (run settings (resumeDeployment d) s) := by
  have hposition := position_resumeDeployment settings d s
  generalize run settings (resumeDeployment d) s = out at hposition ⊢
  obtain ⟨s', result⟩ := out
  obtain ⟨e, rfl, same⟩ | ⟨record, saved, workload, hotkey, node, found, suspended, onHotkey, onNode,
    needs, same, rfl, moved⟩ := hposition
  · exact .refused e s' (congrArg Position.stand same)
  · refine .resumed record saved s' found suspended (by rw [onHotkey]; rfl) ?_
      (same.state.trans suspended) same.hotkey ?_
    · exact congrArg (fun p ↦ p.stand.record) moved
    · exact congrArg (fun p ↦ p.stand.lease) moved

/-- A deployment that is not being resumed is failed, or stays as it is. -/
theorem tied_failDeployment (hs : TiedLeases s)
    (hspared : s.state d = some .suspended → ¬s.Leased d) :
    TiedLeases (run settings (failDeployment settings d) s).1 := by
  intro d'
  by_cases heq : d' = d
  · subst heq
    have hshift : Relation.ReflGen (PositionShift s.workloads (.failDeployment d') d' s.now)
        (s.position d') ((run settings (failDeployment settings d') s).1.position d') :=
      shift_failDeployment
    generalize hafter : (run settings (failDeployment settings d') s).1.position d' = q at hshift
    have hstand : (run settings (failDeployment settings d') s).1.stand d' = q.stand :=
      congrArg Position.stand hafter
    rw [hstand]
    cases hshift with
    | refl => exact hs d'
    | single hshift =>
      refine Stand.Tied.shift (p := s.position d') (hs d') hshift fun _ hsuspended ↦ ?_
      refine Option.eq_none_iff_forall_ne_some.mpr fun lease hactive ↦ hspared hsuspended ?_
      obtain ⟨hlease, hlive⟩ := Option.filter_eq_some_iff.mp hactive
      exact ⟨lease, hlease, of_decide_eq_true hlive⟩
  · rw [stand_run_of_about settings (permits_about d).failDeployment_uses heq]
    exact hs d'

/-- No lease is ever deleted. -/
theorem isSome_lease_exec (settings : Settings) (o : FleetOp)
    (h : (s.leases.get? d).isSome = true) :
    ((o.exec settings s).1.leases.get? d).isSome = true := by
  by_cases hlease : o.leaseOf = some d
  · cases o with
    | saveAssignment d' lease =>
      obtain rfl := Option.some.inj hlease
      change ((s.leases.insert d' lease).get? d').isSome = true
      rw [Table.get?_insert_self, Option.isSome_some]
    | updateAssignmentStatus d' status =>
      obtain rfl := Option.some.inj hlease
      simp only [FleetOp.exec, updateAssignmentStatus]
      split
      · exact h
      · rw [(modifyLatestPlacement_eq d' (fun p ↦ { p with status := status, updatedAt := s.now })
          s).choose_spec]
        exact (congrArg Option.isSome (Table.get?_insert_self ..)).trans rfl
    | _ => cases hlease
  · rw [(leaves_exec settings o s).lease d hlease]
    exact h

theorem isSome_lease_run (settings : Settings) {α : Type} (p : Program ControlPlane α)
    (h : (s.leases.get? d).isSome = true) :
    ((run settings p s).1.leases.get? d).isSome = true := by
  induction p generalizing s with
  | done a => exact h
  | call o k ih => exact ih _ (isSome_lease_exec settings o h)

/-! ## Every call -/

/-- The call does not fail a deployment that is being resumed. -/
def SparesResuming (s : Fleet) : FleetCall → Prop
  | .failDeployment d => s.state d = some .suspended → ¬s.Leased d
  | _ => True

instance (s : Fleet) (c : FleetCall) : Decidable (SparesResuming s c) := by
  rcases c with _ | _ <;> unfold SparesResuming <;> infer_instance

/-- Every call keeps the leases of suspended deployments as they should be, but the failing of one
that is being resumed. -/
theorem tied_after (hs : TiedLeases s) {c : FleetCall} (hc : SparesResuming s c) :
    TiedLeases ((controlPlane settings protocol).after c s) := by
  by_cases hfail : ∃ d, c = .failDeployment d
  · obtain ⟨d, rfl⟩ := hfail
    change TiedLeases (run settings (discard (failDeployment settings d)) s).1
    rw [run_discard]
    exact tied_failDeployment hs hc
  by_cases hadvance : ∃ seconds, c = .advance seconds
  · obtain ⟨seconds, rfl⟩ := hadvance
    exact hs
  · exact (shifted_after settings protocol (not_exists.mp hadvance) s).tied hs (not_exists.mp hfail)

end GreenCompute
