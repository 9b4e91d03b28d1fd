import GreenCompute.ControlPlane.Reservations

/-!
# What a call makes of a deployment

Every call of the control plane, run as a whole, changes what is kept about a deployment by a few
kinds of edits: it creates it, notes something on its record, follows a report, places it, takes it
off its machine, ends it or resumes it. `edited_after` says so once, for every call; a property of
all runs is then shown edit by edit. An edit says less than a shift: no more than these properties
are about.
-/

namespace GreenCompute

open ControlPlaneRepository ControlPlaneService

variable {settings : Settings} {protocol : Protocol} {s s' : Fleet} {d : DeploymentId}

/-- One edit of a deployment's position, as a call can make it at a time. -/
inductive Edit (c : FleetCall) (d : DeploymentId) (now : Time) (p : Position) : Position → Prop
  | created (request : DeploymentCreateRequest) (quote : ℕ) (made : c = .createDeployment d request)
      (missing : p.stand.record = none) :
      Edit c d now p ⟨p.stand.save (newRecord request quote now), none⟩
  | noted (record saved : DeploymentRecord) (found : p.stand.record = some record)
      (same : Noted record saved) : Edit c d now p ⟨p.stand.save saved, p.since⟩
  | reported (update : DeploymentStatusUpdate) (record : DeploymentRecord) (readyAt : Option Time)
      (found : p.stand.record = some record) (origin : c.Reports d now update record)
      (live : ¬(record.state = .terminated ∨ record.state = .failed))
      (allowed : record.state.transition update.state = some update.state) :
      Edit c d now p
        ⟨(p.stand.follow update.state).save (reported update record update.state readyAt),
          if update.state = .ready ∧ record.state ≠ .ready then some now else p.since⟩
  | scheduled (record saved : DeploymentRecord) (stand : Stand) (attempts granted : ℕ)
      (made : c = .processDeploymentRequest d attempts) (found : p.stand.record = some record)
      (waiting : record.state = .pending) (terms : SameTerms record saved)
      (state : saved.state = .scheduled) (positive : 0 < granted)
      (rate : saved.hourlyRateCents = lockedRate granted record.hourlyRateCents)
      (instances : saved.readyInstances = record.readyInstances) :
      Edit c d now p ⟨stand.save saved, p.since⟩
  | unplaced (record saved : DeploymentRecord) (stand : Stand) (origin : c.Requeues d)
      (found : p.stand.record = some record) (terms : SameTerms record saved)
      (state : saved.state = .pending) (rate : saved.hourlyRateCents = record.hourlyRateCents)
      (instances : saved.readyInstances = 0)
      (hold : stand.holding = true → p.stand.holding = true) :
      Edit c d now p ⟨stand.save saved, p.since⟩
  | ended (record saved : DeploymentRecord) (reason : Text) (made : c = .cleanupDeployment d reason)
      (found : p.stand.record = some record)
      (terms : SameTerms record saved) (state : saved.state = .terminated)
      (hotkey : saved.hotkey = record.hotkey) (nodeId : saved.nodeId = record.nodeId)
      (rate : saved.hourlyRateCents = record.hourlyRateCents)
      (instances : saved.readyInstances = 0) : Edit c d now p ⟨p.stand.save saved, p.since⟩
  | freed (stand : Stand) (kept : stand.record = p.stand.record)
      (hold : stand.holding = true → p.stand.holding = true) : Edit c d now p ⟨stand, p.since⟩
  | resumed (stand : Stand) (made : c = .resumeDeployment d) (kept : stand.record = p.stand.record) :
      Edit c d now p ⟨stand, p.since⟩
  | stamped (elapsed : Option Time) (made : c = .meterUsage elapsed) (unset : p.since = none) :
      Edit c d now p ⟨p.stand, some now⟩

/-- A call has changed each deployment's position by edits, and taken no time. -/
structure Edited (c : FleetCall) (s s' : Fleet) : Prop where
  now : s'.now = s.now
  position : ∀ d, Relation.ReflTransGen (Edit c d s.now) (s.position d) (s'.position d)

section

variable {c : FleetCall} {now : Time}

/-- The edits that make one position another. -/
abbrev Edits (c : FleetCall) (d : DeploymentId) (now : Time) : Position → Position → Prop :=
  Relation.ReflTransGen (Edit c d now)

theorem ReportShift.edit {p q : Position} (h : ReportShift c d now p q) : Edit c d now p q := by
  cases h with
  | admitted update record readyAt found origin live allowed =>
    exact .reported update record readyAt found origin live allowed

/-- A shift is one edit or two. -/
theorem PositionShift.edits {workloads : Table WorkloadId WorkloadSpec} {p q : Position}
    (h : PositionShift workloads c d now p q) : Edits c d now p q := by
  cases h with
  | created request quote made missing => exact .single (.created request quote made missing)
  | noted record saved found same => exact .single (.noted record saved found same)
  | reported q report => exact .single report.edit
  | scheduled record saved workload assignment attempts granted made found waiting needs assigned
      terms state node positive rate instances =>
    exact .single (.scheduled record saved ⟨some saved, _, _⟩ attempts granted made found waiting
      terms state positive rate instances)
  | requeued record saved origin found same =>
    refine .single (.unplaced record saved _ origin found same.toSameTerms same.state
      same.hourlyRateCents same.readyInstances fun hholding ↦ ?_)
    exact nomatch (Stand.holding_release p.stand).symm.trans hholding
  | unplaced record saved origin found same =>
    exact .single (.unplaced record saved _ origin found same.toSameTerms same.state
      same.hourlyRateCents same.readyInstances id)
  | released =>
    refine .single (.freed _ rfl fun hholding ↦ ?_)
    exact nomatch (Stand.holding_release p.stand).symm.trans hholding
  | ended record saved stand reason made found kept lease hold terms state hotkey nodeId rate
      instances =>
    exact .head (.freed stand kept fun hholding ↦ (hold hholding).1)
      (.single (.ended record saved reason made (kept.trans found) terms state hotkey nodeId rate
        instances))
  | reclaimed r made reserved active =>
    exact .single (.freed _ rfl fun _ ↦ Stand.holding_of_active reserved active)
  | resumed record saved workload hotkey node made found suspended onHotkey onNode needs same =>
    exact .head (.resumed (p.stand.resume hotkey node workload.requirements.gpuCount) made rfl)
      (.single (.noted record saved found same))
  | stamped elapsed made unset => exact .single (.stamped elapsed made unset)

theorem edits_of_shifts {workloads : Table WorkloadId WorkloadSpec} {p q : Position}
    (h : Shifts workloads c d now p q) : Edits c d now p q := by
  induction h with
  | refl => exact .refl
  | tail _ hshift ih => exact ih.trans hshift.edits

theorem Shifted.edited (h : Shifted c s s') : Edited c s s' :=
  ⟨h.now, fun d ↦ edits_of_shifts (h.position d)⟩

/-- A status report makes at most one edit of its deployment. -/
theorem edit_updateDeploymentStatus (settings : Settings) (hnow : s.now = now)
    (update : DeploymentStatusUpdate)
    (origin : ∀ record, s.record d = some record → c.Reports d now update record) :
    Relation.ReflGen (Edit c d now) (s.position d)
      ((run settings (updateDeploymentStatus d update) s).1.position d) :=
  (report_updateDeploymentStatus settings hnow update origin).mono fun _ _ ↦ ReportShift.edit

theorem edits_updateDeploymentStatus (settings : Settings) (hnow : s.now = now)
    (update : DeploymentStatusUpdate)
    (origin : ∀ record, s.record d = some record → c.Reports d now update record) :
    Edits c d now (s.position d)
      ((run settings (updateDeploymentStatus d update) s).1.position d) :=
  (edit_updateDeploymentStatus settings hnow update origin).to_reflTransGen

/-- A miner's report makes at most one edit of its deployment. -/
theorem edit_deploymentStatus (settings : Settings) (hotkey : Hotkey)
    (update : DeploymentStatusUpdate) :
    Relation.ReflGen (Edit (.deploymentStatus d hotkey update) d s.now) (s.position d)
      ((run settings (deploymentStatus d hotkey update) s).1.position d) :=
  (report_deploymentStatus settings hotkey update).mono fun _ _ ↦ ReportShift.edit

end

/-! ## Every call -/

/-- **Every call edits.** A call that takes no time changes each deployment's position by edits of
its own. -/
theorem edited_after (settings : Settings) (protocol : Protocol) {c : FleetCall}
    (hc : ∀ seconds, c ≠ .advance seconds) (s : Fleet) :
    Edited c s ((controlPlane settings protocol).after c s) :=
  (shifted_after settings protocol hc s).edited

/-- What every edit keeps of a deployment's position, every call keeps. -/
theorem position_after_of_edits (settings : Settings) (protocol : Protocol) (c : FleetCall)
    {P : Position → Prop} (hedit : ∀ p q, Edit c d s.now p q → P p → P q)
    (hs : P (s.position d)) : P (((controlPlane settings protocol).after c s).position d) := by
  refine position_after_of_shifts settings protocol c (fun p q hshift hp ↦ ?_) hs
  have hedits := hshift.edits
  clear hshift
  induction hedits with
  | refl => exact hp
  | tail _ hstep ih => exact hedit _ _ hstep ih

end GreenCompute
