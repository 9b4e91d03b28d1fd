import GreenCompute.ControlPlane.Effects

/-!
# What a call has read

Every method that changes a deployment reads its record in one transaction and saves the whole
record in another. In whatever order the calls are interleaved, every save goes with what was read:
`Carrying` says so for any relation that is lenient enough. So every method but the operator's
requeue saves a deployment as terminated when that is how it was read.
-/

namespace GreenCompute

open ControlPlaneService

/-! ## What a call has read -/

/-- The record a call read of a deployment last. -/
def lastRead (past : List (Event ControlPlane)) (d : DeploymentId) : Option DeploymentRecord :=
  past.foldl
    (fun seen e ↦ match e with
      | ⟨.getDeployment d', record⟩ => if d' = d then record else seen
      | _ => seen)
    none

theorem lastRead_getDeployment (past : List (Event ControlPlane)) (d : DeploymentId)
    (record : Option DeploymentRecord) :
    lastRead (past ++ [⟨.getDeployment d, record⟩]) d = record := by
  simp [lastRead]

/-- Other transactions do not count as reading. -/
theorem lastRead_concat {o : FleetOp} (ho : ∀ d, o ≠ .getDeployment d)
    (past : List (Event ControlPlane)) (r : o.Ans) (d : DeploymentId) :
    lastRead (past ++ [⟨o, r⟩]) d = lastRead past d := by
  rw [lastRead, List.foldl_append]
  cases o with
  | getDeployment d' => exact absurd rfl (ho d')
  | _ => rfl

/-- The record the call read last was terminated. -/
def SawTermination (past : List (Event ControlPlane)) (d : DeploymentId) : Prop :=
  (lastRead past d).map DeploymentRecord.state = some .terminated

instance (past : List (Event ControlPlane)) (d : DeploymentId) :
    Decidable (SawTermination past d) := inferInstanceAs (Decidable (_ = _))

/-! ## Methods keep the termination they have read -/

/-- A save of a record that was read as terminated saves it as terminated. -/
def KeepsTermination (past : List (Event ControlPlane)) : FleetOp → Prop
  | .updateDeployment d record => SawTermination past d → record.state = .terminated
  | _ => True

/-- A transaction that neither reads a deployment's record nor saves one. -/
def Quiet : FleetOp → Prop
  | .getDeployment _ | .updateDeployment .. => False
  | _ => True

theorem quiet_of_looks (o : FleetOp) (h : o.looks = true) : Quiet o := by
  cases o <;> trivial

theorem quiet_of_reports (o : FleetOp) (h : o.reports = true) : Quiet o := by
  cases o <;> trivial

/-- The judgement about methods: they keep the termination they have read, whatever they are
answered, and end with a history that meets `Q`. -/
abbrev Keeping {α : Type} (Q : α → List (Event ControlPlane) → Prop) (p : Program ControlPlane α)
    (past : List (Event ControlPlane)) : Prop :=
  p.Asks (fun _ _ ↦ True) KeepsTermination Q past

/-! ## What is saved over what was read -/

/-- Every save is of a record that goes with the one that was read last. -/
def Carries (R : DeploymentRecord → DeploymentRecord → Prop) (past : List (Event ControlPlane)) :
    FleetOp → Prop
  | .updateDeployment d saved => ∃ record, lastRead past d = some record ∧ R record saved
  | _ => True

/-- Methods all of whose saves go with what they have read, whatever they are answered. -/
abbrev Carrying {α : Type} (R : DeploymentRecord → DeploymentRecord → Prop)
    (Q : α → List (Event ControlPlane) → Prop) (p : Program ControlPlane α)
    (past : List (Event ControlPlane)) : Prop :=
  p.Asks (fun _ _ ↦ True) (Carries R) Q past

/-- A save may do anything but move the start of a deployment, or undo a termination. -/
def Lenient (R : DeploymentRecord → DeploymentRecord → Prop) : Prop :=
  ∀ record saved, saved.readyAt = record.readyAt →
    (record.state = .terminated → saved.state = .terminated) → R record saved

/-- A report may be saved over a live record. -/
def Reportable (R : DeploymentRecord → DeploymentRecord → Prop) (update : DeploymentStatusUpdate) :
    Prop :=
  ∀ record readyAt, record.state ≠ .terminated → (update.state ≠ .ready → readyAt = record.readyAt) →
    R record (reported update record update.state readyAt)

section

variable {α β : Type} {past : List (Event ControlPlane)} {d : DeploymentId}
  {read : Option DeploymentRecord} {p : Program ControlPlane α}
  {R : DeploymentRecord → DeploymentRecord → Prop}

/-- A quiet method leaves what was read last as it is. -/
theorem carrying_of_quiet (hp : p.Uses Quiet) (hread : lastRead past d = read) :
    Carrying R (fun _ past ↦ lastRead past d = read) p past := by
  refine hp.asks (fun past o ho ↦ ?_) _ (fun past o r ho h ↦ ?_) hread
  · cases o <;> trivial
  · refine (lastRead_concat (fun d' hd' ↦ ?_) past r d).trans h
    subst hd'
    exact ho

/-- A quiet method followed by the rest. -/
theorem carrying_bind (hp : p.Uses Quiet) (hread : lastRead past d = read)
    {f : α → Program ControlPlane β} {Q : β → List (Event ControlPlane) → Prop}
    (hf : ∀ a past, lastRead past d = read → Carrying R Q (f a) past) :
    Carrying R Q (p >>= f) past :=
  (carrying_of_quiet hp hread).bind hf

/-- A quiet transaction followed by the rest. -/
theorem carrying_call {o : FleetOp} (ho : Quiet o) (hread : lastRead past d = read)
    {f : o.Ans → Program ControlPlane β} {Q : β → List (Event ControlPlane) → Prop}
    (hf : ∀ r past, lastRead past d = read → Carrying R Q (f r) past) : Carrying R Q (call o >>= f) past :=
  carrying_bind (Program.uses_op.mpr ho) hread hf

/-- Reading a record, then the rest. -/
theorem carrying_getDeployment {f : Option DeploymentRecord → Program ControlPlane β}
    {Q : β → List (Event ControlPlane) → Prop}
    (hf : ∀ record past, lastRead past d = record → Carrying R Q (f record) past) :
    Carrying R Q (call (.getDeployment d) >>= f) past :=
  .op_bind trivial fun record _ ↦ hf record _ (lastRead_getDeployment past d record)

/-- Saving a record that goes with the one read, then the rest. -/
theorem carrying_updateDeployment {record saved : DeploymentRecord}
    (hread : lastRead past d = some record) (hsaved : R record saved)
    {f : Unit → Program ControlPlane β} {Q : β → List (Event ControlPlane) → Prop}
    (hf : ∀ past, lastRead past d = some record → Carrying R Q (f ()) past) :
    Carrying R Q (call (.updateDeployment d saved) >>= f) past := by
  refine .op_bind ⟨record, hread, hsaved⟩ fun _ _ ↦ hf _ ?_
  rw [lastRead_concat (by rintro d' ⟨⟩)]
  exact hread

/-- Saving a record in the state of the one read, then the rest. -/
theorem carrying_save (hR : Lenient R) {record saved : DeploymentRecord}
    (hread : lastRead past d = some record) (hstart : saved.readyAt = record.readyAt)
    (hstate : saved.state = record.state) {f : Unit → Program ControlPlane β}
    {Q : β → List (Event ControlPlane) → Prop}
    (hf : ∀ past, lastRead past d = some record → Carrying R Q (f ()) past) :
    Carrying R Q (call (.updateDeployment d saved) >>= f) past :=
  carrying_updateDeployment hread (hR _ _ hstart fun h ↦ hstate.trans h) hf

end

/-- The trivial end of a method. -/
abbrev Anyhow {α : Type} : α → List (Event ControlPlane) → Prop := fun _ _ ↦ True

variable {settings : Settings} {protocol : Protocol} {R : DeploymentRecord → DeploymentRecord → Prop}
  (hR : Lenient R) (past : List (Event ControlPlane)) (d : DeploymentId)

theorem setLease_quiet (status : Option LeaseStatus) : (setLease d status).Uses Quiet :=
  setLease_uses (fun _ ↦ trivial) status

theorem adjustNodeCapacity_quiet (hotkey : Hotkey) (node : NodeId) (deltaGpus : ℤ) :
    (adjustNodeCapacity hotkey node deltaGpus).Uses Quiet :=
  adjustNodeCapacity_uses quiet_of_looks quiet_of_reports hotkey node deltaGpus

theorem assignLease_quiet (workload : WorkloadSpec) :
    (assignLease settings workload d).Uses Quiet :=
  assignLease_uses quiet_of_looks quiet_of_reports (fun _ _ _ _ ↦ trivial) trivial trivial workload

theorem endLease_quiet (record : DeploymentRecord) (assignment : LeaseAssignment)
    (placement : LeaseStatus) (incrementFailure : Bool) (cooldown : Time → Time) :
    (endLease d record assignment placement incrementFailure cooldown).Uses Quiet :=
  endLease_uses quiet_of_looks quiet_of_reports trivial (fun _ ↦ trivial)
    (fun _ _ _ ↦ trivial) record assignment placement incrementFailure cooldown

/-- A method that ends in a status report goes with what it has read. -/
theorem carrying_discard {α : Type} {p : Program ControlPlane α}
    (hp : Carrying R Anyhow p past) : Carrying R Anyhow (discard p) past :=
  hp.bind fun _ _ _ ↦ trivial

theorem carrying_of_uses {α : Type} {p : Program ControlPlane α} (hp : p.Uses Quiet) :
    Carrying R Anyhow p past :=
  (carrying_of_quiet (d := 0) hp rfl).mono fun _ _ _ ↦ trivial

/-- Only a report that a deployment is ready stamps its start. -/
theorem stampReadyAt_carrying {record : DeploymentRecord} (hread : lastRead past d = some record)
    (update : DeploymentStatusUpdate) :
    Carrying R (fun readyAt past ↦ lastRead past d = some record ∧
      (update.state ≠ .ready → readyAt = record.readyAt)) (stampReadyAt update record) past := by
  unfold stampReadyAt
  split
  · next hready =>
    exact carrying_call (by trivial) hread fun now past hread ↦ ⟨hread, fun h ↦ absurd hready.1 h⟩
  · exact ⟨hread, fun _ ↦ rfl⟩

theorem updateDeploymentStatus_carrying {update : DeploymentStatusUpdate}
    (hupdate : Reportable R update) : Carrying R Anyhow (updateDeploymentStatus d update) past := by
  refine carrying_getDeployment fun record past hread ↦ ?_
  cases record with
  | none => trivial
  | some record =>
    dsimp only
    split
    · trivial
    · next hlive =>
      have hterm : record.state ≠ .terminated := fun h ↦ hlive (.inl h)
      cases hnext : record.state.transition update.state with
      | none => trivial
      | some next =>
        obtain rfl := DeploymentState.transition_eq_some hnext
        refine (stampReadyAt_carrying past d hread update).bind fun readyAt past hstamp ↦ ?_
        obtain ⟨hread, hstart⟩ := hstamp
        refine carrying_bind (setLease_quiet d _) hread fun _ past hread ↦ ?_
        refine carrying_bind (releaseFor_uses trivial _) hread fun _ past hread ↦ ?_
        refine carrying_updateDeployment hread (hupdate record readyAt hterm hstart)
          fun past hread ↦ ?_
        exact carrying_bind (stampBillable_uses quiet_of_looks (fun _ ↦ trivial) _) hread
          fun _ past _ ↦ trivial

/-- A report of anything but readiness may be saved. -/
theorem Lenient.reportable (hR : Lenient R) {update : DeploymentStatusUpdate}
    (h : update.state ≠ .ready) : Reportable R update :=
  fun _ _ hlive hstart ↦ hR _ _ (hstart h) fun hterm ↦ absurd hterm hlive

theorem deploymentStatus_carrying (hotkey : Hotkey) {update : DeploymentStatusUpdate}
    (hupdate : Reportable R { update with suspendedReason := none }) :
    Carrying R Anyhow (deploymentStatus d hotkey update) past := by
  refine carrying_getDeployment fun record past hread ↦ ?_
  cases record with
  | none => trivial
  | some record =>
    dsimp only
    split
    · trivial
    · refine (updateDeploymentStatus_carrying past d hupdate).bind fun outcome past _ ↦ ?_
      split <;> trivial

include hR

theorem updateDeployment_carrying (request : DeploymentUpdateRequest) :
    Carrying R Anyhow (updateDeployment d request) past := by
  refine carrying_getDeployment fun record past hread ↦ ?_
  cases record with
  | none => trivial
  | some record =>
    dsimp only
    refine carrying_call (by trivial) hread fun workload past hread ↦ ?_
    cases workload with
    | none => trivial
    | some workload =>
      dsimp only
      refine carrying_call (by trivial) hread fun now past hread ↦ ?_
      exact carrying_save hR hread (by rfl) (by rfl) fun past _ ↦ trivial

theorem recordDeploymentHealthFailure_carrying (error : Text) :
    Carrying R Anyhow (recordDeploymentHealthFailure settings d error) past := by
  refine carrying_getDeployment fun record past hread ↦ ?_
  cases record with
  | none => trivial
  | some record =>
    dsimp only
    refine carrying_call (by trivial) hread fun now past hread ↦ ?_
    refine carrying_save hR hread (by rfl) (by rfl) fun past hread ↦ ?_
    split
    · exact updateDeploymentStatus_carrying past d (hR.reportable (by nofun))
    · trivial

theorem clearDeploymentHealthFailures_carrying :
    Carrying R Anyhow (clearDeploymentHealthFailures d) past := by
  refine carrying_getDeployment fun record past hread ↦ ?_
  cases record with
  | none => trivial
  | some record =>
    dsimp only
    split
    · trivial
    · refine carrying_call (by trivial) hread fun now past hread ↦ ?_
      exact carrying_save hR hread (by rfl) (by rfl) fun past _ ↦ trivial

theorem notPlaced_carrying {record : DeploymentRecord} (hread : lastRead past d = some record)
    (attempts : ℕ) : Carrying R Anyhow (notPlaced settings d record attempts) past := by
  refine carrying_call (by trivial) hread fun now past hread ↦ ?_
  dsimp only
  refine carrying_save hR hread (by rfl) (by rfl) fun past hread ↦ ?_
  split
  · refine carrying_call (by trivial) hread fun now past hread ↦ ?_
    refine carrying_save hR hread (by rfl) (by rfl) fun past hread ↦ ?_
    exact (updateDeploymentStatus_carrying past d (hR.reportable (by nofun))).bind fun _ _ _ ↦ trivial
  · trivial

theorem processDeploymentRequest_carrying (attempts : ℕ) :
    Carrying R Anyhow (processDeploymentRequest settings protocol d attempts) past := by
  refine carrying_getDeployment fun record past hread ↦ ?_
  cases record with
  | none => trivial
  | some record =>
    dsimp only
    split
    · trivial
    · next hpending =>
      refine carrying_call (by trivial) hread fun workload past hread ↦ ?_
      cases workload with
      | none => trivial
      | some workload =>
        dsimp only
        refine carrying_bind (assignLease_quiet d workload) hread fun assignment past hread ↦ ?_
        cases assignment with
        | none => exact (notPlaced_carrying hR past d hread attempts).bind fun _ _ _ ↦ trivial
        | some assignment =>
          dsimp only
          -- Only a pending record is placed.
          have hterm : record.state = .terminated → DeploymentState.scheduled = .terminated := by
            rw [not_not.mp hpending]
            exact fun h ↦ (nomatch h)
          refine carrying_call (by trivial) hread fun nodes past hread ↦ ?_
          refine carrying_call (by trivial) hread fun now past hread ↦ ?_
          refine carrying_call (by trivial) hread fun _ past hread ↦ ?_
          exact carrying_updateDeployment hread (hR _ _ (by rfl) hterm) fun past _ ↦ trivial

theorem requeueAssignment_carrying (assignment : LeaseAssignment) (reason : Text)
    (observedAt : Time) :
    Carrying R Anyhow (requeueAssignment settings d assignment reason observedAt) past := by
  refine carrying_getDeployment fun record past hread ↦ ?_
  cases record with
  | none => trivial
  | some record =>
    dsimp only
    split
    · trivial
    · next hlive =>
      refine carrying_call (by trivial) hread fun workload past hread ↦ ?_
      cases workload with
      | none => trivial
      | some workload =>
        dsimp only
        refine carrying_bind (freeLease_uses quiet_of_looks quiet_of_reports trivial _ _) hread
          fun _ past hread ↦ ?_
        refine carrying_bind (setLease_quiet d _) hread fun _ past hread ↦ ?_
        refine carrying_call (by trivial) hread fun _ past hread ↦ ?_
        exact carrying_updateDeployment hread (hR _ _ (by rfl) fun h ↦ absurd (.inr h) hlive) fun past _ ↦ trivial

theorem resumeDeployment_carrying : Carrying R Anyhow (resumeDeployment d) past := by
  refine carrying_getDeployment fun record past hread ↦ ?_
  cases record with
  | none => trivial
  | some record =>
    dsimp only
    split
    · trivial
    · split
      · refine carrying_call (by trivial) hread fun workload past hread ↦ ?_
        cases workload with
        | none => trivial
        | some workload =>
          dsimp only
          refine carrying_bind (findNode_uses quiet_of_looks _) hread fun node past hread ↦ ?_
          cases node with
          | none => trivial
          | some node =>
            dsimp only
            refine carrying_call (by trivial) hread fun reserved past hread ↦ ?_
            split
            · trivial
            · refine carrying_call (by trivial) hread fun _ past hread ↦ ?_
              refine carrying_bind (adjustNodeCapacity_quiet _ _ _) hread fun _ past hread ↦ ?_
              refine carrying_bind (setLease_quiet d _) hread fun _ past hread ↦ ?_
              refine carrying_call (by trivial) hread fun now past hread ↦ ?_
              exact carrying_save hR hread (by rfl) (by rfl) fun past _ ↦ trivial
      · trivial

theorem failDeployment_carrying : Carrying R Anyhow (failDeployment settings d) past := by
  refine carrying_getDeployment fun record past hread ↦ ?_
  cases record with
  | none => trivial
  | some record =>
    dsimp only
    refine carrying_bind (activeAssignment_uses quiet_of_looks d) hread
      fun assignment past hread ↦ ?_
    have hfail : (failAssignment settings d record assignment).Uses Quiet := by
      cases assignment with
      | none => trivial
      | some assignment => exact endLease_quiet d _ _ _ _ _
    refine carrying_bind hfail hread fun _ past hread ↦ ?_
    exact carrying_call (by trivial) hread fun now past hread ↦ updateDeploymentStatus_carrying past d (hR.reportable (by nofun))

omit hR in
theorem cleanupAssignment_quiet (record : DeploymentRecord) (assignment : Option LeaseAssignment) :
    (cleanupAssignment d record assignment).Uses Quiet := by
  cases assignment with
  | none => exact setLease_quiet d _
  | some assignment => exact endLease_quiet d _ _ _ _ _

theorem cleanupDeployment_carrying (reason : Text) :
    Carrying R Anyhow (cleanupDeployment d reason) past := by
  refine carrying_getDeployment fun record past hread ↦ ?_
  cases record with
  | none => trivial
  | some record =>
    dsimp only
    refine carrying_bind (activeAssignment_uses quiet_of_looks d) hread
      fun assignment past hread ↦ ?_
    refine carrying_bind (cleanupAssignment_quiet d record assignment) hread fun _ past hread ↦ ?_
    refine carrying_call (by trivial) hread fun now past hread ↦ ?_
    exact carrying_updateDeployment hread (hR _ _ (by rfl) (by exact fun _ ↦ rfl)) fun past _ ↦ trivial

theorem charge_carrying (owner : UserId) (addMcents : ℤ) :
    Carrying R Anyhow (charge d owner addMcents) past := by
  refine carrying_call (d := d) (by trivial) rfl fun accrued past hread ↦ ?_
  obtain ⟨wholeCents, remainder⟩ := accrued
  dsimp only
  split
  · trivial
  · refine carrying_call (by trivial) hread fun drain past hread ↦ ?_
    cases drain with
    | error e => trivial
    | ok drain =>
      dsimp only
      split
      · refine Program.Asks.bind (P := Anyhow) ?_ fun _ _ _ ↦ trivial
        refine carrying_call (by trivial) hread fun _ past hread ↦ ?_
        refine carrying_call (by trivial) hread fun now past hread ↦ ?_
        exact (updateDeploymentStatus_carrying past d (hR.reportable (by nofun))).bind fun _ _ _ ↦ trivial
      · trivial

theorem meterDeployment_carrying (cycle now : Time) (record : DeploymentRecord) :
    Carrying R Anyhow (meterDeployment settings cycle now d record) past := by
  unfold meterDeployment
  split
  · trivial
  · refine carrying_call (d := d) (by trivial) rfl fun workload past hread ↦ ?_
    refine carrying_bind (isPrivateModel_uses quiet_of_looks _ _) hread fun private_ past hread ↦ ?_
    dsimp only
    split
    · trivial
    · refine carrying_bind (boxSilent_uses quiet_of_looks _ _) hread fun silent past hread ↦ ?_
      split
      · trivial
      · refine carrying_call (by trivial) hread fun since past hread ↦ ?_
        cases since with
        | some since => exact charge_carrying hR past d _ _
        | none =>
          dsimp only
          split
          · exact carrying_call (by trivial) hread fun _ past _ ↦ trivial
          · exact charge_carrying hR past d _ _

theorem meterAll_carrying (cycle now : Time) (ready : List (DeploymentId × DeploymentRecord)) :
    Carrying R Anyhow (meterAll settings cycle now ready) past := by
  induction ready generalizing past with
  | nil => trivial
  | cons entry ready ih =>
    refine (meterDeployment_carrying hR past entry.1 cycle now entry.2).bind fun _ past _ ↦ ?_
    exact (ih past).bind fun _ _ _ ↦ trivial

theorem expireAll_carrying (observedAt : Time)
    (assignments : List (DeploymentId × LeaseAssignment)) :
    Carrying R Anyhow (expireAll observedAt assignments) past := by
  induction assignments generalizing past with
  | nil => trivial
  | cons entry assignments ih =>
    refine Program.Asks.bind (P := Anyhow) ?_ fun outcome past _ ↦ ?_
    · unfold expire
      split
      · trivial
      refine carrying_getDeployment fun record past _ ↦ ?_
      cases record with
      | none => trivial
      | some record =>
        dsimp only
        split
        · trivial
        · exact (updateDeploymentStatus_carrying past entry.1 (hR.reportable (by nofun))).bind fun _ _ _ ↦ trivial
    · cases outcome with
      | error e => trivial
      | ok expired => exact (ih past).bind fun _ _ _ ↦ trivial

theorem reassign_carrying (observedAt : Time) (lease : LeaseAssignment) :
    Carrying R Anyhow (reassign settings observedAt d lease) past := by
  refine carrying_bind (d := d) (assignmentProblem_uses quiet_of_looks lease observedAt) rfl
    fun problem past _ ↦ ?_
  cases problem with
  | none => trivial
  | some problem =>
    refine carrying_getDeployment fun record past hread ↦ ?_
    refine carrying_bind (silentDeployment_uses quiet_of_looks _ _) hread fun silent past hread ↦ ?_
    cases silent with
    | ended silentFor =>
      refine Program.Asks.bind (P := Anyhow) ?_ fun _ _ _ ↦ trivial
      refine carrying_call (by trivial) hread fun now past _ ↦ ?_
      exact (updateDeploymentStatus_carrying past d (hR.reportable (by nofun))).bind fun _ _ _ ↦ trivial
    | kept => trivial
    | moved => exact requeueAssignment_carrying hR past d lease _ observedAt

theorem reassignAll_carrying (observedAt : Time)
    (assignments : List (DeploymentId × LeaseAssignment)) :
    Carrying R Anyhow (reassignAll settings observedAt assignments) past := by
  induction assignments generalizing past with
  | nil => trivial
  | cons entry assignments ih =>
    refine (reassign_carrying hR past entry.1 observedAt entry.2).bind fun _ past _ ↦ ?_
    exact (ih past).bind fun _ _ _ ↦ trivial

theorem suspendAllIdle_carrying (observedAt : Time) (lastInvocationAt : DeploymentId → Option Time)
    (ready : List (DeploymentId × DeploymentRecord)) :
    Carrying R Anyhow (suspendAllIdle settings observedAt lastInvocationAt ready) past := by
  induction ready generalizing past with
  | nil => trivial
  | cons entry ready ih =>
    refine Program.Asks.bind (P := Anyhow) ?_ fun _ past _ ↦ ih past
    refine carrying_call (d := entry.1) (by trivial) rfl fun workload past hread ↦ ?_
    split
    · split
      · trivial
      · refine carrying_call (by trivial) hread fun now past _ ↦ ?_
        exact (updateDeploymentStatus_carrying past entry.1 (hR.reportable (by nofun))).bind fun _ _ _ ↦ trivial
    · trivial

theorem reapAll_carrying (observedAt : Time) (suspended : List (DeploymentId × DeploymentRecord)) :
    Carrying R Anyhow (reapAll settings observedAt suspended) past := by
  induction suspended generalizing past with
  | nil => trivial
  | cons entry suspended ih =>
    refine Program.Asks.bind (P := Anyhow) ?_ fun _ past _ ↦ ih past
    unfold reap
    split
    · trivial
    refine carrying_bind (d := entry.1) (isRental_uses quiet_of_looks _) rfl
      fun rental past hread ↦ ?_
    split
    · trivial
    · split
      · trivial
      · refine carrying_call (by trivial) hread fun now past _ ↦ ?_
        exact (updateDeploymentStatus_carrying past entry.1 (hR.reportable (by nofun))).bind fun _ _ _ ↦ trivial

theorem processUnhealthyMiners_carrying (now : Option Time) :
    Carrying R Anyhow (processUnhealthyMiners settings now) past := by
  refine carrying_bind (d := 0) (timeOr_uses quiet_of_looks now) rfl fun observedAt past hread ↦ ?_
  refine carrying_call (by trivial) hread fun assignments past hread ↦ ?_
  refine carrying_bind (anyMinerReporting_uses quiet_of_looks _) hread fun reporting past _ ↦ ?_
  split
  · trivial
  · exact reassignAll_carrying hR past observedAt assignments

omit hR in
/-- A method that saves no termination away keeps the termination it has read. -/
theorem keeping_of_carrying {α : Type} {p : Program ControlPlane α}
    (hp : Carrying (fun record saved ↦ record.state = .terminated → saved.state = .terminated)
      Anyhow p past) : Keeping Anyhow p past := by
  refine hp.with_uses (Program.Uses.of_forall (fun _ ↦ trivial) p) fun past o ho _ ↦ ?_
  cases o with
  | updateDeployment d saved =>
    obtain ⟨record, hread, hsaved⟩ := ho
    intro hterm
    rw [SawTermination, hread, Option.map_some] at hterm
    exact hsaved (Option.some.inj hterm)
  | _ => trivial

end GreenCompute
