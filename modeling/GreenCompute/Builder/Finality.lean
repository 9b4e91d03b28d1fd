import GreenCompute.Builder.Service
import GreenCompute.Foundations.Watching

/-!
# Finished builds

A cancelled or a published build is finished. Every method looks at the status of a build when it
reads it and leaves a finished one alone, but saves the record that it read long after, and nothing
looks at the row by then. `finished_builds_final` is about the runs in which no call that has had
the build in hand unfinished saves it, or publishes the result of a stage of it, once it is
finished.
-/

namespace GreenCompute

open BuilderService Program

/-! ## What a call has seen of a build -/

/-- The record that a call has last read or saved, and whether it has had one in hand that was not
finished. -/
structure Sight where
  last : Option BuildRecord
  unfinished : Bool

/-- What a call has seen of each build. -/
abbrev Sights := BuildId → Sight

namespace Sights

/-- Nothing yet. -/
def none : Sights := fun _ ↦ ⟨.none, false⟩

/-- A record of a build comes into the hands of the call. -/
def see (v : Sights) (id : BuildId) (b : Option BuildRecord) : Sights :=
  Function.update v id ⟨b, (v id).unfinished || b.any fun b ↦ !b.status.finished⟩

/-- What a call is answered. -/
def look (v : Sights) : Event Builders → Sights
  | ⟨.getBuild id, b⟩ => v.see id b
  | ⟨.saveBuild id b, _⟩ => v.see id (some b)
  | _ => v

/-- What a call has seen after some operations. -/
def after (past : List (Event Builders)) : Sights := past.foldl look none

variable {v : Sights} {id : BuildId} {e : Event Builders}

theorem look_unfinished (h : (v id).unfinished = true) (e : Event Builders) :
    (v.look e id).unfinished = true := by
  have hsee (key : BuildId) (b : Option BuildRecord) : (v.see key b id).unfinished = true := by
    by_cases hid : id = key
    · subst hid
      rw [see, Function.update_self, h, Bool.true_or]
    · rw [see, Function.update_of_ne hid]
      exact h
  obtain ⟨o, r⟩ := e
  cases o with
  | getBuild key => exact hsee key r
  | saveBuild key b => exact hsee key (some b)
  | _ => exact h

end Sights

/-! ## Finished builds stay as they are -/

/-- Two records that agree on the status and, where it is published, on where the image is. -/
def BuildRecord.Agrees (b b' : BuildRecord) : Prop :=
  b'.status = b.status ∧ (b.status = .published → b'.artifacts = b.artifacts)

instance (b b' : BuildRecord) : Decidable (b.Agrees b') := by
  unfold BuildRecord.Agrees
  infer_instance

/-- An operation saves no record of this build that disagrees with this one, and publishes no result
of a stage of it. -/
def LeavesBuild (id : BuildId) (b : BuildRecord) (e : Entry Builders BuilderCall) : Prop :=
  match e.event.1 with
  | .saveBuild id' b' => id' = id → b.Agrees b'
  | .publish (.jobProgress id' _ _ (some _)) => id' ≠ id
  | _ => True

instance (id : BuildId) (b : BuildRecord) (e : Entry Builders BuilderCall) :
    Decidable (LeavesBuild id b e) := by
  unfold LeavesBuild
  split <;> infer_instance

/-- A build that an operation saves as finished is left alone by a later one. -/
def LeavesFinal (e e' : Entry Builders BuilderCall) : Prop :=
  match e.event.1 with
  | .saveBuild id b => b.status.finished = true → LeavesBuild id b e'
  | _ => True

instance (e e' : Entry Builders BuilderCall) : Decidable (LeavesFinal e e') := by
  unfold LeavesFinal
  split <;> infer_instance

/-- A status that a call would spoil by saving what it has in hand: a cancel may find the build
cancelled. -/
def BuilderCall.spoils : BuilderCall → BuildStatus → Bool
  | cancelBuild _, .cancelled => false
  | _, status => status.finished

/-- No call that has had a build in hand unfinished saves it, or publishes the result of a stage of
it, once it is finished. -/
def undisturbed : Guard Builders BuilderCall BuilderStore := fun c past o s ↦
  match o with
  | .saveBuild id _ | .publish (.jobProgress id _ _ (some _)) =>
    ∀ row ∈ s.builds.get? id, c.spoils row.status = true → (Sights.after past id).unfinished = false
  | _ => True

instance (c : BuilderCall) (past : List (Event Builders)) (o : BuilderOp) (s : BuilderStore) :
    Decidable (undisturbed c past o s) := by
  unfold undisturbed
  split <;> infer_instance

/-! ## What the methods do with a finished build -/

/-- A call that has only seen a build finished saves it as it saw it and publishes no stage of it,
and a cancel saves it cancelled. -/
def Careful (c : BuilderCall) (v : Sights) : BuilderOp → Prop
  | .saveBuild id b =>
    ((v id).unfinished = false → ∃ seen, (v id).last = some seen ∧ b.status = seen.status ∧
      b.artifacts = seen.artifacts) ∧
    ((∃ key, c = .cancelBuild key) → b.status = .cancelled)
  | .publish (.jobProgress id _ _ (some _)) =>
    (v id).unfinished = true ∧ ∀ key, c ≠ .cancelBuild key
  | _ => True

/-- An operation on no build but this one. -/
def BuilderOp.concerns (id : BuildId) : BuilderOp → Prop
  | saveBuild key _ => key = id
  | publish (.jobProgress key _ _ (some _)) => key = id
  | _ => True

variable {cfg : BuilderConfig} {c : BuilderCall} {v : Sights} {id : BuildId}

section

variable {α β : Type}

/-- The method is careful, whatever it is answered. -/
abbrev Watchful (c : BuilderCall) (p : Program Builders α) (v : Sights) : Prop :=
  p.Watches Sights.look (Careful c) (fun _ _ ↦ True) v

/-- A call that is not a cancel does as it likes with a build it has seen unfinished. -/
theorem watchful_of_uses {p : Program Builders α} (hp : p.Uses (BuilderOp.concerns id))
    (hc : ∀ key, c ≠ .cancelBuild key) (hv : (v id).unfinished = true) : Watchful c p v := by
  refine Watches.mono (hp.watches (P := fun v ↦ (v id).unfinished = true) ?_ ?_ hv) fun _ _ _ ↦
    trivial
  · intro v o hv ho
    cases o with
    | saveBuild key b =>
      obtain rfl : key = id := ho
      refine ⟨fun hfalse ↦ ?_, fun ⟨key, hkey⟩ ↦ absurd hkey (hc key)⟩
      rw [hv] at hfalse
      cases hfalse
    | publish m =>
      cases m with
      | jobProgress key attempt stage message =>
        cases message with
        | none => trivial
        | some message =>
          obtain rfl : key = id := ho
          exact ⟨hv, hc⟩
      | _ => trivial
    | _ => trivial
  · exact fun v o r hv _ ↦ Sights.look_unfinished hv ⟨o, r⟩

end

theorem uses_saveContext (key : BuildId) (context : Option BuildContextRecord) :
    (saveContext key context).Uses (BuilderOp.concerns id) := by
  cases context with
  | none => trivial
  | some context => exact uses_op.mpr trivial

/-! ### The worker -/

theorem uses_newAttempt (key : BuildId) (attempt : ℕ) (fromAttempt : Option ℕ)
    (fromJobId : Option BuildJobId) (restartReason : Option Text) :
    (newAttempt key attempt fromAttempt fromJobId restartReason).Uses (BuilderOp.concerns id) :=
  Uses.op_bind trivial fun _ ↦ Uses.op_bind trivial fun _ ↦ trivial

theorem uses_startJob (build : BuildRecord) (attemptId : BuildAttemptId)
    (attempt : BuildAttemptRecord) :
    (startJob cfg id build attemptId attempt).Uses (BuilderOp.concerns id) := by
  refine Uses.op_bind trivial fun now ↦ Uses.op_bind rfl fun _ ↦ ?_
  refine Uses.op_bind trivial fun _ ↦ Uses.op_bind trivial fun jobId ↦ ?_
  exact Uses.op_bind trivial fun _ ↦ Uses.op_bind trivial fun _ ↦ trivial

theorem uses_openAttempt (key : BuildId) (attempt : ℕ) (fromAttempt : Option ℕ)
    (fromJobId : Option BuildJobId) (restartReason : Option Text) :
    (openAttempt key attempt fromAttempt fromJobId restartReason).Uses (BuilderOp.concerns id) := by
  refine Uses.op_bind trivial fun found ↦ ?_
  cases found with
  | some found => trivial
  | none =>
    refine Uses.bind (uses_newAttempt key attempt fromAttempt fromJobId restartReason) fun made ↦ ?_
    exact Uses.op_bind trivial fun _ ↦ trivial

theorem uses_initializeOrResumeJob (build : BuildRecord) (attempt : ℕ) (fromAttempt : Option ℕ)
    (fromJobId : Option BuildJobId) (restartReason : Option Text) :
    (initializeOrResumeJob cfg id build attempt fromAttempt fromJobId restartReason).Uses
      (BuilderOp.concerns id) := by
  unfold initializeOrResumeJob
  split
  · trivial
  · refine Uses.op_bind trivial fun context ↦ ?_
    cases context with
    | none => trivial
    | some context =>
      refine Uses.bind (uses_openAttempt id attempt fromAttempt fromJobId restartReason) fun a ↦ ?_
      refine Uses.bind (Uses.op_bind trivial fun job ↦ ?_) fun stage ↦
        Uses.op_bind trivial fun _ ↦ trivial
      cases job with
      | some job => trivial
      | none => exact uses_startJob build a.1 a.2

theorem uses_queueStage (build : BuildRecord) (attemptId : BuildAttemptId)
    (attempt : BuildAttemptRecord) (jobId : BuildJobId) (job : BuildJobRecord)
    (stage next : BuildStatus) (deliveryId : DeliveryId) :
    (queueStage id build attemptId attempt jobId job stage next deliveryId).Uses
      (BuilderOp.concerns id) := by
  refine Uses.op_bind trivial fun _ ↦ Uses.op_bind rfl fun _ ↦ ?_
  refine Uses.op_bind trivial fun _ ↦ Uses.op_bind trivial fun _ ↦ ?_
  exact uses_op.mpr trivial

theorem uses_publishBuild (build : BuildRecord) (attemptId : BuildAttemptId)
    (attempt : BuildAttemptRecord) (jobId : BuildJobId) (job : BuildJobRecord) (now : Time)
    (image : PublishedImage) (deliveryId : DeliveryId) :
    (publishBuild id build attemptId attempt jobId job now image deliveryId).Uses
      (BuilderOp.concerns id) := by
  refine Uses.op_bind trivial fun time ↦ Uses.op_bind rfl fun _ ↦ ?_
  refine Uses.op_bind trivial fun _ ↦ Uses.op_bind trivial fun _ ↦ ?_
  refine Uses.op_bind trivial fun _ ↦ Uses.op_bind trivial fun _ ↦ ?_
  exact Uses.op_bind trivial fun _ ↦ trivial

theorem uses_applyStageResult (build : BuildRecord) (attemptId : BuildAttemptId)
    (attempt : BuildAttemptRecord) (jobId : BuildJobId) (job : BuildJobRecord)
    (result : BuildStageResult) (deliveryId : DeliveryId) :
    (applyStageResult id build attemptId attempt jobId job result deliveryId).Uses
      (BuilderOp.concerns id) := by
  refine Uses.op_bind trivial fun now ↦ ?_
  refine Uses.bind (uses_saveContext id result.context) fun _ ↦ Uses.op_bind rfl fun _ ↦ ?_
  cases result.nextStage with
  | some next => exact Uses.bind (uses_queueStage ..) fun _ ↦ trivial
  | none =>
    cases result.publishedImage with
    | none => trivial
    | some image => exact Uses.bind (uses_publishBuild ..) fun _ ↦ trivial

theorem uses_runJob (adapters : Adapters) (build : BuildRecord) (context : BuildContextRecord)
    (attemptId : BuildAttemptId) (attempt : BuildAttemptRecord) (jobId : BuildJobId)
    (job : BuildJobRecord) (deliveryId : DeliveryId) :
    (runJob adapters id build context attemptId attempt jobId job deliveryId).Uses
      (BuilderOp.concerns id) := by
  refine Uses.op_bind trivial fun now ↦ Uses.op_bind trivial fun _ ↦ ?_
  refine Uses.op_bind trivial fun _ ↦ Uses.op_bind rfl fun _ ↦ ?_
  dsimp only
  split
  · trivial
  · exact uses_applyStageResult ..

theorem uses_advanceJob (adapters : Adapters) (build : BuildRecord) (attempt : ℕ)
    (deliveryId : DeliveryId) :
    (advanceJob adapters id build attempt deliveryId).Uses (BuilderOp.concerns id) := by
  refine Uses.op_bind trivial fun context ↦ ?_
  cases context with
  | none => trivial
  | some context =>
    refine Uses.op_bind trivial fun a ↦ ?_
    cases a with
    | none => trivial
    | some a =>
      refine Uses.op_bind trivial fun job ↦ ?_
      cases job with
      | none => trivial
      | some job =>
        dsimp only
        split
        · exact Uses.op_bind trivial fun _ ↦ trivial
        · exact uses_runJob ..

theorem uses_failedAttempt (key : BuildId) (attempt : ℕ) :
    (failedAttempt key attempt).Uses (BuilderOp.concerns id) := by
  refine Uses.op_bind trivial fun found ↦ ?_
  cases found with
  | some found => trivial
  | none => exact uses_newAttempt ..

theorem uses_failedJob (key : BuildId) (attempt : ℕ) :
    (failedJob key attempt).Uses (BuilderOp.concerns id) := by
  refine Uses.op_bind trivial fun found ↦ ?_
  cases found with
  | some found => trivial
  | none => exact Uses.op_bind trivial fun _ ↦ Uses.op_bind trivial fun _ ↦ trivial

theorem uses_handleJobFailure (build : BuildRecord) (attempt : ℕ) (stage : Option BuildStatus)
    (deliveryId : DeliveryId) (e : BuilderExecutionError) :
    (handleJobFailure cfg id build attempt stage deliveryId e).Uses (BuilderOp.concerns id) := by
  refine Uses.bind (uses_failedAttempt id attempt) fun a ↦ ?_
  refine Uses.bind (uses_failedJob id attempt) fun job ↦ Uses.op_bind trivial fun now ↦ ?_
  refine Uses.op_bind rfl fun _ ↦ Uses.op_bind trivial fun _ ↦ ?_
  refine Uses.op_bind trivial fun _ ↦ Uses.op_bind trivial fun _ ↦ ?_
  refine Uses.op_bind trivial fun _ ↦ ?_
  split
  · exact Uses.op_bind rfl fun _ ↦ uses_op.mpr trivial
  · refine Uses.op_bind rfl fun _ ↦ Uses.op_bind trivial fun _ ↦ ?_
    exact Uses.op_bind trivial fun _ ↦ uses_op.mpr trivial

theorem uses_processBuild (adapters : Adapters) (build : BuildRecord) (event : BuildEvent) :
    (processBuild cfg adapters id build event).Uses (BuilderOp.concerns id) := by
  unfold processBuild
  split
  · refine Uses.bind (uses_initializeOrResumeJob ..) fun done ↦ ?_
    cases done with
    | ok _ => exact Uses.op_bind trivial fun _ ↦ trivial
    | error raised => exact Uses.bind (uses_handleJobFailure ..) fun _ ↦ trivial
  · refine Uses.bind (uses_advanceJob ..) fun done ↦ ?_
    cases done with
    | ok processed => trivial
    | error raised => exact Uses.bind (uses_handleJobFailure ..) fun _ ↦ trivial
  · trivial

/-- A build that has just been read unfinished. -/
theorem see_unfinished {b : BuildRecord} (h : b.status.finished = false) :
    (v.see id (some b) id).unfinished = true := by
  rw [Sights.see, Function.update_self, Option.any_some, h, Bool.not_false, Bool.or_true]

theorem finished_iff {status : BuildStatus} :
    status.finished = true ↔ status = .cancelled ∨ status = .published := by
  cases status <;> simp [BuildStatus.finished]

theorem watchful_processEvent (hc : ∀ key, c ≠ .cancelBuild key)
    (adapters : BuildEvent → Adapters) (event : BuildEvent) :
    Watchful c (processEvent cfg adapters event) v := by
  refine Watches.op_bind trivial fun found ↦ ?_
  cases found with
  | none => exact Watches.op_bind trivial fun _ ↦ trivial
  | some build =>
    dsimp only
    split
    · exact Watches.op_bind trivial fun _ ↦ trivial
    · next hopen =>
      have hunfinished : build.status.finished = false := by
        rw [← Bool.not_eq_true, finished_iff]
        exact hopen
      exact watchful_of_uses (uses_processBuild ..) hc (see_unfinished hunfinished)

theorem watchful_processEach (hc : ∀ key, c ≠ .cancelBuild key)
    (adapters : BuildEvent → Adapters) (events : List BuildEvent) :
    Watchful c (processEach cfg adapters events) v := by
  induction events generalizing v with
  | nil => trivial
  | cons event events ih =>
    refine Watches.bind (watchful_processEvent hc adapters event) fun processed v _ ↦ ?_
    exact Watches.bind ih fun rest v _ ↦ trivial

theorem watchful_processBatches (hc : ∀ key, c ≠ .cancelBuild key)
    (adapters : BuildEvent → Adapters) (batches remaining : ℕ) :
    Watchful c (processBatches cfg adapters batches remaining) v := by
  induction batches generalizing remaining v with
  | zero => trivial
  | succ batches ih =>
    rw [processBatches]
    split
    · trivial
    · refine Watches.op_bind trivial fun events ↦ ?_
      cases events with
      | nil => trivial
      | cons event events =>
        refine Watches.bind (watchful_processEach hc adapters _) fun processed v _ ↦ ?_
        exact Watches.bind (ih _) fun rest v _ ↦ trivial

/-! ### Operators -/

theorem uses_cleanupBuild (persist : Bool) :
    (cleanupBuild id persist).Uses (BuilderOp.concerns id) := by
  refine Uses.op_bind trivial fun found ↦ ?_
  cases found with
  | none => trivial
  | some build =>
    refine Uses.op_bind trivial fun context ↦ Uses.bind (uses_saveContext id _) fun _ ↦ ?_
    refine Uses.op_bind trivial fun now ↦ ?_
    dsimp only
    split
    · exact Uses.op_bind rfl fun _ ↦ trivial
    · trivial

/-- A cleanup saves the build with the status and the image that it read. -/
theorem watchful_cleanupBuild (hc : ∀ key, c ≠ .cancelBuild key) :
    Watchful c (cleanupBuild id true) v := by
  refine Watches.op_bind trivial fun found ↦ ?_
  cases found with
  | none => trivial
  | some build =>
    have hlast : (v.see id (some build) id).last = some build := by
      rw [Sights.see, Function.update_self]
    refine Watches.op_bind trivial fun context ↦ ?_
    refine Watches.bind (P := fun _ v ↦ (v id).last = some build) ?_ fun _ v hlast ↦ ?_
    · cases context with
      | none => exact hlast
      | some context => exact ⟨trivial, fun _ ↦ hlast⟩
    · refine Watches.op_bind trivial fun now ↦ Watches.op_bind ?_ fun _ ↦ trivial
      exact ⟨fun _ ↦ ⟨build, hlast, rfl, rfl⟩, fun ⟨key, hkey⟩ ↦ absurd hkey (hc key)⟩

theorem watchful_retryBuild (hc : ∀ key, c ≠ .cancelBuild key) (fromAttempt : Option ℕ)
    (fromJobId : Option BuildJobId) (restartReason : Option Text) :
    Watchful c (retryBuild cfg id fromAttempt fromJobId restartReason) v := by
  refine Watches.op_bind trivial fun found ↦ ?_
  cases found with
  | none => trivial
  | some build =>
    dsimp only
    split
    · trivial
    · next hpublished =>
      split
      · trivial
      · next hcancelled =>
        have hunfinished : build.status.finished = false := by
          rw [← Bool.not_eq_true, finished_iff]
          exact not_or.mpr ⟨hcancelled, hpublished⟩
        refine watchful_of_uses ?_ hc (see_unfinished hunfinished)
        refine Uses.op_bind trivial fun context ↦ ?_
        refine Uses.bind (uses_cleanupBuild false) fun cleaned ↦ ?_
        cases cleaned with
        | error refusal => trivial
        | ok cleaned =>
          refine Uses.op_bind trivial fun now ↦ Uses.op_bind rfl fun _ ↦ ?_
          exact Uses.bind (uses_saveContext id _) fun _ ↦ Uses.op_bind trivial fun _ ↦ trivial

/-- An operation that is no save of a build and publishes no result of a stage. -/
def BuilderOp.besideBuild : BuilderOp → Bool
  | saveBuild .. | publish _ => false
  | _ => true

theorem watchful_of_beside {α : Type} {p : Program Builders α}
    (hp : p.Uses fun o : BuilderOp ↦ o.besideBuild = true) : Watchful c p v := by
  refine hp.watches (P := fun _ ↦ True) (fun v o _ ho ↦ ?_) (fun _ _ _ _ _ ↦ trivial) trivial
  cases o with
  | saveBuild id b => cases ho
  | publish m => cases ho
  | _ => trivial

theorem uses_cancelAttempt (attempt : ℕ) (now : Time) :
    (cancelAttempt id attempt now).Uses fun o : BuilderOp ↦ o.besideBuild = true := by
  refine Uses.op_bind rfl fun a ↦ ?_
  cases a with
  | none => trivial
  | some a =>
    dsimp only
    split
    · exact uses_op.mpr rfl
    · trivial

theorem uses_cancelJob (attempt : ℕ) (now : Time) :
    (cancelJob id attempt now).Uses fun o : BuilderOp ↦ o.besideBuild = true := by
  refine Uses.op_bind rfl fun job ↦ ?_
  cases job with
  | none => trivial
  | some job =>
    dsimp only
    split
    · exact uses_op.mpr rfl
    · trivial

theorem watchful_cancelBuild : Watchful c (cancelBuild id) v := by
  refine Watches.op_bind trivial fun found ↦ ?_
  cases found with
  | none => trivial
  | some build =>
    dsimp only
    split
    · trivial
    · next hopen =>
      have hunfinished : build.status.finished = false := by
        rw [← Bool.not_eq_true, finished_iff]
        rintro (hstatus | hstatus) <;> exact hopen (by rw [hstatus]; decide)
      have hseen : (v.see id (some build) id).unfinished = true := see_unfinished hunfinished
      refine Watches.op_bind trivial fun now ↦ Watches.op_bind ⟨fun hfalse ↦ ?_, fun _ ↦ rfl⟩ ?_
      · exact absurd (hseen.symm.trans hfalse) (by decide)
      · intro _
        refine Watches.bind (watchful_of_beside (uses_cancelAttempt ..)) fun _ _ _ ↦ ?_
        exact Watches.bind (watchful_of_beside (uses_cancelJob ..)) fun _ _ _ ↦ trivial

/-- Every call is careful. -/
theorem watchful_body (c : BuilderCall) : Watchful c (c.body cfg) v := by
  cases c with
  | retryBuild id fromAttempt fromJobId restartReason =>
    refine Watches.bind (watchful_retryBuild ?_ ..) fun _ _ _ ↦ trivial
    exact fun _ h ↦ nomatch h
  | cancelBuild id => exact Watches.bind watchful_cancelBuild fun _ _ _ ↦ trivial
  | cleanupBuild id =>
    refine Watches.bind (watchful_cleanupBuild ?_) fun _ _ _ ↦ trivial
    exact fun _ h ↦ nomatch h
  | processPendingEvents adapters limit =>
    refine Watches.bind (watchful_processBatches ?_ adapters limit limit) fun _ _ _ ↦ trivial
    exact fun _ h ↦ nomatch h
  | advance seconds => exact ⟨trivial, fun _ ↦ trivial⟩

/-! ## Every run -/

variable {s : BuilderStore} {past : List (Event Builders)} {o : BuilderOp} {b row : BuildRecord}

theorem builds_exec (h : ∀ id b, o ≠ .saveBuild id b) : (o.exec s).1.builds = s.builds := by
  cases o with
  | saveBuild id b => exact absurd rfl (h id b)
  | publish m =>
    simp only [BuilderOp.exec, BuilderStore.publish]
    split <;> rfl
  | _ => rfl

/-- A call that has only seen a build finished has seen its row as it is. -/
def InSight (s : BuilderStore) (v : Sights) : Prop :=
  ∀ id seen, (v id).last = some seen → (v id).unfinished = false →
    seen.status.finished = true ∧ ∃ row, s.builds.get? id = some row ∧ seen.Agrees row

/-- A careful save that is not disturbed leaves a finished build as it is. -/
theorem agrees_of_save (hcareful : Careful c (Sights.after past) (.saveBuild id b))
    (hguard : undisturbed c past (.saveBuild id b) s) (hsight : InSight s (Sights.after past))
    (hrow : s.builds.get? id = some row) (hfinished : row.status.finished = true) :
    row.Agrees b := by
  by_cases hspoils : c.spoils row.status = true
  · have hunfinished := hguard row hrow hspoils
    obtain ⟨seen, hseen, hstatus, hartifacts⟩ := hcareful.1 hunfinished
    obtain ⟨-, row', hrow', hagrees, himage⟩ := hsight id seen hseen hunfinished
    obtain rfl := Option.some.inj (hrow.symm.trans hrow')
    refine ⟨hstatus.trans hagrees.symm, fun hpublished ↦ hartifacts.trans ?_⟩
    exact (himage (hagrees.symm.trans hpublished)).symm
  · -- What is left is a cancel that finds the build cancelled.
    have hcancel : (∃ key, c = .cancelBuild key) ∧ row.status = .cancelled := by
      unfold BuilderCall.spoils at hspoils
      split at hspoils
      · next _ _ key hstatus => exact ⟨⟨key, rfl⟩, hstatus⟩
      · exact absurd hfinished hspoils
    have hb := hcareful.2 hcancel.1
    refine ⟨hb.trans hcancel.2.symm, fun hpublished ↦ ?_⟩
    rw [hcancel.2] at hpublished
    cases hpublished

/-- Whatever is answered, finished builds stay as they are. -/
theorem row_stays (hcareful : Careful c (Sights.after past) o) (hguard : undisturbed c past o s)
    (hsight : InSight s (Sights.after past)) (hrow : s.builds.get? id = some row)
    (hfinished : row.status.finished = true) :
    ∃ row', (o.exec s).1.builds.get? id = some row' ∧ row.Agrees row' := by
  by_cases hsave : ∃ key b, o = .saveBuild key b
  · obtain ⟨key, b, rfl⟩ := hsave
    by_cases hkey : id = key
    · subst hkey
      exact ⟨b, Table.get?_insert_self .., agrees_of_save hcareful hguard hsight hrow hfinished⟩
    · exact ⟨row, (Table.get?_insert_ne _ hkey _).trans hrow, rfl, fun _ ↦ rfl⟩
  · rw [builds_exec fun key b ho ↦ hsave ⟨key, b, ho⟩]
    exact ⟨row, hrow, rfl, fun _ ↦ rfl⟩

theorem BuildRecord.Agrees.trans {b b' b'' : BuildRecord} (h : b.Agrees b') (h' : b'.Agrees b'') :
    b.Agrees b'' :=
  ⟨h'.1.trans h.1, fun hpublished ↦ (h'.2 (h.1.trans hpublished)).trans (h.2 hpublished)⟩

theorem BuildRecord.Agrees.refl (b : BuildRecord) : b.Agrees b := ⟨rfl, fun _ ↦ rfl⟩

/-- A finished build is spoiled by every call but a cancel that finds it cancelled. -/
theorem spoils_of_finished (hc : ∀ key, c ≠ .cancelBuild key) {status : BuildStatus}
    (h : status.finished = true) : c.spoils status = true := by
  unfold BuilderCall.spoils
  split
  · next key => exact absurd rfl (hc key)
  · exact h

/-- What a call has seen stays in sight, whoever takes the step. -/
theorem InSight.exec {v : Sights} (h : InSight s v) (hcareful : Careful c (Sights.after past) o)
    (hguard : undisturbed c past o s) (hsight : InSight s (Sights.after past)) :
    InSight (o.exec s).1 v := by
  intro id seen hseen hunfinished
  obtain ⟨hfinished, row, hrow, hagrees⟩ := h id seen hseen hunfinished
  have hrowFinished : row.status.finished = true := by rw [hagrees.1]; exact hfinished
  obtain ⟨row', hrow', hstays⟩ := row_stays hcareful hguard hsight hrow hrowFinished
  exact ⟨hfinished, row', hrow', hagrees.trans hstays⟩

/-- What comes into a call's hands is in its sight if that is how the row is. -/
theorem InSight.see {v : Sights} (h : InSight s v) {found : Option BuildRecord}
    (hfound : s.builds.get? id = found) : InSight s (v.see id found) := by
  intro key seen hseen hunfinished
  by_cases hkey : key = id
  · subst hkey
    rw [Sights.see, Function.update_self] at hseen hunfinished
    obtain rfl : found = some seen := hseen
    have hfinished := (Bool.or_eq_false_iff.mp hunfinished).2
    rw [Option.any_some, Bool.not_eq_false'] at hfinished
    exact ⟨hfinished, seen, hfound, .refl seen⟩
  · rw [Sights.see, Function.update_of_ne hkey] at hseen hunfinished
    exact h key seen hseen hunfinished

theorem InSight.look {v : Sights} (h : InSight (o.exec s).1 v) :
    InSight (o.exec s).1 (v.look ⟨o, (o.exec s).2⟩) := by
  cases o with
  | getBuild id => exact h.see rfl
  | saveBuild id b => exact h.see (Table.get?_insert_self ..)
  | _ => exact h

/-- A build was in its row like this at the start of a run, or has been saved like this since. -/
def Recorded (s : BuilderStore) (log : List (Entry Builders BuilderCall)) (id : BuildId)
    (b : BuildRecord) : Prop :=
  s.builds.get? id = some b ∨ ∃ e ∈ log, e.event.1 = .saveBuild id b

/-- Every finished build is left alone, is still in its row as it was recorded, and is in the sight
of the calls that have only seen it finished. -/
structure Final (s : BuilderStore) (log : List (Entry Builders BuilderCall))
    (w : World Builders BuilderCall BuilderStore) : Prop where
  old : ∀ id b, s.builds.get? id = some b → b.status.finished = true → ∀ e ∈ log, LeavesBuild id b e
  kept : log.Pairwise LeavesFinal
  rows : ∀ id b, Recorded s log id b → b.status.finished = true →
    ∃ row, w.store.builds.get? id = some row ∧ b.Agrees row
  sight : ∀ t ∈ w.threads, InSight w.store (Sights.after t.past)

section

variable {log : List (Entry Builders BuilderCall)} {w : World Builders BuilderCall BuilderStore}

theorem Final.start (h : Final s log w) (c : BuilderCall) :
    Final s log (w.start (builders cfg) c) where
  old := h.old
  kept := h.kept
  rows := h.rows
  sight t ht := by
    rcases List.mem_append.mp ht with ht | ht
    · exact h.sight t ht
    · obtain rfl := List.mem_singleton.mp ht
      exact fun id seen hseen ↦ nomatch hseen

/-- The next operation leaves every build alone that was finished before. -/
theorem Final.leaves (h : Final s log w) (hcareful : Careful c (Sights.after past) o)
    (hguard : undisturbed c past o w.store) (hsight : InSight w.store (Sights.after past))
    (hrecorded : Recorded s log id b) (hfinished : b.status.finished = true) (r : o.Ans) :
    LeavesBuild id b ⟨c, ⟨o, r⟩⟩ := by
  obtain ⟨row, hrow, hagrees⟩ := h.rows id b hrecorded hfinished
  have hrowFinished : row.status.finished = true := by rw [hagrees.1]; exact hfinished
  cases o with
  | saveBuild id' b' =>
    rintro rfl
    exact hagrees.trans (agrees_of_save hcareful hguard hsight hrow hrowFinished)
  | publish m =>
    cases m with
    | jobProgress id' attempt stage message =>
      cases message with
      | none => trivial
      | some message =>
        rintro rfl
        have hseen := hguard row hrow (spoils_of_finished hcareful.2 hrowFinished)
        exact absurd (hseen.symm.trans hcareful.1) (by decide)
    | _ => trivial
  | _ => trivial

theorem Final.answer {i : ℕ} {k : o.Ans → Program Builders Unit} (h : Final s log w)
    (thread : w.threads[i]? = some ⟨c, past, Program.call (I := Builders) o k⟩)
    (hcareful : Careful c (Sights.after past) o) (hguard : undisturbed c past o w.store) :
    Final s (log ++ [⟨c, ⟨o, (o.exec w.store).2⟩⟩]) (w.answer (builders cfg) i c past o k) := by
  have hsight := h.sight _ (List.mem_of_getElem? thread)
  have hleaves (id : BuildId) (b : BuildRecord) (hrecorded : Recorded s log id b)
      (hfinished : b.status.finished = true) : LeavesBuild id b ⟨c, ⟨o, (o.exec w.store).2⟩⟩ :=
    h.leaves hcareful hguard hsight hrecorded hfinished _
  constructor
  · intro id b hb hfinished e he
    rcases List.mem_append.mp he with he | he
    · exact h.old id b hb hfinished e he
    · obtain rfl := List.mem_singleton.mp he
      exact hleaves id b (.inl hb) hfinished
  · refine List.pairwise_append.mpr ⟨h.kept, List.pairwise_singleton .., fun e he e' he' ↦ ?_⟩
    obtain rfl := List.mem_singleton.mp he'
    unfold LeavesFinal
    split
    · next id b hsave => exact hleaves id b (.inr ⟨e, he, hsave⟩)
    · trivial
  · intro id b hrecorded hfinished
    have hold (hrecorded : Recorded s log id b) :
        ∃ row, (o.exec w.store).1.builds.get? id = some row ∧ b.Agrees row := by
      obtain ⟨row, hrow, hagrees⟩ := h.rows id b hrecorded hfinished
      have hrowFinished : row.status.finished = true := by rw [hagrees.1]; exact hfinished
      obtain ⟨row', hrow', hstays⟩ := row_stays hcareful hguard hsight hrow hrowFinished
      exact ⟨row', hrow', hagrees.trans hstays⟩
    rcases hrecorded with hb | ⟨e, he, hsave⟩
    · exact hold (.inl hb)
    · rcases List.mem_append.mp he with he | he
      · exact hold (.inr ⟨e, he, hsave⟩)
      · obtain rfl := List.mem_singleton.mp he
        obtain rfl : o = .saveBuild id b := hsave
        exact ⟨b, Table.get?_insert_self .., .refl b⟩
  · intro t ht
    rcases List.mem_or_eq_of_mem_set ht with ht | rfl
    · exact (h.sight t ht).exec hcareful hguard hsight
    · have hlook := InSight.look (hsight.exec hcareful hguard hsight)
      rw [Sights.after, List.foldl_append]
      exact hlook

/-- Once a build is cancelled or published, no save has another status, no result of a stage of it
is published, and a published build keeps its image: in every run in which no call that has had the
build in hand unfinished saves it, or publishes the result of a stage of it, once it is finished. A
cancel may save a cancelled build again. -/
theorem finished_builds_final (run : (builders cfg).Logs undisturbed ⟨s, []⟩ log w) :
    (∀ id b, s.builds.get? id = some b → b.status.finished = true → ∀ e ∈ log, LeavesBuild id b e) ∧
      log.Pairwise LeavesFinal := by
  have hfinal : Final s log w := by
    induction run with
    | refl =>
      refine ⟨(fun id b _ _ e he ↦ nomatch he), .nil, ?_, fun t ht ↦ nomatch ht⟩
      rintro id b (hb | ⟨e, he, -⟩) -
      · exact ⟨b, hb, .refl b⟩
      · cases he
    | start run c ih => exact ih.start c
    | answer run i c past o k thread ready guarded ih =>
      have hbody (c : BuilderCall) : Watchful c (c.body cfg) Sights.none := watchful_body c
      have hwatches := run.reaches.watches rfl hbody
      exact ih.answer thread (hwatches _ (List.mem_of_getElem? thread)).1 guarded
  exact ⟨hfinal.old, hfinal.kept⟩

end

/-! ### One build -/

/-- The runner of a builder without an executor of its own. -/
def adapterRunner : BuilderConfig := ⟨fun _ ↦ "s3://logs/1".toList, "adapter-runner".toList⟩

/-- The object store and the registry do what they are asked. -/
def working : Adapters where
  stageContext := .ok ⟨⟨none, some "s3://staged/1".toList, none⟩, "staged".toList⟩
  executeBuild := none
  publish :=
    .ok ⟨"app".toList, "latest".toList, "oci://app".toList, "sha256:1".toList,
      "oci://app/manifest".toList, "adapter-runner".toList, "published".toList⟩

/-- A build that has just been accepted, and the delivery that says so. -/
def acceptedBuild : BuilderStore where
  builds := .ofRows [(1,
    { image := "app:latest".toList
      contextUri := ⟨"s3".toList, "contexts".toList, "/1.zip".toList⟩
      status := .accepted
      registryRepository := none
      imageTag := none
      artifactUri := none
      artifactDigest := none
      registryManifestUri := none
      buildLogUri := none
      executorName := none
      buildDurationSeconds := none
      failureReason := none
      failureClass := none
      lastOperation := none
      cleanupStatus := none
      retryCount := 0
      retryExhausted := false
      updatedAt := 0 })]
  contexts := .ofRows [(1, ⟨none, none, none⟩)]
  attempts := .empty
  jobs := .empty
  deliveries := .ofRows [(2, ⟨.accepted 1 "app:latest".toList 1 none none none, .pending, 0, 0⟩)]
  now := 0
  nextId := 3

/-- A worker publishes the build, and it is cleaned up. -/
theorem finished_builds_final_published :
    ∃ log w, (builders adapterRunner).Logs undisturbed ⟨acceptedBuild, []⟩ log w ∧
      (w.store.builds.get? 1).map (fun b ↦ (b.status, b.cleanupStatus)) =
        some (.published, some "completed".toList) ∧
      log.Pairwise LeavesFinal := by
  let moves : List (Move BuilderCall) :=
    .start (.processPendingEvents (fun _ ↦ working) 10) :: List.replicate 76 (.step 0) ++
      .start (.cleanupBuild 1) :: List.replicate 5 (.step 1)
  obtain ⟨log, w, run, h⟩ := Service.exists_logs_of_record (S := builders adapterRunner)
    (G := undisturbed) (w := ⟨acceptedBuild, []⟩) moves
    (P := fun _ w ↦ (w.store.builds.get? 1).map (fun b ↦ (b.status, b.cleanupStatus)) =
      some (.published, some "completed".toList)) (by decide +kernel)
  exact ⟨log, w, run, h, (finished_builds_final run).2⟩

/-- The build is cancelled while a worker runs its first stage. -/
theorem cancelled_build_goes_on :
    ∃ log w, (builders adapterRunner).Logs .free ⟨acceptedBuild, []⟩ log w ∧
      (w.store.builds.get? 1).map BuildRecord.status = some .building ∧
      ¬log.Pairwise LeavesFinal := by
  let moves : List (Move BuilderCall) :=
    .start (.processPendingEvents (fun _ ↦ working) 10) :: List.replicate 25 (.step 0) ++
      .start (.cancelBuild 1) :: List.replicate 3 (.step 1) ++ List.replicate 5 (.step 0)
  exact Service.exists_logs_of_record (S := builders adapterRunner) (G := .free)
    (w := ⟨acceptedBuild, []⟩) moves
    (P := fun log w ↦ (w.store.builds.get? 1).map BuildRecord.status = some .building ∧
      ¬log.Pairwise LeavesFinal) (by decide +kernel)

end GreenCompute
