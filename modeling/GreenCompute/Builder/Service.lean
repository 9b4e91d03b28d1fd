import GreenCompute.Builder.Repository

/-!
# The builder service

`retry_build`, `cancel_build` and `cleanup_build`, and the worker's `process_pending_events`, each
as the calls that it makes to the repository and the bus. A worker reads a build once for each event
and saves what it makes of that record at every turn, the long `run_stage` in between.

What the adapters of the runner do for an event is given with the call: they return or raise.
Messages to operators, metrics and the removal of staged objects are left out.
-/

namespace GreenCompute

/-! ## The runner -/

/-- `BuilderExecutionError` -/
structure BuilderExecutionError where
  message : Text
  operation : Text
  failureClass : Text
  retryable : Bool

/-- What a step of the worker can raise. -/
inductive Raised where
  | execution (e : BuilderExecutionError)
  | value (message : Text)
  | other (message : Text)

/-- `StagedContext` -/
structure StagedContext where
  context : BuildContextRecord
  message : Text

/-- What the object store, the remote executor if there is one, and the registry do. -/
structure Adapters where
  stageContext : Except Raised StagedContext
  executeBuild : Option (Except Raised PublishedImage)
  publish : Except Raised PublishedImage

/-- `BuildStageResult` -/
structure BuildStageResult where
  stage : BuildStatus
  nextStage : Option BuildStatus
  message : Text
  remoteBuild : Option PublishedImage
  context : Option BuildContextRecord
  publishedImage : Option PublishedImage

/-- How a status is written. -/
def BuildStatus.text : BuildStatus → Text
  | accepted => "accepted".toList
  | staging => "staging".toList
  | building => "building".toList
  | publishing => "publishing".toList
  | published => "published".toList
  | failed => "failed".toList
  | cancelled => "cancelled".toList
  | queued => "queued".toList
  | running => "running".toList
  | succeeded => "succeeded".toList

/-- `run_stage` -/
def Adapters.runStage (a : Adapters) (context : BuildContextRecord) (stage : BuildStatus)
    (remoteBuild : Option PublishedImage) : Except Raised BuildStageResult :=
  match stage with
  | .staging =>
    a.stageContext.map fun staged ↦
      ⟨.staging, some .building, staged.message, none, some staged.context, none⟩
  | .building =>
    match a.executeBuild with
    | some executed =>
      executed.map fun image ↦
        ⟨.building, some .publishing, image.message, some image, some context, none⟩
    | none =>
      .ok ⟨.building, some .publishing, "prepared staged context for registry publish".toList, none,
        some context, none⟩
  | .publishing =>
    match remoteBuild with
    | some image =>
      .ok ⟨.publishing, none, "recorded published image ".toList ++ image.registryManifestUri, none,
        some context, some image⟩
    | none =>
      a.publish.map fun image ↦ ⟨.publishing, none, image.message, none, some context, some image⟩
  | _ => .error (.value ("unsupported build stage: ".toList ++ stage.text))

/-- `finalize_success` -/
def finalizeSuccess (build : BuildRecord) (image : PublishedImage) (now : Time) : BuildRecord :=
  { build with
    status := .published
    registryRepository := some image.registryRepository
    imageTag := some image.imageTag
    artifactDigest := some image.artifactDigest
    artifactUri := some image.artifactUri
    registryManifestUri := some image.registryManifestUri
    executorName := some image.executorName
    failureClass := none
    failureReason := none
    cleanupStatus := none
    lastOperation := some "published".toList
    updatedAt := now }

/-- `finalize_failure` -/
def finalizeFailure (build : BuildRecord) (e : BuilderExecutionError) (now : Time) : BuildRecord :=
  { build with
    status := .failed
    failureReason := some e.message
    failureClass := some e.failureClass
    lastOperation := some e.operation
    updatedAt := now }

/-- What the worker takes a raised exception for. -/
def Raised.asExecutionError (build : BuildRecord) : Raised → BuilderExecutionError
  | execution e => e
  | value message =>
    ⟨message, "validate_context".toList, "build_validation_failure".toList, false⟩
  | other message =>
    ⟨message, build.lastOperation.getD "unexpected".toList, "builder_runtime_error".toList, false⟩

/-- `_validate_context_uri`: what it raises. -/
def validateContextUri (uri : ContextUri) : Option Text :=
  let schemes := ["s3".toList, "minio".toList, "file".toList, "http".toList, "https".toList]
  if uri.scheme ∉ schemes then
    some ("unsupported build context scheme: ".toList ++
      if uri.scheme = [] then "missing".toList else uri.scheme)
  else if uri.scheme ≠ "file".toList ∧ uri.netloc = [] then
    some "build context uri missing object store or host component".toList
  else if uri.path = [] ∧ uri.scheme = "file".toList then
    some "build context uri missing object path".toList
  else if uri.scheme ∈ ["s3".toList, "minio".toList] ∧ uri.netloc = [] ∧
      uri.path.dropWhile (· = '/') = [] then
    some "build context uri missing object path".toList
  else none

/-- The runner as it is set up: where it logs, and what its executor is called. -/
structure BuilderConfig where
  buildLogUri : BuildId → Text
  executorName : Text

/-- Why an operator's request is turned down. -/
inductive BuildRefusal where
  | notFound (id : BuildId)
  | cancelledBuild
  deriving DecidableEq

namespace BuilderService

/-- One of the calls as a program. -/
def call (o : BuilderOp) : Program Builders o.Ans := Program.op (I := Builders) o

/-- Save a context, if there is one. -/
def saveContext (id : BuildId) : Option BuildContextRecord → Program Builders Unit
  | none => pure ()
  | some context => call (.saveBuildContext id context)

/-! ## Operators -/

/-- `cleanup_build` -/
def cleanupBuild (id : BuildId) (persist : Bool) :
    Program Builders (Except BuildRefusal BuildRecord) := do
  match ← call (.getBuild id) with
  | none => pure (.error (.notFound id))
  | some build => do
    let context ← call (.getBuildContext id)
    saveContext id (context.map fun _ ↦ ⟨none, none, none⟩)
    let now ← call .now
    let cleaned : BuildRecord :=
      { build with
        cleanupStatus := some "completed".toList
        lastOperation := some "cleanup".toList
        updatedAt := now }
    if persist then
      call (.saveBuild id cleaned)
      pure (.ok cleaned)
    else pure (.ok cleaned)

/-- A build that is to be built again. -/
def retried (cfg : BuilderConfig) (id : BuildId) (build : BuildRecord) (now : Time) : BuildRecord :=
  { build with
    status := .accepted
    retryCount := build.retryCount + 1
    failureReason := none
    failureClass := none
    lastOperation := some "retry_requested".toList
    cleanupStatus := none
    retryExhausted := false
    registryRepository := none
    imageTag := none
    artifactUri := none
    artifactDigest := none
    registryManifestUri := none
    buildLogUri := some (cfg.buildLogUri id)
    executorName := none
    updatedAt := now }

/-- `retry_build` -/
def retryBuild (cfg : BuilderConfig) (id : BuildId) (fromAttempt : Option ℕ)
    (fromJobId : Option BuildJobId) (restartReason : Option Text) :
    Program Builders (Except BuildRefusal BuildRecord) := do
  match ← call (.getBuild id) with
  | none => pure (.error (.notFound id))
  | some build => do
    if build.status = .published then pure (.ok build)
    else if build.status = .cancelled then pure (.error .cancelledBuild)
    else do
      let context ← call (.getBuildContext id)
      match ← cleanupBuild id false with
      | .error refusal => pure (.error refusal)
      | .ok _ => do
        let now ← call .now
        let again := retried cfg id build now
        call (.saveBuild id again)
        saveContext id (context.map fun context ↦
          { context with stagedContextUri := none, contextManifestUri := none })
        call (.publish
          (.accepted id build.image (again.retryCount + 1) fromAttempt fromJobId restartReason))
        pure (.ok again)

/-- What `cancel_build` makes of the attempt. -/
def cancelAttempt (id : BuildId) (attempt : ℕ) (now : Time) : Program Builders Unit := do
  match ← call (.getBuildAttempt id attempt) with
  | some (attemptId, a) =>
    if a.finishedAt = none then
      call (.saveBuildAttempt attemptId
        { a with
          status := .cancelled
          failureClass := some "cancelled".toList
          lastOperation := some "cancel".toList
          finishedAt := some now })
    else pure ()
  | none => pure ()

/-- What `cancel_build` makes of the job. -/
def cancelJob (id : BuildId) (attempt : ℕ) (now : Time) : Program Builders Unit := do
  match ← call (.getBuildJob id attempt) with
  | some (jobId, j) =>
    if j.finishedAt = none then
      call (.saveBuildJob jobId
        { j with
          status := .cancelled
          currentStage := .cancelled
          failureClass := some "cancelled".toList
          progressMessage := some "operator cancelled build".toList
          finishedAt := some now
          updatedAt := now })
    else pure ()
  | none => pure ()

/-- `cancel_build` -/
def cancelBuild (id : BuildId) : Program Builders (Except BuildRefusal BuildRecord) := do
  match ← call (.getBuild id) with
  | none => pure (.error (.notFound id))
  | some build => do
    if build.status ∈ [.published, .failed, .cancelled] then pure (.ok build)
    else do
      let now ← call .now
      let cancelled : BuildRecord :=
        { build with
          status := .cancelled
          failureReason := some "build cancelled by operator".toList
          failureClass := some "cancelled".toList
          lastOperation := some "cancel".toList
          updatedAt := now }
      call (.saveBuild id cancelled)
      cancelAttempt id (build.retryCount + 1) now
      cancelJob id (build.retryCount + 1) now
      pure (.ok cancelled)

/-! ## The worker -/

/-- A new attempt. -/
def newAttempt (id : BuildId) (attempt : ℕ) (fromAttempt : Option ℕ)
    (fromJobId : Option BuildJobId) (restartReason : Option Text) :
    Program Builders (BuildAttemptId × BuildAttemptRecord) := do
  let attemptId ← call .newId
  let now ← call .now
  pure (attemptId, ⟨id, attempt, .queued, fromAttempt, fromJobId, restartReason, none, none, now,
    none⟩)

/-- The attempt that an accepted build is in, made if there is none. -/
def openAttempt (id : BuildId) (attempt : ℕ) (fromAttempt : Option ℕ)
    (fromJobId : Option BuildJobId) (restartReason : Option Text) :
    Program Builders (BuildAttemptId × BuildAttemptRecord) := do
  match ← call (.getBuildAttempt id attempt) with
  | some found => pure found
  | none => do
    let made ← newAttempt id attempt fromAttempt fromJobId restartReason
    call (.saveBuildAttempt made.1 made.2)
    pure made

/-- The first save of a build that is being worked on, and its new job. -/
def startJob (cfg : BuilderConfig) (id : BuildId) (build : BuildRecord) (attemptId : BuildAttemptId)
    (attempt : BuildAttemptRecord) : Program Builders BuildStatus := do
  let now ← call .now
  call (.saveBuild id
    { build with
      status := .staging
      failureReason := none
      failureClass := none
      executorName := some cfg.executorName
      buildLogUri := some (cfg.buildLogUri id)
      lastOperation := some "prepare_job".toList
      updatedAt := now })
  call (.saveBuildAttempt attemptId
    { attempt with status := .queued, lastOperation := some "prepare_job".toList })
  let jobId ← call .newId
  call (.saveBuildJob jobId
    { buildId := id
      attempt := attempt.attempt
      status := .queued
      currentStage := .staging
      lastCompletedStage := none
      remoteBuild := none
      restartedFromAttempt := attempt.restartedFromAttempt
      restartedFromJobId := attempt.restartedFromJobId
      restartReason := attempt.restartReason
      executorName := some cfg.executorName
      failureClass := none
      progressMessage := some "prepared build job for staged execution".toList
      startedAt := now
      updatedAt := now
      finishedAt := none })
  call (.publish (.jobStarted id attempt.attempt .staging cfg.executorName))
  pure .staging

/-- The stage of the job of an accepted build, which is started if it has none. -/
def startOrResumeJob (cfg : BuilderConfig) (id : BuildId) (build : BuildRecord)
    (attemptId : BuildAttemptId) (attempt : BuildAttemptRecord) : Program Builders BuildStatus := do
  match ← call (.getBuildJob id attempt.attempt) with
  | some (_, job) => pure job.currentStage
  | none => startJob cfg id build attemptId attempt

/-- `_initialize_or_resume_job` -/
def initializeOrResumeJob (cfg : BuilderConfig) (id : BuildId) (build : BuildRecord) (attempt : ℕ)
    (fromAttempt : Option ℕ) (fromJobId : Option BuildJobId) (restartReason : Option Text) :
    Program Builders (Except (Raised × BuildRecord) Unit) := do
  match validateContextUri build.contextUri with
  | some message => pure (.error (.value message, build))
  | none => do
    match ← call (.getBuildContext id) with
    | none => pure (.error (.value "build context not found".toList, build))
    | some _ => do
      let (attemptId, a) ← openAttempt id attempt fromAttempt fromJobId restartReason
      let stage ← startOrResumeJob cfg id build attemptId a
      call (.publish (.jobProgress id attempt stage none))
      pure (.ok ())

/-- How long an attempt has taken. -/
def buildDuration (attempt : BuildAttemptRecord) (now : Time) : Time :=
  max (now - attempt.startedAt) (1 / 1000)

/-- The end of `_apply_stage_result`, where a next stage is queued. -/
def queueStage (id : BuildId) (build : BuildRecord) (attemptId : BuildAttemptId)
    (attempt : BuildAttemptRecord) (jobId : BuildJobId) (job : BuildJobRecord)
    (stage next : BuildStatus) (deliveryId : DeliveryId) : Program Builders Unit := do
  call (.saveBuildJob jobId { job with currentStage := next })
  call (.saveBuild id { build with status := next, lastOperation := some stage.text })
  call (.saveBuildAttempt attemptId
    { attempt with status := next, lastOperation := some stage.text })
  call (.publish (.jobProgress id attempt.attempt next none))
  call (.mark deliveryId .completed none)

/-- The end of `_apply_stage_result`, where the build is published. -/
def publishBuild (id : BuildId) (build : BuildRecord) (attemptId : BuildAttemptId)
    (attempt : BuildAttemptRecord) (jobId : BuildJobId) (job : BuildJobRecord) (now : Time)
    (image : PublishedImage) (deliveryId : DeliveryId) : Program Builders BuildRecord := do
  let time ← call .now
  let done : BuildRecord :=
    { finalizeSuccess build image time with
      buildDurationSeconds := some (buildDuration attempt now)
      retryCount := max build.retryCount (attempt.attempt - 1) }
  call (.saveBuild id done)
  call (.saveBuildAttempt attemptId
    { attempt with
      status := .published
      lastOperation := some "published".toList
      finishedAt := some now })
  call (.saveBuildJob jobId
    { job with
      status := .succeeded
      currentStage := .succeeded
      executorName := some image.executorName
      finishedAt := some now
      updatedAt := now })
  call (.publish (.jobSucceeded id attempt.attempt done.artifactUri done.artifactDigest))
  call (.publish (.published id done.artifactUri done.artifactDigest done.registryManifestUri))
  call (.mark deliveryId .completed none)
  pure done

/-- `_apply_stage_result` -/
def applyStageResult (id : BuildId) (build : BuildRecord) (attemptId : BuildAttemptId)
    (attempt : BuildAttemptRecord) (jobId : BuildJobId) (job : BuildJobRecord)
    (result : BuildStageResult) (deliveryId : DeliveryId) :
    Program Builders (Except (Raised × BuildRecord) (Option BuildRecord)) := do
  let now ← call .now
  saveContext id result.context
  let job : BuildJobRecord :=
    { job with
      progressMessage := some result.message
      lastCompletedStage := some result.stage
      remoteBuild := result.remoteBuild.or job.remoteBuild
      updatedAt := now }
  let build : BuildRecord := { build with updatedAt := now }
  call (.publish (.jobProgress id attempt.attempt result.stage (some result.message)))
  match result.nextStage with
  | some next => do
    queueStage id build attemptId attempt jobId job result.stage next deliveryId
    pure (.ok none)
  | none =>
    match result.publishedImage with
    | none =>
      pure (.error (.value "terminal build stage missing published image".toList, build))
    | some image => do
      let done ← publishBuild id build attemptId attempt jobId job now image deliveryId
      pure (.ok (some done))

/-- The part of `_advance_job` that runs the stage. -/
def runJob (adapters : Adapters) (id : BuildId) (build : BuildRecord) (context : BuildContextRecord)
    (attemptId : BuildAttemptId) (attempt : BuildAttemptRecord) (jobId : BuildJobId)
    (job : BuildJobRecord) (deliveryId : DeliveryId) :
    Program Builders (Except (Raised × BuildRecord) (Option BuildRecord)) := do
  let stage := job.currentStage
  let now ← call .now
  let job : BuildJobRecord := { job with status := .running, updatedAt := now }
  call (.saveBuildJob jobId job)
  let attempt : BuildAttemptRecord :=
    { attempt with status := stage, lastOperation := some stage.text }
  call (.saveBuildAttempt attemptId attempt)
  let build : BuildRecord :=
    { build with status := stage, lastOperation := some stage.text, updatedAt := now }
  call (.saveBuild id build)
  match adapters.runStage context stage job.remoteBuild with
  | .error raised => pure (.error (raised, build))
  | .ok result => applyStageResult id build attemptId attempt jobId job result deliveryId

/-- `_advance_job` -/
def advanceJob (adapters : Adapters) (id : BuildId) (build : BuildRecord) (attempt : ℕ)
    (deliveryId : DeliveryId) :
    Program Builders (Except (Raised × BuildRecord) (Option BuildRecord)) := do
  match ← call (.getBuildContext id) with
  | none => pure (.error (.value "build context not found".toList, build))
  | some context => do
    match ← call (.getBuildAttempt id attempt) with
    | none => pure (.error (.value "build attempt not found".toList, build))
    | some (attemptId, a) => do
      match ← call (.getBuildJob id attempt) with
      | none => pure (.error (.value "build job not found".toList, build))
      | some (jobId, job) => do
        if job.finishedAt ≠ none ∨ job.status ∈ [.succeeded, .failed, .cancelled] then
          call (.mark deliveryId .completed none)
          pure (.ok none)
        else runJob adapters id build context attemptId a jobId job deliveryId

/-- A new job of a build that has failed before it had one. -/
def newJob (id : BuildId) (attempt : ℕ) : Program Builders (BuildJobId × BuildJobRecord) := do
  let jobId ← call .newId
  let now ← call .now
  pure (jobId,
    { buildId := id
      attempt := attempt
      status := .queued
      currentStage := .staging
      lastCompletedStage := none
      remoteBuild := none
      restartedFromAttempt := none
      restartedFromJobId := none
      restartReason := none
      executorName := none
      failureClass := none
      progressMessage := none
      startedAt := now
      updatedAt := now
      finishedAt := none })

/-- The attempt of a build that fails. -/
def failedAttempt (id : BuildId) (attempt : ℕ) :
    Program Builders (BuildAttemptId × BuildAttemptRecord) := do
  match ← call (.getBuildAttempt id attempt) with
  | some found => pure found
  | none => newAttempt id attempt none none none

/-- The job of a build that fails. -/
def failedJob (id : BuildId) (attempt : ℕ) : Program Builders (BuildJobId × BuildJobRecord) := do
  match ← call (.getBuildJob id attempt) with
  | some found => pure found
  | none => newJob id attempt

/-- `_handle_job_failure`. A retry goes on from the stage that the event names; one that names none
leaves the build failed. -/
def handleJobFailure (cfg : BuilderConfig) (id : BuildId) (build : BuildRecord) (attempt : ℕ)
    (stage : Option BuildStatus) (deliveryId : DeliveryId) (e : BuilderExecutionError) :
    Program Builders Unit := do
  let (attemptId, a) ← failedAttempt id attempt
  let (jobId, job) ← failedJob id attempt
  let now ← call .now
  let failed : BuildRecord :=
    { finalizeFailure build e now with
      retryCount := max build.retryCount (attempt - 1)
      buildLogUri := some (cfg.buildLogUri id)
      buildDurationSeconds := some (buildDuration a now) }
  let isOver := !e.retryable || decide (2 ≤ failed.retryCount)
  call (.saveBuild id failed)
  call (.saveBuildAttempt attemptId
    { a with
      status := .failed
      failureClass := failed.failureClass
      lastOperation := some e.operation
      finishedAt := if isOver then some now else a.finishedAt })
  let job : BuildJobRecord :=
    { job with
      status := .failed
      currentStage := .failed
      failureClass := failed.failureClass
      progressMessage := failed.failureReason
      finishedAt := if isOver then some now else job.finishedAt
      updatedAt := now }
  call (.saveBuildJob jobId job)
  call (.publish (.jobFailed id attempt failed.failureReason failed.failureClass))
  call (.publish (.failed id failed.image failed.failureReason failed.failureClass))
  if isOver then
    call (.saveBuild id { failed with retryExhausted := true })
    call (.mark deliveryId .failed none)
  else do
    call (.saveBuild id
      { failed with
        status := stage.getD job.currentStage
        failureReason := none
        failureClass := none
        updatedAt := now })
    call (.saveBuildJob jobId
      { job with
        status := .queued
        currentStage := stage.getD .staging
        failureClass := none
        finishedAt := none
        updatedAt := now })
    let time ← call .now
    call (.mark deliveryId .pending (some (time + 1)))

/-- One event of `process_pending_events` whose build is not finished. -/
def processBuild (cfg : BuilderConfig) (adapters : Adapters) (id : BuildId) (build : BuildRecord)
    (event : BuildEvent) : Program Builders (Option BuildRecord) := do
  match event.message with
  | .accepted _ _ attempt fromAttempt fromJobId restartReason => do
    match ← initializeOrResumeJob cfg id build attempt fromAttempt fromJobId restartReason with
    | .ok () => do
      call (.mark event.deliveryId .completed none)
      pure none
    | .error (raised, build) => do
      handleJobFailure cfg id build attempt none event.deliveryId (raised.asExecutionError build)
      pure none
  | .jobProgress _ attempt stage _ => do
    match ← advanceJob adapters id build attempt event.deliveryId with
    | .ok processed => pure processed
    | .error (raised, build) => do
      handleJobFailure cfg id build attempt (some stage) event.deliveryId
        (raised.asExecutionError build)
      pure none
  | _ => pure none

end BuilderService

/-- The build that an event of the worker is about. -/
def BuildMessage.buildId : BuildMessage → BuildId
  | accepted id .. | jobStarted id .. | jobProgress id .. | jobSucceeded id .. | published id ..
  | jobFailed id .. | failed id .. => id

namespace BuilderService

/-- One event of `process_pending_events` -/
def processEvent (cfg : BuilderConfig) (adapters : BuildEvent → Adapters) (event : BuildEvent) :
    Program Builders (Option BuildRecord) := do
  match ← call (.getBuild event.message.buildId) with
  | none => do
    call (.mark event.deliveryId .failed none)
    pure none
  | some build => do
    if build.status = .cancelled ∨ build.status = .published then
      call (.mark event.deliveryId .completed none)
      pure none
    else processBuild cfg (adapters event) event.message.buildId build event

/-- A batch of events. -/
def processEach (cfg : BuilderConfig) (adapters : BuildEvent → Adapters) :
    List BuildEvent → Program Builders (List BuildRecord)
  | [] => pure []
  | event :: events => do
    let processed ← processEvent cfg adapters event
    let rest ← processEach cfg adapters events
    pure (processed.toList ++ rest)

/-- Batches of events until none are left or the limit is reached. Each batch has an event, so there
are no more batches than the limit. -/
def processBatches (cfg : BuilderConfig) (adapters : BuildEvent → Adapters) :
    (batches remaining : ℕ) → Program Builders (List BuildRecord)
  | 0, _ => pure []
  | batches + 1, remaining => do
    if remaining = 0 then pure []
    else do
      match ← call (.claimPending remaining) with
      | [] => pure []
      | event :: events => do
        let processed ← processEach cfg adapters (event :: events)
        let rest ← processBatches cfg adapters batches (remaining - (event :: events).length)
        pure (processed ++ rest)

/-- `process_pending_events` -/
def processPendingEvents (cfg : BuilderConfig) (adapters : BuildEvent → Adapters) (limit : ℕ) :
    Program Builders (List BuildRecord) :=
  processBatches cfg adapters limit limit

end BuilderService

/-! ## The service -/

/-- The calls that can be made, and time. -/
inductive BuilderCall where
  | retryBuild (id : BuildId) (fromAttempt : Option ℕ) (fromJobId : Option BuildJobId)
      (restartReason : Option Text)
  | cancelBuild (id : BuildId)
  | cleanupBuild (id : BuildId)
  | processPendingEvents (adapters : BuildEvent → Adapters) (limit : ℕ)
  | advance (seconds : Time)

open BuilderService Program in
/-- What a call runs. -/
def BuilderCall.body (cfg : BuilderConfig) : BuilderCall → Program Builders Unit
  | retryBuild id fromAttempt fromJobId restartReason => do
    let _ ← BuilderService.retryBuild cfg id fromAttempt fromJobId restartReason
    pure ()
  | cancelBuild id => do
    let _ ← BuilderService.cancelBuild id
    pure ()
  | cleanupBuild id => do
    let _ ← BuilderService.cleanupBuild id true
    pure ()
  | processPendingEvents adapters limit => do
    let _ ← BuilderService.processPendingEvents cfg adapters limit
    pure ()
  | advance seconds => call (.advance seconds)

/-- Any number of operators and workers at the builder's tables. -/
def builders (cfg : BuilderConfig) : Service Builders BuilderCall BuilderStore where
  exec := BuilderOp.exec
  body := BuilderCall.body cfg

end GreenCompute
