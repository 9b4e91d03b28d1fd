import GreenCompute.Foundations.Table
import GreenCompute.Persistence.SubjectBus

/-!
# The builder's tables

Builds, their contexts, attempts and jobs, and the deliveries of the two subjects that the builder's
worker consumes. Every call of the repository and of the bus is one step. `save_build` writes the
whole row of the record it is given, whatever is in the table by then.

Events, logs and checkpoints of a build, its display columns and its owner are left out.
-/

namespace GreenCompute

abbrev BuildId := ℕ
abbrev BuildAttemptId := ℕ
abbrev BuildJobId := ℕ

/-- The `status` of a build, an attempt or a job. A stage is named by the status of a build in
it. -/
inductive BuildStatus where
  | accepted
  | staging
  | building
  | publishing
  | published
  | failed
  | cancelled
  | queued
  | running
  | succeeded
  deriving DecidableEq

/-- A build that is cancelled or published. -/
def BuildStatus.finished : BuildStatus → Bool
  | cancelled | published => true
  | _ => false

/-- What `urlparse` makes of a context's location. -/
structure ContextUri where
  scheme : Text
  netloc : Text
  path : Text
  deriving DecidableEq

/-- `BuildRecord` -/
structure BuildRecord where
  image : Text
  contextUri : ContextUri
  status : BuildStatus
  registryRepository : Option Text
  imageTag : Option Text
  artifactUri : Option Text
  artifactDigest : Option Text
  registryManifestUri : Option Text
  buildLogUri : Option Text
  executorName : Option Text
  buildDurationSeconds : Option Time
  failureReason : Option Text
  failureClass : Option Text
  lastOperation : Option Text
  cleanupStatus : Option Text
  retryCount : ℕ
  retryExhausted : Bool
  updatedAt : Time
  deriving DecidableEq

/-- Where the image of a build is. -/
def BuildRecord.artifacts (b : BuildRecord) : Option Text × Option Text × Option Text :=
  (b.artifactUri, b.artifactDigest, b.registryManifestUri)

/-- `BuildContextRecord` -/
structure BuildContextRecord where
  dockerfileObjectUri : Option Text
  stagedContextUri : Option Text
  contextManifestUri : Option Text

/-- `PublishedImage` -/
structure PublishedImage where
  registryRepository : Text
  imageTag : Text
  artifactUri : Text
  artifactDigest : Text
  registryManifestUri : Text
  executorName : Text
  message : Text

/-- `BuildAttemptRecord` -/
structure BuildAttemptRecord where
  buildId : BuildId
  attempt : ℕ
  status : BuildStatus
  restartedFromAttempt : Option ℕ
  restartedFromJobId : Option BuildJobId
  restartReason : Option Text
  failureClass : Option Text
  lastOperation : Option Text
  startedAt : Time
  finishedAt : Option Time

/-- `BuildJobRecord`. Of `stage_state`, only the image of a remote build is read back. -/
structure BuildJobRecord where
  buildId : BuildId
  attempt : ℕ
  status : BuildStatus
  currentStage : BuildStatus
  lastCompletedStage : Option BuildStatus
  remoteBuild : Option PublishedImage
  restartedFromAttempt : Option ℕ
  restartedFromJobId : Option BuildJobId
  restartReason : Option Text
  executorName : Option Text
  failureClass : Option Text
  progressMessage : Option Text
  startedAt : Time
  updatedAt : Time
  finishedAt : Option Time

/-- What the builder publishes, with its payload. -/
inductive BuildMessage where
  | accepted (id : BuildId) (image : Text) (attempt : ℕ) (restartedFromAttempt : Option ℕ)
      (restartedFromJobId : Option BuildJobId) (restartReason : Option Text)
  | jobStarted (id : BuildId) (attempt : ℕ) (stage : BuildStatus) (executorName : Text)
  | jobProgress (id : BuildId) (attempt : ℕ) (stage : BuildStatus) (message : Option Text)
  | jobSucceeded (id : BuildId) (attempt : ℕ) (artifactUri artifactDigest : Option Text)
  | published (id : BuildId) (artifactUri artifactDigest registryManifestUri : Option Text)
  | jobFailed (id : BuildId) (attempt : ℕ) (reason failureClass : Option Text)
  | failed (id : BuildId) (image : Text) (reason failureClass : Option Text)

/-- Whether the builder's worker consumes it. -/
def BuildMessage.delivered : BuildMessage → Bool
  | accepted .. | jobProgress .. => true
  | _ => false

/-- A delivery to the builder's worker. -/
structure BuildDelivery where
  message : BuildMessage
  status : BusStatus
  attempts : ℕ
  availableAt : Time

/-- A delivery that a worker has claimed. -/
structure BuildEvent where
  deliveryId : DeliveryId
  message : BuildMessage
  attempts : ℕ

/-- The tables, the clock, and the identifiers drawn so far. -/
structure BuilderStore where
  builds : Table BuildId BuildRecord
  contexts : Table BuildId BuildContextRecord
  attempts : Table BuildAttemptId BuildAttemptRecord
  jobs : Table BuildJobId BuildJobRecord
  deliveries : Table DeliveryId BuildDelivery
  now : Time
  nextId : ℕ

namespace BuilderStore

variable (s : BuilderStore)

/-- `get_build_attempt` -/
def getBuildAttempt (id : BuildId) (attempt : ℕ) : Option (BuildAttemptId × BuildAttemptRecord) :=
  ((s.attempts.select fun _ a ↦ a.buildId = id ∧ a.attempt = attempt).mergeSort fun r r' ↦
    r'.2.startedAt ≤ r.2.startedAt).head?

/-- `get_build_job` -/
def getBuildJob (id : BuildId) (attempt : ℕ) : Option (BuildJobId × BuildJobRecord) :=
  ((s.jobs.select fun _ j ↦ j.buildId = id ∧ j.attempt = attempt).mergeSort fun r r' ↦
    r'.2.updatedAt < r.2.updatedAt ∨
      r'.2.updatedAt = r.2.updatedAt ∧ r'.2.startedAt ≤ r.2.startedAt).head?

/-- The next identifier. -/
def newId : BuilderStore × ℕ := ({ s with nextId := s.nextId + 1 }, s.nextId)

/-- `bus.publish`, as far as the builder's worker is concerned. -/
def publish (m : BuildMessage) : BuilderStore :=
  if m.delivered then
    { s with
      deliveries := s.deliveries.insert s.nextId ⟨m, .pending, 0, s.now⟩
      nextId := s.nextId + 1 }
  else s

/-- `bus.claim_pending` -/
def claimPending (limit : ℕ) : BuilderStore × List BuildEvent :=
  let rows := (s.deliveries.select fun _ d ↦
    d.status = .pending ∧ d.availableAt ≤ s.now).take limit
  ({ s with
      deliveries := s.deliveries.map fun id d ↦
        if id ∈ rows.map Prod.fst then { d with status := .processing, attempts := d.attempts + 1 }
        else d },
    rows.map fun r ↦ ⟨r.1, r.2.message, r.2.attempts + 1⟩)

/-- `bus.mark_completed` and `bus.mark_failed` -/
def mark (id : DeliveryId) (status : BusStatus) (availableAt : Option Time) : BuilderStore :=
  { s with
    deliveries := s.deliveries.modify id fun d ↦
      { d with status := status, availableAt := availableAt.getD d.availableAt } }

end BuilderStore

/-- The calls of the repository and of the bus, and the passing of time. -/
inductive BuilderOp where
  | getBuild (id : BuildId)
  | saveBuild (id : BuildId) (b : BuildRecord)
  | getBuildContext (id : BuildId)
  | saveBuildContext (id : BuildId) (context : BuildContextRecord)
  | getBuildAttempt (id : BuildId) (attempt : ℕ)
  | saveBuildAttempt (id : BuildAttemptId) (a : BuildAttemptRecord)
  | getBuildJob (id : BuildId) (attempt : ℕ)
  | saveBuildJob (id : BuildJobId) (j : BuildJobRecord)
  | newId
  | publish (m : BuildMessage)
  | claimPending (limit : ℕ)
  | mark (id : DeliveryId) (status : BusStatus) (availableAt : Option Time)
  | now
  | advance (seconds : Time)

/-- What each of them answers. -/
abbrev BuilderOp.Ans : BuilderOp → Type
  | getBuild _ => Option BuildRecord
  | getBuildContext _ => Option BuildContextRecord
  | getBuildAttempt .. => Option (BuildAttemptId × BuildAttemptRecord)
  | getBuildJob .. => Option (BuildJobId × BuildJobRecord)
  | newId => ℕ
  | claimPending _ => List BuildEvent
  | now => Time
  | _ => Unit

/-- The interface of the builder's store. -/
abbrev Builders : Interface := ⟨BuilderOp, BuilderOp.Ans⟩

/-- One of them, with its answer. -/
def BuilderOp.exec : (o : BuilderOp) → BuilderStore → BuilderStore × o.Ans
  | getBuild id, s => (s, s.builds.get? id)
  | saveBuild id b, s => ({ s with builds := s.builds.insert id b }, ())
  | getBuildContext id, s => (s, s.contexts.get? id)
  | saveBuildContext id context, s => ({ s with contexts := s.contexts.insert id context }, ())
  | getBuildAttempt id attempt, s => (s, s.getBuildAttempt id attempt)
  | saveBuildAttempt id a, s => ({ s with attempts := s.attempts.insert id a }, ())
  | getBuildJob id attempt, s => (s, s.getBuildJob id attempt)
  | saveBuildJob id j, s => ({ s with jobs := s.jobs.insert id j }, ())
  | newId, s => s.newId
  | publish m, s => (s.publish m, ())
  | claimPending limit, s => s.claimPending limit
  | mark id status availableAt, s => (s.mark id status availableAt, ())
  | now, s => (s, s.now)
  | advance seconds, s => ({ s with now := s.now + max 0 seconds }, ())

end GreenCompute
