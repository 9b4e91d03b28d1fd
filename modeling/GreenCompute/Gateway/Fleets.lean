import GreenCompute.Foundations.Steps
import GreenCompute.Gateway.ApiKeys
import Mathlib.Data.Prod.Lex

/-!
# Fleets

A fleet is a target count of rentals from one workload. The fleet loop brings each fleet to its
target: it adopts the rentals that it started and did not record, notes which members have run and
which have finished, pauses a fleet whose members keep failing, stops members beyond the target and
starts those that are missing, as many as credit, GPUs and the key allow.

A pass runs under the fleet's lock and is one step here. What it finds around it (the workload, the
key, the credit, the answers of the calls that start and stop rentals) is given with the pass.
-/

namespace GreenCompute

/-! ## The tables -/

abbrev FleetId := ℕ

/-- `MAX_TARGET` -/
def maxTarget : ℕ := 64

/-- How many members a fleet can have. -/
abbrev FleetTarget := {n : ℕ // 1 ≤ n ∧ n ≤ maxTarget}

inductive FleetState where
  | active
  | paused
  | completed
  | stopped
  deriving DecidableEq

/-- Why `create_deployment` starts no rental. -/
inductive Refusal where
  | noCapacity (message : Text)
  | insufficientBalance
  | unsupportedGpu
  | keyActive (maxActiveRentals : ℤ)
  | keySpend (dailySpendLimitUsd : ℚ)
  | workload
  | failed (message : Text)
  deriving DecidableEq

/-- Why a pass started fewer members than the fleet lacks. -/
inductive Waiting where
  | credit (costCents committedCents balanceCents : ℤ)
  | refused (refusal : Refusal)
  deriving DecidableEq

/-- What a fleet says about itself. -/
inductive FleetStatus where
  | starting
  | pausedByYou
  | resuming
  | stopped (keepRunning : Bool)
  | failing (streak : ℕ) (lastError : Option Text)
  | stopping (extras target : ℕ)
  | done (target : ℕ)
  | running (live target ready : ℕ)
  | workloadDeleted
  | keyDeleted
  | workloadGone
  | started (count target : ℕ) (waiting : Option Waiting)
  deriving DecidableEq

/-- The columns of `fleets` that the loop reads or writes. -/
structure FleetRow where
  ownerUserId : UserId
  createdByKeyId : Option KeyId
  workloadId : WorkloadId
  namePrefix : Text
  target : FleetTarget
  replace : Bool
  state : FleetState
  statusReason : FleetStatus
  failuresResetAt : Option Time
  createdAt : Time
  deriving DecidableEq

/-- A row of `fleet_members`. -/
structure FleetMember where
  fleetId : FleetId
  slot : ℕ
  createdAt : Time
  finishedAt : Option Time
  ran : Bool
  deriving DecidableEq

/-- The columns of `deployments` that a fleet reads. -/
structure FleetRental where
  name : Text
  workloadId : WorkloadId
  ownerUserId : UserId
  createdByKeyId : Option KeyId
  state : DeploymentState
  readyAt : Option Time
  lastError : Option Text
  createdAt : Time
  deriving DecidableEq

/-- `_live` -/
def FleetRental.live (rental : FleetRental) : Bool :=
  rental.state ≠ .terminated ∧ rental.state ≠ .failed

/-- The rental failed before it was ever ready. -/
def FleetRental.failedEarly (rental : FleetRental) : Bool :=
  rental.state = .failed ∧ rental.readyAt = none

structure FleetsDb where
  now : Time
  fleets : Table FleetId FleetRow
  members : Table DeploymentId FleetMember
  deployments : Table DeploymentId FleetRental

/-! ## Names -/

/-- `int` of the digits of a text. -/
def decimal (digits : Text) : ℕ := digits.foldl (fun n c ↦ 10 * n + (c.toNat - '0'.toNat)) 0

/-- `<prefix>-NN`, the name of the member of a slot. -/
def memberName (namePrefix : Text) (slot : ℕ) : Text :=
  let digits := Nat.toDigits 10 slot
  namePrefix ++ '-' :: (List.replicate (2 - digits.length) '0' ++ digits)

/-- The slot of a member of that name. -/
def slotOfName (namePrefix name : Text) : Option ℕ :=
  match (namePrefix ++ ['-']).isPrefixOf? name with
  | some digits =>
    if 2 ≤ digits.length ∧ digits.all Char.isDigit then some (decimal digits) else none
  | none => none

namespace FleetsDb

/-! ## Reading -/

/-- `KEEP_FINISHED` -/
def keepFinished : Time := 24 * 3600

/-- `FAILURES_BEFORE_PAUSE` -/
def failuresBeforePause : ℕ := 3

/-- The order in which members are read: oldest first. -/
def older (a b : DeploymentId × FleetMember) : Prop :=
  toLex (a.2.createdAt, a.2.slot) ≤ toLex (b.2.createdAt, b.2.slot)

instance : DecidableRel older := fun _ _ ↦ inferInstanceAs (Decidable (_ ≤ _))

variable (s : FleetsDb)

/-- The deployment is there and has not ended. -/
def live (d : DeploymentId) : Bool := (s.deployments.get? d).any FleetRental.live

/-- The deployment has been ready. -/
def readyOnce (d : DeploymentId) : Bool := (s.deployments.get? d).any fun r ↦ r.readyAt.isSome

/-- The deployment is there and is ready. -/
def ready (d : DeploymentId) : Bool := (s.deployments.get? d).any fun r ↦ r.state = .ready

def failedEarly (d : DeploymentId) : Bool := (s.deployments.get? d).any FleetRental.failedEarly

/-- Members not yet seen to finish, and those that finished in the last day. -/
def recent (m : FleetMember) : Bool := m.finishedAt.all fun t ↦ s.now - keepFinished < t

/-- `_member_rows` -/
def memberRows (f : FleetId) : List (DeploymentId × FleetMember) :=
  (s.members.select fun _ m ↦ m.fleetId = f && s.recent m).insertionSort older

/-- The members of a fleet that have been seen to run. -/
def ranMembers (f : FleetId) : List (DeploymentId × FleetMember) :=
  s.members.select fun _ m ↦ m.fleetId = f && m.ran

/-- `_ran_count` -/
def ranCount (f : FleetId) : ℕ := (s.ranMembers f).length

/-- `_ran_slots` -/
def ranSlots (f : FleetId) : List ℕ := (s.ranMembers f).map fun r ↦ r.2.slot

/-! ## Before members are started -/

/-- `_set_status` -/
def setStatus (f : FleetId) (reason : FleetStatus) (state : Option FleetState := none) : FleetsDb :=
  { s with fleets := s.fleets.modify f fun fleet ↦
      { fleet with statusReason := reason, state := state.getD fleet.state } }

/-- A live deployment of the owner's that is named as a member and is a member of no fleet. -/
def orphan (fleet : FleetRow) (r : DeploymentId × FleetRental) : Option (DeploymentId × ℕ × Time) :=
  if r.2.workloadId = fleet.workloadId ∧ r.2.ownerUserId = fleet.ownerUserId ∧
      fleet.createdAt ≤ r.2.createdAt ∧ r.2.live ∧ r.2.createdByKeyId = fleet.createdByKeyId ∧
      s.members.get? r.1 = none then
    (slotOfName fleet.namePrefix r.2.name).map fun slot ↦ (r.1, slot, r.2.createdAt)
  else none

/-- `_adopt_orphans` -/
def adoptOrphans (f : FleetId) (fleet : FleetRow) : FleetsDb :=
  { s with
    members := (s.deployments.rows.filterMap (s.orphan fleet)).foldl
      (fun members r ↦ members.insert r.1 ⟨f, r.2.1, r.2.2, none, false⟩) s.members }

/-- What is noted of a member. -/
def progress (d : DeploymentId) (m : FleetMember) : FleetMember :=
  { m with
    ran := m.ran || s.readyOnce d
    finishedAt := if m.finishedAt = none ∧ !s.live d then some s.now else m.finishedAt }

/-- `_record_progress`, of the members that `_member_rows` reads. -/
def recordProgress (f : FleetId) : FleetsDb :=
  { s with members := s.members.map fun d m ↦
      if m.fleetId = f && s.recent m then s.progress d m else m }

/-- The members that failed early, newest first, up to the first that did not. -/
def streak (reset : Option Time) (rows : List (DeploymentId × FleetMember)) :
    List (DeploymentId × FleetMember) :=
  rows.reverse.takeWhile fun r ↦ reset.all (· ≤ r.2.createdAt) && s.failedEarly r.1

/-- The error of the newest of them that has one. -/
def lastError (rows : List (DeploymentId × FleetMember)) : Option Text :=
  rows.findSome? fun r ↦ ((s.deployments.get? r.1).bind FleetRental.lastError).filter (· ≠ [])

/-- `terminate_deployment`, where it does not raise. -/
def terminate (d : DeploymentId) : FleetsDb :=
  { s with deployments := s.deployments.modify d fun r ↦ { r with state := .terminated } }

/-- The order in which members beyond the target are stopped: those not yet ready first, then the
highest slots. -/
def stopsBefore (a b : DeploymentId × FleetMember) : Prop :=
  toLex (s.ready a.1, OrderDual.toDual a.2.slot) ≤ toLex (s.ready b.1, OrderDual.toDual b.2.slot)

instance : DecidableRel s.stopsBefore := fun _ _ ↦ inferInstanceAs (Decidable (_ ≤ _))

/-- The live members that are too many. -/
def extras (target : ℕ) (live : List (DeploymentId × FleetMember)) : List DeploymentId :=
  ((live.insertionSort s.stopsBefore).take (live.length - target)).map Prod.fst

/-- `_stop_extras` -/
def stopExtras (target : ℕ) (live : List (DeploymentId × FleetMember))
    (unstoppable : List DeploymentId) : FleetsDb :=
  ((s.extras target live).filter fun d ↦ d ∉ unstoppable).foldl terminate s

/-! ## Starting members -/

/-- What a call of `create_deployment` comes to. The gateway may stop between the creation and the
record of the member. -/
inductive CreateAnswer where
  | created (d : DeploymentId)
  | refused (refusal : Refusal)
  | stopped (d : DeploymentId)
  deriving DecidableEq

/-- The new deployment's id. -/
def CreateAnswer.id? : CreateAnswer → Option DeploymentId
  | created d => some d
  | refused _ => none
  | stopped d => some d

/-- What a pass finds around it. `create_deployment` answers call by call; `unstoppable` are the
deployments that `terminate_deployment` fails for. -/
structure PassFinds where
  workloadExists : Bool
  keyExists : Bool
  costCents : ℤ
  committedCents : ℤ
  balanceCents : ℤ
  creates : List CreateAnswer
  unstoppable : List DeploymentId
  deriving DecidableEq

/-- The free slots start here. -/
def freeSlot (used : List ℕ) : Option ℕ :=
  (List.range' 1 (maxTarget * 4 - 1)).find? fun i ↦ i ∉ used

/-- The row of a deployment that was created for a slot. -/
def newRental (fleet : FleetRow) (slot : ℕ) : FleetRental where
  name := memberName fleet.namePrefix slot
  workloadId := fleet.workloadId
  ownerUserId := fleet.ownerUserId
  createdByKeyId := fleet.createdByKeyId
  state := .pending
  readyAt := none
  lastError := none
  createdAt := s.now

/-- `create_deployment` has created a row. -/
def createRental (d : DeploymentId) (fleet : FleetRow) (slot : ℕ) : FleetsDb :=
  { s with deployments := s.deployments.insert d (s.newRental fleet slot) }

/-- The new deployment is recorded as a member. -/
def addMember (f : FleetId) (d : DeploymentId) (slot : ℕ) : FleetsDb :=
  { s with members := s.members.insert d ⟨f, slot, s.now, none, false⟩ }

/-- How the members' start ends. -/
inductive Ending where
  | reached
  | refused (refusal : Refusal)
  | aborted
  deriving DecidableEq

/-- The loop of `_reconcile_locked` that starts members: how many it started, and how it ended. No
free slot, and no answer, are exceptions. -/
def startMembers (f : FleetId) (fleet : FleetRow) :
    ℕ → List CreateAnswer → List ℕ → FleetsDb → FleetsDb × ℕ × Ending
  | 0, _, _, s => (s, 0, .reached)
  | _ + 1, [], _, s => (s, 0, .refused (.failed []))
  | needed + 1, answer :: creates, used, s =>
    match freeSlot used with
    | none => (s, 0, .aborted)
    | some slot =>
      match answer with
      | .created d =>
        let out := startMembers f fleet needed creates (slot :: used)
          ((s.createRental d fleet slot).addMember f d slot)
        (out.1, out.2.1 + 1, out.2.2)
      | .refused refusal => (s, 0, .refused refusal)
      | .stopped d => (s.createRental d fleet slot, 0, .aborted)

/-- How many members the credit allows: an hour of everything that would then be running. -/
def affordable (finds : PassFinds) (needed : ℤ) : ℤ :=
  if 0 < finds.costCents then
    max 0 ((finds.balanceCents - finds.committedCents) / finds.costCents)
  else needed

/-- How many members the fleet lacks. -/
def needed (f : FleetId) (fleet : FleetRow) (live : List (DeploymentId × FleetMember)) : ℤ :=
  if fleet.replace then (fleet.target : ℕ) - (live.length : ℤ)
  else (fleet.target : ℕ) - (live.length : ℤ) - s.ranCount f

/-- The part of `_reconcile_locked` that starts the members a fleet lacks. -/
def startNeeded (f : FleetId) (fleet : FleetRow) (live : List (DeploymentId × FleetMember))
    (finds : PassFinds) : FleetsDb :=
  let needed := s.needed f fleet live
  let allowed := min needed (affordable finds needed)
  let credit := if affordable finds needed < needed then
    some (Waiting.credit finds.costCents finds.committedCents finds.balanceCents) else none
  let used := live.map (fun r ↦ r.2.slot) ++ if fleet.replace then [] else s.ranSlots f
  let (s, started, ending) := startMembers f fleet allowed.toNat finds.creates used s
  match ending with
  | .reached => s.setStatus f (.started (live.length + started) fleet.target credit)
  | .refused .workload => s.setStatus f .workloadGone (some .paused)
  | .refused refusal =>
    s.setStatus f (.started (live.length + started) fleet.target (some (.refused refusal)))
  | .aborted => s

/-- The part of `_reconcile_locked` after the members are read, of an active fleet. -/
def fill (f : FleetId) (fleet : FleetRow) (rows : List (DeploymentId × FleetMember))
    (finds : PassFinds) : FleetsDb :=
  let live := rows.filter fun r ↦ s.live r.1
  let streak := s.streak fleet.failuresResetAt rows
  if failuresBeforePause ≤ streak.length then
    s.setStatus f (.failing streak.length (s.lastError streak)) (some .paused)
  else if (fleet.target : ℕ) < live.length then
    (s.stopExtras fleet.target live finds.unstoppable).setStatus f
      (.stopping (live.length - fleet.target) fleet.target)
  else if s.needed f fleet live ≤ 0 then
    if !fleet.replace ∧ live = [] then s.setStatus f (.done fleet.target) (some .completed)
    else s.setStatus f (.running live.length fleet.target (live.countP fun r ↦ s.ready r.1))
  else if !finds.workloadExists then s.setStatus f .workloadDeleted (some .paused)
  else if fleet.createdByKeyId.isSome ∧ !finds.keyExists then
    s.setStatus f .keyDeleted (some .paused)
  else s.startNeeded f fleet live finds

/-- `_reconcile_locked` -/
def reconcileLocked (f : FleetId) (finds : PassFinds) : FleetsDb :=
  match s.fleets.get? f with
  | none => s
  | some fleet =>
    match fleet.state with
    | .active =>
      let s := s.adoptOrphans f fleet
      let rows := s.memberRows f
      (s.recordProgress f).fill f fleet rows finds
    | .paused =>
      let rows := s.memberRows f
      let s := s.recordProgress f
      let live := rows.filter fun r ↦ s.live r.1
      if (fleet.target : ℕ) < live.length then
        s.stopExtras fleet.target live finds.unstoppable
      else s
    | .completed | .stopped => s

/-- `reconcile` in the loop, and the first fill of `create_fleet`. -/
def reconcile (f : FleetId) (finds : PassFinds) : FleetsDb := s.reconcileLocked f finds

/-! ## What the owner asks for -/

inductive FleetError where
  | workload
  | badTarget
  | badPrefix
  | prefixTaken
  | resumeNeedsSave
  | notFound
  | stopped
  deriving DecidableEq

/-- A body of `POST /platform/fleets`. Whether the workload is there, accessible and for rent is
given with it. -/
structure FleetRequest where
  workloadFits : Bool
  ownerUserId : UserId
  createdByKeyId : Option KeyId
  workloadId : WorkloadId
  namePrefix : Text
  target : ℤ
  replace : Bool
  saveOnExhaustion : Bool
  resumeOnTopup : Bool
  deriving DecidableEq

/-- A whole number from 1 to `MAX_TARGET`. -/
def checkTarget (n : ℤ) : Except FleetError FleetTarget :=
  if h : 1 ≤ n.toNat ∧ n.toNat ≤ maxTarget then .ok ⟨n.toNat, h⟩ else .error .badTarget

/-- `_PREFIX_RE` -/
def prefixMatches : Text → Bool
  | [] => false
  | c :: cs =>
    let body := if cs.getLast? = some '\n' then cs.dropLast else cs
    c.isAlphanum && decide (body.length ≤ 43) &&
      body.all fun c ↦ c.isAlphanum || c = '.' || c = '_' || c = '-'

/-- Another fleet of the owner's has the prefix. -/
def prefixTaken (u : UserId) (namePrefix : Text) : Bool :=
  s.fleets.rows.any fun r ↦
    r.2.ownerUserId = u ∧ r.2.namePrefix = namePrefix ∧ r.2.state ≠ .stopped

/-- The row of a new fleet. -/
def newFleet (request : FleetRequest) (target : FleetTarget) : FleetRow where
  ownerUserId := request.ownerUserId
  createdByKeyId := request.createdByKeyId
  workloadId := request.workloadId
  namePrefix := request.namePrefix
  target := target
  replace := request.replace
  state := .active
  statusReason := .starting
  failuresResetAt := none
  createdAt := s.now

/-- `create_fleet` -/
def createFleet (f : FleetId) (request : FleetRequest) (finds : PassFinds) :
    Except FleetError FleetsDb :=
  if !request.workloadFits then .error .workload
  else do
    let target ← checkTarget request.target
    if !prefixMatches request.namePrefix then .error .badPrefix
    else if s.prefixTaken request.ownerUserId request.namePrefix then .error .prefixTaken
    else if request.resumeOnTopup ∧ !request.saveOnExhaustion then .error .resumeNeedsSave
    else
      let s := { s with fleets := s.fleets.insert f (s.newFleet request target) }
      .ok (s.reconcileLocked f finds)

/-- The row as `update_fleet` leaves it. -/
def updatedRow (target : Option FleetTarget) (paused : Option Bool) (fleet : FleetRow) : FleetRow :=
  let fleet := match target with
    | none => fleet
    | some target => { fleet with
        target := target
        state := if fleet.state = .completed ∧ !fleet.replace then .active else fleet.state }
  match paused with
  | some true => { fleet with state := .paused, statusReason := .pausedByYou }
  | some false =>
    if fleet.state = .paused then
      { fleet with state := .active, failuresResetAt := some s.now, statusReason := .resuming }
    else fleet
  | none => fleet

/-- `update_fleet` -/
def updateFleet (f : FleetId) (target : Option ℤ) (paused : Option Bool) (finds : PassFinds) :
    Except FleetError FleetsDb :=
  match s.fleets.get? f with
  | none => .error .notFound
  | some fleet => do
    let target ← target.mapM checkTarget
    if fleet.state = .stopped then .error .stopped
    else
      let s := { s with fleets := s.fleets.modify f (s.updatedRow target paused) }
      .ok (s.reconcileLocked f finds)

/-- `stop_fleet` -/
def stopFleet (f : FleetId) (keepRunning : Bool) (unstoppable : List DeploymentId) : FleetsDb :=
  let s := s.setStatus f (.stopped keepRunning) (some .stopped)
  if keepRunning then s
  else
    let live := (s.memberRows f).filter fun r ↦ s.live r.1
    ((live.map Prod.fst).filter fun d ↦ d ∉ unstoppable).foldl terminate s

end FleetsDb

/-! ## The system -/

/-- What happens to fleets and to the deployments they read: time passes, somebody rents, a
deployment changes its state, a workload is deleted with its deployments, an owner asks for
something, the loop passes over a fleet. -/
inductive FleetsOp where
  | advance (elapsed : Time)
  | rent (d : DeploymentId) (rental : FleetRental)
  | move (d : DeploymentId) (state : DeploymentState) (lastError : Option Text)
  | deleteWorkload (w : WorkloadId)
  | createFleet (f : FleetId) (request : FleetsDb.FleetRequest) (finds : FleetsDb.PassFinds)
  | updateFleet (f : FleetId) (target : Option ℤ) (paused : Option Bool)
      (finds : FleetsDb.PassFinds)
  | stopFleet (f : FleetId) (keepRunning : Bool) (unstoppable : List DeploymentId)
  | reconcile (f : FleetId) (finds : FleetsDb.PassFinds)
  deriving DecidableEq

namespace FleetsDb

variable (s : FleetsDb)

/-- A deployment's row in its new state: the first time it is ready is kept. -/
def moved (state : DeploymentState) (lastError : Option Text) (rental : FleetRental) :
    FleetRental :=
  { rental with
    state := state
    readyAt := if state = .ready then rental.readyAt.or (some s.now) else rental.readyAt
    lastError := lastError }

/-- The ids that a pass comes to create are new. -/
def NewIds (creates : List CreateAnswer) : Prop :=
  (creates.filterMap CreateAnswer.id?).Nodup ∧
    ∀ d ∈ creates.filterMap CreateAnswer.id?,
      s.deployments.get? d = none ∧ s.members.get? d = none

instance (creates : List CreateAnswer) : Decidable (s.NewIds creates) :=
  inferInstanceAs (Decidable (_ ∧ _))

end FleetsDb

namespace FleetsOp

open FleetsDb

/-- What an operation makes of the tables. -/
def exec : FleetsOp → FleetsDb → FleetsDb
  | advance elapsed, s => { s with now := s.now + elapsed }
  | rent d rental, s => { s with deployments := s.deployments.insert d rental }
  | move d state lastError, s =>
    { s with deployments := s.deployments.modify d (s.moved state lastError) }
  | deleteWorkload w, s =>
    { s with deployments := s.deployments.filter fun _ r ↦ r.workloadId ≠ w }
  | createFleet f request finds, s => (s.createFleet f request finds).toOption.getD s
  | updateFleet f target paused finds, s => (s.updateFleet f target paused finds).toOption.getD s
  | stopFleet f keepRunning unstoppable, s => s.stopFleet f keepRunning unstoppable
  | reconcile f finds, s => s.reconcile f finds

/-- What can happen: time does not run backwards, ids are new, a new deployment is pending, and what
has ended stays so. -/
def Possible : FleetsOp → FleetsDb → Prop
  | advance elapsed, _ => 0 ≤ elapsed
  | rent d rental, s => s.deployments.get? d = none ∧ s.members.get? d = none ∧
      rental.state = .pending ∧ rental.readyAt = none ∧ rental.createdAt = s.now
  | move d _ _, s => s.live d = true
  | deleteWorkload _, _ => True
  | createFleet f _ finds, s => s.fleets.get? f = none ∧ s.NewIds finds.creates
  | updateFleet _ _ _ finds, s => s.NewIds finds.creates
  | stopFleet _ _ _, _ => True
  | reconcile _ finds, s => s.NewIds finds.creates

instance (o : FleetsOp) (s : FleetsDb) : Decidable (o.Possible s) := by
  cases o <;> unfold Possible <;> infer_instance

end FleetsOp

end GreenCompute
