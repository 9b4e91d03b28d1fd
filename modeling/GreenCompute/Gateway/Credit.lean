import GreenCompute.ControlPlane.Tables
import GreenCompute.Foundations.Steps
import GreenCompute.Foundations.Table
import Mathlib.Data.List.Sort

/-!
# What starts rentals on its own

A pass over the fleets starts the members that are missing, a request to create or change a fleet
does the same for that fleet, and the auto-resume sweep brings back what stopped for want of credit.
Each of them reads, once, what every account is committed to by the hour, state by state, and from
then on adds what it starts itself. Before it starts anything it reads the owner's balance and wants
it to cover an hour of all that.
-/

namespace GreenCompute

abbrev StarterId := ℕ

/-! ## What an account is committed to -/

/-- What the credit checks read of a deployment, its workload, its lease and its machine. -/
structure CreditRental where
  ownerUserId : Option UserId
  state : DeploymentState
  leased : Bool
  catalog : Bool
  silent : Bool
  gpuCount : ℕ
  hourlyRateCents : ℕ
  readyInstances : ℤ
  resumeOnTopup : Bool
  suspendedReason : Option Text
  suspendedAt : Time
  deriving DecidableEq

/-- `_COMMITTED_STATES` -/
def creditStates : List DeploymentState := [.ready, .pulling, .starting, .scheduled, .pending]

namespace CreditRental

variable (r : CreditRental)

/-- `hourly_charge_cents` -/
def hourlyChargeCents : Option ℕ :=
  if r.ownerUserId = none ∨ r.catalog then none
  else if r.silent then some 0
  else
    let rate := if r.hourlyRateCents = 0 then 10 else r.hourlyRateCents
    some (rate * max r.gpuCount 1 * (max r.readyInstances 1).toNat)

/-- It runs, is starting, waits to be placed, or is being resumed. -/
def committed : Bool := r.state ∈ creditStates ∨ r.state = .suspended ∧ r.leased

/-- What it commits its owner to by the hour. -/
def committedCents : ℕ := if r.committed then r.hourlyChargeCents.getD 0 else 0

/-- What it will cost once it is up. -/
def resumeCostCents : ℕ := { r with readyInstances := 1 : CreditRental }.hourlyChargeCents.getD 0

/-- It is one that `auto_resume_once` brings back. -/
def flagged : Bool :=
  r.state = .suspended ∧ r.ownerUserId.isSome ∧ r.resumeOnTopup ∧
    r.suspendedReason = some "balance".toList

end CreditRental

/-! ## Starters -/

/-- What a starter has read of the committed costs: the leases of deployments that are being
resumed, the states that it has yet to read, what each owner is committed to so far, with what the
starter has started since, and the suspended deployments whose resume is under way. Not in the
source are the accounts of which something has changed since that the starter does not count. -/
structure CreditReading where
  leases : List DeploymentId
  left : List DeploymentState
  committed : UserId → ℕ
  resuming : List DeploymentId
  stale : List UserId

/-- Where a starter is. -/
inductive StarterStage where
  | between
  | pricing (owner : UserId) (costCents needed : ℕ)
  | starting (owner : UserId) (costCents left : ℕ) (balanceCents : ℤ)
  | listed (flagged : List (DeploymentId × CreditRental))
  | sweeping (candidates : List (DeploymentId × CreditRental))
  | resuming (d : DeploymentId) (owner : UserId) (costCents : ℕ) (balanceCents : ℤ)
      (candidates : List (DeploymentId × CreditRental))

namespace StarterStage

/-- For whom the next member is started, and what it is taken to cost. -/
def member : StarterStage → Option (UserId × ℕ)
  | starting owner costCents (_ + 1) _ => some (owner, costCents)
  | _ => none

/-- The deployment that is resumed next, for whom, and what it is taken to cost. -/
def candidate : StarterStage → Option (DeploymentId × UserId × ℕ)
  | resuming d owner costCents _ _ => some (d, owner, costCents)
  | _ => none

end StarterStage

/-- A pass over the fleets, a request about one, or a sweep. -/
structure Starter where
  reading : Option CreditReading
  stage : StarterStage

/-- Something was started: for whom, what the balance was that had been read, and what the account
was committed to thereafter. -/
structure StartedRental where
  owner : UserId
  balanceCents : ℤ
  committedCents : ℕ
  deriving DecidableEq

structure CreditDb where
  rentals : Table DeploymentId CreditRental
  balances : UserId → ℤ
  starters : Table StarterId Starter
  log : List StartedRental

namespace CreditReading

/-- The first query of `_committed_by_owner`: the leases. -/
def ofLeases (rentals : Table DeploymentId CreditRental) : CreditReading where
  leases := (rentals.select fun _ r ↦ r.leased).map Prod.fst
  left := creditStates ++ [.suspended]
  committed _ := 0
  resuming := []
  stale := []

/-- A deployment of a state counts; a suspended one does if its lease was among those read. -/
def counts (reading : CreditReading) (state : DeploymentState) (d : DeploymentId)
    (r : CreditRental) : Bool :=
  r.ownerUserId.isSome ∧ r.state = state ∧ (state = .suspended → d ∈ reading.leases)

/-- The deployments of the next state are listed and their charges added. -/
def readState (reading : CreditReading) (rentals : Table DeploymentId CreditRental) :
    CreditReading :=
  match reading.left with
  | [] => reading
  | state :: left =>
    { reading with
      left := left
      committed := fun userId ↦ reading.committed userId + rentals.total fun d r ↦
        if r.ownerUserId = some userId ∧ reading.counts state d r then r.hourlyChargeCents.getD 0
        else 0
      resuming := if state = .suspended then
          (rentals.select fun d r ↦ reading.counts state d r).map Prod.fst
        else reading.resuming }

/-- `committed[owner] += cents` -/
def add (reading : CreditReading) (owner : UserId) (cents : ℕ) : CreditReading :=
  let cents := reading.committed owner + cents
  { reading with committed := Function.update reading.committed owner cents }

/-- A deployment has changed. The owner's figure is out of date if the deployment costs more than
before, or if it moves while the states are being read. -/
def notice (reading : CreditReading) (old : Option CreditRental) (new : CreditRental) :
    CreditReading :=
  if (old.elim 0 CreditRental.committedCents < new.committedCents) ∨
      (reading.left ≠ [] ∧
        old.map (fun r ↦ (r.state, r.leased)) ≠ some (new.state, new.leased)) then
    { reading with stale := new.ownerUserId.toList ++ reading.stale }
  else reading

end CreditReading

/-- What a starter has read may be out of date. -/
def Starter.notice (starter : Starter) (old : Option CreditRental) (new : CreditRental) : Starter :=
  { starter with reading := starter.reading.map fun reading ↦ reading.notice old new }

/-- How many members the credit allows, of those that a fleet lacks. -/
def affordableMembers (balanceCents : ℤ) (committedCents costCents needed : ℕ) : ℕ :=
  if 0 < costCents then min needed (max 0 ((balanceCents - committedCents) / costCents)).toNat
  else needed

namespace CreditDb

variable (s : CreditDb)

/-- What an account is committed to by the hour. -/
def committedCents (userId : UserId) : ℕ :=
  s.rentals.total fun _ r ↦ if r.ownerUserId = some userId then r.committedCents else 0

/-- A deployment is as it is given, and every starter that counts, other than one, may have missed
it. -/
def setRental (d : DeploymentId) (r : CreditRental) (except : Option StarterId) : CreditDb :=
  { s with
    rentals := s.rentals.insert d r
    starters := s.starters.map fun a starter ↦
      if some a = except then starter else starter.notice (s.rentals.get? d) r }

/-- Where a starter goes on. -/
def setStage (a : StarterId) (stage : StarterStage) : CreditDb :=
  { s with starters := s.starters.modify a fun starter ↦ { starter with stage := stage } }

def setReading (a : StarterId) (reading : CreditReading) : CreditDb :=
  { s with starters := s.starters.modify a fun starter ↦ { starter with reading := some reading } }

/-- A starter has started something for an account, out of a balance it has read. -/
def note (owner : UserId) (balanceCents : ℤ) : CreditDb :=
  { s with log := s.log ++ [⟨owner, balanceCents, s.committedCents owner⟩] }

/-- The starter has `d` started, as `r`. Where what it records of that fails, it does not count
it. -/
def starts (a : StarterId) (reading : CreditReading) (d : DeploymentId) (r : CreditRental)
    (owner : UserId) (costCents : ℕ) (balanceCents : ℤ) (recorded : Bool) : CreditDb :=
  if recorded then
    ((s.setRental d r (some a)).setReading a (reading.add owner costCents)).note owner balanceCents
  else (s.setRental d r none).note owner balanceCents

/-- A new deployment. -/
def newMember (owner : UserId) (gpuCount hourlyRateCents : ℕ) : CreditRental where
  ownerUserId := some owner
  state := .pending
  leased := false
  catalog := false
  silent := false
  gpuCount := gpuCount
  hourlyRateCents := hourlyRateCents
  readyInstances := 0
  resumeOnTopup := false
  suspendedReason := none
  suspendedAt := 0

/-- The longest suspended first. -/
def byAge (candidates : List (DeploymentId × CreditRental)) : List (DeploymentId × CreditRental) :=
  candidates.insertionSort fun a b ↦ a.2.suspendedAt ≤ b.2.suspendedAt

/-- A candidate as the sweep listed it, with its machine as it is now. -/
def asListed (d : DeploymentId) (listed : CreditRental) : CreditRental :=
  { listed with silent := (s.rentals.get? d).elim listed.silent CreditRental.silent }

end CreditDb

/-- The steps of the starters, and what happens around them. -/
inductive CreditOp where
  | rental (d : DeploymentId) (r : CreditRental)
  | balance (userId : UserId) (cents : ℤ)
  | beginPass (a : StarterId)
  | reconcile (a : StarterId) (owner : UserId) (costCents needed : ℕ)
  | readLeases (a : StarterId)
  | readState (a : StarterId)
  | afford (a : StarterId)
  | start (a : StarterId) (d : DeploymentId) (gpuCount hourlyRateCents : ℕ) (recorded : Bool)
  | stop (a : StarterId)
  | beginSweep (a : StarterId)
  | choose (a : StarterId)
  | consider (a : StarterId)
  | resume (a : StarterId) (recorded : Bool)
  | refuse (a : StarterId)
  | finish (a : StarterId)

namespace CreditOp

open CreditDb

def exec : CreditOp → CreditDb → CreditDb
  | rental d r, s => s.setRental d r none
  | balance userId cents, s => { s with balances := Function.update s.balances userId cents }
  -- `_Pass`
  | beginPass a, s => { s with starters := s.starters.insert a ⟨none, .between⟩ }
  -- `_reconcile_locked` comes to the credit of a fleet's owner.
  | reconcile a owner costCents needed, s =>
    match s.starters.get? a with
    | some ⟨_, .between⟩ => s.setStage a (.pricing owner costCents needed)
    | _ => s
  | readLeases a, s =>
    match s.starters.get? a with
    | some ⟨none, .pricing _ _ _⟩ => s.setReading a (.ofLeases s.rentals)
    | some ⟨none, .listed _⟩ => s.setReading a (.ofLeases s.rentals)
    | _ => s
  | readState a, s =>
    match s.starters.get? a with
    | some ⟨some reading, _⟩ => s.setReading a (reading.readState s.rentals)
    | _ => s
  | afford a, s =>
    match s.starters.get? a with
    | some ⟨some reading, .pricing owner costCents needed⟩ =>
      if reading.left = [] then
        let balanceCents := s.balances owner
        let left := affordableMembers balanceCents (reading.committed owner) costCents needed
        s.setStage a (.starting owner costCents left balanceCents)
      else s
    | _ => s
  | start a d gpuCount hourlyRateCents recorded, s =>
    match s.starters.get? a with
    | some ⟨some reading, .starting owner costCents (left + 1) balanceCents⟩ =>
      (s.starts a reading d (newMember owner gpuCount hourlyRateCents) owner costCents balanceCents
        recorded).setStage a (if recorded then .starting owner costCents left balanceCents
          else .between)
    | _ => s
  -- All members are started, one is refused, or an exception ends the reconcile.
  | stop a, s =>
    match s.starters.get? a with
    | some ⟨_, .starting _ _ _ _⟩ => s.setStage a .between
    | some ⟨reading, .pricing _ _ _⟩ =>
      let starter : Starter := ⟨reading.filter fun reading ↦ reading.left = [], .between⟩
      { s with starters := s.starters.insert a starter }
    | _ => s
  -- `auto_resume_once`
  | beginSweep a, s =>
    let flagged := s.rentals.select fun _ r ↦ r.flagged
    { s with starters := s.starters.insert a ⟨none, .listed flagged⟩ }
  | choose a, s =>
    match s.starters.get? a with
    | some ⟨some reading, .listed flagged⟩ =>
      if reading.left = [] then
        s.setStage a (.sweeping (byAge (flagged.filter fun r ↦ r.1 ∉ reading.resuming)))
      else s
    | _ => s
  | consider a, s =>
    match s.starters.get? a with
    | some ⟨some reading, .sweeping ((d, listed) :: candidates)⟩ =>
      match listed.ownerUserId with
      | none => s.setStage a (.sweeping candidates)
      | some owner =>
        let costCents := (s.asListed d listed).resumeCostCents
        let balanceCents := s.balances owner
        if balanceCents < reading.committed owner + costCents then
          s.setStage a (.sweeping candidates)
        else s.setStage a (.resuming d owner costCents balanceCents candidates)
    | _ => s
  | resume a recorded, s =>
    match s.starters.get? a with
    | some ⟨some reading, .resuming d owner costCents balanceCents candidates⟩ =>
      match s.rentals.get? d with
      | some r =>
        (s.starts a reading d { r with leased := true } owner costCents balanceCents
          recorded).setStage a (.sweeping candidates)
      | none => s
    | _ => s
  | refuse a, s =>
    match s.starters.get? a with
    | some ⟨_, .resuming _ _ _ _ candidates⟩ => s.setStage a (.sweeping candidates)
    | _ => s
  | finish a, s => { s with starters := s.starters.filter fun a' _ ↦ a' ≠ a }

/-- What can happen. Nothing else starts a rental; a deployment keeps its owner; no member is free
of charge. A new member has an id of its own and passes the check of `create_deployment`, and what
is resumed is the owner's, is suspended, and passes the check of `resume_deployment`. -/
def Possible : CreditOp → CreditDb → Prop
  | rental d r, s => ∃ old ∈ s.rentals.get? d, old.ownerUserId = r.ownerUserId ∧
      (r.committed → old.committed)
  | beginPass a, s => s.starters.get? a = none
  | reconcile _ _ costCents _, _ => 0 < costCents
  | start a d gpuCount hourlyRateCents _, s => s.rentals.get? d = none ∧
      ∀ starter ∈ s.starters.get? a, ∀ next ∈ starter.stage.member,
        ((hourlyRateCents * max gpuCount 1 : ℕ) : ℤ) ≤ s.balances next.1
  | beginSweep a, s => s.starters.get? a = none
  | resume a _, s => ∀ starter ∈ s.starters.get? a, ∀ next ∈ starter.stage.candidate,
      ∃ r ∈ s.rentals.get? next.1, r.ownerUserId = some next.2.1 ∧ r.state = .suspended ∧
        ((r.hourlyRateCents * max r.gpuCount 1 : ℕ) : ℤ) ≤ s.balances next.2.1
  | _, _ => True

/-- The starter counts all there is of the account, and what it is about to start costs no more than
it reckons with. -/
def UpToDate (reading : CreditReading) (owner : UserId) (r : CreditRental) (costCents : ℕ) : Prop :=
  owner ∉ reading.stale ∧ r.committedCents ≤ costCents

instance (reading : CreditReading) (owner : UserId) (r : CreditRental) (costCents : ℕ) :
    Decidable (UpToDate reading owner r costCents) := inferInstanceAs (Decidable (_ ∧ _))

/-- Between a starter's reading and its start nothing of the account is started by another, becomes
dearer, or moves while the reading goes on, and the rental has not become dearer either. -/
def Undisturbed : CreditOp → CreditDb → Prop
  | start a _ gpuCount hourlyRateCents _, s => ∀ starter ∈ s.starters.get? a,
      ∀ reading ∈ starter.reading, ∀ next ∈ starter.stage.member,
        UpToDate reading next.1 (newMember next.1 gpuCount hourlyRateCents) next.2
  | resume a _, s => ∀ starter ∈ s.starters.get? a, ∀ reading ∈ starter.reading,
      ∀ next ∈ starter.stage.candidate, ∀ r ∈ s.rentals.get? next.1,
        UpToDate reading next.2.1 { r with leased := true } next.2.2
  | _, _ => True

instance (o : CreditOp) (s : CreditDb) : Decidable (o.Possible s) := by
  cases o <;> unfold Possible <;> infer_instance

instance (o : CreditOp) (s : CreditDb) : Decidable (o.Undisturbed s) := by
  cases o <;> unfold Undisturbed <;> infer_instance

end CreditOp

end GreenCompute
