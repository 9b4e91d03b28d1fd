import GreenCompute.ControlPlane.Shifts

/-!
# The life of a deployment

What every run of calls makes of a deployment. Whose it is, what it runs and whether its disk is
kept are settled when it is created; it stays, as the deletion of workloads, which takes their
deployments along, is not among these calls. Its state goes along `ALLOWED_TRANSITIONS`, out of live
states only; a call of the operator or a sweep may besides send it back to the queue, and a cleanup
may end it, wherever it is.
-/

namespace GreenCompute

open ControlPlaneService

variable {workloads : Table WorkloadId WorkloadSpec} {c : FleetCall} {cs : List FleetCall}
  {d : DeploymentId} {now : Time} {p q : Position} {record saved : DeploymentRecord}
  {found found' : Option DeploymentRecord}

/-- What is settled when a deployment is created. -/
def DeploymentRecord.identity (record : DeploymentRecord) :
    WorkloadId × Option UserId × Bool :=
  (record.workloadId, record.ownerUserId, record.saveOnExhaustion)

theorem SameTerms.identity (h : SameTerms record saved) : saved.identity = record.identity := by
  rw [DeploymentRecord.identity, h.workloadId, h.ownerUserId, h.saveOnExhaustion,
    DeploymentRecord.identity]

/-- A move of a deployment, as one of some calls can make it: it is created, something is noted on
it, it goes along `ALLOWED_TRANSITIONS`, it goes back to the queue, or it is cleaned up. -/
inductive LifeMove (cs : List FleetCall) (d : DeploymentId) :
    Option DeploymentRecord → Option DeploymentRecord → Prop
  | created (request : DeploymentCreateRequest) (quote : ℕ) (now : Time)
      (made : .createDeployment d request ∈ cs) :
      LifeMove cs d none (some (newRecord request quote now))
  | noted (record saved : DeploymentRecord) (same : saved.identity = record.identity)
      (state : saved.state = record.state) : LifeMove cs d (some record) (some saved)
  | admitted (record saved : DeploymentRecord) (same : saved.identity = record.identity)
      (live : ¬record.Over) (allowed : saved.state ∈ record.state.allowedTransitions) :
      LifeMove cs d (some record) (some saved)
  | requeued (record saved : DeploymentRecord) (same : saved.identity = record.identity)
      (c : FleetCall) (made : c ∈ cs) (origin : c.Requeues d) (state : saved.state = .pending) :
      LifeMove cs d (some record) (some saved)
  | ended (record saved : DeploymentRecord) (same : saved.identity = record.identity)
      (reason : Text) (made : .cleanupDeployment d reason ∈ cs)
      (state : saved.state = .terminated) : LifeMove cs d (some record) (some saved)

/-- A shift is a move of the deployment, or leaves its record as it was. -/
theorem PositionShift.life (h : PositionShift workloads c d now p q) (hmem : c ∈ cs) :
    Relation.ReflGen (LifeMove cs d) p.stand.record q.stand.record := by
  cases h with
  | created request quote made missing =>
    rw [missing]
    exact .single (.created request quote now (made ▸ hmem))
  | reported q report =>
    cases report with
    | admitted update record readyAt found origin live allowed =>
      rw [found]
      rw [DeploymentState.transition] at allowed
      split at allowed
      · next hsame => exact .single (.noted _ _ rfl hsame)
      · split at allowed
        · next hallowed => exact .single (.admitted _ _ rfl live hallowed)
        · cases allowed
  | scheduled record saved workload assignment attempts granted made found waiting needs assigned
      terms state =>
    rw [found]
    refine .single (.admitted _ _ terms.identity ?_ ?_)
    · rw [DeploymentRecord.Over, waiting]
      decide
    · rw [waiting, state]
      decide
  | requeued record saved origin found same | unplaced record saved origin found same =>
    rw [found]
    exact .single (.requeued _ _ same.identity c hmem origin same.state)
  | ended record saved stand reason made found kept lease hold terms state =>
    rw [found]
    exact .single (.ended _ _ terms.identity reason (made ▸ hmem) state)
  | noted record saved found same
  | resumed record saved workload hotkey node made found suspended onHotkey onNode needs same =>
    rw [found]
    exact .single (.noted _ _ same.identity same.state)
  | released | reclaimed | stamped => exact .refl

theorem lives_afterAll (settings : Settings) (protocol : Protocol) (s : Fleet)
    {calls : List FleetCall} (hsub : calls ⊆ cs) (d : DeploymentId) :
    Relation.ReflTransGen (LifeMove cs d) (s.record d)
      (((controlPlane settings protocol).afterAll s calls).record d) := by
  induction calls generalizing s with
  | nil => exact .refl
  | cons c calls ih =>
    obtain ⟨hmem, hrest⟩ := List.cons_subset.mp hsub
    refine .trans ?_ (ih _ hrest)
    exact position_after_of_shifts (P := fun q ↦ Relation.ReflTransGen (LifeMove cs d)
        (s.record d) q.stand.record) settings protocol c
      (fun _ _ hshift h ↦ h.trans (hshift.life hmem).to_reflTransGen) .refl

/-- **The state machine.** In every run of calls a deployment is created and goes from state to
state along `ALLOWED_TRANSITIONS`, but for what operators and sweeps send back to the queue or
clean up. -/
theorem life_follows_transitions (settings : Settings) (protocol : Protocol) (s : Fleet)
    (cs : List FleetCall) (d : DeploymentId) :
    Relation.ReflTransGen (LifeMove cs d) (s.record d)
      (((controlPlane settings protocol).afterAll s cs).record d) :=
  lives_afterAll settings protocol s (List.Subset.refl cs) d

/-- A deployment that was there is there, and is whose it was. -/
def SameIdentity (found found' : Option DeploymentRecord) : Prop :=
  found = none ∨ found'.map DeploymentRecord.identity = found.map DeploymentRecord.identity

theorem LifeMove.sameIdentity {before : Option DeploymentRecord} (h : LifeMove cs d found found')
    (hbefore : SameIdentity before found) : SameIdentity before found' := by
  rcases hbefore with hnone | hsame
  · exact .inl hnone
  · cases h with
    | created => exact .inl (Option.map_eq_none_iff.mp hsame.symm)
    | noted record saved same | admitted record saved same | requeued record saved same
    | ended record saved same =>
      right
      rw [← hsame, Option.map_some, Option.map_some, same]

/-- **A deployment keeps its owner and its workload**, and whether its disk is kept, through every
run of calls. -/
theorem identity_kept (settings : Settings) (protocol : Protocol) (s : Fleet) (cs : List FleetCall)
    (d : DeploymentId) :
    SameIdentity (s.record d) (((controlPlane settings protocol).afterAll s cs).record d) := by
  have hlife := lives_afterAll settings protocol s (List.Subset.refl cs) d
  generalize ((controlPlane settings protocol).afterAll s cs).record d = found at hlife ⊢
  induction hlife with
  | refl => exact .inr rfl
  | tail _ hmove ih => exact hmove.sameIdentity ih

end GreenCompute
