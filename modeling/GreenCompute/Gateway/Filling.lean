import GreenCompute.Gateway.Members
import Mathlib.Tactic.IntervalCases

/-!
# Filling a fleet that starts its members once

A fleet that does not replace its members starts them until `target` of them have run. What it still
needs is the target less the live members less those that ran; a live member that has been ready is
in both numbers. `fills_exactly` says when a pass that finds room fills the fleet.
-/

namespace GreenCompute

namespace FleetsDb

variable {s s₀ : FleetsDb} {f : FleetId} {fleet : FleetRow} {d : DeploymentId} {finds : PassFinds}

/-! ## What has been noted -/

/-- A member that was seen to finish has ended, and it is noted whether it ran. -/
def Noted (s : FleetsDb) : Prop :=
  ∀ d m, s.members.get? d = some m → m.finishedAt.isSome = true →
    s.live d = false ∧ (s.readyOnce d = true → m.ran = true)

theorem terminate_get? (d' : DeploymentId) :
    (s.terminate d).deployments.get? d' = (s.deployments.get? d').map fun r ↦
      if d' = d then { r with state := .terminated } else r := by
  have hmodify := Table.get?_modify s.deployments d d' fun r ↦ { r with state := .terminated }
  refine hmodify.trans ?_
  by_cases hd : d' = d <;> simp [hd]

theorem live_terminate (d' : DeploymentId) :
    (s.terminate d).live d' = (s.live d' && decide (d' ≠ d)) := by
  unfold live
  rw [terminate_get?]
  cases s.deployments.get? d' with
  | none => rfl
  | some r => by_cases hd : d' = d <;> simp [hd, FleetRental.live]

theorem readyOnce_terminate (d' : DeploymentId) :
    (s.terminate d).readyOnce d' = s.readyOnce d' := by
  unfold readyOnce
  rw [terminate_get?]
  cases s.deployments.get? d' with
  | none => rfl
  | some r => by_cases hd : d' = d <;> simp [hd]

namespace Noted

theorem setStatus (reason : FleetStatus) (state : Option FleetState) (h : s.Noted) :
    (s.setStatus f reason state).Noted := h

theorem terminate (d : DeploymentId) (h : s.Noted) : (s.terminate d).Noted := by
  intro d' m hm hfinished
  obtain ⟨hlive, hran⟩ := h d' m hm hfinished
  rw [live_terminate, readyOnce_terminate, hlive]
  exact ⟨rfl, hran⟩

/-- A row is put into `deployments` under a new id. -/
theorem insertRental (hmem : s.members.get? d = none) (rental : FleetRental) (h : s.Noted) :
    Noted { s with deployments := s.deployments.insert d rental } := by
  intro d' m hm hfinished
  have hne : d' ≠ d := by
    rintro rfl
    exact nomatch hm.symm.trans hmem
  have hsame : (s.deployments.insert d rental).get? d' = s.deployments.get? d' :=
    Table.get?_insert_ne _ hne _
  unfold live readyOnce
  rw [hsame]
  exact h d' m hm hfinished

theorem addMember (d : DeploymentId) (slot : ℕ) (h : s.Noted) : (s.addMember f d slot).Noted := by
  intro d' m hm hfinished
  by_cases hd : d' = d
  · subst hd
    obtain rfl := Option.some.inj ((Table.get?_insert_self _ _ _).symm.trans hm)
    cases hfinished
  · exact h d' m ((Table.get?_insert_ne _ hd _).symm.trans hm) hfinished

theorem adoptOrphans (fleet : FleetRow) (h : s.Noted) : (s.adoptOrphans f fleet).Noted := by
  intro d m hm hfinished
  rcases adoptOrphans_get? hm with hold | ⟨-, -, hnone, -⟩
  · exact h d m hold hfinished
  · rw [hnone] at hfinished
    cases hfinished

theorem recordProgress (h : s.Noted) : (s.recordProgress f).Noted := by
  intro d m hm hfinished
  obtain ⟨m', hm', rfl⟩ := recordProgress_get? hm
  split at hfinished
  · next hrecent =>
    rw [if_pos hrecent]
    refine ⟨?_, fun hready ↦ ?_⟩
    · unfold progress at hfinished
      dsimp only at hfinished
      split at hfinished
      · next hended =>
        have hnot := hended.2
        rw [Bool.not_eq_true'] at hnot
        exact hnot
      · exact (h d m' hm' hfinished).1
    · have hready' : s.readyOnce d = true := hready
      simp [progress, hready']
  · next hrecent =>
    rw [if_neg hrecent]
    exact h d m' hm' hfinished

theorem reconcileLocked (hnew : s.NewIds finds.creates) (h : s.Noted) :
    (s.reconcileLocked f finds).Noted :=
  reconcileLocked_keeps (fun _ _ _ h ↦ h) (fun _ d h ↦ h.terminate d)
    (fun _ _ _ _ hmem h ↦ h.insertRental hmem _) (fun _ d slot h ↦ h.addMember d slot)
    (fun _ fleet h ↦ h.adoptOrphans fleet) (fun _ h ↦ h.recordProgress) hnew h

/-- Everything that can happen leaves what is noted true. -/
theorem exec {o : FleetsOp} (possible : o.Possible s) (h : s.Noted) : (o.exec s).Noted := by
  cases o with
  | advance elapsed => exact h
  | rent d rental => exact h.insertRental possible.2.1 rental
  | move d state lastError =>
    intro d' m hm hfinished
    obtain ⟨hlive, hran⟩ := h d' m hm hfinished
    have hne : d' ≠ d := by
      rintro rfl
      exact nomatch hlive.symm.trans possible
    have hsame : (s.deployments.modify d (s.moved state lastError)).get? d' =
        s.deployments.get? d' := Table.get?_modify_ne _ hne _
    unfold live at hlive ⊢
    unfold readyOnce at hran ⊢
    unfold FleetsOp.exec
    dsimp only
    rw [hsame]
    exact ⟨hlive, hran⟩
  | deleteWorkload w =>
    intro d m hm hfinished
    obtain ⟨hlive, hran⟩ := h d m hm hfinished
    have hrow := Table.get?_filter s.deployments (fun _ r ↦ r.workloadId ≠ w) d
    unfold live at hlive ⊢
    unfold readyOnce at hran ⊢
    unfold FleetsOp.exec
    dsimp only
    rw [hrow]
    cases hget : s.deployments.get? d with
    | none => exact ⟨rfl, nofun⟩
    | some r =>
      rw [hget] at hlive hran
      by_cases hw : r.workloadId = w
      · simp [hw]
      · simpa [hw] using ⟨hlive, hran⟩
  | createFleet f request finds =>
    rcases FleetsOp.exec_createFleet request with hsame | ⟨target, hfilled⟩
    · rw [hsame]
      exact h
    · rw [hfilled]
      exact reconcileLocked possible.2 h
  | updateFleet f target paused finds =>
    rcases FleetsOp.exec_updateFleet target paused with hsame | ⟨fleet, target, -, -, -, hfilled⟩
    · rw [hsame]
      exact h
    · rw [hfilled]
      exact reconcileLocked possible h
  | stopFleet f keepRunning unstoppable =>
    change (s.stopFleet f keepRunning unstoppable).Noted
    unfold FleetsDb.stopFleet
    dsimp only
    split_ifs
    · exact h.setStatus _ _
    · exact terminateAll_keeps (fun _ d h ↦ h.terminate d) _ (h.setStatus _ _)
  | reconcile f finds => exact reconcileLocked possible h

/-- What is noted is true after every run from no members. -/
theorem of_run (hs : s₀.members = .empty) (run : Steps FleetsOp.exec FleetsOp.Possible s₀ s) :
    s.Noted := by
  refine run.invariant (fun o s h possible ↦ h.exec possible) fun d m hm _ ↦ ?_
  rw [hs] at hm
  cases hm

end Noted

/-! ## The numbers of a pass -/

/-- The live members as a pass reads them. -/
def liveRows (s : FleetsDb) (f : FleetId) : List (DeploymentId × FleetMember) :=
  (s.memberRows f).filter fun r ↦ s.live r.1

/-- A member that is live is read. -/
theorem length_liveRows_of (h : ∀ d m, s.members.get? d = some m → m.fleetId = f →
    m.finishedAt.isSome = true → s.live d = false) :
    (s.liveRows f).length = s.liveMembers f := by
  have hperm := List.perm_insertionSort older
    (s.members.select fun _ m ↦ m.fleetId = f && s.recent m)
  rw [liveRows, memberRows, ← List.countP_eq_length_filter, hperm.countP_eq, Table.select,
    List.countP_filter, liveMembers, numMembers, Table.count_eq_countP]
  refine List.countP_congr fun r hr ↦ ?_
  have hget := Table.mem_rows_iff.mp hr
  rw [live_eq]
  by_cases hf : r.2.fleetId = f
  · cases hlive : isLive (s.deployments.get? r.1) with
    | false => simp
    | true =>
      -- It was never seen to finish.
      have hrecent : s.recent r.2 = true := by
        cases hfinished : r.2.finishedAt with
        | none => rw [recent, hfinished]; rfl
        | some t =>
          have hended := h r.1 r.2 hget hf (by rw [hfinished]; rfl)
          rw [live_eq, hlive] at hended
          cases hended
      rw [hrecent, Bool.true_and, Bool.and_true]
  · simp [hf]

theorem length_liveRows (h : s.Noted) (f : FleetId) : (s.liveRows f).length = s.liveMembers f :=
  length_liveRows_of fun d m hm _ hfinished ↦ (h d m hm hfinished).1

/-- What `_ran_count` counts, once progress is noted: the members that ran, the live ones among
them. -/
theorem ranCount_recordProgress (h : s.Noted) (f : FleetId) :
    (s.recordProgress f).ranCount f = s.liveRun f + s.finishedRun f := by
  rw [← numMembers_hasRun, numMembers]
  refine (Table.count_map s.members (fun d m ↦ if m.fleetId = f && s.recent m then s.progress d m
    else m) fun _ m ↦ m.fleetId = f && m.ran).trans (Table.count_congr fun d m hm ↦ ?_)
  by_cases hf : m.fleetId = f
  · cases hrecent : s.recent m with
    | true => simp [hf, progress, hasRun, readyOnce]
    | false =>
      -- A member that is not read was seen to finish.
      have hfinished : m.finishedAt.isSome = true := by
        rw [recent] at hrecent
        cases hf : m.finishedAt with
        | none => rw [hf] at hrecent; cases hrecent
        | some t => rfl
      have hran := (h d m hm hfinished).2
      unfold readyOnce at hran
      cases hm' : m.ran with
      | true => simp [hf, hasRun, hm']
      | false =>
        have hnever := Bool.eq_false_of_not_eq_true fun hready ↦ by
          cases (hran hready).symm.trans hm'
        simp [hf, hasRun, hm', hnever]
  · simp [hf]

/-! ## Members that are stopped -/

theorem terminateAll_members (ds : List DeploymentId) :
    (ds.foldl terminate s).members = s.members := by
  induction ds generalizing s with
  | nil => rfl
  | cons d ds ih => exact ih

theorem terminateAll_all (ds : List DeploymentId) :
    ((ds.foldl terminate s).numMembers f fun _ _ ↦ true) = s.numMembers f fun _ _ ↦ true := by
  unfold numMembers
  rw [terminateAll_members]

theorem terminateAll_get? (ds : List DeploymentId) (d : DeploymentId) :
    isLive ((ds.foldl terminate s).deployments.get? d) =
        (isLive (s.deployments.get? d) && decide (d ∉ ds)) ∧
      ∀ m, hasRun m ((ds.foldl terminate s).deployments.get? d) =
        hasRun m (s.deployments.get? d) := by
  induction ds generalizing s with
  | nil => simp
  | cons d' ds ih =>
    obtain ⟨hlive, hran⟩ := ih (s := s.terminate d')
    have hlive' := live_terminate (s := s) (d := d') d
    have hran' := readyOnce_terminate (s := s) (d := d') d
    simp only [live_eq] at hlive'
    unfold readyOnce at hran'
    refine ⟨?_, fun m ↦ (hran m).trans ?_⟩
    · rw [List.foldl_cons, hlive, hlive', Bool.and_assoc]
      simp [not_or]
    · unfold hasRun
      rw [hran']

/-- Stopping members leaves the members that are live or ran, if each of them ran. -/
theorem filled_terminateAll (ds : List DeploymentId) :
    (ds.foldl terminate s).filled f = s.filled f ↔
      ∀ d m, s.members.get? d = some m → m.fleetId = f → d ∈ ds → s.live d = true →
        hasRun m (s.deployments.get? d) = true := by
  rw [filled_eq, filled_eq, numMembers, numMembers, terminateAll_members]
  have hstill (d : DeploymentId) (m : FleetMember) :
      (isLive ((ds.foldl terminate s).deployments.get? d) ||
          hasRun m ((ds.foldl terminate s).deployments.get? d)) =
        (isLive (s.deployments.get? d) && decide (d ∉ ds) ||
          hasRun m (s.deployments.get? d)) := by
    rw [(terminateAll_get? ds d).1, (terminateAll_get? ds d).2]
  simp only [hstill]
  rw [Table.count_eq_count_iff fun d m _ ↦ by
    cases isLive (s.deployments.get? d) <;> simp +contextual]
  refine forall_congr' fun d ↦ forall_congr' fun m ↦ forall_congr' fun _ ↦ ?_
  rw [live_eq]
  by_cases hf : m.fleetId = f <;> cases isLive (s.deployments.get? d) <;>
    by_cases hd : d ∈ ds <;> simp [hf, hd]

theorem liveMembers_terminateAll (ds : List DeploymentId) :
    s.liveMembers f ≤ (ds.foldl terminate s).liveMembers f + ds.length := by
  induction ds generalizing s with
  | nil => exact le_rfl
  | cons d ds ih =>
    have hone : s.liveMembers f ≤ (s.terminate d).liveMembers f + 1 := by
      refine Table.count_le_count_add_one (k := d) fun d' m _ hne hlive ↦ ?_
      have hlive' := live_terminate (s := s) (d := d) d'
      rw [live_eq, live_eq, decide_eq_true hne, Bool.and_true] at hlive'
      dsimp only
      rw [hlive']
      exact hlive
    have hrest := ih (s := s.terminate d)
    rw [List.foldl_cons, List.length_cons]
    omega

/-! ## A pass -/

/-- The pass gives up: the newest members failed early, one after the other. -/
def GivesUp (s : FleetsDb) (f : FleetId) (fleet : FleetRow) : Prop :=
  failuresBeforePause ≤ (s.streak fleet.failuresResetAt (s.memberRows f)).length

instance (s : FleetsDb) (f : FleetId) (fleet : FleetRow) : Decidable (s.GivesUp f fleet) :=
  inferInstanceAs (Decidable (_ ≤ _))

/-- The members that a pass stops, being beyond the target. -/
def stopped (s : FleetsDb) (f : FleetId) (fleet : FleetRow) (finds : PassFinds) :
    List DeploymentId :=
  (s.extras fleet.target (s.liveRows f)).filter fun d ↦ d ∉ finds.unstoppable

/-- The member ran: it was seen to be ready, or its deployment says so. -/
def ran (s : FleetsDb) (d : DeploymentId) : Bool :=
  (s.members.get? d).any fun m ↦ hasRun m (s.deployments.get? d)

/-- A pass finds room for so many members. -/
structure Room (fleet : FleetRow) (finds : PassFinds) (missing : ℕ) : Prop where
  workload : finds.workloadExists = true
  key : fleet.createdByKeyId.isSome = true → finds.keyExists = true
  credit : 0 < finds.costCents →
    missing * finds.costCents ≤ finds.balanceCents - finds.committedCents
  gpus : ∀ i < missing, ∃ d, finds.creates[i]? = some (.created d)

/-- From one state to the next the fleet is filled: the members that are live or ran come to the
target, or stay what they were beyond it, by one start for each that was missing; and the fleet is
completed exactly if no member is live and as many as the target ran. -/
structure Fills (f : FleetId) (target : ℕ) (before after : FleetsDb) : Prop where
  filled : after.liveMembers f + after.finishedRun f =
    max target (before.liveMembers f + before.finishedRun f)
  started : (after.numMembers f fun _ _ ↦ true) = (before.numMembers f fun _ _ ↦ true) +
    (target - (before.liveMembers f + before.finishedRun f))
  completed : (after.fleets.get? f).map FleetRow.state = some .completed ↔
    after.liveMembers f = 0 ∧ target ≤ after.finishedRun f

theorem state_setStatus (hfleet : s.fleets.get? f = some fleet) (reason : FleetStatus)
    (state : Option FleetState) :
    ((s.setStatus f reason state).fleets.get? f).map FleetRow.state =
      some (state.getD fleet.state) := by
  unfold setStatus
  dsimp only
  rw [Table.get?_modify_self, hfleet]
  rfl

theorem startMembers_fleets (needed : ℕ) (creates : List CreateAnswer) (used : List ℕ) :
    (startMembers f fleet needed creates used s).1.fleets = s.fleets := by
  induction needed generalizing s creates used with
  | zero => rfl
  | succ needed ih =>
    cases creates with
    | nil => rfl
    | cons answer creates =>
      unfold startMembers
      cases freeSlot used with
      | none => rfl
      | some slot =>
        cases answer with
        | created d => exact ih _ _
        | refused refusal => rfl
        | stopped d => rfl

theorem terminateAll_fleets (ds : List DeploymentId) :
    (ds.foldl terminate s).fleets = s.fleets := by
  induction ds generalizing s with
  | nil => rfl
  | cons d ds ih => exact ih

section fill

variable (hnoted : s.Noted) (hfleet : s.fleets.get? f = some fleet)
  (active : fleet.state = .active) (once : fleet.replace = false)

/-- The rest of the pass, after progress is noted. -/
abbrev filling (s : FleetsDb) (f : FleetId) (fleet : FleetRow) (finds : PassFinds) : FleetsDb :=
  (s.recordProgress f).fill f fleet (s.memberRows f) finds

/-- Recording progress changes no count that a fleet is filled by. -/
theorem recordProgress_all :
    ((s.recordProgress f).numMembers f fun _ _ ↦ true) = s.numMembers f fun _ _ ↦ true :=
  recordProgress_numMembers fun _ _ ↦ rfl

include active in
/-- A status leaves the fleet filled if it was, and is not the place to complete it. -/
theorem fills_setStatus (reason : FleetStatus) {target : ℕ} {state : Option FleetState}
    (hfleet : s.fleets.get? f = some fleet) (hstate : state ≠ some .completed) :
    Fills f target s ((s.recordProgress f).setStatus f reason state) ↔
      target ≤ s.filled f ∧ 0 < s.liveMembers f := by
  have hcompleted : (((s.recordProgress f).setStatus f reason state).fleets.get? f).map
      FleetRow.state ≠ some .completed := by
    rw [state_setStatus (s := s.recordProgress f) hfleet]
    cases state with
    | none => rw [Option.getD_none, active]; decide
    | some state => exact hstate
  constructor
  · rintro ⟨hfilled, hstarted, hdone⟩
    simp only [setStatus_liveMembers, setStatus_finishedRun, recordProgress_liveMembers,
      recordProgress_finishedRun] at hfilled hdone
    have hle : target ≤ s.filled f := by unfold filled; omega
    refine ⟨hle, Nat.pos_of_ne_zero fun hzero ↦ hcompleted (hdone.mpr ⟨hzero, ?_⟩)⟩
    unfold filled at hle
    omega
  · rintro ⟨hle, hlive⟩
    unfold filled at hle
    refine ⟨?_, ?_, ?_⟩
    · simp only [setStatus_liveMembers, setStatus_finishedRun, recordProgress_liveMembers,
        recordProgress_finishedRun]
      omega
    · rw [setStatus_numMembers, recordProgress_all]
      omega
    · simp only [setStatus_liveMembers, recordProgress_liveMembers]
      exact iff_of_false hcompleted fun h ↦ by omega

/-- A stopped member is a live member of the fleet. -/
theorem mem_stopped (hd : d ∈ s.stopped f fleet finds) :
    ∃ m, s.members.get? d = some m ∧ m.fleetId = f ∧ s.live d = true := by
  have hextra := (List.mem_filter.mp hd).1
  obtain ⟨r, hr, rfl⟩ := List.mem_map.mp hextra
  have hrow := (List.mem_insertionSort _).mp (List.mem_of_mem_take hr)
  obtain ⟨hrow, hlive⟩ := List.mem_filter.mp hrow
  obtain ⟨hget, hf⟩ := Table.mem_select.mp ((List.mem_insertionSort _).mp hrow)
  rw [Bool.and_eq_true, decide_eq_true_eq] at hf
  exact ⟨r.2, hget, hf.1, hlive⟩

include hnoted hfleet active in
/-- Stopping the members beyond the target leaves the fleet filled if each of them ran. -/
theorem fills_stopping (hlive : fleet.target < s.liveMembers f) (reason : FleetStatus) :
    Fills f fleet.target s
        ((((s.stopped f fleet finds).foldl terminate (s.recordProgress f)).setStatus f reason)) ↔
      ∀ d ∈ s.stopped f fleet finds, s.ran d = true := by
  set ds := s.stopped f fleet finds with hds
  set after := ds.foldl terminate (s.recordProgress f) with hafter
  -- No fewer members than the target stay live.
  have hlen : ds.length ≤ s.liveMembers f - fleet.target := by
    rw [← length_liveRows hnoted f]
    refine (List.length_filter_le _ _).trans ?_
    rw [extras, List.length_map, List.length_take]
    exact min_le_left _ _
  have hstay : fleet.target ≤ after.liveMembers f := by
    have hle := liveMembers_terminateAll (s := s.recordProgress f) (f := f) ds
    rw [recordProgress_liveMembers, ← hafter] at hle
    omega
  have hpos : 0 < after.liveMembers f := fleet.target.2.1.trans hstay
  have hstate : ((after.setStatus f reason).fleets.get? f).map FleetRow.state = some .active := by
    have hrow : after.fleets.get? f = some fleet := by
      rw [hafter, terminateAll_fleets]
      exact hfleet
    rw [state_setStatus hrow, Option.getD_none, active]
  -- What the stops change is which members are live.
  have hfilled : after.filled f = s.filled f ↔ ∀ d ∈ ds, s.ran d = true := by
    have hsame : (s.recordProgress f).filled f = s.filled f := by
      unfold filled
      rw [recordProgress_liveMembers, recordProgress_finishedRun]
    rw [← hsame, filled_terminateAll]
    constructor
    · intro h d hd
      obtain ⟨m, hm, hf, hlive⟩ := mem_stopped hd
      have hm' : (s.recordProgress f).members.get? d =
          some (if m.fleetId = f && s.recent m then s.progress d m else m) := by
        unfold recordProgress
        rw [Table.get?_map, hm]
        rfl
      have hran := h d _ hm' (by split <;> exact hf) hd hlive
      have hran' : hasRun m (s.deployments.get? d) = true := by
        split at hran
        · rwa [← hasRun_progress]
        · exact hran
      rw [ran, hm]
      exact hran'
    · intro h d m hm hf hd hlive
      obtain ⟨m', hm', rfl⟩ := recordProgress_get? hm
      have hran := h d hd
      rw [ran, hm'] at hran
      split
      · exact (hasRun_progress d m').trans hran
      · exact hran
  rw [← hfilled]
  have hmax : max (fleet.target : ℕ) (s.liveMembers f + s.finishedRun f) = s.filled f :=
    max_eq_right (by omega)
  refine ⟨fun h ↦ h.filled.trans hmax, fun h ↦ ⟨h.trans hmax.symm, ?_, ?_⟩⟩
  · rw [setStatus_numMembers, hafter, terminateAll_all, recordProgress_all]
    omega
  · rw [hstate]
    exact iff_of_false (by decide) fun h ↦ absurd h.1 hpos.ne'

/-- The credit allows what an hour of the missing members costs. -/
theorem le_affordable {missing : ℕ} {needed : ℤ} (room : Room fleet finds missing)
    (hle : needed ≤ missing) : needed ≤ affordable finds needed := by
  unfold affordable
  split
  · next hcost =>
    refine le_max_of_le_right ((Int.le_ediv_iff_mul_le hcost).mpr ?_)
    exact (mul_le_mul_of_nonneg_right hle hcost.le).trans (room.credit hcost)
  · exact le_rfl

/-- The slots in use are those of the live members and of those that ran. -/
theorem length_used (hnoted : s.Noted) :
    ((s.liveRows f).map (fun r ↦ r.2.slot) ++ (s.recordProgress f).ranSlots f).length =
      s.liveMembers f + (s.liveRun f + s.finishedRun f) := by
  rw [List.length_append, List.length_map, length_liveRows hnoted, ← ranCount_recordProgress hnoted,
    ranSlots, List.length_map, ranCount]

include hnoted hfleet active once in
/-- Where members are needed and there is room for those that are missing, as many are started as
the pass takes to be needed. -/
theorem fills_starting (hnew : (s.recordProgress f).NewIds finds.creates)
    (room : Room fleet finds (fleet.target - s.filled f))
    (hneeded : s.filled f + s.liveRun f < fleet.target) :
    Fills f fleet.target s ((s.recordProgress f).startNeeded f fleet (s.liveRows f) finds) ↔
      s.liveRun f = 0 := by
  set missing : ℕ := fleet.target - (s.filled f + s.liveRun f) with hmissing
  have htarget : (fleet.target : ℕ) ≤ maxTarget := fleet.target.2.2
  have hneeds : (s.recordProgress f).needed f fleet (s.liveRows f) = missing := by
    rw [needed, if_neg (by rw [once]; exact Bool.false_ne_true), length_liveRows hnoted,
      ranCount_recordProgress hnoted]
    unfold filled at hmissing hneeded
    omega
  have hall : min (missing : ℤ) (affordable finds missing) = missing :=
    min_eq_left (le_affordable room (by omega))
  set used := (s.liveRows f).map (fun r ↦ r.2.slot) ++ (s.recordProgress f).ranSlots f with hused
  have hroom : used.length + missing < maxTarget * 4 := by
    rw [hused, length_used hnoted]
    unfold filled at hmissing hneeded
    unfold maxTarget at htarget ⊢
    omega
  have hout : (startMembers f fleet missing finds.creates used (s.recordProgress f)).2 =
      (missing, .reached) :=
    startMembers_of_created (fun i hi ↦ room.gpus i (by omega)) hroom
  have hafter : ∃ reason, (s.recordProgress f).startNeeded f fleet (s.liveRows f) finds =
      (startMembers f fleet missing finds.creates used (s.recordProgress f)).1.setStatus f
        reason := by
    unfold startNeeded
    simp only [hneeds, hall, Int.toNat_natCast, once, Bool.false_eq_true, if_false, ← hused, hout]
    exact ⟨_, rfl⟩
  obtain ⟨reason, hafter⟩ := hafter
  rw [hafter]
  have hcount {p : FleetMember → Option FleetRental → Bool} {b : Bool}
      (hp : ∀ slot, p ⟨f, slot, s.now, none, false⟩ (some (s.newRental fleet slot)) = b) :
      (startMembers f fleet missing finds.creates used (s.recordProgress f)).1.numMembers f p =
        (s.recordProgress f).numMembers f p + if b = true then missing else 0 := by
    have hadded := startMembers_numMembers (g := f) missing used hnew hp
    rw [hout] at hadded
    simpa using hadded
  have hlive : (startMembers f fleet missing finds.creates used (s.recordProgress f)).1.liveMembers
      f = s.liveMembers f + missing :=
    (hcount fun _ ↦ rfl).trans (congrArg (· + missing) recordProgress_liveMembers)
  have hfinished : (startMembers f fleet missing finds.creates used
      (s.recordProgress f)).1.finishedRun f = s.finishedRun f :=
    (hcount (b := false) fun _ ↦ rfl).trans recordProgress_finishedRun
  have hmembers : ((startMembers f fleet missing finds.creates used
      (s.recordProgress f)).1.numMembers f fun _ _ ↦ true) =
        (s.numMembers f fun _ _ ↦ true) + missing :=
    (hcount fun _ ↦ rfl).trans (congrArg (· + missing) recordProgress_all)
  have hstate : (((startMembers f fleet missing finds.creates used
      (s.recordProgress f)).1.setStatus f reason).fleets.get? f).map FleetRow.state =
        some .active := by
    have hrow : (startMembers f fleet missing finds.creates used
        (s.recordProgress f)).1.fleets.get? f = some fleet := by
      rw [startMembers_fleets]
      exact hfleet
    rw [state_setStatus hrow, Option.getD_none, active]
  unfold filled at hmissing hneeded
  constructor
  · intro h
    have hfilled := h.filled
    rw [setStatus_liveMembers, setStatus_finishedRun, hlive, hfinished] at hfilled
    omega
  · intro hnone
    refine ⟨?_, ?_, ?_⟩
    · rw [setStatus_liveMembers, setStatus_finishedRun, hlive, hfinished]
      omega
    · rw [setStatus_numMembers, hmembers]
      omega
    · rw [hstate, setStatus_liveMembers, hlive]
      exact iff_of_false (by decide) fun h ↦ by omega

include hnoted hfleet active once in
/-- When the rest of a pass fills the fleet. -/
theorem fills_filling (hnew : (s.recordProgress f).NewIds finds.creates)
    (room : Room fleet finds (fleet.target - s.filled f)) :
    Fills f fleet.target s (s.filling f fleet finds) ↔
      if s.GivesUp f fleet then fleet.target ≤ s.filled f ∧ 0 < s.liveMembers f
      else if fleet.target < s.liveMembers f then
        ∀ d ∈ s.stopped f fleet finds, s.ran d = true
      else fleet.target ≤ s.filled f ∨ s.liveRun f = 0 := by
  have hrows : (s.memberRows f).filter (fun r ↦ (s.recordProgress f).live r.1) = s.liveRows f := rfl
  have hlen := length_liveRows hnoted f
  have hneeds : (s.recordProgress f).needed f fleet (s.liveRows f) =
      fleet.target - ((s.filled f + s.liveRun f : ℕ) : ℤ) := by
    rw [needed, if_neg (by rw [once]; exact Bool.false_ne_true), hlen,
      ranCount_recordProgress hnoted]
    unfold filled
    push_cast
    ring
  unfold filling fill
  dsimp only
  rw [hrows, hneeds, hlen, recordProgress_streak]
  by_cases hgives : s.GivesUp f fleet
  · rw [if_pos (c := failuresBeforePause ≤ _) hgives, if_pos hgives]
    exact fills_setStatus active _ hfleet (by decide)
  · rw [if_neg (c := failuresBeforePause ≤ _) hgives, if_neg hgives]
    by_cases hextra : fleet.target < s.liveMembers f
    · rw [if_pos hextra, if_pos hextra]
      exact fills_stopping hnoted hfleet active hextra _
    · rw [if_neg hextra, if_neg hextra]
      by_cases hneeded : s.filled f + s.liveRun f < fleet.target
      · rw [if_neg (by omega), if_neg (by rw [room.workload]; decide),
          if_neg fun h ↦ by rw [room.key h.1] at h; cases h.2]
        rw [fills_starting hnoted hfleet active once hnew room hneeded]
        exact ⟨.inr, fun h ↦ h.resolve_left (by omega)⟩
      · rw [if_pos (by omega)]
        have hrun := s.liveRun_le f
        by_cases hnone : s.liveRows f = []
        · -- Nothing is live, and as many as the target ran.
          rw [if_pos ⟨by rw [once]; rfl, hnone⟩]
          rw [hnone, List.length_nil] at hlen
          unfold filled at hneeded ⊢
          refine iff_of_true ⟨?_, ?_, ?_⟩ (.inl (by omega))
          · rw [setStatus_liveMembers, setStatus_finishedRun, recordProgress_liveMembers,
              recordProgress_finishedRun]
            omega
          · rw [setStatus_numMembers, recordProgress_all]
            omega
          · rw [state_setStatus (s := s.recordProgress f) hfleet, setStatus_liveMembers,
              setStatus_finishedRun, recordProgress_liveMembers, recordProgress_finishedRun]
            exact iff_of_true rfl ⟨hlen.symm, by omega⟩
        · rw [if_neg fun h ↦ hnone h.2, fills_setStatus active _ hfleet (by decide)]
          have hpos : 0 < s.liveMembers f := by
            rw [← hlen]
            exact List.length_pos_iff.mpr hnone
          constructor
          · exact fun h ↦ .inl h.1
          · rintro (hle | hzero)
            · exact ⟨hle, hpos⟩
            · exact ⟨by omega, hpos⟩

end fill

/-- **A fleet fills.** In every run, a pass over an active fleet that starts its members once, and
that finds room for the members that neither run nor ran, fills the fleet exactly if no live member
has been ready or nothing is missing; a pass that gives up, and one that stops members, are apart.
The members that the pass adopts are counted before it. -/
theorem fills_exactly (unstarted : s₀.members = .empty)
    (run : Steps FleetsOp.exec FleetsOp.Possible s₀ s) (hfleet : s.fleets.get? f = some fleet)
    (active : fleet.state = .active) (once : fleet.replace = false)
    (possible : (FleetsOp.reconcile f finds).Possible s)
    (room : Room fleet finds (fleet.target - (s.adoptOrphans f fleet).filled f)) :
    let before := s.adoptOrphans f fleet
    Fills f fleet.target before ((FleetsOp.reconcile f finds).exec s) ↔
      if before.GivesUp f fleet then
        fleet.target ≤ before.filled f ∧ 0 < before.liveMembers f
      else if fleet.target < before.liveMembers f then
        ∀ d ∈ before.stopped f fleet finds, before.ran d = true
      else fleet.target ≤ before.filled f ∨ before.liveRun f = 0 := by
  intro before
  have hpass : (FleetsOp.reconcile f finds).exec s = before.filling f fleet finds := by
    change s.reconcileLocked f finds = _
    unfold reconcileLocked
    simp only [hfleet, active]
    rfl
  rw [hpass]
  have hnoted : before.Noted := (Noted.of_run unstarted run).adoptOrphans fleet
  have hnew : s.NewIds finds.creates := possible
  exact fills_filling hnoted hfleet active once hnew.adoptOrphans.recordProgress room

/-- A fleet that starts its members once. -/
private def startOnce (target : ℤ) : FleetRequest where
  workloadFits := true
  ownerUserId := 1
  createdByKeyId := none
  workloadId := "w".toList
  namePrefix := "rig".toList
  target := target
  replace := false
  saveOnExhaustion := false
  resumeOnTopup := false

/-- A pass with credit for everything. -/
private def findsRoom (creates : List CreateAnswer) : PassFinds where
  workloadExists := true
  keyExists := true
  costCents := 40
  committedCents := 0
  balanceCents := 10000
  creates := creates
  unstoppable := []

private def noFleets : FleetsDb := ⟨0, .empty, .empty, .empty⟩

/-- Two members are started where there are GPUs for no more, and `state` comes of the first. -/
private def twoStarted (target : ℤ) (state : DeploymentState) : FleetsDb :=
  Steps.replay FleetsOp.exec noFleets
    [.createFleet 1 (startOnce target)
        (findsRoom [.created 1, .created 2, .refused (.noCapacity "full".toList)]),
      .advance 30, .move 1 state none]

private theorem twoStarted_run (target : ℤ) (state : DeploymentState)
    (admits : Steps.admits FleetsOp.exec FleetsOp.Possible noFleets
      [.createFleet 1 (startOnce target)
          (findsRoom [.created 1, .created 2, .refused (.noCapacity "full".toList)]),
        .advance 30, .move 1 state none] = true) :
    Steps FleetsOp.exec FleetsOp.Possible noFleets (twoStarted target state) :=
  Steps.of_admits FleetsOp.exec FleetsOp.Possible noFleets _ admits

/-- The fleet that waits for a third GPU. -/
private def waitingFleet : FleetRow where
  ownerUserId := 1
  createdByKeyId := none
  workloadId := "w".toList
  namePrefix := "rig".toList
  target := ⟨3, by decide⟩
  replace := false
  state := .active
  statusReason := .started 2 3 (some (.refused (.noCapacity "full".toList)))
  failuresResetAt := none
  createdAt := 0

private theorem waitingFleet_room {state : DeploymentState} {creates : List CreateAnswer} {n : ℕ}
    (hmissing : 3 - ((twoStarted 3 state).adoptOrphans 1 waitingFleet).filled 1 = n)
    (hcreates : ∀ i < n, ∃ d, creates[i]? = some (.created d)) (hn : n * 40 ≤ 10000) :
    Room waitingFleet (findsRoom creates)
      (waitingFleet.target - ((twoStarted 3 state).adoptOrphans 1 waitingFleet).filled 1) where
  workload := rfl
  key := nofun
  credit _ := by
    change ((3 - _ : ℕ) : ℤ) * 40 ≤ 10000 - 0
    rw [hmissing]
    omega
  gpus i hi := hcreates i (hmissing ▸ hi)

/-- The first member fails, GPUs are free again, and two members are started. -/
theorem fills_exactly_again :
    Fills 1 3 ((twoStarted 3 .failed).adoptOrphans 1 waitingFleet)
      ((FleetsOp.reconcile 1 (findsRoom [.created 3, .created 4])).exec (twoStarted 3 .failed)) :=
  have admits := twoStarted_run 3 .failed (by decide +kernel)
  have hcreates : ∀ i < 2, ∃ d, [CreateAnswer.created 3, .created 4][i]? = some (.created d) := by
    intro i hi
    interval_cases i
    · exact ⟨3, rfl⟩
    · exact ⟨4, rfl⟩
  have hfleet : (twoStarted 3 .failed).fleets.get? 1 = some waitingFleet := by decide +kernel
  (fills_exactly rfl admits hfleet rfl rfl (by decide +kernel)
    (waitingFleet_room (n := 2) (by decide +kernel) hcreates (by decide))).mpr (by decide +kernel)

/-- The first member is ready and the third is never started. -/
theorem ready_member_counted_twice :
    ¬∀ (s₀ s : FleetsDb) (f : FleetId) (fleet : FleetRow) (finds : PassFinds),
      s₀.members = .empty → Steps FleetsOp.exec FleetsOp.Possible s₀ s →
      s.fleets.get? f = some fleet → fleet.state = .active → fleet.replace = false →
      (FleetsOp.reconcile f finds).Possible s →
      Room fleet finds (fleet.target - (s.adoptOrphans f fleet).filled f) →
      Fills f fleet.target (s.adoptOrphans f fleet) ((FleetsOp.reconcile f finds).exec s) := by
  intro h
  have admits := twoStarted_run 3 .ready (by decide +kernel)
  have hcreates : ∀ i < 1, ∃ d, [CreateAnswer.created 3][i]? = some (.created d) := by
    intro i hi
    interval_cases i
    exact ⟨3, rfl⟩
  have hfills := h noFleets (twoStarted 3 .ready) 1 waitingFleet (findsRoom [.created 3]) rfl admits
    (by decide +kernel) rfl rfl (by decide +kernel)
    (waitingFleet_room (n := 1) (by decide +kernel) hcreates (by decide))
  exact absurd hfills.filled (by decide +kernel)

end FleetsDb

end GreenCompute
