import GreenCompute.Gateway.Filling

/-!
# Giving up on a fleet

Three members in a row that failed before they were ever ready pause their fleet. A pass reads the
streak off the members it loads, newest first, and stops at the first that has not failed: a member
that is still starting hides the failures of those before it, and a failure of more than a day ago
is not loaded. `starts_bounded` is about the runs in which no failure is hidden.
-/

namespace GreenCompute

namespace FleetsDb

variable {s s₀ s' : FleetsDb} {f g : FleetId} {fleet : FleetRow} {d : DeploymentId}
  {finds : PassFinds}

/-! ## Since the owner resumed the fleet -/

/-- The member was started since the owner last resumed the fleet. -/
def sinceResume (reset : Option Time) (m : FleetMember) : Bool := reset.all (· ≤ m.createdAt)

/-- How many members were started since the owner last resumed the fleet. -/
def startedSince (s : FleetsDb) (f : FleetId) (reset : Option Time) : ℕ :=
  s.numMembers f fun m _ ↦ sinceResume reset m

/-- How many of them have failed. -/
def failedSince (s : FleetsDb) (f : FleetId) (reset : Option Time) : ℕ :=
  s.numMembers f fun m r ↦ sinceResume reset m && !isLive r

/-- The failures since the owner resumed the fleet are loaded, and newer than the members that are
live. -/
def FailuresSeen (s : FleetsDb) (f : FleetId) (reset : Option Time) : Prop :=
  ∀ r ∈ s.members.rows, r.2.fleetId = f → sinceResume reset r.2 = true → s.live r.1 = false →
    s.recent r.2 = true ∧ ∀ r' ∈ s.members.rows, r'.2.fleetId = f →
      sinceResume reset r'.2 = true → s.live r'.1 = true → ¬older r r'

/-- A pass over the fleet has nothing to start, or no failure is hidden from it. -/
def PassSees (s : FleetsDb) (f : FleetId) : Prop :=
  ∀ fleet ∈ s.fleets.get? f, fleet.state = .active →
    fleet.target ≤ s.liveMembers f ∨ s.FailuresSeen f fleet.failuresResetAt

instance (s : FleetsDb) (f : FleetId) (reset : Option Time) : Decidable (s.FailuresSeen f reset) :=
  inferInstanceAs (Decidable (∀ r ∈ s.members.rows, _))

instance (s : FleetsDb) (f : FleetId) : Decidable (s.PassSees f) :=
  inferInstanceAs (Decidable (∀ fleet ∈ s.fleets.get? f, _))

/-! ## Runs in which no member becomes ready -/

/-- No deployment has ever been ready or was stopped, and the members are all of them. -/
structure NeverReady (s : FleetsDb) : Prop where
  rental : ∀ d r, s.deployments.get? d = some r →
    r.readyAt = none ∧ r.state ≠ .terminated ∧ (s.members.get? d).isSome = true
  member : ∀ d m, s.members.get? d = some m →
    (s.deployments.get? d).isSome = true ∧ (s.fleets.get? m.fleetId).isSome = true

theorem NeverReady.failedEarly (h : s.NeverReady) {m : FleetMember}
    (hm : s.members.get? d = some m) : s.failedEarly d = !s.live d := by
  obtain ⟨r, hr⟩ := Option.isSome_iff_exists.mp (h.member d m hm).1
  obtain ⟨hready, hstate, -⟩ := h.rental d r hr
  simp [FleetsDb.failedEarly, live, hr, FleetRental.failedEarly, FleetRental.live, hready, hstate]

/-- Nothing is left to adopt. -/
theorem NeverReady.adoptOrphans (h : s.NeverReady) : s.adoptOrphans f fleet = s := by
  have hnone : s.deployments.rows.filterMap (s.orphan fleet) = [] := by
    refine List.filterMap_eq_nil_iff.mpr fun r hr ↦ if_neg fun hall ↦ ?_
    have hmember := (h.rental r.1 r.2 (Table.mem_rows_iff.mp hr)).2.2
    rw [hall.2.2.2.2.2] at hmember
    cases hmember
  unfold FleetsDb.adoptOrphans
  rw [hnone]
  rfl

theorem NeverReady.recordProgress (h : s.NeverReady) : (s.recordProgress f).NeverReady where
  rental d r hr := by
    obtain ⟨hready, hstate, hmember⟩ := h.rental d r hr
    refine ⟨hready, hstate, ?_⟩
    unfold FleetsDb.recordProgress
    rw [Table.get?_map, Option.isSome_map]
    exact hmember
  member d m hm := by
    obtain ⟨m', hm', rfl⟩ := recordProgress_get? hm
    obtain ⟨hdep, hfleet⟩ := h.member d m' hm'
    refine ⟨hdep, ?_⟩
    split <;> exact hfleet

theorem NeverReady.setStatus (h : s.NeverReady) (reason : FleetStatus)
    (state : Option FleetState) : (s.setStatus f reason state).NeverReady where
  rental := h.rental
  member d m hm := by
    refine ⟨(h.member d m hm).1, ?_⟩
    unfold FleetsDb.setStatus
    dsimp only
    rw [Table.get?_modify]
    split
    · rw [Option.isSome_map]
      exact (h.member d m hm).2
    · exact (h.member d m hm).2

theorem NeverReady.start (h : s.NeverReady) (hfleet : (s.fleets.get? f).isSome = true)
    (d : DeploymentId) (slot : ℕ) : ((s.createRental d fleet slot).addMember f d slot).NeverReady where
  rental d' r hr := by
    by_cases hd : d' = d
    · subst hd
      obtain rfl := Option.some.inj ((Table.get?_insert_self _ _ _).symm.trans hr)
      refine ⟨rfl, nofun, ?_⟩
      exact Option.isSome_iff_exists.mpr ⟨_, Table.get?_insert_self _ _ _⟩
    · obtain ⟨hready, hstate, hmember⟩ :=
        h.rental d' r ((Table.get?_insert_ne _ hd _).symm.trans hr)
      refine ⟨hready, hstate, ?_⟩
      unfold addMember
      rw [Table.get?_insert_ne _ hd]
      exact hmember
  member d' m hm := by
    by_cases hd : d' = d
    · subst hd
      obtain rfl := Option.some.inj ((Table.get?_insert_self _ _ _).symm.trans hm)
      exact ⟨Option.isSome_iff_exists.mpr ⟨_, Table.get?_insert_self _ _ _⟩, hfleet⟩
    · obtain ⟨hdep, hrow⟩ := h.member d' m ((Table.get?_insert_ne _ hd _).symm.trans hm)
      refine ⟨?_, hrow⟩
      have hsame : (s.deployments.insert d (s.newRental fleet slot)).get? d' =
          s.deployments.get? d' := Table.get?_insert_ne _ hd _
      unfold addMember createRental
      dsimp only
      rw [hsame]
      exact hdep

/-! ## The streak -/

instance : IsTrans (DeploymentId × FleetMember) older := ⟨fun _ _ _ h h' ↦ le_trans h h'⟩

instance : Std.Total (α := DeploymentId × FleetMember) older := ⟨fun _ _ ↦ le_total _ _⟩

theorem createdAt_le_of_older {a b : DeploymentId × FleetMember} (h : older a b) :
    a.2.createdAt ≤ b.2.createdAt := by
  rcases Prod.Lex.le_iff.mp h with hlt | ⟨heq, -⟩
  · exact le_of_lt hlt
  · exact le_of_eq heq

/-- Where no failure is hidden, the streak is all of them. -/
theorem length_streak (h : s.NeverReady) {reset : Option Time} (seen : s.FailuresSeen f reset) :
    (s.streak reset (s.memberRows f)).length = s.failedSince f reset := by
  have hrow {r : DeploymentId × FleetMember} (hr : r ∈ s.memberRows f) :
      r ∈ s.members.rows ∧ r.2.fleetId = f := by
    obtain ⟨hget, hf⟩ := Table.mem_select.mp ((List.mem_insertionSort _).mp hr)
    rw [Bool.and_eq_true, decide_eq_true_eq] at hf
    exact ⟨Table.mem_rows_iff.mpr hget, hf.1⟩
  have hfailed {r : DeploymentId × FleetMember} (hr : r ∈ s.members.rows) :
      s.failedEarly r.1 = !s.live r.1 := h.failedEarly (Table.mem_rows_iff.mp hr)
  have hsorted : (s.memberRows f).Pairwise older := List.pairwise_insertionSort older _
  -- What failed comes after what is live, and what was started before the resume.
  have hend := hsorted.imp_of_mem (S := fun a b ↦
      (reset.all (· ≤ a.2.createdAt) && s.failedEarly a.1) = true →
        (reset.all (· ≤ b.2.createdAt) && s.failedEarly b.1) = true) fun {a b} ha hb hab hp ↦ by
    obtain ⟨ha, haf⟩ := hrow ha
    obtain ⟨hb, hbf⟩ := hrow hb
    rw [Bool.and_eq_true, hfailed ha, Bool.not_eq_true'] at hp
    have hsince : reset.all (· ≤ b.2.createdAt) = true := by
      cases reset with
      | none => rfl
      | some t =>
        have hle := of_decide_eq_true hp.1
        exact decide_eq_true (hle.trans (createdAt_le_of_older hab))
    rw [hsince, Bool.true_and, hfailed hb, Bool.not_eq_true']
    by_contra hlive
    rw [Bool.not_eq_false] at hlive
    exact (seen a ha haf hp.1 hp.2).2 b hb hbf hsince hlive hab
  rw [streak, takeWhile_reverse_eq_filter hend, List.length_reverse, ← List.countP_eq_length_filter,
    memberRows, (List.perm_insertionSort older _).countP_eq, Table.select, List.countP_filter,
    failedSince, numMembers, Table.count_eq_countP]
  refine List.countP_congr fun r hr ↦ ?_
  rw [hfailed hr, ← live_eq, sinceResume]
  by_cases hf : r.2.fleetId = f
  · cases hsince : reset.all (· ≤ r.2.createdAt) with
    | false => simp
    | true =>
      cases hlive : s.live r.1 with
      | true => simp
      | false => simp [hf, (seen r hr hf hsince hlive).1]
  · simp [hf]

/-! ## What a pass does -/

/-- The fleet says something, or keeps what it said. -/
def say (s : FleetsDb) (f : FleetId) : Option (FleetStatus × Option FleetState) → FleetsDb
  | none => s
  | some (reason, state) => s.setStatus f reason state

/-- What a pass does to a fleet that has no members beyond its target and none to adopt: nothing; or
it notes progress; or then starts as many members as are missing at most, which it only does when it
does not give up. -/
inductive Passed (s : FleetsDb) (f : FleetId) (finds : PassFinds) : FleetsDb → Prop
  | still : Passed s f finds s
  | noted (status : Option (FleetStatus × Option FleetState)) :
    Passed s f finds ((s.recordProgress f).say f status)
  | started (fleet : FleetRow) (n : ℕ) (used : List ℕ)
      (status : Option (FleetStatus × Option FleetState)) (row : s.fleets.get? f = some fleet)
      (active : fleet.state = .active) (goesOn : ¬s.GivesUp f fleet)
      (lacks : s.liveMembers f + n ≤ fleet.target ∧ s.liveMembers f < fleet.target) :
    Passed s f finds
      ((startMembers f fleet n finds.creates used (s.recordProgress f)).1.say f status)

theorem passed_reconcileLocked (hnoted : s.Noted) (hready : s.NeverReady)
    (hlive : ∀ fleet, s.fleets.get? f = some fleet → s.liveMembers f ≤ fleet.target) :
    Passed s f finds (s.reconcileLocked f finds) := by
  unfold reconcileLocked
  cases hfleet : s.fleets.get? f with
  | none => exact .still
  | some fleet =>
    have hlen := length_liveRows hnoted f
    have hrows : (s.memberRows f).filter (fun r ↦ (s.recordProgress f).live r.1) = s.liveRows f :=
      rfl
    have hfits : ¬(fleet.target : ℕ) < (s.liveRows f).length := by
      rw [hlen]
      exact (hlive fleet hfleet).not_gt
    dsimp only
    cases hactive : fleet.state with
    | active =>
      dsimp only
      rw [hready.adoptOrphans]
      unfold fill
      dsimp only
      rw [hrows, if_neg hfits, recordProgress_streak]
      have hsaid (reason : FleetStatus) (state : Option FleetState) :
          Passed s f finds ((s.recordProgress f).setStatus f reason state) :=
        .noted (some (reason, state))
      by_cases hgives : s.GivesUp f fleet
      · rw [if_pos (c := failuresBeforePause ≤ _) hgives]
        exact hsaid _ _
      · rw [if_neg (c := failuresBeforePause ≤ _) hgives]
        split_ifs with hneeded
        · exact hsaid _ _
        · exact hsaid _ _
        · exact hsaid _ _
        · exact hsaid _ _
        · -- Members are started: no more than are missing.
          have hmissing : (s.recordProgress f).needed f fleet (s.liveRows f) ≤
              (fleet.target : ℕ) - (s.liveMembers f : ℤ) := by
            unfold needed
            rw [hlen]
            split <;> omega
          have hn : s.liveMembers f + (min ((s.recordProgress f).needed f fleet (s.liveRows f))
              (affordable finds ((s.recordProgress f).needed f fleet (s.liveRows f)))).toNat ≤
                fleet.target := by
            have hmin := min_le_left ((s.recordProgress f).needed f fleet (s.liveRows f))
              (affordable finds ((s.recordProgress f).needed f fleet (s.liveRows f)))
            have hle := hlive fleet hfleet
            omega
          have hlacks : s.liveMembers f < fleet.target := by omega
          unfold startNeeded
          dsimp only
          split
          · exact .started fleet _ _ (some (_, none)) hfleet hactive hgives ⟨hn, hlacks⟩
          · exact .started fleet _ _ (some (_, some _)) hfleet hactive hgives ⟨hn, hlacks⟩
          · exact .started fleet _ _ (some (_, none)) hfleet hactive hgives ⟨hn, hlacks⟩
          · exact .started fleet _ _ none hfleet hactive hgives ⟨hn, hlacks⟩
    | paused =>
      dsimp only
      rw [hrows, if_neg hfits]
      exact .noted none
    | completed => exact .still
    | stopped => exact .still

/-! ## The bound -/

/-- Every fleet has no more live members than its target, and has started at most two more since its
owner resumed it. -/
def Within (s : FleetsDb) : Prop :=
  ∀ f fleet, s.fleets.get? f = some fleet → s.liveMembers f ≤ fleet.target ∧
    s.startedSince f fleet.failuresResetAt ≤ fleet.target + 2 ∧
      ∀ t ∈ fleet.failuresResetAt, t ≤ s.now

theorem startedSince_le (s : FleetsDb) (f : FleetId) (reset : Option Time) :
    s.startedSince f reset ≤ s.liveMembers f + s.failedSince f reset := by
  rw [startedSince, numMembers_split (fun m _ ↦ sinceResume reset m) fun _ r ↦ isLive r]
  refine Nat.add_le_add_right (Table.count_le_count fun d m _ h ↦ ?_) _
  simp only [Bool.and_eq_true] at h ⊢
  exact ⟨h.1, h.2.2⟩

theorem recordProgress_startedSince (reset : Option Time) :
    (s.recordProgress f).startedSince g reset = s.startedSince g reset :=
  recordProgress_numMembers fun _ _ ↦ rfl

/-- What a fleet says changes neither its target nor when it was resumed. -/
theorem Within.say (h : s.Within) (status : Option (FleetStatus × Option FleetState)) :
    (s.say f status).Within := by
  rcases status with _ | ⟨reason, state⟩
  · exact h
  · intro g fleet hg
    change (s.fleets.modify f _).get? g = some fleet at hg
    rw [Table.get?_modify] at hg
    split at hg
    · obtain ⟨fleet', hg', rfl⟩ := Option.map_eq_some_iff.mp hg
      exact h g fleet' hg'
    · exact h g fleet hg

theorem Within.recordProgress (h : s.Within) : (s.recordProgress f).Within := by
  intro g fleet hg
  rw [recordProgress_liveMembers, recordProgress_startedSince]
  exact h g fleet hg

theorem startMembers_now (needed : ℕ) (creates : List CreateAnswer) (used : List ℕ) :
    (startMembers f fleet needed creates used s).1.now = s.now := by
  induction needed generalizing s creates used with
  | zero => rfl
  | succ needed ih =>
    cases creates with
    | nil => rfl
    | cons answer creates =>
      unfold startMembers
      cases freeSlot used with
      | none => rfl
      | some slot =>
        cases answer with
        | created d => exact ih _ _
        | refused refusal => rfl
        | stopped d => rfl

/-- A pass that no failure is hidden from keeps every fleet within its bound. -/
theorem Within.passed (h : s.Within) (hready : s.NeverReady) (hnew : s.NewIds finds.creates)
    (sees : s.PassSees f) (passed : Passed s f finds s') : s'.Within := by
  cases passed with
  | still => exact h
  | noted status => exact h.recordProgress.say status
  | started fleet n used status row active goesOn lacks =>
    refine say ?_ status
    intro g fleet' hg
    rw [startMembers_fleets] at hg
    rw [startMembers_now]
    have hg' : s.fleets.get? g = some fleet' := hg
    obtain ⟨hlive, hstarted, hreset⟩ := h g fleet' hg'
    have hlive' : (startMembers f fleet n finds.creates used (s.recordProgress f)).1.liveMembers g =
        (s.recordProgress f).liveMembers g + if f = g ∧ true = true then
          (startMembers f fleet n finds.creates used (s.recordProgress f)).2.1 else 0 :=
      startMembers_numMembers n used hnew.recordProgress fun _ ↦ rfl
    have hstarted' : (startMembers f fleet n finds.creates used
        (s.recordProgress f)).1.startedSince g fleet'.failuresResetAt =
          (s.recordProgress f).startedSince g fleet'.failuresResetAt +
            if f = g ∧ fleet'.failuresResetAt.all (· ≤ s.now) = true then
              (startMembers f fleet n finds.creates used (s.recordProgress f)).2.1 else 0 :=
      startMembers_numMembers n used hnew.recordProgress fun _ ↦ rfl
    have hle : (startMembers f fleet n finds.creates used (s.recordProgress f)).2.1 ≤ n :=
      startMembers_le n finds.creates used
    rw [recordProgress_liveMembers] at hlive'
    rw [recordProgress_startedSince] at hstarted'
    rw [hlive', hstarted']
    by_cases hfg : f = g
    · subst hfg
      obtain rfl : fleet = fleet' := Option.some.inj (row.symm.trans hg')
      -- The streak is all failures there are, and the pass went on.
      have hseen := (sees fleet row active).resolve_left (Nat.not_le.mpr lacks.2)
      have hfailed : s.failedSince f fleet.failuresResetAt < failuresBeforePause := by
        rw [← length_streak hready hseen]
        exact Nat.not_le.mp goesOn
      have hsum := s.startedSince_le f fleet.failuresResetAt
      unfold failuresBeforePause at hfailed
      refine ⟨?_, ?_, hreset⟩
      · split <;> omega
      · split <;> omega
    · refine ⟨?_, ?_, hreset⟩
      · rw [if_neg fun h ↦ hfg h.1]
        exact hlive
      · rw [if_neg fun h ↦ hfg h.1]
        exact hstarted

/-- The gateway does not stop between the creation of a member and its record. -/
def PassFinds.recorded (finds : PassFinds) : Bool :=
  finds.creates.all fun answer ↦ match answer with
    | .stopped _ => false
    | _ => true

theorem NeverReady.passed (h : s.NeverReady) (hnew : s.NewIds finds.creates)
    (recorded : finds.recorded = true) (passed : Passed s f finds s') : s'.NeverReady := by
  have hsay {s : FleetsDb} (h : s.NeverReady)
      (status : Option (FleetStatus × Option FleetState)) : (s.say f status).NeverReady := by
    rcases status with _ | ⟨reason, state⟩
    · exact h
    · exact h.setStatus reason state
  cases passed with
  | still => exact h
  | noted status => exact hsay h.recordProgress status
  | started fleet n used status row active goesOn lacks =>
    refine hsay ?_ status
    -- Each member is recorded with its deployment.
    have hstarts : (startMembers f fleet n finds.creates used (s.recordProgress f)).1.NeverReady ∧
        ((startMembers f fleet n finds.creates used
          (s.recordProgress f)).1.fleets.get? f).isSome = true :=
      startMembers_keeps (P := fun s ↦ s.NeverReady ∧ (s.fleets.get? f).isSome = true)
        (fun _ d slot _ _ h ↦ ⟨h.1.start h.2 d slot, h.2⟩)
        (fun _ d slot hstopped _ _ ↦ nomatch List.all_eq_true.mp recorded _ hstopped) n used
        hnew.recordProgress ⟨h.recordProgress, Option.isSome_iff_exists.mpr ⟨fleet, row⟩⟩
    exact hstarts.1

/-! ## Runs -/

/-- What holds of the tables in such a run. -/
structure Struggling (s : FleetsDb) : Prop where
  noted : s.Noted
  never : s.NeverReady
  within : s.Within

theorem Struggling.reconcileLocked (h : s.Struggling) (hnew : s.NewIds finds.creates)
    (recorded : finds.recorded = true) (sees : s.PassSees f) :
    (s.reconcileLocked f finds).Struggling := by
  have hpassed : Passed s f finds (s.reconcileLocked f finds) :=
    passed_reconcileLocked h.noted h.never fun fleet hfleet ↦ (h.within f fleet hfleet).1
  exact ⟨h.noted.reconcileLocked hnew, h.never.passed hnew recorded hpassed,
    h.within.passed h.never hnew sees hpassed⟩

/-- A fleet that is new has no members. -/
theorem Struggling.newFleet (h : s.Struggling) (fresh : s.fleets.get? f = none) (row : FleetRow)
    (unresumed : row.failuresResetAt = none) :
    Struggling { s with fleets := s.fleets.insert f row } ∧
      PassSees { s with fleets := s.fleets.insert f row } f := by
  have hnone (p : FleetMember → Option FleetRental → Bool) : s.numMembers f p = 0 := by
    refine Table.count_eq_zero_iff.mpr fun d m hm ↦ ?_
    have hne : m.fleetId ≠ f := by
      rintro rfl
      have hrow := (h.never.member d m hm).2
      rw [fresh] at hrow
      cases hrow
    rw [decide_eq_false hne, Bool.false_and]
  refine ⟨⟨h.noted, ⟨h.never.rental, fun d m hm ↦ ?_⟩, fun g fleet hg ↦ ?_⟩, ?_⟩
  · obtain ⟨hdep, hrow⟩ := h.never.member d m hm
    refine ⟨hdep, ?_⟩
    have hne : m.fleetId ≠ f := by
      rintro rfl
      rw [fresh] at hrow
      cases hrow
    dsimp only
    rw [Table.get?_insert_ne _ hne]
    exact hrow
  · by_cases hgf : g = f
    · subst hgf
      obtain rfl := Option.some.inj ((Table.get?_insert_self _ _ _).symm.trans hg)
      have hlive : s.liveMembers g = 0 := hnone _
      have hstarted : s.startedSince g row.failuresResetAt = 0 := hnone _
      refine ⟨hlive.trans_le (Nat.zero_le _), hstarted.trans_le (Nat.zero_le _), ?_⟩
      rw [unresumed]
      nofun
    · exact h.within g fleet ((Table.get?_insert_ne _ hgf _).symm.trans hg)
  · intro fleet _ _
    refine .inr fun r hr hf ↦ ?_
    have hrow := (h.never.member r.1 r.2 (Table.mem_rows_iff.mp hr)).2
    rw [hf, fresh] at hrow
    cases hrow

theorem sinceResume_mono {t : Time} {reset : Option Time} (hle : ∀ t' ∈ reset, t' ≤ t)
    {m : FleetMember} (h : sinceResume (some t) m = true) : sinceResume reset m = true := by
  cases reset with
  | none => rfl
  | some t' =>
    have ht : t ≤ m.createdAt := of_decide_eq_true h
    exact decide_eq_true ((hle t' rfl).trans ht)

/-- Its owner pauses or resumes a fleet. -/
theorem Struggling.updatedRow (h : s.Struggling) (paused : Option Bool) :
    Struggling { s with fleets := s.fleets.modify f (s.updatedRow none paused) } := by
  refine ⟨h.noted, ⟨h.never.rental, fun d m hm ↦ ?_⟩, fun g fleet hg ↦ ?_⟩
  · obtain ⟨hdep, hrow⟩ := h.never.member d m hm
    refine ⟨hdep, ?_⟩
    dsimp only
    rw [Table.get?_modify]
    split
    · rw [Option.isSome_map]
      exact hrow
    · exact hrow
  · change (s.fleets.modify f _).get? g = some fleet at hg
    rw [Table.get?_modify] at hg
    split at hg
    · obtain ⟨row, hrow, rfl⟩ := Option.map_eq_some_iff.mp hg
      obtain ⟨hlive, hstarted, hreset⟩ := h.within g row hrow
      cases paused with
      | none => exact ⟨hlive, hstarted, hreset⟩
      | some paused =>
        cases paused with
        | true => exact ⟨hlive, hstarted, hreset⟩
        | false =>
          unfold FleetsDb.updatedRow
          dsimp only
          split
          · -- Fewer members were started since now than since the last resume.
            refine ⟨hlive, le_trans (Table.count_le_count fun d m _ hsince ↦ ?_) hstarted, ?_⟩
            · rw [Bool.and_eq_true] at hsince ⊢
              exact ⟨hsince.1, sinceResume_mono hreset hsince.2⟩
            · rintro t ⟨⟩
              exact le_rfl
          · exact ⟨hlive, hstarted, hreset⟩
    · exact h.within g fleet hg

end FleetsDb

namespace FleetsOp

open FleetsDb

variable {s s₀ : FleetsDb} {f : FleetId} {fleet : FleetRow}

/-- Time passes, members start up and fail, fleets are created, paused, resumed and left, and passes
run to their end. -/
def OnlyFails : FleetsOp → Bool
  | advance _ => true
  | rent _ _ => false
  | move _ state _ => state ≠ .ready ∧ state ≠ .terminated
  | deleteWorkload _ => false
  | createFleet _ _ finds => finds.recorded
  | updateFleet _ target _ finds => target.isNone && finds.recorded
  | stopFleet _ keepRunning _ => keepRunning
  | reconcile _ finds => finds.recorded

/-- No failure is hidden from the pass that the operation makes. -/
def SeesFailures : FleetsOp → FleetsDb → Prop
  | reconcile f _, s => s.PassSees f
  | updateFleet f _ paused _, s =>
    PassSees { s with fleets := s.fleets.modify f (s.updatedRow none paused) } f
  | _, _ => True

instance (o : FleetsOp) (s : FleetsDb) : Decidable (o.SeesFailures s) := by
  rcases o with _ | _ <;> unfold SeesFailures <;> infer_instance

theorem struggling_exec {o : FleetsOp} (h : s.Struggling) (possible : o.Possible s)
    (fails : o.OnlyFails = true) (sees : o.SeesFailures s) : (o.exec s).Struggling := by
  have hnoted : (o.exec s).Noted := h.noted.exec possible
  cases o with
  | advance elapsed =>
    refine ⟨hnoted, ⟨h.never.rental, h.never.member⟩, fun g fleet hg ↦ ?_⟩
    obtain ⟨hlive, hstarted, hreset⟩ := h.within g fleet hg
    exact ⟨hlive, hstarted, fun t ht ↦ (hreset t ht).trans (le_add_of_nonneg_right possible)⟩
  | rent d rental => cases fails
  | move d state lastError =>
    have hget (d' : DeploymentId) : (s.deployments.modify d (s.moved state lastError)).get? d' =
        if d' = d then (s.deployments.get? d').map (s.moved state lastError)
        else s.deployments.get? d' := Table.get?_modify ..
    obtain ⟨hready, hended⟩ := of_decide_eq_true fails
    refine ⟨hnoted, ⟨fun d' r hr ↦ ?_, fun d' m hm ↦ ?_⟩, fun g fleet hg ↦ ?_⟩
    · change (s.deployments.modify d (s.moved state lastError)).get? d' = some r at hr
      rw [hget] at hr
      split at hr
      · obtain ⟨r', hr', rfl⟩ := Option.map_eq_some_iff.mp hr
        obtain ⟨hnever, -, hmember⟩ := h.never.rental d' r' hr'
        refine ⟨?_, hended, hmember⟩
        unfold moved
        dsimp only
        rw [if_neg hready]
        exact hnever
      · exact h.never.rental d' r hr
    · obtain ⟨hdep, hrow⟩ := h.never.member d' m hm
      refine ⟨?_, hrow⟩
      change ((s.deployments.modify d (s.moved state lastError)).get? d').isSome = true
      rw [hget]
      split
      · rw [Option.isSome_map]
        exact hdep
      · exact hdep
    · obtain ⟨hlive, hstarted, hreset⟩ := h.within g fleet hg
      refine ⟨le_trans (Table.count_le_count fun d' m _ hlive' ↦ ?_) hlive, hstarted, hreset⟩
      rw [Bool.and_eq_true] at hlive' ⊢
      refine ⟨hlive'.1, ?_⟩
      have hstill := hlive'.2
      change isLive ((s.deployments.modify d (s.moved state lastError)).get? d') = true at hstill
      rw [hget] at hstill
      split at hstill
      · next hd => exact hd ▸ possible
      · exact hstill
  | deleteWorkload w => cases fails
  | createFleet f request finds =>
    rcases exec_createFleet request with hsame | ⟨target, hfilled⟩
    · rw [hsame]
      exact h
    · rw [hfilled]
      obtain ⟨hnew, hsees⟩ := h.newFleet possible.1 (s.newFleet request target) rfl
      exact hnew.reconcileLocked possible.2 fails hsees
  | updateFleet f target paused finds =>
    obtain ⟨htarget, hrecorded⟩ := Bool.and_eq_true_iff.mp fails
    rw [Option.isNone_iff_eq_none] at htarget
    subst htarget
    rcases exec_updateFleet none paused with hsame | ⟨fleet, target, -, -, htarget, hfilled⟩
    · rw [hsame]
      exact h
    · rw [hfilled]
      cases htarget
      exact (h.updatedRow paused).reconcileLocked possible hrecorded sees
  | stopFleet f keepRunning unstoppable =>
    obtain rfl : keepRunning = true := fails
    exact ⟨hnoted, h.never.setStatus _ _, h.within.say (some (_, some _))⟩
  | reconcile f finds => exact h.reconcileLocked possible fails sees

/-- **A broken fleet stops spending.** In every run in which no member ever becomes ready and no
failure is hidden from a pass that has something to start, a fleet has started no more than its
target and three since its owner resumed it. A pass that sees three failures pauses it, and a fleet
that is not active starts nothing. -/
theorem starts_bounded (fleets : s₀.fleets = .empty) (members : s₀.members = .empty)
    (deployments : s₀.deployments = .empty)
    (run : Steps FleetsOp.exec (fun o s ↦ o.Possible s ∧ o.OnlyFails = true ∧ o.SeesFailures s)
      s₀ s) (row : s.fleets.get? f = some fleet) :
    s.startedSince f fleet.failuresResetAt ≤ fleet.target + failuresBeforePause ∧
      ∀ finds,
        (fleet.state = .active → s.FailuresSeen f fleet.failuresResetAt →
          failuresBeforePause ≤ s.failedSince f fleet.failuresResetAt →
            (((reconcile f finds).exec s).fleets.get? f).map FleetRow.state = some .paused) ∧
        (fleet.state ≠ .active → (((reconcile f finds).exec s).numMembers f fun _ _ ↦ true) =
          s.numMembers f fun _ _ ↦ true) := by
  have hstart : s₀.Struggling := by
    refine ⟨fun d m hm ↦ ?_, ⟨fun d r hr ↦ ?_, fun d m hm ↦ ?_⟩, fun g fleet hg ↦ ?_⟩
    · rw [members] at hm; cases hm
    · rw [deployments] at hr; cases hr
    · rw [members] at hm; cases hm
    · rw [fleets] at hg; cases hg
  have hs : s.Struggling := run.invariant
    (fun o s h ho ↦ struggling_exec h ho.1 ho.2.1 ho.2.2) hstart
  obtain ⟨hlive, hstarted, -⟩ := hs.within f fleet row
  refine ⟨hstarted.trans (Nat.add_le_add_left (by decide) _), fun finds ↦ ⟨fun active seen hfailed ↦
    ?_, fun inactive ↦ ?_⟩⟩
  · change ((s.reconcileLocked f finds).fleets.get? f).map FleetRow.state = some .paused
    unfold FleetsDb.reconcileLocked
    rw [row]
    dsimp only
    rw [active]
    dsimp only
    rw [hs.never.adoptOrphans]
    unfold fill
    dsimp only
    rw [recordProgress_streak, length_streak hs.never seen, if_pos hfailed]
    exact state_setStatus (s := s.recordProgress f) row _ _
  · have hpassed : Passed s f finds (s.reconcileLocked f finds) :=
      passed_reconcileLocked hs.noted hs.never fun fleet hfleet ↦ (hs.within f fleet hfleet).1
    change ((s.reconcileLocked f finds).numMembers f fun _ _ ↦ true) = _
    generalize s.reconcileLocked f finds = s' at hpassed
    cases hpassed with
    | still => rfl
    | noted status =>
      rcases status with _ | ⟨reason, state⟩
      · exact recordProgress_all
      · exact recordProgress_all
    | started fleet' n used status row' active =>
      obtain rfl : fleet = fleet' := Option.some.inj (row.symm.trans row')
      exact absurd active inactive

/-- A fleet of a broken image. -/
private def broken (target : ℤ) : FleetRequest where
  workloadFits := true
  ownerUserId := 1
  createdByKeyId := none
  workloadId := "w".toList
  namePrefix := "rig".toList
  target := target
  replace := true
  saveOnExhaustion := false
  resumeOnTopup := false

/-- A pass that may start one more member. -/
private def oneMore (creates : List CreateAnswer) : PassFinds where
  workloadExists := true
  keyExists := true
  costCents := 40
  committedCents := 0
  balanceCents := 10000
  creates := creates
  unstoppable := []

private def untouched : FleetsDb := ⟨0, .empty, .empty, .empty⟩

/-- A member fails, and half a minute later a pass starts the next. -/
private def failsAndPasses (d next : DeploymentId) : List FleetsOp :=
  [.move d .failed (some "manifest unknown".toList), .advance 30,
    .reconcile 1 (oneMore [.created next])]

/-- A fleet of one, whose members fail one after the other. -/
private def oneByOne : List FleetsOp :=
  .createFleet 1 (broken 1) (oneMore [.created 1]) ::
    (failsAndPasses 1 2 ++ failsAndPasses 2 3 ++ [.move 3 .failed none, .advance 30])

/-- What the fleet says when it has started a member of so many. -/
private def brokenFleet (target : FleetTarget) : FleetRow where
  ownerUserId := 1
  createdByKeyId := none
  workloadId := "w".toList
  namePrefix := "rig".toList
  target := target
  replace := true
  state := .active
  statusReason := .started target target none
  failuresResetAt := none
  createdAt := 0

/-- Three members were started, and the next pass pauses the fleet. -/
theorem starts_bounded_three :
    let s := Steps.replay FleetsOp.exec untouched oneByOne
    s.startedSince 1 none = 3 ∧ s.startedSince 1 none ≤ 1 + 3 ∧
      (((reconcile 1 (oneMore [.created 4])).exec s).fleets.get? 1).map FleetRow.state =
        some .paused :=
  have run : Steps FleetsOp.exec
      (fun o s ↦ o.Possible s ∧ o.OnlyFails = true ∧ o.SeesFailures s) untouched
      (Steps.replay FleetsOp.exec untouched oneByOne) :=
    Steps.of_admits FleetsOp.exec _ untouched oneByOne (by decide +kernel)
  have row : (Steps.replay FleetsOp.exec untouched oneByOne).fleets.get? 1 =
      some (brokenFleet ⟨1, by decide⟩) := by decide +kernel
  have bounded := starts_bounded rfl rfl rfl run row
  ⟨by decide +kernel, bounded.1,
    (bounded.2 (oneMore [.created 4])).1 rfl (by decide +kernel) (by decide +kernel)⟩

/-- A fleet of two, of whose members the older fails each time. -/
private def olderFails : List FleetsOp :=
  .createFleet 1 (broken 2) (oneMore [.created 1, .created 2]) ::
    (failsAndPasses 1 3 ++ failsAndPasses 2 4 ++ failsAndPasses 3 5 ++ failsAndPasses 4 6)

/-- The member that is starting hides the failures before it, and six are started for two. -/
theorem failures_hidden :
    ¬∀ (s₀ s : FleetsDb) (f : FleetId) (fleet : FleetRow), s₀.fleets = .empty →
      s₀.members = .empty → s₀.deployments = .empty →
      Steps FleetsOp.exec (fun o s ↦ o.Possible s ∧ o.OnlyFails = true) s₀ s →
      s.fleets.get? f = some fleet →
      s.startedSince f fleet.failuresResetAt ≤ fleet.target + failuresBeforePause := by
  intro h
  have run : Steps FleetsOp.exec (fun o s ↦ o.Possible s ∧ o.OnlyFails = true) untouched
      (Steps.replay FleetsOp.exec untouched olderFails) :=
    Steps.of_admits FleetsOp.exec _ untouched olderFails (by decide +kernel)
  have row : (Steps.replay FleetsOp.exec untouched olderFails).fleets.get? 1 =
      some (brokenFleet ⟨2, by decide⟩) := by decide +kernel
  exact absurd (h _ _ _ _ rfl rfl rfl run row) (by decide +kernel)

end FleetsOp

end GreenCompute
