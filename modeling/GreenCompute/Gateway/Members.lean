import GreenCompute.Foundations.Counting
import GreenCompute.Gateway.Fleets

/-!
# Counting the members of a fleet

A fleet decides by numbers: how many of its members are live, how many have run. The numbers are
counts over the rows of `fleet_members`, each with its deployment; this module says what each part of
a pass makes of such a count.
-/

namespace GreenCompute

namespace FleetsDb

variable {s : FleetsDb} {f g : FleetId} {fleet : FleetRow} {d : DeploymentId}

/-! ## Counts -/

/-- The deployment is there and has not ended. -/
def isLive (r : Option FleetRental) : Bool := r.any FleetRental.live

/-- The member has been ready: it was seen to be, or its row says so. -/
def hasRun (m : FleetMember) (r : Option FleetRental) : Bool :=
  m.ran || r.any fun rental ↦ rental.readyAt.isSome

/-- How many members of a fleet meet a condition. -/
def numMembers (s : FleetsDb) (f : FleetId) (p : FleetMember → Option FleetRental → Bool) : ℕ :=
  s.members.count fun d m ↦ m.fleetId = f && p m (s.deployments.get? d)

/-- The live members. -/
def liveMembers (s : FleetsDb) (f : FleetId) : ℕ := s.numMembers f fun _ r ↦ isLive r

/-- The finished members that ran. -/
def finishedRun (s : FleetsDb) (f : FleetId) : ℕ :=
  s.numMembers f fun m r ↦ !isLive r && hasRun m r

/-- The live members that have been ready. -/
def liveRun (s : FleetsDb) (f : FleetId) : ℕ := s.numMembers f fun m r ↦ isLive r && hasRun m r

/-- The members that are live or ran. -/
def filled (s : FleetsDb) (f : FleetId) : ℕ := s.liveMembers f + s.finishedRun f

theorem numMembers_split (p q : FleetMember → Option FleetRental → Bool) :
    s.numMembers f p =
      (s.numMembers f fun m r ↦ p m r && q m r) + s.numMembers f fun m r ↦ p m r && !q m r := by
  unfold numMembers
  rw [s.members.count_split _ fun d m ↦ q m (s.deployments.get? d)]
  simp only [Bool.and_assoc]

theorem numMembers_congr {p q : FleetMember → Option FleetRental → Bool}
    (h : ∀ m r, p m r = q m r) : s.numMembers f p = s.numMembers f q := by
  obtain rfl : p = q := funext fun m ↦ funext (h m)
  rfl

theorem filled_eq (s : FleetsDb) (f : FleetId) :
    s.filled f = s.numMembers f fun m r ↦ isLive r || hasRun m r := by
  rw [filled, liveMembers, finishedRun,
    numMembers_split (fun m r ↦ isLive r || hasRun m r) fun _ r ↦ isLive r]
  congr 1 <;> refine numMembers_congr fun m r ↦ ?_ <;> cases isLive r <;> simp

theorem numMembers_hasRun (s : FleetsDb) (f : FleetId) :
    s.numMembers f hasRun = s.liveRun f + s.finishedRun f := by
  rw [liveRun, finishedRun, numMembers_split hasRun fun _ r ↦ isLive r]
  congr 1 <;> exact numMembers_congr fun m r ↦ Bool.and_comm ..

theorem liveRun_le (s : FleetsDb) (f : FleetId) : s.liveRun f ≤ s.liveMembers f := by
  rw [liveMembers, numMembers_split (fun _ r ↦ isLive r) hasRun]
  exact Nat.le_add_right _ _

theorem live_eq (s : FleetsDb) (d : DeploymentId) : s.live d = isLive (s.deployments.get? d) := rfl

/-! ## What leaves the counts -/

@[simp] theorem setStatus_numMembers (reason : FleetStatus) (state : Option FleetState)
    (p : FleetMember → Option FleetRental → Bool) :
    (s.setStatus f reason state).numMembers g p = s.numMembers g p := rfl

@[simp] theorem setStatus_liveMembers (reason : FleetStatus) (state : Option FleetState) :
    (s.setStatus f reason state).liveMembers g = s.liveMembers g := rfl

@[simp] theorem setStatus_finishedRun (reason : FleetStatus) (state : Option FleetState) :
    (s.setStatus f reason state).finishedRun g = s.finishedRun g := rfl

/-- What is noted of the members changes no count that does not read it. -/
theorem recordProgress_numMembers {p : FleetMember → Option FleetRental → Bool}
    (hp : ∀ d m, p (s.progress d m) (s.deployments.get? d) = p m (s.deployments.get? d)) :
    (s.recordProgress f).numMembers g p = s.numMembers g p := by
  unfold numMembers recordProgress
  rw [Table.count_map]
  refine Table.count_congr fun d m _ ↦ ?_
  dsimp only
  split
  · rw [hp]
    rfl
  · rfl

theorem hasRun_progress (d : DeploymentId) (m : FleetMember) :
    hasRun (s.progress d m) (s.deployments.get? d) = hasRun m (s.deployments.get? d) := by
  unfold hasRun progress readyOnce
  dsimp only
  rw [Bool.or_assoc, Bool.or_self]

theorem recordProgress_streak (reset : Option Time) (rows : List (DeploymentId × FleetMember)) :
    (s.recordProgress f).streak reset rows = s.streak reset rows := rfl

@[simp] theorem recordProgress_liveMembers :
    (s.recordProgress f).liveMembers g = s.liveMembers g :=
  recordProgress_numMembers fun _ _ ↦ rfl

@[simp] theorem recordProgress_finishedRun :
    (s.recordProgress f).finishedRun g = s.finishedRun g :=
  recordProgress_numMembers fun d m ↦ by rw [hasRun_progress]

/-! ## Starting a member -/

/-- A deployment that is no member is in no count. -/
theorem createRental_numMembers (hd : s.members.get? d = none) (slot : ℕ)
    (p : FleetMember → Option FleetRental → Bool) :
    (s.createRental d fleet slot).numMembers g p = s.numMembers g p := by
  unfold numMembers createRental
  refine Table.count_congr fun d' m hm ↦ ?_
  have hne : d' ≠ d := by
    rintro rfl
    exact nomatch hm.symm.trans hd
  rw [Table.get?_insert_ne _ hne]

/-- A new member counts as what it is: pending, and never ready. -/
theorem addMember_numMembers (hd : s.members.get? d = none) (slot : ℕ)
    (p : FleetMember → Option FleetRental → Bool) :
    ((s.createRental d fleet slot).addMember f d slot).numMembers g p = s.numMembers g p +
      if f = g ∧ p ⟨f, slot, s.now, none, false⟩ (some (s.newRental fleet slot)) = true
        then 1 else 0 := by
  have hrest : (s.createRental d fleet slot).numMembers g p = s.numMembers g p :=
    createRental_numMembers hd slot p
  have hadded := Table.count_insert_new hd (⟨f, slot, s.now, none, false⟩ : FleetMember)
    fun d' m ↦ m.fleetId = g && p m ((s.createRental d fleet slot).deployments.get? d')
  refine hadded.trans ?_
  rw [← hrest]
  simp [createRental, numMembers]

/-! ## What a run of starts does -/

theorem NewIds.created (f : FleetId) (fleet : FleetRow) (slot : ℕ) {creates : List CreateAnswer}
    (h : s.NewIds (.created d :: creates)) :
    (s.deployments.get? d = none ∧ s.members.get? d = none) ∧
      ((s.createRental d fleet slot).addMember f d slot).NewIds creates := by
  obtain ⟨hnodup, hnew⟩ := h
  change (d :: creates.filterMap CreateAnswer.id?).Nodup at hnodup
  obtain ⟨hd, hnodup⟩ := List.nodup_cons.mp hnodup
  refine ⟨hnew d List.mem_cons_self, hnodup, fun d' hd' ↦ ?_⟩
  have hne : d' ≠ d := fun h ↦ hd (h ▸ hd')
  obtain ⟨hdep, hmem⟩ := hnew d' (List.mem_cons_of_mem _ hd')
  exact ⟨(Table.get?_insert_ne _ hne _).trans hdep, (Table.get?_insert_ne _ hne _).trans hmem⟩

theorem NewIds.stopped {creates : List CreateAnswer} (h : s.NewIds (.stopped d :: creates)) :
    s.deployments.get? d = none ∧ s.members.get? d = none :=
  h.2 d List.mem_cons_self

/-- What each start keeps, the starts of a pass keep. -/
theorem startMembers_keeps {P : FleetsDb → Prop} {creates : List CreateAnswer}
    (hstart : ∀ s d slot, s.deployments.get? d = none → s.members.get? d = none → P s →
      P ((s.createRental d fleet slot).addMember f d slot))
    (hstopped : ∀ s d slot, .stopped d ∈ creates → s.members.get? d = none → P s →
      P (s.createRental d fleet slot))
    (needed : ℕ) (used : List ℕ) (hnew : s.NewIds creates) (hs : P s) :
    P (startMembers f fleet needed creates used s).1 := by
  induction needed generalizing s creates used with
  | zero => exact hs
  | succ needed ih =>
    cases creates with
    | nil => exact hs
    | cons answer creates =>
      unfold startMembers
      cases freeSlot used with
      | none => exact hs
      | some slot =>
        cases answer with
        | created d =>
          obtain ⟨⟨hdep, hmem⟩, hrest⟩ := hnew.created f fleet slot
          exact ih (fun s d slot h ↦ hstopped s d slot (List.mem_cons_of_mem _ h)) _ hrest
            (hstart s d slot hdep hmem hs)
        | refused refusal => exact hs
        | stopped d => exact hstopped s d slot List.mem_cons_self hnew.stopped.2 hs

/-- Each start adds to the counts that a new member is in. -/
theorem startMembers_numMembers {p : FleetMember → Option FleetRental → Bool} {b : Bool}
    (needed : ℕ) {creates : List CreateAnswer} (used : List ℕ) (hnew : s.NewIds creates)
    (hp : ∀ slot, p ⟨f, slot, s.now, none, false⟩ (some (s.newRental fleet slot)) = b) :
    (startMembers f fleet needed creates used s).1.numMembers g p = s.numMembers g p +
      if f = g ∧ b = true then (startMembers f fleet needed creates used s).2.1 else 0 := by
  induction needed generalizing s creates used with
  | zero => simp [startMembers]
  | succ needed ih =>
    cases creates with
    | nil => simp [startMembers]
    | cons answer creates =>
      unfold startMembers
      cases freeSlot used with
      | none => simp
      | some slot =>
        cases answer with
        | created d =>
          obtain ⟨⟨hdep, hmem⟩, hrest⟩ := hnew.created f fleet slot
          dsimp only
          rw [ih _ hrest hp, addMember_numMembers hmem, hp slot]
          split <;> omega
        | refused refusal => simp
        | stopped d =>
          dsimp only
          rw [createRental_numMembers hnew.stopped.2]
          simp

theorem startMembers_le (needed : ℕ) (creates : List CreateAnswer) (used : List ℕ) :
    (startMembers f fleet needed creates used s).2.1 ≤ needed := by
  induction needed generalizing s creates used with
  | zero => exact le_rfl
  | succ needed ih =>
    cases creates with
    | nil => exact Nat.zero_le _
    | cons answer creates =>
      unfold startMembers
      cases freeSlot used with
      | none => exact Nat.zero_le _
      | some slot =>
        cases answer with
        | created d => exact Nat.succ_le_succ (ih _ _)
        | refused refusal => exact Nat.zero_le _
        | stopped d => exact Nat.zero_le _

/-- There is a free slot while fewer are used than there are. -/
theorem freeSlot_isSome {used : List ℕ} (h : used.length < maxTarget * 4 - 1) :
    ∃ slot, freeSlot used = some slot := by
  by_contra hnone
  have hall := List.find?_eq_none.mp (Option.eq_none_iff_forall_not_mem.mpr fun slot hslot ↦
    hnone ⟨slot, hslot⟩)
  have hsub : List.range' 1 (maxTarget * 4 - 1) ⊆ used := fun i hi ↦ by
    simpa using hall i hi
  have hle := (List.subperm_of_subset List.nodup_range' hsub).length_le
  rw [List.length_range'] at hle
  omega

/-- Where every call creates, every member that is needed is started. -/
theorem startMembers_of_created {needed : ℕ} {creates : List CreateAnswer} {used : List ℕ}
    (hcreates : ∀ i < needed, ∃ d, creates[i]? = some (.created d))
    (hused : used.length + needed < maxTarget * 4) :
    (startMembers f fleet needed creates used s).2 = (needed, .reached) := by
  induction needed generalizing s creates used with
  | zero => rfl
  | succ needed ih =>
    obtain ⟨d, hd⟩ := hcreates 0 needed.succ_pos
    cases creates with
    | nil => cases hd
    | cons answer creates =>
      obtain rfl : answer = .created d := Option.some.inj hd
      have hfree : ∃ slot, freeSlot used = some slot := freeSlot_isSome (by omega)
      obtain ⟨slot, hslot⟩ := hfree
      have hrest (i : ℕ) (hi : i < needed) : ∃ d, creates[i]? = some (.created d) :=
        hcreates (i + 1) (Nat.succ_lt_succ hi)
      unfold startMembers
      rw [hslot]
      dsimp only
      rw [ih hrest (by rw [List.length_cons]; omega)]

/-! ## Adopting and noting -/

/-- What adopting puts into the table. -/
theorem adoptOrphans_get? {m : FleetMember}
    (h : (s.adoptOrphans f fleet).members.get? d = some m) :
    s.members.get? d = some m ∨
      (s.deployments.get? d).isSome ∧ m.fleetId = f ∧ m.finishedAt = none ∧ m.ran = false := by
  have hinserted : ∀ (orphans : List (DeploymentId × ℕ × Time)) (members : Table _ FleetMember),
      (∀ r ∈ orphans, (s.deployments.get? r.1).isSome) →
      (orphans.foldl (fun members r ↦ members.insert r.1 ⟨f, r.2.1, r.2.2, none, false⟩)
        members).get? d = some m →
      members.get? d = some m ∨
        (s.deployments.get? d).isSome ∧ m.fleetId = f ∧ m.finishedAt = none ∧ m.ran = false := by
    intro orphans
    induction orphans with
    | nil => exact fun _ _ h ↦ .inl h
    | cons r orphans ih =>
      intro members hrows h
      rcases ih _ (fun r' hr' ↦ hrows r' (List.mem_cons_of_mem _ hr')) h with hget | hnew
      · by_cases hd : d = r.1
        · subst hd
          rw [Table.get?_insert_self] at hget
          obtain rfl := Option.some.inj hget
          exact .inr ⟨hrows r List.mem_cons_self, rfl, rfl, rfl⟩
        · exact .inl (by rwa [Table.get?_insert_ne _ hd] at hget)
      · exact .inr hnew
  refine hinserted _ s.members (fun r hr ↦ ?_) h
  obtain ⟨⟨d', rental⟩, hrow, horphan⟩ := List.mem_filterMap.mp hr
  rw [orphan] at horphan
  split at horphan
  · obtain ⟨slot, -, rfl⟩ := Option.map_eq_some_iff.mp horphan
    exact Option.isSome_iff_exists.mpr ⟨rental, Table.mem_rows_iff.mp hrow⟩
  · cases horphan

/-- A deployment that is not there is not adopted. -/
theorem adoptOrphans_get?_none (hdep : s.deployments.get? d = none)
    (hmem : s.members.get? d = none) : (s.adoptOrphans f fleet).members.get? d = none := by
  by_contra hne
  obtain ⟨m, hm⟩ := Option.ne_none_iff_exists'.mp hne
  rcases adoptOrphans_get? hm with h | ⟨h, -⟩
  · exact nomatch h.symm.trans hmem
  · rw [hdep] at h
    cases h

theorem recordProgress_get? {m : FleetMember}
    (h : (s.recordProgress f).members.get? d = some m) :
    ∃ m', s.members.get? d = some m' ∧
      m = if m'.fleetId = f && s.recent m' then s.progress d m' else m' := by
  unfold recordProgress at h
  rw [Table.get?_map] at h
  obtain ⟨m', hm', rfl⟩ := Option.map_eq_some_iff.mp h
  exact ⟨m', hm', rfl⟩

theorem NewIds.adoptOrphans {creates : List CreateAnswer} (h : s.NewIds creates) :
    (s.adoptOrphans f fleet).NewIds creates :=
  ⟨h.1, fun d hd ↦ ⟨(h.2 d hd).1, adoptOrphans_get?_none (h.2 d hd).1 (h.2 d hd).2⟩⟩

theorem NewIds.recordProgress {creates : List CreateAnswer} (h : s.NewIds creates) :
    (s.recordProgress f).NewIds creates := by
  refine ⟨h.1, fun d hd ↦ ⟨(h.2 d hd).1, ?_⟩⟩
  unfold FleetsDb.recordProgress
  rw [Table.get?_map, (h.2 d hd).2]
  rfl

/-! ## What a pass keeps -/

section keeps

variable {P : FleetsDb → Prop} {finds : PassFinds}
  (hstatus : ∀ s reason state, P s → P (s.setStatus f reason state))
  (hterminate : ∀ s d, P s → P (s.terminate d))
  (hcreate : ∀ s fleet d slot, s.members.get? d = none → P s → P (s.createRental d fleet slot))
  (hmember : ∀ s d slot, P s → P (s.addMember f d slot))

include hterminate in
theorem terminateAll_keeps (ds : List DeploymentId) (hs : P s) : P (ds.foldl terminate s) := by
  induction ds generalizing s with
  | nil => exact hs
  | cons d ds ih => exact ih (hterminate s d hs)

include hstatus hterminate hcreate hmember in
theorem fill_keeps (rows : List (DeploymentId × FleetMember)) (hnew : s.NewIds finds.creates)
    (hs : P s) : P (s.fill f fleet rows finds) := by
  have hstart (needed : ℕ) (used : List ℕ) :
      P (startMembers f fleet needed finds.creates used s).1 :=
    startMembers_keeps (fun s d slot _ h hs ↦ hmember _ d slot (hcreate s fleet d slot h hs))
      (fun s d slot _ ↦ hcreate s fleet d slot) needed used hnew hs
  unfold fill
  dsimp only
  split_ifs
  · exact hstatus _ _ _ hs
  · exact hstatus _ _ _ (terminateAll_keeps hterminate _ hs)
  · exact hstatus _ _ _ hs
  · exact hstatus _ _ _ hs
  · exact hstatus _ _ _ hs
  · exact hstatus _ _ _ hs
  · unfold startNeeded
    dsimp only
    split
    · exact hstatus _ _ _ (hstart _ _)
    · exact hstatus _ _ _ (hstart _ _)
    · exact hstatus _ _ _ (hstart _ _)
    · exact hstart _ _

include hstatus hterminate hcreate hmember in
theorem reconcileLocked_keeps (hadopt : ∀ s fleet, P s → P (s.adoptOrphans f fleet))
    (hrecord : ∀ s, P s → P (s.recordProgress f)) (hnew : s.NewIds finds.creates) (hs : P s) :
    P (s.reconcileLocked f finds) := by
  unfold reconcileLocked
  cases s.fleets.get? f with
  | none => exact hs
  | some fleet =>
    dsimp only
    cases fleet.state with
    | active =>
      exact fill_keeps hstatus hterminate hcreate hmember _ hnew.adoptOrphans.recordProgress (hrecord _ (hadopt _ _ hs))
    | paused =>
      dsimp only
      split_ifs
      · exact terminateAll_keeps hterminate _ (hrecord _ hs)
      · exact hrecord _ hs
    | completed => exact hs
    | stopped => exact hs

end keeps

end FleetsDb

/-! ## What an owner's request comes to -/

namespace FleetsOp

open FleetsDb

variable {s : FleetsDb} {f : FleetId} {finds : PassFinds}

/-- A fleet is created and filled, or nothing happens. -/
theorem exec_createFleet (request : FleetRequest) :
    (createFleet f request finds).exec s = s ∨
      ∃ target, (createFleet f request finds).exec s =
        { s with fleets := s.fleets.insert f (s.newFleet request target) }.reconcileLocked
          f finds := by
  change (s.createFleet f request finds).toOption.getD s = s ∨ ∃ target,
    (s.createFleet f request finds).toOption.getD s = _
  unfold FleetsDb.createFleet
  by_cases hfits : (!request.workloadFits) = true
  · rw [if_pos hfits]
    exact .inl rfl
  · rw [if_neg hfits]
    cases checkTarget request.target with
    | error e => exact .inl rfl
    | ok target =>
      simp only [bind, Except.bind]
      split_ifs
      · exact .inl rfl
      · exact .inl rfl
      · exact .inl rfl
      · exact .inr ⟨target, rfl⟩

/-- A fleet that is not stopped is changed and filled, or nothing happens. -/
theorem exec_updateFleet (asked : Option ℤ) (paused : Option Bool) :
    (updateFleet f asked paused finds).exec s = s ∨
      ∃ fleet target, s.fleets.get? f = some fleet ∧ fleet.state ≠ .stopped ∧
        asked.mapM checkTarget = .ok target ∧ (updateFleet f asked paused finds).exec s =
          { s with fleets := s.fleets.modify f (s.updatedRow target paused) }.reconcileLocked
            f finds := by
  change (s.updateFleet f asked paused finds).toOption.getD s = s ∨ ∃ fleet target, _ ∧ _ ∧ _ ∧
    (s.updateFleet f asked paused finds).toOption.getD s = _
  unfold FleetsDb.updateFleet
  cases s.fleets.get? f with
  | none => exact .inl rfl
  | some fleet =>
    cases htarget : asked.mapM checkTarget with
    | error e => exact .inl rfl
    | ok target =>
      simp only [bind, Except.bind]
      split_ifs with hstopped
      · exact .inl rfl
      · exact .inr ⟨fleet, target, rfl, hstopped, rfl, rfl⟩

end FleetsOp

end GreenCompute
