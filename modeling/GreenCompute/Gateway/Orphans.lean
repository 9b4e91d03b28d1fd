import GreenCompute.Gateway.Filling
import GreenCompute.Gateway.FleetCalls

/-!
# Members started and not recorded

A pass creates a deployment in one transaction and records it as a member in the next. If the gateway
stops in between, the deployment is live, bills, and is no member: an orphan. An active fleet's next
pass finds it by its name. What makes this safe is that nothing else is named `<prefix>-NN`
(`Around`), that the name says the slot (`slotOfName_memberName`), and that a pass adopts before it
looks for free slots.
-/

namespace GreenCompute

open FleetsDb

/-! ## Names -/

theorem digits_memberName : ∀ slot < maxTarget * 4,
    2 ≤ (List.replicate (2 - (Nat.toDigits 10 slot).length) '0' ++ Nat.toDigits 10 slot).length ∧
      (List.replicate (2 - (Nat.toDigits 10 slot).length) '0' ++ Nat.toDigits 10 slot).all
        Char.isDigit = true ∧
      decimal (List.replicate (2 - (Nat.toDigits 10 slot).length) '0' ++ Nat.toDigits 10 slot) =
        slot := by
  decide +kernel

/-- The name of a member says its slot. -/
theorem slotOfName_memberName (namePrefix : Text) {slot : ℕ} (h : slot < maxTarget * 4) :
    slotOfName namePrefix (memberName namePrefix slot) = some slot := by
  obtain ⟨hlen, hdigits, hdecimal⟩ := digits_memberName slot h
  have hname : (namePrefix ++ ['-']).isPrefixOf? (memberName namePrefix slot) =
      some (List.replicate (2 - (Nat.toDigits 10 slot).length) '0' ++ Nat.toDigits 10 slot) := by
    rw [memberName, List.isPrefixOf?_eq_some_iff_append_eq, List.append_assoc]
    rfl
  rw [slotOfName, hname]
  simp only
  rw [if_pos ⟨hlen, hdigits⟩, hdecimal]

theorem freeSlot_spec {used : List ℕ} {slot : ℕ} (h : freeSlot used = some slot) :
    slot < maxTarget * 4 ∧ slot ∉ used := by
  have hmem := List.mem_of_find?_eq_some h
  have hfree := List.find?_some h
  rw [List.mem_range'_1] at hmem
  exact ⟨by unfold maxTarget at hmem ⊢; omega, of_decide_eq_true hfree⟩

/-! ## The fleet and its deployments -/

/-- What a fleet's orphans are found by. -/
def FleetRow.origin (fleet : FleetRow) : Text × WorkloadId × UserId × Option KeyId × Time :=
  (fleet.namePrefix, fleet.workloadId, fleet.ownerUserId, fleet.createdByKeyId, fleet.createdAt)

theorem origin_updatedRow (db : FleetsDb) (target : Option FleetTarget) (paused : Option Bool)
    (fleet : FleetRow) : (db.updatedRow target paused fleet).origin = fleet.origin := by
  unfold updatedRow
  cases target with
  | none =>
    match paused with
    | none | some true => rfl
    | some false => dsimp only; split_ifs <;> rfl
  | some target =>
    match paused with
    | none | some true => rfl
    | some false => dsimp only; split_ifs <;> rfl

/-- What an orphan is found by. -/
def FleetRental.origin (rental : FleetRental) : Text × WorkloadId × UserId × Option KeyId × Time :=
  (rental.name, rental.workloadId, rental.ownerUserId, rental.createdByKeyId, rental.createdAt)

/-- The deployment would be adopted, were it live and no member. -/
def FleetRow.Starts (fleet : FleetRow) (rental : FleetRental) : Prop :=
  rental.workloadId = fleet.workloadId ∧ rental.ownerUserId = fleet.ownerUserId ∧
    fleet.createdAt ≤ rental.createdAt ∧ rental.createdByKeyId = fleet.createdByKeyId ∧
    (slotOfName fleet.namePrefix rental.name).isSome = true

theorem FleetRental.starts_congr {fleet : FleetRow} {r r' : FleetRental}
    (h : r'.origin = r.origin) : fleet.Starts r' ↔ fleet.Starts r := by
  simp only [FleetRental.origin, Prod.mk.injEq] at h
  obtain ⟨hname, hworkload, howner, hkey, hcreated⟩ := h
  rw [FleetRow.Starts, FleetRow.Starts, hname, hworkload, howner, hkey, hcreated]

theorem FleetRow.starts_congr {fleet fleet' : FleetRow} {r : FleetRental}
    (h : fleet'.origin = fleet.origin) : fleet'.Starts r ↔ fleet.Starts r := by
  simp only [FleetRow.origin, Prod.mk.injEq] at h
  obtain ⟨hnamed, hworkload, howner, hkey, hcreated⟩ := h
  rw [FleetRow.Starts, FleetRow.Starts, hnamed, hworkload, howner, hkey, hcreated]

theorem FleetsDb.live_iff {db : FleetsDb} {d : DeploymentId} :
    db.live d = true ↔ ∃ r, db.deployments.get? d = some r ∧ r.live = true := by
  unfold live
  cases db.deployments.get? d <;> simp

namespace FleetHistory

/-- The deployment is one that the fleet created, and is live. -/
def Runs (s : FleetHistory) (d : DeploymentId) : Prop := d ∈ s.made ∧ s.db.live d = true

/-- The slot of a deployment: the one recorded, or else the one that its name says. -/
def slotOf (p : Text) (s : FleetHistory) (d : DeploymentId) : Option ℕ :=
  match s.db.members.get? d with
  | some m => some m.slot
  | none => (s.db.deployments.get? d).bind fun rental ↦ slotOfName p rental.name

/-- Every live deployment that the fleet created is a member. -/
def Recorded (s : FleetHistory) : Prop :=
  ∀ d, s.Runs d → (s.db.members.get? d).isSome = true

/-- The row is the fleet's, but for what changes. -/
def Mine (f : FleetId) (s : FleetHistory) (fleet : FleetRow) : Prop :=
  (s.db.fleets.get? f).map FleetRow.origin = some fleet.origin

/-- What happens around the calls on a fleet: deployments come, change and go, but nothing becomes
live again, an orphan stays what it is found by, and nothing that the fleet did not create comes to
be named as a member of it. Others leave the fleet's rows alone and put no other's into its place. -/
structure Around (f : FleetId) (p : Text) (s s' : FleetHistory) : Prop where
  made : s'.made = s.made
  now : s.db.now ≤ s'.db.now
  fleet : s'.db.fleets.get? f = s.db.fleets.get? f
  own : ∀ d ∈ s.made, s'.db.members.get? d = s.db.members.get? d
  others : ∀ d m, s'.db.members.get? d = some m → m.fleetId = f → s.db.members.get? d = some m
  rental : ∀ d ∈ s.made, ∀ r', s'.db.deployments.get? d = some r' →
    ∃ r, s.db.deployments.get? d = some r ∧ (r'.live = true → r.live = true) ∧
      (s.db.members.get? d = none → r'.origin = r.origin)
  outside : ∀ d ∉ s.made, ∀ r', s'.db.deployments.get? d = some r' →
    slotOfName p r'.name = none ∨ s.db.deployments.get? d = some r'

/-- What holds of a fleet and its deployments at every point of a run. -/
structure Sound (f : FleetId) (p : Text) (s : FleetHistory) : Prop where
  fleet : ∀ fleet, s.db.fleets.get? f = some fleet →
    fleet.namePrefix = p ∧ fleet.createdAt ≤ s.db.now
  unmade : s.db.fleets.get? f = none → s.made = []
  recorded : ∀ d m, s.db.members.get? d = some m → (m.fleetId = f ↔ d ∈ s.made)
  unrecorded : ∀ fleet, s.db.fleets.get? f = some fleet → ∀ d ∈ s.made,
    s.db.members.get? d = none → ∀ r, s.db.deployments.get? d = some r → fleet.Starts r
  outside : ∀ d ∉ s.made, ∀ r, s.db.deployments.get? d = some r → slotOfName p r.name = none
  distinct : ∀ d d', s.Runs d → s.Runs d' → s.slotOf p d = s.slotOf p d' → d = d'
  finished : ∀ d ∈ s.made, ∀ m, s.db.members.get? d = some m → m.finishedAt.isSome = true →
    s.db.live d = false
  nodup : s.made.Nodup

variable {f : FleetId} {p : Text} {s t u : FleetHistory} {d : DeploymentId} {fleet : FleetRow}

theorem slotOf_member {m : FleetMember} (hm : s.db.members.get? d = some m) :
    s.slotOf p d = some m.slot := by
  rw [slotOf, hm]

theorem slotOf_name {r : FleetRental} (hm : s.db.members.get? d = none)
    (hr : s.db.deployments.get? d = some r) : s.slotOf p d = slotOfName p r.name := by
  rw [slotOf, hm, hr]
  rfl

theorem slotOf_congr (hm : t.db.members.get? d = s.db.members.get? d)
    (hr : t.db.deployments.get? d = s.db.deployments.get? d) : t.slotOf p d = s.slotOf p d := by
  rw [slotOf, slotOf, hm, hr]

/-! ### What happens around -/

namespace Around

theorem refl (s : FleetHistory) : s.Around f p s where
  made := rfl
  now := le_rfl
  fleet := rfl
  own _ _ := rfl
  others _ _ hm _ := hm
  rental _ _ r hr := ⟨r, hr, id, fun _ ↦ rfl⟩
  outside _ _ _ hr := .inr hr

theorem trans (s t u : FleetHistory) (h : s.Around f p t) (h' : t.Around f p u) :
    s.Around f p u where
  made := h'.made.trans h.made
  now := h.now.trans h'.now
  fleet := h'.fleet.trans h.fleet
  own d hd := (h'.own d (h.made ▸ hd)).trans (h.own d hd)
  others d m hm hf := h.others d m (h'.others d m hm hf) hf
  rental d hd r'' hr'' := by
    obtain ⟨r', hr', hlive', horigin'⟩ := h'.rental d (h.made ▸ hd) r'' hr''
    obtain ⟨r, hr, hlive, horigin⟩ := h.rental d hd r' hr'
    refine ⟨r, hr, hlive ∘ hlive', fun hnone ↦ ?_⟩
    exact (horigin' ((h.own d hd).trans hnone)).trans (horigin hnone)
  outside d hd r'' hr'' := by
    rcases h'.outside d (h.made ▸ hd) r'' hr'' with hname | hr'
    · exact .inl hname
    · exact h.outside d hd r'' hr'

theorem mine (h : s.Around f p t) (hmine : s.Mine f fleet) : t.Mine f fleet := by
  rw [Mine, h.fleet]
  exact hmine

/-- What runs afterwards ran before, in the same slot. -/
theorem runs (h : s.Around f p t) (hd : t.Runs d) : s.Runs d ∧ t.slotOf p d = s.slotOf p d := by
  obtain ⟨hmade, hlive⟩ := hd
  rw [h.made] at hmade
  obtain ⟨r', hr', hlive'⟩ := live_iff.mp hlive
  obtain ⟨r, hr, hback, horigin⟩ := h.rental d hmade r' hr'
  refine ⟨⟨hmade, live_iff.mpr ⟨r, hr, hback hlive'⟩⟩, ?_⟩
  rw [slotOf, slotOf, h.own d hmade]
  cases hm : s.db.members.get? d with
  | some m => rfl
  | none =>
    have hname : r'.name = r.name := congrArg Prod.fst (horigin hm)
    simp only [hr', hr, Option.bind_some, hname]

theorem recorded (h : s.Around f p t) (hs : s.Recorded) : t.Recorded := by
  intro d hd
  have hbefore := (h.runs hd).1
  rw [h.own d hbefore.1]
  exact hs d hbefore

theorem sound (h : s.Around f p t) (hs : s.Sound f p) : t.Sound f p where
  fleet fleet hfleet := by
    rw [h.fleet] at hfleet
    obtain ⟨hnamed, hcreated⟩ := hs.fleet fleet hfleet
    exact ⟨hnamed, hcreated.trans h.now⟩
  unmade hnone := h.made.trans (hs.unmade (h.fleet ▸ hnone))
  recorded d m hm := by
    rw [h.made]
    constructor
    · intro hf
      exact (hs.recorded d m (h.others d m hm hf)).mp hf
    · intro hd
      rw [h.own d hd] at hm
      exact (hs.recorded d m hm).mpr hd
  unrecorded fleet hfleet d hd hnone r' hr' := by
    rw [h.fleet] at hfleet
    rw [h.made] at hd
    rw [h.own d hd] at hnone
    obtain ⟨r, hr, -, horigin⟩ := h.rental d hd r' hr'
    exact (FleetRental.starts_congr (horigin hnone)).mpr
      (hs.unrecorded fleet hfleet d hd hnone r hr)
  outside d hd r' hr' := by
    rw [h.made] at hd
    rcases h.outside d hd r' hr' with hname | hr
    · exact hname
    · exact hs.outside d hd r' hr
  distinct d d' hd hd' hslot := by
    obtain ⟨hbefore, hsame⟩ := h.runs hd
    obtain ⟨hbefore', hsame'⟩ := h.runs hd'
    rw [hsame, hsame'] at hslot
    exact hs.distinct d d' hbefore hbefore' hslot
  finished d hd m hm hfinished := by
    rw [h.made] at hd
    rw [h.own d hd] at hm
    refine Bool.eq_false_of_not_eq_true fun hlive ↦ ?_
    have hbefore := (h.runs ⟨h.made ▸ hd, hlive⟩).1
    exact nomatch hbefore.2.symm.trans (hs.finished d hd m hm hfinished)
  nodup := h.made ▸ hs.nodup

end Around

/-! ### The transactions -/

/-- What a transaction needs of the point it is made at. -/
def Ready (f : FleetId) (p : Text) : FleetTransaction → FleetHistory → Prop
  | .insertFleet request _, s => s.db.fleets.get? f = none ∧ request.namePrefix = p
  | .adoptOrphans fleet, s => s.Mine f fleet
  | .recordProgress _ done, s => ∀ d ∈ done, ¬s.Runs d
  | .createDeployment _ fleet slot, s =>
    s.Mine f fleet ∧ slot < maxTarget * 4 ∧ ∀ d, s.Runs d → s.slotOf p d ≠ some slot
  | .addMember d slot, s => d ∈ s.made ∧ (s.Runs d → s.slotOf p d = some slot)
  | _, _ => True

/-- Adopting puts in what it finds, and changes no row that is there. -/
theorem insertAll_get? (f : FleetId) (d : DeploymentId)
    (orphans : List (DeploymentId × ℕ × Time)) (members : Table DeploymentId FleetMember) :
    let after := orphans.foldl
      (fun members r ↦ members.insert r.1 ⟨f, r.2.1, r.2.2, none, false⟩) members
    (d ∉ orphans.map Prod.fst → after.get? d = members.get? d) ∧
      (d ∈ orphans.map Prod.fst →
        ∃ r ∈ orphans, r.1 = d ∧ after.get? d = some ⟨f, r.2.1, r.2.2, none, false⟩) := by
  induction orphans generalizing members with
  | nil => exact ⟨fun _ ↦ rfl, nofun⟩
  | cons r orphans ih =>
    obtain ⟨hkept, hput⟩ := ih (members.insert r.1 ⟨f, r.2.1, r.2.2, none, false⟩)
    rw [List.map_cons, List.mem_cons, not_or]
    refine ⟨fun ⟨hne, hrest⟩ ↦ (hkept hrest).trans (Table.get?_insert_ne _ hne _), fun hd ↦ ?_⟩
    by_cases hrest : d ∈ orphans.map Prod.fst
    · obtain ⟨r', hr', hrow⟩ := hput hrest
      exact ⟨r', List.mem_cons_of_mem _ hr', hrow⟩
    · obtain rfl := hd.resolve_right hrest
      exact ⟨r, List.mem_cons_self, rfl, (hkept hrest).trans (Table.get?_insert_self ..)⟩

/-- A row that adopting leaves, or puts in. -/
theorem adoptOrphans_cases (db : FleetsDb) (f : FleetId) (fleet : FleetRow) (d : DeploymentId) :
    (∃ r m, db.deployments.get? d = some r ∧ r.live = true ∧ db.members.get? d = none ∧
        fleet.Starts r ∧ (db.adoptOrphans f fleet).members.get? d = some m ∧ m.fleetId = f ∧
        slotOfName fleet.namePrefix r.name = some m.slot ∧ m.finishedAt = none) ∨
      (db.adoptOrphans f fleet).members.get? d = db.members.get? d ∧
        ∀ r, db.deployments.get? d = some r → r.live = true → db.members.get? d = none →
          ¬fleet.Starts r := by
  obtain ⟨hkept, hput⟩ := insertAll_get? f d (db.deployments.rows.filterMap (db.orphan fleet))
    db.members
  by_cases hd : d ∈ (db.deployments.rows.filterMap (db.orphan fleet)).map Prod.fst
  · obtain ⟨⟨d, slot, created⟩, hmem, rfl, hrow⟩ := hput hd
    obtain ⟨⟨d', r⟩, hr, horphan⟩ := List.mem_filterMap.mp hmem
    rw [orphan] at horphan
    split at horphan
    · next hfits =>
      obtain ⟨slot', hslot, heq⟩ := Option.map_eq_some_iff.mp horphan
      simp only [Prod.mk.injEq] at heq
      obtain ⟨rfl, rfl, rfl⟩ := heq
      obtain ⟨hworkload, howner, hcreated, hlive, hkey, hnone⟩ := hfits
      refine .inl ⟨r, _, Table.mem_rows_iff.mp hr, hlive, hnone,
        ⟨hworkload, howner, hcreated, hkey, ?_⟩, hrow, rfl, hslot, rfl⟩
      rw [hslot]
      rfl
    · cases horphan
  · refine .inr ⟨hkept hd, fun r hr hlive hnone hstarts ↦ hd ?_⟩
    obtain ⟨hworkload, howner, hcreated, hkey, hslot⟩ := hstarts
    obtain ⟨slot, hslot⟩ := Option.isSome_iff_exists.mp hslot
    refine List.mem_map.mpr ⟨(d, slot, r.createdAt),
      List.mem_filterMap.mpr ⟨(d, r), Table.mem_rows_iff.mpr hr, ?_⟩, rfl⟩
    rw [orphan, if_pos ⟨hworkload, howner, hcreated, hlive, hkey, hnone⟩, hslot]
    rfl

namespace Sound

/-- The fleet as a pass has read it. -/
theorem fleet_of_mine (hs : s.Sound f p) (hmine : s.Mine f fleet) :
    fleet.namePrefix = p ∧ fleet.createdAt ≤ s.db.now := by
  obtain ⟨row, hrow, horigin⟩ := Option.map_eq_some_iff.mp hmine
  simp only [FleetRow.origin, Prod.mk.injEq] at horigin
  rw [← horigin.1, ← horigin.2.2.2.2]
  exact hs.fleet row hrow

/-- A change of the fleet's row that leaves what orphans are found by. -/
theorem of_fleets (hs : s.Sound f p) {fleets : Table FleetId FleetRow}
    (h : (fleets.get? f).map FleetRow.origin = (s.db.fleets.get? f).map FleetRow.origin) :
    Sound f p { s with db := { s.db with fleets := fleets } } := by
  have hback : ∀ fleet, fleets.get? f = some fleet →
      ∃ row, s.db.fleets.get? f = some row ∧ fleet.origin = row.origin := by
    intro fleet hfleet
    rw [hfleet] at h
    obtain ⟨row, hrow, horigin⟩ := Option.map_eq_some_iff.mp h.symm
    exact ⟨row, hrow, horigin.symm⟩
  refine ⟨fun fleet hfleet ↦ ?_, fun hnone ↦ hs.unmade ?_, hs.recorded,
    fun fleet hfleet d hd hnone r hr ↦ ?_, hs.outside, hs.distinct, hs.finished, hs.nodup⟩
  · obtain ⟨row, hrow, horigin⟩ := hback fleet hfleet
    simp only [FleetRow.origin, Prod.mk.injEq] at horigin
    rw [horigin.1, horigin.2.2.2.2]
    exact hs.fleet row hrow
  · simp only at hnone
    rw [hnone, Option.map_none] at h
    exact Option.map_eq_none_iff.mp h.symm
  · obtain ⟨row, hrow, horigin⟩ := hback fleet hfleet
    exact (FleetRow.starts_congr horigin).mpr (hs.unrecorded row hrow d hd hnone r hr)

theorem setStatus (hs : s.Sound f p) (reason : FleetStatus) (state : Option FleetState) :
    Sound f p { s with db := s.db.setStatus f reason state } := by
  refine hs.of_fleets ?_
  rw [Table.get?_modify_self, Option.map_map]
  rfl

theorem insertFleet (hs : s.Sound f p) {request : FleetRequest} (target : FleetTarget)
    (hnone : s.db.fleets.get? f = none) (hnamed : request.namePrefix = p) :
    Sound f p { s with db := { s.db with
      fleets := s.db.fleets.insert f (s.db.newFleet request target) } } := by
  have hmade := hs.unmade hnone
  refine ⟨fun fleet hfleet ↦ ?_, fun _ ↦ hmade, hs.recorded, fun fleet hfleet d hd ↦ ?_,
    hs.outside, hs.distinct, hs.finished, hs.nodup⟩
  · obtain rfl := Option.some.inj ((Table.get?_insert_self ..).symm.trans hfleet)
    exact ⟨hnamed, le_rfl⟩
  · rw [hmade] at hd
    cases hd

/-- Which members there are changes, but the slots of the deployments do not. -/
theorem of_members (hs : s.Sound f p) {members : Table DeploymentId FleetMember}
    (hrecorded : ∀ d m, members.get? d = some m → (m.fleetId = f ↔ d ∈ s.made))
    (hkept : ∀ d ∈ s.made, members.get? d = none → s.db.members.get? d = none)
    (hslot : ∀ d, s.Runs d →
      slotOf p { s with db := { s.db with members := members } } d = s.slotOf p d)
    (hfinished : ∀ d ∈ s.made, ∀ m, members.get? d = some m → m.finishedAt.isSome = true →
      s.db.live d = false) :
    Sound f p { s with db := { s.db with members := members } } where
  fleet := hs.fleet
  unmade := hs.unmade
  recorded := hrecorded
  unrecorded fleet hfleet d hd hnone := hs.unrecorded fleet hfleet d hd (hkept d hd hnone)
  outside := hs.outside
  distinct d d' hd hd' h := by
    rw [hslot d hd, hslot d' hd'] at h
    exact hs.distinct d d' hd hd' h
  finished := hfinished
  nodup := hs.nodup

theorem adoptOrphans (hs : s.Sound f p) (hmine : s.Mine f fleet) :
    Sound f p { s with db := s.db.adoptOrphans f fleet } := by
  obtain ⟨hnamed, -⟩ := hs.fleet_of_mine hmine
  -- What is adopted is named as a member, so the fleet created it.
  have hadopted : ∀ d r, s.db.deployments.get? d = some r → fleet.Starts r → d ∈ s.made := by
    intro d r hr hstarts
    by_contra hd
    have hname := hs.outside d hd r hr
    have hslot := hstarts.2.2.2.2
    rw [hnamed, hname] at hslot
    cases hslot
  refine hs.of_members (fun d m hm ↦ ?_) (fun d hd hnone ↦ ?_) (fun d _ ↦ ?_)
    fun d hd m hm hfinished ↦ ?_
  all_goals
    rcases adoptOrphans_cases s.db f fleet d with
      ⟨r, m', hr, -, hnone', hstarts, hm', hf, hslot, hunfinished⟩ | ⟨hsame, -⟩
  · obtain rfl := Option.some.inj (hm.symm.trans hm')
    exact iff_of_true hf (hadopted d r hr hstarts)
  · exact hs.recorded d m (hsame.symm.trans hm)
  · exact hnone'
  · exact hsame.symm.trans hnone
  · rw [slotOf_member hm', slotOf_name hnone' hr, ← hnamed, hslot]
  · exact slotOf_congr hsame rfl
  · obtain rfl := Option.some.inj (hm.symm.trans hm')
    rw [hunfinished] at hfinished
    cases hfinished
  · exact hs.finished d hd m (hsame.symm.trans hm) hfinished

theorem recordProgress (hs : s.Sound f p) {ran done : List DeploymentId}
    (hdone : ∀ d ∈ done, ¬s.Runs d) :
    ((FleetTransaction.recordProgress ran done).exec f s).1.Sound f p := by
  have hget (d : DeploymentId) : (s.db.members.map fun d m ↦
      { m with
        ran := m.ran || d ∈ ran
        finishedAt := if d ∈ done then some s.db.now else m.finishedAt }).get? d =
      (s.db.members.get? d).map fun m ↦
        { m with
          ran := m.ran || d ∈ ran
          finishedAt := if d ∈ done then some s.db.now else m.finishedAt } := Table.get?_map ..
  refine hs.of_members (fun d m hm ↦ ?_) (fun d hd hnone ↦ ?_) (fun d _ ↦ ?_)
    fun d hd m hm hfinished ↦ ?_
  · rw [hget] at hm
    obtain ⟨m, hbefore, rfl⟩ := Option.map_eq_some_iff.mp hm
    exact hs.recorded d m hbefore
  · rw [hget] at hnone
    exact Option.map_eq_none_iff.mp hnone
  · rw [slotOf, slotOf, hget]
    cases s.db.members.get? d <;> rfl
  · rw [hget] at hm
    obtain ⟨m, hbefore, rfl⟩ := Option.map_eq_some_iff.mp hm
    by_cases hended : d ∈ done
    · exact Bool.eq_false_of_not_eq_true fun hlive ↦ hdone d hended ⟨hd, hlive⟩
    · rw [if_neg hended] at hfinished
      exact hs.finished d hd m hbefore hfinished

/-- To stop a deployment is nothing that could not happen around. -/
theorem around_terminate (hs : s.Sound f p) (d : DeploymentId) :
    s.Around f p { s with db := s.db.terminate d } where
  made := rfl
  now := le_rfl
  fleet := rfl
  own _ _ := rfl
  others _ _ hm _ := hm
  rental d' _ r' hr' := by
    rw [terminate_get?] at hr'
    obtain ⟨r, hr, rfl⟩ := Option.map_eq_some_iff.mp hr'
    refine ⟨r, hr, fun hlive ↦ ?_, fun _ ↦ ?_⟩
    · split at hlive
      · cases hlive
      · exact hlive
    · split <;> rfl
  outside d' hd' r' hr' := by
    rw [terminate_get?] at hr'
    obtain ⟨r, hr, rfl⟩ := Option.map_eq_some_iff.mp hr'
    refine .inl ?_
    have hname := hs.outside d' hd' r hr
    split <;> exact hname

/-- A deployment is created for a slot that nothing runs in. -/
theorem createDeployment (hs : s.Sound f p) {slot : ℕ} (hnew : s.IsNew d)
    (hmine : s.Mine f fleet) (hslot : slot < maxTarget * 4)
    (hfree : ∀ d', s.Runs d' → s.slotOf p d' ≠ some slot) :
    Sound f p { db := s.db.createRental d fleet slot, made := d :: s.made } ∧
      slotOf p { db := s.db.createRental d fleet slot, made := d :: s.made } d = some slot ∧
      ∀ d' ≠ d, slotOf p { db := s.db.createRental d fleet slot, made := d :: s.made } d' =
        s.slotOf p d' := by
  obtain ⟨hdep, hmem, hunmade⟩ := hnew
  obtain ⟨row, hrow, horigin⟩ := Option.map_eq_some_iff.mp hmine
  obtain ⟨hnamed, hcreated⟩ := hs.fleet_of_mine hmine
  have hname : slotOfName p (memberName fleet.namePrefix slot) = some slot := by
    rw [← hnamed]
    exact slotOfName_memberName _ hslot
  have hself : (s.db.createRental d fleet slot).deployments.get? d =
      some (s.db.newRental fleet slot) := Table.get?_insert_self ..
  have hrest : ∀ d' ≠ d, (s.db.createRental d fleet slot).deployments.get? d' =
      s.db.deployments.get? d' := fun d' hne ↦ Table.get?_insert_ne _ hne _
  have hslotSelf : slotOf p { db := s.db.createRental d fleet slot, made := d :: s.made } d =
      some slot := (slotOf_name (s := ⟨s.db.createRental d fleet slot, d :: s.made⟩) hmem
        hself).trans hname
  have hslotRest : ∀ d' ≠ d, slotOf p { db := s.db.createRental d fleet slot, made := d :: s.made }
      d' = s.slotOf p d' := fun d' hne ↦ slotOf_congr rfl (hrest d' hne)
  have hruns : ∀ d' ≠ d, FleetHistory.Runs
      { db := s.db.createRental d fleet slot, made := d :: s.made } d' → s.Runs d' := by
    intro d' hne ⟨hmade, hlive⟩
    refine ⟨(List.mem_cons.mp hmade).resolve_left hne, ?_⟩
    rwa [FleetsDb.live, hrest d' hne] at hlive
  refine ⟨⟨hs.fleet, fun hnone ↦ ?_, fun d' m hm ↦ ?_, fun row' hrow' d' hd' hnone r hr ↦ ?_,
    fun d' hd' r hr ↦ ?_, fun d₁ d₂ h₁ h₂ hsame ↦ ?_, fun d' hd' m hm hfinished ↦ ?_,
    List.nodup_cons.mpr ⟨hunmade, hs.nodup⟩⟩, hslotSelf, hslotRest⟩
  · exact nomatch hrow.symm.trans hnone
  · have hne : d' ≠ d := by
      rintro rfl
      exact nomatch hmem.symm.trans hm
    rw [List.mem_cons, or_iff_right hne]
    exact hs.recorded d' m hm
  · obtain rfl := Option.some.inj (hrow.symm.trans hrow')
    by_cases hd : d' = d
    · subst hd
      obtain rfl := Option.some.inj (hself.symm.trans hr)
      refine (FleetRow.starts_congr horigin).mpr ⟨rfl, rfl, hcreated, rfl, ?_⟩
      rw [hnamed]
      exact Option.isSome_iff_exists.mpr ⟨slot, hname⟩
    · exact hs.unrecorded row hrow d' ((List.mem_cons.mp hd').resolve_left hd) hnone r
        ((hrest d' hd).symm.trans hr)
  · rw [List.mem_cons, not_or] at hd'
    obtain ⟨hne, hd'⟩ := hd'
    exact hs.outside d' hd' r ((hrest d' hne).symm.trans hr)
  · -- Nothing that ran before has the slot.
    by_cases hd₁ : d₁ = d
    · subst hd₁
      by_cases hd₂ : d₂ = d₁
      · exact hd₂.symm
      · rw [hslotSelf, hslotRest d₂ hd₂] at hsame
        exact absurd hsame.symm (hfree d₂ (hruns d₂ hd₂ h₂))
    · by_cases hd₂ : d₂ = d
      · subst hd₂
        rw [hslotSelf, hslotRest d₁ hd₁] at hsame
        exact absurd hsame (hfree d₁ (hruns d₁ hd₁ h₁))
      · rw [hslotRest d₁ hd₁, hslotRest d₂ hd₂] at hsame
        exact hs.distinct d₁ d₂ (hruns d₁ hd₁ h₁) (hruns d₂ hd₂ h₂) hsame
  · have hne : d' ≠ d := by
      rintro rfl
      exact nomatch hmem.symm.trans hm
    have hended := hs.finished d' ((List.mem_cons.mp hd').resolve_left hne) m hm hfinished
    rwa [FleetsDb.live, hrest d' hne]

theorem addMember (hs : s.Sound f p) {slot : ℕ} (hmade : d ∈ s.made)
    (hslot : s.Runs d → s.slotOf p d = some slot) :
    Sound f p { s with db := s.db.addMember f d slot } := by
  have hself : (s.db.addMember f d slot).members.get? d =
      some ⟨f, slot, s.db.now, none, false⟩ := Table.get?_insert_self ..
  have hrest : ∀ d' ≠ d, (s.db.addMember f d slot).members.get? d' = s.db.members.get? d' :=
    fun d' hne ↦ Table.get?_insert_ne _ hne _
  refine hs.of_members (fun d' m hm ↦ ?_) (fun d' _ hnone ↦ ?_) (fun d' hd' ↦ ?_)
    fun d' hd' m hm hfinished ↦ ?_
  all_goals by_cases hd : d' = d
  · subst hd
    obtain rfl := Option.some.inj (hself.symm.trans hm)
    exact iff_of_true rfl hmade
  · exact hs.recorded d' m ((hrest d' hd).symm.trans hm)
  · subst hd
    exact nomatch hself.symm.trans hnone
  · exact (hrest d' hd).symm.trans hnone
  · subst hd
    exact (slotOf_member hself).trans (hslot hd').symm
  · exact slotOf_congr (hrest d' hd) rfl
  · subst hd
    obtain rfl := Option.some.inj (hself.symm.trans hm)
    cases hfinished
  · exact hs.finished d' hd' m ((hrest d' hd).symm.trans hm) hfinished

/-- What every transaction keeps. -/
theorem exec (hs : s.Sound f p) {o : FleetTransaction} (ready : Ready f p o s) :
    (o.exec f s).1.Sound f p := by
  cases o with
  | read => exact hs
  | insertFleet request target => exact hs.insertFleet target ready.1 ready.2
  | changeFleet target paused =>
    by_cases hstopped : ((s.db.fleets.get? f).all fun fleet ↦ fleet.state = .stopped) = true
    · rw [show (FleetTransaction.changeFleet target paused).exec f s = (s, false) from
        if_pos hstopped]
      exact hs
    · rw [show (FleetTransaction.changeFleet target paused).exec f s = _ from if_neg hstopped]
      refine hs.of_fleets ?_
      rw [Table.get?_modify_self, Option.map_map]
      exact congrArg (fun g ↦ (s.db.fleets.get? f).map g)
        (funext fun fleet ↦ origin_updatedRow s.db target paused fleet)
  | markStopped keepRunning => exact hs.setStatus _ _
  | adoptOrphans fleet => exact hs.adoptOrphans ready
  | recordProgress ran done => exact hs.recordProgress ready
  | setStatus reason state => exact hs.setStatus _ _
  | terminate d => exact (hs.around_terminate d).sound hs
  | createDeployment d fleet slot =>
    by_cases hnew : s.IsNew d
    · rw [show (FleetTransaction.createDeployment d fleet slot).exec f s = _ from if_pos hnew]
      exact (hs.createDeployment hnew ready.1 ready.2.1 ready.2.2).1
    · rw [show (FleetTransaction.createDeployment d fleet slot).exec f s = _ from if_neg hnew]
      exact hs
  | addMember d slot => exact hs.addMember ready.1 ready.2

end Sound

/-! ### The calls -/

/-- Throughout the program the fleet is sound, and every transaction is made where it is ready. -/
abbrev Keeps (f : FleetId) (p : Text) {α : Type} (prog : Program FleetInterface α)
    (Q : α → FleetHistory → Prop) (s : FleetHistory) : Prop :=
  prog.Throughout (fleetService f).toMachine (Around f p) (fun o s ↦ s.Sound f p ∧ Ready f p o s) Q s

/-- How a call ends: soundly, and under a condition with every deployment recorded. -/
def Ends (f : FleetId) (p : Text) (R : Prop) (s : FleetHistory) : Prop :=
  s.Sound f p ∧ (R → s.Recorded)

/-- A pass has recorded every live deployment, and knows the slots of all. -/
structure Reads (f : FleetId) (p : Text) (fleet : FleetRow)
    (live : List (DeploymentId × FleetMember)) (s : FleetHistory) : Prop where
  mine : s.Mine f fleet
  recorded : s.Recorded
  sees : ∀ d, s.Runs d → ∃ m, (d, m) ∈ live ∧ s.slotOf p d = some m.slot

/-- The slots in use are those of all live deployments. -/
structure Covers (f : FleetId) (p : Text) (fleet : FleetRow) (used : List ℕ) (s : FleetHistory) :
    Prop where
  mine : s.Mine f fleet
  recorded : s.Recorded
  used : ∀ d, s.Runs d → ∃ slot ∈ used, s.slotOf p d = some slot

variable {R : Prop} {finds : PassFinds}

theorem Ends.around (h : s.Ends f p R) (hst : s.Around f p t) : t.Ends f p R :=
  ⟨hst.sound h.1, fun hR ↦ hst.recorded (h.2 hR)⟩

theorem Reads.around {live : List (DeploymentId × FleetMember)} (h : s.Reads f p fleet live)
    (hst : s.Around f p t) : t.Reads f p fleet live where
  mine := hst.mine h.mine
  recorded := hst.recorded h.recorded
  sees d hd := by
    obtain ⟨hbefore, hslot⟩ := hst.runs hd
    rw [hslot]
    exact h.sees d hbefore

theorem Covers.around {used : List ℕ} (h : s.Covers f p fleet used) (hst : s.Around f p t) :
    t.Covers f p fleet used where
  mine := hst.mine h.mine
  recorded := hst.recorded h.recorded
  used d hd := by
    obtain ⟨hbefore, hslot⟩ := hst.runs hd
    rw [hslot]
    exact h.used d hbefore

/-- The slots of the members that are live are in use, and any others may be. -/
theorem Reads.covers {live : List (DeploymentId × FleetMember)} (h : s.Reads f p fleet live)
    (ran : List ℕ) : s.Covers f p fleet (live.map (fun r ↦ r.2.slot) ++ ran) where
  mine := h.mine
  recorded := h.recorded
  used d hd := by
    obtain ⟨m, hm, hslot⟩ := h.sees d hd
    exact ⟨m.slot, List.mem_append_left _ (List.mem_map.mpr ⟨(d, m), hm, rfl⟩), hslot⟩

theorem Covers.ends {used : List ℕ} (h : s.Covers f p fleet used) (hs : s.Sound f p) :
    s.Ends f p R := ⟨hs, fun _ ↦ h.recorded⟩

/-- A slot that is not in use is free for a new member. -/
theorem Covers.ready {used : List ℕ} {slot : ℕ} (h : s.Covers f p fleet used)
    (hbound : slot < maxTarget * 4) (hfree : slot ∉ used) (d : DeploymentId) :
    Ready f p (.createDeployment d fleet slot) s := by
  refine ⟨h.mine, hbound, fun d' hd' hsame ↦ ?_⟩
  obtain ⟨slot', hused, hslot'⟩ := h.used d' hd'
  obtain rfl := Option.some.inj (hsame.symm.trans hslot')
  exact hfree hused

/-- A member that is created for a free slot and recorded. -/
theorem Covers.start {used : List ℕ} {slot : ℕ} (h : s.Covers f p fleet used) (hs : s.Sound f p)
    (hnew : s.IsNew d) (hslot : slot < maxTarget * 4) (hfree : slot ∉ used)
    (hadd : Around f p ⟨s.db.createRental d fleet slot, d :: s.made⟩ t) :
    Ready f p (.addMember d slot) t ∧
      Covers f p fleet (slot :: used) { t with db := t.db.addMember f d slot } := by
  obtain ⟨-, hself, hrest⟩ :=
    hs.createDeployment hnew h.mine hslot (h.ready hslot hfree d).2.2
  have hmember (d' : DeploymentId) (hne : d' ≠ d) :
      (t.db.addMember f d slot).members.get? d' = t.db.members.get? d' :=
    Table.get?_insert_ne _ hne _
  have hadded : (t.db.addMember f d slot).members.get? d =
      some ⟨f, slot, t.db.now, none, false⟩ := Table.get?_insert_self ..
  -- What else runs at the end has run before, in the same slot.
  have hothers : ∀ d' ≠ d, t.Runs d' → s.Runs d' ∧ t.slotOf p d' = s.slotOf p d' := by
    intro d' hne hd'
    obtain ⟨⟨hmade, hlive⟩, hsame⟩ := hadd.runs hd'
    refine ⟨⟨(List.mem_cons.mp hmade).resolve_left hne, ?_⟩, hsame.trans (hrest d' hne)⟩
    rwa [FleetsDb.live, show (s.db.createRental d fleet slot).deployments.get? d' =
      s.db.deployments.get? d' from Table.get?_insert_ne _ hne _] at hlive
  refine ⟨⟨?_, fun hd ↦ (hadd.runs hd).2.trans hself⟩, hadd.mine h.mine, fun d' hd' ↦ ?_,
    fun d' hd' ↦ ?_⟩
  · rw [hadd.made]
    exact List.mem_cons_self
  · by_cases hne : d' = d
    · rw [hne]
      exact Option.isSome_iff_exists.mpr ⟨_, hadded⟩
    · have hbefore := (hothers d' hne hd').1
      have hown : t.db.members.get? d' = s.db.members.get? d' :=
        hadd.own d' (List.mem_cons_of_mem _ hbefore.1)
      refine (congrArg Option.isSome ((hmember d' hne).trans hown)).trans ?_
      exact h.recorded d' hbefore
  · by_cases hne : d' = d
    · rw [hne]
      exact ⟨slot, List.mem_cons_self,
        slotOf_member (s := { t with db := t.db.addMember f d slot }) hadded⟩
    · obtain ⟨hbefore, hsame⟩ := hothers d' hne hd'
      obtain ⟨slot', hused, hslot'⟩ := h.used d' hbefore
      refine ⟨slot', List.mem_cons_of_mem _ hused, ?_⟩
      exact (slotOf_congr (s := t) (t := { t with db := t.db.addMember f d slot })
        (hmember d' hne) rfl).trans (hsame.trans hslot')

theorem Reads.recordProgress {live : List (DeploymentId × FleetMember)}
    (h : s.Reads f p fleet live) (ran done : List DeploymentId) :
    ((FleetTransaction.recordProgress ran done).exec f s).1.Reads f p fleet live := by
  have hget (d : DeploymentId) :
      ((FleetTransaction.recordProgress ran done).exec f s).1.db.members.get? d =
        (s.db.members.get? d).map fun m ↦
          { m with
            ran := m.ran || d ∈ ran
            finishedAt := if d ∈ done then some s.db.now else m.finishedAt } := Table.get?_map ..
  refine ⟨h.mine, fun d hd ↦ ?_, fun d hd ↦ ?_⟩
  · rw [hget, Option.isSome_map]
    exact h.recorded d hd
  · obtain ⟨m, hm, hslot⟩ := h.sees d hd
    refine ⟨m, hm, ?_⟩
    rw [← hslot, slotOf, slotOf, hget]
    cases s.db.members.get? d <;> rfl

/-- Once its orphans are adopted, every deployment of the fleet that runs is recorded. -/
theorem Sound.recorded_adoptOrphans (hs : s.Sound f p) (hfleet : s.db.fleets.get? f = some fleet) :
    Recorded { s with db := s.db.adoptOrphans f fleet } := by
  intro d hd
  obtain ⟨r, hr, hlive⟩ := live_iff.mp hd.2
  rcases adoptOrphans_cases s.db f fleet d with ⟨-, m, -, -, -, -, hm, -⟩ | ⟨hsame, hnever⟩
  · exact Option.isSome_iff_exists.mpr ⟨m, hm⟩
  · cases hm : s.db.members.get? d with
    | some m => exact Option.isSome_iff_exists.mpr ⟨m, hsame.trans hm⟩
    | none =>
      exact absurd (hs.unrecorded fleet hfleet d hd.1 hm r hr) (hnever r hr hlive hm)

/-- What a pass reads in two queries, of the members and then of their deployments. -/
theorem Sound.reads (hs : s.Sound f p) (hmine : s.Mine f fleet) (h : s.Recorded)
    (hst : s.Around f p t) :
    t.Reads f p fleet ((s.db.memberRows f).filter fun r ↦ t.db.live r.1) := by
  refine ⟨hst.mine hmine, hst.recorded h, fun d hd ↦ ?_⟩
  obtain ⟨hbefore, hslot⟩ := hst.runs hd
  obtain ⟨m, hm⟩ := Option.isSome_iff_exists.mp (h d hbefore)
  have hf : m.fleetId = f := (hs.recorded d m hm).mpr hbefore.1
  have hrecent : s.db.recent m = true := by
    cases hfinished : m.finishedAt with
    | none => rw [recent, hfinished]; rfl
    | some ended =>
      have hended := hs.finished d hbefore.1 m hm (by rw [hfinished]; rfl)
      cases hended.symm.trans hbefore.2
  have hrow : (d, m) ∈ s.db.memberRows f :=
    FleetCalls.mem_memberRows.mpr ⟨hm, by rw [hrecent, Bool.and_true]; exact decide_eq_true hf⟩
  exact ⟨m, List.mem_filter.mpr ⟨hrow, hd.2⟩, hslot.trans (slotOf_member hm)⟩

namespace Keeps

theorem done {α : Type} {a : α} {Q : α → FleetHistory → Prop}
    (h : ∀ t, s.Around f p t → Q a t) : Keeps f p (pure a) Q s := h

/-- A transaction that is ready, then the rest. -/
theorem op {α : Type} {o : FleetTransaction} {k : o.Ans → Program FleetInterface α}
    {Q : α → FleetHistory → Prop} (hs : s.Sound f p)
    (ready : ∀ t, s.Around f p t → Ready f p o t)
    (rest : ∀ t, s.Around f p t → (o.exec f t).1.Sound f p →
      Keeps f p (k (o.exec f t).2) Q (o.exec f t).1) :
    Keeps f p (FleetCalls.transact o >>= k) Q s :=
  Program.Throughout.op_bind fun t hst ↦
    ⟨⟨hst.sound hs, ready t hst⟩, rest t hst ((hst.sound hs).exec (ready t hst))⟩

theorem setStatus (h : s.Ends f p R) (reason : FleetStatus) (state : Option FleetState) :
    Keeps f p (FleetCalls.transact (.setStatus reason state)) (fun _ ↦ Ends f p R) s := by
  intro t hst
  have ht := h.around hst
  refine ⟨⟨ht.1, trivial⟩, fun u htu ↦ ?_⟩
  have hset : Ends f p R ((FleetTransaction.setStatus reason state).exec f t).1 :=
    ⟨ht.1.setStatus reason state, ht.2⟩
  exact hset.around htu

theorem terminateAll (ds : List DeploymentId) (h : s.Ends f p R) :
    Keeps f p (FleetCalls.terminateAll ds) (fun _ ↦ Ends f p R) s := by
  induction ds generalizing s with
  | nil => exact done fun t hst ↦ h.around hst
  | cons d ds ih =>
    refine op h.1 (fun _ _ ↦ trivial) fun t hst _ ↦ ih ?_
    have ht := h.around hst
    exact ht.around (ht.1.around_terminate d)

theorem uses_recordProgress {rows : List (DeploymentId × FleetMember)} {seen : FleetsDb} :
    (FleetCalls.recordProgress rows seen).Uses fun o : FleetTransaction ↦
      ∃ ran done, o = .recordProgress ran done := by
  unfold FleetCalls.recordProgress
  simp only
  split
  · trivial
  · exact ⟨⟨_, _, rfl⟩, fun _ ↦ trivial⟩

/-- Who has been seen to end has ended. -/
theorem recordProgress {rows : List (DeploymentId × FleetMember)} {seen : FleetsDb}
    (hs : s.Sound f p) (hseen : ∀ r ∈ rows, s.Runs r.1 → seen.live r.1 = true) :
    Keeps f p (FleetCalls.recordProgress rows seen) (fun _ ↦ Sound f p) s := by
  unfold FleetCalls.recordProgress
  simp only
  split
  · exact done fun t hst ↦ hst.sound hs
  · intro t hst
    have hended : ∀ d ∈ (rows.filter fun r ↦
        r.2.finishedAt = none && !seen.live r.1).map Prod.fst, ¬t.Runs d := by
      intro d hd hruns
      obtain ⟨r, hr, rfl⟩ := List.mem_map.mp hd
      obtain ⟨hrow, hnot⟩ := List.mem_filter.mp hr
      rw [hseen r hrow (hst.runs hruns).1, Bool.not_true, Bool.and_false] at hnot
      cases hnot
    refine ⟨⟨hst.sound hs, hended⟩, fun u htu ↦ ?_⟩
    exact htu.sound ((hst.sound hs).recordProgress hended)

theorem startMembers (needed : ℕ) {creates : List CreateAnswer} {used : List ℕ}
    (hs : s.Sound f p) (h : s.Covers f p fleet used) (cut : R → ∀ d, .stopped d ∉ creates) :
    Keeps f p (FleetCalls.startMembers fleet needed creates used) (fun _ ↦ Ends f p R) s := by
  induction needed generalizing s creates used with
  | zero => exact done fun t hst ↦ (h.ends hs).around hst
  | succ needed ih =>
    cases creates with
    | nil => exact done fun t hst ↦ (h.ends hs).around hst
    | cons answer creates =>
      unfold FleetCalls.startMembers
      cases hslot : freeSlot used with
      | none => exact done fun t hst ↦ (h.ends hs).around hst
      | some slot =>
        obtain ⟨hbound, hfree⟩ := freeSlot_spec hslot
        have hready (d : DeploymentId) : ∀ t, s.Around f p t →
            Ready f p (.createDeployment d fleet slot) t :=
          fun t hst ↦ (h.around hst).ready hbound hfree d
        cases answer with
        | refused refusal => exact done fun t hst ↦ (h.ends hs).around hst
        | stopped d =>
          refine op hs (hready d) fun t hst ht ↦ done fun u htu ↦ ?_
          exact ⟨htu.sound ht, fun hR ↦ absurd List.mem_cons_self (cut hR d)⟩
        | created d =>
          refine op hs (hready d) fun t hst ht ↦ ?_
          by_cases hnew : t.IsNew d
          · have hcreate : (FleetTransaction.createDeployment d fleet slot).exec f t =
                (⟨t.db.createRental d fleet slot, d :: t.made⟩, true) := if_pos hnew
            rw [hcreate] at ht ⊢
            have hstart : ∀ u, Around f p ⟨t.db.createRental d fleet slot, d :: t.made⟩ u →
                Ready f p (.addMember d slot) u ∧
                  Covers f p fleet (slot :: used) { u with db := u.db.addMember f d slot } :=
              fun u htu ↦ (h.around hst).start (hst.sound hs) hnew hbound hfree htu
            refine op ht (fun u htu ↦ (hstart u htu).1) fun u htu hu ↦ ?_
            refine Program.Throughout.bind .refl ?_
            refine (ih hu (hstart u htu).2 fun hR d' hd' ↦ ?_).mono fun out v hv ↦ ?_
            · exact cut hR d' (List.mem_cons_of_mem _ hd')
            · exact done fun w hvw ↦ hv.around hvw
          · -- The exception ends the loop.
            have hcreate : (FleetTransaction.createDeployment d fleet slot).exec f t = (t, false) :=
              if_neg hnew
            rw [hcreate]
            exact done fun u htu ↦ ((h.ends hs).around hst).around htu

theorem startNeeded {live : List (DeploymentId × FleetMember)} (needed : ℤ) (hs : s.Sound f p)
    (h : s.Reads f p fleet live) (cut : R → ∀ d, .stopped d ∉ finds.creates) :
    Keeps f p (FleetCalls.startNeeded f fleet live needed finds) (fun _ ↦ Ends f p R) s := by
  refine op hs (fun _ _ ↦ trivial) fun t hst ht ↦ ?_
  refine Program.Throughout.bind .refl ?_
  refine (startMembers _ ht ((h.around hst).covers _) cut).mono fun out u hu ↦ ?_
  unfold FleetCalls.noteStarts
  split
  · exact setStatus hu _ _
  · exact setStatus hu _ _
  · exact setStatus hu _ _
  · exact done fun v huv ↦ hu.around huv

theorem fill {rows : List (DeploymentId × FleetMember)} {seen : FleetsDb} (hs : s.Sound f p)
    (h : s.Reads f p fleet (rows.filter fun r ↦ seen.live r.1))
    (cut : R → ∀ d, .stopped d ∉ finds.creates) :
    Keeps f p (FleetCalls.fill f fleet rows seen finds) (fun _ ↦ Ends f p R) s := by
  have hends : s.Ends f p R := ⟨hs, fun _ ↦ h.recorded⟩
  unfold FleetCalls.fill
  simp only
  split
  · exact setStatus hends _ _
  · split
    · refine Program.Throughout.bind .refl ?_
      exact (terminateAll _ hends).mono fun _ t ht ↦ setStatus ht _ _
    · refine op hs (fun _ _ ↦ trivial) fun t hst ht ↦ ?_
      have ht' := hends.around hst
      split
      · split
        · exact setStatus ht' _ _
        · exact setStatus ht' _ _
      · split
        · exact setStatus ht' _ _
        · split
          · exact setStatus ht' _ _
          · exact startNeeded _ ht (h.around hst) cut

/-- A pass leaves the fleet sound; one over an active fleet that is not cut short leaves every
deployment that runs recorded. -/
theorem reconcileLocked (hs : s.Sound f p)
    (cut : R → (s.db.fleets.get? f).map FleetRow.state = some .active ∧
      ∀ d, .stopped d ∉ finds.creates) :
    Keeps f p (FleetCalls.reconcileLocked f finds) (fun _ ↦ Ends f p R) s := by
  refine op hs (fun _ _ ↦ trivial) fun t hst ht ↦ ?_
  rw [← hst.fleet] at cut
  dsimp only [FleetTransaction.exec]
  cases hfleet : t.db.fleets.get? f with
  | none =>
    refine done fun u htu ↦ ⟨htu.sound ht, fun hR ↦ ?_⟩
    rw [hfleet] at cut
    cases (cut hR).1
  | some fleet =>
    rw [hfleet] at cut
    have hover (hstate : fleet.state ≠ .active) (hR : R) : False :=
      hstate (Option.some.inj (cut hR).1)
    have hmine : t.Mine f fleet := by rw [Mine, hfleet]; rfl
    simp only
    cases hstate : fleet.state with
    | active =>
      refine op ht (fun u htu ↦ htu.mine hmine) fun u htu hu ↦ ?_
      have hrecorded := (htu.sound ht).recorded_adoptOrphans (htu.fleet.trans hfleet)
      refine op hu (fun _ _ ↦ trivial) fun v huv hv ↦ op hv (fun _ _ ↦ trivial) fun w hvw hw ↦ ?_
      have hreads := hv.reads (huv.mine (htu.mine hmine)) (huv.recorded hrecorded) hvw
      refine Program.Throughout.bind .refl ?_
      refine ((recordProgress hw fun r _ hr ↦ hr.2).carry uses_recordProgress
        (fun _ _ hxy hx ↦ hx.around hxy) ?_ hreads).mono fun _ x hx ↦
          fill hx.1 hx.2 fun hR ↦ (cut hR).2
      rintro _ x ⟨ran, done, rfl⟩ hx
      exact hx.recordProgress ran done
    | paused =>
      refine op ht (fun _ _ ↦ trivial) fun u _ hu ↦ op hu (fun _ _ ↦ trivial) fun v _ hv ↦ ?_
      refine Program.Throughout.bind .refl ?_
      refine (recordProgress hv fun r _ hr ↦ hr.2).mono fun _ w hw ↦ ?_
      have hends : w.Ends f p R := ⟨hw, fun hR ↦ (hover (by rw [hstate]; decide) hR).elim⟩
      split
      · exact terminateAll _ hends
      · exact done fun x hwx ↦ hends.around hwx
    | completed => exact done fun u htu ↦ ⟨htu.sound ht, fun hR ↦
        (hover (by rw [hstate]; decide) hR).elim⟩
    | stopped => exact done fun u htu ↦ ⟨htu.sound ht, fun hR ↦
        (hover (by rw [hstate]; decide) hR).elim⟩

theorem createFleet {request : FleetRequest} (hs : s.Sound f p)
    (hnone : s.db.fleets.get? f = none) (hnamed : request.namePrefix = p) :
    Keeps f p (FleetCalls.createFleet f request finds) (fun _ ↦ Sound f p) s := by
  unfold FleetCalls.createFleet
  split
  · exact done fun t hst ↦ hst.sound hs
  · split
    · exact done fun t hst ↦ hst.sound hs
    · split
      · exact done fun t hst ↦ hst.sound hs
      · refine op hs (fun _ _ ↦ trivial) fun t hst ht ↦ ?_
        split
        · exact done fun u htu ↦ htu.sound ht
        · split
          · exact done fun u htu ↦ htu.sound ht
          · refine op ht (fun u htu ↦ ⟨?_, hnamed⟩) fun u _ hu ↦ ?_
            · exact (htu.fleet.trans hst.fleet).trans hnone
            · exact (reconcileLocked (R := False) hu nofun).mono fun _ _ hv ↦ hv.1

theorem updateFleet (target : Option ℤ) (paused : Option Bool) (hs : s.Sound f p) :
    Keeps f p (FleetCalls.updateFleet f target paused finds) (fun _ ↦ Sound f p) s := by
  refine op hs (fun _ _ ↦ trivial) fun t _ ht ↦ ?_
  split
  · refine op ht (fun _ _ ↦ trivial) fun u _ hu ↦ ?_
    split
    · exact (reconcileLocked (R := False) hu nofun).mono fun _ _ hv ↦ hv.1
    · exact done fun v huv ↦ huv.sound hu
  · exact done fun u htu ↦ htu.sound ht

theorem stopFleet (keepRunning : Bool) (unstoppable : List DeploymentId) (hs : s.Sound f p) :
    Keeps f p (FleetCalls.stopFleet f keepRunning unstoppable) (fun _ ↦ Sound f p) s := by
  refine op hs (fun _ _ ↦ trivial) fun t _ ht ↦ ?_
  split
  · exact done fun u htu ↦ htu.sound ht
  · refine op ht (fun _ _ ↦ trivial) fun u _ hu ↦ op hu (fun _ _ ↦ trivial) fun v _ hv ↦ ?_
    exact (terminateAll (R := False) _ ⟨hv, nofun⟩).mono fun _ _ hw ↦ hw.1

end Keeps

/-! ### Runs -/

/-- The calls on one fleet: it is created once, under a new identifier and with that prefix. -/
def Allowed (f : FleetId) (p : Text) : FleetsCall → Option FleetTransaction → FleetHistory → Prop
  | .createFleet request _, _, s => s.db.fleets.get? f = none ∧ request.namePrefix = p
  | _, _, _ => True

instance (c : FleetsCall) (o : Option FleetTransaction) (s : FleetHistory) :
    Decidable (Allowed f p c o s) := by
  cases c <;> unfold Allowed <;> infer_instance

/-- Nothing is there of the fleet, and nothing is named as a member of it. -/
structure Before (f : FleetId) (p : Text) (s : FleetHistory) : Prop where
  made : s.made = []
  fleet : s.db.fleets.get? f = none
  members : ∀ d m, s.db.members.get? d = some m → m.fleetId ≠ f
  outside : ∀ d r, s.db.deployments.get? d = some r → slotOfName p r.name = none

theorem Before.sound (h : s.Before f p) : s.Sound f p where
  fleet fleet hfleet := nomatch h.fleet.symm.trans hfleet
  unmade _ := h.made
  recorded d m hm := by
    rw [h.made]
    exact iff_of_false (h.members d m hm) List.not_mem_nil
  unrecorded fleet hfleet := nomatch h.fleet.symm.trans hfleet
  outside d _ r hr := h.outside d r hr
  distinct d _ hd := by
    rw [Runs, h.made] at hd
    exact absurd hd.1 List.not_mem_nil
  finished d hd := by
    rw [h.made] at hd
    cases hd
  nodup := h.made ▸ List.nodup_nil

/-- At every point of a run, wherever the gateway has died, the fleet is sound. -/
theorem sound_of_run {s₀ : FleetHistory} {prog : Program FleetInterface Unit}
    (start : s₀.Before f p)
    (run : (fleetService f).Alone (Around f p) (Allowed f p) s₀ prog s) : s.Sound f p := by
  have h : Keeps f p prog (fun _ ↦ Sound f p) s := by
    refine run.throughout .refl .trans (fun _ _ hst hs ↦ hst.sound hs) start.sound
      (fun _ _ _ h _ ↦ h.1) fun c o t hc ht ↦ ?_
    cases c with
    | createFleet request finds => exact Keeps.createFleet ht hc.1 hc.2
    | updateFleet target paused finds => exact Keeps.updateFleet target paused ht
    | stopFleet keepRunning unstoppable => exact Keeps.stopFleet keepRunning unstoppable ht
    | reconcile finds => exact (Keeps.reconcileLocked (R := False) ht nofun).mono fun _ _ h ↦ h.1
  cases prog with
  | done a => exact h s (.refl s)
  | call o k => exact (h s (.refl s)).1.1

/-! ## How many are live -/

/-- How many live deployments the fleet has created. -/
def liveMade (s : FleetHistory) : ℕ := (s.made.filter fun d ↦ s.db.live d).length

namespace Sound

theorem liveMembers_eq (hs : s.Sound f p) (h : s.Recorded) : s.db.liveMembers f = s.liveMade := by
  refine Table.count_eq_length (hs.nodup.filter _) fun d ↦ ?_
  rw [List.mem_filter]
  constructor
  · rintro ⟨hmade, hlive⟩
    obtain ⟨m, hm⟩ := Option.isSome_iff_exists.mp (h d ⟨hmade, hlive⟩)
    exact ⟨m, hm, Bool.and_eq_true_iff.mpr ⟨decide_eq_true ((hs.recorded d m hm).mpr hmade), hlive⟩⟩
  · rintro ⟨m, hm, hlive⟩
    rw [Bool.and_eq_true, decide_eq_true_eq] at hlive
    exact ⟨(hs.recorded d m hm).mp hlive.1, hlive.2⟩

end Sound

end FleetHistory

namespace FleetsDb

variable {s : FleetsDb} {f : FleetId} {fleet : FleetRow} {finds : PassFinds}

/-- Stopping live members takes them out of the count, one by one. -/
theorem liveMembers_terminateAll_add {ds : List DeploymentId} (hnodup : ds.Nodup)
    (h : ∀ d ∈ ds, ∃ m, s.members.get? d = some m ∧ m.fleetId = f ∧ s.live d = true) :
    (ds.foldl terminate s).liveMembers f + ds.length = s.liveMembers f := by
  have hstopped : (s.members.count fun d m ↦
      (m.fleetId = f && isLive (s.deployments.get? d)) && d ∈ ds) = ds.length := by
    refine Table.count_eq_length hnodup fun d ↦ ?_
    simp only [Bool.and_eq_true, decide_eq_true_eq]
    constructor
    · intro hd
      obtain ⟨m, hm, hf, hlive⟩ := h d hd
      exact ⟨m, hm, ⟨hf, hlive⟩, hd⟩
    · rintro ⟨m, -, -, hd⟩
      exact hd
  have hleft : (ds.foldl terminate s).liveMembers f = s.members.count fun d m ↦
      (m.fleetId = f && isLive (s.deployments.get? d)) && !decide (d ∈ ds) := by
    rw [liveMembers, numMembers, terminateAll_members]
    refine Table.count_congr fun d m _ ↦ ?_
    rw [(terminateAll_get? ds d).1, Bool.and_assoc, decide_not]
  rw [hleft, ← hstopped, Nat.add_comm, liveMembers, numMembers]
  exact (s.members.count_split _ _).symm

/-- The members beyond the target are that many, and live. -/
theorem extras_spec (hlen : (s.liveRows f).length = s.liveMembers f) (target : ℕ) :
    (s.extras target (s.liveRows f)).Nodup ∧
      (s.extras target (s.liveRows f)).length = s.liveMembers f - target ∧
      ∀ d ∈ s.extras target (s.liveRows f),
        ∃ m, s.members.get? d = some m ∧ m.fleetId = f ∧ s.live d = true := by
  refine ⟨?_, ?_, fun d hd ↦ ?_⟩
  · have hrows : ((s.memberRows f).map Prod.fst).Nodup :=
      (((List.perm_insertionSort older _).map Prod.fst).nodup_iff).mpr (Table.nodup_select _ _)
    have hlive : ((s.liveRows f).map Prod.fst).Nodup :=
      hrows.sublist (List.filter_sublist.map _)
    have hsorted := (((List.perm_insertionSort s.stopsBefore (s.liveRows f)).map
      Prod.fst).nodup_iff).mpr hlive
    exact hsorted.sublist ((List.take_sublist _ _).map _)
  · rw [extras, List.length_map, List.length_take, List.length_insertionSort, hlen]
    exact min_eq_left (Nat.sub_le _ _)
  · obtain ⟨⟨d, m⟩, hr, rfl⟩ := List.mem_map.mp hd
    have hrow := (List.mem_insertionSort _).mp (List.mem_of_mem_take hr)
    obtain ⟨hrow, hlive⟩ := List.mem_filter.mp hrow
    obtain ⟨hm, hf⟩ := FleetCalls.mem_memberRows.mp hrow
    rw [Bool.and_eq_true, decide_eq_true_eq] at hf
    exact ⟨m, hm, hf.1, hlive⟩

/-- What stopping the extras leaves. -/
theorem liveMembers_stopExtras (hlen : (s.liveRows f).length = s.liveMembers f) (target : ℕ)
    (unstoppable : List DeploymentId) :
    ((s.recordProgress f).stopExtras target (s.liveRows f) unstoppable).liveMembers f ≤
        s.liveMembers f ∧
      (unstoppable = [] →
        ((s.recordProgress f).stopExtras target (s.liveRows f) unstoppable).liveMembers f +
          (s.liveMembers f - target) = s.liveMembers f) := by
  obtain ⟨hnodup, hcount, hmember⟩ := extras_spec hlen target
  have hstop : ((s.recordProgress f).stopExtras target (s.liveRows f) unstoppable).liveMembers f +
      ((s.extras target (s.liveRows f)).filter fun d ↦ d ∉ unstoppable).length =
        s.liveMembers f := by
    refine (liveMembers_terminateAll_add (s := s.recordProgress f) (hnodup.filter _)
      fun d hd ↦ ?_).trans recordProgress_liveMembers
    obtain ⟨m, hm, hf, hlive⟩ := hmember d (List.mem_filter.mp hd).1
    refine ⟨_, (Table.get?_map ..).trans (congrArg (Option.map _) hm), ?_, hlive⟩
    dsimp only
    split <;> exact hf
  refine ⟨by omega, ?_⟩
  rintro rfl
  rwa [List.filter_eq_self.mpr fun d _ ↦ decide_eq_true List.not_mem_nil, hcount] at hstop

/-- A pass starts no more members than the fleet lacks. -/
theorem liveMembers_startNeeded {live : List (DeploymentId × FleetMember)}
    (hnew : s.NewIds finds.creates) (hlen : live.length = s.liveMembers f) :
    (s.startNeeded f fleet live finds).liveMembers f ≤ max (fleet.target : ℕ) (s.liveMembers f) := by
  set used := live.map (fun r ↦ r.2.slot) ++ if fleet.replace then [] else s.ranSlots f with hused
  set allowed := min (s.needed f fleet live) (affordable finds (s.needed f fleet live))
    with hallowed
  have hafter : (s.startNeeded f fleet live finds).liveMembers f =
      (startMembers f fleet allowed.toNat finds.creates used s).1.liveMembers f := by
    unfold startNeeded
    simp only
    split <;> rfl
  have hadded := @startMembers_numMembers s f f fleet (fun _ r ↦ isLive r) true allowed.toNat
    finds.creates used hnew fun _ ↦ rfl
  have hstarted : (startMembers f fleet allowed.toNat finds.creates used s).2.1 ≤ allowed.toNat :=
    startMembers_le ..
  have hneeded : s.needed f fleet live ≤ (fleet.target : ℕ) - (live.length : ℤ) := by
    unfold needed
    split <;> omega
  have hle : allowed ≤ s.needed f fleet live := min_le_left _ _
  rw [if_pos ⟨rfl, rfl⟩] at hadded
  rw [hafter, liveMembers, hadded, ← liveMembers]
  omega

/-- What the rest of a pass over an active fleet leaves live. -/
theorem liveMembers_filling (hnew : s.NewIds finds.creates)
    (hlen : (s.liveRows f).length = s.liveMembers f) :
    (s.filling f fleet finds).liveMembers f ≤ max (fleet.target : ℕ) (s.liveMembers f) ∧
      (¬s.GivesUp f fleet → (fleet.target : ℕ) < s.liveMembers f → finds.unstoppable = [] →
        (s.filling f fleet finds).liveMembers f = fleet.target) := by
  have hrows : (s.memberRows f).filter (fun r ↦ (s.recordProgress f).live r.1) = s.liveRows f := rfl
  have hsame : (s.recordProgress f).liveMembers f ≤ max (fleet.target : ℕ) (s.liveMembers f) := by
    rw [recordProgress_liveMembers]
    exact le_max_right _ _
  unfold filling fill
  dsimp only
  rw [hrows, recordProgress_streak]
  by_cases hgives : s.GivesUp f fleet
  · rw [if_pos (c := failuresBeforePause ≤ _) hgives]
    exact ⟨hsame, fun h ↦ absurd hgives h⟩
  · rw [if_neg (c := failuresBeforePause ≤ _) hgives]
    by_cases hextra : (fleet.target : ℕ) < (s.liveRows f).length
    · rw [if_pos hextra]
      obtain ⟨hle, hall⟩ := liveMembers_stopExtras hlen fleet.target finds.unstoppable
      refine ⟨hle.trans (le_max_right _ _), fun _ habove hstoppable ↦ ?_⟩
      have hleft := hall hstoppable
      rw [setStatus_liveMembers]
      omega
    · rw [if_neg hextra]
      refine ⟨?_, fun _ habove ↦ absurd habove (by rwa [hlen] at hextra)⟩
      split
      · split <;> exact hsame
      · split
        · exact hsame
        · split
          · exact hsame
          · refine (liveMembers_startNeeded hnew.recordProgress ?_).trans ?_
            · rw [recordProgress_liveMembers, hlen]
            · rw [recordProgress_liveMembers]

end FleetsDb

/-! ## The next pass -/

namespace FleetHistory

variable {f : FleetId} {p : Text} {s₀ s : FleetHistory} {prog : Program FleetInterface Unit}
  {fleet : FleetRow} {finds : PassFinds}

/-- The deployment is a live member of the fleet, and has the slot. -/
def LiveIn (f : FleetId) (s : FleetHistory) (d : DeploymentId) (slot : ℕ) : Prop :=
  ∃ m, s.db.members.get? d = some m ∧ m.fleetId = f ∧ m.slot = slot ∧ s.db.live d = true

theorem Sound.slot_injective (hs : s.Sound f p) {d d' : DeploymentId} {slot : ℕ}
    (h : s.LiveIn f d slot) (h' : s.LiveIn f d' slot) : d = d' := by
  obtain ⟨m, hm, hf, hslot, hlive⟩ := h
  obtain ⟨m', hm', hf', hslot', hlive'⟩ := h'
  refine hs.distinct d d' ⟨(hs.recorded d m hm).mp hf, hlive⟩
    ⟨(hs.recorded d' m' hm').mp hf', hlive'⟩ ?_
  rw [slotOf_member hm, slotOf_member hm', hslot, hslot']

theorem Sound.length_liveRows (hs : s.Sound f p) :
    (s.db.liveRows f).length = s.db.liveMembers f :=
  length_liveRows_of fun d m hm hf hfinished ↦
    hs.finished d ((hs.recorded d m hm).mp hf) m hm hfinished

/-- **Fleet bookkeeping survives the death of the gateway.** Wherever it died before, after an
uninterrupted pass the slots of the live members are distinct. If the fleet is active, every live
deployment that it created is a member; they are no more than its target or than were live before,
and as many as its target where more were live, unless the pass gives up or a deployment cannot be
stopped. A paused fleet adopts and starts nothing, and only stops what is beyond its target; any
other is left alone. -/
theorem bookkeeping_survives (start : s₀.Before f p)
    (run : (fleetService f).Alone (Around f p) (Allowed f p) s₀ prog s)
    (hnew : s.NewIds finds.creates) (uncut : ∀ d, .stopped d ∉ finds.creates)
    (hfleet : s.db.fleets.get? f = some fleet) :
    let after := (fleetService f).after (.reconcile finds) s
    (∀ d d' slot, after.LiveIn f d slot → after.LiveIn f d' slot → d = d') ∧
      (fleet.state = .active →
        (∀ d ∈ after.made, after.db.live d = true → ∃ slot, after.LiveIn f d slot) ∧
        after.db.liveMembers f ≤ max (fleet.target : ℕ) s.liveMade ∧
        (fleet.target < s.liveMade → ¬(s.db.adoptOrphans f fleet).GivesUp f fleet →
          finds.unstoppable = [] → after.db.liveMembers f = fleet.target)) ∧
      (fleet.state = .paused →
        after.db.liveMembers f ≤ s.db.liveMembers f ∧
        (fleet.target < s.db.liveMembers f → finds.unstoppable = [] →
          after.db.liveMembers f = fleet.target)) ∧
      (fleet.state = .completed ∨ fleet.state = .stopped → after.db = s.db) := by
  intro after
  have hs := sound_of_run start run
  have hdb : after.db = s.db.reconcileLocked f finds :=
    FleetsCall.after_db f (.reconcile finds) s hnew
  have hends {R : Prop} (cut : R → fleet.state = .active) : after.Ends f p R :=
    (Keeps.reconcileLocked hs fun hR ↦ ⟨by rw [hfleet, ← cut hR]; rfl, uncut⟩).at_end .refl
  refine ⟨fun d d' slot ↦ (hends (R := False) nofun).1.slot_injective, fun active ↦ ?_,
    fun paused ↦ ?_, fun idle ↦ ?_⟩
  · obtain ⟨hsound, hrecorded⟩ := hends (R := True) fun _ ↦ active
    have hadopted : Sound f p { s with db := s.db.adoptOrphans f fleet } :=
      hs.adoptOrphans (by rw [Mine, hfleet]; rfl)
    have hlive : (s.db.adoptOrphans f fleet).liveMembers f = s.liveMade :=
      hadopted.liveMembers_eq (hs.recorded_adoptOrphans hfleet)
    have hnewDb : (s.db.adoptOrphans f fleet).NewIds finds.creates :=
      NewIds.adoptOrphans ⟨hnew.1, fun d hd ↦ ⟨(hnew.2 d hd).1, (hnew.2 d hd).2.1⟩⟩
    have hpass : after.db = (s.db.adoptOrphans f fleet).filling f fleet finds := by
      rw [hdb, FleetsDb.reconcileLocked, hfleet]
      simp only [active]
    obtain ⟨hle, hall⟩ := @liveMembers_filling _ f fleet _ hnewDb hadopted.length_liveRows
    rw [hlive] at hle hall
    rw [hpass]
    refine ⟨fun d hd hlive ↦ ?_, hle, fun habove hgives ↦ hall hgives habove⟩
    rw [← hpass] at hlive
    obtain ⟨m, hm⟩ := Option.isSome_iff_exists.mp (hrecorded trivial d ⟨hd, hlive⟩)
    exact ⟨m.slot, m, hm, (hsound.recorded d m hm).mpr hd, rfl, hlive⟩
  · obtain ⟨hle, hall⟩ :=
      liveMembers_stopExtras hs.length_liveRows fleet.target finds.unstoppable
    have hpass : after.db = if (fleet.target : ℕ) < (s.db.liveRows f).length then
        (s.db.recordProgress f).stopExtras fleet.target (s.db.liveRows f) finds.unstoppable
        else s.db.recordProgress f := by
      rw [hdb, FleetsDb.reconcileLocked, hfleet]
      simp only [paused]
      rfl
    rw [hpass, hs.length_liveRows]
    split
    · refine ⟨hle, fun habove hstoppable ↦ ?_⟩
      have hleft := hall hstoppable
      omega
    · next hnone =>
      exact ⟨recordProgress_liveMembers.le, fun habove ↦ absurd habove hnone⟩
  · rw [hdb, FleetsDb.reconcileLocked, hfleet]
    rcases idle with idle | idle <;> simp only [idle]

/-! ### Runs in which the gateway dies -/

/-- Nothing is there yet. -/
def nothing : FleetHistory := ⟨⟨0, .empty, .empty, .empty⟩, []⟩

theorem before_nothing (f : FleetId) (p : Text) : nothing.Before f p :=
  ⟨rfl, rfl, nofun, nofun⟩

/-- A fleet that is asked for. -/
def asked (target : ℤ) : FleetRequest where
  workloadFits := true
  ownerUserId := 1
  createdByKeyId := none
  workloadId := "w".toList
  namePrefix := ['m']
  target := target
  replace := true
  saveOnExhaustion := false
  resumeOnTopup := false

/-- The fleet's row, once it is there. -/
def askedRow (target : FleetTarget) (state : FleetState) (reason : FleetStatus) : FleetRow :=
  { nothing.db.newFleet (asked target) target with state := state, statusReason := reason }

/-- A pass that finds room for these deployments. -/
def room (ids : List DeploymentId) : PassFinds where
  workloadExists := true
  keyExists := true
  costCents := 0
  committedCents := 0
  balanceCents := 0
  creates := ids.map .created
  unstoppable := []

/-- The gateway dies when it has created the first member of a new fleet and not recorded it. -/
def dying (target : ℤ) : List (Turn FleetsCall) :=
  .call (.createFleet (asked target) (room [10, 11])) :: List.replicate 9 .op

/-- The member that was not recorded is adopted by the next pass, which starts the other. -/
theorem bookkeeping_survives_dying : ∃ prog s,
    (fleetService 1).Alone (Around 1 ['m']) (Allowed 1 ['m']) nothing prog s ∧
      s.liveMade = 1 ∧ s.db.liveMembers 1 = 0 ∧
      let after := (fleetService 1).after (.reconcile (room [12])) s
      (∀ d ∈ after.made, after.db.live d = true → ∃ slot, after.LiveIn 1 d slot) ∧
        after.db.liveMembers 1 ≤ 2 := by
  have hdies : ∃ prog s, (fleetService 1).Alone (Around 1 ['m']) (Allowed 1 ['m']) nothing prog s ∧
      (s.NewIds (room [12]).creates ∧
        s.db.fleets.get? 1 = some (askedRow ⟨2, by decide⟩ .active .starting)) ∧
      s.liveMade = 1 ∧ s.db.liveMembers 1 = 0 :=
    Service.exists_alone_of_turns (dying 2) (by decide +kernel)
  obtain ⟨prog, s, run, ⟨hnew, hfleet⟩, hmade, hmembers⟩ := hdies
  have huncut : ∀ d, .stopped d ∉ (room [12]).creates := by
    rintro d (_ | ⟨_, h⟩)
    cases h
  obtain ⟨-, hactive, -, -⟩ :=
    bookkeeping_survives (before_nothing 1 ['m']) run hnew huncut hfleet
  obtain ⟨hrecorded, hle, -⟩ := hactive rfl
  refine ⟨prog, s, run, hmade, hmembers, hrecorded, ?_⟩
  rwa [hmade] at hle

/-- If the owner pauses the fleet first, the member that was not recorded stays unrecorded. -/
theorem paused_fleet_adopts_nothing :
    ¬∀ (f : FleetId) (p : Text) (s₀ s : FleetHistory) (prog : Program FleetInterface Unit)
      (finds : PassFinds), s₀.Before f p →
      (fleetService f).Alone (Around f p) (Allowed f p) s₀ prog s → s.NewIds finds.creates →
      (∀ d, .stopped d ∉ finds.creates) →
      ∀ d ∈ ((fleetService f).after (.reconcile finds) s).made,
        ((fleetService f).after (.reconcile finds) s).db.live d = true →
        (((fleetService f).after (.reconcile finds) s).db.members.get? d).isSome = true := by
  intro h
  have hpaused : ∃ prog s,
      (fleetService 1).Alone (Around 1 ['m']) (Allowed 1 ['m']) nothing prog s ∧
        10 ∈ ((fleetService 1).after (.reconcile (room [])) s).made ∧
        ((fleetService 1).after (.reconcile (room [])) s).db.live 10 = true ∧
        (((fleetService 1).after (.reconcile (room [])) s).db.members.get? 10).isSome = false :=
    Service.exists_alone_of_turns
      (dying 1 ++ [.call (.updateFleet none (some true) (room [])), .op, .op]) (by decide +kernel)
  obtain ⟨prog, s, run, hmade, hlive, hmember⟩ := hpaused
  have hrecorded := h 1 ['m'] nothing s prog (room []) (before_nothing 1 ['m']) run
    ⟨List.nodup_nil, nofun⟩ (fun _ ↦ List.not_mem_nil) 10 hmade hlive
  exact nomatch hrecorded.symm.trans hmember

end FleetHistory

end GreenCompute
