import GreenCompute.ControlPlane.Edits

/-!
# Billed time

A cycle of the meter charges a deployment for the seconds since the cycle before, but never for
seconds before it last became ready. The cycles of a run do not overlap, and every way into the
ready state says anew since when the deployment is billed; so over any run the seconds billed stay
within the seconds the deployment was ready. What can still be billed at a moment, `unbilled`,
bridges the two: it grows with the clock while the deployment is ready, and each cycle draws on it.
-/

namespace GreenCompute

open ControlPlaneRepository ControlPlaneService

variable {settings : Settings} {protocol : Protocol} {s s' : Fleet} {d : DeploymentId}

/-! ## What a cycle bills -/

/-- The seconds that a cycle of the meter bills a deployment for. -/
def billedInCycle (settings : Settings) (elapsed : Option Time) (d : DeploymentId) (s : Fleet) :
    Time :=
  match s.record d with
  | none => 0
  | some record =>
    if record.state = .ready then
      ((chargeOf settings (cycleSeconds elapsed) s.now d record s).map Prod.snd).getD 0
    else 0

/-- What is added to a deployment's accumulator, operation by operation. -/
def accruals (d : DeploymentId) (history : List (Event ControlPlane)) : List ℤ :=
  history.filterMap fun
    | ⟨.accrueMetering d' add, _⟩ => if d' = d then some add else none
    | _ => none

@[simp] theorem accruals_append (d : DeploymentId) (history history' : List (Event ControlPlane)) :
    accruals d (history ++ history') = accruals d history ++ accruals d history' :=
  List.filterMap_append

/-- A transaction that adds nothing to a deployment's accumulator. -/
def Unaccruing (d : DeploymentId) (o : FleetOp) : Prop := ∀ add, o ≠ .accrueMetering d add

theorem accruals_eq_nil {history : List (Event ControlPlane)}
    (h : ∀ e ∈ history, Unaccruing d e.1) : accruals d history = [] := by
  refine List.filterMap_eq_nil_iff.mpr fun e he ↦ ?_
  have hquiet := h e he
  split
  · next d' add _ =>
    refine if_neg fun hd ↦ hquiet add ?_
    rw [hd]
  · rfl

/-- The history of a method run with nothing in between. -/
def history {α : Type} (settings : Settings) (p : Program ControlPlane α) (s : Fleet) :
    List (Event ControlPlane) :=
  Program.trace (fleet settings) p s

section

variable {α β : Type}

@[simp] theorem history_bind (settings : Settings) (p : Program ControlPlane α)
    (f : α → Program ControlPlane β) (s : Fleet) :
    history settings (p >>= f) s =
      history settings p s ++ history settings (f (run settings p s).2) (run settings p s).1 :=
  Program.trace_bind p f s

theorem accruals_of_uses (settings : Settings) {p : Program ControlPlane α}
    (hp : p.Uses (Unaccruing d)) (s : Fleet) : accruals d (history settings p s) = [] :=
  accruals_eq_nil (hp.trace s)

theorem accruals_of_looks (settings : Settings) {p : Program ControlPlane α}
    (hp : p.Uses fun o : FleetOp ↦ o.looks = true) (s : Fleet) :
    accruals d (history settings p s) = [] :=
  accruals_of_uses settings (hp.mono fun o ho add h ↦ by rw [h] at ho; cases ho) s

end

theorem unaccruing_of_looks (d : DeploymentId) (o : FleetOp) (h : o.looks = true) :
    Unaccruing d o := by
  rintro add rfl
  cases h

/-- A charge accrues its amount and nothing else. -/
theorem accruals_charge (settings : Settings) (owner : UserId) (addMcents : ℤ) (s : Fleet) :
    accruals d (history settings (charge d owner addMcents) s) = [addMcents] := by
  rw [charge, history_bind, accruals_append]
  have hfirst : accruals d (history settings (call (.accrueMetering d addMcents)) s) =
      [addMcents] := by
    show List.filterMap _ [(⟨.accrueMetering d addMcents, _⟩ : Event ControlPlane)] = _
    simp
  rw [hfirst]
  generalize run settings (call (.accrueMetering d addMcents)) s = accrued
  obtain ⟨s₁, wholeCents, remainder⟩ := accrued
  dsimp only
  rw [accruals_of_uses settings, List.append_nil]
  -- What follows debits, carries back and suspends.
  split
  · trivial
  · refine .op_bind (by rintro _ ⟨⟩) fun drain ↦ ?_
    cases drain with
    | error e => trivial
    | ok drain =>
      dsimp only
      split
      · refine .bind (.op_bind (by rintro _ ⟨⟩) fun _ ↦ ?_) fun _ ↦ trivial
        refine .op_bind (by rintro _ ⟨⟩) fun now ↦ .bind ?_ fun _ ↦ trivial
        exact updateDeploymentStatus_uses (unaccruing_of_looks d) (by rintro _ ⟨⟩)
          (by rintro _ _ ⟨⟩) (by rintro _ ⟨⟩) (by rintro _ _ _ ⟨⟩)
          (by rintro _ _ ⟨⟩)
      · trivial

/-- A pass over the deployment accrues what `chargeOf` says. -/
theorem accruals_meterDeployment (settings : Settings) (cycle now : Time) (d : DeploymentId)
    (record : DeploymentRecord) (s : Fleet) :
    accruals d (history settings (meterDeployment settings cycle now d record) s) =
      ((chargeOf settings cycle now d record s).map fun charged ↦
        meteredMcents (rateOrDefault record) (chargedGpus s record) (billedInstances record)
          charged.2).toList := by
  unfold meterDeployment
  split
  · next howner =>
    simp only [chargeOf, howner]
    rfl
  · next owner howner =>
    have hprivate : (isPrivateModel record (s.workloads.get? record.workloadId)).Uses
        fun o : FleetOp ↦ o.looks = true := isPrivateModel_uses (fun _ h ↦ h) _ _
    have hsilent : (boxSilent settings record now).Uses fun o : FleetOp ↦ o.looks = true :=
      boxSilent_uses (fun _ h ↦ h) _ _
    have hquiet (o : FleetOp) (h : o.looks = true) :
        accruals d (history settings (call o) s) = [] :=
      accruals_of_looks settings (Program.uses_op.mpr h) s
    rw [history_bind, accruals_append, hquiet _ rfl, run_getWorkload, history_bind,
      accruals_append, accruals_of_looks settings hprivate, run_of_looks settings hprivate]
    simp only [chargeOf, howner, List.nil_append]
    by_cases hshared : ((s.workloads.get? record.workloadId).any fun w ↦ w.kind = .inference) &&
        !(run settings (isPrivateModel record (s.workloads.get? record.workloadId)) s).2
    · rw [if_pos hshared, if_pos hshared]
      rfl
    rw [if_neg hshared, if_neg hshared, history_bind, accruals_append,
      accruals_of_looks settings hsilent, run_of_looks settings hsilent, List.nil_append]
    by_cases hsilence : (run settings (boxSilent settings record now) s).2 = true
    · rw [if_pos hsilence, if_pos hsilence]
      rfl
    rw [if_neg hsilence, if_neg hsilence, history_bind, accruals_append, hquiet _ rfl,
      run_getBillableSince, List.nil_append]
    cases getBillableSince d s with
    | some since => exact accruals_charge settings owner _ s
    | none =>
      dsimp only
      by_cases hmodel :
          (run settings (isPrivateModel record (s.workloads.get? record.workloadId)) s).2 = true
      · rw [if_pos hmodel, if_pos hmodel]
        refine accruals_of_uses settings ?_ s
        exact .op_bind (by rintro _ ⟨⟩) fun _ ↦ trivial
      · rw [if_neg hmodel, if_neg hmodel]
        exact accruals_charge settings owner _ s

/-! ### A whole cycle -/

/-- What the meter looks at is the same in two databases. -/
structure MeteredAlike (d : DeploymentId) (s s' : Fleet) : Prop where
  workloads : s'.workloads = s.workloads
  heartbeats : s'.heartbeats = s.heartbeats
  nodeInventory : s'.nodeInventory = s.nodeInventory
  since : getBillableSince d s' = getBillableSince d s

/-- A transaction of the meter on another deployment. -/
def MetersOther (d : DeploymentId) (o : FleetOp) : Prop :=
  o.subject ≠ some d ∧ (o.reports || o.outside) = false

theorem heartbeats_exec (settings : Settings) {o : FleetOp} (h : o.outside = false) (s : Fleet) :
    (o.exec settings s).1.heartbeats = s.heartbeats := by
  cases o with
  | upsertHeartbeat => cases h
  | createDeployment =>
    simp only [FleetOp.exec, ControlPlaneRepository.createDeployment]
    split <;> rfl
  | accrueMetering =>
    simp only [FleetOp.exec, accrueMetering]
    split <;> rfl
  | returnMeteringMcents =>
    simp only [FleetOp.exec, returnMeteringMcents]
    split <;> [rfl; (split <;> rfl)]
  | updateAssignmentStatus d status =>
    simp only [FleetOp.exec, updateAssignmentStatus]
    split
    · rfl
    · obtain ⟨placements, hplacements⟩ := modifyLatestPlacement_eq d
        (fun p ↦ { p with status := status, updatedAt := s.now }) s
      rw [hplacements]
  | updatePlacementStatus d status failed cooldown =>
    simp only [FleetOp.exec, updatePlacementStatus]
    obtain ⟨placements, hplacements⟩ := modifyLatestPlacement_eq d _ s
    rw [hplacements]
  | reserveGpus =>
    simp only [FleetOp.exec, reserveGpus]
    split <;> rfl
  | upsertCapacity update =>
    obtain ⟨capacities, inventory, servers, hupsert⟩ := upsertCapacity_eq settings update s
    simp only [FleetOp.exec]
    rw [hupsert]
  | _ => rfl

theorem MeteredAlike.exec (settings : Settings) {o : FleetOp} (h : MetersOther d o) (s : Fleet) :
    MeteredAlike d s (o.exec settings s).1 := by
  obtain ⟨hsubject, hquiet⟩ := h
  obtain ⟨hreports, houtside⟩ := Bool.or_eq_false_iff.mp hquiet
  have hleaves := leaves_exec settings o s
  refine ⟨hleaves.workloads, heartbeats_exec settings houtside s, hleaves.nodeInventory hreports, ?_⟩
  rw [getBillableSince, hleaves.row d hsubject, getBillableSince]

theorem MeteredAlike.trans {t : Fleet} (h : MeteredAlike d s s') (h' : MeteredAlike d s' t) :
    MeteredAlike d s t :=
  ⟨h'.workloads.trans h.workloads, h'.heartbeats.trans h.heartbeats,
    h'.nodeInventory.trans h.nodeInventory, h'.since.trans h.since⟩

theorem MeteredAlike.run (settings : Settings) {α : Type} {p : Program ControlPlane α}
    (hp : p.Uses (MetersOther d)) (s : Fleet) : MeteredAlike d s (run settings p s).1 := by
  have halong : Program.Along (fleet settings) (fun o s ↦ MeteredAlike d s (o.exec settings s).1)
      p s := .of_uses (hp.mono fun o ho s ↦ MeteredAlike.exec settings ho s) s
  exact (halong.rel (r := MeteredAlike d) (P := fun _ ↦ True) (fun _ ↦ ⟨rfl, rfl, rfl, rfl⟩)
    MeteredAlike.trans (fun _ _ _ h ↦ ⟨trivial, h⟩) trivial).2

theorem run_getHeartbeat (settings : Settings) (hotkey : Hotkey) (s : Fleet) :
    run settings (call (.getHeartbeat hotkey)) s = (s, s.heartbeats.get? hotkey) := rfl

theorem run_listNodes (settings : Settings) (s : Fleet) :
    run settings (call .listNodes) s = (s, listNodes s) := rfl

/-- Databases that are alike to the meter are charged alike. -/
theorem chargeOf_congr (settings : Settings) (cycle now : Time) (record : DeploymentRecord)
    (h : MeteredAlike d s s') :
    chargeOf settings cycle now d record s' = chargeOf settings cycle now d record s := by
  have hprivate (workload : Option WorkloadSpec) :
      (run settings (isPrivateModel record workload) s').2 =
        (run settings (isPrivateModel record workload) s).2 := by
    cases workload with
    | some workload => rfl
    | none =>
      rw [isPrivateModel, run_bind, run_bind, workloadOr, run_getWorkload, run_getWorkload,
        h.workloads]
      rfl
  have hnodes : listNodes s' = listNodes s := by rw [listNodes, h.nodeInventory, listNodes]
  have hsilent : (run settings (boxSilent settings record now) s').2 =
      (run settings (boxSilent settings record now) s).2 := by
    unfold boxSilent
    cases record.hotkey with
    | none => rfl
    | some hotkey =>
      dsimp only
      rw [run_bind, run_bind, run_getHeartbeat, run_getHeartbeat, h.heartbeats]
      dsimp only
      cases (s.heartbeats.get? hotkey).bind Heartbeat.observedAt with
      | none => rfl
      | some seen =>
        dsimp only
        by_cases hstale : settings.minerHeartbeatTimeoutSeconds < now - seen
        · rw [if_pos hstale]
          rfl
        rw [if_neg hstale]
        cases record.nodeId with
        | none => rfl
        | some nodeId =>
          dsimp only
          rw [findNode, run_bind, run_bind, run_bind, run_bind, run_listNodes, run_listNodes, hnodes]
          rfl
  unfold chargeOf
  cases record.ownerUserId with
  | none => rfl
  | some owner =>
    dsimp only
    rw [h.workloads, h.since, hprivate, hsilent]

theorem metersOther_of_looks (o : FleetOp) (h : o.looks = true) : MetersOther d o := by
  cases o <;> first | cases h; done | exact ⟨fun h ↦ (nomatch h), rfl⟩

theorem meterDeployment_metersOther {d' : DeploymentId} (hd : d' ≠ d) (cycle now : Time)
    (record : DeploymentRecord) :
    (meterDeployment settings cycle now d' record).Uses (MetersOther d) := by
  have hother (o : FleetOp) (hsubject : o.subject = some d')
      (hquiet : (o.reports || o.outside) = false) : MetersOther d o :=
    ⟨fun h ↦ hd (Option.some.inj (hsubject.symm.trans h)), hquiet⟩
  exact meterDeployment_uses metersOther_of_looks ⟨fun h ↦ (nomatch h), rfl⟩
    (fun _ ↦ hother _ rfl rfl) (hother _ rfl rfl) (fun _ _ ↦ hother _ rfl rfl)
    (fun _ ↦ hother _ rfl rfl) (fun _ ↦ hother _ rfl rfl) (fun _ ↦ hother _ rfl rfl)
    (fun _ _ _ ↦ ⟨fun h ↦ (nomatch h), rfl⟩) cycle now record

theorem unaccruing_of_metersOther {o : FleetOp} (h : MetersOther d o) : Unaccruing d o := by
  rintro add rfl
  exact h.1 rfl

/-- Passes over other deployments accrue nothing for this one. -/
theorem accruals_meterAll_of_not_mem (settings : Settings) (cycle now : Time)
    {ready : List (DeploymentId × DeploymentRecord)} (h : d ∉ ready.map Prod.fst) (s : Fleet) :
    accruals d (history settings (meterAll settings cycle now ready) s) = [] := by
  induction ready generalizing s with
  | nil => rfl
  | cons entry ready ih =>
    obtain ⟨d', record⟩ := entry
    rw [List.map_cons, List.mem_cons, not_or] at h
    have hother : (meterDeployment settings cycle now d' record).Uses (Unaccruing d) :=
      (meterDeployment_metersOther (Ne.symm h.1) cycle now record).mono fun _ ↦
        unaccruing_of_metersOther
    rw [meterAll, history_bind, accruals_append, history_bind, accruals_append,
      accruals_of_uses settings hother, ih h.2]
    rfl

/-- A cycle accrues for each listed deployment what its pass accrues. -/
theorem accruals_meterAll (settings : Settings) (cycle now : Time)
    {ready : List (DeploymentId × DeploymentRecord)} (hnodup : (ready.map Prod.fst).Nodup)
    {record : DeploymentRecord} (hmem : (d, record) ∈ ready) (s : Fleet) :
    accruals d (history settings (meterAll settings cycle now ready) s) =
      ((chargeOf settings cycle now d record s).map fun charged ↦
        meteredMcents (rateOrDefault record) (chargedGpus s record) (billedInstances record)
          charged.2).toList := by
  induction ready generalizing s with
  | nil => cases hmem
  | cons entry ready ih =>
    obtain ⟨d', record'⟩ := entry
    rw [List.map_cons, List.nodup_cons] at hnodup
    obtain ⟨hfresh, hnodup⟩ := hnodup
    rw [meterAll, history_bind, accruals_append, history_bind, accruals_append]
    have hend (p : List (DeploymentId × ℤ)) (s : Fleet) :
        accruals d (history settings (pure p) s) = [] := rfl
    rw [hend, List.append_nil]
    rcases List.mem_cons.mp hmem with heq | hmem
    · cases heq
      rw [accruals_meterDeployment, accruals_meterAll_of_not_mem settings cycle now hfresh,
        List.append_nil]
    · have hne : d' ≠ d := by
        rintro rfl
        exact hfresh (List.mem_map.mpr ⟨_, hmem, rfl⟩)
      have hother : (meterDeployment settings cycle now d' record').Uses (MetersOther d) :=
        meterDeployment_metersOther hne cycle now record'
      have halike := MeteredAlike.run settings hother s
      rw [accruals_of_uses settings (hother.mono fun _ ↦ unaccruing_of_metersOther),
        List.nil_append, ih hnodup hmem, chargeOf_congr settings cycle now record halike, chargedGpus,
        halike.workloads, chargedGpus]

theorem mem_listDeploymentsByState {state : DeploymentState} {record : DeploymentRecord} :
    (d, record) ∈ listDeploymentsByState state s ↔
      s.record d = some record ∧ record.state = state := by
  rw [listDeploymentsByState, List.mem_map]
  constructor
  · rintro ⟨⟨d', row⟩, hmem, heq⟩
    obtain ⟨hrow, hstate⟩ := Table.mem_select.mp hmem
    cases heq
    exact ⟨by rw [Fleet.record, hrow, Option.map_some], of_decide_eq_true hstate⟩
  · rintro ⟨hrecord, hstate⟩
    obtain ⟨row, hrow, rfl⟩ := Fleet.record_eq_some hrecord
    exact ⟨(d, row), Table.mem_select.mpr ⟨hrow, decide_eq_true hstate⟩, rfl⟩

theorem nodup_listDeploymentsByState (state : DeploymentState) (s : Fleet) :
    ((listDeploymentsByState state s).map Prod.fst).Nodup := by
  rw [listDeploymentsByState, List.map_map]
  exact s.deployments.nodup.sublist (List.filter_sublist.map _)

/-- **A cycle's accruals.** A cycle of the meter adds to a deployment's accumulator at most once,
and then the price of the seconds it bills. -/
theorem accruals_meterUsage (settings : Settings) (elapsed : Option Time) (d : DeploymentId)
    (s : Fleet) :
    accruals d (history settings (meterUsage settings elapsed) s) = [] ∨
      ∃ record, s.record d = some record ∧ record.state = .ready ∧
        accruals d (history settings (meterUsage settings elapsed) s) =
          [meteredMcents (rateOrDefault record) (chargedGpus s record) (billedInstances record)
            (billedInCycle settings elapsed d s)] := by
  have hcycle : accruals d (history settings (meterUsage settings elapsed) s) =
      accruals d (history settings (meterAll settings (cycleSeconds elapsed) s.now
        (listDeploymentsByState .ready s)) s) := by
    rw [meterUsage, history_bind, accruals_append, history_bind, accruals_append]
    rfl
  rw [hcycle]
  by_cases hready : ∃ record, s.record d = some record ∧ record.state = .ready
  · obtain ⟨record, hrecord, hstate⟩ := hready
    rw [accruals_meterAll settings (cycleSeconds elapsed) s.now
      (nodup_listDeploymentsByState .ready s) (mem_listDeploymentsByState.mpr ⟨hrecord, hstate⟩)]
    cases hcharge : chargeOf settings (cycleSeconds elapsed) s.now d record s with
    | none => exact .inl rfl
    | some charged =>
      refine .inr ⟨record, hrecord, hstate, ?_⟩
      simp only [billedInCycle, hrecord, hstate, if_true, hcharge]
      rfl
  · refine .inl (accruals_meterAll_of_not_mem settings _ _ (fun hmem ↦ hready ?_) s)
    obtain ⟨⟨d', record⟩, hlisted, rfl⟩ := List.mem_map.mp hmem
    exact ⟨record, mem_listDeploymentsByState.mp hlisted⟩

/-! ## What can still be billed -/

/-- The seconds of a deployment that a cycle may still bill, when the cycle before was at `last`. -/
def Position.unbilled (p : Position) (last now : Time) : Time :=
  if p.state = some .ready then
    match p.since with
    | some since => max 0 (min (now - last) (now - since))
    | none => max 0 (now - last)
  else 0

namespace Position

variable {p q : Position} {last now : Time}

theorem unbilled_nonneg (p : Position) (last now : Time) : 0 ≤ p.unbilled last now := by
  unfold unbilled
  split
  · split <;> exact le_max_left _ _
  · exact le_rfl

theorem unbilled_of_not_ready (h : p.state ≠ some .ready) :
    p.unbilled last now = 0 :=
  if_neg h

/-- A deployment whose billing starts now has nothing to bill yet. -/
theorem unbilled_of_since_now (h : p.since = some now) : p.unbilled last now = 0 := by
  unfold unbilled
  rw [h]
  split
  · dsimp only
    rw [sub_self]
    exact max_eq_left (min_le_right _ _)
  · rfl

/-- Right after a cycle there is nothing to bill. -/
theorem unbilled_self (p : Position) (now : Time) : p.unbilled now now = 0 := by
  unfold unbilled
  split
  · split <;> rw [sub_self]
    · exact max_eq_left (min_le_left _ _)
    · exact max_self 0
  · rfl

theorem unbilled_congr
    (hrecord : q.state = p.state)
    (hsince : q.since = p.since) : q.unbilled last now = p.unbilled last now := by
  unfold unbilled
  rw [hrecord, hsince]

/-- While time passes, what can be billed grows with it if the deployment is ready. -/
theorem unbilled_advance (p : Position) (last now : Time) {seconds : Time} (h : 0 ≤ seconds) :
    p.unbilled last (now + seconds) ≤ p.unbilled last now +
      if p.state = some .ready then seconds else 0 := by
  unfold unbilled
  by_cases hready : p.state = some .ready
  · rw [if_pos hready, if_pos hready, if_pos hready]
    cases p.since with
    | none =>
      dsimp only
      refine max_le (add_nonneg (le_max_left _ _) h) ?_
      linarith [le_max_right 0 (now - last)]
    | some since =>
      dsimp only
      refine max_le (add_nonneg (le_max_left _ _) h) ?_
      have hmin : min (now + seconds - last) (now + seconds - since) =
          min (now - last) (now - since) + seconds := by
        rw [← min_add_add_right]
        congr 1 <;> ring
      rw [hmin]
      linarith [le_max_right 0 (min (now - last) (now - since))]
  · rw [if_neg hready, if_neg hready, if_neg hready, add_zero]

end Position

/-- No edit makes more billable than was: a deployment that becomes ready is billed from then on. -/
theorem Edit.unbilled_le {c : FleetCall} {now last : Time} {p q : Position} (h : Edit c d now p q) :
    q.unbilled last now ≤ p.unbilled last now := by
  have hzero {q : Position} (hq : q.unbilled last now = 0) :
      q.unbilled last now ≤ p.unbilled last now := hq ▸ p.unbilled_nonneg last now
  cases h with
  | created => exact hzero (Position.unbilled_of_not_ready fun h ↦ nomatch Option.some.inj h)
  | noted record saved found same =>
    refine le_of_eq (Position.unbilled_congr ?_ rfl)
    rw [Position.state_of_record found]
    exact congrArg some same.state
  | reported update record readyAt found origin live allowed =>
    by_cases hready : update.state = .ready
    · by_cases hbecame : record.state = .ready
      · refine le_of_eq (Position.unbilled_congr ?_ (if_neg fun h ↦ h.2 hbecame))
        rw [Position.state_of_record found]
        exact congrArg some (hready.trans hbecame.symm)
      · exact hzero (Position.unbilled_of_since_now (if_pos ⟨hready, hbecame⟩))
    · refine hzero (Position.unbilled_of_not_ready fun h ↦ hready ?_)
      exact Option.some.inj h
  | scheduled record saved stand attempts granted made found waiting terms state =>
    refine hzero (Position.unbilled_of_not_ready fun h ↦ ?_)
    exact nomatch state.symm.trans (Option.some.inj h)
  | unplaced record saved stand origin found terms state =>
    refine hzero (Position.unbilled_of_not_ready fun h ↦ ?_)
    exact nomatch state.symm.trans (Option.some.inj h)
  | ended record saved reason made found terms state =>
    refine hzero (Position.unbilled_of_not_ready fun h ↦ ?_)
    exact nomatch state.symm.trans (Option.some.inj h)
  | freed stand kept =>
    exact le_of_eq (Position.unbilled_congr (Position.state_congr kept) rfl)
  | resumed stand made kept =>
    exact le_of_eq (Position.unbilled_congr (Position.state_congr kept) rfl)
  | stamped elapsed made unset => exact hzero (Position.unbilled_of_since_now rfl)

theorem Edited.unbilled_le {c : FleetCall} (h : Edited c s s') (last : Time) :
    (s'.position d).unbilled last s.now ≤ (s.position d).unbilled last s.now := by
  have hedits := h.position d
  generalize s'.position d = q at hedits ⊢
  induction hedits with
  | refl => exact le_rfl
  | tail _ hedit ih => exact hedit.unbilled_le.trans ih

/-- A cycle bills no more than could be billed. -/
theorem billedInCycle_le (settings : Settings) {elapsed last : Time} (h : elapsed ≤ s.now - last) :
    billedInCycle settings (some elapsed) d s ≤ (s.position d).unbilled last s.now := by
  have hnonneg := (s.position d).unbilled_nonneg last s.now
  unfold billedInCycle
  cases hrecord : s.record d with
  | none => exact hnonneg
  | some record =>
    dsimp only
    by_cases hready : record.state = .ready
    · rw [if_pos hready]
      have hcycle : cycleSeconds (some elapsed) ≤ max 0 (s.now - last) :=
        max_le_max le_rfl ((min_le_left _ _).trans h)
      have hunbilled : (s.position d).unbilled last s.now =
          match getBillableSince d s with
          | some since => max 0 (min (s.now - last) (s.now - since))
          | none => max 0 (s.now - last) := by
        refine if_pos ?_
        show (s.record d).map DeploymentRecord.state = some .ready
        rw [hrecord, Option.map_some, hready]
      rw [hunbilled] at hnonneg ⊢
      unfold chargeOf
      split
      · exact hnonneg
      dsimp only
      split
      · exact hnonneg
      split
      · exact hnonneg
      cases getBillableSince d s with
      | some since =>
        dsimp only
        show min (cycleSeconds (some elapsed)) (max 0 (s.now - since)) ≤ _
        rw [max_min_distrib_left]
        exact min_le_min hcycle le_rfl
      | none =>
        dsimp only
        split
        · exact le_max_left _ _
        · exact hcycle
    · rw [if_neg hready]
      exact hnonneg

/-! ## Runs -/

/-- The time a call takes. -/
def FleetCall.seconds : FleetCall → Time
  | .advance seconds => max 0 seconds
  | _ => 0

/-- The seconds a call bills a deployment for. -/
def FleetCall.billed (settings : Settings) (d : DeploymentId) (s : Fleet) : FleetCall → Time
  | .meterUsage elapsed => billedInCycle settings elapsed d s
  | _ => 0

section

variable (settings : Settings) (protocol : Protocol) (d : DeploymentId)

/-- The seconds that the cycles of a run bill a deployment for. -/
def billedSeconds : Fleet → List FleetCall → Time
  | _, [] => 0
  | s, c :: cs => c.billed settings d s + billedSeconds ((controlPlane settings protocol).after c s) cs

/-- The time that a deployment is ready in the course of a run. -/
def readySeconds : Fleet → List FleetCall → Time
  | _, [] => 0
  | s, c :: cs =>
    (if s.state d = some .ready then c.seconds else 0) +
      readySeconds ((controlPlane settings protocol).after c s) cs

/-- Each cycle of the meter is told of at most the time since the cycle before, or since `last`. -/
def Paced : Time → Fleet → List FleetCall → Prop
  | _, _, [] => True
  | last, s, .meterUsage elapsed :: cs =>
    (∃ e ∈ elapsed, e ≤ s.now - last) ∧
      Paced s.now ((controlPlane settings protocol).after (.meterUsage elapsed) s) cs
  | last, s, c :: cs => Paced last ((controlPlane settings protocol).after c s) cs

instance decidablePaced (last : Time) (s : Fleet) (cs : List FleetCall) :
    Decidable (Paced settings protocol last s cs) :=
  match cs with
  | [] => inferInstanceAs (Decidable True)
  | c :: cs =>
    have (last : Time) (s : Fleet) := decidablePaced last s cs
    match c with
    | .meterUsage _ => inferInstanceAs (Decidable (_ ∧ _))
    | .createDeployment .. | .updateDeployment .. | .deploymentStatus ..
    | .updateDeploymentStatus .. | .recordDeploymentHealthFailure ..
    | .clearDeploymentHealthFailures _ | .processDeploymentRequest .. | .requeueAssignment ..
    | .requeueDeployment _ | .resumeDeployment _ | .failDeployment _ | .cleanupDeployment ..
    | .reclaimOrphanedReservations | .processTimeouts _ | .processUnhealthyMiners _
    | .processIdleInferenceDeployments .. | .reapExhaustedPods _ | .updateCapacity _
    | .recordHeartbeat .. | .drainMiner .. | .money _ | .advance _ => this _ _

end

/-- A step of a run that is no cycle bills nothing, and what can be billed grows by no more than the
time the deployment is ready. -/
theorem unbilled_after_le (settings : Settings) (protocol : Protocol) {c : FleetCall} (s : Fleet)
    (last : Time) :
    (((controlPlane settings protocol).after c s).position d).unbilled last
        ((controlPlane settings protocol).after c s).now ≤
      (s.position d).unbilled last s.now + if s.state d = some .ready then c.seconds else 0 := by
  by_cases htime : ∃ seconds, c = .advance seconds
  · obtain ⟨seconds, rfl⟩ := htime
    rw [now_after_advance, position_after_advance]
    exact (s.position d).unbilled_advance last s.now (le_max_left 0 seconds)
  · have hedited := edited_after settings protocol (fun seconds h ↦ htime ⟨seconds, h⟩) s
    rw [hedited.now]
    have hseconds : c.seconds = 0 := by
      cases c with
      | advance seconds => exact absurd ⟨seconds, rfl⟩ htime
      | _ => rfl
    have hzero : (if s.state d = some .ready then c.seconds else 0) = 0 := by
      rw [hseconds, ite_self]
    rw [hzero, add_zero]
    exact hedited.unbilled_le last

/-- Over a run, what is billed is covered by what could be billed at its start and by the time the
deployment was ready since. -/
theorem billedSeconds_le (settings : Settings) (protocol : Protocol) {last : Time}
    {cs : List FleetCall} (paced : Paced settings protocol last s cs) :
    billedSeconds settings protocol d s cs ≤
      (s.position d).unbilled last s.now + readySeconds settings protocol d s cs := by
  induction cs generalizing s last with
  | nil =>
    rw [billedSeconds, readySeconds, add_zero]
    exact Position.unbilled_nonneg _ _ _
  | cons c cs ih =>
    rw [billedSeconds, readySeconds]
    by_cases hcycle : ∃ elapsed, c = .meterUsage elapsed
    · obtain ⟨elapsed, rfl⟩ := hcycle
      obtain ⟨⟨e, he, hpace⟩, hrest⟩ := paced
      obtain rfl : elapsed = some e := he
      -- The cycle draws on what could be billed, and nothing is left to bill after it.
      have hbilled := billedInCycle_le (d := d) settings hpace
      have hnow : ((controlPlane settings protocol).after (.meterUsage (some e)) s).now = s.now :=
        (edited_after settings protocol (by rintro _ ⟨⟩) s).now
      have hlater := ih hrest
      rw [hnow, Position.unbilled_self, zero_add] at hlater
      have hseconds : (if s.state d = some .ready then
          FleetCall.seconds (.meterUsage (some e)) else 0) = 0 := ite_self 0
      rw [hseconds, zero_add]
      exact add_le_add hbilled hlater
    · have hbilled : c.billed settings d s = 0 := by
        cases c with
        | meterUsage elapsed => exact absurd ⟨elapsed, rfl⟩ hcycle
        | _ => rfl
      have hrest : Paced settings protocol last ((controlPlane settings protocol).after c s) cs := by
        cases c with
        | meterUsage elapsed => exact absurd ⟨elapsed, rfl⟩ hcycle
        | _ => exact paced
      have hstep := unbilled_after_le (d := d) (c := c) settings protocol s last
      rw [hbilled, zero_add]
      linarith [ih hrest]

/-- **Only ready time is billed.** A cycle of the meter accrues for a deployment the price of the
seconds it bills, or nothing; and in every run whose cycles are each told of at most the time since
the cycle before, the seconds billed for a deployment are at most the time it was ready. -/
theorem billed_only_while_ready (settings : Settings) (protocol : Protocol) (d : DeploymentId) :
    (∀ elapsed s,
      accruals d (history settings (meterUsage settings elapsed) s) = [] ∨
        ∃ record, s.record d = some record ∧ record.state = .ready ∧
          accruals d (history settings (meterUsage settings elapsed) s) =
            [meteredMcents (rateOrDefault record) (chargedGpus s record) (billedInstances record)
              (billedInCycle settings elapsed d s)]) ∧
      ∀ s cs, Paced settings protocol s.now s cs →
        billedSeconds settings protocol d s cs ≤ readySeconds settings protocol d s cs := by
  refine ⟨fun elapsed s ↦ accruals_meterUsage settings elapsed d s, fun s cs paced ↦ ?_⟩
  have hbilled := billedSeconds_le (d := d) settings protocol paced
  rwa [Position.unbilled_self, zero_add] at hbilled

/-- The pod runs for 90 seconds, is suspended for 50 and runs again for 20. -/
private def pausedPod : List FleetCall :=
  startPod ++ [.advance 60, .meterUsage (some 60), .advance 30,
    .deploymentStatus 1 7 { state := .suspended, observedAt := 90 }, .advance 50,
    .recordHeartbeat 7 ⟨true, some 140⟩,
    .deploymentStatus 1 7 { state := .ready, readyInstances := 1, observedAt := 140 }, .advance 20,
    .meterUsage (some 100)]

/-- The cycles bill the first minute and the last twenty seconds. -/
theorem billed_only_while_ready_paused :
    billedSeconds {} quotedRates 1 (podOwner 100) pausedPod = 80 ∧
      billedSeconds {} quotedRates 1 (podOwner 100) pausedPod ≤
        readySeconds {} quotedRates 1 (podOwner 100) pausedPod :=
  ⟨by decide +kernel, (billed_only_while_ready {} quotedRates 1).2 _ _ (by decide +kernel)⟩

end GreenCompute
