import GreenCompute.Foundations.Interruption
import GreenCompute.Gateway.Members

/-!
# The calls on one fleet, transaction by transaction

Every change to a fleet runs under the fleet's lock, so the calls on one fleet come one after the
other; but each is a chain of transactions, and the gateway may stop between any two of them. Here the
calls are programs over these transactions. Run without interruption, a call does what the operation
of the same name does in one step (`FleetsCall.after_db`).
-/

namespace GreenCompute

open FleetsDb

/-! ## Transactions -/

/-- The tables, with the deployments that the fleet ever created. -/
structure FleetHistory where
  db : FleetsDb
  made : List DeploymentId

/-- The transactions of the calls on a fleet; `read` is any query, of what is then there. -/
inductive FleetTransaction where
  | read
  | insertFleet (request : FleetRequest) (target : FleetTarget)
  | changeFleet (target : Option FleetTarget) (paused : Option Bool)
  | markStopped (keepRunning : Bool)
  | adoptOrphans (fleet : FleetRow)
  | recordProgress (ran done : List DeploymentId)
  | setStatus (reason : FleetStatus) (state : Option FleetState)
  | terminate (d : DeploymentId)
  | createDeployment (d : DeploymentId) (fleet : FleetRow) (slot : ℕ)
  | addMember (d : DeploymentId) (slot : ℕ)

/-- What each answers: a change says whether the fleet was there and not stopped, a creation whether
the identifier was new. -/
abbrev FleetTransaction.Ans : FleetTransaction → Type
  | read => FleetsDb
  | changeFleet .. | createDeployment .. => Bool
  | _ => Unit

/-- The interface of a fleet's transactions. -/
abbrev FleetInterface : Interface := ⟨FleetTransaction, FleetTransaction.Ans⟩

namespace FleetHistory

/-- An identifier that nothing goes by. -/
def IsNew (s : FleetHistory) (d : DeploymentId) : Prop :=
  s.db.deployments.get? d = none ∧ s.db.members.get? d = none ∧ d ∉ s.made

instance (s : FleetHistory) (d : DeploymentId) : Decidable (s.IsNew d) :=
  inferInstanceAs (Decidable (_ ∧ _))

end FleetHistory

/-- One transaction, with its answer. -/
def FleetTransaction.exec (f : FleetId) : (o : FleetTransaction) → FleetHistory →
    FleetHistory × o.Ans
  | read, s => (s, s.db)
  | insertFleet request target, s =>
    ({ s with db := { s.db with
        fleets := s.db.fleets.insert f (s.db.newFleet request target) } }, ())
  | changeFleet target paused, s =>
    if (s.db.fleets.get? f).all fun fleet ↦ fleet.state = .stopped then (s, false)
    else ({ s with db := { s.db with
        fleets := s.db.fleets.modify f (s.db.updatedRow target paused) } }, true)
  | markStopped keepRunning, s =>
    ({ s with db := s.db.setStatus f (.stopped keepRunning) (some .stopped) }, ())
  | adoptOrphans fleet, s => ({ s with db := s.db.adoptOrphans f fleet }, ())
  | recordProgress ran done, s =>
    ({ s with db := { s.db with members := s.db.members.map fun d m ↦
        { m with
          ran := m.ran || d ∈ ran
          finishedAt := if d ∈ done then some s.db.now else m.finishedAt } } }, ())
  | setStatus reason state, s => ({ s with db := s.db.setStatus f reason state }, ())
  | terminate d, s => ({ s with db := s.db.terminate d }, ())
  | createDeployment d fleet slot, s =>
    if s.IsNew d then ({ db := s.db.createRental d fleet slot, made := d :: s.made }, true)
    else (s, false)
  | addMember d slot, s => ({ s with db := s.db.addMember f d slot }, ())

/-! ## Programs -/

namespace FleetCalls

/-- One transaction as a program. -/
def transact (o : FleetTransaction) : Program FleetInterface o.Ans :=
  Program.op (I := FleetInterface) o

/-- `_record_progress` -/
def recordProgress (rows : List (DeploymentId × FleetMember)) (seen : FleetsDb) :
    Program FleetInterface Unit :=
  let ran := (rows.filter fun r ↦ !r.2.ran && seen.readyOnce r.1).map Prod.fst
  let done := (rows.filter fun r ↦ r.2.finishedAt = none && !seen.live r.1).map Prod.fst
  if ran = [] ∧ done = [] then pure () else transact (.recordProgress ran done)

/-- Stop some members, one after the other. -/
def terminateAll : List DeploymentId → Program FleetInterface Unit
  | [] => pure ()
  | d :: ds => do
    transact (.terminate d)
    terminateAll ds

/-- The loop of `_reconcile_locked` that starts members. An identifier that is not new is an
exception like any other. -/
def startMembers (fleet : FleetRow) :
    ℕ → List CreateAnswer → List ℕ → Program FleetInterface (ℕ × Ending)
  | 0, _, _ => pure (0, .reached)
  | _ + 1, [], _ => pure (0, .refused (.failed []))
  | needed + 1, answer :: creates, used =>
    match freeSlot used with
    | none => pure (0, .aborted)
    | some slot =>
      match answer with
      | .created d => do
        if ← transact (.createDeployment d fleet slot) then do
          transact (.addMember d slot)
          let out ← startMembers fleet needed creates (slot :: used)
          pure (out.1 + 1, out.2)
        else pure (0, .refused (.failed []))
      | .refused refusal => pure (0, .refused refusal)
      | .stopped d => do
        let _ ← transact (.createDeployment d fleet slot)
        pure (0, .aborted)

/-- The status after the starts of a pass. -/
def noteStarts (fleet : FleetRow) (live : ℕ) (credit : Option Waiting) (out : ℕ × Ending) :
    Program FleetInterface Unit :=
  match out.2 with
  | .reached => transact (.setStatus (.started (live + out.1) fleet.target credit) none)
  | .refused .workload => transact (.setStatus .workloadGone (some .paused))
  | .refused refusal =>
    transact (.setStatus (.started (live + out.1) fleet.target (some (.refused refusal))) none)
  | .aborted => pure ()

/-- The part of `_reconcile_locked` that starts the members a fleet lacks. -/
def startNeeded (f : FleetId) (fleet : FleetRow) (live : List (DeploymentId × FleetMember))
    (needed : ℤ) (finds : PassFinds) : Program FleetInterface Unit := do
  let allowed := min needed (affordable finds needed)
  let credit := if affordable finds needed < needed then
    some (Waiting.credit finds.costCents finds.committedCents finds.balanceCents) else none
  let seen ← transact .read
  let used := live.map (fun r ↦ r.2.slot) ++ if fleet.replace then [] else seen.ranSlots f
  let out ← startMembers fleet allowed.toNat finds.creates used
  noteStarts fleet live.length credit out

/-- The part of `_reconcile_locked` after the members are read, of an active fleet. -/
def fill (f : FleetId) (fleet : FleetRow) (rows : List (DeploymentId × FleetMember))
    (seen : FleetsDb) (finds : PassFinds) : Program FleetInterface Unit :=
  let live := rows.filter fun r ↦ seen.live r.1
  let streak := seen.streak fleet.failuresResetAt rows
  if failuresBeforePause ≤ streak.length then
    transact (.setStatus (.failing streak.length (seen.lastError streak)) (some .paused))
  else if (fleet.target : ℕ) < live.length then do
    terminateAll ((seen.extras fleet.target live).filter fun d ↦ d ∉ finds.unstoppable)
    transact (.setStatus (.stopping (live.length - fleet.target) fleet.target) none)
  else do
    let noted ← transact .read
    let needed := noted.needed f fleet live
    if needed ≤ 0 then
      if !fleet.replace ∧ live = [] then
        transact (.setStatus (.done fleet.target) (some .completed))
      else
        transact (.setStatus
          (.running live.length fleet.target (live.countP fun r ↦ seen.ready r.1)) none)
    else if !finds.workloadExists then transact (.setStatus .workloadDeleted (some .paused))
    else if fleet.createdByKeyId.isSome ∧ !finds.keyExists then
      transact (.setStatus .keyDeleted (some .paused))
    else startNeeded f fleet live needed finds

/-- `_reconcile_locked` -/
def reconcileLocked (f : FleetId) (finds : PassFinds) : Program FleetInterface Unit := do
  let found ← transact .read
  match found.fleets.get? f with
  | none => pure ()
  | some fleet =>
    match fleet.state with
    | .active => do
      transact (.adoptOrphans fleet)
      -- The members are read in one query, and their deployments in the next.
      let rows ← transact .read
      let seen ← transact .read
      recordProgress (rows.memberRows f) seen
      fill f fleet (rows.memberRows f) seen finds
    | .paused => do
      let rows ← transact .read
      let seen ← transact .read
      recordProgress (rows.memberRows f) seen
      let live := (rows.memberRows f).filter fun r ↦ seen.live r.1
      if (fleet.target : ℕ) < live.length then
        terminateAll ((seen.extras fleet.target live).filter fun d ↦ d ∉ finds.unstoppable)
      else pure ()
    | .completed | .stopped => pure ()

/-- `create_fleet` -/
def createFleet (f : FleetId) (request : FleetRequest) (finds : PassFinds) :
    Program FleetInterface Unit :=
  if !request.workloadFits then pure ()
  else
    match checkTarget request.target with
    | .error _ => pure ()
    | .ok target =>
      if !prefixMatches request.namePrefix then pure ()
      else do
        let found ← transact .read
        if found.prefixTaken request.ownerUserId request.namePrefix then pure ()
        else if request.resumeOnTopup ∧ !request.saveOnExhaustion then pure ()
        else do
          transact (.insertFleet request target)
          reconcileLocked f finds

/-- `update_fleet` -/
def updateFleet (f : FleetId) (target : Option ℤ) (paused : Option Bool) (finds : PassFinds) :
    Program FleetInterface Unit := do
  let found ← transact .read
  match found.fleets.get? f, target.mapM checkTarget with
  | some _, .ok target => do
    if ← transact (.changeFleet target paused) then reconcileLocked f finds else pure ()
  | _, _ => pure ()

/-- `stop_fleet` -/
def stopFleet (f : FleetId) (keepRunning : Bool) (unstoppable : List DeploymentId) :
    Program FleetInterface Unit := do
  transact (.markStopped keepRunning)
  if keepRunning then pure ()
  else do
    let rows ← transact .read
    let seen ← transact .read
    let live := (rows.memberRows f).filter fun r ↦ seen.live r.1
    terminateAll ((live.map Prod.fst).filter fun d ↦ d ∉ unstoppable)

end FleetCalls

/-- The calls on a fleet. -/
inductive FleetsCall where
  | createFleet (request : FleetRequest) (finds : PassFinds)
  | updateFleet (target : Option ℤ) (paused : Option Bool) (finds : PassFinds)
  | stopFleet (keepRunning : Bool) (unstoppable : List DeploymentId)
  | reconcile (finds : PassFinds)

/-- The answers that the call gets from `create_deployment`. -/
def FleetsCall.creates : FleetsCall → List CreateAnswer
  | createFleet _ finds | updateFleet _ _ finds | reconcile finds => finds.creates
  | stopFleet .. => []

/-- The call as one step. -/
def FleetsCall.op (f : FleetId) : FleetsCall → FleetsOp
  | createFleet request finds => .createFleet f request finds
  | updateFleet target paused finds => .updateFleet f target paused finds
  | stopFleet keepRunning unstoppable => .stopFleet f keepRunning unstoppable
  | reconcile finds => .reconcile f finds

/-- A fleet with its calls. -/
def fleetService (f : FleetId) : Service FleetInterface FleetsCall FleetHistory where
  exec := FleetTransaction.exec f
  body
    | .createFleet request finds => FleetCalls.createFleet f request finds
    | .updateFleet target paused finds => FleetCalls.updateFleet f target paused finds
    | .stopFleet keepRunning unstoppable => FleetCalls.stopFleet f keepRunning unstoppable
    | .reconcile finds => FleetCalls.reconcileLocked f finds

/-! ## Whole calls -/

namespace FleetHistory

/-- The identifiers that a pass comes to draw are new. -/
def NewIds (s : FleetHistory) (creates : List CreateAnswer) : Prop :=
  (creates.filterMap CreateAnswer.id?).Nodup ∧
    ∀ d ∈ creates.filterMap CreateAnswer.id?, s.IsNew d

instance (s : FleetHistory) (creates : List CreateAnswer) : Decidable (s.NewIds creates) :=
  inferInstanceAs (Decidable (_ ∧ _))

theorem NewIds.of_db {s : FleetHistory} {creates : List CreateAnswer} {db : FleetsDb}
    (h : s.NewIds creates) (hdb : s.db.NewIds creates → db.NewIds creates) :
    FleetHistory.NewIds ⟨db, s.made⟩ creates := by
  have hnew := hdb ⟨h.1, fun d hd ↦ ⟨(h.2 d hd).1, (h.2 d hd).2.1⟩⟩
  exact ⟨h.1, fun d hd ↦ ⟨(hnew.2 d hd).1, (hnew.2 d hd).2, (h.2 d hd).2.2⟩⟩

end FleetHistory

namespace FleetCalls

variable {f : FleetId} {fleet : FleetRow} {s : FleetHistory} {finds : PassFinds}

theorem eval_transact (o : FleetTransaction) (s : FleetHistory) :
    (transact o).eval (fleetService f).toMachine s = o.exec f s := rfl

/-- One transaction, then the rest. -/
theorem eval_transact_bind {α : Type} (o : FleetTransaction)
    (rest : o.Ans → Program FleetInterface α) (s : FleetHistory) :
    (transact o >>= rest).eval (fleetService f).toMachine s =
      (rest (o.exec f s).2).eval (fleetService f).toMachine (o.exec f s).1 :=
  Program.eval_bind ..

theorem eval_read_bind {α : Type} (rest : FleetsDb → Program FleetInterface α)
    (s : FleetHistory) :
    (transact .read >>= rest).eval (fleetService f).toMachine s =
      (rest s.db).eval (fleetService f).toMachine s :=
  Program.eval_bind ..

theorem mem_memberRows {db : FleetsDb} {d : DeploymentId} {m : FleetMember} :
    (d, m) ∈ db.memberRows f ↔
      db.members.get? d = some m ∧ (m.fleetId = f && db.recent m) = true := by
  rw [memberRows, List.mem_insertionSort, Table.mem_select]

/-- Which members of those read are in a list of some of them. -/
theorem mem_map_filter_memberRows {db : FleetsDb} {d : DeploymentId} {m : FleetMember}
    (hm : db.members.get? d = some m) (p : DeploymentId × FleetMember → Bool) :
    d ∈ ((db.memberRows f).filter p).map Prod.fst ↔
      (m.fleetId = f && db.recent m) = true ∧ p (d, m) = true := by
  constructor
  · intro hd
    obtain ⟨⟨d', m'⟩, hmem, rfl⟩ := List.mem_map.mp hd
    obtain ⟨hrow, hp⟩ := List.mem_filter.mp hmem
    obtain ⟨hm', hread⟩ := mem_memberRows.mp hrow
    obtain rfl := Option.some.inj (hm.symm.trans hm')
    exact ⟨hread, hp⟩
  · rintro ⟨hread, hp⟩
    exact List.mem_map.mpr
      ⟨(d, m), List.mem_filter.mpr ⟨mem_memberRows.mpr ⟨hm, hread⟩, hp⟩, rfl⟩

/-- What is noted of a member, from the lists of those that ran and of those that have finished. -/
theorem progress_eq {db : FleetsDb} {d : DeploymentId} {m : FleetMember}
    (hm : db.members.get? d = some m) :
    (if m.fleetId = f && db.recent m then db.progress d m else m) =
      { m with
        ran := m.ran ||
          d ∈ ((db.memberRows f).filter fun r ↦ !r.2.ran && db.readyOnce r.1).map Prod.fst
        finishedAt :=
          if d ∈ ((db.memberRows f).filter fun r ↦
            r.2.finishedAt = none && !db.live r.1).map Prod.fst then some db.now
          else m.finishedAt } := by
  simp only [mem_map_filter_memberRows hm]
  cases hread : decide (m.fleetId = f) && db.recent m with
  | false => simp only [Bool.false_eq_true, false_and, decide_false, Bool.or_false, if_false]
  | true =>
    have hran : (m.ran || decide ((!m.ran) = true ∧ db.readyOnce d = true)) =
        (m.ran || db.readyOnce d) := by
      cases m.ran <;> cases db.readyOnce d <;> rfl
    simp only [true_and, if_true, progress, hran, Bool.and_eq_true, decide_eq_true_eq]

theorem eval_recordProgress (s : FleetHistory) :
    ((recordProgress (s.db.memberRows f) s.db).eval (fleetService f).toMachine s).1 =
      { s with db := s.db.recordProgress f } := by
  rw [recordProgress]
  split
  · next hnone =>
    -- Nothing is new.
    have hsame : s.db.recordProgress f = s.db := by
      have hmembers : (s.db.members.map fun d m ↦
          if m.fleetId = f && s.db.recent m then s.db.progress d m else m) = s.db.members := by
        have hself : s.db.members.map (fun _ m ↦ m) = s.db.members := by
          simp only [Table.map, Prod.mk.eta, List.map_id']
        refine (Table.map_congr fun d m hm ↦ ?_).trans hself
        rw [progress_eq hm, hnone.1, hnone.2]
        simp only [List.not_mem_nil, decide_false, Bool.or_false, if_false]
      rw [FleetsDb.recordProgress, hmembers]
    rw [hsame]
    rfl
  · rw [eval_transact]
    refine congrArg (fun members ↦ { s with db := { s.db with members := members } }) ?_
    exact Table.map_congr fun d m hm ↦ (progress_eq hm).symm

theorem eval_terminateAll (ds : List DeploymentId) (s : FleetHistory) :
    ((terminateAll ds).eval (fleetService f).toMachine s).1 =
      { s with db := ds.foldl FleetsDb.terminate s.db } := by
  induction ds generalizing s with
  | nil => rfl
  | cons d ds ih =>
    rw [terminateAll, eval_transact_bind, ih]
    rfl

theorem eval_startMembers (needed : ℕ) {creates : List CreateAnswer} (used : List ℕ)
    (hnew : s.NewIds creates) :
    ((startMembers fleet needed creates used).eval (fleetService f).toMachine s).1.db =
        (FleetsDb.startMembers f fleet needed creates used s.db).1 ∧
      ((startMembers fleet needed creates used).eval (fleetService f).toMachine s).2 =
        (FleetsDb.startMembers f fleet needed creates used s.db).2 := by
  induction needed generalizing s creates used with
  | zero => exact ⟨rfl, rfl⟩
  | succ needed ih =>
    cases creates with
    | nil => exact ⟨rfl, rfl⟩
    | cons answer creates =>
      unfold startMembers FleetsDb.startMembers
      cases freeSlot used with
      | none => exact ⟨rfl, rfl⟩
      | some slot =>
        cases answer with
        | created d =>
          obtain ⟨hnodup, hids⟩ := hnew
          obtain ⟨hd, hnodup⟩ := List.nodup_cons.mp hnodup
          have hcreate : (FleetTransaction.createDeployment d fleet slot).exec f s =
              ({ db := s.db.createRental d fleet slot, made := d :: s.made }, true) :=
            if_pos (hids d List.mem_cons_self)
          have hrest : FleetHistory.NewIds
              ⟨(s.db.createRental d fleet slot).addMember f d slot, d :: s.made⟩ creates := by
            refine ⟨hnodup, fun d' hd' ↦ ?_⟩
            have hne : d' ≠ d := fun h ↦ hd (h ▸ hd')
            obtain ⟨hdep, hmem, hmade⟩ := hids d' (List.mem_cons_of_mem _ hd')
            exact ⟨(Table.get?_insert_ne _ hne _).trans hdep,
              (Table.get?_insert_ne _ hne _).trans hmem, List.not_mem_cons_of_ne_of_not_mem hne hmade⟩
          obtain ⟨hdb, hout⟩ := ih (slot :: used) hrest
          simp only
          rw [eval_transact_bind, hcreate]
          simp only [if_true]
          rw [eval_transact_bind, Program.eval_bind]
          exact ⟨hdb, by rw [← hout]; rfl⟩
        | refused refusal => exact ⟨rfl, rfl⟩
        | stopped d =>
          have hcreate : (FleetTransaction.createDeployment d fleet slot).exec f s =
              ({ db := s.db.createRental d fleet slot, made := d :: s.made }, true) :=
            if_pos (hnew.2 d List.mem_cons_self)
          simp only
          rw [eval_transact_bind, hcreate]
          exact ⟨rfl, rfl⟩

theorem eval_startNeeded (live : List (DeploymentId × FleetMember))
    (hnew : s.NewIds finds.creates) :
    ((startNeeded f fleet live (s.db.needed f fleet live) finds).eval
      (fleetService f).toMachine s).1.db = s.db.startNeeded f fleet live finds := by
  obtain ⟨hdb, hout⟩ := @eval_startMembers f fleet s
    (min (s.db.needed f fleet live) (affordable finds (s.db.needed f fleet live))).toNat
    finds.creates
    (live.map (fun r ↦ r.2.slot) ++ if fleet.replace then [] else s.db.ranSlots f) hnew
  rw [startNeeded, eval_read_bind, Program.eval_bind, hout, FleetsDb.startNeeded, noteStarts]
  simp only
  generalize FleetsDb.startMembers f fleet _ finds.creates _ s.db = out at hdb
  obtain ⟨db, started, ending⟩ := out
  subst hdb
  -- The status says how the starts ended.
  cases ending with
  | reached => rfl
  | refused refusal => cases refusal <;> rfl
  | aborted => rfl

theorem eval_fill (db : FleetsDb) (made : List DeploymentId)
    (hnew : FleetHistory.NewIds ⟨db.recordProgress f, made⟩ finds.creates) :
    ((fill f fleet (db.memberRows f) db finds).eval (fleetService f).toMachine
      ⟨db.recordProgress f, made⟩).1.db =
      (db.recordProgress f).fill f fleet (db.memberRows f) finds := by
  -- The notes on the members change nothing that is read of their deployments.
  have hpass : (db.recordProgress f).fill f fleet (db.memberRows f) finds =
      let live := (db.memberRows f).filter fun r ↦ db.live r.1
      let streak := db.streak fleet.failuresResetAt (db.memberRows f)
      if failuresBeforePause ≤ streak.length then
        (db.recordProgress f).setStatus f (.failing streak.length (db.lastError streak))
          (some .paused)
      else if (fleet.target : ℕ) < live.length then
        (((db.extras fleet.target live).filter fun d ↦ d ∉ finds.unstoppable).foldl
          FleetsDb.terminate (db.recordProgress f)).setStatus f
            (.stopping (live.length - fleet.target) fleet.target)
      else if (db.recordProgress f).needed f fleet live ≤ 0 then
        if !fleet.replace ∧ live = [] then
          (db.recordProgress f).setStatus f (.done fleet.target) (some .completed)
        else (db.recordProgress f).setStatus f
          (.running live.length fleet.target (live.countP fun r ↦ db.ready r.1))
      else if !finds.workloadExists then
        (db.recordProgress f).setStatus f .workloadDeleted (some .paused)
      else if fleet.createdByKeyId.isSome ∧ !finds.keyExists then
        (db.recordProgress f).setStatus f .keyDeleted (some .paused)
      else (db.recordProgress f).startNeeded f fleet live finds := rfl
  rw [hpass, fill]
  simp only
  split
  · rfl
  · split
    · rw [Program.eval_bind, eval_terminateAll]
      rfl
    · rw [eval_read_bind]
      simp only
      split
      · split <;> rfl
      · split
        · rfl
        · split
          · rfl
          · exact @eval_startNeeded f fleet ⟨db.recordProgress f, made⟩ finds
              ((db.memberRows f).filter fun r ↦ db.live r.1) hnew

/-- An uninterrupted pass. -/
theorem eval_reconcileLocked (hnew : s.NewIds finds.creates) :
    ((reconcileLocked f finds).eval (fleetService f).toMachine s).1.db =
      s.db.reconcileLocked f finds := by
  rw [reconcileLocked, eval_read_bind, FleetsDb.reconcileLocked]
  cases s.db.fleets.get? f with
  | none => rfl
  | some fleet =>
    simp only
    cases fleet.state with
    | active =>
      simp only
      rw [eval_transact_bind, eval_read_bind, eval_read_bind, Program.eval_bind,
        eval_recordProgress]
      exact eval_fill _ _ (hnew.of_db fun h ↦ h.adoptOrphans.recordProgress)
    | paused =>
      simp only
      rw [eval_read_bind, eval_read_bind, Program.eval_bind, eval_recordProgress]
      have hpass : (let live := (s.db.memberRows f).filter fun r ↦ (s.db.recordProgress f).live r.1
          if (fleet.target : ℕ) < live.length then
            (s.db.recordProgress f).stopExtras fleet.target live finds.unstoppable
          else s.db.recordProgress f) =
          let live := (s.db.memberRows f).filter fun r ↦ s.db.live r.1
          if (fleet.target : ℕ) < live.length then
            ((s.db.extras fleet.target live).filter fun d ↦ d ∉ finds.unstoppable).foldl
              FleetsDb.terminate (s.db.recordProgress f)
          else s.db.recordProgress f := rfl
      rw [hpass]
      simp only
      split
      · rw [eval_terminateAll]
      · rfl
    | completed => rfl
    | stopped => rfl

theorem eval_createFleet (request : FleetRequest) (hnew : s.NewIds finds.creates) :
    ((createFleet f request finds).eval (fleetService f).toMachine s).1.db =
      (s.db.createFleet f request finds).toOption.getD s.db := by
  unfold createFleet FleetsDb.createFleet
  by_cases hfits : (!request.workloadFits) = true
  · rw [if_pos hfits, if_pos hfits]
    rfl
  · rw [if_neg hfits, if_neg hfits]
    cases checkTarget request.target with
    | error _ => rfl
    | ok target =>
      have hchecked {β : Type} (rest : FleetTarget → Except FleetError β) :
          (.ok target >>= rest) = rest target := rfl
      simp only [hchecked]
      split
      · rfl
      · rw [eval_read_bind]
        split
        · rfl
        · split
          · rfl
          · rw [eval_transact_bind]
            exact eval_reconcileLocked hnew

theorem eval_updateFleet (asked : Option ℤ) (paused : Option Bool)
    (hnew : s.NewIds finds.creates) :
    ((updateFleet f asked paused finds).eval (fleetService f).toMachine s).1.db =
      (s.db.updateFleet f asked paused finds).toOption.getD s.db := by
  unfold FleetsDb.updateFleet
  rw [updateFleet, eval_read_bind]
  cases hfleet : s.db.fleets.get? f with
  | none => rfl
  | some fleet =>
    cases asked.mapM checkTarget with
    | error _ => rfl
    | ok target =>
      have hchecked {β : Type} (rest : Option FleetTarget → Except FleetError β) :
          (.ok target >>= rest) = rest target := rfl
      simp only [hchecked]
      rw [eval_transact_bind]
      by_cases hstopped : fleet.state = .stopped
      · have hchange : (FleetTransaction.changeFleet target paused).exec f s = (s, false) :=
          if_pos (by rw [hfleet]; exact decide_eq_true hstopped)
        rw [hchange, if_pos hstopped]
        rfl
      · have hchange : (FleetTransaction.changeFleet target paused).exec f s =
            ({ s with db := { s.db with
                fleets := s.db.fleets.modify f (s.db.updatedRow target paused) } }, true) :=
          if_neg (by rw [hfleet]; exact fun h ↦ hstopped (of_decide_eq_true h))
        rw [hchange, if_neg hstopped]
        exact eval_reconcileLocked hnew

theorem eval_stopFleet (keepRunning : Bool) (unstoppable : List DeploymentId) :
    ((stopFleet f keepRunning unstoppable).eval (fleetService f).toMachine s).1.db =
      s.db.stopFleet f keepRunning unstoppable := by
  rw [stopFleet, eval_transact_bind, FleetsDb.stopFleet]
  split
  · rfl
  · rw [eval_read_bind, eval_read_bind, eval_terminateAll]
    rfl

end FleetCalls

/-- An uninterrupted call does what its operation does in one step. -/
theorem FleetsCall.after_db (f : FleetId) (c : FleetsCall) (s : FleetHistory)
    (hnew : s.NewIds c.creates) :
    ((fleetService f).after c s).db = (c.op f).exec s.db := by
  cases c with
  | createFleet request finds => exact FleetCalls.eval_createFleet request hnew
  | updateFleet target paused finds => exact FleetCalls.eval_updateFleet target paused hnew
  | stopFleet keepRunning unstoppable => exact FleetCalls.eval_stopFleet keepRunning unstoppable
  | reconcile finds => exact FleetCalls.eval_reconcileLocked hnew

end GreenCompute
