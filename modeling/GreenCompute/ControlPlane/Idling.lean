import GreenCompute.ControlPlane.Suspensions
import GreenCompute.Foundations.Steps

/-!
# Models that nobody asks

A customer's own model is suspended after a while without invocations. The sweep goes by the last
invocation, if there ever was one, and else by the time of the row.

A history records each invocation, and notes when a deployment last became ready. The sweep counts
from the later of the two all along a history exactly when every step keeps the count
(`idle_counts_from_later_iff`): a resumed model that was invoked before it was suspended breaks it,
and so does any rewriting of the row of a model that was never invoked.
-/

namespace GreenCompute

open ControlPlaneRepository ControlPlaneService

variable {settings : Settings} {s : Fleet} {d : DeploymentId}

/-- The deployment serves a customer's own model: an inference workload that is not one of the
shared ones. -/
def Fleet.PrivateModel (s : Fleet) (d : DeploymentId) : Prop :=
  ∃ record workload, s.record d = some record ∧
    s.workloads.get? record.workloadId = some workload ∧
      workload.kind = .inference ∧ managedByFlux workload.metadata = false

instance (s : Fleet) (d : DeploymentId) : Decidable (s.PrivateModel d) :=
  decidable_of_iff (((s.record d).bind fun record ↦ s.workloads.get? record.workloadId).any
    fun workload ↦ workload.kind = .inference ∧ managedByFlux workload.metadata = false) (by
      rw [Option.any_eq_true]
      constructor
      · rintro ⟨workload, hfound, hmine⟩
        obtain ⟨record, hrecord, hworkload⟩ := Option.bind_eq_some_iff.mp hfound
        exact ⟨record, workload, hrecord, hworkload, of_decide_eq_true hmine⟩
      · rintro ⟨record, workload, hrecord, hworkload, hmine⟩
        exact ⟨workload, Option.bind_eq_some_iff.mpr ⟨record, hrecord, hworkload⟩,
          decide_eq_true hmine⟩)

/-! ## The sweep -/

/-- A pass over other deployments leaves this one alone. -/
theorem state_suspendAllIdle_of_not_mem (observedAt : Time)
    (lastInvocationAt : DeploymentId → Option Time)
    {ready : List (DeploymentId × DeploymentRecord)} (h : d ∉ ready.map Prod.fst) (s : Fleet) :
    (run settings (suspendAllIdle settings observedAt lastInvocationAt ready) s).1.position d =
      s.position d := by
  induction ready generalizing s with
  | nil => rfl
  | cons entry ready ih =>
    rw [List.map_cons, List.mem_cons, not_or] at h
    rw [suspendAllIdle, run_bind, ih h.2]
    exact position_run_of_about settings
      ((permits_about entry.1).suspendIdle_uses observedAt _ entry.2) h.1 s

/-- A pass over a ready model of a customer's suspends it if its last activity is long ago. -/
theorem state_suspendIdle_iff {record : DeploymentRecord} (hrecord : s.record d = some record)
    (hready : record.state = .ready) (hmodel : s.PrivateModel d) (observedAt : Time)
    (lastInvocation : Option Time) :
    (run settings (suspendIdle settings observedAt lastInvocation d record) s).1.state d =
        some .suspended ↔
      settings.idlePrivateEndpointTimeoutSeconds ≤
        observedAt - lastInvocation.getD record.updatedAt := by
  obtain ⟨record', workload, hrecord', hworkload, hkind, hflux⟩ := hmodel
  obtain rfl := Option.some.inj (hrecord.symm.trans hrecord')
  have hmine : (s.workloads.get? record.workloadId).any
      (fun w ↦ w.kind = .inference ∧ managedByFlux w.metadata = false) = true := by
    rw [hworkload, Option.any_some]
    exact decide_eq_true ⟨hkind, hflux⟩
  rw [suspendIdle, run_bind, run_getWorkload]
  dsimp only
  rw [if_pos hmine]
  by_cases hyoung : observedAt - lastInvocation.getD record.updatedAt <
      settings.idlePrivateEndpointTimeoutSeconds
  · rw [if_pos hyoung, run_pure]
    refine iff_of_false (fun h ↦ ?_) (not_le.mpr hyoung)
    rw [Fleet.state_of_some hrecord, hready] at h
    cases h
  · rw [if_neg hyoung, run_bind, run_call, run_bind, run_pure]
    refine iff_of_true ?_ (not_lt.mp hyoung)
    have hspec := run_updateDeploymentStatus settings d
      { state := .suspended, error := some (idleMessage settings),
        suspendedReason := some "idle".toList, observedAt := s.now } s
    cases hspec with
    | refused same why =>
      rcases why record hrecord with hterminal | hrefused
      · rw [hready] at hterminal
        exact absurd hterminal (by decide)
      · rw [hready] at hrefused
        cases hrefused
    | saved record' readyAt found live allowed moved =>
      have hstate := congrArg Stand.record moved
      exact Fleet.state_of_some hstate

/-- The sweep suspends a ready model of a customer's exactly if its last invocation, or else the
time of its row, is as long ago as the timeout. -/
theorem idle_suspends_iff {record : DeploymentRecord} (hrecord : s.record d = some record)
    (hready : record.state = .ready) (hmodel : s.PrivateModel d)
    (lastInvocationAt : DeploymentId → Option Time) (now : Option Time) :
    (run settings (processIdleInferenceDeployments settings lastInvocationAt now) s).1.state d =
        some .suspended ↔
      settings.idlePrivateEndpointTimeoutSeconds ≤
        now.getD s.now - (lastInvocationAt d).getD record.updatedAt := by
  have htime : run settings (timeOr now) s = (s, now.getD s.now) := by cases now <;> rfl
  rw [processIdleInferenceDeployments, run_bind, htime, run_bind, run_listDeploymentsByState]
  dsimp only
  have hnodup := nodup_listDeploymentsByState .ready s
  have hmem : (d, record) ∈ listDeploymentsByState .ready s :=
    mem_listDeploymentsByState.mpr ⟨hrecord, hready⟩
  have hrest : ∀ {ready : List (DeploymentId × DeploymentRecord)} {t : Fleet},
      (ready.map Prod.fst).Nodup → (d, record) ∈ ready → t.record d = some record →
      t.PrivateModel d →
      ((run settings (suspendAllIdle settings (now.getD s.now) lastInvocationAt ready)
          t).1.state d = some .suspended ↔
        settings.idlePrivateEndpointTimeoutSeconds ≤
          now.getD s.now - (lastInvocationAt d).getD record.updatedAt) := by
    intro ready t hnodup hmem hrecord hmodel
    induction ready generalizing t with
    | nil => cases hmem
    | cons entry ready ih =>
      rw [List.map_cons, List.nodup_cons] at hnodup
      rw [suspendAllIdle, run_bind]
      rcases List.mem_cons.mp hmem with rfl | hmem
      · rw [← state_position, state_suspendAllIdle_of_not_mem _ _ hnodup.1, state_position]
        exact state_suspendIdle_iff hrecord hready hmodel _ _
      · have hother : d ≠ entry.1 := by
          rintro rfl
          exact hnodup.1 (List.mem_map.mpr ⟨(entry.1, record), hmem, rfl⟩)
        have habout : (suspendIdle settings (now.getD s.now) (lastInvocationAt entry.1) entry.1
            entry.2).Uses (About entry.1) :=
          (permits_about entry.1).suspendIdle_uses _ _ entry.2
        have hkept := position_run_of_about settings habout hother t
        have hsame := congrArg (fun p ↦ p.stand.record) hkept
        obtain ⟨r, w, hr, hw⟩ := hmodel
        refine ih hnodup.2 hmem (hsame.trans hrecord) ⟨r, w, hsame.trans hr, ?_⟩
        rw [workloads_run]
        exact hw
  exact hrest hnodup hmem hrecord hmodel

/-! ## Histories -/

/-- The control plane's tables with `invocation_records`: what was invoked, and when. With them goes
a note of when each deployment last became ready, by the report that made it so. -/
structure ModelHistory where
  fleet : Fleet
  invocations : List (DeploymentId × Time)
  readySince : DeploymentId → Option Time

/-- A step of a history: a transaction of any call, or an invocation that is recorded. -/
inductive ModelStep where
  | transaction (o : FleetOp)
  | recordInvocation (d : DeploymentId)

namespace ModelHistory

variable (w : ModelHistory)

/-- `last_invocation_at` -/
def lastInvocationAt (d : DeploymentId) : Option Time :=
  ((w.invocations.filter fun row ↦ row.1 = d).map Prod.snd).max?

/-- The note of when a deployment became ready, after a transaction. -/
def noteReady (fleet : Fleet) (d : DeploymentId) : Option Time :=
  if fleet.state d = some .ready ∧ w.fleet.state d ≠ some .ready then
    (fleet.record d).map DeploymentRecord.updatedAt
  else w.readySince d

/-- What a step does. -/
def exec (settings : Settings) : ModelStep → ModelHistory → ModelHistory
  | .transaction o, w =>
    let fleet := (o.exec settings w.fleet).1
    { w with fleet := fleet, readySince := w.noteReady fleet }
  | .recordInvocation d, w => { w with invocations := (d, w.fleet.now) :: w.invocations }

/-- The sweep suspends a customer's ready model exactly if it last became ready, and was last
invoked if ever, as long ago as the timeout, whatever time the sweep is for. -/
def CountsFromLater (settings : Settings) (d : DeploymentId) : Prop :=
  w.fleet.state d = some .ready → ∀ now : Option Time,
    ((run settings (processIdleInferenceDeployments settings w.lastInvocationAt now)
        w.fleet).1.state d = some .suspended ↔
      (∃ since, w.readySince d = some since ∧
        settings.idlePrivateEndpointTimeoutSeconds ≤ now.getD w.fleet.now - since) ∧
      ∀ last, w.lastInvocationAt d = some last →
        settings.idlePrivateEndpointTimeoutSeconds ≤ now.getD w.fleet.now - last)

/-- The record that is saved does not make a model ready after it was last invoked, nor give another
time to a ready model that was never invoked. -/
def SavesCount (d : DeploymentId) (saved : DeploymentRecord) : Prop :=
  saved.state = .ready →
    if w.fleet.state d = some .ready then
      w.lastInvocationAt d = none → (w.fleet.record d).all (saved.updatedAt = ·.updatedAt)
    else (w.lastInvocationAt d).all (saved.updatedAt ≤ ·)

/-- The first invocation of a ready model is not before the time of its row. -/
def InvokesCount (d : DeploymentId) : Prop :=
  w.lastInvocationAt d = none → w.fleet.state d = some .ready →
    (w.fleet.record d).all (·.updatedAt ≤ w.fleet.now)

end ModelHistory

/-- The record that a step saves over a deployment's. -/
def ModelStep.saves (d : DeploymentId) : ModelStep → Option DeploymentRecord
  | .transaction (.updateDeployment d' saved) => if d' = d then some saved else none
  | _ => none

/-- Whether a step is an invocation of a deployment. -/
def ModelStep.invokes (d : DeploymentId) : ModelStep → Bool
  | .recordInvocation d' => d' = d
  | .transaction _ => false

namespace ModelHistory

/-- What a step has to meet for the sweep to count from the later of the two. -/
def KeepsCount (d : DeploymentId) (step : ModelStep) (w : ModelHistory) : Prop :=
  (∀ saved ∈ step.saves d, w.SavesCount d saved) ∧ (step.invokes d → w.InvokesCount d)

instance (w : ModelHistory) (d : DeploymentId) (saved : DeploymentRecord) :
    Decidable (w.SavesCount d saved) :=
  inferInstanceAs (Decidable (saved.state = .ready →
    if w.fleet.state d = some .ready then
      w.lastInvocationAt d = none → (w.fleet.record d).all (saved.updatedAt = ·.updatedAt)
    else (w.lastInvocationAt d).all (saved.updatedAt ≤ ·)))

instance (w : ModelHistory) (d : DeploymentId) : Decidable (w.InvokesCount d) :=
  inferInstanceAs (Decidable (w.lastInvocationAt d = none → w.fleet.state d = some .ready →
    (w.fleet.record d).all (·.updatedAt ≤ w.fleet.now)))

instance (d : DeploymentId) (step : ModelStep) (w : ModelHistory) :
    Decidable (KeepsCount d step w) :=
  inferInstanceAs (Decidable ((∀ saved ∈ step.saves d, w.SavesCount d saved) ∧
    (step.invokes d → w.InvokesCount d)))

/-- The time that the sweep goes by is the later of the two. -/
def CountsRight (w : ModelHistory) (d : DeploymentId) : Prop :=
  ∀ record since, w.fleet.record d = some record → record.state = .ready →
    w.readySince d = some since →
    match w.lastInvocationAt d with
    | none => record.updatedAt = since
    | some last => since ≤ last

/-- A customer's model, with a note of when it became ready if it is. -/
structure Tracked (w : ModelHistory) (d : DeploymentId) : Prop where
  model : w.fleet.PrivateModel d
  since : w.fleet.state d = some .ready → ∃ since, w.readySince d = some since

variable {w : ModelHistory}

/-- Counting from the later of the two, at every time, is going by the later of the two. -/
theorem countsFromLater_iff (h : w.Tracked d) :
    w.CountsFromLater settings d ↔ w.CountsRight d := by
  have hiff : ∀ record since, w.fleet.record d = some record → record.state = .ready →
      w.readySince d = some since → ∀ now : Option Time,
      ((run settings (processIdleInferenceDeployments settings w.lastInvocationAt now)
          w.fleet).1.state d = some .suspended ↔
        (∃ since, w.readySince d = some since ∧
          settings.idlePrivateEndpointTimeoutSeconds ≤ now.getD w.fleet.now - since) ∧
        ∀ last, w.lastInvocationAt d = some last →
          settings.idlePrivateEndpointTimeoutSeconds ≤ now.getD w.fleet.now - last) ↔
      (settings.idlePrivateEndpointTimeoutSeconds ≤
          now.getD w.fleet.now - (w.lastInvocationAt d).getD record.updatedAt ↔
        settings.idlePrivateEndpointTimeoutSeconds ≤ now.getD w.fleet.now - since ∧
        ∀ last, w.lastInvocationAt d = some last →
          settings.idlePrivateEndpointTimeoutSeconds ≤ now.getD w.fleet.now - last) := by
    intro record since hrecord hready hsince now
    rw [idle_suspends_iff hrecord hready h.model, hsince]
    simp only [Option.some.injEq, exists_eq_left']
  constructor
  · intro hcounts record since hrecord hready hsince
    have hstate : w.fleet.state d = some .ready :=
      (Fleet.state_of_some hrecord).trans (congrArg some hready)
    have hat := fun now ↦ (hiff record since hrecord hready hsince (some now)).mp
      (hcounts hstate (some now))
    cases hlast : w.lastInvocationAt d with
    | none =>
      simp only [hlast, Option.getD_none, Option.getD_some] at hat
      have hfrom := (hat (record.updatedAt + settings.idlePrivateEndpointTimeoutSeconds)).mp
        (by linarith)
      have hback := (hat (since + settings.idlePrivateEndpointTimeoutSeconds)).mpr
        ⟨by linarith, nofun⟩
      exact le_antisymm (by linarith) (by linarith [hfrom.1])
    | some last =>
      simp only [hlast, Option.getD_some] at hat
      have hfrom := (hat (last + settings.idlePrivateEndpointTimeoutSeconds)).mp (by linarith)
      have hle : since ≤ last := by linarith [hfrom.1]
      exact hle
  · intro hright hstate now
    obtain ⟨record, hrecord, hready⟩ := Option.map_eq_some_iff.mp hstate
    obtain ⟨since, hsince⟩ := h.since hstate
    have hcount := hright record since hrecord hready hsince
    rw [hiff record since hrecord hready hsince]
    cases hlast : w.lastInvocationAt d with
    | none =>
      rw [hlast] at hcount
      have hrow : record.updatedAt = since := hcount
      rw [Option.getD_none, hrow]
      exact ⟨fun h ↦ ⟨h, nofun⟩, And.left⟩
    | some last =>
      rw [hlast] at hcount
      have hle : since ≤ last := hcount
      rw [Option.getD_some]
      constructor
      · intro hlong
        refine ⟨by linarith, fun l hl ↦ ?_⟩
        obtain rfl := Option.some.inj hl
        exact hlong
      · exact fun hboth ↦ hboth.2 last rfl

/-! ## What a step does to the count -/

theorem readySince_transaction (settings : Settings) (o : FleetOp) (d : DeploymentId) :
    (exec settings (.transaction o) w).readySince d =
      w.noteReady (o.exec settings w.fleet).1 d := rfl

/-- An invocation is later than those before it, or else the last stays the last. -/
theorem lastInvocationAt_recordInvocation (settings : Settings) (d' d : DeploymentId) :
    (exec settings (.recordInvocation d') w).lastInvocationAt d =
      if d' = d then some ((w.lastInvocationAt d).elim w.fleet.now (max w.fleet.now))
      else w.lastInvocationAt d := by
  rw [lastInvocationAt, exec, List.filter_cons]
  by_cases hd : d' = d
  · rw [if_pos hd, if_pos (decide_eq_true hd), List.map_cons, List.max?_cons]
    rfl
  · rw [if_neg hd, if_neg (by rw [decide_eq_true_iff]; exact hd)]
    rfl

theorem tracked_exec (settings : Settings) (step : ModelStep) (h : w.Tracked d) :
    (exec settings step w).Tracked d := by
  cases step with
  | recordInvocation d' => exact ⟨h.model, h.since⟩
  | transaction o =>
    obtain ⟨record, workload, hrecord, hworkload, hmine⟩ := h.model
    have hworkloads := (leaves_exec settings o w.fleet).workloads
    constructor
    · cases recordStep_exec settings o d w.fleet with
      | kept hkept =>
        refine ⟨record, workload, hkept.trans hrecord, ?_, hmine⟩
        change (o.exec settings w.fleet).1.workloads.get? _ = _
        rw [hworkloads, hworkload]
      | saved saved op hsaved =>
        obtain ⟨row, hrow, rfl⟩ := Fleet.record_eq_some hrecord
        rw [hrow] at hsaved
        refine ⟨_, workload, hsaved, ?_, hmine⟩
        change (o.exec settings w.fleet).1.workloads.get? _ = _
        rw [hworkloads]
        exact hworkload
      | created saved op fresh hcreated =>
        obtain ⟨row, hrow, -⟩ := Fleet.record_eq_some hrecord
        exact nomatch fresh.symm.trans hrow
    · intro hready
      rw [readySince_transaction, noteReady]
      by_cases hwas : w.fleet.state d = some .ready
      · rw [if_neg fun hnew ↦ hnew.2 hwas]
        exact h.since hwas
      · rw [if_pos ⟨hready, hwas⟩]
        obtain ⟨saved, hsaved, -⟩ := Option.map_eq_some_iff.mp hready
        have hrecord : (o.exec settings w.fleet).1.record d = some saved := hsaved
        rw [hrecord]
        exact ⟨saved.updatedAt, rfl⟩

/-- A transaction that keeps the record keeps the count. -/
theorem countsRight_of_kept {o : FleetOp}
    (hkept : (o.exec settings w.fleet).1.record d = w.fleet.record d) :
    (exec settings (.transaction o) w).CountsRight d ↔ w.CountsRight d := by
  have hstate := Fleet.state_of_record hkept
  have hnote : (exec settings (.transaction o) w).readySince d = w.readySince d := by
    rw [readySince_transaction, noteReady, hstate, if_neg fun h ↦ h.2 h.1]
  rw [CountsRight, CountsRight, hnote]
  change (∀ record since, (o.exec settings w.fleet).1.record d = some record → _) ↔ _
  rw [hkept]
  rfl

/-- Saving a record over that of a customer's model keeps the count exactly if it meets the
condition. -/
theorem countsRight_saved {saved record : DeploymentRecord} (h : w.Tracked d)
    (hcount : w.CountsRight d) (hrecord : w.fleet.record d = some record)
    (hsaved : ((FleetOp.updateDeployment d saved).exec settings w.fleet).1.record d =
      some { saved with workloadId := record.workloadId }) :
    (exec settings (.transaction (.updateDeployment d saved)) w).CountsRight d ↔
      w.SavesCount d saved := by
  have hafter : (exec settings (.transaction (.updateDeployment d saved)) w).CountsRight d ↔
      (saved.state = .ready →
        ∀ since, w.noteReady ((FleetOp.updateDeployment d saved).exec settings w.fleet).1 d =
          some since → match w.lastInvocationAt d with
            | none => saved.updatedAt = since
            | some last => since ≤ last) := by
    constructor
    · intro hright hready since hsince
      exact hright { saved with workloadId := record.workloadId } since hsaved hready hsince
    · intro hright record' since hrecord' hready hsince
      obtain rfl := Option.some.inj (hsaved.symm.trans hrecord')
      exact hright hready since hsince
  rw [hafter]
  by_cases hready : saved.state = .ready
  swap
  · exact iff_of_true (fun h ↦ absurd h hready) fun h ↦ absurd h hready
  have hnow : ((FleetOp.updateDeployment d saved).exec settings w.fleet).1.state d =
      some .ready := (Fleet.state_of_some hsaved).trans (congrArg some hready)
  rw [forall_prop_of_true hready, noteReady]
  by_cases hwas : w.fleet.state d = some .ready
  · -- It was ready, and has been since the same time.
    obtain ⟨since, hsince⟩ := h.since hwas
    have hrecordReady : record.state = .ready :=
      Option.some.inj ((Fleet.state_of_some hrecord).symm.trans hwas)
    have hbefore := hcount record since hrecord hrecordReady hsince
    rw [if_neg fun hnew ↦ hnew.2 hwas, hsince, SavesCount, forall_prop_of_true hready,
      if_pos hwas, hrecord, Option.all_some, decide_eq_true_iff]
    cases hlast : w.lastInvocationAt d with
    | none =>
      rw [hlast] at hbefore
      have hrow : record.updatedAt = since := hbefore
      rw [forall_prop_of_true rfl, hrow]
      exact ⟨fun hall ↦ hall since rfl, fun heq since' hsince' ↦ Option.some.inj hsince' ▸ heq⟩
    | some last =>
      rw [hlast] at hbefore
      refine iff_of_true (fun since' hsince' ↦ ?_) nofun
      obtain rfl := Option.some.inj hsince'
      exact hbefore
  · rw [if_pos ⟨hnow, hwas⟩, hsaved, SavesCount, forall_prop_of_true hready, if_neg hwas]
    cases hlast : w.lastInvocationAt d with
    | none => exact iff_of_true (fun since hsince ↦ Option.some.inj hsince) rfl
    | some last =>
      rw [Option.all_some, decide_eq_true_iff]
      exact ⟨fun hall ↦ hall _ rfl, fun hle since hsince ↦ Option.some.inj hsince ▸ hle⟩

/-- An invocation of a customer's model keeps the count exactly if it meets the condition. -/
theorem countsRight_recordInvocation (h : w.Tracked d) (hcount : w.CountsRight d) :
    (exec settings (.recordInvocation d) w).CountsRight d ↔ w.InvokesCount d := by
  have hafter : (exec settings (.recordInvocation d) w).CountsRight d ↔
      ∀ record since, w.fleet.record d = some record → record.state = .ready →
        w.readySince d = some since →
          since ≤ (w.lastInvocationAt d).elim w.fleet.now (max w.fleet.now) := by
    rw [CountsRight, lastInvocationAt_recordInvocation, if_pos rfl]
    rfl
  rw [hafter, InvokesCount]
  cases hlast : w.lastInvocationAt d with
  | some last =>
    refine iff_of_true (fun record since hrecord hready hsince ↦ ?_) nofun
    have hbefore := hcount record since hrecord hready hsince
    rw [hlast] at hbefore
    exact hbefore.trans (le_max_right _ _)
  | none =>
    rw [forall_prop_of_true rfl]
    constructor
    · intro hall hstate
      obtain ⟨record, hrecord, hready⟩ := Option.map_eq_some_iff.mp hstate
      obtain ⟨since, hsince⟩ := h.since hstate
      have hbefore := hcount record since hrecord hready hsince
      rw [hlast] at hbefore
      have hrow : record.updatedAt = since := hbefore
      rw [hrecord, Option.all_some, decide_eq_true_iff, hrow]
      exact hall record since hrecord hready hsince
    · intro hkeeps record since hrecord hready hsince
      have hbefore := hcount record since hrecord hready hsince
      rw [hlast] at hbefore
      have hrow : record.updatedAt = since := hbefore
      have hle := hkeeps ((Fleet.state_of_some hrecord).trans (congrArg some hready))
      rw [hrecord, Option.all_some, decide_eq_true_iff, hrow] at hle
      exact hle

/-- A step keeps the count exactly if it meets the condition. -/
theorem countsRight_exec (settings : Settings) (step : ModelStep) (h : w.Tracked d)
    (hcount : w.CountsRight d) :
    (exec settings step w).CountsRight d ↔ KeepsCount d step w := by
  rw [KeepsCount]
  cases step with
  | recordInvocation d' =>
    have hsaves : ∀ saved ∈ (ModelStep.recordInvocation d').saves d, w.SavesCount d saved :=
      fun saved hsaved ↦ absurd hsaved (Option.not_mem_none saved)
    rw [and_iff_right hsaves]
    by_cases hd : d' = d
    · subst hd
      have hinvokes : (ModelStep.recordInvocation d').invokes d' = true := decide_eq_true rfl
      rw [countsRight_recordInvocation h hcount, forall_prop_of_true hinvokes]
    · refine iff_of_true ?_ fun hinvokes ↦ absurd (of_decide_eq_true hinvokes) hd
      rw [CountsRight, lastInvocationAt_recordInvocation, if_neg hd]
      exact hcount
  | transaction o =>
    obtain ⟨record, workload, hrecord, -⟩ := h.model
    have hinvokes : (ModelStep.transaction o).invokes d = true → w.InvokesCount d :=
      fun hinvokes ↦ absurd hinvokes Bool.false_ne_true
    rw [and_iff_left hinvokes]
    by_cases hsaves : ∃ saved, o = .updateDeployment d saved
    · obtain ⟨saved, rfl⟩ := hsaves
      obtain ⟨row, hrow, rfl⟩ := Fleet.record_eq_some hrecord
      have hsaved : ((FleetOp.updateDeployment d saved).exec settings w.fleet).1.record d =
          some (savedRow saved (w.fleet.deployments.get? d)).record := by
        simp [FleetOp.exec, ControlPlaneRepository.updateDeployment, Fleet.record]
      rw [hrow] at hsaved
      rw [countsRight_saved h hcount hrecord hsaved, ModelStep.saves, if_pos rfl]
      exact ⟨fun h saved' hsaved' ↦ Option.some.inj hsaved' ▸ h, fun h ↦ h saved rfl⟩
    · have hkept : (o.exec settings w.fleet).1.record d = w.fleet.record d := by
        cases recordStep_exec settings o d w.fleet with
        | kept hkept => exact hkept
        | saved saved op hsaved => exact absurd ⟨saved, op⟩ hsaves
        | created saved op fresh hcreated =>
          obtain ⟨row, hrow, -⟩ := Fleet.record_eq_some hrecord
          cases fresh.symm.trans hrow
      have hnone : (ModelStep.transaction o).saves d = none := by
        cases o with
        | updateDeployment d' saved => exact if_neg fun hd ↦ hsaves ⟨saved, by rw [hd]⟩
        | _ => rfl
      rw [countsRight_of_kept hkept, hnone]
      exact iff_of_true hcount fun saved hsaved ↦ absurd hsaved (Option.not_mem_none saved)

/-- All along a history of a customer's model the sweep counts from the later of its last invocation
and its last start, exactly when every step keeps the count. -/
theorem idle_counts_from_later_iff (settings : Settings) {w : ModelHistory} {d : DeploymentId}
    (model : w.fleet.PrivateModel d) (starting : w.fleet.state d ≠ some .ready)
    (steps : List ModelStep) :
    (∀ steps', steps' <+: steps →
      (Steps.replay (exec settings) w steps').CountsFromLater settings d) ↔
      Steps.Admitted (exec settings) (KeepsCount d) w steps := by
  refine Steps.throughout_iff (I := fun w : ModelHistory ↦ w.Tracked d)
    (P := fun w : ModelHistory ↦ w.CountsFromLater settings d)
    (fun step _ h ↦ tracked_exec settings step h) (fun step w h hcounts ↦ ?_) steps
    ⟨model, fun h ↦ absurd h starting⟩ fun h ↦ absurd h starting
  rw [countsFromLater_iff (tracked_exec settings step h)]
  exact countsRight_exec settings step h ((countsFromLater_iff h).mp hcounts)

end ModelHistory

/-! ### Histories of calls -/

open ModelHistory

/-- The transactions of a call with nothing in between. -/
def stepsOf (settings : Settings) (protocol : Protocol) (c : FleetCall) (s : Fleet) :
    List ModelStep :=
  (Program.trace (fleet settings) (c.body settings protocol) s).map fun e ↦ .transaction e.1

/-- The steps of some calls that are made in turn, with an invocation of the deployment where a call
is missing. -/
def historyOf (settings : Settings) (protocol : Protocol) (d : DeploymentId) :
    List (Option FleetCall) → ModelHistory → List ModelStep
  | [], _ => []
  | some c :: calls, w =>
    let steps := stepsOf settings protocol c w.fleet
    steps ++ historyOf settings protocol d calls (Steps.replay (exec settings) w steps)
  | none :: calls, w =>
    .recordInvocation d ::
      historyOf settings protocol d calls (exec settings (.recordInvocation d) w)

/-- User 1 and a model of one 4090, deployed as deployment 1 and not placed yet. -/
def modelOwner : ModelHistory where
  fleet :=
    let s := { podOwner 1000 with
      workloads := .ofRows [("pod".toList, { onePod with kind := .inference })] }
    (controlPlane {} quotedRates).afterAll s (startPod.take 3)
  invocations := []
  readySince _ := none

/-- The model is placed and becomes ready, and is asked once. -/
def askedOnce : List (Option FleetCall) := (startPod.drop 3).map some ++ [none]

theorem idle_counts_from_later_asked :
    modelOwner.fleet.PrivateModel 1 ∧
      (Steps.replay (exec {}) modelOwner
        (historyOf {} quotedRates 1 askedOnce modelOwner)).CountsFromLater {} 1 := by
  refine ⟨by decide +kernel, ?_⟩
  refine (idle_counts_from_later_iff {} (by decide +kernel) (by decide +kernel) _).mpr ?_ _
    (List.prefix_refl _)
  decide +kernel

/-- The model is asked once, suspended after half an hour, and resumed at once. -/
def askedAndResumed : List (Option FleetCall) :=
  askedOnce ++ [some (.advance 1800),
    some (.processIdleInferenceDeployments (fun _ ↦ some 0) none), some (.resumeDeployment 1),
    some (.deploymentStatus 1 7 { state := .ready, readyInstances := 1, observedAt := 1800 })]

/-- A model that is resumed is suspended again at once. -/
theorem resumed_model_suspended :
    ¬∀ (settings : Settings) (w : ModelHistory) (d : DeploymentId), w.fleet.PrivateModel d →
      w.fleet.state d ≠ some .ready → ∀ steps,
        (Steps.replay (exec settings) w steps).CountsFromLater settings d := by
  intro h
  have hcounts := h {} modelOwner 1 (by decide +kernel) (by decide +kernel)
    (historyOf {} quotedRates 1 askedAndResumed modelOwner) (by decide +kernel) none
  obtain ⟨⟨since, hsince, hlong⟩, -⟩ := hcounts.mp (by decide +kernel)
  have hready : (Steps.replay (exec {}) modelOwner
      (historyOf {} quotedRates 1 askedAndResumed modelOwner)).readySince 1 = some 1800 := by
    decide +kernel
  obtain rfl := Option.some.inj (hready.symm.trans hsince)
  revert hlong
  decide +kernel

end GreenCompute
