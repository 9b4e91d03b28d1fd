import GreenCompute.Foundations.Grouping
import GreenCompute.Foundations.Steps
import GreenCompute.Validator.Audit

/-!
# The worker and the chain

The validator's worker asks the chain who is registered, keeps the answer in memory, and at the end
of each epoch publishes the weights of the miners it has scored and an audit report. Any of this may
fail, for the chain may be away.

A query for the neurons that fails is answered with none, which replaces those in memory. A
submission of weights that fails is swallowed before the worker writes the epoch down as done.
`outage_harmless_iff` says which failures do no harm: exactly those queries that fail while the
chain had no neurons anyway, and those submissions that fail while none was needed or another was
made for the epoch before.

The worker's counters are left out: each of its ticks may come at any time. What connects to the
chain and fails there raises and changes nothing.
-/

namespace GreenCompute

/-! ## The metagraph -/

abbrev Uid := ℕ

/-- A neuron as the chain answers it. -/
structure Neuron where
  uid : Uid
  hotkey : Hotkey
  coldkey : Text
  stake : ℚ
  incentive : ℚ
  emission : ℚ

/-- `MetagraphEntry` -/
structure MetagraphEntry extends Neuron where
  netuid : ℕ
  syncedAt : Time

/-- `MetagraphCache` -/
structure MetagraphCache where
  entries : Table Hotkey MetagraphEntry
  byUid : Table Uid MetagraphEntry
  lastSyncedAt : Option Time

namespace MetagraphCache

/-- The cache of a worker that has just started. -/
def empty : MetagraphCache := ⟨.empty, .empty, none⟩

/-- `update`: the entries replace what was there. -/
def update (entries : List MetagraphEntry) (now : Time) : MetagraphCache where
  entries := entries.foldl (fun t e ↦ t.insert e.hotkey e) .empty
  byUid := entries.foldl (fun t e ↦ t.insert e.uid e) .empty
  lastSyncedAt := some now

/-- `is_registered` -/
def isRegistered (cache : MetagraphCache) (hotkey : Hotkey) : Bool :=
  (cache.entries.get? hotkey).isSome

/-- `hotkey_to_uid` -/
def hotkeyToUid (cache : MetagraphCache) (hotkey : Hotkey) : Option Uid :=
  (cache.entries.get? hotkey).map fun entry ↦ entry.uid

end MetagraphCache

/-- What comes of a query for the neurons. -/
inductive NeuronsQuery where
  | raises
  | fails
  | answers (neurons : List Neuron)

/-- `BittensorChainClient.sync_metagraph`, unless it raises. -/
def NeuronsQuery.entries (netuid : ℕ) (now : Time) : NeuronsQuery → Option (List MetagraphEntry)
  | raises => none
  | fails => some []
  | answers neurons => some (neurons.map fun n ↦ { n with netuid := netuid, syncedAt := now })

/-- The neurons of the last query that succeeded. -/
def NeuronsQuery.seen (before : List Neuron) : NeuronsQuery → List Neuron
  | answers neurons => neurons
  | _ => before

/-! ## Weights -/

/-- `ChainWeightCommit` -/
structure ChainWeightCommit where
  netuid : ℕ
  uids : List Uid
  weights : List ℚ

/-- The scored miners that are in the metagraph, with their weights. -/
def weightVector (cache : MetagraphCache) (scorecards : List (Hotkey × ScoreCard)) :
    List (Uid × ℚ) :=
  (scorecards.insertionSort fun a b ↦ a.1 ≤ b.1).filterMap fun card ↦
    (cache.hotkeyToUid card.1).map fun uid ↦ (uid, card.2.finalScore)

/-- `_commit_weights_to_chain` inside `publish_weight_snapshot`: what `set_weights` returns, if it
is called and returns. What it raises is logged. -/
def commitWeightsToChain (netuid : ℕ) (cache : MetagraphCache)
    (scorecards : List (Hotkey × ScoreCard)) (submitted : Bool) : Option ChainWeightCommit :=
  let vector := weightVector cache scorecards
  if vector = [] ∨ submitted = false then none
  else some ⟨netuid, vector.map Prod.fst, vector.map Prod.snd⟩

/-! ## The worker -/

/-- The validator's settings. -/
structure ChainSettings extends AuditSettings where
  bittensorEnabled : Bool
  netuid : ℕ

/-- A publication for an epoch: the miners scored, the neurons that the last query that succeeded
answered, and what was submitted. -/
structure EpochAttempt where
  endBlock : ℤ
  scorecards : List (Hotkey × ScoreCard)
  neurons : List Neuron
  commit : Option ChainWeightCommit

/-- The worker, with what is to be watched: the neurons of the last query that succeeded, the
publications for epochs, and the epochs written down as done. -/
structure ValidatorWorker where
  db : AuditDb
  metagraph : MetagraphCache
  lastAuditedEpochEnd : Option ℤ
  queried : List Neuron
  attempts : List EpochAttempt
  done : List ℤ

/-- A worker that has just started. -/
def ValidatorWorker.start (db : AuditDb) : ValidatorWorker := ⟨db, .empty, none, [], [], []⟩

/-- What comes of a tick at which the epoch is checked: the block the chain answers, how the miners
are scored, after how many scorecards the publication raises, if it does, and whether the weights
are submitted and the report is made. -/
structure EpochCheck where
  block : Option ℤ
  score : AuditDb.Scoring
  now : Time
  publishRaises : Option ℕ
  historySaved : Bool
  submitted : Bool
  reported : Bool

/-- An epoch that has closed. -/
structure EpochWindow where
  epochId : EpochId
  startBlock : ℤ
  endBlock : ℤ

/-- `AUDIT_EPOCH_LENGTH` -/
def auditEpochLength : ℤ := 360

/-- `_compute_epoch_window` -/
def computeEpochWindow (currentBlock : ℤ) (netuid : ℕ) : EpochWindow :=
  let endBlock := currentBlock / auditEpochLength * auditEpochLength
  { epochId := (toString netuid).toList ++ "-".toList ++ (toString endBlock).toList
    startBlock := endBlock - auditEpochLength
    endBlock := endBlock }

namespace ValidatorWorker

variable (settings : ChainSettings) (w : ValidatorWorker)

/-- The epoch that a tick acts on: one that has closed since the last, two blocks ago at least. -/
def dueEpoch (c : EpochCheck) : Option EpochWindow :=
  if settings.bittensorEnabled then
    c.block.bind fun block ↦
      let window := computeEpochWindow block settings.netuid
      if (w.lastAuditedEpochEnd.all fun last ↦ last < window.endBlock) ∧
          window.endBlock + 2 ≤ block then
        some window
      else none
  else none

/-- The miners scored at a tick. -/
def scored (c : EpochCheck) : List (Hotkey × ScoreCard) :=
  w.db.computeScorecards settings.toAuditSettings c.score c.now

/-- The publication of a tick. -/
def attempt (c : EpochCheck) (window : EpochWindow) : EpochAttempt where
  endBlock := window.endBlock
  scorecards := w.scored settings c
  neurons := w.queried
  commit := commitWeightsToChain settings.netuid w.metagraph (w.scored settings c) c.submitted

/-- `sync_metagraph` -/
def syncMetagraph (query : NeuronsQuery) (now : Time) : ValidatorWorker :=
  if settings.bittensorEnabled then
    match query.entries settings.netuid now with
    | none => w
    | some entries => { w with metagraph := .update entries now, queried := query.seen w.queried }
  else w

/-- The audit tick of `_validator_worker_loop`. What is raised in it is logged. -/
def checkEpoch (c : EpochCheck) : ValidatorWorker :=
  match w.dueEpoch settings c with
  | none => w
  | some window =>
    match c.publishRaises with
    | some n => { w with db := w.db.saveScorecards ((w.scored settings c).take n) }
    | none =>
      let published := w.db.publishWeightSnapshot settings.toAuditSettings c.score c.now
        settings.netuid window.epochId c.historySaved
      let attempts := w.attempt settings c window :: w.attempts
      if c.reported then
        { w with
          db := published.generateAuditReport c.now window.epochId window.startBlock
            window.endBlock settings.netuid
          lastAuditedEpochEnd := some window.endBlock
          attempts := attempts
          done := window.endBlock :: w.done }
      else { w with db := published, attempts := attempts }

end ValidatorWorker

/-- The ticks of the worker, and what goes on elsewhere: miners are probed, and staff publish
weights of their own. -/
inductive WorkerOp where
  | syncMetagraph (query : NeuronsQuery) (now : Time)
  | checkEpoch (c : EpochCheck)
  | elsewhere (call : AuditCall)

/-- One of them. -/
def WorkerOp.exec (settings : ChainSettings) : WorkerOp → ValidatorWorker → ValidatorWorker
  | syncMetagraph query now, w => w.syncMetagraph settings query now
  | checkEpoch c, w => w.checkEpoch settings c
  | elsewhere call, w => { w with db := call.exec settings.toAuditSettings w.db }

/-! ## What the worker owes -/

/-- A hotkey is among some neurons. -/
def registeredIn (neurons : List Neuron) (hotkey : Hotkey) : Bool :=
  neurons.any fun n ↦ n.hotkey = hotkey

/-- The uid of a hotkey among some neurons. -/
def uidIn (neurons : List Neuron) (hotkey : Hotkey) : Option Uid :=
  (neurons.reverse.find? fun n ↦ n.hotkey = hotkey).map Neuron.uid

/-- The weights were submitted for every scored miner that is in the metagraph, or none is. -/
def EpochAttempt.Complete (a : EpochAttempt) : Prop :=
  (∃ commit ∈ a.commit, ∀ card ∈ a.scorecards, ∀ uid ∈ uidIn a.neurons card.1,
    (uid, card.2.finalScore) ∈ commit.uids.zip commit.weights) ∨
  ∀ card ∈ a.scorecards, uidIn a.neurons card.1 = none

instance (a : EpochAttempt) : Decidable a.Complete := inferInstanceAs (Decidable (_ ∨ _))

/-- The metagraph in memory is the one queried last, and every epoch written down as done has its
weights. -/
structure ValidatorWorker.Sound (w : ValidatorWorker) : Prop where
  registered : ∀ hotkey, w.metagraph.isRegistered hotkey = registeredIn w.queried hotkey
  uid : ∀ hotkey, w.metagraph.hotkeyToUid hotkey = uidIn w.queried hotkey
  weighted : ∀ e ∈ w.done, ∃ a ∈ w.attempts, a.endBlock = e ∧ a.Complete

variable {settings : ChainSettings} {w : ValidatorWorker}

theorem sound_start (db : AuditDb) : (ValidatorWorker.start db).Sound where
  registered _ := rfl
  uid _ := rfl
  weighted _ h := absurd h List.not_mem_nil

/-! ### The metagraph -/

namespace MetagraphCache

/-- The entries of some neurons. -/
def ofNeurons (neurons : List Neuron) (netuid : ℕ) (now : Time) : MetagraphCache :=
  .update (neurons.map fun n ↦ { n with netuid := netuid, syncedAt := now }) now

theorem get?_ofNeurons (neurons : List Neuron) (netuid : ℕ) (now : Time) (hotkey : Hotkey) :
    (ofNeurons neurons netuid now).entries.get? hotkey =
      (neurons.reverse.find? fun n ↦ n.hotkey = hotkey).map
        fun n ↦ { n with netuid := netuid, syncedAt := now } := by
  have hlast := Table.get?_foldl_insert_eq_find? (fun e : MetagraphEntry ↦ e.hotkey) id
    (neurons.map fun n ↦ { n with netuid := netuid, syncedAt := now }) .empty hotkey
  rw [← List.map_reverse, List.find?_map, Option.map_id_fun, id_eq] at hlast
  exact hlast.trans (Option.or_none ..)

theorem hotkeyToUid_ofNeurons (neurons : List Neuron) (netuid : ℕ) (now : Time)
    (hotkey : Hotkey) :
    (ofNeurons neurons netuid now).hotkeyToUid hotkey = uidIn neurons hotkey := by
  rw [hotkeyToUid, get?_ofNeurons, Option.map_map]
  rfl

theorem isRegistered_ofNeurons (neurons : List Neuron) (netuid : ℕ) (now : Time)
    (hotkey : Hotkey) :
    (ofNeurons neurons netuid now).isRegistered hotkey = registeredIn neurons hotkey := by
  rw [isRegistered, get?_ofNeurons, Option.isSome_map, List.isSome_find?, List.any_reverse]
  rfl

end MetagraphCache

/-- A query that fails leaves a metagraph with nobody in it. -/
theorem registeredIn_eq_false_iff {neurons : List Neuron} :
    (∀ hotkey, registeredIn neurons hotkey = false) ↔ neurons = [] := by
  constructor
  · intro h
    cases neurons with
    | nil => rfl
    | cons n neurons =>
      have hfirst := h n.hotkey
      simp [registeredIn] at hfirst
  · rintro rfl hotkey
    rfl

/-- What a query does no harm to: it does not fail, or there was nobody to lose. -/
def NeuronsQuery.Harmless (settings : ChainSettings) (query : NeuronsQuery)
    (w : ValidatorWorker) : Prop :=
  settings.bittensorEnabled = true → query = .fails → w.queried = []

theorem sound_syncMetagraph_iff (h : w.Sound) (query : NeuronsQuery) (now : Time) :
    (w.syncMetagraph settings query now).Sound ↔ query.Harmless settings w := by
  rw [ValidatorWorker.syncMetagraph]
  by_cases henabled : settings.bittensorEnabled = true
  swap
  · rw [if_neg henabled]
    exact iff_of_true h fun h' ↦ absurd h' henabled
  rw [if_pos henabled]
  cases query with
  | raises => exact iff_of_true h fun _ hfails ↦ nomatch hfails
  | answers neurons =>
    refine iff_of_true ⟨fun hotkey ↦ ?_, fun hotkey ↦ ?_, h.weighted⟩ fun _ hfails ↦ nomatch hfails
    · exact MetagraphCache.isRegistered_ofNeurons neurons settings.netuid now hotkey
    · exact MetagraphCache.hotkeyToUid_ofNeurons neurons settings.netuid now hotkey
  | fails =>
    constructor
    · intro hsound _ _
      exact registeredIn_eq_false_iff.mp fun hotkey ↦ (hsound.registered hotkey).symm
    · intro hharmless
      have hqueried : w.queried = [] := hharmless henabled rfl
      refine ⟨fun hotkey ↦ ?_, fun hotkey ↦ ?_, h.weighted⟩
      · exact congrArg (registeredIn · hotkey) hqueried.symm
      · exact congrArg (uidIn · hotkey) hqueried.symm

/-! ### The weights -/

theorem weightVector_eq_nil_iff {cache : MetagraphCache} {scorecards : List (Hotkey × ScoreCard)} :
    weightVector cache scorecards = [] ↔ ∀ card ∈ scorecards, cache.hotkeyToUid card.1 = none := by
  rw [weightVector, List.filterMap_eq_nil_iff]
  simp only [Option.map_eq_none_iff, List.mem_insertionSort]

theorem mem_weightVector {cache : MetagraphCache} {scorecards : List (Hotkey × ScoreCard)}
    {card : Hotkey × ScoreCard} (hcard : card ∈ scorecards) {uid : Uid}
    (huid : cache.hotkeyToUid card.1 = some uid) :
    (uid, card.2.finalScore) ∈ weightVector cache scorecards := by
  refine List.mem_filterMap.mpr ⟨card, (List.mem_insertionSort _).mpr hcard, ?_⟩
  rw [huid]
  rfl

/-- Nobody whose weight would be submitted was scored. -/
def ValidatorWorker.Weightless (settings : ChainSettings) (w : ValidatorWorker) (c : EpochCheck) :
    Prop :=
  ∀ card ∈ w.scored settings c, w.metagraph.hotkeyToUid card.1 = none

/-- A publication is complete if its weights are submitted, or there are none. -/
theorem complete_attempt_iff (h : w.Sound) (c : EpochCheck) (window : EpochWindow) :
    (w.attempt settings c window).Complete ↔ c.submitted = true ∨ w.Weightless settings c := by
  have hweightless : (∀ card ∈ w.scored settings c, uidIn w.queried card.1 = none) ↔
      w.Weightless settings c := by
    simp only [ValidatorWorker.Weightless, h.uid]
  constructor
  · rintro (⟨commit, hcommit, -⟩ | hnone)
    · left
      by_contra hsubmitted
      have hnothing : (w.attempt settings c window).commit = none :=
        if_pos (.inr (Bool.eq_false_iff.mpr hsubmitted))
      exact nomatch hnothing.symm.trans hcommit
    · exact .inr (hweightless.mp hnone)
  · intro hdone
    by_cases hnone : w.Weightless settings c
    · exact .inr (hweightless.mpr hnone)
    · have hsubmitted := hdone.resolve_right hnone
      have hvector : ¬(weightVector w.metagraph (w.scored settings c) = [] ∨
          c.submitted = false) := by
        rintro (hnil | hfalse)
        · exact hnone (weightVector_eq_nil_iff.mp hnil)
        · exact nomatch hfalse.symm.trans hsubmitted
      refine .inl ⟨_, if_neg hvector, fun card hcard uid huid ↦ ?_⟩
      have hmem : (uid, card.2.finalScore) ∈ weightVector w.metagraph (w.scored settings c) :=
        mem_weightVector hcard ((h.uid card.1).trans huid)
      rw [← List.unzip_fst, ← List.unzip_snd, List.zip_unzip]
      exact hmem

/-- What a tick does no harm by: it does not write an epoch down as done, or its weights are
submitted, or there are none, or they were submitted before. -/
def EpochCheck.Harmless (settings : ChainSettings) (c : EpochCheck) (w : ValidatorWorker) : Prop :=
  ∀ window ∈ w.dueEpoch settings c, c.publishRaises = none → c.reported = true →
    (c.submitted = true ∨ w.Weightless settings c) ∨
      ∃ a ∈ w.attempts, a.endBlock = window.endBlock ∧ a.Complete

theorem sound_checkEpoch_iff (h : w.Sound) (c : EpochCheck) :
    (w.checkEpoch settings c).Sound ↔ c.Harmless settings w := by
  rw [ValidatorWorker.checkEpoch, EpochCheck.Harmless]
  cases hdue : w.dueEpoch settings c with
  | none => exact iff_of_true h fun _ hwindow ↦ nomatch hwindow
  | some window =>
    dsimp only
    cases hraises : c.publishRaises with
    | some n =>
      exact iff_of_true ⟨h.registered, h.uid, h.weighted⟩ fun _ _ hnone ↦ nomatch hnone
    | none =>
      have hold : ∀ e ∈ w.done, ∃ a ∈ w.attempt settings c window :: w.attempts,
          a.endBlock = e ∧ a.Complete := by
        intro e he
        obtain ⟨a, ha, hcomplete⟩ := h.weighted e he
        exact ⟨a, List.mem_cons_of_mem _ ha, hcomplete⟩
      have hattempt : (w.attempt settings c window).Complete ↔
          c.submitted = true ∨ w.Weightless settings c := complete_attempt_iff h c window
      dsimp only
      by_cases hreported : c.reported = true
      swap
      · rw [if_neg hreported]
        exact iff_of_true ⟨h.registered, h.uid, hold⟩ fun _ _ _ h' ↦ absurd h' hreported
      rw [if_pos hreported]
      constructor
      · rintro hsound _ ⟨⟩ - -
        obtain ⟨a, ha, hend, hcomplete⟩ := hsound.weighted window.endBlock List.mem_cons_self
        rcases List.mem_cons.mp ha with rfl | hbefore
        · exact .inl (hattempt.mp hcomplete)
        · exact .inr ⟨a, hbefore, hend, hcomplete⟩
      · intro hharmless
        refine ⟨h.registered, h.uid, fun e he ↦ ?_⟩
        rcases List.mem_cons.mp he with rfl | hbefore
        · rcases hharmless window rfl rfl hreported with hdone | ⟨a, ha, hend, hcomplete⟩
          · exact ⟨_, List.mem_cons_self, rfl, hattempt.mpr hdone⟩
          · exact ⟨a, List.mem_cons_of_mem _ ha, hend, hcomplete⟩
        · exact hold e hbefore

/-! ## Runs -/

/-- What a step does no harm by. -/
def WorkerOp.Harmless (settings : ChainSettings) : WorkerOp → ValidatorWorker → Prop
  | syncMetagraph query _, w => query.Harmless settings w
  | checkEpoch c, w => c.Harmless settings w
  | elsewhere _, _ => True

theorem sound_exec_iff (h : w.Sound) (o : WorkerOp) :
    (o.exec settings w).Sound ↔ o.Harmless settings w := by
  cases o with
  | syncMetagraph query now => exact sound_syncMetagraph_iff h query now
  | checkEpoch c => exact sound_checkEpoch_iff h c
  | elsewhere call => exact iff_of_true ⟨h.registered, h.uid, h.weighted⟩ trivial

/-- In a run of a worker that has just started, the metagraph in memory is at every moment the one
that was queried last, and every epoch written down as done has its weights, exactly if no query
fails while somebody is registered, and no epoch is written down whose weights are still to be
submitted. -/
theorem outage_harmless_iff (settings : ChainSettings) (db : AuditDb) (ops : List WorkerOp) :
    (∀ ops', ops' <+: ops →
      (Steps.replay (WorkerOp.exec settings) (.start db) ops').Sound) ↔
      Steps.Admitted (WorkerOp.exec settings) (WorkerOp.Harmless settings) (.start db) ops :=
  Steps.throughout_iff (P := ValidatorWorker.Sound) (I := fun _ ↦ True) (fun _ _ _ ↦ trivial)
    (fun o _ _ h ↦ sound_exec_iff h o) ops trivial (sound_start db)

/-! ### An outage -/

/-- Netuid 110, with a miner of uid 5. -/
def subnet : ChainSettings := { AuditDb.plainSettings with bittensorEnabled := true, netuid := 110 }

def oneNeuron : Neuron := ⟨5, 1, "cold".toList, 100, 0, 0⟩

/-- The chain answers once, and is away a minute later. -/
def outageAtQuery : List WorkerOp :=
  [.syncMetagraph (.answers [oneNeuron]) 0, .syncMetagraph .fails 60]

/-- The chain answers once, and is away when the weights of the miner's epoch are submitted. -/
def outageAtSubmission : List WorkerOp :=
  [.syncMetagraph (.answers [oneNeuron]) 0, .elsewhere (AuditDb.probed 1),
    .checkEpoch ⟨some 722, AuditDb.byProbes, 100, none, true, false, true⟩]

/-- The first outage unregisters the miner, and the second loses the epoch's weights. -/
theorem outage_harms :
    (¬∀ ops hotkey,
      (Steps.replay (WorkerOp.exec subnet) (.start .empty) ops).metagraph.isRegistered hotkey =
        registeredIn (Steps.replay (WorkerOp.exec subnet) (.start .empty) ops).queried hotkey) ∧
      ¬∀ ops, ∀ e ∈ (Steps.replay (WorkerOp.exec subnet) (.start .empty) ops).done,
        ∃ a ∈ (Steps.replay (WorkerOp.exec subnet) (.start .empty) ops).attempts,
          a.endBlock = e ∧ a.Complete := by
  constructor
  · intro h
    exact absurd (h outageAtQuery 1) (by decide +kernel)
  · intro h
    exact absurd (h outageAtSubmission) (by decide +kernel)

end GreenCompute
