import GreenCompute.ControlPlane.Tables
import Mathlib.Algebra.Order.Ring.Rat
import Mathlib.Data.List.Sort

/-!
# Audit reports

Publishing weights scores the miners and stores a snapshot; for an epoch it also appends the
scorecards to the history, under the epoch and the snapshot. A report takes the scorecards of its
epoch and, of the snapshots that were published in a window around it, the last one. The two belong
together if the last one is the epoch's own: then the scores are the weights, and an auditor can
replay them (`reports_replay`).

Signatures, hashes and commitments to the chain are left out, and the score of a miner is given
with the call that computes it.
-/

namespace GreenCompute

abbrev SnapshotId := ℕ
abbrev EpochId := Text

/-! ## The tables -/

/-- `ScoreCard` -/
structure ScoreCard where
  hotkey : Hotkey
  capacityWeight : ℚ
  reliabilityScore : ℚ
  performanceScore : ℚ
  securityScore : ℚ
  fraudPenalty : ℚ
  utilizationScore : ℚ
  rentalRevenueBonus : ℚ
  finalScore : ℚ
  deriving DecidableEq

/-- A row of `weight_snapshots`. -/
structure WeightSnapshot where
  netuid : ℕ
  weights : List (Hotkey × ℚ)
  createdAt : Time

/-- A row of `scorecard_history`. -/
structure ScoreCardHistory where
  epochId : EpochId
  snapshotId : SnapshotId
  hotkey : Hotkey
  scorecard : ScoreCard
  computedAt : Time

/-- A row of `probe_challenges`. -/
structure ProbeChallenge where
  challengeId : ℕ
  hotkey : Hotkey
  nodeId : NodeId
  kind : Text
  payload : Metadata
  createdAt : Time

/-- A row of `probe_results`. -/
structure ProbeResult where
  challengeId : ℕ
  hotkey : Hotkey
  nodeId : NodeId
  latencyMs : ℚ
  throughput : ℚ
  success : Bool
  benchmarkSignature : Option Text
  proxySuspected : Bool
  readinessFailures : ℕ
  promptSha256 : Option Text
  responseSha256 : Option Text
  observedAt : Time

/-- The content of an audit report. -/
structure AuditReport where
  netuid : ℕ
  epochStartBlock : ℤ
  epochEndBlock : ℤ
  generatedAt : Time
  probes : List (ProbeChallenge × List ProbeResult)
  scorecards : List ScoreCardHistory
  weightSnapshot : Option (SnapshotId × WeightSnapshot)

/-- The validator's settings. -/
structure AuditSettings where
  whitelistEnabled : Bool
  scoreProbeLookbackSeconds : Time

/-- The validator's tables. A snapshot's identifier is drawn anew. -/
structure AuditDb where
  capabilities : Table Hotkey (List NodeCapability)
  whitelist : List Hotkey
  challenges : List ProbeChallenge
  results : List ProbeResult
  scorecards : Table Hotkey ScoreCard
  snapshots : Table SnapshotId WeightSnapshot
  history : List ScoreCardHistory
  reports : Table EpochId AuditReport
  drawn : SnapshotId
  fresh : ∀ id, drawn ≤ id → snapshots.get? id = none

namespace AuditDb

/-- A validator that has just been set up. -/
def empty : AuditDb where
  capabilities := .empty
  whitelist := []
  challenges := []
  results := []
  scorecards := .empty
  snapshots := .empty
  history := []
  reports := .empty
  drawn := 0
  fresh := fun _ _ ↦ rfl

/-! ## Publishing weights -/

/-- `list_results` -/
def listResults (hotkey : Hotkey) (since : Time) (db : AuditDb) : List ProbeResult :=
  db.results.filter fun result ↦ result.hotkey = hotkey ∧ since ≤ result.observedAt

/-- The miner's nodes as one, with the VRAM of all of them. -/
def aggregate (primary : NodeCapability) (nodes : List NodeCapability) : NodeCapability :=
  { primary with
    vramGbPerGpu :=
      max ((nodes.map fun n ↦ n.gpuCount * n.vramGbPerGpu).sum / max primary.gpuCount 1) 1
    availableGpus := min (nodes.map NodeCapability.availableGpus).sum primary.gpuCount }

/-- The score of a miner's nodes, of the probes that count. -/
abbrev Scoring := Hotkey → NodeCapability → List ProbeResult → ScoreCard

variable (settings : AuditSettings) (score : Scoring) (now : Time)

/-- The scorecard of a miner, unless it is not to be scored. -/
def scorecardOf (db : AuditDb) (hotkey : Hotkey) (nodes : List NodeCapability) :
    Option ScoreCard :=
  match nodes with
  | [] => none
  | primary :: _ =>
    let results := db.listResults hotkey (now - settings.scoreProbeLookbackSeconds)
    if settings.whitelistEnabled = true ∧ hotkey ∉ db.whitelist then none
    else if results = [] then none
    else some (score hotkey (aggregate primary nodes) results)

/-- The scorecards of all miners, in the order of their hotkeys. -/
def computeScorecards (db : AuditDb) : List (Hotkey × ScoreCard) :=
  (db.capabilities.rows.insertionSort fun a b ↦ a.1 ≤ b.1).filterMap fun r ↦
    (scorecardOf settings score now db r.1 r.2).map fun card ↦ (r.1, card)

/-- `save_scorecard`, for each. -/
def saveScorecards (cards : List (Hotkey × ScoreCard)) (db : AuditDb) : AuditDb :=
  { db with scorecards := cards.foldl (fun t card ↦ t.insert card.1 card.2) db.scorecards }

/-- `save_snapshot` -/
def saveSnapshot (snapshot : WeightSnapshot) (db : AuditDb) : AuditDb :=
  { db with
    snapshots := db.snapshots.insert db.drawn snapshot
    drawn := db.drawn + 1
    fresh := fun id hid ↦ by
      have hlt : db.drawn < id := hid
      rw [Table.get?_insert_ne _ hlt.ne', db.fresh id hlt.le] }

/-- `save_scorecard_history` -/
def saveScorecardHistory (epochId : EpochId) (snapshotId : SnapshotId)
    (cards : List (Hotkey × ScoreCard)) (db : AuditDb) : AuditDb :=
  { db with
    history := db.history ++ cards.map fun card ↦ ⟨epochId, snapshotId, card.1, card.2, now⟩ }

/-- `publish_weight_snapshot`, of an epoch or, with the empty one, of none; the history may not be
saved, which is only logged. -/
def publishWeightSnapshot (netuid : ℕ) (epochId : EpochId) (historySaved : Bool) (db : AuditDb) :
    AuditDb :=
  let cards := computeScorecards settings score now db
  let weights := (cards.insertionSort fun a b ↦ a.1 ≤ b.1).map fun card ↦ (card.1, card.2.finalScore)
  let db' := (db.saveScorecards cards).saveSnapshot ⟨netuid, weights, now⟩
  if epochId ≠ [] ∧ historySaved = true then db'.saveScorecardHistory now epochId db.drawn cards
  else db'

/-! ## Reports -/

/-- The span of time whose probes and snapshots a report takes. -/
def InWindow (at_ : Time) : Prop := now - (360 * 12 + 600) ≤ at_ ∧ at_ < now + 60

instance (at_ : Time) : Decidable (InWindow now at_) := inferInstanceAs (Decidable (_ ∧ _))

/-- `list_weight_snapshots_in_block_range`, in no order. -/
def snapshotsAround (netuid : ℕ) (db : AuditDb) : List (SnapshotId × WeightSnapshot) :=
  db.snapshots.select fun _ s ↦ s.netuid = netuid ∧ InWindow now s.createdAt

/-- The snapshot of a report. -/
def latestSnapshot (netuid : ℕ) (db : AuditDb) : Option (SnapshotId × WeightSnapshot) :=
  ((db.snapshotsAround now netuid).insertionSort fun a b ↦
    a.2.createdAt ≤ b.2.createdAt).getLast?

/-- The probes of a report. -/
def probesAround (db : AuditDb) : List (ProbeChallenge × List ProbeResult) :=
  let results := (db.results.filter fun r ↦ InWindow now r.observedAt).insertionSort fun a b ↦
    a.observedAt ≤ b.observedAt
  let challenges := (db.challenges.filter fun c ↦ InWindow now c.createdAt).insertionSort fun a b ↦
    a.createdAt ≤ b.createdAt
  challenges.map fun c ↦ (c, results.filter fun r ↦ r.challengeId = c.challengeId)

/-- The history of an epoch. -/
def epochHistory (epochId : EpochId) (db : AuditDb) : List ScoreCardHistory :=
  (db.history.filter fun row ↦ row.epochId = epochId).insertionSort fun a b ↦ a.hotkey ≤ b.hotkey

/-- `generate_audit_report` -/
def generateAuditReport (epochId : EpochId) (startBlock endBlock : ℤ) (netuid : ℕ) (db : AuditDb) :
    AuditDb :=
  { db with
    reports := db.reports.insert epochId
      { netuid := netuid
        epochStartBlock := startBlock
        epochEndBlock := endBlock
        generatedAt := now
        probes := db.probesAround now
        scorecards := db.epochHistory epochId
        weightSnapshot := db.latestSnapshot now netuid } }

end AuditDb

/-- The calls, and anything that happens to the miners and their probes in between. -/
inductive AuditCall where
  | publishWeightSnapshot (score : AuditDb.Scoring) (now : Time) (netuid : ℕ) (epochId : EpochId)
      (historySaved : Bool)
  | generateAuditReport (now : Time) (epochId : EpochId) (startBlock endBlock : ℤ) (netuid : ℕ)
  | elsewhere (capabilities : Table Hotkey (List NodeCapability)) (whitelist : List Hotkey)
      (challenges : List ProbeChallenge) (results : List ProbeResult)

/-- One call. -/
def AuditCall.exec (settings : AuditSettings) : AuditCall → AuditDb → AuditDb
  | publishWeightSnapshot score now netuid epochId historySaved, db =>
    db.publishWeightSnapshot settings score now netuid epochId historySaved
  | generateAuditReport now epochId startBlock endBlock netuid, db =>
    db.generateAuditReport now epochId startBlock endBlock netuid
  | elsewhere capabilities whitelist challenges results, db =>
    { db with
      capabilities := capabilities
      whitelist := whitelist
      challenges := challenges
      results := results }

/-- Any number of calls, one after the other, each meeting a condition on the tables it finds. -/
abbrev AuditDb.Runs (settings : AuditSettings) (G : AuditCall → AuditDb → Prop) :
    AuditDb → AuditDb → Prop :=
  Relation.ReflTransGen fun db db' ↦ ∃ call, G call db ∧ db' = call.exec settings db

/-! ## What an auditor replays -/

/-- The scores of a report are its weights, one for each hotkey. -/
def AuditReport.Replays (report : AuditReport) : Prop :=
  report.scorecards ≠ [] → ∀ s ∈ report.weightSnapshot,
    (report.scorecards.map ScoreCardHistory.hotkey).Nodup ∧
      (report.scorecards.map fun row ↦ (row.hotkey, row.scorecard.finalScore)).Perm s.2.weights

namespace AuditDb

variable (settings : AuditSettings) (score : Scoring) (now : Time)

/-- Of the snapshots around a time this one was published last. -/
def Last (netuid : ℕ) (db : AuditDb) (id : SnapshotId) : Prop :=
  ∃ s ∈ db.snapshotsAround now netuid, s.1 = id ∧
    ∀ s' ∈ db.snapshotsAround now netuid, s'.1 ≠ id → s'.2.createdAt < s.2.createdAt

instance (netuid : ℕ) (db : AuditDb) (id : SnapshotId) : Decidable (db.Last now netuid id) :=
  inferInstanceAs (Decidable (∃ s ∈ db.snapshotsAround now netuid, _))

end AuditDb

/-- A report is made while the snapshot of its epoch is the last one around, if there is any. -/
def AuditCall.Timely : AuditCall → AuditDb → Prop
  | generateAuditReport now epochId _ _ netuid, db =>
    db.snapshotsAround now netuid ≠ [] →
      ∀ row ∈ db.history, row.epochId = epochId → db.Last now netuid row.snapshotId
  | _, _ => True

instance (call : AuditCall) (db : AuditDb) : Decidable (call.Timely db) := by
  cases call <;> unfold AuditCall.Timely <;> infer_instance

namespace AuditDb

variable {settings : AuditSettings} {score : Scoring} {now : Time} {db db' : AuditDb}

/-! ### What is published -/

theorem mem_of_last {netuid : ℕ} {id : SnapshotId} (h : db.Last now netuid id)
    {s : SnapshotId × WeightSnapshot} (hs : db.latestSnapshot now netuid = some s) : s.1 = id := by
  obtain ⟨x, hx, rfl, hlast⟩ := h
  have htotal : Std.Total fun a b : SnapshotId × WeightSnapshot ↦
      a.2.createdAt ≤ b.2.createdAt := ⟨fun a b ↦ le_total a.2.createdAt b.2.createdAt⟩
  have htrans : IsTrans (SnapshotId × WeightSnapshot) fun a b ↦ a.2.createdAt ≤ b.2.createdAt :=
    ⟨fun _ _ _ ↦ le_trans⟩
  have hsorted := List.pairwise_insertionSort
    (fun a b : SnapshotId × WeightSnapshot ↦ a.2.createdAt ≤ b.2.createdAt)
    (db.snapshotsAround now netuid)
  have hmem : ∀ y, y ∈ (db.snapshotsAround now netuid).insertionSort
      (fun a b ↦ a.2.createdAt ≤ b.2.createdAt) ↔ y ∈ db.snapshotsAround now netuid := fun y ↦
    List.mem_insertionSort _
  unfold latestSnapshot at hs
  obtain ⟨init, hinit⟩ := List.getLast?_eq_some_iff.mp hs
  rw [hinit] at hsorted hmem
  by_contra hne
  -- What is sorted last is not older than the epoch's own snapshot.
  have hlt : s.2.createdAt < x.2.createdAt :=
    hlast s ((hmem s).mp (List.mem_append_right _ (List.mem_singleton_self s))) hne
  rcases List.mem_append.mp ((hmem x).mpr hx) with hx' | hx'
  · have hle := (List.pairwise_append.mp hsorted).2.2 x hx' s (List.mem_singleton_self s)
    exact absurd hle (not_le.mpr hlt)
  · exact hne (congrArg Prod.fst (List.mem_singleton.mp hx').symm)

theorem get?_of_latestSnapshot {netuid : ℕ} {s : SnapshotId × WeightSnapshot}
    (h : db.latestSnapshot now netuid = some s) :
    s ∈ db.snapshotsAround now netuid ∧ db.snapshots.get? s.1 = some s.2 := by
  have hmem : s ∈ db.snapshotsAround now netuid :=
    (List.mem_insertionSort _).mp (List.mem_of_getLast? h)
  exact ⟨hmem, (Table.mem_select.mp hmem).1⟩

/-- No miner is scored twice. -/
theorem nodup_computeScorecards :
    ((computeScorecards settings score now db).map Prod.fst).Nodup := by
  have hkeys : ((db.capabilities.rows.insertionSort fun a b ↦ a.1 ≤ b.1).map Prod.fst).Nodup :=
    ((List.perm_insertionSort _ _).map _).nodup_iff.mpr db.capabilities.nodup
  refine hkeys.sublist ?_
  unfold computeScorecards
  induction db.capabilities.rows.insertionSort fun a b ↦ a.1 ≤ b.1 with
  | nil => exact List.Sublist.refl _
  | cons r rows ih =>
    cases hcard : scorecardOf settings score now db r.1 r.2 with
    | none =>
      rw [List.filterMap_cons_none (by rw [hcard]; rfl), List.map_cons]
      exact ih.cons _
    | some card =>
      rw [List.filterMap_cons_some (by rw [hcard]; rfl), List.map_cons, List.map_cons]
      exact ih.cons_cons _

/-! ### The history and the snapshots -/

/-- The scores that were saved with a snapshot. -/
def savedWith (db : AuditDb) (id : SnapshotId) : List ScoreCardHistory :=
  db.history.filter fun row ↦ row.snapshotId = id

/-- What of the history and the reports is always so. -/
structure Consistent (db : AuditDb) : Prop where
  linked : ∀ row ∈ db.history, row.snapshotId < db.drawn
  oneEpoch : ∀ row ∈ db.history, ∀ row' ∈ db.history, row.snapshotId = row'.snapshotId →
    row.epochId = row'.epochId
  hotkeys : ∀ id, ((db.savedWith id).map ScoreCardHistory.hotkey).Nodup
  weights : ∀ id s, db.snapshots.get? id = some s → db.savedWith id ≠ [] →
    ((db.savedWith id).map fun row ↦ (row.hotkey, row.scorecard.finalScore)).Perm s.weights
  replays : ∀ epochId report, db.reports.get? epochId = some report → report.Replays

theorem consistent_empty : Consistent empty where
  linked _ h := absurd h List.not_mem_nil
  oneEpoch _ h := absurd h List.not_mem_nil
  hotkeys _ := List.nodup_nil
  weights _ _ _ h := absurd rfl h
  replays _ _ h := nomatch h

/-- A snapshot without a history of its own. -/
theorem Consistent.saveSnapshot (h : Consistent db) (snapshot : WeightSnapshot) :
    Consistent (db.saveSnapshot snapshot) where
  linked row hrow := (h.linked row hrow).trans (Nat.lt_succ_self _)
  oneEpoch := h.oneEpoch
  hotkeys := h.hotkeys
  weights id s hs hne := by
    by_cases hid : id = db.drawn
    · obtain ⟨row, hrow⟩ := List.exists_mem_of_ne_nil _ hne
      obtain ⟨hmem, hrowid⟩ := List.mem_filter.mp hrow
      have hlt := h.linked row hmem
      rw [of_decide_eq_true hrowid, hid] at hlt
      exact absurd hlt (lt_irrefl _)
    · refine h.weights id s ?_ hne
      rwa [AuditDb.saveSnapshot, Table.get?_insert_ne _ hid] at hs
  replays := h.replays

theorem savedWith_saveScorecardHistory {epochId : EpochId} {id id' : SnapshotId}
    {cards : List (Hotkey × ScoreCard)} :
    (db.saveScorecardHistory now epochId id cards).savedWith id' =
      db.savedWith id' ++ if id = id' then
        cards.map fun card ↦ ⟨epochId, id, card.1, card.2, now⟩ else [] := by
  rw [savedWith, saveScorecardHistory, List.filter_append, savedWith]
  congr 1
  by_cases hid : id = id'
  · rw [if_pos hid, List.filter_eq_self]
    intro row hrow
    obtain ⟨card, -, rfl⟩ := List.mem_map.mp hrow
    exact decide_eq_true hid
  · rw [if_neg hid, List.filter_eq_nil_iff]
    intro row hrow
    obtain ⟨card, -, rfl⟩ := List.mem_map.mp hrow
    exact fun hd ↦ hid (of_decide_eq_true hd)

/-- The history of the snapshot that was saved last, if that has none yet. -/
theorem Consistent.saveScorecardHistory (h : Consistent db) {epochId : EpochId}
    {id : SnapshotId} {cards : List (Hotkey × ScoreCard)} (hid : id < db.drawn)
    (hnone : ∀ row ∈ db.history, row.snapshotId ≠ id) (hcards : (cards.map Prod.fst).Nodup)
    (hweights : ∀ s, db.snapshots.get? id = some s →
      (cards.map fun card ↦ (card.1, card.2.finalScore)).Perm s.weights) :
    Consistent (db.saveScorecardHistory now epochId id cards) := by
  have hsaved : db.savedWith id = [] := List.filter_eq_nil_iff.mpr fun row hrow hd ↦
    hnone row hrow (of_decide_eq_true hd)
  have hcases : ∀ row ∈ (db.saveScorecardHistory now epochId id cards).history,
      row ∈ db.history ∨ row.snapshotId = id ∧ row.epochId = epochId := by
    intro row hrow
    rcases List.mem_append.mp hrow with hold | hnew
    · exact Or.inl hold
    · obtain ⟨card, -, rfl⟩ := List.mem_map.mp hnew
      exact Or.inr ⟨rfl, rfl⟩
  constructor
  · intro row hrow
    rcases hcases row hrow with hold | ⟨hrowid, -⟩
    · exact h.linked row hold
    · exact hrowid ▸ hid
  · intro row hrow row' hrow' heq
    rcases hcases row hrow with hold | ⟨hrowid, hepoch⟩ <;>
      rcases hcases row' hrow' with hold' | ⟨hrowid', hepoch'⟩
    · exact h.oneEpoch row hold row' hold' heq
    · exact absurd (heq.trans hrowid') (hnone row hold)
    · exact absurd (heq.symm.trans hrowid) (hnone row' hold')
    · exact hepoch.trans hepoch'.symm
  · intro id'
    rw [savedWith_saveScorecardHistory]
    by_cases heq : id = id'
    · rw [← heq, hsaved, if_pos rfl, List.nil_append, List.map_map]
      exact hcards
    · rw [if_neg heq, List.append_nil]
      exact h.hotkeys id'
  · intro id' s hs hne
    rw [savedWith_saveScorecardHistory] at hne ⊢
    by_cases heq : id = id'
    · rw [← heq, hsaved, if_pos rfl, List.nil_append, List.map_map]
      exact hweights s (heq ▸ hs)
    · rw [if_neg heq, List.append_nil] at hne ⊢
      exact h.weights id' s hs hne
  · exact h.replays

theorem Consistent.publishWeightSnapshot (h : Consistent db) {netuid : ℕ} {epochId : EpochId}
    {historySaved : Bool} :
    Consistent (db.publishWeightSnapshot settings score now netuid epochId historySaved) := by
  have hscored : Consistent (db.saveScorecards (computeScorecards settings score now db)) :=
    ⟨h.linked, h.oneEpoch, h.hotkeys, h.weights, h.replays⟩
  unfold AuditDb.publishWeightSnapshot
  dsimp only
  split
  · refine (hscored.saveSnapshot _).saveScorecardHistory (Nat.lt_succ_self _) ?_
      nodup_computeScorecards ?_
    · exact fun row hrow heq ↦ absurd (heq ▸ h.linked row hrow) (lt_irrefl _)
    · intro s hs
      obtain rfl := Option.some.inj ((Table.get?_insert_self _ _ _).symm.trans hs)
      exact ((List.perm_insertionSort _ _).map _).symm
  · exact hscored.saveSnapshot _

/-! ### Reports -/

theorem epochHistory_perm (epochId : EpochId) :
    (db.epochHistory epochId).Perm (db.history.filter fun row ↦ row.epochId = epochId) :=
  List.perm_insertionSort _ _

/-- The history of an epoch whose snapshot is the last one around is what was saved with it. -/
theorem Consistent.filter_epoch (h : Consistent db) {netuid : ℕ} {epochId : EpochId}
    (hlast : ∀ row ∈ db.history, row.epochId = epochId → db.Last now netuid row.snapshotId)
    {s : SnapshotId × WeightSnapshot} (hs : db.latestSnapshot now netuid = some s)
    (hne : db.history.filter (fun row ↦ row.epochId = epochId) ≠ []) :
    db.history.filter (fun row ↦ row.epochId = epochId) = db.savedWith s.1 := by
  have hown : ∀ row ∈ db.history, row.epochId = epochId → row.snapshotId = s.1 :=
    fun row hrow hepoch ↦ (mem_of_last (hlast row hrow hepoch) hs).symm
  obtain ⟨first, hfirst⟩ := List.exists_mem_of_ne_nil _ hne
  obtain ⟨hmem, hepoch⟩ := List.mem_filter.mp hfirst
  refine List.filter_congr fun row hrow ↦ decide_eq_decide.mpr ⟨hown row hrow, fun hid ↦ ?_⟩
  have hsame := hid.trans (hown first hmem (of_decide_eq_true hepoch)).symm
  exact (h.oneEpoch row hrow first hmem hsame).trans (of_decide_eq_true hepoch)

theorem Consistent.generateAuditReport (h : Consistent db) {epochId : EpochId}
    {startBlock endBlock : ℤ} {netuid : ℕ}
    (htimely : (AuditCall.generateAuditReport now epochId startBlock endBlock netuid).Timely db) :
    Consistent (db.generateAuditReport now epochId startBlock endBlock netuid) := by
  refine ⟨h.linked, h.oneEpoch, h.hotkeys, h.weights, fun epochId' report hreport ↦ ?_⟩
  rw [AuditDb.generateAuditReport, Table.get?_insert] at hreport
  split at hreport
  · obtain rfl := Option.some.inj hreport
    intro hscores s hs
    have hlatest : db.latestSnapshot now netuid = some s := hs
    obtain ⟨haround, hget⟩ := get?_of_latestSnapshot hlatest
    have hperm := db.epochHistory_perm epochId
    have hne : db.history.filter (fun row ↦ row.epochId = epochId) ≠ [] := fun hnil ↦
      hscores (List.perm_nil.mp (hnil ▸ hperm))
    have heq := h.filter_epoch (htimely (List.ne_nil_of_mem haround)) hlatest hne
    rw [heq] at hperm hne
    exact ⟨(hperm.map _).nodup_iff.mpr (h.hotkeys s.1),
      (hperm.map _).trans (h.weights s.1 s.2 hget hne)⟩
  · exact h.replays epochId' report hreport

theorem Consistent.exec (h : Consistent db) {call : AuditCall} (htimely : call.Timely db) :
    Consistent (call.exec settings db) := by
  cases call with
  | publishWeightSnapshot => exact h.publishWeightSnapshot
  | generateAuditReport => exact h.generateAuditReport htimely
  | elsewhere => exact ⟨h.linked, h.oneEpoch, h.hotkeys, h.weights, h.replays⟩

/-- Reports that are made while the snapshot of their epoch is the last one around can be
replayed, in every run. -/
theorem reports_replay (settings : AuditSettings) (db : AuditDb)
    (h : Runs settings AuditCall.Timely empty db) (epochId : EpochId) (report : AuditReport)
    (hreport : db.reports.get? epochId = some report) : report.Replays := by
  have hconsistent : Consistent db := by
    clear hreport
    induction h with
    | refl => exact consistent_empty
    | tail _ hstep ih =>
      obtain ⟨call, htimely, rfl⟩ := hstep
      exact ih.exec htimely
  exact hconsistent.replays epochId report hreport

/-! ### A manual publication between an epoch's and its report -/

/-- A machine of the first miner's. -/
def minedNode : NodeCapability where
  nodeId := 0
  hotkey := 1
  serverId := none
  gpuModel := []
  gpuCount := 1
  availableGpus := 1
  vramGbPerGpu := 24
  cpuCores := 8
  memoryGb := 32
  labels := []
  hourlyCostUsd := 0
  healthScore := 1
  reliabilityScore := 1
  performanceScore := 1
  observedAt := none

theorem nodup_minedNode : ([(1, [minedNode])].map Prod.fst : List Hotkey).Nodup := by
  decide

/-- The miner has answered some probes. -/
def probed (count : ℕ) : AuditCall :=
  .elsewhere (.ofRows [(1, [minedNode])] nodup_minedNode) [] []
    (List.replicate count ⟨0, 1, 0, 100, 50, true, none, false, 0, none, none, 0⟩)

/-- A miner's score is the number of the probes that it answered. -/
def byProbes : Scoring := fun hotkey _ results ↦
  ⟨hotkey, 0, 1, 1, 1, 1, 1, 0, results.length⟩

def plainSettings : AuditSettings := ⟨false, 86400⟩

/-- The epoch's publication, and its report a minute later. -/
def epochCalls : List AuditCall :=
  [probed 1, .publishWeightSnapshot byProbes 100 110 "110-360".toList true,
    .generateAuditReport 160 "110-360".toList 0 360 110]

/-- The same, with another probe and a manual publication in between. -/
def overtakenCalls : List AuditCall :=
  [probed 1, .publishWeightSnapshot byProbes 100 110 "110-360".toList true,
    probed 2, .publishWeightSnapshot byProbes 130 110 [] true,
    .generateAuditReport 160 "110-360".toList 0 360 110]

/-- The tables after some calls, made in turn. -/
def after (settings : AuditSettings) (calls : List AuditCall) : AuditDb :=
  calls.foldl (fun db call ↦ call.exec settings db) empty

theorem runs_epochCalls :
    Runs plainSettings AuditCall.Timely empty (after plainSettings epochCalls) :=
  ((Relation.ReflTransGen.refl.tail ⟨probed 1, trivial, rfl⟩).tail
    ⟨.publishWeightSnapshot byProbes 100 110 "110-360".toList true, trivial, rfl⟩).tail
      ⟨.generateAuditReport 160 "110-360".toList 0 360 110, by decide +kernel, rfl⟩

theorem reports_replay_epoch : ∃ report,
    (after plainSettings epochCalls).reports.get? "110-360".toList = some report ∧
      report.scorecards.length = 1 ∧ report.weightSnapshot.isSome ∧ report.Replays := by
  have hcontent : ((after plainSettings epochCalls).reports.get? "110-360".toList).map
      (fun report ↦ (report.scorecards.length, report.weightSnapshot.isSome)) = some (1, true) := by
    decide +kernel
  obtain ⟨report, hreport, hpair⟩ := Option.map_eq_some_iff.mp hcontent
  obtain ⟨hscores, hsnapshot⟩ := Prod.mk.inj hpair
  exact ⟨report, hreport, hscores, hsnapshot, reports_replay plainSettings
    (after plainSettings epochCalls) runs_epochCalls "110-360".toList report hreport⟩

/-- The report of an epoch takes the weights that were published by hand after it. -/
theorem overtaken_report : ¬∀ (settings : AuditSettings) (db : AuditDb),
    Runs settings (fun _ _ ↦ True) empty db → ∀ epochId report,
      db.reports.get? epochId = some report → report.Replays := by
  intro h
  have hruns : Runs plainSettings (fun _ _ ↦ True) empty (after plainSettings overtakenCalls) :=
    ((((Relation.ReflTransGen.refl.tail ⟨probed 1, trivial, rfl⟩).tail
      ⟨.publishWeightSnapshot byProbes 100 110 "110-360".toList true, trivial, rfl⟩).tail
      ⟨probed 2, trivial, rfl⟩).tail
      ⟨.publishWeightSnapshot byProbes 130 110 [] true, trivial, rfl⟩).tail
      ⟨.generateAuditReport 160 "110-360".toList 0 360 110, trivial, rfl⟩
  have hcontent : ((after plainSettings overtakenCalls).reports.get? "110-360".toList).map
      (fun report ↦ (report.scorecards.map fun row ↦ (row.hotkey, row.scorecard.finalScore),
        report.weightSnapshot.map fun s ↦ s.2.weights)) = some ([(1, 1)], some [(1, 2)]) := by
    decide +kernel
  obtain ⟨report, hreport, hpair⟩ := Option.map_eq_some_iff.mp hcontent
  obtain ⟨hscores, hsnapshot⟩ := Prod.mk.inj hpair
  obtain ⟨s, hs, hweights⟩ := Option.map_eq_some_iff.mp hsnapshot
  have hne : report.scorecards ≠ [] := by
    intro hnil
    rw [hnil] at hscores
    exact nomatch hscores
  have hperm := (h plainSettings _ hruns "110-360".toList report hreport hne s hs).2
  rw [hscores, hweights] at hperm
  exact absurd hperm (by decide)

end AuditDb

end GreenCompute
