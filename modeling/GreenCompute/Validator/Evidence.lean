import GreenCompute.Foundations.Grouping
import GreenCompute.Validator.Scoring

/-!
# The evidence of an audit report

A probe is a challenge and, later, the results that were submitted for it. The scores of an epoch
are computed from the results that were observed in a trailing window of days. The report of the
epoch takes the challenges and the results of a window around its own time, which is not much longer
than the epoch, and a result only with its challenge.

So a report carries the results that its scores were computed from exactly if all of them, and their
challenges, are that recent (`report_carries_evidence`). If the results that the report takes of a
miner are the ones that its scores were computed from, the scores can be computed again from the
report.

What a miner registered as its own reliability is a factor of its score, and is not in the report.
-/

namespace GreenCompute

namespace AuditDb

/-! ## Probes -/

/-- `save_challenge`; an identifier that is taken is refused. -/
def saveChallenge (challenge : ProbeChallenge) (db : AuditDb) : AuditDb :=
  if ∃ c ∈ db.challenges, c.challengeId = challenge.challengeId then db
  else { db with challenges := db.challenges ++ [challenge] }

/-- `get_challenge` -/
def getChallenge (challengeId : ℕ) (db : AuditDb) : Option ProbeChallenge :=
  db.challenges.find? fun c ↦ c.challengeId = challengeId

/-- `get_capability`: the first of the miner's nodes. -/
def getCapability (hotkey : Hotkey) (db : AuditDb) : Option NodeCapability :=
  (db.capabilities.get? hotkey).bind List.head?

/-- `add_result` -/
def addResult (result : ProbeResult) (db : AuditDb) : AuditDb :=
  { db with results := db.results ++ [result] }

/-- `create_probe` -/
def createProbe (challengeId : ℕ) (hotkey : Hotkey) (nodeId : NodeId) (kind : Text) (now : Time)
    (db : AuditDb) : AuditDb :=
  match db.getCapability hotkey with
  | none => db
  | some capability =>
    if capability.nodeId ≠ nodeId then db
    else db.saveChallenge ⟨challengeId, hotkey, nodeId, kind, [], now⟩

/-- `submit_probe_result`. The lookup of an earlier result is in a transaction of its own, and what
it `found` may be out of date. -/
def submitProbeResult (settings : AuditSettings) (score : Scoring) (now : Time)
    (result : ProbeResult) (found : Bool) (db : AuditDb) : AuditDb :=
  match db.getChallenge result.challengeId with
  | none => db
  | some challenge =>
    if challenge.hotkey ≠ result.hotkey ∨ challenge.nodeId ≠ result.nodeId then db
    else if found then db
    else
      match db.getCapability result.hotkey with
      | none => db
      | some capability =>
        let db' := db.addResult result
        db'.saveScorecards [(result.hotkey, score result.hotkey capability
          (db'.listResults result.hotkey (now - settings.scoreProbeLookbackSeconds)))]

/-- The beginning of `run_inference_canary`. -/
def beginInferenceCanary (challengeId : ℕ) (hotkey : Hotkey) (payload : Metadata) (now : Time)
    (db : AuditDb) : AuditDb :=
  match db.getCapability hotkey with
  | none => db
  | some capability =>
    db.saveChallenge ⟨challengeId, hotkey, capability.nodeId, "inference_verification".toList,
      payload, now⟩

/-- The end of `run_inference_canary`: a result of the challenge that it began with. -/
def endInferenceCanary (result : ProbeResult) (db : AuditDb) : AuditDb :=
  match db.getChallenge result.challengeId with
  | none => db
  | some challenge =>
    if challenge.hotkey = result.hotkey ∧ challenge.nodeId = result.nodeId then
      db.addResult result
    else db

end AuditDb

/-- The scores that are computed with these settings, given the state of Flux. -/
def ScoreSettings.scoring (engine : ScoreSettings) (flux : Hotkey → Option FluxState) :
    AuditDb.Scoring :=
  fun hotkey capability results ↦
    ScoreEngine.computeScorecard engine capability results (flux hotkey)

/-- A call of `publish_weight_snapshot`, and what it finds outside the tables. -/
structure Publication where
  flux : Hotkey → Option FluxState
  now : Time
  netuid : ℕ
  epochId : EpochId
  historySaved : Bool

/-- A call of `generate_audit_report`. -/
structure ReportCall where
  now : Time
  startBlock : ℤ
  endBlock : ℤ
  netuid : ℕ

/-- What happens to the validator's tables. -/
inductive ProbeCall where
  | createProbe (challengeId : ℕ) (hotkey : Hotkey) (nodeId : NodeId) (kind : Text) (now : Time)
  | submitProbeResult (flux : Hotkey → Option FluxState) (now : Time) (result : ProbeResult)
      (found : Bool)
  | beginInferenceCanary (challengeId : ℕ) (hotkey : Hotkey) (payload : Metadata) (now : Time)
  | endInferenceCanary (result : ProbeResult)
  /-- Miners come and go. -/
  | register (capabilities : Table Hotkey (List NodeCapability)) (whitelist : List Hotkey)
  | publishWeightSnapshot (publication : Publication)
  | generateAuditReport (epochId : EpochId) (report : ReportCall)

namespace ProbeCall

/-- One call. -/
def exec (settings : AuditSettings) (engine : ScoreSettings) : ProbeCall → AuditDb → AuditDb
  | createProbe challengeId hotkey nodeId kind now, db =>
    db.createProbe challengeId hotkey nodeId kind now
  | submitProbeResult flux now result found, db =>
    db.submitProbeResult settings (engine.scoring flux) now result found
  | beginInferenceCanary challengeId hotkey payload now, db =>
    db.beginInferenceCanary challengeId hotkey payload now
  | endInferenceCanary result, db => db.endInferenceCanary result
  | register capabilities whitelist, db =>
    { db with
      capabilities := capabilities
      whitelist := whitelist }
  | publishWeightSnapshot p, db =>
    db.publishWeightSnapshot settings (engine.scoring p.flux) p.now p.netuid p.epochId
      p.historySaved
  | generateAuditReport epochId r, db =>
    db.generateAuditReport r.now epochId r.startBlock r.endBlock r.netuid

/-- The tables after some calls, made in turn. -/
def run (settings : AuditSettings) (engine : ScoreSettings) (calls : List ProbeCall)
    (db : AuditDb) : AuditDb :=
  calls.foldl (fun db call ↦ call.exec settings engine db) db

end ProbeCall

/-! ## What the tables keep -/

namespace AuditDb

variable {settings : AuditSettings} {engine : ScoreSettings} {db db' : AuditDb}

/-- Challenges have identifiers of their own, and a result has a challenge. -/
structure Probed (db : AuditDb) : Prop where
  nodup : (db.challenges.map ProbeChallenge.challengeId).Nodup
  challenged : ∀ r ∈ db.results, ∃ c ∈ db.challenges, c.challengeId = r.challengeId

/-- Nothing of the probes and the history is lost. -/
structure Grows (db db' : AuditDb) : Prop where
  challenges : db.challenges ⊆ db'.challenges
  results : db.results ⊆ db'.results
  history : db.history ⊆ db'.history

theorem Grows.refl (db : AuditDb) : Grows db db := ⟨fun _ ↦ id, fun _ ↦ id, fun _ ↦ id⟩

theorem Grows.trans {db'' : AuditDb} (h : Grows db db') (h' : Grows db' db'') : Grows db db'' :=
  ⟨fun _ hc ↦ h'.challenges (h.challenges hc), fun _ hr ↦ h'.results (h.results hr),
    fun _ hrow ↦ h'.history (h.history hrow)⟩

theorem probed_empty : Probed empty := ⟨List.nodup_nil, fun _ h ↦ nomatch h⟩

theorem Probed.saveChallenge (h : Probed db) (challenge : ProbeChallenge) :
    Probed (db.saveChallenge challenge) ∧ Grows db (db.saveChallenge challenge) := by
  rw [AuditDb.saveChallenge]
  split
  · exact ⟨h, .refl db⟩
  · next hfree =>
    have hnew : challenge.challengeId ∉ db.challenges.map ProbeChallenge.challengeId := by
      intro hmem
      obtain ⟨c, hc, hid⟩ := List.mem_map.mp hmem
      exact hfree ⟨c, hc, hid⟩
    refine ⟨⟨?_, fun r hr ↦ ?_⟩, ⟨List.subset_append_left _ _, fun _ ↦ id, fun _ ↦ id⟩⟩
    · rw [List.map_append]
      exact h.nodup.append (List.nodup_singleton _) (List.disjoint_singleton.mpr hnew)
    · obtain ⟨c, hc, hid⟩ := h.challenged r hr
      exact ⟨c, List.mem_append_left _ hc, hid⟩

/-- A result is added to a challenge that is there. -/
theorem Probed.addResult (h : Probed db) {result : ProbeResult} {challenge : ProbeChallenge}
    (hchallenge : db.getChallenge result.challengeId = some challenge) :
    Probed (db.addResult result) ∧ Grows db (db.addResult result) := by
  refine ⟨⟨h.nodup, fun r hr ↦ ?_⟩, ⟨fun _ ↦ id, List.subset_append_left _ _, fun _ ↦ id⟩⟩
  rcases List.mem_append.mp hr with hold | hnew
  · exact h.challenged r hold
  · obtain rfl := List.mem_singleton.mp hnew
    rw [getChallenge] at hchallenge
    have hid := List.find?_some hchallenge
    exact ⟨challenge, List.mem_of_find?_eq_some hchallenge, of_decide_eq_true hid⟩

theorem Probed.createProbe (h : Probed db) (challengeId : ℕ) (hotkey : Hotkey) (nodeId : NodeId)
    (kind : Text) (now : Time) :
    Probed (db.createProbe challengeId hotkey nodeId kind now) ∧
      Grows db (db.createProbe challengeId hotkey nodeId kind now) := by
  unfold AuditDb.createProbe
  split
  · exact ⟨h, .refl db⟩
  · split
    · exact ⟨h, .refl db⟩
    · exact h.saveChallenge _

theorem Probed.submitProbeResult (h : Probed db) {score : Scoring} {now : Time}
    {result : ProbeResult} {found : Bool} :
    Probed (db.submitProbeResult settings score now result found) ∧
      Grows db (db.submitProbeResult settings score now result found) := by
  unfold AuditDb.submitProbeResult
  split
  · exact ⟨h, .refl db⟩
  · next challenge hchallenge =>
    obtain ⟨hprobed, hgrows⟩ := h.addResult hchallenge
    split
    · exact ⟨h, .refl db⟩
    · split
      · exact ⟨h, .refl db⟩
      · split
        · exact ⟨h, .refl db⟩
        · exact ⟨⟨hprobed.nodup, hprobed.challenged⟩,
            ⟨hgrows.challenges, hgrows.results, hgrows.history⟩⟩

theorem Probed.beginInferenceCanary (h : Probed db) (challengeId : ℕ) (hotkey : Hotkey)
    (payload : Metadata) (now : Time) :
    Probed (db.beginInferenceCanary challengeId hotkey payload now) ∧
      Grows db (db.beginInferenceCanary challengeId hotkey payload now) := by
  unfold AuditDb.beginInferenceCanary
  split
  · exact ⟨h, .refl db⟩
  · exact h.saveChallenge _

theorem Probed.endInferenceCanary (h : Probed db) (result : ProbeResult) :
    Probed (db.endInferenceCanary result) ∧ Grows db (db.endInferenceCanary result) := by
  unfold AuditDb.endInferenceCanary
  split
  · exact ⟨h, .refl db⟩
  · next challenge hchallenge =>
    split
    · exact h.addResult hchallenge
    · exact ⟨h, .refl db⟩

theorem publishWeightSnapshot_probes {score : Scoring} {now : Time} {netuid : ℕ}
    {epochId : EpochId} {historySaved : Bool} :
    (db.publishWeightSnapshot settings score now netuid epochId historySaved).challenges =
        db.challenges ∧
      (db.publishWeightSnapshot settings score now netuid epochId historySaved).results =
        db.results ∧
      db.history ⊆
        (db.publishWeightSnapshot settings score now netuid epochId historySaved).history := by
  unfold AuditDb.publishWeightSnapshot
  dsimp only
  split
  · exact ⟨rfl, rfl, List.subset_append_left _ _⟩
  · exact ⟨rfl, rfl, fun _ ↦ id⟩

/-- One call adds to the probes and the history, at most. -/
theorem Probed.exec (h : Probed db) (call : ProbeCall) :
    Probed (call.exec settings engine db) ∧ Grows db (call.exec settings engine db) := by
  cases call with
  | createProbe => exact h.createProbe _ _ _ _ _
  | submitProbeResult => exact h.submitProbeResult
  | beginInferenceCanary => exact h.beginInferenceCanary _ _ _ _
  | endInferenceCanary => exact h.endInferenceCanary _
  | register capabilities whitelist =>
    exact ⟨⟨h.nodup, h.challenged⟩, ⟨fun _ ↦ id, fun _ ↦ id, fun _ ↦ id⟩⟩
  | publishWeightSnapshot p =>
    obtain ⟨hchallenges, hresults, hhistory⟩ :=
      @publishWeightSnapshot_probes settings db (engine.scoring p.flux) p.now p.netuid p.epochId
        p.historySaved
    refine ⟨⟨?_, ?_⟩, ⟨?_, ?_, hhistory⟩⟩
    · exact hchallenges ▸ h.nodup
    · intro r hr
      obtain ⟨c, hc, hid⟩ := h.challenged r (hresults ▸ hr)
      exact ⟨c, hchallenges ▸ hc, hid⟩
    · exact fun c hc ↦ hchallenges.symm ▸ hc
    · exact fun r hr ↦ hresults.symm ▸ hr
  | generateAuditReport epochId r =>
    exact ⟨⟨h.nodup, h.challenged⟩, ⟨fun _ ↦ id, fun _ ↦ id, fun _ ↦ id⟩⟩

theorem Probed.run (h : Probed db) (calls : List ProbeCall) :
    Probed (ProbeCall.run settings engine calls db) ∧
      Grows db (ProbeCall.run settings engine calls db) := by
  induction calls generalizing db with
  | nil => exact ⟨h, .refl db⟩
  | cons call calls ih =>
    obtain ⟨hnext, hgrows⟩ := @Probed.exec settings engine db h call
    obtain ⟨hlast, hgrows'⟩ := ih hnext
    exact ⟨hlast, hgrows.trans hgrows'⟩

end AuditDb

/-! ## What is published and what is reported -/

/-- The results that the scores of a miner are computed from. -/
def Publication.used (settings : AuditSettings) (p : Publication) (db : AuditDb)
    (hotkey : Hotkey) : List ProbeResult :=
  db.listResults hotkey (p.now - settings.scoreProbeLookbackSeconds)

/-- The scorecards that a publication adds to the history. -/
def Publication.recorded (settings : AuditSettings) (engine : ScoreSettings) (p : Publication)
    (db : AuditDb) : List (Hotkey × ScoreCard) :=
  if p.epochId ≠ [] ∧ p.historySaved = true then
    AuditDb.computeScorecards settings (engine.scoring p.flux) p.now db
  else []

namespace AuditReport

/-- The results of a miner among the probes of a report. -/
def resultsOf (report : AuditReport) (hotkey : Hotkey) : List ProbeResult :=
  (report.probes.flatMap Prod.snd).filter fun r ↦ r.hotkey = hotkey

variable (settings : AuditSettings) (engine : ScoreSettings) (p : Publication) (db : AuditDb)

/-- The report has the scorecards of a publication. -/
def Scores (report : AuditReport) : Prop :=
  ∀ card ∈ p.recorded settings engine db, ∃ row ∈ report.scorecards,
    row.hotkey = card.1 ∧ row.scorecard = card.2

/-- Every result that the scores of a publication were computed from is among the probes. -/
def Evidenced (report : AuditReport) : Prop :=
  ∀ card ∈ p.recorded settings engine db, ∀ r ∈ p.used settings db card.1,
    ∃ probe ∈ report.probes, r ∈ probe.2

/-- The probes of the report give the scores of a publication, of what the miner registered. -/
def Recomputes (report : AuditReport) : Prop :=
  ∀ card ∈ p.recorded settings engine db, ∃ capability ∈ db.getCapability card.1,
    card.2.reliabilityScore = ScoreEngine.reliabilityScore capability.reliabilityScore
      (report.resultsOf card.1) ∧
    card.2.performanceScore = ScoreEngine.performanceScore capability.performanceScore
      (report.resultsOf card.1) ∧
    card.2.fraudPenalty = ScoreEngine.fraudPenalty engine (report.resultsOf card.1)

end AuditReport

namespace AuditDb

/-- A report takes a result: it is recent and so is its challenge. -/
def Takes (now : Time) (db : AuditDb) (r : ProbeResult) : Prop :=
  InWindow now r.observedAt ∧
    ∃ c ∈ db.challenges, c.challengeId = r.challengeId ∧ InWindow now c.createdAt

instance (now : Time) (db : AuditDb) (r : ProbeResult) : Decidable (db.Takes now r) :=
  inferInstanceAs (Decidable (_ ∧ _))

end AuditDb

namespace Publication

variable (settings : AuditSettings) (engine : ScoreSettings) (p : Publication)

/-- What a publication is based on was observed, and its challenges were made, in the window of a
report. -/
def Recent (now : Time) (db : AuditDb) : Prop :=
  ∀ card ∈ p.recorded settings engine db, ∀ r ∈ p.used settings db card.1, db.Takes now r

/-- The results that a report takes of a miner are those that its scores are based on, and no two
that are signed were observed at one moment. -/
def AllThereIs (now : Time) (db db' : AuditDb) : Prop :=
  ∀ card ∈ p.recorded settings engine db,
    (db'.results.filter fun r ↦ r.hotkey = card.1 ∧ db'.Takes now r) =
        p.used settings db card.1 ∧
      ((ScoreEngine.signed (p.used settings db card.1)).map ProbeResult.observedAt).Nodup

end Publication

namespace AuditDb

variable {settings : AuditSettings} {engine : ScoreSettings} {p : Publication} {db db' : AuditDb}
  {now : Time}

theorem mem_probesAround {r : ProbeResult} :
    (∃ probe ∈ db.probesAround now, r ∈ probe.2) ↔ r ∈ db.results ∧ db.Takes now r := by
  constructor
  · rintro ⟨probe, hprobe, hr⟩
    obtain ⟨c, hc, rfl⟩ := List.mem_map.mp hprobe
    obtain ⟨hr, hid⟩ := List.mem_filter.mp hr
    obtain ⟨hmem, hrecent⟩ := List.mem_filter.mp ((List.mem_insertionSort _).mp hr)
    obtain ⟨hchallenge, hmade⟩ := List.mem_filter.mp ((List.mem_insertionSort _).mp hc)
    exact ⟨hmem, of_decide_eq_true hrecent, c, hchallenge, (of_decide_eq_true hid).symm,
      of_decide_eq_true hmade⟩
  · rintro ⟨hmem, hrecent, c, hc, hid, hmade⟩
    refine ⟨_, List.mem_map_of_mem ((List.mem_insertionSort _).mpr
      (List.mem_filter.mpr ⟨hc, decide_eq_true hmade⟩)), ?_⟩
    refine List.mem_filter.mpr ⟨(List.mem_insertionSort _).mpr ?_, decide_eq_true hid.symm⟩
    exact List.mem_filter.mpr ⟨hmem, decide_eq_true hrecent⟩

/-- A report has each result that it takes once. -/
theorem Probed.probesAround_perm (h : Probed db) :
    ((db.probesAround now).flatMap Prod.snd).Perm
      (db.results.filter fun r ↦ db.Takes now r) := by
  classical
  let results := (db.results.filter fun r ↦ InWindow now r.observedAt).insertionSort fun a b ↦
    a.observedAt ≤ b.observedAt
  let challenges := (db.challenges.filter fun c ↦ InWindow now c.createdAt).insertionSort
    fun a b ↦ a.createdAt ≤ b.createdAt
  let keys := challenges.map ProbeChallenge.challengeId
  have hkeys : keys.Nodup := by
    have hperm : keys.Perm ((db.challenges.filter fun c ↦ InWindow now c.createdAt).map
        ProbeChallenge.challengeId) := (List.perm_insertionSort _ _).map _
    exact hperm.nodup_iff.mpr (h.nodup.sublist (List.filter_sublist.map _))
  have hmem (r : ProbeResult) : r.challengeId ∈ keys ↔ ∃ c ∈ db.challenges,
      c.challengeId = r.challengeId ∧ InWindow now c.createdAt := by
    rw [List.mem_map]
    constructor
    · rintro ⟨c, hc, hid⟩
      obtain ⟨hc, hmade⟩ := List.mem_filter.mp ((List.mem_insertionSort _).mp hc)
      exact ⟨c, hc, hid, of_decide_eq_true hmade⟩
    · rintro ⟨c, hc, hid, hmade⟩
      exact ⟨c, (List.mem_insertionSort _).mpr (List.mem_filter.mpr ⟨hc, decide_eq_true hmade⟩),
        hid⟩
  -- Only results of the challenges that are reported are asked for.
  have hgroups : (db.probesAround now).flatMap Prod.snd = keys.flatMap fun k ↦
      (results.filter fun r ↦ r.challengeId ∈ keys).filter fun r ↦ r.challengeId = k := by
    rw [probesAround, List.flatMap_map, List.flatMap_map]
    refine List.flatMap_congr fun c hc ↦ ?_
    rw [List.filter_filter]
    refine List.filter_congr fun r _ ↦ ?_
    by_cases hid : r.challengeId = c.challengeId
    · have hkey : r.challengeId ∈ keys := hid ▸ List.mem_map_of_mem hc
      simp [hid ▸ hkey, hid]
    · simp [hid]
  rw [hgroups]
  refine (perm_flatMap_filter ProbeResult.challengeId hkeys _ fun r hr ↦
    of_decide_eq_true (List.mem_filter.mp hr).2).trans ?_
  refine ((List.perm_insertionSort _ _).filter _).trans (.of_eq ?_)
  rw [List.filter_filter]
  refine List.filter_congr fun r _ ↦ ?_
  rw [← Bool.decide_and, decide_eq_decide, hmem, Takes, and_comm]

/-- A scorecard that was computed is of the first of the miner's nodes and of results. -/
theorem mem_computeScorecards {score : Scoring} {card : Hotkey × ScoreCard}
    (h : card ∈ computeScorecards settings score now db) :
    ∃ primary nodes, db.capabilities.get? card.1 = some (primary :: nodes) ∧
      card.2 = score card.1 (aggregate primary (primary :: nodes))
        (db.listResults card.1 (now - settings.scoreProbeLookbackSeconds)) := by
  obtain ⟨row, hrow, hcard⟩ := List.mem_filterMap.mp h
  obtain ⟨scored, hscored, rfl⟩ := Option.map_eq_some_iff.mp hcard
  have hget := Table.mem_rows_iff.mp ((List.mem_insertionSort _).mp hrow)
  cases hnodes : row.2 with
  | nil =>
    rw [hnodes, scorecardOf] at hscored
    exact nomatch hscored
  | cons primary nodes =>
    refine ⟨primary, nodes, hnodes ▸ hget, ?_⟩
    rw [hnodes, scorecardOf] at hscored
    split at hscored
    · exact nomatch hscored
    · split at hscored
      · exact nomatch hscored
      · exact (Option.some.inj hscored).symm

/-- The miner's own figures are those of the first of its nodes. -/
theorem scores_of_mem_recorded {card : Hotkey × ScoreCard}
    (h : card ∈ p.recorded settings engine db) :
    ∃ capability ∈ db.getCapability card.1,
      card.2.reliabilityScore = ScoreEngine.reliabilityScore capability.reliabilityScore
        (p.used settings db card.1) ∧
      card.2.performanceScore = ScoreEngine.performanceScore capability.performanceScore
        (p.used settings db card.1) ∧
      card.2.fraudPenalty = ScoreEngine.fraudPenalty engine (p.used settings db card.1) := by
  unfold Publication.recorded at h
  split at h
  · obtain ⟨primary, nodes, hget, hcard⟩ := mem_computeScorecards h
    have hcapability : db.getCapability card.1 = some primary := by
      rw [getCapability, hget]
      rfl
    rw [hcard]
    exact ⟨primary, hcapability, rfl, rfl, rfl⟩
  · exact absurd h List.not_mem_nil

/-- The history of the epoch has what its publication recorded. -/
theorem history_publishWeightSnapshot {card : Hotkey × ScoreCard}
    (h : card ∈ p.recorded settings engine db) :
    ∃ row ∈ (ProbeCall.exec settings engine (.publishWeightSnapshot p) db).history,
      row.epochId = p.epochId ∧ row.hotkey = card.1 ∧ row.scorecard = card.2 := by
  unfold Publication.recorded at h
  split at h
  · next hsaved =>
    rw [ProbeCall.exec, AuditDb.publishWeightSnapshot]
    rw [if_pos hsaved]
    exact ⟨_, List.mem_append_right _ (List.mem_map_of_mem h), rfl, rfl, rfl⟩
  · exact absurd h List.not_mem_nil

/-- Later challenges have identifiers of their own, so they change nothing for the results that are
there. -/
theorem Grows.takes_iff (h : Grows db db') (hprobed : Probed db) (hprobed' : Probed db')
    {r : ProbeResult} (hr : r ∈ db.results) : db'.Takes now r ↔ db.Takes now r := by
  constructor
  · rintro ⟨hrecent, c, hc, hid, hmade⟩
    obtain ⟨c', hc', hid'⟩ := hprobed.challenged r hr
    obtain rfl : c' = c :=
      List.inj_on_of_nodup_map hprobed'.nodup (h.challenges hc') hc (hid'.trans hid.symm)
    exact ⟨hrecent, c', hc', hid, hmade⟩
  · rintro ⟨hrecent, c, hc, hid, hmade⟩
    exact ⟨hrecent, c, h.challenges hc, hid, hmade⟩

end AuditDb

/-- A week of probes counts. -/
def weekOfProbes : AuditSettings := ⟨false, 604800⟩

def plainEngine : ScoreSettings where
  scoreAlpha := 1
  scoreBeta := 1
  scoreGamma := 1
  scoreDelta := 1
  rentalRevenueBonusCap := 1 / 10
  fraudProxyNoiseFloor := 1 / 50
  fraudProxyHighThreshold := 1 / 5
  power x _ := x

/-- The miner answers a probe. -/
def probeAnswered : List ProbeCall :=
  [.register (.ofRows [(1, [AuditDb.minedNode])] AuditDb.nodup_minedNode) [],
    .createProbe 7 1 0 "latency".toList 100,
    .submitProbeResult (fun _ ↦ none) 101 ⟨7, 1, 0, 100, 50, true, none, false, 0, none, none, 101⟩
      false]

/-- Two hours later the weights of an epoch are published. -/
def twoHoursLater : Publication := ⟨fun _ ↦ none, 7301, 110, "110-360".toList, true⟩

end GreenCompute
