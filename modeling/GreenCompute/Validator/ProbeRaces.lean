import GreenCompute.Foundations.Steps
import GreenCompute.Validator.Evidence

/-!
# Submissions of one challenge at a time

A submission looks its challenge up, asks whether there is a result of the challenge already, and
later inserts its own, each in a transaction of its own. The table takes a second result of a
challenge as it takes the first.

So a challenge is scored once as long as no submission inserts a result after another one of the
same challenge has done so since the first asked: `scored_once_iff`.
-/

namespace GreenCompute

open AuditDb

abbrev SubmitId := ℕ

/-- What a submission does next. -/
inductive SubmissionStage where
  | getChallenge
  | getResult
  | getCapability
  | addResult (capability : NodeCapability)
  | computeScorecard (capability : NodeCapability)

/-- A call of `submit_probe_result`: what was submitted, where it is, and whether another one has
inserted a result of the challenge since it asked for one, which the code does not know. -/
structure Submission where
  result : ProbeResult
  stage : SubmissionStage
  raced : Bool

/-- The tables of the validator, and the submissions in progress. -/
structure ProbeWorld where
  db : AuditDb
  submissions : SubmitId → Option Submission

namespace ProbeWorld

variable (w : ProbeWorld) (i : SubmitId)

/-- Nothing was submitted yet. -/
def idle (db : AuditDb) : ProbeWorld := ⟨db, fun _ ↦ none⟩

/-- `get_result` -/
def getResult (challengeId : ℕ) (hotkey : Hotkey) (db : AuditDb) : Option ProbeResult :=
  db.results.find? fun r ↦ r.challengeId = challengeId ∧ r.hotkey = hotkey

/-- A submission goes on to a stage. -/
def proceed (submission : Submission) : ProbeWorld :=
  { w with submissions := Function.update w.submissions i (some submission) }

/-- A submission ends: it returned, raised or died. -/
def finish : ProbeWorld := { w with submissions := Function.update w.submissions i none }

/-- The other submissions of the challenge that have asked for a result are raced. -/
def noteRaced (result : ProbeResult) : ProbeWorld :=
  { w with
    submissions := fun j ↦ (w.submissions j).map fun submission ↦
      if submission.result.challengeId = result.challengeId ∧
          submission.result.hotkey = result.hotkey then
        { submission with raced := true }
      else submission }

variable (settings : AuditSettings) (engine : ScoreSettings)

/-- The next transaction of a submission. -/
def step (flux : Hotkey → Option FluxState) (now : Time) : ProbeWorld :=
  match w.submissions i with
  | none => w
  | some ⟨result, .getChallenge, raced⟩ =>
    match w.db.getChallenge result.challengeId with
    | none => w.finish i
    | some challenge =>
      if challenge.hotkey ≠ result.hotkey ∨ challenge.nodeId ≠ result.nodeId then w.finish i
      else w.proceed i ⟨result, .getResult, raced⟩
  | some ⟨result, .getResult, _⟩ =>
    if (getResult result.challengeId result.hotkey w.db).isSome then w.finish i
    else w.proceed i ⟨result, .getCapability, false⟩
  | some ⟨result, .getCapability, raced⟩ =>
    match w.db.getCapability result.hotkey with
    | none => w.finish i
    | some capability => w.proceed i ⟨result, .addResult capability, raced⟩
  | some ⟨result, .addResult capability, raced⟩ =>
    { (w.noteRaced result).proceed i ⟨result, .computeScorecard capability, raced⟩ with
      db := w.db.addResult result }
  | some ⟨result, .computeScorecard capability, _⟩ =>
    { w.finish i with
      db := w.db.saveScorecards [(result.hotkey, engine.scoring flux result.hotkey capability
        (w.db.listResults result.hotkey (now - settings.scoreProbeLookbackSeconds)))] }

end ProbeWorld

/-- What can happen: a result is submitted, its submission goes on or dies, a challenge is made,
miners come and go, or weights are published. -/
inductive ProbeOp where
  | submitProbeResult (i : SubmitId) (result : ProbeResult)
  | step (i : SubmitId) (flux : Hotkey → Option FluxState) (now : Time)
  | die (i : SubmitId)
  | createProbe (challengeId : ℕ) (hotkey : Hotkey) (nodeId : NodeId) (kind : Text) (now : Time)
  | register (capabilities : Table Hotkey (List NodeCapability)) (whitelist : List Hotkey)
  | publishWeightSnapshot (publication : Publication)

/-- What it does. -/
def ProbeOp.exec (settings : AuditSettings) (engine : ScoreSettings) :
    ProbeOp → ProbeWorld → ProbeWorld
  | submitProbeResult i result, w =>
    match w.submissions i with
    | none => w.proceed i ⟨result, .getChallenge, false⟩
    | some _ => w
  | step i flux now, w => w.step i settings engine flux now
  | die i, w => w.finish i
  | createProbe challengeId hotkey nodeId kind now, w =>
    { w with db := w.db.createProbe challengeId hotkey nodeId kind now }
  | register capabilities whitelist, w =>
    { w with
      db :=
        { w.db with
          capabilities := capabilities
          whitelist := whitelist } }
  | publishWeightSnapshot p, w =>
    { w with
      db := w.db.publishWeightSnapshot settings (engine.scoring p.flux) p.now p.netuid p.epochId
        p.historySaved }

namespace ProbeWorld

/-- There is at most one result of each challenge and hotkey, and the results that a score is
computed from, in whichever window, are of different challenges. -/
structure ScoredOnce (db : AuditDb) : Prop where
  once : ∀ challengeId hotkey, (db.results.filter fun r ↦
    r.challengeId = challengeId ∧ r.hotkey = hotkey).length ≤ 1
  distinct : ∀ hotkey since, ((db.listResults hotkey since).map ProbeResult.challengeId).Nodup

/-- A submission that inserts its result was not overtaken since it asked for one. -/
def Unraced : ProbeOp → ProbeWorld → Prop
  | .step i _ _, w =>
    match w.submissions i with
    | some ⟨_, .addResult _, raced⟩ => raced = false
    | _ => True
  | _, _ => True

/-! ## One result of each challenge -/

variable {w w' : ProbeWorld} {settings : AuditSettings} {engine : ScoreSettings} {db : AuditDb}

/-- How many results there are of a challenge and a hotkey. -/
def resultCount (challengeId : ℕ) (hotkey : Hotkey) (db : AuditDb) : ℕ :=
  db.results.countP fun r ↦ r.challengeId = challengeId ∧ r.hotkey = hotkey

theorem scoredOnce_iff : ScoredOnce db ↔
    ∀ challengeId hotkey, resultCount challengeId hotkey db ≤ 1 := by
  constructor
  · intro h challengeId hotkey
    rw [resultCount, List.countP_eq_length_filter]
    exact h.once challengeId hotkey
  · intro h
    refine ⟨fun challengeId hotkey ↦ ?_, fun hotkey since ↦ ?_⟩
    · rw [← List.countP_eq_length_filter]
      exact h challengeId hotkey
    · rw [List.nodup_iff_count_le_one]
      intro challengeId
      refine le_trans ?_ (h challengeId hotkey)
      rw [List.count_eq_countP, List.countP_map, listResults, List.countP_filter, resultCount]
      refine List.countP_mono_left fun r _ hr ↦ ?_
      simp only [Function.comp_apply, beq_iff_eq, Bool.and_eq_true, decide_eq_true_eq] at hr ⊢
      exact ⟨hr.1, hr.2.1⟩

theorem getResult_eq_none_iff {challengeId : ℕ} {hotkey : Hotkey} :
    getResult challengeId hotkey db = none ↔ resultCount challengeId hotkey db = 0 := by
  rw [getResult, List.find?_eq_none, resultCount, List.countP_eq_zero]

theorem resultCount_addResult (challengeId : ℕ) (hotkey : Hotkey) (result : ProbeResult) :
    resultCount challengeId hotkey (db.addResult result) = resultCount challengeId hotkey db +
      if result.challengeId = challengeId ∧ result.hotkey = hotkey then 1 else 0 := by
  rw [resultCount, addResult, List.countP_append, List.countP_singleton, resultCount]
  simp only [decide_eq_true_eq]

/-- A result more is one more of its challenge, which is too many where there was one. -/
theorem scoredOnce_addResult_iff (h : ScoredOnce db) (result : ProbeResult) :
    ScoredOnce (db.addResult result) ↔ getResult result.challengeId result.hotkey db = none := by
  rw [getResult_eq_none_iff]
  rw [scoredOnce_iff] at h ⊢
  simp only [resultCount_addResult]
  constructor
  · intro hafter
    have hown := hafter result.challengeId result.hotkey
    rw [if_pos ⟨rfl, rfl⟩] at hown
    omega
  · intro hnone challengeId hotkey
    split
    · next hkey =>
      obtain ⟨rfl, rfl⟩ := hkey
      omega
    · exact h challengeId hotkey

/-! ## What a submission knows -/

/-- A submission that has asked for a result was overtaken exactly if there is one. -/
def Knows (db : AuditDb) (submission : Submission) : Prop :=
  match submission.stage with
  | .getCapability | .addResult _ => submission.raced = false ↔
    getResult submission.result.challengeId submission.result.hotkey db = none
  | _ => True

/-- Every submission knows. -/
def Sound (w : ProbeWorld) : Prop :=
  ∀ i submission, w.submissions i = some submission → Knows w.db submission

theorem sound_idle (db : AuditDb) : (idle db).Sound := fun _ _ h ↦ nomatch h

theorem knows_of_results {db' : AuditDb} {submission : Submission}
    (hresults : db'.results = db.results) (h : Knows db submission) : Knows db' submission := by
  have hsame : getResult submission.result.challengeId submission.result.hotkey db' =
      getResult submission.result.challengeId submission.result.hotkey db := by
    rw [getResult, getResult, hresults]
  rw [Knows] at h ⊢
  rw [hsame]
  exact h

/-- The results stay, and one submission ends or goes on with what it knows. -/
theorem Sound.move (h : w.Sound) {i : SubmitId} {next : Option Submission}
    (hsubmissions : w'.submissions = Function.update w.submissions i next)
    (hresults : w'.db.results = w.db.results)
    (hnext : ∀ submission, next = some submission → Knows w.db submission) : w'.Sound := by
  intro j submission hj
  rw [hsubmissions] at hj
  refine knows_of_results hresults ?_
  by_cases hji : j = i
  · subst hji
    rw [Function.update_self] at hj
    exact hnext submission hj
  · rw [Function.update_of_ne hji] at hj
    exact h j submission hj

theorem Sound.finish (h : w.Sound) (i : SubmitId) : (w.finish i).Sound :=
  h.move rfl rfl fun _ hnext ↦ nomatch hnext

theorem Sound.proceed (h : w.Sound) {i : SubmitId} {submission : Submission}
    (hknows : Knows w.db submission) : (w.proceed i submission).Sound :=
  h.move rfl rfl fun _ hnext ↦ Option.some.inj hnext ▸ hknows

theorem Sound.of_results (h : w.Sound) (hsubmissions : w'.submissions = w.submissions)
    (hresults : w'.db.results = w.db.results) : w'.Sound :=
  fun j submission hj ↦ knows_of_results hresults (h j submission (hsubmissions ▸ hj))

/-- The others learn of a result that is inserted. -/
theorem Sound.addResult (h : w.Sound) {i : SubmitId} {result : ProbeResult}
    {capability : NodeCapability} (raced : Bool) :
    { (w.noteRaced result).proceed i ⟨result, .computeScorecard capability, raced⟩ with
      db := w.db.addResult result }.Sound := by
  intro j submission hj
  change Function.update (w.noteRaced result).submissions i
    (some ⟨result, .computeScorecard capability, raced⟩) j = some submission at hj
  by_cases hji : j = i
  · subst hji
    rw [Function.update_self] at hj
    obtain rfl := Option.some.inj hj
    trivial
  · rw [Function.update_of_ne hji] at hj
    obtain ⟨before, hbefore, rfl⟩ := Option.map_eq_some_iff.mp hj
    have hknows := h j before hbefore
    obtain ⟨theirs, stage, racedBefore⟩ := before
    -- Whether the result is of the challenge that this submission has asked about.
    by_cases hkey : theirs.challengeId = result.challengeId ∧ theirs.hotkey = result.hotkey
    · rw [if_pos hkey]
      have hsome : getResult theirs.challengeId theirs.hotkey (w.db.addResult result) ≠ none := by
        rw [Ne, getResult_eq_none_iff, resultCount_addResult, if_pos ⟨hkey.1.symm, hkey.2.symm⟩]
        omega
      cases stage with
      | getCapability => exact iff_of_false (Bool.noConfusion) hsome
      | addResult capability => exact iff_of_false (Bool.noConfusion) hsome
      | getChallenge => trivial
      | getResult => trivial
      | computeScorecard capability => trivial
    · rw [if_neg hkey]
      have hsame : getResult theirs.challengeId theirs.hotkey (w.db.addResult result) = none ↔
          getResult theirs.challengeId theirs.hotkey w.db = none := by
        rw [getResult_eq_none_iff, getResult_eq_none_iff, resultCount_addResult,
          if_neg fun hown ↦ hkey ⟨hown.1.symm, hown.2.symm⟩, Nat.add_zero]
      cases stage with
      | getCapability => exact hknows.trans hsame.symm
      | addResult capability => exact hknows.trans hsame.symm
      | getChallenge => trivial
      | getResult => trivial
      | computeScorecard capability => trivial

theorem results_publishWeightSnapshot (p : Publication) :
    (w.db.publishWeightSnapshot settings (engine.scoring p.flux) p.now p.netuid p.epochId
      p.historySaved).results = w.db.results :=
  publishWeightSnapshot_probes.2.1

theorem results_createProbe (challengeId : ℕ) (hotkey : Hotkey) (nodeId : NodeId) (kind : Text)
    (now : Time) : (db.createProbe challengeId hotkey nodeId kind now).results = db.results := by
  rw [createProbe]
  split
  · rfl
  · split
    · rfl
    · rw [saveChallenge]
      split <;> rfl

theorem Sound.step (h : w.Sound) (i : SubmitId) (flux : Hotkey → Option FluxState) (now : Time) :
    (w.step i settings engine flux now).Sound := by
  rw [ProbeWorld.step]
  cases hsubmission : w.submissions i with
  | none => exact h
  | some submission =>
    have hknows := h i submission hsubmission
    obtain ⟨result, stage, raced⟩ := submission
    cases stage with
    | getChallenge =>
      dsimp only
      split
      · exact h.finish i
      · split
        · exact h.finish i
        · exact h.proceed trivial
    | getResult =>
      dsimp only
      split
      · exact h.finish i
      · next hnone => exact h.proceed (iff_of_true rfl (Option.not_isSome_iff_eq_none.mp hnone))
    | getCapability =>
      dsimp only
      split
      · exact h.finish i
      · exact h.proceed hknows
    | addResult capability => exact h.addResult raced
    | computeScorecard capability => exact h.move rfl rfl fun _ hnext ↦ nomatch hnext

theorem Sound.exec (h : w.Sound) (o : ProbeOp) : (o.exec settings engine w).Sound := by
  cases o with
  | submitProbeResult i result =>
    rw [ProbeOp.exec]
    split
    · exact h.proceed trivial
    · exact h
  | step i flux now => exact h.step i flux now
  | die i => exact h.finish i
  | createProbe challengeId hotkey nodeId kind now =>
    exact h.of_results rfl (results_createProbe challengeId hotkey nodeId kind now)
  | register capabilities whitelist => exact h.of_results rfl rfl
  | publishWeightSnapshot p => exact h.of_results rfl (results_publishWeightSnapshot p)

theorem scoredOnce_of_results {db' : AuditDb} (h : ScoredOnce db)
    (hresults : db'.results = db.results) : ScoredOnce db' := by
  rw [scoredOnce_iff] at h ⊢
  intro challengeId hotkey
  rw [resultCount, hresults]
  exact h challengeId hotkey

/-- A step leaves one result of each challenge exactly if it inserts none that was overtaken. -/
theorem scoredOnce_exec_iff (h : w.Sound) (honce : ScoredOnce w.db) (o : ProbeOp) :
    ScoredOnce (o.exec settings engine w).db ↔ Unraced o w := by
  have hkept (hunraced : Unraced o w)
      (hresults : (o.exec settings engine w).db.results = w.db.results) :
      ScoredOnce (o.exec settings engine w).db ↔ Unraced o w :=
    iff_of_true (scoredOnce_of_results honce hresults) hunraced
  cases o with
  | submitProbeResult i result =>
    refine hkept trivial ?_
    rw [ProbeOp.exec]
    split <;> rfl
  | die i => exact hkept trivial rfl
  | createProbe challengeId hotkey nodeId kind now =>
    exact hkept trivial (results_createProbe challengeId hotkey nodeId kind now)
  | register capabilities whitelist => exact hkept trivial rfl
  | publishWeightSnapshot p => exact hkept trivial (results_publishWeightSnapshot p)
  | step i flux now =>
    rw [ProbeOp.exec, Unraced] at hkept ⊢
    rw [ProbeWorld.step] at hkept ⊢
    cases hsubmission : w.submissions i with
    | none => exact iff_of_true honce trivial
    | some submission =>
      have hknows := h i submission hsubmission
      rw [hsubmission] at hkept
      obtain ⟨result, stage, raced⟩ := submission
      cases stage with
      | getChallenge =>
        refine hkept trivial ?_
        dsimp only
        split
        · rfl
        · split <;> rfl
      | getResult =>
        refine hkept trivial ?_
        dsimp only
        split <;> rfl
      | getCapability =>
        refine hkept trivial ?_
        dsimp only
        split <;> rfl
      | addResult capability => exact (scoredOnce_addResult_iff honce result).trans hknows.symm
      | computeScorecard capability => exact hkept trivial rfl

theorem scoredOnce_empty : ScoredOnce AuditDb.empty :=
  scoredOnce_iff.mpr fun _ _ ↦ Nat.zero_le _

end ProbeWorld

open ProbeWorld

/-- Every challenge is scored once all along a run exactly if no submission in it inserts a result
after another one of the same challenge and hotkey has done so since the first asked for one. -/
theorem scored_once_iff (settings : AuditSettings) (engine : ScoreSettings) (os : List ProbeOp) :
    (∀ os', os' <+: os →
      ScoredOnce (Steps.replay (ProbeOp.exec settings engine) (idle .empty) os').db) ↔
      Steps.Admitted (ProbeOp.exec settings engine) Unraced (idle .empty) os :=
  Steps.throughout_iff (I := ProbeWorld.Sound) (P := fun w ↦ ScoredOnce w.db) (fun o _ h ↦ h.exec o)
    (fun o _ h honce ↦ scoredOnce_exec_iff h honce o) os (sound_idle _) scoredOnce_empty

/-- The miner sends its answer twice, and each submission asks for a result before the other inserts
its own. -/
def answeredTwice : List ProbeOp :=
  let answer : ProbeResult := ⟨7, 1, 0, 100, 50, true, none, false, 0, none, none, 101⟩
  [.register (.ofRows [(1, [AuditDb.minedNode])] AuditDb.nodup_minedNode) [],
    .createProbe 7 1 0 "latency".toList 100,
    .submitProbeResult 0 answer, .submitProbeResult 1 answer] ++
  [0, 1, 0, 1, 0, 1, 0, 1].map fun i ↦ .step i (fun _ ↦ none) 101

/-- A challenge may be scored twice. -/
theorem challenge_scored_twice :
    ¬∀ (settings : AuditSettings) (engine : ScoreSettings) (os os' : List ProbeOp), os' <+: os →
      ScoredOnce (Steps.replay (ProbeOp.exec settings engine) (idle .empty) os').db := by
  intro h
  have honce := (h weekOfProbes plainEngine answeredTwice answeredTwice List.prefix_rfl).once 7 1
  have htwo : ((Steps.replay (ProbeOp.exec weekOfProbes plainEngine) (idle .empty)
      answeredTwice).db.results.filter fun r ↦ r.challengeId = 7 ∧ r.hotkey = 1).length = 2 := by
    decide +kernel
  rw [htwo] at honce
  exact absurd honce (by decide)

end GreenCompute
