import GreenCompute.Gateway.Inference
import GreenCompute.Billing.Tables

/-!
# A streamed completion

The machines that could serve a completion are tried one after another, and the lines of a machine
are passed on as they come. What a stream is charged for is settled when it ends, from the usage
that the machine reported or the chunks with content that were counted. The caller may leave at any
line.

A machine gives way to the next when it fails before any *content* was counted, although it may have
passed lines on (`moves_on_iff`); and what was passed on is paid for only if the stream is finished
or left by the caller, and then only for a usage that counts or for content (`paid_for_iff`).
-/

namespace GreenCompute

/-! ## What a line says -/

/-- An exception: a `RuntimeError`, or any other. -/
inductive StreamError where
  | runtime (text : Text)
  | other (text : Text)
  deriving DecidableEq

/-- `json.loads`, and `int` of a text where it has one. A number that is infinite or not a number is
the text of its name: either is true, has no items and no integer. -/
structure JsonReader where
  loads : Text → Except StreamError Json
  intOfText : Text → Option ℤ

namespace Json

/-- `value.get(key, default)` -/
def getOr (value : Json) (key : String) (default : Json) : Except StreamError Json :=
  match value with
  | obj items => .ok ((items.lookup key.toList).getD default)
  | _ => .error (.other "AttributeError".toList)

/-- `value[0]` -/
def first : Json → Except StreamError Json
  | arr (item :: _) => .ok item
  | arr [] => .error (.other "IndexError".toList)
  | str (c :: _) => .ok (str [c])
  | str [] => .error (.other "IndexError".toList)
  | obj _ => .error (.other "KeyError".toList)
  | _ => .error (.other "TypeError".toList)

/-- The items of a value that is a `dict`. -/
def items? : Json → Option Metadata
  | obj items => some items
  | _ => none

/-- `int(value)` -/
def toInt (py : JsonReader) : Json → Except StreamError ℤ
  | bool b => .ok (if b then 1 else 0)
  | num n => .ok (n.num.tdiv n.den)
  | str t =>
    match py.intOfText t with
    | some n => .ok n
    | none => .error (.other "ValueError".toList)
  | _ => .error (.other "TypeError".toList)

end Json

/-- What the loop takes from a line: whether it counts as a chunk, and the usage in it. -/
structure Chunk where
  content : Bool
  usage : Option (Metadata)

/-- The payload of a data line. -/
def readPayload (payload : Json) : Except StreamError Chunk := do
  let choices ← payload.getOr "choices" (.arr [])
  let content ←
    if choices.truthy then do
      let choice ← choices.first
      let delta ← choice.getOr "delta" (.obj [])
      delta.getOr "content" .null
    else pure .null
  let usage ← payload.getOr "usage" .null
  pure ⟨content.truthy, usage.items?⟩

/-- The payload of a line, if it is a data line. -/
def dataOf (line : Text) : Option Text :=
  let stripped := line.strip
  if "data: ".toList.isPrefixOf stripped ∧ stripped ≠ "data: [DONE]".toList then
    some (stripped.drop 6)
  else none

/-- What is done with a line before it is passed on. -/
def readLine (py : JsonReader) (line : Text) : Except StreamError Chunk :=
  match dataOf line with
  | some text => py.loads text >>= readPayload
  | none => .ok ⟨false, none⟩

/-! ## The loop -/

/-- `chunk_count`, `stream_usage` and `served_any`. -/
structure Tally where
  chunkCount : ℕ
  streamUsage : Option (Metadata)
  servedAny : Bool

/-- A machine that could serve the completion: whether it serves a private model, the lines that it
would stream, and the exception that it would end with. -/
structure Candidate where
  isPrivateModel : Bool
  lines : List Text
  ending : Option StreamError

/-- How a generator comes to an end. -/
inductive Exit where
  | finished
  | closed
  | raised (e : StreamError)
  deriving DecidableEq

namespace Tally

/-- What is counted before anything is read. -/
def start : Tally := ⟨0, none, false⟩

/-- What is counted when a line is passed on. -/
def add (tally : Tally) (chunk : Chunk) : Tally where
  chunkCount := if chunk.content then tally.chunkCount + 1 else tally.chunkCount
  streamUsage := chunk.usage.or tally.streamUsage
  servedAny := true

end Tally

/-- What becomes of the lines of one machine: those passed on, how the loop is left, what was
counted, and how many more lines the caller waits for. -/
structure Served where
  passed : List Text
  exit : Exit
  tally : Tally
  patience : Option ℕ

/-- The loop over the lines of one machine. A caller that does not wait for the end takes some more
lines and leaves at the next. -/
def serve (py : JsonReader) (ending : Option StreamError) :
    List Text → Option ℕ → Tally → Served
  | [], patience, tally =>
    ⟨[], match ending with | none => .finished | some e => .raised e, tally, patience⟩
  | line :: rest, patience, tally =>
    match readLine py line with
    | .error e => ⟨[], .raised e, tally, patience⟩
    | .ok chunk =>
      if patience = some 0 then ⟨[line], .closed, tally.add chunk, patience⟩
      else
        let served := serve py ending rest (patience.map (· - 1)) (tally.add chunk)
        { served with passed := line :: served.passed }

/-- The status of a recorded invocation. -/
inductive InvocationStatus where
  | succeeded
  | failed
  | clientDisconnected
  deriving DecidableEq

/-- What is left of one machine that was tried: the lines that the caller got from it, the
invocation that was recorded, and the charge. -/
structure StreamAttempt where
  lines : List Text
  recorded : Option InvocationStatus
  charge : Option TokenCharge
  deriving DecidableEq

/-- A stream from its first line to its end. -/
structure StreamRun where
  attempts : List StreamAttempt
  exit : Exit
  deriving DecidableEq

namespace StreamRun

variable (run : StreamRun)

/-- The lines that the caller gets. -/
def lines : List Text := run.attempts.flatMap StreamAttempt.lines

/-- The charges that are made. -/
def charges : List TokenCharge := run.attempts.filterMap StreamAttempt.charge

end StreamRun

section Code

variable (py : JsonReader) (request : ChatCompletionRequest) (userId : Option UserId)

/-- `int(stream_usage.get(key, 0) or 0)` -/
def reportedTokens (key : String) (usage : Metadata) : Except StreamError ℤ :=
  let value := (usage.lookup key.toList).getD (.num 0)
  if value.truthy then value.toInt py else .ok 0

/-- The tokens that `_finalize_stream` bills. -/
def billedTokens (tally : Tally) : Except StreamError (ℤ × ℤ) :=
  match tally.streamUsage.filter (!·.isEmpty) with
  | some usage => do
    let promptTokens ← reportedTokens py "prompt_tokens" usage
    let completionTokens ← reportedTokens py "completion_tokens" usage
    pure (request.clampReportedUsage promptTokens completionTokens)
  | none =>
    if 0 < tally.chunkCount then
      pure (request.promptTokenBound, min (tally.chunkCount : ℤ) request.completionTokenBound)
    else pure (0, 0)

/-- `_finalize_stream` -/
def finalizeStream (isPrivateModel : Bool) (tally : Tally) :
    Except StreamError (Option TokenCharge) := do
  let billed ← billedTokens py request tally
  pure (if userId.isSome ∧ (billed.1 ≠ 0 ∨ billed.2 ≠ 0) then
    some ⟨isPrivateModel, billed.1, billed.2⟩ else none)

/-- The end of a stream that is settled. -/
def settleStream (isPrivateModel : Bool) (served : Served) (status : InvocationStatus)
    (exit : Exit) : StreamRun :=
  match finalizeStream py request userId isPrivateModel served.tally with
  | .ok charge => ⟨[⟨served.passed, some status, charge⟩], exit⟩
  | .error e => ⟨[⟨served.passed, none, none⟩], .raised e⟩

/-- `_stream_from_candidates` -/
def streamFromCandidates : List Candidate → Option StreamError → Option ℕ → StreamRun
  | [], lastExc, _ => ⟨[], match lastExc with | some e => .raised e | none => .finished⟩
  | deployment :: rest, _, patience =>
    let served := serve py deployment.ending deployment.lines patience .start
    match served.exit with
    | .closed =>
      if served.tally.servedAny then
        settleStream py request userId deployment.isPrivateModel served .clientDisconnected .closed
      else ⟨[⟨served.passed, none, none⟩], .closed⟩
    | .raised (.runtime text) =>
      let attempt : StreamAttempt := ⟨served.passed, some .failed, none⟩
      -- Only content is counted: a machine that passed other lines on gives way all the same.
      if 0 < served.tally.chunkCount then ⟨[attempt], .raised (.runtime text)⟩
      else
        let run := streamFromCandidates rest (some (.runtime text)) served.patience
        { run with attempts := attempt :: run.attempts }
    | .raised (.other text) => ⟨[⟨served.passed, none, none⟩], .raised (.other text)⟩
    | .finished =>
      settleStream py request userId deployment.isPrivateModel served .succeeded .finished

end Code

/-! ## What a machine does -/

/-- What the loop takes from a line that it can read. -/
def chunkOf (py : JsonReader) (line : Text) : Chunk :=
  match readLine py line with
  | .ok chunk => chunk
  | .error _ => ⟨false, none⟩

/-- Whether a line can be read. -/
def reads (py : JsonReader) (line : Text) : Bool :=
  match readLine py line with
  | .ok _ => true
  | .error _ => false

/-- The lines that can be passed on. -/
def readable (py : JsonReader) (lines : List Text) : List Text := lines.takeWhile (reads py)

/-- The exception that comes after the lines that can be passed on, if one does. -/
def fault (py : JsonReader) (ending : Option StreamError) : List Text → Option StreamError
  | [] => ending
  | line :: rest =>
    match readLine py line with
    | .ok _ => fault py ending rest
    | .error e => some e

/-- Whether a caller waits for more than some lines. -/
def waits (lines : List Text) : Option ℕ → Bool
  | none => true
  | some n => lines.length ≤ n

/-- The lines that a caller takes. -/
def taken (lines : List Text) : Option ℕ → List Text
  | none => lines
  | some n => lines.take (n + 1)

/-- What is counted when some lines are passed on. -/
def Tally.addAll (py : JsonReader) (tally : Tally) (lines : List Text) : Tally :=
  lines.foldl (fun t line ↦ t.add (chunkOf py line)) tally

variable {py : JsonReader}

theorem waits_cons {line : Text} {lines : List Text} {patience : Option ℕ}
    (h : patience ≠ some 0) :
    waits (line :: lines) patience = waits lines (patience.map (· - 1)) := by
  match patience with
  | none => rfl
  | some 0 => exact absurd rfl h
  | some (n + 1) => simp [waits]

theorem taken_cons {line : Text} {lines : List Text} {patience : Option ℕ}
    (h : patience ≠ some 0) :
    taken (line :: lines) patience = line :: taken lines (patience.map (· - 1)) := by
  match patience with
  | none => rfl
  | some 0 => exact absurd rfl h
  | some (n + 1) => rfl

theorem taken_eq_of_waits {lines : List Text} {patience : Option ℕ} (h : waits lines patience) :
    taken lines patience = lines := by
  match patience with
  | none => rfl
  | some n => exact List.take_of_length_le ((of_decide_eq_true h).trans n.le_succ)

/-- The loop passes on what can be read as far as the caller takes it, and ends with what comes
after that if the caller waits. -/
theorem serve_eq (ending : Option StreamError) (lines : List Text) (patience : Option ℕ)
    (tally : Tally) :
    let served := serve py ending lines patience tally
    served.passed = taken (readable py lines) patience ∧
      served.tally = tally.addAll py (taken (readable py lines) patience) ∧
      served.exit = (if waits (readable py lines) patience then
        match fault py ending lines with | none => .finished | some e => .raised e
        else .closed) ∧
      (waits (readable py lines) patience →
        served.patience = patience.map (· - (readable py lines).length)) := by
  induction lines generalizing patience tally with
  | nil => cases patience <;> exact ⟨rfl, rfl, rfl, fun _ ↦ rfl⟩
  | cons line rest ih =>
    cases hline : readLine py line with
    | error e =>
      have hreads : reads py line = false := by rw [reads, hline]
      have hreadable : readable py (line :: rest) = [] :=
        List.takeWhile_cons_of_neg (by rw [hreads]; exact Bool.false_ne_true)
      simp only [serve, hline, fault, hreadable]
      cases patience <;> exact ⟨rfl, rfl, rfl, fun _ ↦ rfl⟩
    | ok chunk =>
      have hreads : reads py line = true := by rw [reads, hline]
      have hreadable : readable py (line :: rest) = line :: readable py rest :=
        List.takeWhile_cons_of_pos hreads
      have hchunk : chunkOf py line = chunk := by rw [chunkOf, hline]
      by_cases hleaves : patience = some 0
      · subst hleaves
        simp only [serve, hline, hreadable, if_pos]
        refine ⟨rfl, ?_, rfl, nofun⟩
        rw [← hchunk]
        rfl
      · obtain ⟨hpassed, htally, hexit, hpatience⟩ := ih (patience.map (· - 1)) (tally.add chunk)
        simp only [serve, hline, if_neg hleaves, fault, hreadable, waits_cons hleaves,
          taken_cons hleaves]
        refine ⟨congrArg _ hpassed, ?_, hexit, fun hwaits ↦ ?_⟩
        · rw [htally, ← hchunk]
          rfl
        · rw [hpatience hwaits, Option.map_map]
          congr 1
          funext n
          simp only [Function.comp_apply, List.length_cons]
          omega

/-- The usage that was reported last. -/
def lastUsage (py : JsonReader) (lines : List Text) : Option Metadata :=
  (lines.filterMap fun line ↦ (chunkOf py line).usage).getLast?

theorem lastUsage_concat (lines : List Text) (line : Text) :
    lastUsage py (lines ++ [line]) = (chunkOf py line).usage.or (lastUsage py lines) := by
  rw [lastUsage, List.filterMap_append]
  cases husage : (chunkOf py line).usage <;> simp [husage, lastUsage]

theorem Tally.addAll_eq (tally : Tally) (lines : List Text) :
    tally.addAll py lines =
      ⟨tally.chunkCount + lines.countP fun line ↦ (chunkOf py line).content,
        (lastUsage py lines).or tally.streamUsage, tally.servedAny || !lines.isEmpty⟩ := by
  induction lines using List.reverseRec with
  | nil => simp [addAll, lastUsage]
  | append_singleton lines line ih =>
    have hadd : tally.addAll py (lines ++ [line]) =
        (tally.addAll py lines).add (chunkOf py line) := by
      rw [addAll, List.foldl_append]
      rfl
    rw [hadd, ih, add, List.countP_append, lastUsage_concat, Option.or_assoc]
    cases hcontent : (chunkOf py line).content <;> simp [hcontent, Nat.add_assoc]

/-- What is counted of one machine. -/
theorem Tally.start_addAll (lines : List Text) :
    Tally.start.addAll py lines =
      ⟨lines.countP fun line ↦ (chunkOf py line).content, lastUsage py lines, !lines.isEmpty⟩ := by
  rw [addAll_eq, start, Nat.zero_add, Option.or_none, Bool.false_or]

namespace Candidate

variable (py : JsonReader) (c : Candidate)

/-- The lines of a machine that can be passed on. -/
def readable : List Text := GreenCompute.readable py c.lines

/-- The exception after them. -/
def fault : Option StreamError := GreenCompute.fault py c.ending c.lines

/-- Whether a machine fails with a `RuntimeError` after lines without content. -/
def givesWay : Bool :=
  (match c.fault py with | some (.runtime _) => true | _ => false) &&
    !(c.readable py).any fun line ↦ (chunkOf py line).content

/-- Whether the caller waits for more than a machine passes on. -/
def outlasted (patience : Option ℕ) : Bool := waits (c.readable py) patience

/-- The lines of a machine that the caller takes. -/
def taken (patience : Option ℕ) : List Text := GreenCompute.taken (c.readable py) patience

end Candidate

section Attempts

variable (request : ChatCompletionRequest) (userId : Option UserId) {c : Candidate}
  (rest : List Candidate) (lastExc : Option StreamError) {patience : Option ℕ}

/-- The run of a machine that gives way goes on with the next. -/
theorem streamFromCandidates_givesWay (hgives : c.givesWay py) (hwaits : c.outlasted py patience) :
    ∃ text, c.fault py = some (.runtime text) ∧
      streamFromCandidates py request userId (c :: rest) lastExc patience =
        let run := streamFromCandidates py request userId rest (some (.runtime text))
          (patience.map (· - (c.readable py).length))
        { run with attempts := ⟨c.readable py, some .failed, none⟩ :: run.attempts } := by
  obtain ⟨hpassed, htally, hexit, hpatience⟩ := @serve_eq py c.ending c.lines patience .start
  obtain ⟨hfault, hcontent⟩ := Bool.and_eq_true_iff.mp hgives
  have hruntime : ∃ text, c.fault py = some (.runtime text) := by
    revert hfault
    split
    · exact fun _ ↦ ⟨_, ‹_›⟩
    · exact nofun
  obtain ⟨text, htext⟩ := hruntime
  refine ⟨text, htext, ?_⟩
  have hwaits' : waits (readable py c.lines) patience = true := hwaits
  have htext' : fault py c.ending c.lines = some (.runtime text) := htext
  rw [if_pos hwaits', htext'] at hexit
  rw [taken_eq_of_waits hwaits'] at hpassed htally
  have hcount : ¬0 < (serve py c.ending c.lines patience .start).tally.chunkCount := by
    rw [htally, Tally.start_addAll, List.countP_pos_iff]
    rintro ⟨line, hmem, hline⟩
    have hany : (c.readable py).any (fun line ↦ (chunkOf py line).content) = true :=
      List.any_eq_true.mpr ⟨line, hmem, hline⟩
    rw [hany] at hcontent
    cases hcontent
  rw [streamFromCandidates]
  simp only [hexit, if_neg hcount, hpatience hwaits', hpassed]
  rfl

/-- What the caller is charged for the lines taken from one machine, if its stream is settled. -/
def settlement (py : JsonReader) (request : ChatCompletionRequest) (userId : Option UserId)
    (isPrivateModel : Bool) (lines : List Text) : Option TokenCharge :=
  match finalizeStream py request userId isPrivateModel (Tally.start.addAll py lines) with
  | .ok charge => charge
  | .error _ => none

theorem settleStream_eq (served : Served) {lines : List Text} (hpassed : served.passed = lines)
    (htally : served.tally = Tally.start.addAll py lines) (isPrivateModel : Bool)
    (status : InvocationStatus) (exit : Exit) :
    ∃ recorded exit', settleStream py request userId isPrivateModel served status exit =
      ⟨[⟨lines, recorded, settlement py request userId isPrivateModel lines⟩], exit'⟩ := by
  rw [settleStream, settlement, htally, hpassed]
  split <;> exact ⟨_, _, rfl⟩

/-- The run of a machine that does not give way is over with it. It is settled unless the machine
fails. -/
theorem streamFromCandidates_stops (h : ¬(c.givesWay py ∧ c.outlasted py patience)) :
    ∃ recorded exit,
      streamFromCandidates py request userId (c :: rest) lastExc patience =
        ⟨[⟨c.taken py patience, recorded,
          if c.outlasted py patience ∧ c.fault py ≠ none then none
          else settlement py request userId c.isPrivateModel (c.taken py patience)⟩], exit⟩ := by
  obtain ⟨hpassed, htally, hexit, -⟩ := @serve_eq py c.ending c.lines patience .start
  have hsettle := settleStream_eq request userId _ hpassed htally
    c.isPrivateModel
  rw [streamFromCandidates]
  dsimp only
  by_cases hwaits : c.outlasted py patience = true
  · have hwaits' : waits (readable py c.lines) patience = true := hwaits
    rw [if_pos hwaits'] at hexit
    obtain hfault | ⟨e, hfault⟩ := (c.fault py).eq_none_or_eq_some
    · have hfault' : fault py c.ending c.lines = none := hfault
      have hsettles : ¬(c.outlasted py patience = true ∧ c.fault py ≠ none) := fun h ↦ h.2 hfault
      rw [hfault'] at hexit
      simp only [hexit, if_neg hsettles]
      exact hsettle _ _
    · have hfault' : fault py c.ending c.lines = some e := hfault
      have hfails : c.outlasted py patience = true ∧ c.fault py ≠ none :=
        ⟨hwaits, by rw [hfault]; exact nofun⟩
      rw [hfault'] at hexit
      simp only [hexit, if_pos hfails, hpassed]
      cases e with
      | other text => exact ⟨_, _, rfl⟩
      | runtime text =>
        -- Some content was counted: the machine does not give way.
        have hcount : 0 < (serve py c.ending c.lines patience .start).tally.chunkCount := by
          rw [htally, Tally.start_addAll, List.countP_pos_iff, taken_eq_of_waits hwaits']
          by_contra hnone
          refine h ⟨Bool.and_eq_true_iff.mpr ⟨by rw [hfault], ?_⟩, hwaits⟩
          rw [Bool.not_eq_true', List.any_eq_false]
          exact fun line hmem hline ↦ hnone ⟨line, hmem, hline⟩
        simp only [if_pos hcount]
        exact ⟨_, _, rfl⟩
  · have hwaits' : ¬waits (readable py c.lines) patience = true := hwaits
    have hsettles : ¬(c.outlasted py patience = true ∧ c.fault py ≠ none) := fun h ↦ hwaits h.1
    have hserved : (serve py c.ending c.lines patience .start).tally.servedAny = true := by
      rw [htally, Tally.start_addAll]
      match patience with
      | none => exact absurd rfl hwaits'
      | some n =>
        cases hlines : readable py c.lines with
        | nil =>
          rw [hlines] at hwaits'
          exact absurd (decide_eq_true n.zero_le) hwaits'
        | cons line rest => rfl
    rw [if_neg hwaits'] at hexit
    simp only [hexit, if_pos hserved, if_neg hsettles]
    exact hsettle _ _

end Attempts

/-! ## Moving on -/

/-- A machine that fails before it passes anything on. -/
def Candidate.FailsFirst (py : JsonReader) (c : Candidate) : Prop :=
  c.readable py = [] ∧ ∃ text, c.fault py = some (.runtime text)

/-- The answer comes from one machine: a machine is left for the next only when it passed nothing
on, so all lines are from one, and when all fail first the error of the last is raised. -/
structure OneMachine (py : JsonReader) (candidates : List Candidate) (run : StreamRun) : Prop where
  moves : ∀ a ∈ run.attempts.dropLast, a.lines = []
  one : ∃ k, ∀ (j : ℕ) (a : StreamAttempt), run.attempts[j]? = some a → a.lines ≠ [] → j = k
  last : (∀ c ∈ candidates, c.FailsFirst py) → ∀ c, candidates.getLast? = some c →
    ∃ e, c.fault py = some e ∧ run.exit = .raised e

/-- The first machine to pass a line on, if there is another after it, does not fail with a
`RuntimeError` after lines without content for which the caller waits. -/
def KeepsToFirst (py : JsonReader) (candidates : List Candidate) (patience : Option ℕ) : Prop :=
  ∀ before c after, candidates = before ++ c :: after → after ≠ [] →
    (∀ b ∈ before, b.givesWay py ∧ b.readable py = []) → c.givesWay py → c.outlasted py patience →
      c.readable py = []

theorem keepsToFirst_cons {c : Candidate} {rest : List Candidate} {patience : Option ℕ} :
    KeepsToFirst py (c :: rest) patience ↔
      (rest ≠ [] → c.givesWay py → c.outlasted py patience → c.readable py = []) ∧
        (c.givesWay py → c.readable py = [] → KeepsToFirst py rest patience) := by
  constructor
  · intro h
    refine ⟨fun hrest ↦ h [] c rest rfl hrest nofun, fun hgives hnone before d after hsplit ↦ ?_⟩
    intro hafter hbefore
    refine h (c :: before) d after (by rw [hsplit, List.cons_append]) hafter fun b hb ↦ ?_
    rcases List.mem_cons.mp hb with rfl | hb
    · exact ⟨hgives, hnone⟩
    · exact hbefore b hb
  · rintro ⟨hhere, hlater⟩ before d after hsplit hafter hbefore
    cases before with
    | nil =>
      obtain ⟨rfl, rfl⟩ := List.cons.inj hsplit
      exact hhere hafter
    | cons b before =>
      obtain ⟨rfl, hrest⟩ := List.cons.inj hsplit
      obtain ⟨hgives, hnone⟩ := hbefore c (List.mem_cons_self ..)
      exact hlater hgives hnone before d after hrest hafter
        fun b hb ↦ hbefore b (List.mem_cons_of_mem _ hb)

section Moves

variable {request : ChatCompletionRequest} {userId : Option UserId}

theorem attempts_ne_nil {candidates : List Candidate} {lastExc : Option StreamError}
    {patience : Option ℕ} (h : candidates ≠ []) :
    (streamFromCandidates py request userId candidates lastExc patience).attempts ≠ [] := by
  cases candidates with
  | nil => exact absurd rfl h
  | cons c rest =>
    by_cases hgives : c.givesWay py ∧ c.outlasted py patience
    · obtain ⟨text, -, hrun⟩ := streamFromCandidates_givesWay request
        userId rest lastExc hgives.1 hgives.2
      rw [hrun]
      exact List.cons_ne_nil _ _
    · obtain ⟨_, _, hrun⟩ := streamFromCandidates_stops request userId
        rest lastExc hgives
      rw [hrun]
      exact List.cons_ne_nil _ _

/-- Every machine that was left passed nothing on, exactly when the first that passes a line on is
kept to. -/
theorem moves_iff (candidates : List Candidate) (lastExc : Option StreamError)
    (patience : Option ℕ) :
    (∀ a ∈ (streamFromCandidates py request userId candidates lastExc patience).attempts.dropLast,
      a.lines = []) ↔ KeepsToFirst py candidates patience := by
  induction candidates generalizing lastExc patience with
  | nil =>
    refine iff_of_true nofun fun before c after hsplit ↦ ?_
    exact absurd hsplit.symm (List.append_ne_nil_of_right_ne_nil before (List.cons_ne_nil c after))
  | cons c rest ih =>
    rw [keepsToFirst_cons]
    by_cases hgives : c.givesWay py ∧ c.outlasted py patience
    · obtain ⟨text, -, hrun⟩ := streamFromCandidates_givesWay request
        userId rest lastExc hgives.1 hgives.2
      rw [hrun]
      dsimp only
      by_cases hrest : rest = []
      · subst hrest
        refine iff_of_true nofun ⟨fun h ↦ absurd rfl h, fun _ _ before d after hsplit ↦ ?_⟩
        exact absurd hsplit.symm
          (List.append_ne_nil_of_right_ne_nil before (List.cons_ne_nil d after))
      · rw [List.dropLast_cons_of_ne_nil (attempts_ne_nil hrest), List.forall_mem_cons, ih]
        have hpatience : c.readable py = [] →
            patience.map (· - (c.readable py).length) = patience := by
          intro hnone
          rw [hnone]
          cases patience <;> rfl
        constructor
        · rintro ⟨hnone, hlater⟩
          exact ⟨fun _ _ _ ↦ hnone, fun _ hnone ↦ hpatience hnone ▸ hlater⟩
        · rintro ⟨hhere, hlater⟩
          have hnone := hhere hrest hgives.1 hgives.2
          rw [hpatience hnone]
          exact ⟨hnone, hlater hgives.1 hnone⟩
    · obtain ⟨_, _, hrun⟩ := streamFromCandidates_stops request userId
        rest lastExc hgives
      rw [hrun]
      refine iff_of_true nofun ⟨fun _ hg ho ↦ absurd ⟨hg, ho⟩ hgives, fun hg hnone ↦ ?_⟩
      refine absurd ⟨hg, ?_⟩ hgives
      rw [Candidate.outlasted, hnone]
      cases patience <;> rfl

/-- When all machines fail first, the error of the last is raised. -/
theorem exit_of_failsFirst {candidates : List Candidate} {lastExc : Option StreamError}
    {patience : Option ℕ} (h : ∀ c ∈ candidates, c.FailsFirst py) :
    (streamFromCandidates py request userId candidates lastExc patience).exit =
      match (candidates.getLast?.bind (Candidate.fault py)).or lastExc with
      | some e => .raised e
      | none => .finished := by
  induction candidates generalizing lastExc patience with
  | nil => rfl
  | cons c rest ih =>
    obtain ⟨hnone, text, htext⟩ := h c (List.mem_cons_self ..)
    have hgives : c.givesWay py := by
      rw [Candidate.givesWay, htext, hnone]
      rfl
    have hwaits : c.outlasted py patience := by
      rw [Candidate.outlasted, hnone]
      cases patience <;> rfl
    obtain ⟨text', htext', hrun⟩ := streamFromCandidates_givesWay request
      userId rest lastExc hgives hwaits
    rw [hrun]
    dsimp only
    rw [ih fun d hd ↦ h d (List.mem_cons_of_mem _ hd), ← htext']
    cases rest with
    | nil =>
      rw [List.getLast?_singleton, Option.bind_some, htext]
      rfl
    | cons d rest =>
      obtain ⟨e, he⟩ : ∃ e, (List.getLast? (d :: rest)).bind (Candidate.fault py) = some e := by
        rw [List.getLast?_eq_some_getLast (List.cons_ne_nil d rest), Option.bind_some]
        have hmem := List.getLast_mem (List.cons_ne_nil d rest)
        obtain ⟨-, text, htext⟩ := h _ (List.mem_cons_of_mem c hmem)
        exact ⟨_, htext⟩
      rw [List.getLast?_cons_cons, he]
      rfl

end Moves

/-- A streamed answer comes from one machine exactly when the first machine that passes a line on is
kept to. -/
theorem moves_on_iff (py : JsonReader) (request : ChatCompletionRequest) (userId : Option UserId)
    (candidates : List Candidate) (patience : Option ℕ) :
    OneMachine py candidates (streamFromCandidates py request userId candidates none patience) ↔
      KeepsToFirst py candidates patience := by
  rw [← @moves_iff py request userId candidates none]
  refine ⟨OneMachine.moves, fun h ↦ ⟨h, ?_, fun hall c hc ↦ ?_⟩⟩
  · generalize (streamFromCandidates py request userId candidates none patience).attempts = l at h
    refine ⟨l.length - 1, fun j a hj hlines ↦ ?_⟩
    obtain ⟨hlt, hget⟩ := List.getElem?_eq_some_iff.mp hj
    by_contra hne
    have hdrop : j < l.dropLast.length := by
      rw [List.length_dropLast]
      omega
    refine hlines (h a ?_)
    rw [← hget, ← List.getElem_dropLast hdrop]
    exact List.getElem_mem hdrop
  · obtain ⟨-, text, htext⟩ := hall c (List.mem_of_getLast? hc)
    refine ⟨_, htext, ?_⟩
    rw [exit_of_failsFirst hall, hc, Option.bind_some, htext]
    rfl

/-! A machine that says who speaks and then fails is left for the next, which answers anew. -/

/-- A reader of the lines of one short answer. -/
def roleReader : JsonReader where
  loads text :=
    if text = "role".toList then
      .ok (.obj [("choices".toList, .arr [.obj [("delta".toList,
        .obj [("role".toList, .str "assistant".toList)])]])])
    else if text = "hello".toList then
      .ok (.obj [("choices".toList, .arr [.obj [("delta".toList,
        .obj [("content".toList, .str "hello".toList)])]])])
    else .error (.other "JSONDecodeError".toList)
  intOfText _ := none

/-- A request for a short answer. -/
def shortRequest : ChatCompletionRequest := ⟨"m".toList, [.text "hello".toList], none, none⟩

theorem role_then_failure :
    ¬∀ (py : JsonReader) (request : ChatCompletionRequest) (userId : Option UserId)
      (candidates : List Candidate) (patience : Option ℕ),
      OneMachine py candidates
        (streamFromCandidates py request userId candidates none patience) := by
  intro h
  have hmoves := (h roleReader shortRequest (some 1)
    [⟨false, ["data: role".toList], some (.runtime "timed out".toList)⟩,
      ⟨false, ["data: role".toList, "data: hello".toList], none⟩] none).moves
  revert hmoves
  decide +kernel

/-! ## Paying -/

/-- What an object has under a key. -/
def Json.field (value : Json) (key : String) : Json :=
  match value with
  | obj items => (items.lookup key.toList).getD null
  | _ => null

/-- Whether a choice carries output: content, reasoning, or a call of a tool. -/
def generates (choice : Json) : Bool :=
  ["content", "reasoning", "reasoning_content", "tool_calls"].any fun key ↦
    ((choice.field "delta").field key).truthy

/-- Whether a line carries generated output. -/
def carriesOutput (py : JsonReader) (line : Text) : Bool :=
  match (dataOf line).map py.loads with
  | some (.ok payload) =>
    match payload.field "choices" with
    | .arr choices => choices.any generates
    | _ => false
  | _ => false

/-- A charge of some tokens, within the bounds of its request. -/
structure TokenCharge.Proper (request : ChatCompletionRequest) (charge : TokenCharge) : Prop where
  prompt : 0 ≤ charge.promptTokens
  completion : 0 ≤ charge.completionTokens
  positive : 0 < charge.promptTokens + charge.completionTokens
  within : request.Within charge

/-- A stream is charged for once if it delivered output, and not at all if it delivered nothing. -/
structure ProperlyPaid (py : JsonReader) (request : ChatCompletionRequest) (run : StreamRun) :
    Prop where
  charged : (∃ line ∈ run.lines, carriesOutput py line) →
    ∃ charge, run.charges = [charge] ∧ charge.Proper request
  free : run.lines = [] → run.charges = []

/-- Lines that can be paid for: the usage reported last counts some tokens, or it has nothing in it
and there is a line with content. -/
def Payable (py : JsonReader) (lines : List Text) : Prop :=
  match (lastUsage py lines).filter (!·.isEmpty) with
  | some usage => ∃ p c : ℤ, reportedTokens py "prompt_tokens" usage = .ok p ∧
      reportedTokens py "completion_tokens" usage = .ok c ∧ (0 < p ∨ 0 < c)
  | none => ∃ line ∈ lines, (chunkOf py line).content

/-- The machine that does not give way is left by the caller or finishes, and the lines taken from
it can be paid for. -/
def PaidFor (py : JsonReader) : List Candidate → Option ℕ → Prop
  | [], _ => False
  | c :: rest, patience =>
    if c.givesWay py ∧ c.outlasted py patience then
      PaidFor py rest (patience.map (· - (c.readable py).length))
    else (c.outlasted py patience → c.fault py = none) ∧ Payable py (c.taken py patience)

/-- The lines that the machines deliver. -/
def delivered (py : JsonReader) : List Candidate → Option ℕ → List Text
  | [], _ => []
  | c :: rest, patience =>
    if c.givesWay py ∧ c.outlasted py patience then
      c.readable py ++ delivered py rest (patience.map (· - (c.readable py).length))
    else c.taken py patience

namespace ChatCompletionRequest

variable (request : ChatCompletionRequest)

theorem promptTokenBound_pos : 0 < request.promptTokenBound := by
  rw [promptTokenBound, billedPromptTokensPerImage, billedPromptTokensPerMessage,
    billedPromptTokensBase]
  omega

theorem completionTokenBound_ne_zero : request.completionTokenBound ≠ 0 := by
  rw [completionTokenBound, billedCompletionTokensCeiling]
  split
  · next n hn =>
    by_cases hzero : n = 0
    · rw [if_neg (not_not.mpr hzero)]
      decide
    · rw [if_pos hzero]
      omega
  · decide

end ChatCompletionRequest

section Charges

variable {request : ChatCompletionRequest} {user : UserId}

theorem settlement_eq (isPrivateModel : Bool) (lines : List Text) :
    settlement py request (some user) isPrivateModel lines =
      match billedTokens py request (Tally.start.addAll py lines) with
      | .ok billed => if billed.1 ≠ 0 ∨ billed.2 ≠ 0 then
          some ⟨isPrivateModel, billed.1, billed.2⟩ else none
      | .error _ => none := by
  rw [settlement, finalizeStream]
  cases billedTokens py request (Tally.start.addAll py lines) with
  | error e => rfl
  | ok billed =>
    simp only [Option.isSome_some, true_and]
    rfl

/-- What is billed within the bounds is a proper charge exactly when it is some tokens. -/
theorem exists_proper_iff (isPrivateModel : Bool) {promptTokens completionTokens : ℤ}
    (hprompt : promptTokens ≤ request.promptTokenBound)
    (hcompletion : completionTokens ≤ request.completionTokenBound) :
    (∃ charge : TokenCharge,
      (if promptTokens ≠ 0 ∨ completionTokens ≠ 0 then
        some (TokenCharge.mk isPrivateModel promptTokens completionTokens) else none) =
          some charge ∧ charge.Proper request) ↔
      0 ≤ promptTokens ∧ 0 ≤ completionTokens ∧ 0 < promptTokens + completionTokens := by
  constructor
  · rintro ⟨charge, hcharge, hproper⟩
    by_cases hsome : promptTokens ≠ 0 ∨ completionTokens ≠ 0
    · rw [if_pos hsome] at hcharge
      obtain rfl := Option.some.inj hcharge
      exact ⟨hproper.prompt, hproper.completion, hproper.positive⟩
    · rw [if_neg hsome] at hcharge
      cases hcharge
  · rintro ⟨hp, hc, hpos⟩
    have hsome : promptTokens ≠ 0 ∨ completionTokens ≠ 0 := by omega
    exact ⟨_, if_pos hsome, hp, hc, hpos, hprompt, hcompletion⟩

/-- Some lines are charged for exactly when they can be paid for. -/
theorem exists_settlement_iff (isPrivateModel : Bool) (lines : List Text) :
    (∃ charge, settlement py request (some user) isPrivateModel lines = some charge ∧
      charge.Proper request) ↔ 0 ≤ request.completionTokenBound ∧ Payable py lines := by
  have hprompt := request.promptTokenBound_pos
  have hcompletion := request.completionTokenBound_ne_zero
  rw [settlement_eq, billedTokens, Tally.start_addAll, Payable]
  dsimp only
  cases (lastUsage py lines).filter (!·.isEmpty) with
  | none =>
    dsimp only
    rw [← List.countP_pos_iff]
    generalize List.countP _ lines = n
    by_cases hcount : 0 < n
    · rw [if_pos hcount]
      refine (exists_proper_iff isPrivateModel le_rfl (min_le_right _ _)).trans ?_
      omega
    · rw [if_neg hcount]
      exact iff_of_false (fun ⟨_, hcharge, _⟩ ↦ nomatch hcharge) fun h ↦ hcount h.2
  | some usage =>
    dsimp only
    cases hp : reportedTokens py "prompt_tokens" usage with
    | error e => exact iff_of_false (fun ⟨_, h, _⟩ ↦ nomatch h) fun ⟨_, _, _, h, _⟩ ↦ nomatch h
    | ok p =>
      cases hc : reportedTokens py "completion_tokens" usage with
      | error e =>
        exact iff_of_false (fun ⟨_, h, _⟩ ↦ nomatch h) fun ⟨_, _, _, _, h, _⟩ ↦ nomatch h
      | ok c =>
        have hclamped := @exists_proper_iff request isPrivateModel _ _
          (min_le_right (max p 0) request.promptTokenBound)
          (min_le_right (max c 0) request.completionTokenBound)
        refine hclamped.trans ?_
        constructor
        · intro h
          exact ⟨by omega, p, c, rfl, rfl, by omega⟩
        · rintro ⟨hbound, p', c', hp', hc', hsome⟩
          obtain rfl := Except.ok.inj hp'
          obtain rfl := Except.ok.inj hc'
          omega

theorem settlement_nil (isPrivateModel : Bool) :
    settlement py request (some user) isPrivateModel [] = none := by
  rw [settlement_eq]
  rfl

theorem lines_streamFromCandidates (candidates : List Candidate) (lastExc : Option StreamError)
    (patience : Option ℕ) :
    (streamFromCandidates py request (some user) candidates lastExc patience).lines =
      delivered py candidates patience := by
  induction candidates generalizing lastExc patience with
  | nil => rfl
  | cons c rest ih =>
    rw [delivered]
    by_cases hgives : c.givesWay py ∧ c.outlasted py patience
    · obtain ⟨text, -, hrun⟩ := streamFromCandidates_givesWay request
        (some user) rest lastExc hgives.1 hgives.2
      rw [hrun, if_pos hgives, ← ih (some (.runtime text))]
      rfl
    · obtain ⟨_, _, hrun⟩ := streamFromCandidates_stops request
        (some user) rest lastExc hgives
      rw [hrun, if_neg hgives, StreamRun.lines, List.flatMap_singleton]

/-- A machine that gives way is not charged for; what the run is charged for is the charge of the
machine that does not. -/
theorem charges_iff (candidates : List Candidate) (lastExc : Option StreamError)
    (patience : Option ℕ) :
    (∃ charge, (streamFromCandidates py request (some user) candidates lastExc patience).charges =
      [charge] ∧ charge.Proper request) ↔
      0 ≤ request.completionTokenBound ∧ PaidFor py candidates patience := by
  induction candidates generalizing lastExc patience with
  | nil => exact iff_of_false (fun ⟨_, h, _⟩ ↦ nomatch h) And.right
  | cons c rest ih =>
    rw [PaidFor]
    by_cases hgives : c.givesWay py ∧ c.outlasted py patience
    · obtain ⟨text, -, hrun⟩ := streamFromCandidates_givesWay request
        (some user) rest lastExc hgives.1 hgives.2
      rw [hrun, if_pos hgives, ← ih (some (.runtime text))]
      rfl
    · obtain ⟨recorded, exit, hrun⟩ := streamFromCandidates_stops request
        (some user) rest lastExc hgives
      have hcharges : ∀ charge : Option TokenCharge,
          StreamRun.charges ⟨[⟨c.taken py patience, recorded, charge⟩], exit⟩ = charge.toList := by
        intro charge
        cases charge <;> rfl
      rw [hrun, if_neg hgives, hcharges]
      by_cases hfails : c.outlasted py patience ∧ c.fault py ≠ none
      · rw [if_pos hfails]
        exact iff_of_false (fun ⟨_, h, _⟩ ↦ nomatch h) fun h ↦ hfails.2 (h.2.1 hfails.1)
      · have hends : c.outlasted py patience → c.fault py = none :=
          fun hwaits ↦ not_not.mp fun hne ↦ hfails ⟨hwaits, hne⟩
        rw [if_neg hfails, and_iff_right hends,
          ← @exists_settlement_iff py request user c.isPrivateModel]
        simp only [Option.toList_eq_singleton_iff]

/-- Nothing is charged for nothing. -/
theorem charges_of_lines_eq_nil (candidates : List Candidate) (lastExc : Option StreamError)
    (patience : Option ℕ) (h : delivered py candidates patience = []) :
    (streamFromCandidates py request (some user) candidates lastExc patience).charges = [] := by
  induction candidates generalizing lastExc patience with
  | nil => rfl
  | cons c rest ih =>
    rw [delivered] at h
    by_cases hgives : c.givesWay py ∧ c.outlasted py patience
    · obtain ⟨text, -, hrun⟩ := streamFromCandidates_givesWay request
        (some user) rest lastExc hgives.1 hgives.2
      rw [if_pos hgives] at h
      rw [hrun]
      exact ih _ _ (List.append_eq_nil_iff.mp h).2
    · obtain ⟨recorded, exit, hrun⟩ := streamFromCandidates_stops request
        (some user) rest lastExc hgives
      rw [if_neg hgives] at h
      rw [hrun, h, settlement_nil, ite_self]
      rfl

end Charges

/-- A stream of a paying user is paid for, once and properly, exactly when it delivers no output, or
the machine that it ends with is left by the caller or finishes, and reports some tokens or, without
a report, gave content. -/
theorem paid_for_iff (py : JsonReader) (request : ChatCompletionRequest) (user : UserId)
    (candidates : List Candidate) (patience : Option ℕ) :
    ProperlyPaid py request (streamFromCandidates py request (some user) candidates none patience) ↔
      ((∃ line ∈ delivered py candidates patience, carriesOutput py line) →
        0 ≤ request.completionTokenBound ∧ PaidFor py candidates patience) := by
  have hlines := @lines_streamFromCandidates py request user
    candidates none patience
  have hcharges := @charges_iff py request user candidates none
    patience
  constructor
  · intro h hout
    rw [← hlines] at hout
    exact hcharges.mp (h.charged hout)
  · intro h
    refine ⟨fun hout ↦ ?_, fun hnone ↦ ?_⟩
    · rw [hlines] at hout
      exact hcharges.mpr (h hout)
    · rw [hlines] at hnone
      exact charges_of_lines_eq_nil candidates none patience hnone

/-! A machine that fails in the middle of its answer is not paid for, nor by the caller who has the
half of it. -/

theorem content_then_failure :
    ¬∀ (py : JsonReader) (request : ChatCompletionRequest) (user : UserId)
      (candidates : List Candidate) (patience : Option ℕ),
      ProperlyPaid py request
        (streamFromCandidates py request (some user) candidates none patience) := by
  intro h
  have hpaid := (h roleReader shortRequest 1
    [⟨false, ["data: role".toList, "data: hello".toList],
      some (.runtime "timed out".toList)⟩] none).charged
    ⟨"data: hello".toList, by decide +kernel, by decide +kernel⟩
  obtain ⟨charge, hcharge, -⟩ := hpaid
  have hnone : (streamFromCandidates roleReader shortRequest (some 1)
      [⟨false, ["data: role".toList, "data: hello".toList],
        some (.runtime "timed out".toList)⟩] none none).charges = [] := by
    decide +kernel
  rw [hnone] at hcharge
  cases hcharge

/-! ## What a hold has to cover

The charge for a stream depends on its lines only through the content and the usage in them, which
is all that the holds of requests look at. -/

/-- The tokens in a usage object. -/
def viewUsage (py : JsonReader) (usage : Metadata) : UsageChunk :=
  if usage.isEmpty then ⟨none, none, false⟩
  else ⟨(reportedTokens py "prompt_tokens" usage).toOption,
    (reportedTokens py "completion_tokens" usage).toOption, true⟩

/-- A line as far as it is billed. -/
def viewLine (py : JsonReader) (line : Text) : StreamLine :=
  ⟨(chunkOf py line).content, (chunkOf py line).usage.map (viewUsage py)⟩

/-- A machine as far as it is billed. A report that cannot be read ends the request. -/
def Candidate.view (py : JsonReader) (request : ChatCompletionRequest) (c : Candidate)
    (patience : Option ℕ) : Bool × Streamed :=
  let lines := c.taken py patience
  let settled (ending : StreamEnd) : StreamEnd :=
    match billedTokens py request (Tally.start.addAll py lines) with
    | .ok _ => ending
    | .error _ => .raised
  let ending :=
    if c.outlasted py patience then
      match c.fault py with
      | none => settled .finished
      | some (.runtime _) => .failed
      | some (.other _) => .raised
    else settled .disconnected
  (c.isPrivateModel, ⟨lines.map (viewLine py), ending⟩)

/-- The machines as far as they are billed. -/
def views (py : JsonReader) (request : ChatCompletionRequest) :
    List Candidate → Option ℕ → List (Bool × Streamed)
  | [], _ => []
  | c :: rest, patience =>
    c.view py request patience ::
      views py request rest (patience.map (· - (c.readable py).length))

section Views

variable {request : ChatCompletionRequest} {user : UserId}

theorem truthy_viewUsage (usage : Metadata) : (viewUsage py usage).truthy = !usage.isEmpty := by
  rw [viewUsage]
  cases usage.isEmpty
  · exact Bool.or_true _
  · rfl

theorem chunkCount_view (lines : List Text) (ending : StreamEnd) :
    Streamed.chunkCount ⟨lines.map (viewLine py), ending⟩ =
      lines.countP fun line ↦ (chunkOf py line).content :=
  List.countP_map

theorem streamUsage_view (lines : List Text) (ending : StreamEnd) :
    Streamed.streamUsage ⟨lines.map (viewLine py), ending⟩ =
      (lastUsage py lines).map (viewUsage py) := by
  rw [Streamed.streamUsage, List.filterMap_map, lastUsage, ← List.getLast?_map,
    List.map_filterMap]
  rfl

/-- What is billed for some lines is what is billed for what is seen of them. -/
theorem streamedTokens_view {lines : List Text} {billed : ℤ × ℤ}
    (h : billedTokens py request (Tally.start.addAll py lines) = .ok billed) (ending : StreamEnd) :
    request.streamedTokens ⟨lines.map (viewLine py), ending⟩ = billed := by
  rw [billedTokens, Tally.start_addAll] at h
  rw [ChatCompletionRequest.streamedTokens, streamUsage_view, chunkCount_view, Option.filter_map]
  have hfilter : UsageChunk.truthy ∘ viewUsage py = fun usage ↦ !usage.isEmpty :=
    funext truthy_viewUsage
  rw [hfilter]
  dsimp only at h
  cases husage : (lastUsage py lines).filter (!·.isEmpty) with
  | none =>
    rw [husage] at h
    dsimp only at h
    rw [Option.map_none]
    dsimp only
    split_ifs at h ⊢ <;> exact Except.ok.inj h
  | some usage =>
    rw [husage] at h
    dsimp only at h
    have hsome : usage.isEmpty = false := by
      obtain ⟨-, hsome⟩ := Option.filter_eq_some_iff.mp husage
      simpa using hsome
    rw [Option.map_some, viewUsage, if_neg (by rw [hsome]; exact Bool.false_ne_true)]
    cases hp : reportedTokens py "prompt_tokens" usage with
    | error e =>
      rw [hp] at h
      cases h
    | ok p =>
      cases hc : reportedTokens py "completion_tokens" usage with
      | error e =>
        rw [hp, hc] at h
        cases h
      | ok c =>
        rw [hp, hc] at h
        exact Except.ok.inj h

theorem settlement_view (isPrivateModel : Bool) {lines : List Text} {billed : ℤ × ℤ}
    (h : billedTokens py request (Tally.start.addAll py lines) = .ok billed) (ending : StreamEnd) :
    settlement py request (some user) isPrivateModel lines =
      request.finalizeStream isPrivateModel ⟨lines.map (viewLine py), ending⟩ := by
  rw [settlement_eq, h, ChatCompletionRequest.finalizeStream, streamedTokens_view h]

theorem finalizeStream_nil {s : Streamed} (isPrivateModel : Bool) (h : s.lines = []) :
    request.finalizeStream isPrivateModel s = none := by
  obtain ⟨lines, ending⟩ := s
  obtain rfl : lines = [] := h
  rfl

/-- A settled stream is charged for as it is seen, when one that ends so is finalized. -/
theorem settled_view {isPrivateModel : Bool} {lines : List Text} (ending : StreamEnd)
    {rest : List (Bool × Streamed)}
    (hfinal : ∀ s : Streamed, s.ending = ending → s.lines = lines.map (viewLine py) →
      request.streamFromCandidates ((isPrivateModel, s) :: rest) =
        if s.lines = [] then none else request.finalizeStream isPrivateModel s) :
    settlement py request (some user) isPrivateModel lines =
      request.streamFromCandidates ((isPrivateModel, ⟨lines.map (viewLine py),
        match billedTokens py request (Tally.start.addAll py lines) with
        | .ok _ => ending
        | .error _ => .raised⟩) :: rest) := by
  cases hbilled : billedTokens py request (Tally.start.addAll py lines) with
  | error e =>
    rw [settlement_eq, hbilled]
    rfl
  | ok billed =>
    rw [hfinal _ rfl rfl]
    by_cases hlines : lines = []
    · rw [hlines, settlement_nil]
      rfl
    · rw [if_neg fun h ↦ hlines (List.map_eq_nil_iff.mp h)]
      exact settlement_view isPrivateModel hbilled ending

/-- A stream is charged for as the holds of requests see it. -/
theorem charges_streamFromCandidates (candidates : List Candidate) (lastExc : Option StreamError)
    (patience : Option ℕ) :
    (streamFromCandidates py request (some user) candidates lastExc patience).charges =
      (request.streamFromCandidates (views py request candidates patience)).toList := by
  induction candidates generalizing lastExc patience with
  | nil => rfl
  | cons c rest ih =>
    rw [views]
    by_cases hgives : c.givesWay py ∧ c.outlasted py patience
    · obtain ⟨text, htext, hrun⟩ := streamFromCandidates_givesWay request
        (some user) rest lastExc hgives.1 hgives.2
      have hcount : ¬0 < (c.taken py patience).countP fun line ↦ (chunkOf py line).content := by
        rw [List.countP_pos_iff, Candidate.taken, taken_eq_of_waits hgives.2]
        rintro ⟨line, hmem, hline⟩
        obtain ⟨-, hcontent⟩ := Bool.and_eq_true_iff.mp hgives.1
        rw [Bool.not_eq_true', List.any_eq_false] at hcontent
        exact hcontent line hmem hline
      rw [hrun, Candidate.view]
      simp only [if_pos hgives.2, htext, ChatCompletionRequest.streamFromCandidates,
        chunkCount_view, if_neg hcount]
      exact ih _ _
    · obtain ⟨recorded, exit, hrun⟩ := streamFromCandidates_stops request
        (some user) rest lastExc hgives
      have hcharges : ∀ charge : Option TokenCharge,
          StreamRun.charges ⟨[⟨c.taken py patience, recorded, charge⟩], exit⟩ = charge.toList := by
        intro charge
        cases charge <;> rfl
      rw [hrun, hcharges, Candidate.view]
      congr 1
      dsimp only
      by_cases hwaits : c.outlasted py patience = true
      · match hfault : c.fault py with
        | none =>
          rw [if_neg fun h ↦ h.2 rfl, if_pos hwaits]
          refine settled_view .finished fun s hending _ ↦ ?_
          rw [ChatCompletionRequest.streamFromCandidates, hending]
          dsimp only
          by_cases hnone : s.lines = []
          · rw [if_pos hnone, finalizeStream_nil _ hnone]
          · rw [if_neg hnone]
        | some (.other text) =>
          rw [if_pos ⟨hwaits, nofun⟩, if_pos hwaits]
          rfl
        | some (.runtime text) =>
          have hcount : 0 < (c.taken py patience).countP fun line ↦ (chunkOf py line).content := by
            rw [List.countP_pos_iff, Candidate.taken, taken_eq_of_waits hwaits]
            by_contra hnone
            refine hgives ⟨Bool.and_eq_true_iff.mpr ⟨by rw [hfault], ?_⟩, hwaits⟩
            rw [Bool.not_eq_true', List.any_eq_false]
            exact fun line hmem hline ↦ hnone ⟨line, hmem, hline⟩
          rw [if_pos ⟨hwaits, nofun⟩, if_pos hwaits]
          simp only [ChatCompletionRequest.streamFromCandidates, chunkCount_view, if_pos hcount]
      · rw [if_neg fun h ↦ hwaits h.1, if_neg hwaits]
        refine settled_view .disconnected fun s hending _ ↦ ?_
        rw [ChatCompletionRequest.streamFromCandidates, hending]
        exact ite_not _ _ _

end Views

end GreenCompute
