import GreenCompute.Foundations.Steps
import GreenCompute.Foundations.Table
import GreenCompute.Foundations.Text
import GreenCompute.Gateway.ApiKeys

/-!
# A key creates at most once

A request that carries an `Idempotency-Key` claims the key, runs its create, and then stores the
response or gives the claim back. The claim says when it was made and not by whom. A claim of more
than two minutes ago is taken over, on the word that its request died; `creates_at_most_once` is about
the runs in which no claim that old is met.
-/

namespace GreenCompute

/-! ## The table -/

abbrev AttemptId := ℕ
abbrev RequestHash := Text
abbrev StoredResponse := Text

/-- What a row is about: the account, the endpoint and the key. The digest of the three is taken for
them. -/
structure IdemKey where
  scope : Text
  endpoint : Text
  key : Text
  deriving DecidableEq

inductive IdemState where
  | pending
  | done (response : StoredResponse)
  deriving DecidableEq

/-- The value of a row. Who wrote it is not in the table. -/
structure IdemRecord where
  state : IdemState
  requestHash : RequestHash
  madeAt : Time
  writer : AttemptId
  deriving DecidableEq

/-- What `idempotency_begin` answers. -/
inductive Begun where
  | new
  | replay (response : StoredResponse)
  | mismatch
  | inProgress
  deriving DecidableEq

/-- How far a request has come that was told to go ahead. -/
inductive AttemptPhase where
  | running
  | created (response : StoredResponse)
  | failed
  | over
  deriving DecidableEq

structure Attempt where
  key : IdemKey
  requestHash : RequestHash
  phase : AttemptPhase
  deriving DecidableEq

/-- What has happened, and when. -/
inductive IdemEvent where
  | began (r : AttemptId) (k : IdemKey) (requestHash : RequestHash) (answer : Begun) (time : Time)
  | created (r : AttemptId) (k : IdemKey) (time : Time)
  | completed (r : AttemptId) (k : IdemKey) (requestHash : RequestHash) (response : StoredResponse)
      (time : Time)
  | released (r : AttemptId) (k : IdemKey) (deleted : Option IdemRecord) (time : Time)
  deriving DecidableEq

/-- The table, the requests, and what has happened so far. -/
structure IdemDb where
  now : Time
  rows : Table IdemKey IdemRecord
  attempts : Table AttemptId Attempt
  log : List IdemEvent

namespace IdemDb

/-- `IDEMPOTENCY_TTL` -/
def idempotencyTtl : Time := 24 * 3600

/-- `IDEMPOTENCY_STALE` -/
def idempotencyStale : Time := 2 * 60

variable (s : IdemDb) (r : AttemptId)

/-- A claim that is made now. -/
def pending (requestHash : RequestHash) : IdemRecord := ⟨.pending, requestHash, s.now, r⟩

/-- What `idempotency_begin` finds. -/
def begins (k : IdemKey) (requestHash : RequestHash) : Begun :=
  match s.rows.get? k with
  | none => .new
  | some record =>
    let age := s.now - record.madeAt
    if idempotencyTtl < age ∨ record.state = .pending ∧ idempotencyStale < age then .new
    else if record.requestHash ≠ requestHash then .mismatch
    else
      match record.state with
      | .done response => .replay response
      | .pending => .inProgress

/-- `idempotency_begin` -/
def idempotencyBegin (k : IdemKey) (requestHash : RequestHash) : IdemDb :=
  match s.begins k requestHash with
  | .new => { s with rows := s.rows.insert k (s.pending r requestHash) }
  | _ => s

/-- `idempotency_complete` -/
def idempotencyComplete (k : IdemKey) (requestHash : RequestHash) (response : StoredResponse) :
    IdemDb :=
  { s with rows := s.rows.insert k ⟨.done response, requestHash, s.now, r⟩ }

/-- `idempotency_release` -/
def idempotencyRelease (k : IdemKey) : IdemDb :=
  { s with rows := s.rows.filter fun k' _ ↦ k' ≠ k }

/-- What is logged. -/
def note (e : IdemEvent) : IdemDb := { s with log := s.log ++ [e] }

/-- A request comes to a phase. -/
def setPhase (phase : AttemptPhase) : IdemDb :=
  { s with attempts := s.attempts.modify r fun a ↦ { a with phase := phase } }

end IdemDb

/-! ## Requests -/

/-- A key as it is used: stripped, and 1 to 255 characters long. -/
def usedKey (idempotencyKey : Text) : Option Text :=
  let key := Text.strip idempotencyKey
  if key = [] ∨ 255 < key.length then none else some key

/-- The steps of `_with_idempotency`, each a transaction or the end of the create, and time. -/
inductive IdemOp where
  | advance (elapsed : Time)
  | begin (r : AttemptId) (scope endpoint idempotencyKey : Text) (requestHash : RequestHash)
  | create (r : AttemptId) (response : StoredResponse)
  | fail (r : AttemptId)
  | complete (r : AttemptId)
  | release (r : AttemptId)
  deriving DecidableEq

namespace IdemOp

open IdemDb

/-- What an operation makes of the table and of the requests. -/
def exec : IdemOp → IdemDb → IdemDb
  | advance elapsed, s => { s with now := s.now + elapsed }
  | begin r scope endpoint idempotencyKey requestHash, s =>
    match usedKey idempotencyKey with
    | none => s
    | some key =>
      let k : IdemKey := ⟨scope, endpoint, key⟩
      let answer := s.begins k requestHash
      let phase := if answer = .new then AttemptPhase.running else .over
      note
        { s.idempotencyBegin r k requestHash with
          attempts := s.attempts.insert r ⟨k, requestHash, phase⟩ }
        (.began r k requestHash answer s.now)
  | create r response, s =>
    match s.attempts.get? r with
    | some ⟨k, _, .running⟩ => (s.setPhase r (.created response)).note (.created r k s.now)
    | _ => s
  | fail r, s =>
    match s.attempts.get? r with
    | some ⟨_, _, .running⟩ => s.setPhase r .failed
    | _ => s
  | complete r, s =>
    match s.attempts.get? r with
    | some ⟨k, requestHash, .created response⟩ =>
      ((s.idempotencyComplete r k requestHash response).setPhase r .over).note
        (.completed r k requestHash response s.now)
    | _ => s
  | release r, s =>
    match s.attempts.get? r with
    | some ⟨k, _, .failed⟩ =>
      ((s.idempotencyRelease k).setPhase r .over).note (.released r k (s.rows.get? k) s.now)
    | _ => s

/-- What can happen: time does not run backwards, and each request begins once. -/
def Possible : IdemOp → IdemDb → Prop
  | advance elapsed, _ => 0 ≤ elapsed
  | begin r _ _ _ _, s => s.attempts.get? r = none
  | _, _ => True

/-- A request that begins meets no claim that is more than two minutes old. -/
def MeetsFresh : IdemOp → IdemDb → Prop
  | begin _ scope endpoint idempotencyKey _, s =>
    ∀ key ∈ usedKey idempotencyKey, ∀ record ∈ s.rows.get? ⟨scope, endpoint, key⟩,
      record.state = .pending → s.now - record.madeAt ≤ idempotencyStale
  | _, _ => True

instance (o : IdemOp) (s : IdemDb) : Decidable (o.Possible s) := by
  cases o <;> unfold Possible <;> infer_instance

instance (o : IdemOp) (s : IdemDb) : Decidable (o.MeetsFresh s) := by
  cases o <;> unfold MeetsFresh <;> infer_instance

end IdemOp

namespace IdemDb

/-! ## What a key promises -/

/-- What an event keeps of the promise, after what happened before it: a second create comes more
than a day after the first one's response was stored; a request that begins within a day of that is
given the response; what a failed request deletes is its own claim. -/
def Honours (past : List IdemEvent) : IdemEvent → Prop
  | .created _ k t => ∀ r' t', .created r' k t' ∈ past →
      ∃ requestHash response t'', .completed r' k requestHash response t'' ∈ past ∧
        t'' + idempotencyTtl < t
  | .began _ k requestHash answer t => ∀ r' response t',
      .completed r' k requestHash response t' ∈ past → t ≤ t' + idempotencyTtl →
        answer = .replay response
  | .released r _ deleted _ =>
      ∃ record, deleted = some record ∧ record.state = .pending ∧ record.writer = r
  | .completed _ _ _ _ _ => True

/-- Every event keeps the promise. -/
def Honoured (log : List IdemEvent) : Prop :=
  ∀ past e later, log = past ++ e :: later → Honours past e

theorem Honoured.concat {log : List IdemEvent} {e : IdemEvent} (h : Honoured log)
    (he : Honours log e) : Honoured (log ++ [e]) := by
  intro past e' later heq
  rcases List.eq_nil_or_concat later with rfl | ⟨later, last, rfl⟩
  · obtain ⟨rfl, hlast⟩ := List.append_inj' heq rfl
    obtain rfl := List.singleton_inj.mp hlast
    exact he
  · rw [List.concat_eq_append, ← List.cons_append, ← List.append_assoc] at heq
    obtain ⟨rfl, -⟩ := List.append_inj' heq rfl
    exact h past e' later rfl

/-- Every request that goes on holds its claim, and every response that was stored is there for a
day. -/
structure Sound (s : IdemDb) : Prop where
  held : ∀ r a, s.attempts.get? r = some a → a.phase ≠ .over →
    ∃ record, s.rows.get? a.key = some record ∧ record.state = .pending ∧ record.writer = r
  created : ∀ r k t, .created r k t ∈ s.log →
    (∃ a response, s.attempts.get? r = some a ∧ a.key = k ∧ a.phase = .created response) ∨
      ∃ requestHash response t', .completed r k requestHash response t' ∈ s.log
  stored : ∀ r k requestHash response t, .completed r k requestHash response t ∈ s.log →
    (∃ record, s.rows.get? k = some record ∧ record.state = .done response ∧
      record.requestHash = requestHash ∧ record.madeAt = t) ∨ t + idempotencyTtl < s.now
  honoured : Honoured s.log

variable {s s₀ : IdemDb} {r : AttemptId} {a : Attempt} {k : IdemKey}

namespace Sound

/-- No two requests hold one claim. -/
theorem eq_of_held (h : s.Sound) {r' : AttemptId} {a' : Attempt} (hr : s.attempts.get? r = some a)
    (hr' : s.attempts.get? r' = some a') (hkey : a'.key = a.key) (ha : a.phase ≠ .over)
    (ha' : a'.phase ≠ .over) : r' = r := by
  obtain ⟨record, hrow, -, hwriter⟩ := h.held r a hr ha
  obtain ⟨record', hrow', -, hwriter'⟩ := h.held r' a' hr' ha'
  rw [hkey, hrow] at hrow'
  obtain rfl := Option.some.inj hrow'
  exact hwriter'.symm.trans hwriter

/-- While a claim is held, every response that was stored before it has expired. -/
theorem expired_of_held (h : s.Sound) (hr : s.attempts.get? r = some a) (ha : a.phase ≠ .over)
    {r' : AttemptId} {requestHash : RequestHash} {response : StoredResponse} {t : Time}
    (hstored : .completed r' a.key requestHash response t ∈ s.log) : t + idempotencyTtl < s.now := by
  rcases h.stored r' a.key requestHash response t hstored with ⟨record, hrow, hdone, -⟩ | hexpired
  · obtain ⟨record', hrow', hpending, -⟩ := h.held r a hr ha
    obtain rfl := Option.some.inj (hrow.symm.trans hrow')
    rw [hpending] at hdone
    cases hdone
  · exact hexpired

theorem advance (h : s.Sound) {elapsed : Time} (hle : 0 ≤ elapsed) :
    Sound { s with now := s.now + elapsed } where
  held := h.held
  created := h.created
  stored r k requestHash response t hstored := by
    rcases h.stored r k requestHash response t hstored with hrow | hexpired
    · exact .inl hrow
    · exact .inr (hexpired.trans_le (le_add_of_nonneg_right hle))
  honoured := h.honoured

/-- A request that goes on comes to a phase in which it still goes on. -/
theorem setPhase (h : s.Sound) (hr : s.attempts.get? r = some a) (hrunning : a.phase = .running)
    (phase : AttemptPhase) : (s.setPhase r phase).Sound where
  held r' a' hr' ha' := by
    change (s.attempts.modify r _).get? r' = some a' at hr'
    rw [Table.get?_modify] at hr'
    split at hr'
    · next hsame =>
      subst hsame
      rw [hr] at hr'
      obtain rfl := Option.some.inj hr'
      exact h.held r' a hr (by rw [hrunning]; decide)
    · exact h.held r' a' hr' ha'
  created r' k t hcreated := by
    rcases h.created r' k t hcreated with ⟨a', response, hr', hkey, hphase⟩ | hstored
    · refine .inl ⟨a', response, ?_, hkey, hphase⟩
      change (s.attempts.modify r _).get? r' = some a'
      rw [Table.get?_modify, if_neg ?_]
      · exact hr'
      · rintro rfl
        obtain rfl := Option.some.inj (hr.symm.trans hr')
        rw [hphase] at hrunning
        cases hrunning
    · exact .inr hstored
  stored := h.stored
  honoured := h.honoured

/-- A create succeeds. -/
theorem create (h : s.Sound) (hr : s.attempts.get? r = some a) (hrunning : a.phase = .running)
    (response : StoredResponse) :
    ((s.setPhase r (.created response)).note (.created r a.key s.now)).Sound := by
  have hgoes : a.phase ≠ .over := by rw [hrunning]; decide
  have hset := h.setPhase hr hrunning (.created response)
  have hattempt : (s.setPhase r (.created response)).attempts.get? r =
      some { a with phase := .created response } := by
    change (s.attempts.modify r _).get? r = _
    rw [Table.get?_modify_self, hr]
    rfl
  refine ⟨hset.held, fun r' k t hcreated ↦ ?_, fun r' k requestHash response' t hstored ↦ ?_,
    hset.honoured.concat fun r' t' hcreated ↦ ?_⟩
  · rcases List.mem_append.mp hcreated with hold | hnew
    · rcases hset.created r' k t hold with hattempt | ⟨requestHash, response', t', hstored⟩
      · exact .inl hattempt
      · exact .inr ⟨requestHash, response', t', List.mem_append_left _ hstored⟩
    · obtain ⟨rfl, rfl, rfl⟩ := IdemEvent.created.inj (List.mem_singleton.mp hnew)
      exact .inl ⟨_, response, hattempt, rfl, rfl⟩
  · rcases List.mem_append.mp hstored with hold | hnew
    · exact hset.stored r' k requestHash response' t hold
    · exact nomatch List.mem_singleton.mp hnew
  · -- An earlier create of the key has had its response stored, since it holds the claim no more.
    rcases h.created r' a.key t' hcreated with ⟨a', response', hr', hkey, hphase⟩ | hstored
    · have hsame := h.eq_of_held hr hr' hkey hgoes (by rw [hphase]; exact nofun)
      subst hsame
      obtain rfl := Option.some.inj (hr.symm.trans hr')
      rw [hphase] at hrunning
      cases hrunning
    · obtain ⟨requestHash, response', t'', hstored⟩ := hstored
      exact ⟨requestHash, response', t'', hstored, h.expired_of_held hr hgoes hstored⟩

/-- A request is over, and what it leaves in its row is its own affair. -/
theorem leave (h : s.Sound) (hr : s.attempts.get? r = some a) (hgoes : a.phase ≠ .over)
    {rows : Table IdemKey IdemRecord} (hrows : ∀ k ≠ a.key, rows.get? k = s.rows.get? k)
    {e : IdemEvent} (hhonours : Honours s.log e)
    (hcreated : ∀ response, a.phase = .created response →
      ∃ requestHash response t, e = .completed r a.key requestHash response t)
    (hstored : ∀ r' k requestHash response t, e = .completed r' k requestHash response t →
      ∃ record, rows.get? k = some record ∧ record.state = .done response ∧
        record.requestHash = requestHash ∧ record.madeAt = t)
    (hnew : ∀ r' k t, e ≠ .created r' k t) :
    Sound (({ s with rows := rows }.setPhase r .over).note e) where
  held r' a' hr' ha' := by
    change (s.attempts.modify r _).get? r' = some a' at hr'
    rw [Table.get?_modify] at hr'
    split at hr'
    · obtain ⟨a'', -, rfl⟩ := Option.map_eq_some_iff.mp hr'
      exact absurd rfl ha'
    · next hne =>
      have hkey : a'.key ≠ a.key := fun hkey ↦ hne (h.eq_of_held hr hr' hkey hgoes ha')
      obtain ⟨record, hrow, hrest⟩ := h.held r' a' hr' ha'
      exact ⟨record, (hrows _ hkey).trans hrow, hrest⟩
  created r' k t hmem := by
    rcases List.mem_append.mp hmem with hold | hlast
    · rcases h.created r' k t hold with ⟨a', response, hr', hkey, hphase⟩ | hdone
      · by_cases hsame : r' = r
        · subst hsame
          obtain rfl := Option.some.inj (hr.symm.trans hr')
          obtain ⟨requestHash, response', t', rfl⟩ := hcreated response hphase
          subst hkey
          exact .inr ⟨requestHash, response', t', List.mem_append_right _ List.mem_cons_self⟩
        · refine .inl ⟨a', response, ?_, hkey, hphase⟩
          change (s.attempts.modify r _).get? r' = some a'
          rw [Table.get?_modify_ne _ hsame]
          exact hr'
      · obtain ⟨requestHash, response, t', hdone⟩ := hdone
        exact .inr ⟨requestHash, response, t', List.mem_append_left _ hdone⟩
    · exact absurd (List.mem_singleton.mp hlast).symm (hnew r' k t)
  stored r' k requestHash response t hmem := by
    rcases List.mem_append.mp hmem with hold | hlast
    · by_cases hkey : k = a.key
      · subst hkey
        exact .inr (h.expired_of_held hr hgoes hold)
      · rcases h.stored r' k requestHash response t hold with ⟨record, hrow, hrest⟩ | hexpired
        · exact .inl ⟨record, (hrows k hkey).trans hrow, hrest⟩
        · exact .inr hexpired
    · exact .inl (hstored r' k requestHash response t (List.mem_singleton.mp hlast).symm)
  honoured := h.honoured.concat hhonours

theorem complete (h : s.Sound) {response : StoredResponse} (hr : s.attempts.get? r = some a)
    (hphase : a.phase = .created response) :
    (((s.idempotencyComplete r a.key a.requestHash response).setPhase r .over).note
      (.completed r a.key a.requestHash response s.now)).Sound := by
  refine h.leave hr (by rw [hphase]; exact nofun) (fun k hk ↦ Table.get?_insert_ne _ hk _) trivial
    (fun response' _ ↦ ⟨a.requestHash, response, s.now, rfl⟩) ?_ nofun
  rintro r' k requestHash response' t ⟨⟩
  exact ⟨_, Table.get?_insert_self _ _ _, rfl, rfl, rfl⟩

theorem release (h : s.Sound) (hr : s.attempts.get? r = some a) (hphase : a.phase = .failed) :
    (((s.idempotencyRelease a.key).setPhase r .over).note
      (.released r a.key (s.rows.get? a.key) s.now)).Sound := by
  have hgoes : a.phase ≠ .over := by rw [hphase]; decide
  obtain ⟨record, hrow, hpending, hwriter⟩ := h.held r a hr hgoes
  refine h.leave hr hgoes (fun k hk ↦ ?_) ⟨record, hrow, hpending, hwriter⟩
    (fun response hcreated ↦ nomatch hphase.symm.trans hcreated) nofun nofun
  rw [Table.get?_filter]
  cases s.rows.get? k with
  | none => rfl
  | some record => simp [hk]

/-- A request that begins is given the response that is there. -/
theorem honours_begin (h : s.Sound) (r : AttemptId) (k : IdemKey) (requestHash : RequestHash) :
    Honours s.log (.began r k requestHash (s.begins k requestHash) s.now) := by
  intro r' response t hstored hle
  rcases h.stored r' k requestHash response t hstored with ⟨record, hrow, hdone, hhash, rfl⟩ | hlt
  · have hyoung : ¬idempotencyTtl < s.now - record.madeAt := by
      rw [not_lt]
      linarith
    unfold begins
    rw [hrow]
    simp only [hdone, hhash]
    rw [if_neg fun hold ↦ hold.elim hyoung fun hpending ↦ nomatch hpending.1]
    exact if_neg fun hne ↦ hne rfl
  · exact absurd hle hlt.not_ge

/-- A request is only told to go ahead where nobody holds the claim. -/
theorem unclaimed (h : s.Sound) {requestHash : RequestHash}
    (hfresh : ∀ record ∈ s.rows.get? k, record.state = .pending →
      s.now - record.madeAt ≤ idempotencyStale) (hnew : s.begins k requestHash = .new) :
    (∀ record ∈ s.rows.get? k, record.state ≠ .pending) ∧
      ∀ r' requestHash response t, .completed r' k requestHash response t ∈ s.log →
        t + idempotencyTtl < s.now := by
  unfold begins at hnew
  cases hrow : s.rows.get? k with
  | none =>
    refine ⟨nofun, fun r' requestHash response t hstored ↦ ?_⟩
    rcases h.stored r' k requestHash response t hstored with ⟨record, hget, -⟩ | hexpired
    · rw [hrow] at hget
      cases hget
    · exact hexpired
  | some record =>
    rw [hrow] at hnew
    dsimp only at hnew
    have hage := hfresh record hrow
    have hexpired : idempotencyTtl < s.now - record.madeAt := by
      split at hnew
      · next hold =>
        refine hold.elim id fun hpending ↦ ?_
        exact absurd (hage hpending.1) hpending.2.not_ge
      · split at hnew
        · cases hnew
        · split at hnew <;> cases hnew
    refine ⟨?_, fun r' requestHash response t hstored ↦ ?_⟩
    · rintro _ ⟨⟩ hpending
      have hstale : idempotencyStale < idempotencyTtl := by
        norm_num [idempotencyStale, idempotencyTtl]
      exact absurd (hage hpending) (hstale.trans hexpired).not_ge
    · rcases h.stored r' k requestHash response t hstored with ⟨record', hget, -, -, rfl⟩ | hlt
      · obtain rfl := Option.some.inj (hrow.symm.trans hget)
        linarith
      · exact hlt

theorem begin (h : s.Sound) {requestHash : RequestHash} (hr : s.attempts.get? r = none)
    (hfresh : ∀ record ∈ s.rows.get? k, record.state = .pending →
      s.now - record.madeAt ≤ idempotencyStale) :
    Sound (note { s.idempotencyBegin r k requestHash with
        attempts := s.attempts.insert r ⟨k, requestHash,
          if s.begins k requestHash = .new then .running else .over⟩ }
      (.began r k requestHash (s.begins k requestHash) s.now)) := by
  have hhonours := h.honours_begin r k requestHash
  have hother {r' : AttemptId} (hne : r' ≠ r) (a : Attempt) :
      (s.attempts.insert r a).get? r' = s.attempts.get? r' := Table.get?_insert_ne _ hne _
  have hcreated (r' : AttemptId) (k' : IdemKey) (t : Time) (a' : Attempt)
      (hmem : .created r' k' t ∈ s.log ++ [.began r k requestHash (s.begins k requestHash) s.now]) :
      (∃ a response, (s.attempts.insert r a').get? r' = some a ∧ a.key = k' ∧
        a.phase = .created response) ∨ ∃ requestHash' response t', .completed r' k' requestHash'
          response t' ∈ s.log ++ [.began r k requestHash (s.begins k requestHash) s.now] := by
    rcases List.mem_append.mp hmem with hold | hlast
    · rcases h.created r' k' t hold with ⟨a, response, hget, hrest⟩ | hdone
      · refine .inl ⟨a, response, (hother ?_ _).trans hget, hrest⟩
        rintro rfl
        exact nomatch hr.symm.trans hget
      · obtain ⟨requestHash', response, t', hdone⟩ := hdone
        exact .inr ⟨requestHash', response, t', List.mem_append_left _ hdone⟩
    · exact nomatch List.mem_singleton.mp hlast
  by_cases hnew : s.begins k requestHash = .new
  · have hclaim : s.idempotencyBegin r k requestHash =
        { s with rows := s.rows.insert k (s.pending r requestHash) } := by
      unfold idempotencyBegin
      rw [hnew]
    obtain ⟨hunclaimed, hexpired⟩ := h.unclaimed hfresh hnew
    rw [hclaim, if_pos hnew]
    refine ⟨fun r' a' hr' ha' ↦ ?_, fun r' k' t ↦ hcreated r' k' t _,
      fun r' k' requestHash' response t hmem ↦ ?_, h.honoured.concat hhonours⟩
    · by_cases hsame : r' = r
      · subst hsame
        obtain rfl := Option.some.inj ((Table.get?_insert_self _ _ _).symm.trans hr')
        exact ⟨_, Table.get?_insert_self _ _ _, rfl, rfl⟩
      · obtain ⟨record, hrow, hpending, hwriter⟩ :=
          h.held r' a' ((hother hsame _).symm.trans hr') ha'
        have hkey : a'.key ≠ k := by
          rintro rfl
          exact hunclaimed record hrow hpending
        exact ⟨record, (Table.get?_insert_ne _ hkey _).trans hrow, hpending, hwriter⟩
    · rcases List.mem_append.mp hmem with hold | hlast
      · by_cases hkey : k' = k
        · subst hkey
          exact .inr (hexpired r' requestHash' response t hold)
        · rcases h.stored r' k' requestHash' response t hold with ⟨record, hrow, hrest⟩ | hlt
          · exact .inl ⟨record, (Table.get?_insert_ne _ hkey _).trans hrow, hrest⟩
          · exact .inr hlt
      · exact nomatch List.mem_singleton.mp hlast
  · have hkept : s.idempotencyBegin r k requestHash = s := by
      unfold idempotencyBegin
      split
      · next hbegins => exact absurd hbegins hnew
      · rfl
    rw [hkept, if_neg hnew]
    refine ⟨fun r' a' hr' ha' ↦ ?_, fun r' k' t ↦ hcreated r' k' t _,
      fun r' k' requestHash' response t hmem ↦ ?_, h.honoured.concat hhonours⟩
    · by_cases hsame : r' = r
      · subst hsame
        obtain rfl := Option.some.inj ((Table.get?_insert_self _ _ _).symm.trans hr')
        exact absurd rfl ha'
      · exact h.held r' a' ((hother hsame _).symm.trans hr') ha'
    · rcases List.mem_append.mp hmem with hold | hlast
      · exact h.stored r' k' requestHash' response t hold
      · exact nomatch List.mem_singleton.mp hlast

/-- Every step of a request keeps what is promised, where those that begin meet no claim that is too
old. -/
theorem exec {o : IdemOp} (h : s.Sound) (possible : o.Possible s) (fresh : o.MeetsFresh s) :
    (o.exec s).Sound := by
  cases o with
  | advance elapsed => exact h.advance possible
  | begin r scope endpoint idempotencyKey requestHash =>
    unfold IdemOp.exec
    dsimp only
    cases hkey : usedKey idempotencyKey with
    | none => exact h
    | some key => exact h.begin possible fun record hrecord ↦ fresh key hkey record hrecord
  | create r response =>
    unfold IdemOp.exec
    dsimp only
    split
    · next k requestHash hr => exact h.create hr rfl response
    · exact h
  | fail r =>
    unfold IdemOp.exec
    dsimp only
    split
    · next k requestHash hr => exact h.setPhase hr rfl .failed
    · exact h
  | complete r =>
    unfold IdemOp.exec
    dsimp only
    split
    · next k requestHash response hr => exact h.complete hr rfl
    · exact h
  | release r =>
    unfold IdemOp.exec
    dsimp only
    split
    · next k requestHash hr => exact h.release hr rfl
    · exact h

end Sound

end IdemDb

namespace IdemOp

open IdemDb

variable {s s₀ : IdemDb}

/-- **A key creates at most once.** In every run from no requests in which none that begins meets a
claim of more than two minutes ago, a create of a key only succeeds more than a day after the
response of the one before it was stored; a request that begins within a day of that, with the same
body, is given that response; and a request that fails deletes its own claim. -/
theorem creates_at_most_once (attempts : s₀.attempts = .empty) (log : s₀.log = [])
    (run : Steps exec (fun o s ↦ o.Possible s ∧ o.MeetsFresh s) s₀ s)
    {past later : List IdemEvent} {e : IdemEvent} (happened : s.log = past ++ e :: later) :
    Honours past e := by
  have hstart : s₀.Sound := by
    refine ⟨fun r a hr ↦ ?_, fun r k t hmem ↦ ?_, fun r k requestHash response t hmem ↦ ?_,
      fun past e later heq ↦ ?_⟩
    · rw [attempts] at hr
      cases hr
    · rw [log] at hmem
      cases hmem
    · rw [log] at hmem
      cases hmem
    · rw [log] at heq
      exact absurd heq.symm (List.append_ne_nil_of_right_ne_nil _ (List.cons_ne_nil _ _))
  have hs : s.Sound := run.invariant (fun o s h ho ↦ h.exec ho.1 ho.2) hstart
  exact hs.honoured past e later happened

private def noKeys : IdemDb := ⟨0, .empty, .empty, []⟩

/-- Another request for ada's rental. -/
private def asks (r : AttemptId) : IdemOp :=
  .begin r "ada".toList "rent".toList "once".toList "body".toList

private def adasKey : IdemKey := ⟨"ada".toList, "rent".toList, "once".toList⟩

/-- One request fails; the next one creates, and the one after it is given its response. -/
private def retried : List IdemOp :=
  [asks 1, .fail 1, .release 1, asks 2, .advance 100, asks 3, .create 2 "pod".toList, .complete 2,
    .advance 60, asks 4]

/-- The fourth request is given the response. -/
theorem creates_at_most_once_retried :
    let s := Steps.replay exec noKeys retried
    s.log = s.log.take 6 ++ [.began 4 adasKey "body".toList (.replay "pod".toList) 160] ∧
      Honours (s.log.take 6) (.began 4 adasKey "body".toList (.replay "pod".toList) 160) :=
  have run : Steps exec (fun o s ↦ o.Possible s ∧ o.MeetsFresh s) noKeys
      (Steps.replay exec noKeys retried) :=
    Steps.of_admits exec _ noKeys retried (by decide +kernel)
  have happened : (Steps.replay exec noKeys retried).log =
      (Steps.replay exec noKeys retried).log.take 6 ++
        [.began 4 adasKey "body".toList (.replay "pod".toList) 160] := by decide +kernel
  ⟨happened, creates_at_most_once rfl rfl run happened⟩

/-- The first request takes its time, and the second takes the claim over. -/
private def takenOver : List IdemOp :=
  [asks 1, .advance 121, asks 2, .create 1 "pod".toList, .create 2 "pod'".toList]

/-- Two creates succeed within two minutes and a second. -/
theorem claim_taken_over :
    ¬∀ (s₀ s : IdemDb) (past later : List IdemEvent) (e : IdemEvent), s₀.attempts = .empty →
      s₀.log = [] → Steps exec Possible s₀ s → s.log = past ++ e :: later → Honours past e := by
  intro h
  have run : Steps exec Possible noKeys (Steps.replay exec noKeys takenOver) :=
    Steps.of_admits exec Possible noKeys takenOver (by decide +kernel)
  have happened : (Steps.replay exec noKeys takenOver).log =
      (Steps.replay exec noKeys takenOver).log.take 3 ++ .created 2 adasKey 121 :: [] := by
    decide +kernel
  obtain ⟨requestHash, response, t, hmem, -⟩ :=
    h _ _ _ _ _ rfl rfl run happened 1 121 (by decide +kernel)
  have hbefore : (Steps.replay exec noKeys takenOver).log.take 3 =
      [.began 1 adasKey "body".toList .new 0, .began 2 adasKey "body".toList .new 121,
        .created 1 adasKey 121] := by decide +kernel
  rw [hbefore] at hmem
  simp at hmem

end IdemOp

end GreenCompute
