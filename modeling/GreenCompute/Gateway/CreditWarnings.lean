import GreenCompute.Foundations.Rounding
import GreenCompute.Gateway.Credit
import Mathlib.Data.List.Count

/-!
# Warnings that an account is running out

A sweep warns an account whose credit lasts for less than a day, and again when it lasts for less
than two hours. The tightest level that the account was told of is kept until the account is seen
with more than a day's credit, or with nothing that is billed. The sweep that resumes rentals after a
top-up says in its email what is left, and puts the level of that in the place of the one that was
kept, tighter or not. So an account that was told of two hours, and resumes with ten, is told of two
hours again.

`warned_once_per_level` is about the runs in which no resume loosens the level that is kept.
-/

namespace GreenCompute

/-! ## What is left -/

/-- `WARN_LEVELS_HOURS` -/
def warnLevelsHours : List ℕ := [24, 2]

/-- What an account pays by the hour for what is ready of its own, as `running_by_user` lists it. -/
def runningByUser (rentals : List CreditRental) (userId : UserId) : List ℕ :=
  rentals.filterMap fun r ↦
    if r.state = .ready ∧ r.ownerUserId = some userId then r.hourlyChargeCents else none

/-- `round(…, 1)` -/
def roundTenth (x : ℚ) : ℚ := roundHalfEven (x * 10) / 10

/-- The `hours_left` of `forecast`. -/
def forecastHours (balanceCents : ℤ) (running : List ℕ) : Option ℚ :=
  let burn := running.sum
  if 0 < burn then some (roundTenth (max 0 (balanceCents / burn))) else none

/-- `_level_for`: the tightest level that the hours are under. -/
def levelFor (hours : Option ℚ) : Option ℕ :=
  hours.bind fun hours ↦
    (warnLevelsHours.insertionSort (· ≤ ·)).find? fun level ↦ hours < (level : ℚ)

/-! ## The two sweeps -/

/-- A `balance.low` event with its `under_hours`. Noted along with these is when an account was seen
with more than a day's credit, or with nothing that is billed. -/
inductive WarningNote where
  | low (underHours : ℕ)
  | rearmed
  deriving DecidableEq

/-- The `level_hours` of each account in `credit_warnings`, and what was noted about it. -/
structure CreditWarnings where
  levelHours : UserId → Option ℕ
  notes : UserId → List WarningNote

/-- A rental that `auto_resume_once` may bring back: its owner, what it will cost once up, what the
balance is when it is read, and whether the rental is resumed if it is tried. -/
structure ResumeCandidate where
  owner : UserId
  costCents : ℕ
  balanceCents : ℤ
  resumes : Bool

/-- The candidates in turn: what the owners are committed to then, and to whom something came
back. -/
def resumeEach : List ResumeCandidate → (UserId → ℕ) → List UserId → (UserId → ℕ) × List UserId
  | [], committed, cameBack => (committed, cameBack)
  | c :: candidates, committed, cameBack =>
    if c.balanceCents < committed c.owner + c.costCents ∨ c.resumes = false then
      resumeEach candidates committed cameBack
    else
      let cents := committed c.owner + c.costCents
      resumeEach candidates (Function.update committed c.owner cents)
        (if c.owner ∈ cameBack then cameBack else cameBack ++ [c.owner])

namespace CreditWarnings

variable (w : CreditWarnings)

/-- What an account's row says, and what is noted. -/
def note (userId : UserId) (levelHours : Option ℕ) (notes : List WarningNote) : CreditWarnings where
  levelHours := Function.update w.levelHours userId levelHours
  notes := Function.update w.notes userId (w.notes userId ++ notes)

/-- What `low_credit_once` makes of an account's level, and what it notes. -/
def warn (told : Option ℕ) (hours : Option ℚ) : Option ℕ × List WarningNote :=
  match levelFor hours with
  | none => (none, [.rearmed])
  | some level => if told.any (· ≤ level) then (told, []) else (some level, [.low level])

/-- `low_credit_once`: every account is looked at. -/
def lowCreditOnce (rentals : List CreditRental) (balance : UserId → ℤ) : CreditWarnings :=
  let warned userId :=
    warn (w.levelHours userId) (forecastHours (balance userId) (runningByUser rentals userId))
  { levelHours := fun userId ↦ (warned userId).1
    notes := fun userId ↦ w.notes userId ++ (warned userId).2 }

/-- The hours that an account is left with after a resume. -/
def leftHours (balanceCents : ℤ) (centsPerHour : ℕ) : Option ℚ :=
  if 0 < centsPerHour then some (balanceCents / centsPerHour) else none

/-- What `_mark_informed` notes where a resume leaves an account under a level, or above all. -/
def informed (told level : Option ℕ) : List WarningNote :=
  match level with
  | none => [.rearmed]
  | some level => if told.all (level < ·) then [.low level] else []

/-- `_mark_informed` -/
def markInformed (userId : UserId) (balanceCents : ℤ) (centsPerHour : ℕ) : CreditWarnings :=
  let level := levelFor (leftHours balanceCents centsPerHour)
  w.note userId level (informed (w.levelHours userId) level)

/-- `auto_resume_once`: what the owners are committed to, the candidates in turn, and what the
balances are in the end. -/
def autoResumeOnce (committed : UserId → ℕ) (candidates : List ResumeCandidate)
    (balance : UserId → ℤ) : CreditWarnings :=
  let (committed, cameBack) := resumeEach candidates committed []
  cameBack.foldl (fun w userId ↦ w.markInformed userId (balance userId) (committed userId)) w

end CreditWarnings

/-- A sweep, with what it reads. -/
inductive WarningOp where
  | lowCreditOnce (rentals : List CreditRental) (balance : UserId → ℤ)
  | autoResumeOnce (committed : UserId → ℕ) (candidates : List ResumeCandidate)
      (balance : UserId → ℤ)

namespace WarningOp

def exec : WarningOp → CreditWarnings → CreditWarnings
  | lowCreditOnce rentals balance, w => w.lowCreditOnce rentals balance
  | autoResumeOnce committed candidates balance, w => w.autoResumeOnce committed candidates balance

/-- No account to which something comes back is left under a looser level than the one that it was
told of. -/
def Tightens : WarningOp → CreditWarnings → Prop
  | lowCreditOnce .., _ => True
  | autoResumeOnce committed candidates balance, w =>
    ∀ userId ∈ (resumeEach candidates committed []).2, ∀ told ∈ w.levelHours userId,
      ∀ level ∈ levelFor (CreditWarnings.leftHours (balance userId)
        ((resumeEach candidates committed []).1 userId)), level ≤ told

instance (o : WarningOp) (w : CreditWarnings) : Decidable (o.Tightens w) :=
  match o with
  | lowCreditOnce .. => inferInstanceAs (Decidable True)
  | autoResumeOnce committed candidates balance =>
    inferInstanceAs (Decidable (∀ userId ∈ (resumeEach candidates committed []).2,
      ∀ told ∈ w.levelHours userId, ∀ level ∈ levelFor (CreditWarnings.leftHours (balance userId)
        ((resumeEach candidates committed []).1 userId)), level ≤ told))

end WarningOp

/-! ## Once per level -/

/-- Among the notes there is at most one event of each level, and none of a day after one of two
hours. -/
structure OncePerLevel (notes : List WarningNote) : Prop where
  day : notes.count (.low 24) ≤ 1
  hours : notes.count (.low 2) ≤ 1
  tighter : ¬List.Sublist [.low 2, .low 24] notes

/-- The levels of the events since the last re-arming. -/
def sinceRearmed (notes : List WarningNote) : List ℕ :=
  notes.foldl (fun since note ↦ match note with
    | .low level => since ++ [level]
    | .rearmed => []) []

@[simp] theorem sinceRearmed_nil : sinceRearmed [] = [] := rfl

@[simp] theorem sinceRearmed_low (notes : List WarningNote) (level : ℕ) :
    sinceRearmed (notes ++ [.low level]) = sinceRearmed notes ++ [level] := by
  rw [sinceRearmed, List.foldl_append]
  rfl

@[simp] theorem sinceRearmed_rearmed (notes : List WarningNote) :
    sinceRearmed (notes ++ [.rearmed]) = [] := by
  rw [sinceRearmed, List.foldl_append]
  rfl

/-- A stretch without a re-arming is of events only, which are among those since the last
re-arming. -/
theorem exists_levels_of_notMem {stretch : List WarningNote} (h : .rearmed ∉ stretch)
    (before : List WarningNote) :
    ∃ levels : List ℕ, stretch = levels.map .low ∧
      sinceRearmed (before ++ stretch) = sinceRearmed before ++ levels := by
  induction stretch using List.reverseRecOn with
  | nil => exact ⟨[], rfl, by rw [List.append_nil, List.append_nil]⟩
  | append_singleton stretch note ih =>
    rw [List.mem_append, not_or] at h
    obtain ⟨levels, hstretch, hsince⟩ := ih h.1
    cases note with
    | rearmed => exact absurd List.mem_cons_self h.2
    | low level =>
      refine ⟨levels ++ [level], ?_, ?_⟩
      · rw [hstretch, List.map_append]
        rfl
      · rw [← List.append_assoc, sinceRearmed_low, hsince, List.append_assoc]

/-- Every level was told of at most once since the last re-arming, and the looser ones first, at all
times. -/
def Tightening (notes : List WarningNote) : Prop :=
  ∀ before, before <+: notes → (sinceRearmed before).Pairwise (· > ·)

theorem Tightening.concat {notes : List WarningNote} (h : Tightening notes) {note : WarningNote}
    (hnote : (sinceRearmed (notes ++ [note])).Pairwise (· > ·)) : Tightening (notes ++ [note]) := by
  intro before hbefore
  rcases List.prefix_concat_iff.mp hbefore with rfl | hprefix
  · exact hnote
  · exact h before hprefix

/-- Tightening levels come once each in every stretch without a re-arming. -/
theorem Tightening.oncePerLevel {notes stretch : List WarningNote} (h : Tightening notes)
    (hstretch : stretch <:+: notes) (hrearmed : .rearmed ∉ stretch) : OncePerLevel stretch := by
  obtain ⟨before, after, hnotes⟩ := hstretch
  obtain ⟨levels, rfl, hsince⟩ := exists_levels_of_notMem hrearmed before
  have hlevels : levels.Pairwise (· > ·) := by
    have hall := h _ ⟨after, hnotes⟩
    rw [hsince] at hall
    exact (List.pairwise_append.mp hall).2.1
  have hinj : Function.Injective WarningNote.low := fun _ _ heq ↦ WarningNote.low.inj heq
  have honce (level : ℕ) : (levels.map WarningNote.low).count (.low level) ≤ 1 := by
    rw [List.count_map_of_injective _ _ hinj]
    exact List.nodup_iff_count_le_one.mp (hlevels.imp fun hlt ↦ ne_of_gt hlt) level
  refine ⟨honce 24, honce 2, fun hsub ↦ ?_⟩
  obtain ⟨pair, hpair, hmap⟩ := List.sublist_map_iff.mp hsub
  have hordered := hlevels.sublist hpair
  obtain rfl : [2, 24] = pair := List.map_injective_iff.mpr hinj hmap
  exact absurd hordered (by decide)

/-! ## What a sweep keeps -/

theorem levelFor_some (hours : ℚ) :
    levelFor (some hours) =
      if hours < 2 then some 2 else if hours < 24 then some 24 else none := by
  have hsorted : warnLevelsHours.insertionSort (· ≤ ·) = [2, 24] := by decide
  rw [levelFor, Option.bind_some, hsorted]
  by_cases htwo : hours < 2
  · rw [if_pos htwo]
    exact List.find?_cons_of_pos (by simpa using htwo)
  · rw [if_neg htwo, List.find?_cons_of_neg (by simpa using htwo)]
    by_cases hday : hours < 24
    · rw [if_pos hday]
      exact List.find?_cons_of_pos (by simpa using hday)
    · rw [if_neg hday, List.find?_cons_of_neg (by simpa using hday)]
      rfl

/-- Hours under a level are under a tightest one. -/
theorem exists_levelFor {hours : ℚ} {level : ℕ} (hlevel : level ∈ warnLevelsHours)
    (hunder : hours < level) : ∃ tightest ≤ level, levelFor (some hours) = some tightest := by
  rw [levelFor_some]
  by_cases htwo : hours < 2
  · rw [if_pos htwo]
    refine ⟨2, ?_, rfl⟩
    rcases List.mem_pair.mp hlevel with rfl | rfl
    · decide
    · exact le_rfl
  · rw [if_neg htwo]
    rcases List.mem_pair.mp hlevel with rfl | rfl
    · exact ⟨24, le_rfl, if_pos (by exact_mod_cast hunder)⟩
    · exact absurd (by exact_mod_cast hunder) htwo

/-- A level below the last of decreasing ones goes after them. -/
theorem pairwise_concat_of_lt_getLast {levels : List ℕ} (h : levels.Pairwise (· > ·)) {level : ℕ}
    (hlast : ∀ last ∈ levels.getLast?, level < last) : (levels ++ [level]).Pairwise (· > ·) := by
  rw [List.pairwise_append]
  refine ⟨h, List.pairwise_singleton _ _, fun earlier hearlier last hlevel ↦ ?_⟩
  obtain rfl := List.mem_singleton.mp hlevel
  induction levels using List.reverseRecOn with
  | nil => cases hearlier
  | append_singleton front final =>
    have hfinal : last < final := hlast final List.getLast?_concat
    rcases List.mem_append.mp hearlier with hfront | hsame
    · exact hfinal.trans ((List.pairwise_append.mp h).2.2 earlier hfront final List.mem_cons_self)
    · rw [List.mem_singleton.mp hsame]
      exact hfinal

/-- What is kept of an account is the last level that it was told of since the last re-arming. -/
structure Sound (told : Option ℕ) (notes : List WarningNote) : Prop where
  tightening : Tightening notes
  told : told = (sinceRearmed notes).getLast?

theorem sound_nil : Sound none [] :=
  ⟨fun _ hbefore ↦ List.prefix_nil.mp hbefore ▸ List.Pairwise.nil, rfl⟩

section

variable {told : Option ℕ} {notes : List WarningNote}

theorem Sound.rearm (h : Sound told notes) : Sound none (notes ++ [.rearmed]) := by
  refine ⟨h.tightening.concat ?_, ?_⟩
  · rw [sinceRearmed_rearmed]
    exact .nil
  · rw [sinceRearmed_rearmed]
    rfl

/-- An event of a tighter level than the last. -/
theorem Sound.tell (h : Sound told notes) {level : ℕ} (htighter : ∀ last ∈ told, level < last) :
    Sound (some level) (notes ++ [.low level]) := by
  refine ⟨h.tightening.concat ?_, ?_⟩
  · rw [sinceRearmed_low]
    exact pairwise_concat_of_lt_getLast (h.tightening notes (List.prefix_refl notes))
      (h.told ▸ htighter)
  · rw [sinceRearmed_low, List.getLast?_concat]

/-- A sweep over an account. -/
theorem Sound.warn (h : Sound told notes) (hours : Option ℚ) :
    Sound (CreditWarnings.warn told hours).1 (notes ++ (CreditWarnings.warn told hours).2) := by
  rw [CreditWarnings.warn]
  cases levelFor hours with
  | none => exact h.rearm
  | some level =>
    dsimp only
    by_cases htold : told.any (· ≤ level) = true
    · rw [if_pos htold, List.append_nil]
      exact h
    · rw [if_neg htold]
      refine h.tell fun last hlast ↦ ?_
      rw [hlast, Option.any_some, decide_eq_true_iff, not_le] at htold
      exact htold

/-- A resume that does not loosen the level. -/
theorem Sound.inform (h : Sound told notes) {level : Option ℕ}
    (htightens : ∀ last ∈ told, ∀ tightest ∈ level, tightest ≤ last) :
    Sound level (notes ++ CreditWarnings.informed told level) := by
  cases level with
  | none => exact h.rearm
  | some level =>
    rw [CreditWarnings.informed]
    by_cases htold : told.all (level < ·) = true
    · rw [if_pos htold]
      refine h.tell fun last hlast ↦ ?_
      rw [hlast, Option.all_some, decide_eq_true_iff] at htold
      exact htold
    · rw [if_neg htold, List.append_nil]
      -- The level is the one that was kept.
      cases told with
      | none => exact absurd rfl htold
      | some last =>
        rw [Option.all_some, decide_eq_true_iff, not_lt] at htold
        have hle := htightens last rfl level rfl
        rw [le_antisymm hle htold]
        exact h

end

theorem nodup_resumeEach (candidates : List ResumeCandidate) (committed : UserId → ℕ)
    {cameBack : List UserId} (h : cameBack.Nodup) :
    (resumeEach candidates committed cameBack).2.Nodup := by
  induction candidates generalizing committed cameBack with
  | nil => exact h
  | cons c candidates ih =>
    rw [resumeEach]
    by_cases hrefused : c.balanceCents < committed c.owner + c.costCents ∨ c.resumes = false
    · rw [if_pos hrefused]
      exact ih committed h
    · rw [if_neg hrefused]
      refine ih _ ?_
      by_cases hmem : c.owner ∈ cameBack
      · rw [if_pos hmem]
        exact h
      · rw [if_neg hmem]
        exact List.nodup_append.mpr ⟨h, List.nodup_singleton _, fun a ha b hb hab ↦
          hmem (List.mem_singleton.mp hb ▸ hab ▸ ha)⟩

namespace CreditWarnings

variable {w : CreditWarnings}

/-- Every account's row says what it was told of last. -/
def AllSound (w : CreditWarnings) : Prop := ∀ userId, Sound (w.levelHours userId) (w.notes userId)

theorem AllSound.lowCreditOnce (h : w.AllSound) (rentals : List CreditRental)
    (balance : UserId → ℤ) : (w.lowCreditOnce rentals balance).AllSound :=
  fun userId ↦ (h userId).warn _

theorem AllSound.markInformed (h : w.AllSound) {userId : UserId} {balanceCents : ℤ}
    {centsPerHour : ℕ}
    (htightens : ∀ told ∈ w.levelHours userId,
      ∀ level ∈ levelFor (leftHours balanceCents centsPerHour), level ≤ told) :
    (w.markInformed userId balanceCents centsPerHour).AllSound := by
  intro other
  rw [CreditWarnings.markInformed, note]
  dsimp only
  by_cases hother : other = userId
  · subst hother
    rw [Function.update_self, Function.update_self]
    exact (h other).inform htightens
  · rw [Function.update_of_ne hother, Function.update_of_ne hother]
    exact h other

/-- The accounts to which something came back, in turn. -/
theorem AllSound.markEach (h : w.AllSound) {cameBack : List UserId} (hnodup : cameBack.Nodup)
    {committed : UserId → ℕ} {balance : UserId → ℤ}
    (htightens : ∀ userId ∈ cameBack, ∀ told ∈ w.levelHours userId,
      ∀ level ∈ levelFor (leftHours (balance userId) (committed userId)), level ≤ told) :
    (cameBack.foldl (fun w userId ↦ w.markInformed userId (balance userId) (committed userId))
      w).AllSound := by
  induction cameBack generalizing w with
  | nil => exact h
  | cons userId cameBack ih =>
    rw [List.nodup_cons] at hnodup
    refine ih (h.markInformed (htightens userId List.mem_cons_self)) hnodup.2
      fun other hother ↦ ?_
    have hne : other ≠ userId := fun heq ↦ hnodup.1 (heq ▸ hother)
    have hkept : (w.markInformed userId (balance userId) (committed userId)).levelHours other =
        w.levelHours other := Function.update_of_ne hne _ _
    rw [hkept]
    exact htightens other (List.mem_cons_of_mem userId hother)

theorem AllSound.exec (h : w.AllSound) {o : WarningOp} (ho : o.Tightens w) :
    (o.exec w).AllSound := by
  cases o with
  | lowCreditOnce rentals balance => exact h.lowCreditOnce rentals balance
  | autoResumeOnce committed candidates balance =>
    exact h.markEach (nodup_resumeEach candidates committed .nil) ho

/-- A sweep that sees less than a level ends with an event for it or a tighter one. -/
theorem AllSound.told (h : w.AllSound) (rentals : List CreditRental) (balance : UserId → ℤ)
    (userId : UserId) {level : ℕ} (hlevel : level ∈ warnLevelsHours) {hours : ℚ}
    (hhours : forecastHours (balance userId) (runningByUser rentals userId) = some hours)
    (hunder : hours < level) :
    ∃ told ≤ level, told ∈ sinceRearmed ((w.lowCreditOnce rentals balance).notes userId) := by
  obtain ⟨tightest, hle, hfor⟩ := exists_levelFor hlevel hunder
  have hsound := (h.lowCreditOnce rentals balance) userId
  have hkept : ∃ told ≤ tightest, (w.lowCreditOnce rentals balance).levelHours userId = some told := by
    rw [CreditWarnings.lowCreditOnce]
    dsimp only
    rw [hhours, CreditWarnings.warn, hfor]
    dsimp only
    by_cases htold : (w.levelHours userId).any (· ≤ tightest) = true
    · rw [if_pos htold]
      obtain ⟨told, htold, hunder⟩ := (Option.any_eq_true _ _).mp htold
      exact ⟨told, of_decide_eq_true hunder, htold⟩
    · rw [if_neg htold]
      exact ⟨tightest, le_rfl, rfl⟩
  obtain ⟨told, htold, hrow⟩ := hkept
  refine ⟨told, htold.trans hle, List.mem_of_getLast? ?_⟩
  rw [← hsound.told, hrow]

/-- No account was told of anything yet. -/
def Fresh (w : CreditWarnings) : Prop := ∀ userId, w.levelHours userId = none ∧ w.notes userId = []

end CreditWarnings

open CreditWarnings

/-- **Once per level.** In every run of sweeps in which no resume loosens what an account was told,
an account is told of each level at most once between two re-armings, and of a day not after two
hours; and a sweep that sees less than a level ends with an event for that or a tighter one since
the last re-arming. -/
theorem warned_once_per_level {w₀ w : CreditWarnings} (fresh : w₀.Fresh)
    (run : Steps WarningOp.exec (fun o w ↦ o.Tightens w) w₀ w) (userId : UserId) :
    (∀ stretch, stretch <:+: w.notes userId → .rearmed ∉ stretch → OncePerLevel stretch) ∧
      ∀ rentals balance level hours, level ∈ warnLevelsHours →
        forecastHours (balance userId) (runningByUser rentals userId) = some hours →
        hours < level → ∃ told ≤ level,
          told ∈ sinceRearmed (((WarningOp.lowCreditOnce rentals balance).exec w).notes userId) := by
  have hstart : w₀.AllSound := fun userId ↦ by
    rw [(fresh userId).1, (fresh userId).2]
    exact sound_nil
  have hsound : w.AllSound := run.invariant (fun o w h ho ↦ AllSound.exec h ho) hstart
  refine ⟨fun stretch hstretch hrearmed ↦ ?_, fun rentals balance level hours hlevel hhours ↦ ?_⟩
  · exact (hsound userId).tightening.oncePerLevel hstretch hrearmed
  · exact hsound.told rentals balance userId hlevel hhours

/-- Nobody was told of anything. -/
private def unwarned : CreditWarnings := ⟨fun _ ↦ none, fun _ ↦ []⟩

/-- User 1's rental at 40 cents an hour. -/
private def rental40 : CreditRental where
  ownerUserId := some 1
  state := .ready
  leased := true
  catalog := false
  silent := false
  gpuCount := 1
  hourlyRateCents := 40
  readyInstances := 1
  resumeOnTopup := true
  suspendedReason := none
  suspendedAt := 0

/-- A sweep when user 1's balance is as it is given. -/
private def sweepAt (balanceCents : ℤ) : WarningOp :=
  .lowCreditOnce [rental40] fun _ ↦ balanceCents

/-- User 1 runs down to ten hours and to one, tops up to two days, and runs down to five hours. -/
theorem warned_once_per_level_run_down :
    ∃ w : CreditWarnings, w.notes 1 = [.low 24, .low 2, .rearmed, .low 24] ∧
      ∀ stretch, stretch <:+: w.notes 1 → .rearmed ∉ stretch → OncePerLevel stretch := by
  have run := Steps.of_admits WarningOp.exec (fun o w ↦ o.Tightens w) unwarned
    [sweepAt 400, sweepAt 40, sweepAt 1920, sweepAt 200] (by decide +kernel)
  exact ⟨_, by decide +kernel, (warned_once_per_level (fun _ ↦ ⟨rfl, rfl⟩) run 1).1⟩

/-- User 1 was told of two hours, tops up and resumes a second rental with five hours left, and is
told of two hours again. -/
theorem told_twice_of_two_hours :
    ¬∀ w₀ w : CreditWarnings, w₀.Fresh → Steps WarningOp.exec (fun _ _ ↦ True) w₀ w →
      ∀ userId stretch, stretch <:+: w.notes userId → .rearmed ∉ stretch →
        OncePerLevel stretch := by
  intro h
  have run := Steps.of_admits WarningOp.exec (fun _ _ ↦ True) unwarned
    [sweepAt 40, .autoResumeOnce (fun _ ↦ 40) [⟨1, 40, 400, true⟩] fun _ ↦ 400, sweepAt 40]
    (by decide)
  have hnotes : (Steps.replay WarningOp.exec unwarned [sweepAt 40,
      .autoResumeOnce (fun _ ↦ 40) [⟨1, 40, 400, true⟩] fun _ ↦ 400, sweepAt 40]).notes 1 =
        [.low 2, .low 2] := by
    decide +kernel
  have honce := h _ _ (fun _ ↦ ⟨rfl, rfl⟩) run 1 _ (List.infix_refl _) (by rw [hnotes]; decide)
  rw [hnotes] at honce
  exact absurd honce.hours (by decide)

end GreenCompute
