import GreenCompute.Billing.Monitor
import GreenCompute.Foundations.Steps
import Mathlib.Tactic.Linarith

/-!
# What the billing monitor reports

A row is worth reporting if it is a debit by hand, a credit by hand, a large credit, or a charge
that went below zero. The monitor should hand each of them over in exactly one alert, and no other
row.

The window of a pass begins five minutes before the time that the last pass read, and a row commits
within five minutes; so a row that a pass misses is in the window of the next. A row that has been
reported stays marked until it is out of every window: a marker lasts for a week. That carries the
invariant (`Kept`): a row that is owed has been told of at most once, and exactly once if it is
marked or behind the windows.

What is not so of the code itself is a condition on the steps (`Careful`). The query for negative
charges takes credits as well; a pass that dies after its commit has marked what it never handed
over; and one that dies before it leaves the next without a window.
-/

namespace GreenCompute

open BillingMonitor

/-! ## What is worth reporting -/

/-- A movement of money that is worth reporting. -/
def MonitoredEntry.Notable (large : ℤ) (r : MonitoredEntry) : Prop :=
  (r.kind ∈ manualDebits ∧ r.amountCents < 0) ∨ (0 < r.amountCents ∧ isManual r) ∨
    (0 < r.amountCents ∧ large ≤ r.amountCents) ∨
      (r.amountCents < 0 ∧ r.kind ∉ mayGoNegative ∧ r.balanceAfter < 0)

instance (large : ℤ) (r : MonitoredEntry) : Decidable (r.Notable large) :=
  inferInstanceAs (Decidable (_ ∨ _))

/-- What `notable_credits` reports, of the rows in its window. -/
def MonitoredEntry.isCredit (large : ℤ) (r : MonitoredEntry) : Bool :=
  (0 < r.amountCents ∨ r.kind ∈ manualDebits) ∧ (creditFinding large r).isSome

/-- A finding is about a row of the ledger. -/
def Finding.About (f : Finding) (entryId : ℕ) : Prop :=
  f.key = .credit entryId ∨ f.key = .neg entryId

instance (f : Finding) (entryId : ℕ) : Decidable (f.About entryId) :=
  inferInstanceAs (Decidable (_ ∨ _))

theorem MonitoredEntry.Notable.selected {large : ℤ} {r : MonitoredEntry} (h : r.Notable large) :
    isNegativeCharge r = true ∨ r.isCredit large = true := by
  rcases h with ⟨hkind, -⟩ | ⟨hpos, hmanual⟩ | ⟨hpos, hlarge⟩ | ⟨-, hkind, hbalance⟩
  · refine .inr (decide_eq_true ⟨.inr hkind, ?_⟩)
    rw [creditFinding, if_pos hkind, Option.isSome_some]
  · refine .inr (decide_eq_true ⟨.inl hpos, ?_⟩)
    rw [creditFinding]
    split
    · rfl
    · rw [if_pos ⟨hpos, hmanual⟩, Option.isSome_some]
  · refine .inr (decide_eq_true ⟨.inl hpos, ?_⟩)
    rw [creditFinding]
    split
    · rfl
    · split
      · rfl
      · rfl
  · exact .inl (decide_eq_true ⟨hbalance, hkind⟩)

namespace BillingMonitor

variable {large : ℤ} {now since : Time} {f : Finding} {fs : List Finding} {sent : SentMarkers}
  {key : FindingKey}

/-! ## Findings -/

theorem key_creditFinding {r : MonitoredEntry} (h : creditFinding large r = some f) :
    f.key = .credit r.entryId := by
  unfold creditFinding at h
  split at h
  · exact Option.some.inj h ▸ rfl
  · split at h
    · exact Option.some.inj h ▸ rfl
    · split at h
      · exact Option.some.inj h ▸ rfl
      · exact nomatch h

theorem exists_negativeCharges {ledger : List MonitoredEntry} {entryId : ℕ} :
    (∃ f ∈ negativeCharges since ledger, f.key = .neg entryId) ↔ ∃ r ∈ ledger,
      since < r.createdAt ∧ isNegativeCharge r = true ∧ r.entryId = entryId := by
  constructor
  · rintro ⟨f, hf, hkey⟩
    obtain ⟨r, hr, rfl⟩ := List.mem_map.mp hf
    obtain ⟨hr, hselected⟩ := List.mem_filter.mp hr
    obtain ⟨hsince, hcharge⟩ := of_decide_eq_true hselected
    exact ⟨r, hr, hsince, hcharge, FindingKey.neg.inj hkey⟩
  · rintro ⟨r, hr, hsince, hcharge, rfl⟩
    exact ⟨_, List.mem_map_of_mem (List.mem_filter.mpr ⟨hr, decide_eq_true ⟨hsince, hcharge⟩⟩), rfl⟩

theorem exists_notableCredits {ledger : List MonitoredEntry} {entryId : ℕ} :
    (∃ f ∈ notableCredits large since ledger, f.key = .credit entryId) ↔ ∃ r ∈ ledger,
      since < r.createdAt ∧ r.isCredit large = true ∧ r.entryId = entryId := by
  constructor
  · rintro ⟨f, hf, hkey⟩
    obtain ⟨r, hr, hfinding⟩ := List.mem_filterMap.mp hf
    obtain ⟨hr, hselected⟩ := List.mem_filter.mp hr
    obtain ⟨hsince, hcredit⟩ := of_decide_eq_true hselected
    rw [key_creditFinding hfinding] at hkey
    refine ⟨r, hr, hsince, decide_eq_true ⟨hcredit, ?_⟩, FindingKey.credit.inj hkey⟩
    rw [hfinding, Option.isSome_some]
  · rintro ⟨r, hr, hsince, hcredit, rfl⟩
    obtain ⟨hselected, hsome⟩ := of_decide_eq_true hcredit
    obtain ⟨f, hf⟩ := Option.isSome_iff_exists.mp hsome
    refine ⟨f, List.mem_filterMap.mpr ⟨r, ?_, hf⟩, key_creditFinding hf⟩
    exact List.mem_filter.mpr ⟨hr, decide_eq_true ⟨hsince, hselected⟩⟩

theorem key_negativeCharges {ledger : List MonitoredEntry} (h : f ∈ negativeCharges since ledger) :
    ∃ entryId, f.key = .neg entryId := by
  obtain ⟨r, -, rfl⟩ := List.mem_map.mp h
  exact ⟨r.entryId, rfl⟩

theorem key_notableCredits {ledger : List MonitoredEntry}
    (h : f ∈ notableCredits large since ledger) : ∃ entryId, f.key = .credit entryId := by
  obtain ⟨r, -, hf⟩ := List.mem_filterMap.mp h
  exact ⟨r.entryId, key_creditFinding hf⟩

theorem key_other {others : List OtherFinding} (h : f ∈ others.map OtherFinding.toFinding) :
    ∃ realert name, f.key = .other realert name := by
  obtain ⟨other, -, rfl⟩ := List.mem_map.mp h
  exact ⟨other.realert, other.name, rfl⟩

/-! ## Markers -/

/-- The time of the marker of a finding. -/
def markedAt (sent : SentMarkers) (key : FindingKey) : Option Time :=
  (sent.get? key).map Prod.snd

/-- A finding that is reported once. -/
def IsOnce (key : FindingKey) : Prop := ∀ now at_, holdsBack now key at_ = true

theorem isOnce_credit (entryId : ℕ) : IsOnce (.credit entryId) := fun _ _ ↦ rfl

theorem isOnce_neg (entryId : ℕ) : IsOnce (.neg entryId) := fun _ _ ↦ rfl

theorem due_fst (h : IsOnce f.key) : (due now f sent).1 = (markedAt sent f.key).isNone := by
  unfold due markedAt
  cases hrow : sent.get? f.key with
  | none => rfl
  | some row => simp [h now row.2]

theorem markedAt_due (h : IsOnce key) : markedAt (due now f sent).2 key =
    (markedAt sent key).or (if f.key = key then some now else none) := by
  by_cases hkey : f.key = key
  · subst hkey
    unfold due markedAt
    cases hrow : sent.get? f.key with
    | none => simp
    | some row => simp [h now row.2, hrow]
  · rw [if_neg hkey, Option.or_none]
    unfold due
    split
    · rfl
    · rw [markedAt, Table.get?_insert_ne _ (Ne.symm hkey), markedAt]

theorem mem_of_mem_takeDue (h : f ∈ (takeDue now fs sent).1) : f ∈ fs := by
  induction fs generalizing sent with
  | nil => exact h
  | cons g fs ih =>
    rw [takeDue] at h
    split at h
    · rcases List.mem_cons.mp h with rfl | h
      · exact List.mem_cons_self
      · exact List.mem_cons_of_mem _ (ih h)
    · exact List.mem_cons_of_mem _ (ih h)

/-- What is reported once is due if it is found and not marked, and is then marked. -/
theorem takeDue_once (h : IsOnce key) :
    ((∃ f ∈ (takeDue now fs sent).1, f.key = key) ↔
        (∃ f ∈ fs, f.key = key) ∧ markedAt sent key = none) ∧
      markedAt (takeDue now fs sent).2 key =
        (markedAt sent key).or (if ∃ f ∈ fs, f.key = key then some now else none) := by
  induction fs generalizing sent with
  | nil => simp [takeDue]
  | cons g fs ih =>
    obtain ⟨hdue, hmarked⟩ := @ih (due now g sent).2
    have hnext := @markedAt_due now g sent key h
    by_cases hg : g.key = key
    · have hfst : (due now g sent).1 = (markedAt sent key).isNone := by
        rw [due_fst (hg ▸ h), hg]
      rw [if_pos hg] at hnext
      have hafter : (markedAt (due now g sent).2 key).isSome = true := by
        rw [hnext]
        cases markedAt sent key <;> rfl
      have hrest : ¬∃ f ∈ (takeDue now fs (due now g sent).2).1, f.key = key := by
        rw [hdue]
        rintro ⟨-, hnone⟩
        rw [hnone] at hafter
        exact nomatch hafter
      constructor
      · rw [takeDue]
        cases hold : markedAt sent key with
        | none => simp [hfst, hold, hg]
        | some at_ => simpa [hfst, hold] using hrest
      · have hlist : ∃ f ∈ g :: fs, f.key = key := ⟨g, List.mem_cons_self, hg⟩
        rw [takeDue, hmarked, hnext, if_pos hlist]
        cases markedAt sent key <;> rfl
    · rw [if_neg hg, Option.or_none] at hnext
      have hlist : (∃ f ∈ g :: fs, f.key = key) ↔ ∃ f ∈ fs, f.key = key := by simp [hg]
      rw [hnext] at hdue hmarked
      constructor
      · rw [hlist, ← hdue, takeDue]
        split
        · simp [hg]
        · rfl
      · simp only [takeDue, hmarked, hlist]

theorem markedAt_forget : markedAt (forget now sent) key =
    (markedAt sent key).filter fun at_ ↦ now - sentRetention ≤ at_ := by
  rw [markedAt, forget, Table.get?_filter, markedAt]
  cases sent.get? key <;> simp [Option.filter]

end BillingMonitor

/-! ## Alerts -/

namespace Monitor

/-- The alerts that were handed over, and the one that is still to be. -/
def told (s : Monitor) : List (List Finding) :=
  match s.pass with
  | .committed _ new => s.alerts ++ [new]
  | _ => s.alerts

/-- The number of alerts about a row. -/
def countAbout (alerts : List (List Finding)) (entryId : ℕ) : ℕ :=
  alerts.countP fun alert ↦ ∃ f ∈ alert, f.About entryId

/-- A row that has to be reported: it is worth it, and was created after the first pass. -/
def Owed (large : ℤ) (s : Monitor) (r : MonitoredEntry) : Prop :=
  r.Notable large ∧ ∃ first ∈ s.firstPass, first < r.createdAt

instance (large : ℤ) (s : Monitor) (r : MonitoredEntry) : Decidable (s.Owed large r) :=
  inferInstanceAs (Decidable (_ ∧ _))

/-- Each row that has to be reported is in one alert at most, and in one if a pass that got to its
end saw it; and no alert is about a row that is not worth it. -/
structure ReportsOnce (large : ℤ) (s : Monitor) : Prop where
  nothingElse : ∀ alert ∈ s.alerts, ∀ f ∈ alert, ∀ r ∈ s.ledger, f.About r.entryId →
    r.Notable large
  atMostOnce : ∀ r ∈ s.ledger, s.Owed large r → countAbout s.alerts r.entryId ≤ 1
  reported : ∀ r ∈ s.covered, s.Owed large r → countAbout s.alerts r.entryId = 1

end Monitor

/-- What a step has to meet. The windows of the two queries have no row that they take and that is
not worth reporting; no row that both of them take commits between them; a pass gets to its second
query within a week; a pass that finds no cursor has every row that has to be reported in its
window; and none dies before it has handed such a row over. -/
def MonitorOp.Careful (large : ℤ) (op : MonitorOp) (s : Monitor) : Prop :=
  match op, s.pass with
  | .scanCharges, .started now =>
    ∀ r ∈ s.ledger, s.since now < r.createdAt → isNegativeCharge r = true → r.Notable large
  | .record entry _ _, .charged _ _ =>
    ¬(isNegativeCharge entry = true ∧ entry.isCredit large = true)
  | .scanCredits, .charged now _ =>
    (∀ r ∈ s.ledger, s.since now < r.createdAt → r.isCredit large = true → r.Notable large) ∧
      ∀ r ∈ s.ledger, r.createdAt ≤ now + (sentRetention - cursorOverlap)
  | .settle .., .scanned now _ _ =>
    s.cursor = none → ∀ r ∈ s.ledger, s.Owed large r → s.since now < r.createdAt
  | .die, .committed _ new =>
    ∀ r ∈ s.ledger, s.Owed large r → ∀ f ∈ new, ¬f.About r.entryId
  | _, _ => True

instance (large : ℤ) (op : MonitorOp) (s : Monitor) : Decidable (op.Careful large s) := by
  unfold MonitorOp.Careful
  split <;> infer_instance

/-! ## The invariant -/

namespace Monitor

variable {large : ℤ} {s s' : Monitor} {now : Time} {seen seen' : List MonitoredEntry}

/-- What holds of a row that has to be reported, with the number of alerts that tell of it. Once it
is told, it is behind the windows or marked as all that the queries make of it. -/
structure RowKept (large : ℤ) (cursor : Option Time) (sent : SentMarkers) (n : ℕ)
    (r : MonitoredEntry) : Prop where
  once : n ≤ 1
  closed : n = 1 → (∃ c ∈ cursor, r.createdAt ≤ c - cursorOverlap) ∨
    (isNegativeCharge r = true → (markedAt sent (.neg r.entryId)).isSome = true) ∧
      (r.isCredit large = true → (markedAt sent (.credit r.entryId)).isSome = true)
  credit : (markedAt sent (.credit r.entryId)).isSome = true → n = 1
  neg : (markedAt sent (.neg r.entryId)).isSome = true → n = 1
  behind : ∀ c ∈ cursor, r.createdAt ≤ c - cursorOverlap → n = 1

/-- What holds of a pass after its first query. -/
structure ChargesKept (large : ℤ) (now : Time) (seen : List MonitoredEntry) (s : Monitor) :
    Prop where
  before : now < s.clock
  cursor_le : ∀ c ∈ s.cursor, c ≤ now
  subset : seen ⊆ s.ledger
  missed : ∀ r ∈ s.ledger, r ∉ seen → now - cursorOverlap < r.createdAt
  charge : ∀ r ∈ seen, s.since now < r.createdAt → isNegativeCharge r = true → r.Notable large

/-- What holds of a pass after its second query. -/
structure CreditsKept (large : ℤ) (now : Time) (seen seen' : List MonitoredEntry) (s : Monitor) :
    Prop extends ChargesKept large now seen s where
  seen_subset : seen ⊆ seen'
  subset' : seen' ⊆ s.ledger
  credit : ∀ r ∈ seen', s.since now < r.createdAt → r.isCredit large = true → r.Notable large
  single : ∀ r ∈ seen', r ∉ seen → ¬(isNegativeCharge r = true ∧ r.isCredit large = true)
  recent : ∀ r ∈ seen', r.createdAt ≤ now + (sentRetention - cursorOverlap)

/-- What holds of the pass that is under way. -/
def PassKept (large : ℤ) (s : Monitor) : Prop :=
  match s.pass with
  | .idle => True
  | .started now => now < s.clock ∧ ∀ c ∈ s.cursor, c ≤ now
  | .charged now seen => ChargesKept large now seen s ∧
    ∀ r ∈ s.ledger, r ∉ seen → ¬(isNegativeCharge r = true ∧ r.isCredit large = true)
  | .scanned now seen seen' => CreditsKept large now seen seen' s
  | .committed seen new => seen ⊆ s.ledger ∧
    ∀ r ∈ seen, s.Owed large r → countAbout (s.alerts ++ [new]) r.entryId = 1

/-- The invariant. -/
structure Kept (large : ℤ) (s : Monitor) : Prop where
  unique : (s.ledger.map MonitoredEntry.entryId).Nodup
  past : ∀ r ∈ s.ledger, r.createdAt ≤ s.clock
  cursor_lt : ∀ c ∈ s.cursor, c < s.clock
  known : ∀ entryId, (markedAt s.sent (.credit entryId)).isSome = true ∨
    (markedAt s.sent (.neg entryId)).isSome = true ∨ 0 < countAbout s.told entryId →
      ∃ r ∈ s.ledger, r.entryId = entryId
  notable : ∀ alert ∈ s.told, ∀ f ∈ alert, ∀ r ∈ s.ledger, f.About r.entryId → r.Notable large
  rows : ∀ r ∈ s.ledger, s.Owed large r →
    RowKept large s.cursor s.sent (countAbout s.told r.entryId) r
  lasting : ∀ r ∈ s.ledger, ∀ key, key = .credit r.entryId ∨ key = .neg r.entryId →
    ∀ at_ ∈ markedAt s.sent key, r.createdAt ≤ at_ + (sentRetention - cursorOverlap)
  covered : ∀ r ∈ s.covered, r ∈ s.ledger ∧
    (s.Owed large r → countAbout s.alerts r.entryId = 1)
  pass : s.PassKept large

theorem kept_empty : Kept large empty where
  unique := List.nodup_nil
  past := fun _ h ↦ nomatch h
  cursor_lt := fun _ h ↦ nomatch h
  known := by
    rintro entryId (h | h | h)
    · exact nomatch h
    · exact nomatch h
    · exact absurd h (lt_irrefl 0)
  notable := fun _ h ↦ nomatch h
  rows := fun _ h ↦ nomatch h
  lasting := fun _ h ↦ nomatch h
  covered := fun _ h ↦ nomatch h
  pass := trivial

theorem countAbout_append (alerts : List (List Finding)) (alert : List Finding) (entryId : ℕ) :
    countAbout (alerts ++ [alert]) entryId =
      countAbout alerts entryId + if ∃ f ∈ alert, f.About entryId then 1 else 0 := by
  rw [countAbout, List.countP_append, List.countP_singleton, countAbout]
  simp only [decide_eq_true_eq]

theorem countAbout_pos {alerts : List (List Finding)} {entryId : ℕ} :
    0 < countAbout alerts entryId ↔ ∃ alert ∈ alerts, ∃ f ∈ alert, f.About entryId := by
  rw [countAbout, List.countP_pos_iff]
  simp only [decide_eq_true_eq]

theorem Kept.reportsOnce (h : Kept large s) : ReportsOnce large s := by
  have hsubset : s.alerts.Sublist s.told := by
    unfold told
    split
    · exact List.sublist_append_left _ _
    · exact List.Sublist.refl _
  refine ⟨fun alert halert ↦ h.notable alert (hsubset.subset halert), fun r hr howed ↦ ?_,
    fun r hr ↦ (h.covered r hr).2⟩
  exact (hsubset.countP_le).trans (h.rows r hr howed).once

/-- A step that leaves the books as they are. -/
theorem Kept.reposition (h : Kept large s) (hledger : s'.ledger = s.ledger)
    (hsent : s'.sent = s.sent) (hcursor : s'.cursor = s.cursor) (htold : s'.told = s.told)
    (halerts : s'.alerts = s.alerts) (hcovered : s'.covered = s.covered)
    (hclock : s.clock ≤ s'.clock) (howed : ∀ r ∈ s.ledger, s'.Owed large r → s.Owed large r)
    (hpass : s'.PassKept large) : Kept large s' where
  unique := hledger ▸ h.unique
  past r hr := (h.past r (hledger ▸ hr)).trans hclock
  cursor_lt c hc := (h.cursor_lt c (hcursor ▸ hc)).trans_le hclock
  known entryId := by
    rw [hsent, htold, hledger]
    exact h.known entryId
  notable := by
    rw [htold, hledger]
    exact h.notable
  rows r hr hr' := by
    rw [hcursor, hsent, htold]
    exact h.rows r (hledger ▸ hr) (howed r (hledger ▸ hr) hr')
  lasting := by
    rw [hledger, hsent]
    exact h.lasting
  covered r hr := by
    obtain ⟨hmem, hcount⟩ := h.covered r (hcovered ▸ hr)
    rw [hledger, halerts]
    exact ⟨hmem, fun hr' ↦ hcount (howed r hmem hr')⟩
  pass := hpass

/-! ### Time passes, and passes look at the ledger -/

theorem ChargesKept.elapse (h : ChargesKept large now seen s) {span : Time} (hspan : 0 ≤ span) :
    ChargesKept large now seen { s with clock := s.clock + span } :=
  ⟨h.before.trans_le (le_add_of_nonneg_right hspan), h.cursor_le, h.subset, h.missed, h.charge⟩

theorem PassKept.elapse (h : s.PassKept large) {span : Time} (hspan : 0 ≤ span) :
    PassKept large { s with clock := s.clock + span } := by
  unfold PassKept at h ⊢
  dsimp only at h ⊢
  split at h
  · trivial
  · exact ⟨h.1.trans_le (le_add_of_nonneg_right hspan), h.2⟩
  · exact ⟨h.1.elapse hspan, h.2⟩
  · exact { h.toChargesKept.elapse hspan with
      seen_subset := h.seen_subset
      subset' := h.subset'
      credit := h.credit
      single := h.single
      recent := h.recent }
  · exact h

theorem Kept.elapse (h : Kept large s) {span : Time} (hspan : 0 ≤ span) :
    Kept large { s with clock := s.clock + span } :=
  h.reposition rfl rfl rfl rfl rfl rfl (le_add_of_nonneg_right hspan) (fun _ _ ↦ id)
    (h.pass.elapse hspan)

theorem Kept.start (h : Kept large s) {wait : Time} (hwait : 0 < wait) :
    Kept large (s.start wait) := by
  unfold Monitor.start
  split
  · next hidle =>
    have htold : s.told = s.alerts := by rw [told, hidle]
    refine h.reposition rfl rfl rfl htold.symm rfl rfl (le_add_of_nonneg_right hwait.le) ?_ ?_
    · -- What there is was created before the first pass began.
      rintro r hr ⟨hnotable, first, hfirst, hlater⟩
      cases hold : s.firstPass with
      | none =>
        rw [hold] at hfirst
        obtain rfl := Option.some.inj hfirst
        exact absurd hlater (not_lt.mpr (h.past r hr))
      | some first' =>
        rw [hold] at hfirst
        exact ⟨hnotable, first, hold.trans hfirst, hlater⟩
    · exact ⟨lt_add_of_pos_right _ hwait, fun c hc ↦ (h.cursor_lt c hc).le⟩
  · exact h

theorem Kept.scanCharges (h : Kept large s) (hcareful : MonitorOp.scanCharges.Careful large s) :
    Kept large s.scanCharges := by
  unfold Monitor.scanCharges
  split
  · next now hstarted =>
    have htold : s.told = s.alerts := by rw [told, hstarted]
    have hpass := h.pass
    rw [PassKept, hstarted] at hpass
    unfold MonitorOp.Careful at hcareful
    rw [hstarted] at hcareful
    refine h.reposition rfl rfl rfl htold.symm rfl rfl le_rfl (fun _ _ ↦ id) ?_
    exact ⟨⟨hpass.1, hpass.2, List.Subset.refl _, fun r hr hnot ↦ absurd hr hnot, hcareful⟩,
      fun r hr hnot ↦ absurd hr hnot⟩
  · exact h

theorem Kept.scanCredits (h : Kept large s) (hcareful : MonitorOp.scanCredits.Careful large s) :
    Kept large s.scanCredits := by
  unfold Monitor.scanCredits
  split
  · next now seen hcharged =>
    have htold : s.told = s.alerts := by rw [told, hcharged]
    have hpass := h.pass
    rw [PassKept, hcharged] at hpass
    obtain ⟨hcharges, hsingle⟩ := hpass
    unfold MonitorOp.Careful at hcareful
    rw [hcharged] at hcareful
    refine h.reposition rfl rfl rfl htold.symm rfl rfl le_rfl (fun _ _ ↦ id) ?_
    exact
      { before := hcharges.before
        cursor_le := hcharges.cursor_le
        subset := hcharges.subset
        missed := hcharges.missed
        charge := hcharges.charge
        seen_subset := hcharges.subset
        subset' := List.Subset.refl _
        credit := hcareful.1
        single := hsingle
        recent := hcareful.2 }
  · exact h

/-! ### A row commits -/

theorem ChargesKept.record (h : ChargesKept large now seen s) {entry : MonitoredEntry}
    (hentry : now - cursorOverlap < entry.createdAt) :
    ChargesKept large now seen { s with ledger := s.ledger ++ [entry] } where
  before := h.before
  cursor_le := h.cursor_le
  subset := fun r hr ↦ List.mem_append_left _ (h.subset hr)
  missed r hr hnot := by
    rcases List.mem_append.mp hr with hr | hr
    · exact h.missed r hr hnot
    · exact List.mem_singleton.mp hr ▸ hentry
  charge := h.charge

theorem PassKept.record (h : s.PassKept large) {entry : MonitoredEntry}
    (hentry : s.clock - cursorOverlap ≤ entry.createdAt)
    (hsingle : ∀ now seen, s.pass = .charged now seen →
      ¬(isNegativeCharge entry = true ∧ entry.isCredit large = true)) :
    PassKept large { s with ledger := s.ledger ++ [entry] } := by
  unfold PassKept at h ⊢
  dsimp only at h ⊢
  split at h
  · trivial
  · exact h
  · next now seen hcharged =>
    refine ⟨h.1.record ((sub_lt_sub_right h.1.before _).trans_le hentry), fun r hr hnot ↦ ?_⟩
    rcases List.mem_append.mp hr with hr | hr
    · exact h.2 r hr hnot
    · exact List.mem_singleton.mp hr ▸ hsingle now seen hcharged
  · exact { h.toChargesKept.record ((sub_lt_sub_right h.before _).trans_le hentry) with
      seen_subset := h.seen_subset
      subset' := fun r hr ↦ List.mem_append_left _ (h.subset' hr)
      credit := h.credit
      single := h.single
      recent := h.recent }
  · exact ⟨fun r hr ↦ List.mem_append_left _ (h.1 hr), h.2⟩

/-- A row with an identifier of its own has not been told of and is not marked. -/
theorem Kept.fresh (h : Kept large s) {entryId : ℕ} (hfree : ∀ r ∈ s.ledger, r.entryId ≠ entryId) :
    markedAt s.sent (.credit entryId) = none ∧ markedAt s.sent (.neg entryId) = none ∧
      countAbout s.told entryId = 0 := by
  have hnone : ¬((markedAt s.sent (.credit entryId)).isSome = true ∨
      (markedAt s.sent (.neg entryId)).isSome = true ∨ 0 < countAbout s.told entryId) := by
    intro hknown
    obtain ⟨r, hr, hid⟩ := h.known entryId hknown
    exact hfree r hr hid
  obtain ⟨hcredit, hrest⟩ := not_or.mp hnone
  obtain ⟨hneg, hcount⟩ := not_or.mp hrest
  exact ⟨Option.not_isSome_iff_eq_none.mp hcredit, Option.not_isSome_iff_eq_none.mp hneg,
    Nat.eq_zero_of_not_pos hcount⟩

theorem RowKept.unseen {cursor : Option Time} {sent : SentMarkers} {r : MonitoredEntry}
    (hcredit : markedAt sent (.credit r.entryId) = none)
    (hneg : markedAt sent (.neg r.entryId) = none)
    (hcursor : ∀ c ∈ cursor, c - cursorOverlap < r.createdAt) :
    RowKept large cursor sent 0 r where
  once := Nat.zero_le 1
  closed h := absurd h Nat.zero_ne_one
  credit h := by
    rw [hcredit] at h
    exact nomatch h
  neg h := by
    rw [hneg] at h
    exact nomatch h
  behind c hc h := absurd h (not_le.mpr (hcursor c hc))

theorem Kept.record (h : Kept large s) {entry : MonitoredEntry} {age : Time}
    (hage : 0 ≤ age ∧ age ≤ cursorOverlap)
    (hcareful : (MonitorOp.record entry age hage).Careful large s) :
    Kept large (s.record entry age) := by
  unfold Monitor.record
  split
  · exact h
  · next hnot =>
    have hfree : ∀ r ∈ s.ledger, r.entryId ≠ entry.entryId := fun r hr hid ↦ hnot ⟨r, hr, hid⟩
    obtain ⟨hcredit, hneg, hcount⟩ := h.fresh hfree
    have hcreated : s.clock - cursorOverlap ≤ s.clock - age := sub_le_sub_left hage.2 _
    have hsingle : ∀ now seen, s.pass = .charged now seen →
        ¬(isNegativeCharge entry = true ∧ entry.isCredit large = true) := by
      intro now seen hcharged
      unfold MonitorOp.Careful at hcareful
      rw [hcharged] at hcareful
      exact hcareful
    constructor
    · rw [List.map_append]
      refine h.unique.append (List.nodup_singleton _) (List.disjoint_singleton.mpr fun hmem ↦ ?_)
      obtain ⟨r, hr, hid⟩ := List.mem_map.mp hmem
      exact hfree r hr hid
    · intro r hr
      rcases List.mem_append.mp hr with hr | hr
      · exact h.past r hr
      · obtain rfl := List.mem_singleton.mp hr
        exact sub_le_self _ hage.1
    · exact h.cursor_lt
    · intro entryId hknown
      obtain ⟨r, hr, hid⟩ := h.known entryId hknown
      exact ⟨r, List.mem_append_left _ hr, hid⟩
    · intro alert halert f hf r hr habout
      rcases List.mem_append.mp hr with hr | hr
      · exact h.notable alert halert f hf r hr habout
      · obtain rfl := List.mem_singleton.mp hr
        have hpos : 0 < countAbout s.told entry.entryId :=
          countAbout_pos.mpr ⟨alert, halert, f, hf, habout⟩
        exact absurd hcount hpos.ne'
    · intro r hr howed
      rcases List.mem_append.mp hr with hr | hr
      · exact h.rows r hr howed
      · obtain rfl := List.mem_singleton.mp hr
        -- The cursor is behind the clock, so a new row is in the next window.
        have hkept : RowKept large s.cursor s.sent 0 { entry with createdAt := s.clock - age } :=
          .unseen hcredit hneg fun c hc ↦
            (sub_lt_sub_right (h.cursor_lt c hc) _).trans_le hcreated
        rw [← hcount] at hkept
        exact hkept
    · intro r hr key hkey at_ hat
      rcases List.mem_append.mp hr with hr | hr
      · exact h.lasting r hr key hkey at_ hat
      · obtain rfl := List.mem_singleton.mp hr
        rcases hkey with rfl | rfl
        · exact nomatch hcredit ▸ hat
        · exact nomatch hneg ▸ hat
    · intro r hr
      obtain ⟨hmem, hcovered⟩ := h.covered r hr
      exact ⟨List.mem_append_left _ hmem, hcovered⟩
    · exact h.pass.record hcreated hsingle

/-! ### A pass commits -/

section Settle

variable {before after : List OtherFinding}

/-- A row with this identifier is the one. -/
theorem Kept.eq_of_entryId (h : Kept large s) {r r' : MonitoredEntry} (hr : r ∈ s.ledger)
    (hr' : r' ∈ s.ledger) (hid : r'.entryId = r.entryId) : r' = r :=
  List.inj_on_of_nodup_map h.unique hr' hr hid

theorem exists_neg_findings {entryId : ℕ} :
    (∃ f ∈ s.findings large before after now seen seen', f.key = .neg entryId) ↔ ∃ r ∈ seen,
      s.since now < r.createdAt ∧ isNegativeCharge r = true ∧ r.entryId = entryId := by
  rw [← exists_negativeCharges]
  constructor
  · rintro ⟨f, hf, hkey⟩
    rcases List.mem_append.mp hf with hf | hf
    · rcases List.mem_append.mp hf with hf | hf
      · rcases List.mem_append.mp hf with hf | hf
        · obtain ⟨_, _, hother⟩ := key_other hf
          exact nomatch hkey.symm.trans hother
        · exact ⟨f, hf, hkey⟩
      · obtain ⟨_, hcredit⟩ := key_notableCredits hf
        exact nomatch hkey.symm.trans hcredit
    · obtain ⟨_, _, hother⟩ := key_other hf
      exact nomatch hkey.symm.trans hother
  · rintro ⟨f, hf, hkey⟩
    exact ⟨f, List.mem_append_left _ (List.mem_append_left _ (List.mem_append_right _ hf)), hkey⟩

theorem exists_credit_findings {entryId : ℕ} :
    (∃ f ∈ s.findings large before after now seen seen', f.key = .credit entryId) ↔ ∃ r ∈ seen',
      s.since now < r.createdAt ∧ r.isCredit large = true ∧ r.entryId = entryId := by
  rw [← exists_notableCredits]
  constructor
  · rintro ⟨f, hf, hkey⟩
    rcases List.mem_append.mp hf with hf | hf
    · rcases List.mem_append.mp hf with hf | hf
      · rcases List.mem_append.mp hf with hf | hf
        · obtain ⟨_, _, hother⟩ := key_other hf
          exact nomatch hkey.symm.trans hother
        · obtain ⟨_, hneg⟩ := key_negativeCharges hf
          exact nomatch hkey.symm.trans hneg
      · exact ⟨f, hf, hkey⟩
    · obtain ⟨_, _, hother⟩ := key_other hf
      exact nomatch hkey.symm.trans hother
  · rintro ⟨f, hf, hkey⟩
    exact ⟨f, List.mem_append_left _ (List.mem_append_right _ hf), hkey⟩

/-- What the queries of a pass find of a row of the ledger. -/
theorem Kept.found_neg (h : Kept large s) (hseen : seen ⊆ s.ledger) {r : MonitoredEntry}
    (hr : r ∈ s.ledger) :
    (∃ f ∈ s.findings large before after now seen seen', f.key = .neg r.entryId) ↔
      r ∈ seen ∧ s.since now < r.createdAt ∧ isNegativeCharge r = true := by
  rw [exists_neg_findings]
  constructor
  · rintro ⟨r', hr', hsince, hcharge, hid⟩
    obtain rfl := h.eq_of_entryId hr (hseen hr') hid
    exact ⟨hr', hsince, hcharge⟩
  · rintro ⟨hr', hsince, hcharge⟩
    exact ⟨r, hr', hsince, hcharge, rfl⟩

theorem Kept.found_credit (h : Kept large s) (hseen' : seen' ⊆ s.ledger) {r : MonitoredEntry}
    (hr : r ∈ s.ledger) :
    (∃ f ∈ s.findings large before after now seen seen', f.key = .credit r.entryId) ↔
      r ∈ seen' ∧ s.since now < r.createdAt ∧ r.isCredit large = true := by
  rw [exists_credit_findings]
  constructor
  · rintro ⟨r', hr', hsince, hcredit, hid⟩
    obtain rfl := h.eq_of_entryId hr (hseen' hr') hid
    exact ⟨hr', hsince, hcredit⟩
  · rintro ⟨hr', hsince, hcredit⟩
    exact ⟨r, hr', hsince, hcredit, rfl⟩

/-- The findings that are new about a row, by the two keys that it may have. -/
theorem exists_about_takeDue {fs : List Finding} {sent : SentMarkers} {entryId : ℕ} :
    (∃ f ∈ (takeDue now fs sent).1, f.About entryId) ↔
      ((∃ f ∈ fs, f.key = .credit entryId) ∧ markedAt sent (.credit entryId) = none) ∨
        (∃ f ∈ fs, f.key = .neg entryId) ∧ markedAt sent (.neg entryId) = none := by
  rw [← (takeDue_once (isOnce_credit entryId)).1, ← (takeDue_once (isOnce_neg entryId)).1]
  constructor
  · rintro ⟨f, hf, hkey | hkey⟩
    · exact .inl ⟨f, hf, hkey⟩
    · exact .inr ⟨f, hf, hkey⟩
  · rintro (⟨f, hf, hkey⟩ | ⟨f, hf, hkey⟩)
    · exact ⟨f, hf, .inl hkey⟩
    · exact ⟨f, hf, .inr hkey⟩

/-- A marker after a pass was there before or is of what was found. -/
theorem mem_markedAt_settled {fs : List Finding} {sent : SentMarkers} {key : FindingKey}
    (hkey : IsOnce key) {at_ : Time}
    (h : at_ ∈ markedAt (forget now (takeDue now fs sent).2) key) :
    at_ ∈ markedAt sent key ∨ (at_ = now ∧ ∃ f ∈ fs, f.key = key) := by
  rw [markedAt_forget, (takeDue_once hkey).2] at h
  obtain ⟨hmem, -⟩ := Option.mem_filter_iff.mp h
  cases hold : markedAt sent key with
  | some at' =>
    rw [hold, Option.some_or] at hmem
    exact .inl hmem
  | none =>
    rw [hold, Option.none_or] at hmem
    split at hmem
    · next hfound => exact .inr ⟨(Option.some.inj hmem).symm, hfound⟩
    · exact nomatch hmem

/-- What is found, or was marked less than a week ago, is marked after a pass. -/
theorem isSome_markedAt_settled {fs : List Finding} {sent : SentMarkers} {key : FindingKey}
    (hkey : IsOnce key) (h : (markedAt sent key).isSome = true ∨ ∃ f ∈ fs, f.key = key)
    (hrecent : ∀ at_ ∈ markedAt sent key, now - sentRetention ≤ at_) :
    (markedAt (forget now (takeDue now fs sent).2) key).isSome = true := by
  rw [markedAt_forget, (takeDue_once hkey).2]
  cases hold : markedAt sent key with
  | some at_ =>
    rw [Option.some_or, Option.filter_some, if_pos (decide_eq_true (hrecent at_ hold))]
    rfl
  | none =>
    rw [hold] at h
    have hnow : now - sentRetention ≤ now := by
      unfold sentRetention
      linarith
    rw [Option.none_or, if_pos (h.resolve_left Bool.false_ne_true), Option.filter_some,
      if_pos (decide_eq_true hnow)]
    rfl

/-- The window of a pass begins no later than that of the next. -/
theorem since_le (h : ∀ c ∈ s.cursor, c ≤ now) : s.since now ≤ now - cursorOverlap := by
  unfold since
  cases hcursor : s.cursor with
  | none =>
    rw [Option.getD_none]
    unfold firstRunLookback
    linarith
  | some c => exact sub_le_sub_right (h c hcursor) _

/-- A marker that is a week old is of a row behind the next window. -/
theorem Kept.recent_or_behind (h : Kept large s) {r : MonitoredEntry} (hr : r ∈ s.ledger)
    (hbehind : ¬r.createdAt ≤ now - cursorOverlap) {key : FindingKey}
    (hkey : key = .credit r.entryId ∨ key = .neg r.entryId) :
    ∀ at_ ∈ markedAt s.sent key, now - sentRetention ≤ at_ := by
  intro at_ hat
  have hlasting := h.lasting r hr key hkey at_ hat
  by_contra hold
  refine hbehind ?_
  linarith [not_le.mp hold]

/-- What a pass makes of a row that has to be reported. If its first query saw the row, the row is
told of afterwards. -/
theorem Kept.row_settle (h : Kept large s) (hpass : CreditsKept large now seen seen' s)
    (htold : s.told = s.alerts)
    (hfirst : s.cursor = none → ∀ r ∈ s.ledger, s.Owed large r → s.since now < r.createdAt)
    {r : MonitoredEntry} (hr : r ∈ s.ledger) (howed : s.Owed large r) :
    let taken := takeDue now (s.findings large before after now seen seen') s.sent
    RowKept large (some now) (forget now taken.2)
        (countAbout (s.alerts ++ [taken.1]) r.entryId) r ∧
      (r ∈ seen → countAbout (s.alerts ++ [taken.1]) r.entryId = 1) := by
  intro taken
  have hrow := h.rows r hr howed
  rw [htold] at hrow
  have hneg := @Kept.found_neg large s now seen seen' before after h hpass.subset r hr
  have hcredit := @Kept.found_credit large s now seen seen' before after h hpass.subset' r hr
  have hcount := countAbout_append s.alerts taken.1 r.entryId
  simp only [taken, exists_about_takeDue, hneg, hcredit] at hcount
  by_cases hwindow : s.since now < r.createdAt
  · by_cases hfound : (r ∈ seen' ∧ r.isCredit large = true) ∨
        (r ∈ seen ∧ isNegativeCharge r = true)
    · -- Whatever the queries make of the row, they both have seen what they take.
      have hseenNeg : isNegativeCharge r = true → r ∈ seen := by
        intro hcharge
        rcases hfound with ⟨hmem, hiscredit⟩ | ⟨hmem, -⟩
        · by_contra hnot
          exact hpass.single r hmem hnot ⟨hcharge, hiscredit⟩
        · exact hmem
      have hseenCredit : r.isCredit large = true → r ∈ seen' := fun _ ↦
        hfound.elim And.left fun hmem ↦ hpass.seen_subset hmem.1
      have hone : countAbout (s.alerts ++ [taken.1]) r.entryId = 1 := by
        rw [hcount]
        by_cases htoldOnce : countAbout s.alerts r.entryId = 1
        · rcases hrow.closed htoldOnce with ⟨c, hc, hbehind⟩ | ⟨hmarkedNeg, hmarkedCredit⟩
          · rw [since, hc] at hwindow
            exact absurd hbehind (not_le.mpr hwindow)
          · rw [if_neg, htoldOnce]
            rintro (⟨⟨-, -, hiscredit⟩, hnone⟩ | ⟨⟨-, -, hcharge⟩, hnone⟩)
            · exact absurd (hmarkedCredit hiscredit) (hnone ▸ Bool.false_ne_true)
            · exact absurd (hmarkedNeg hcharge) (hnone ▸ Bool.false_ne_true)
        · have hzero : countAbout s.alerts r.entryId = 0 := by
            have := hrow.once
            omega
          have hcreditNone := Option.not_isSome_iff_eq_none.mp fun hm ↦ htoldOnce (hrow.credit hm)
          have hnegNone := Option.not_isSome_iff_eq_none.mp fun hm ↦ htoldOnce (hrow.neg hm)
          rw [hzero, if_pos]
          rcases hfound with ⟨hmem, hiscredit⟩ | ⟨hmem, hcharge⟩
          · exact .inl ⟨⟨hmem, hwindow, hiscredit⟩, hcreditNone⟩
          · exact .inr ⟨⟨hmem, hwindow, hcharge⟩, hnegNone⟩
      refine ⟨⟨hone.le, fun _ ↦ ?_, fun _ ↦ hone, fun _ ↦ hone, fun _ _ _ ↦ hone⟩, fun _ ↦ hone⟩
      by_cases hbehind : r.createdAt ≤ now - cursorOverlap
      · exact .inl ⟨now, rfl, hbehind⟩
      · refine .inr ⟨fun hcharge ↦ ?_, fun hiscredit ↦ ?_⟩
        · exact isSome_markedAt_settled (isOnce_neg _)
            (.inr (hneg.mpr ⟨hseenNeg hcharge, hwindow, hcharge⟩))
            (h.recent_or_behind hr hbehind (.inr rfl))
        · exact isSome_markedAt_settled (isOnce_credit _)
            (.inr (hcredit.mpr ⟨hseenCredit hiscredit, hwindow, hiscredit⟩))
            (h.recent_or_behind hr hbehind (.inl rfl))
    · -- The row committed after the first query, so it is in the next window.
      have hunseen : r ∉ seen := by
        intro hmem
        rcases howed.1.selected with hcharge | hiscredit
        · exact hfound (.inr ⟨hmem, hcharge⟩)
        · exact hfound (.inl ⟨hpass.seen_subset hmem, hiscredit⟩)
      have hnext : ¬r.createdAt ≤ now - cursorOverlap := not_le.mpr (hpass.missed r hr hunseen)
      have hsame : countAbout (s.alerts ++ [taken.1]) r.entryId =
          countAbout s.alerts r.entryId := by
        rw [hcount, if_neg, add_zero]
        rintro (⟨⟨hmem, -, hiscredit⟩, -⟩ | ⟨⟨hmem, -, hcharge⟩, -⟩)
        · exact hfound (.inl ⟨hmem, hiscredit⟩)
        · exact hfound (.inr ⟨hmem, hcharge⟩)
      rw [hsame]
      refine ⟨⟨hrow.once, fun hone ↦ ?_, fun hmarked ↦ ?_, fun hmarked ↦ ?_, ?_⟩,
        fun hmem ↦ absurd hmem hunseen⟩
      · rcases hrow.closed hone with ⟨c, hc, hbehind⟩ | ⟨hmarkedNeg, hmarkedCredit⟩
        · rw [since, hc] at hwindow
          exact absurd hbehind (not_le.mpr hwindow)
        · refine .inr ⟨fun hcharge ↦ ?_, fun hiscredit ↦ ?_⟩
          · exact isSome_markedAt_settled (isOnce_neg _) (.inl (hmarkedNeg hcharge))
              (h.recent_or_behind hr hnext (.inr rfl))
          · exact isSome_markedAt_settled (isOnce_credit _) (.inl (hmarkedCredit hiscredit))
              (h.recent_or_behind hr hnext (.inl rfl))
      · obtain ⟨at_, hat⟩ := Option.isSome_iff_exists.mp hmarked
        rcases mem_markedAt_settled (isOnce_credit _) hat with hold | ⟨-, hnew⟩
        · exact hrow.credit (Option.isSome_of_mem hold)
        · obtain ⟨hmem, -, hiscredit⟩ := hcredit.mp hnew
          exact absurd (.inl ⟨hmem, hiscredit⟩) hfound
      · obtain ⟨at_, hat⟩ := Option.isSome_iff_exists.mp hmarked
        rcases mem_markedAt_settled (isOnce_neg _) hat with hold | ⟨-, hnew⟩
        · exact hrow.neg (Option.isSome_of_mem hold)
        · obtain ⟨hmem, -, hcharge⟩ := hneg.mp hnew
          exact absurd (.inr ⟨hmem, hcharge⟩) hfound
      · rintro c hc hbehind
        obtain rfl := Option.some.inj hc
        exact absurd hbehind hnext
  · -- A row behind the window has been told of.
    have hone : countAbout s.alerts r.entryId = 1 := by
      cases hcursor : s.cursor with
      | none => exact absurd (hfirst hcursor r hr howed) hwindow
      | some c =>
        rw [since, hcursor] at hwindow
        exact hrow.behind c hcursor (not_lt.mp hwindow)
    have hone' : countAbout (s.alerts ++ [taken.1]) r.entryId = 1 := by
      rw [hcount, if_neg, hone]
      rintro (⟨⟨-, hin, -⟩, -⟩ | ⟨⟨-, hin, -⟩, -⟩) <;> exact hwindow hin
    have hbehind : r.createdAt ≤ now - cursorOverlap :=
      (not_lt.mp hwindow).trans (since_le hpass.cursor_le)
    exact ⟨⟨hone'.le, fun _ ↦ .inl ⟨now, rfl, hbehind⟩, fun _ ↦ hone', fun _ ↦ hone',
      fun _ _ _ ↦ hone'⟩, fun _ ↦ hone'⟩

theorem Kept.settle (h : Kept large s)
    (hcareful : (MonitorOp.settle before after).Careful large s) :
    Kept large (s.settle large before after) := by
  unfold Monitor.settle
  split
  · next now seen seen' hscanned =>
    have htold : s.told = s.alerts := by rw [told, hscanned]
    have hpass : CreditsKept large now seen seen' s := by
      have := h.pass
      rwa [PassKept, hscanned] at this
    unfold MonitorOp.Careful at hcareful
    rw [hscanned] at hcareful
    have hrow {r : MonitoredEntry} (hr : r ∈ s.ledger) (howed : s.Owed large r) :=
      @Kept.row_settle large s now seen seen' before after h hpass htold hcareful r hr howed
    constructor
    · exact h.unique
    · exact h.past
    · intro c hc
      exact Option.some.inj hc ▸ hpass.before
    · -- Only rows of the ledger are found.
      have hfound (entryId : ℕ)
          (hf : (∃ f ∈ s.findings large before after now seen seen', f.key = .credit entryId) ∨
            ∃ f ∈ s.findings large before after now seen seen', f.key = .neg entryId) :
          ∃ r ∈ s.ledger, r.entryId = entryId := by
        rcases hf with hf | hf
        · obtain ⟨r, hr, -, -, hid⟩ := exists_credit_findings.mp hf
          exact ⟨r, hpass.subset' hr, hid⟩
        · obtain ⟨r, hr, -, -, hid⟩ := exists_neg_findings.mp hf
          exact ⟨r, hpass.subset hr, hid⟩
      rintro entryId (hmarked | hmarked | hcount)
      · obtain ⟨at_, hat⟩ := Option.isSome_iff_exists.mp hmarked
        rcases mem_markedAt_settled (isOnce_credit _) hat with hold | ⟨-, hnew⟩
        · exact h.known entryId (.inl (Option.isSome_of_mem hold))
        · exact hfound entryId (.inl hnew)
      · obtain ⟨at_, hat⟩ := Option.isSome_iff_exists.mp hmarked
        rcases mem_markedAt_settled (isOnce_neg _) hat with hold | ⟨-, hnew⟩
        · exact h.known entryId (.inr (.inl (Option.isSome_of_mem hold)))
        · exact hfound entryId (.inr hnew)
      · obtain ⟨alert, halert, habout⟩ := countAbout_pos.mp hcount
        rcases List.mem_append.mp halert with halert | halert
        · refine h.known entryId (.inr (.inr (countAbout_pos.mpr ⟨alert, ?_, habout⟩)))
          exact htold.symm ▸ halert
        · obtain rfl := List.mem_singleton.mp halert
          rcases exists_about_takeDue.mp habout with ⟨hnew, -⟩ | ⟨hnew, -⟩
          · exact hfound entryId (.inl hnew)
          · exact hfound entryId (.inr hnew)
    · intro alert halert f hf r hr habout
      rcases List.mem_append.mp halert with halert | halert
      · exact h.notable alert (htold.symm ▸ halert) f hf r hr habout
      · obtain rfl := List.mem_singleton.mp halert
        have hfs := mem_of_mem_takeDue hf
        rcases habout with hkey | hkey
        · obtain ⟨hmem, hwindow, hiscredit⟩ :=
            (h.found_credit hpass.subset' hr).mp ⟨f, hfs, hkey⟩
          exact hpass.credit r hmem hwindow hiscredit
        · obtain ⟨hmem, hwindow, hcharge⟩ := (h.found_neg hpass.subset hr).mp ⟨f, hfs, hkey⟩
          exact hpass.charge r hmem hwindow hcharge
    · exact fun r hr howed ↦ (hrow hr howed).1
    · intro r hr key hkey at_ hat
      have honce : IsOnce key := by
        rcases hkey with rfl | rfl
        · exact isOnce_credit _
        · exact isOnce_neg _
      rcases mem_markedAt_settled honce hat with hold | ⟨rfl, hnew⟩
      · exact h.lasting r hr key hkey at_ hold
      · rcases hkey with rfl | rfl
        · exact hpass.recent r ((h.found_credit hpass.subset' hr).mp hnew).1
        · exact hpass.recent r (hpass.seen_subset ((h.found_neg hpass.subset hr).mp hnew).1)
    · exact h.covered
    · exact ⟨hpass.subset, fun r hr howed ↦ (hrow (hpass.subset hr) howed).2 hr⟩
  · exact h

end Settle

/-! ### The alert is handed over, or the pass dies -/

theorem Kept.send (h : Kept large s) : Kept large s.send := by
  unfold Monitor.send
  split
  · next seen new hcommitted =>
    have htold : s.told = s.alerts ++ [new] := by rw [told, hcommitted]
    have hpass := h.pass
    rw [PassKept, hcommitted] at hpass
    obtain ⟨hsubset, hseen⟩ := hpass
    -- An alert without findings tells of nothing.
    have hcount (entryId : ℕ) : countAbout (if new = [] then s.alerts else s.alerts ++ [new])
        entryId = countAbout s.told entryId := by
      rw [htold]
      split
      · next hnil =>
        rw [countAbout_append, if_neg, add_zero]
        rintro ⟨f, hf, -⟩
        exact absurd (hnil ▸ hf) List.not_mem_nil
      · rfl
    have hmem : ∀ alert ∈ (if new = [] then s.alerts else s.alerts ++ [new]),
        alert ∈ s.told := by
      intro alert halert
      rw [htold]
      split at halert
      · exact List.mem_append_left _ halert
      · exact halert
    exact
      { unique := h.unique
        past := h.past
        cursor_lt := h.cursor_lt
        known := fun entryId hknown ↦ h.known entryId
          (hknown.imp_right (Or.imp_right fun hpos ↦ (hcount entryId) ▸ hpos))
        notable := fun alert halert ↦ h.notable alert (hmem alert halert)
        rows := fun r hr howed ↦ by
          have hrow := h.rows r hr howed
          rw [← hcount] at hrow
          exact hrow
        lasting := h.lasting
        covered := fun r hr ↦ ⟨hsubset hr, fun howed ↦ by
          rw [hcount, htold]
          exact hseen r hr howed⟩
        pass := trivial }
  · exact h

theorem Kept.die (h : Kept large s) (hcareful : MonitorOp.die.Careful large s) :
    Kept large { s with pass := .idle } := by
  by_cases hcommitted : ∃ seen new, s.pass = .committed seen new
  · obtain ⟨seen, new, hpass⟩ := hcommitted
    have htold : s.told = s.alerts ++ [new] := by rw [told, hpass]
    unfold MonitorOp.Careful at hcareful
    rw [hpass] at hcareful
    exact
      { unique := h.unique
        past := h.past
        cursor_lt := h.cursor_lt
        known := fun entryId hknown ↦ h.known entryId
          (hknown.imp_right (Or.imp_right fun hpos ↦ by
            rw [htold, countAbout_append]
            exact Nat.add_pos_left hpos _))
        notable := fun alert halert ↦ h.notable alert (htold ▸ List.mem_append_left _ halert)
        rows := fun r hr howed ↦ by
          have hrow := h.rows r hr howed
          rw [htold, countAbout_append, if_neg, add_zero] at hrow
          · exact hrow
          · rintro ⟨f, hf, habout⟩
            exact hcareful r hr howed f hf habout
        lasting := h.lasting
        covered := h.covered
        pass := trivial }
  · have htold : s.told = s.alerts := by
      unfold told
      split
      · next seen new hpass => exact absurd ⟨seen, new, hpass⟩ hcommitted
      · rfl
    exact h.reposition rfl rfl rfl htold.symm rfl rfl le_rfl (fun _ _ ↦ id) trivial

theorem Kept.exec (h : Kept large s) {op : MonitorOp} (hcareful : op.Careful large s) :
    Kept large (op.exec large s) := by
  cases op with
  | elapse span hspan => exact h.elapse hspan
  | record entry age hage => exact h.record hage hcareful
  | start wait hwait => exact h.start hwait
  | scanCharges => exact h.scanCharges hcareful
  | scanCredits => exact h.scanCredits hcareful
  | settle before after => exact h.settle hcareful
  | send => exact h.send
  | die => exact h.die hcareful

end Monitor

/-- In every run whose steps are careful, what is worth reporting is reported once and nothing
else is. -/
theorem movements_reported_once (large : ℤ) (s : Monitor)
    (h : Steps (MonitorOp.exec large) (MonitorOp.Careful large) .empty s) : s.ReportsOnce large :=
  (h.invariant (fun _ _ hkept hcareful ↦ hkept.exec hcareful) Monitor.kept_empty).reportsOnce

/-! ### A top-up that does not clear a debt -/

/-- A pass from its beginning to its end. -/
def wholePass : List MonitorOp :=
  [.start 1 one_pos, .scanCharges, .scanCredits, .settle [] [], .send]

/-- A row commits, ten seconds after it was created. -/
def recorded (entry : MonitoredEntry) : MonitorOp :=
  .record entry 10 ⟨by decide +kernel, by decide +kernel⟩

/-- Fifty dollars by hand. -/
def creditByHand : MonitoredEntry := ⟨1, 7, 5000, 5000, "topup".toList, none, 0⟩

/-- A dollar by card, on an account that owes ten. -/
def topUpInDebt : MonitoredEntry :=
  ⟨1, 7, 100, -900, "topup".toList, some "stripe:pi_1".toList, 0⟩

/-- The first pass, and the next after a row was added. -/
def twoPasses (entry : MonitoredEntry) : List MonitorOp :=
  wholePass ++ [.elapse 300 (by decide +kernel), recorded entry] ++ wholePass

theorem movements_reported_once_credit :
    (Steps.replay (MonitorOp.exec 10000) .empty (twoPasses creditByHand)).alerts.length = 1 ∧
      (Steps.replay (MonitorOp.exec 10000) .empty (twoPasses creditByHand)).ReportsOnce 10000 :=
  ⟨by decide +kernel, movements_reported_once 10000 _
    (Steps.of_admits _ (MonitorOp.Careful 10000) _ _ (by decide +kernel))⟩

/-- The top-up is reported as a charge. -/
theorem top_up_reported_as_charge : ¬∀ (large : ℤ) (s : Monitor),
    Steps (MonitorOp.exec large) (fun _ _ ↦ True) .empty s → s.ReportsOnce large := by
  intro h
  have hreports := h 10000 _ (Steps.of_admits (MonitorOp.exec 10000) (fun _ _ ↦ True) .empty
    (twoPasses topUpInDebt) (by decide +kernel))
  have habout : ∃ alert ∈ (Steps.replay (MonitorOp.exec 10000) .empty
      (twoPasses topUpInDebt)).alerts, ∃ f ∈ alert, ∃ r ∈ (Steps.replay (MonitorOp.exec 10000)
        .empty (twoPasses topUpInDebt)).ledger, f.About r.entryId ∧ ¬r.Notable 10000 := by
    decide +kernel
  obtain ⟨alert, halert, f, hf, r, hr, hof, hnot⟩ := habout
  exact hnot (hreports.nothingElse alert halert f hf r hr hof)

end GreenCompute
