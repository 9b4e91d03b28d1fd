import GreenCompute.Billing.Statements
import Mathlib.Tactic.IntervalCases

/-!
# Statements add up

Each row of the range is in one group of the scan and each group of the scan in one group of
`_groups`, so a figure added up over the groups is the figure added up over the rows. Every total of
a summary or a statement is such a sum, whatever the labels say, and the balances are differences of
sums over the ledger.
-/

namespace GreenCompute

open Statements Table

variable {env : StatementEnv} {db : StatementDb} {user : UserId}

/-! ## Through both groupings -/

/-- The cents of some rows. -/
def centsOf (rows : List (EntryId × StatementEntry)) : ℤ :=
  (rows.map fun r ↦ r.2.amountCents).sum

/-- The scan's groups of some rows. -/
def scanned (rows : List (EntryId × StatementEntry)) : Table ChargeKey ChargeGroup :=
  Table.accumulate (fun r : EntryId × StatementEntry ↦ r.2.chargeKey) (fun r ↦ .none r.2)
    (fun r ↦ .add r.2) .empty rows

@[simp] theorem addCharges_cents (r : ChargeKey × ChargeGroup) (g : Group) :
    (addCharges env r g).cents = g.cents - r.2.cents := by
  unfold addCharges addHours
  dsimp only
  split
  · split <;> rfl
  · split
    · split <;> rfl
    · rfl

@[simp] theorem addCharges_rows (r : ChargeKey × ChargeGroup) (g : Group) :
    (addCharges env r g).rows = g.rows + r.2.rows := by
  unfold addCharges addHours
  dsimp only
  split
  · split <;> rfl
  · split
    · split <;> rfl
    · rfl

theorem sum_map_neg {α : Type} (f : α → ℤ) (l : List α) :
    (l.map fun a ↦ -f a).sum = -(l.map f).sum := by
  rw [List.sum_neg, List.map_map]
  rfl

/-- A figure of the scan's groups for the keys of a kind is that of the rows. -/
theorem total_scanned (p : ChargeKey → Bool) {f : ChargeGroup → ℤ} {v : StatementEntry → ℤ}
    (hstart : ∀ e, f (.none e) = 0) (hadd : ∀ e c, f (.add e c) = f c + v e)
    (rows : List (EntryId × StatementEntry)) :
    ((scanned rows).total fun k c ↦ if p k then f c else 0) =
      ((rows.filter fun r ↦ p r.2.chargeKey).map fun r ↦ v r.2).sum := by
  rw [sum_filter_map, scanned,
    total_accumulate (v := fun r ↦ if p r.2.chargeKey then v r.2 else 0), total_empty, zero_add]
  · intro r
    rw [hstart]
    exact ite_self 0
  · intro r c
    rw [hadd]
    split
    · rfl
    · rfl

/-- A figure of the groups for the keys of a kind is that of the scan's groups. -/
theorem total_groups (p : GroupKey → Bool) {f : Group → ℤ} {v : ChargeGroup → ℤ}
    (metered : List (ChargeKey × ChargeGroup)) (hstart : ∀ r, f (newGroup env metered r) = 0)
    (hadd : ∀ r g, f (addCharges env r g) = f g + v r.2) :
    ((groups env metered).total fun k g ↦ if p k then f g else 0) =
      (metered.map fun r ↦ if p r.1.groupKey then v r.2 else 0).sum := by
  rw [groups, total_accumulate (v := fun r ↦ if p r.1.groupKey then v r.2 else 0), total_empty,
    zero_add]
  · intro r
    rw [hstart]
    exact ite_self 0
  · intro r g
    rw [hadd]
    split
    · rfl
    · rfl

section groups

variable {rows : List (EntryId × StatementEntry)} {k : GroupKey} {g : Group}

/-- The cents of the groups of a kind are what the rows of that kind were charged. -/
theorem cents_groups (env : StatementEnv) (rows : List (EntryId × StatementEntry))
    (p : GroupKey → Bool) :
    ((groups env (scanned rows).rows).total fun k g ↦ if p k then g.cents else 0) =
      -centsOf (rows.filter fun r ↦ p r.2.chargeKey.groupKey) := by
  have hscanned := total_scanned (fun k ↦ p k.groupKey) (f := fun c ↦ -c.cents)
    (v := fun e ↦ -e.amountCents) (fun _ ↦ rfl) (fun e c ↦ neg_add c.cents e.amountCents) rows
  rw [total_groups (f := Group.cents) p (v := fun c ↦ -c.cents)]
  · rw [centsOf, ← sum_map_neg]
    exact hscanned
  · exact fun _ ↦ rfl
  · intro r g
    rw [addCharges_cents, sub_eq_add_neg]

/-- A group is charged what its rows say. -/
theorem cents_of_group (h : (groups env (scanned rows).rows).get? k = some g) :
    g.cents = -centsOf (rows.filter fun r ↦ r.2.chargeKey.groupKey = k) := by
  rw [← total_ite_eq (f := Group.cents) h]
  have hgroups := cents_groups env rows fun k' ↦ k' = k
  simpa only [decide_eq_true_eq] using hgroups

/-- A group counts its rows. -/
theorem rows_of_group (h : (groups env (scanned rows).rows).get? k = some g) :
    g.rows = (rows.filter fun r ↦ r.2.chargeKey.groupKey = k).length := by
  have hscanned := total_scanned (fun k' ↦ k'.groupKey = k) (f := fun c ↦ (c.rows : ℤ))
    (v := fun _ ↦ 1) (fun _ ↦ rfl) (fun _ c ↦ Nat.cast_succ c.rows) rows
  have hadd (r : ChargeKey × ChargeGroup) (g : Group) :
      ((addCharges env r g).rows : ℤ) = g.rows + r.2.rows := by
    rw [addCharges_rows, Nat.cast_add]
  have hgroups := total_groups (f := fun g ↦ (g.rows : ℤ)) (v := fun c ↦ (c.rows : ℤ))
    (fun k' ↦ k' = k) (scanned rows).rows (fun _ ↦ rfl) hadd
  have hgroup := total_ite_eq (f := fun g ↦ (g.rows : ℤ)) h
  simp only [decide_eq_true_eq] at hgroups hscanned
  rw [hgroup] at hgroups
  have hlength : (g.rows : ℤ) = ((rows.filter fun r ↦ r.2.chargeKey.groupKey = k).map fun _ ↦
    (1 : ℤ)).sum := hgroups.trans hscanned
  rw [List.map_const', List.sum_replicate, nsmul_one] at hlength
  exact_mod_cast hlength

/-- Every row is in the group of its key. -/
theorem group_of_row {r : EntryId × StatementEntry} (h : r ∈ rows) :
    r.2.chargeKey.groupKey ∈ (groups env (scanned rows).rows).rows.map Prod.fst := by
  rw [mem_keys_iff, groups, isSome_get?_accumulate]
  have hscanned : ((scanned rows).get? r.2.chargeKey).isSome = true := by
    rw [scanned, isSome_get?_accumulate]
    exact .inr ⟨r, h, rfl⟩
  obtain ⟨c, hc⟩ := Option.isSome_iff_exists.mp hscanned
  exact .inr ⟨(r.2.chargeKey, c), mem_rows_iff.mpr hc, rfl⟩

end groups

/-! ## Balances -/

section balances

variable {since untilTime : Time}

theorem total_eq_sum (user : UserId) (during : Time → Bool) : db.total user during =
    (db.ledger.rows.map fun r ↦
      if r.2.userId = user ∧ during r.2.createdAt = true then r.2.amountCents else 0).sum := rfl

/-- The rows of a range are what its total sums. -/
theorem centsOf_range (since untilTime : Time) :
    centsOf (db.range user since untilTime) =
      db.total user fun t ↦ since ≤ t ∧ t < untilTime := by
  rw [centsOf, StatementDb.range, Table.select, sum_filter_map, total_eq_sum]
  simp only [decide_eq_true_eq]

/-- The metered rows of a range and the other ones are all its rows. -/
theorem centsOf_split (rows : List (EntryId × StatementEntry)) :
    centsOf (rows.filter fun r ↦ r.2.kind ∈ meteredKinds) +
      centsOf (rows.filter fun r ↦ r.2.kind ∉ meteredKinds) = centsOf rows := by
  have hsplit := List.sum_map_filter_add_sum_map_filter_not
    (fun r : EntryId × StatementEntry ↦ r.2.kind ∈ meteredKinds) (fun r ↦ r.2.amountCents) rows
  exact hsplit

theorem entries_perm (db : StatementDb) (user : UserId) (since untilTime : Time) :
    (db.spendingRows user since untilTime).entries.Perm
      ((db.range user since untilTime).filter fun r ↦ r.2.kind ∉ meteredKinds) :=
  List.mergeSort_perm _ _

theorem metered_eq : (db.spendingRows user since untilTime).metered =
    (scanned ((db.range user since untilTime).filter fun r ↦ r.2.kind ∈ meteredKinds)).rows := rfl

/-- What the balance changes by in a range is what its rows sum to. -/
theorem closing_sub_opening (db : StatementDb) (user : UserId) (since untilTime : Time) :
    (db.spendingRows user since untilTime).closingCents -
      (db.spendingRows user since untilTime).openingCents =
        centsOf (db.range user since untilTime) := by
  rw [centsOf_range]
  exact sub_sub_cancel _ _

/-- The rows of a range sum to its entries less what its groups were charged. -/
theorem centsOf_range_eq (env : StatementEnv) (db : StatementDb) (user : UserId)
    (since untilTime : Time) :
    centsOf (db.range user since untilTime) =
      centsOf (db.spendingRows user since untilTime).entries -
        (groups env (db.spendingRows user since untilTime).metered).total fun _ g ↦ g.cents := by
  have hentries := (entries_perm db user since untilTime).map fun r ↦ r.2.amountCents
  have hgroups := cents_groups env
    ((db.range user since untilTime).filter fun r ↦ r.2.kind ∈ meteredKinds) fun _ ↦ true
  simp only [if_true, List.filter_true] at hgroups
  rw [metered_eq, hgroups, sub_neg_eq_add, add_comm, ← centsOf_split]
  exact congrArg (_ + ·) hentries.sum_eq.symm

/-- The sums of two times that do not meet. -/
theorem total_add (db : StatementDb) (user : UserId) {p q r : Time → Bool}
    (hunion : ∀ t, r t = (p t || q t))
    (hdisjoint : ∀ t, p t = true → q t = false) :
    db.total user p + db.total user q = db.total user r := by
  rw [total_eq_sum, total_eq_sum, total_eq_sum, ← List.sum_map_add]
  congr 1
  refine List.map_congr_left fun row _ ↦ ?_
  rw [hunion]
  by_cases huser : row.2.userId = user
  · by_cases hp : p row.2.createdAt = true
    · simp [huser, hp, hdisjoint _ hp]
    · simp [huser, hp]
  · simp [huser]

/-- One range begins with the balance that the one before it ends with. -/
theorem opening_eq_closing (db : StatementDb) (user : UserId) (since : Time) {until' : Time}
    (h : untilTime ≤ until') :
    (db.spendingRows user untilTime until').openingCents =
      (db.spendingRows user since untilTime).closingCents := by
  have hsplit := total_add db user (p := fun t ↦ untilTime ≤ t ∧ t < until')
    (q := fun t ↦ until' ≤ t) (r := fun t ↦ untilTime ≤ t) (fun t ↦ ?_) fun t ht ↦ ?_
  · change _ - _ - _ = _ - _
    rw [sub_sub, add_comm, hsplit]
  · rw [Bool.eq_iff_iff, Bool.or_eq_true, decide_eq_true_eq, decide_eq_true_eq, decide_eq_true_eq]
    constructor
    · intro hsince
      rcases lt_or_ge t until' with hlt | hge
      · exact .inl ⟨hsince, hlt⟩
      · exact .inr hge
    · rintro (hrange | hlater)
      · exact hrange.1
      · exact h.trans hlater
  · exact decide_eq_false (not_le.mpr (of_decide_eq_true ht).2)

/-- Where the balance is the sum of the rows, a range opens with the sum of the rows before it. -/
theorem opening_eq_total (hbalance : (db.balances.get? user).getD 0 = db.total user fun _ ↦ true)
    (h : since ≤ untilTime) :
    (db.spendingRows user since untilTime).openingCents = db.total user fun t ↦ t < since := by
  have hlater := total_add db user (p := fun t ↦ t < untilTime)
    (q := fun t ↦ untilTime ≤ t) (r := fun _ ↦ true) (fun t ↦ ?_) fun t ht ↦ ?_
  · have hrange := total_add db user (p := fun t ↦ t < since)
      (q := fun t ↦ since ≤ t ∧ t < untilTime) (r := fun t ↦ t < untilTime) (fun t ↦ ?_)
      fun t ht ↦ ?_
    · change (db.balances.get? user).getD 0 - _ - _ = _
      rw [hbalance, ← hlater, ← hrange]
      ring
    · rw [Bool.eq_iff_iff, Bool.or_eq_true, decide_eq_true_eq, decide_eq_true_eq,
        decide_eq_true_eq]
      constructor
      · intro huntil
        rcases lt_or_ge t since with hlt | hge
        · exact .inl hlt
        · exact .inr ⟨hge, huntil⟩
      · rintro (hbefore | hrange)
        · exact hbefore.trans_le h
        · exact hrange.2
    · exact decide_eq_false fun hrange ↦ not_le.mpr (of_decide_eq_true ht) hrange.1
  · rcases lt_or_ge t untilTime with hlt | hge
    · simp [hlt]
    · simp [hge]
  · exact decide_eq_false (not_le.mpr (of_decide_eq_true ht))

end balances

/-! ## The summary -/

section summary

variable {entries : List (EntryId × StatementEntry)} {gs : List (GroupKey × Group)}

theorem addGroup_eq (g : Group) (d : DayTotals) :
    (d.addGroup g).charged = d.charged + g.cents ∧ (d.addGroup g).toppedUp = d.toppedUp ∧
      (d.addGroup g).adjustments = d.adjustments := by
  unfold DayTotals.addGroup DayTotals.addToCategory
  cases g.category <;> exact ⟨rfl, rfl, rfl⟩

theorem addEntry_eq (e : StatementEntry) (d : DayTotals) :
    (d.addEntry e).charged = d.charged ∧ (d.addEntry e).toppedUp + (d.addEntry e).adjustments =
      d.toppedUp + d.adjustments + e.amountCents := by
  unfold DayTotals.addEntry
  split
  · exact ⟨rfl, by ring⟩
  · exact ⟨rfl, by ring⟩

/-- A figure of the days that grows with every entry and every group. -/
theorem total_days {f : DayTotals → ℤ} {v : StatementEntry → ℤ} {w : Group → ℤ}
    (hblank : f .blank = 0) (hentry : ∀ e d, f (d.addEntry e) = f d + v e)
    (hgroup : ∀ g d, f (d.addGroup g) = f d + w g) :
    ((dayTotals entries gs).total fun _ d ↦ f d) =
      (entries.map fun r ↦ v r.2).sum + (gs.map fun r ↦ w r.2).sum := by
  rw [dayTotals, total_accumulate (v := fun r ↦ w r.2) (fun _ ↦ hblank) fun r d ↦ hgroup r.2 d,
    total_accumulate (v := fun r ↦ v r.2) (fun _ ↦ hblank) fun r d ↦ hentry r.2 d, total_empty,
    zero_add]

theorem charged_days : ((dayTotals entries gs).total fun _ d ↦ d.charged) =
    (gs.map fun r ↦ r.2.cents).sum := by
  rw [total_days (v := fun _ ↦ 0) (w := Group.cents) rfl
    (fun e d ↦ ((addEntry_eq e d).1).trans (add_zero _).symm) fun g d ↦ (addGroup_eq g d).1]
  simp

theorem credited_days : ((dayTotals entries gs).total fun _ d ↦ d.toppedUp + d.adjustments) =
    centsOf entries := by
  rw [total_days (v := StatementEntry.amountCents) (w := fun _ ↦ 0) rfl
    (fun e d ↦ (addEntry_eq e d).2) fun g d ↦ by
      rw [(addGroup_eq g d).2.1, (addGroup_eq g d).2.2, add_zero]]
  simp [centsOf]

/-- The charges of a day are those of its categories. -/
def DayTotals.AddUp (d : DayTotals) : Prop :=
  d.charged = d.gpuRentals + d.privateModels + d.storage + d.sharedModels

theorem addUp_blank : DayTotals.blank.AddUp := rfl

theorem addUp_addEntry {d : DayTotals} (h : d.AddUp) (e : StatementEntry) :
    (d.addEntry e).AddUp := by
  unfold DayTotals.addEntry
  split
  · exact h
  · exact h

theorem addUp_addGroup {d : DayTotals} (h : d.AddUp) (g : Group) : (d.addGroup g).AddUp := by
  unfold DayTotals.AddUp at *
  unfold DayTotals.addGroup DayTotals.addToCategory
  dsimp only
  split <;> dsimp only <;> rw [h] <;> ring

theorem day_addUp : ∀ date d, (dayTotals entries gs).get? date = some d → d.AddUp := by
  unfold dayTotals
  refine forall_accumulate (P := fun _ ↦ DayTotals.AddUp) (fun _ ↦ addUp_blank)
    (fun r d hd ↦ addUp_addGroup hd r.2) gs ?_
  exact forall_accumulate (P := fun _ ↦ DayTotals.AddUp) (fun _ ↦ addUp_blank)
    (fun r d hd ↦ addUp_addEntry hd r.2) entries fun _ _ h ↦ nomatch h

/-- The deployments were charged what the groups were that are not of shared models. -/
theorem total_deployments : ((deploymentTotals gs).total fun _ e ↦ e.totalCents) =
    ((gs.filter fun r ↦ r.1.kind ≠ "inference".toList).map fun r ↦ r.2.cents).sum := by
  rw [deploymentTotals, total_accumulate (v := fun r ↦ r.2.cents) (fun _ ↦ rfl), total_empty,
    zero_add]
  intro r e
  unfold DeploymentTotals.addGroup DeploymentTotals.totalCents
  dsimp only
  split
  · dsimp only
    ring
  · dsimp only
    ring

end summary

theorem usd_add (a b : ℤ) : usd (a + b) = usd a + usd b := by
  simp only [usd]
  push_cast
  ring

theorem usd_sub (a b : ℤ) : usd (a - b) = usd a - usd b := by
  simp only [usd]
  push_cast
  ring

theorem usd_sum {α : Type} (l : List α) (f : α → ℤ) :
    (l.map fun a ↦ usd (f a)).sum = usd (l.map f).sum := by
  induction l with
  | nil => simp [usd]
  | cons a l ih => rw [List.map_cons, List.sum_cons, ih, List.map_cons, List.sum_cons, usd_add]

/-- What a summary promises. -/
structure SpendingSummary.AddsUp (s : SpendingSummary) : Prop where
  balances : s.openingBalanceUsd + (s.toppedUpUsd + s.adjustmentsUsd) - s.chargedUsd =
    s.closingBalanceUsd
  days : ∀ d ∈ s.days,
    d.chargedUsd = d.gpuRentalsUsd + d.privateModelsUsd + d.storageUsd + d.sharedModelsUsd
  charged : s.chargedUsd =
    (s.deployments.map SummaryDeployment.totalUsd).sum + s.sharedModelsUsd
  daily : s.chargedUsd = (s.days.map SummaryDay.chargedUsd).sum

/-- Every summary adds up. -/
theorem summary_adds_up (env : StatementEnv) (db : StatementDb) (user : UserId) (first last : Day) :
    (spendingSummary env db user first last).AddsUp := by
  let rows := db.spendingRows user (midnight first) (midnight (last + 1))
  let gs := (groups env rows.metered).rows
  have hcharged : ((dayTotals rows.entries gs).rows.map fun r ↦ r.2.charged).sum =
      (gs.map fun r ↦ r.2.cents).sum := charged_days
  constructor
  · have hcredited : ((dayTotals rows.entries gs).rows.map fun r ↦
        r.2.toppedUp + r.2.adjustments).sum = centsOf rows.entries := credited_days
    have hbalance := closing_sub_opening db user (midnight first) (midnight (last + 1))
    rw [centsOf_range_eq env] at hbalance
    rw [List.sum_map_add] at hcredited
    change usd rows.openingCents + (usd _ + usd _) - usd _ = usd rows.closingCents
    rw [hcharged, ← usd_add, hcredited, ← usd_add]
    have hcents : rows.closingCents =
        rows.openingCents + centsOf rows.entries - (gs.map fun r ↦ r.2.cents).sum := by
      change _ - _ = _ - (gs.map fun r ↦ r.2.cents).sum at hbalance
      linarith
    rw [hcents, usd_sub]
  · intro d hd
    obtain ⟨r, hr, rfl⟩ := List.mem_map.mp hd
    have hget := mem_rows_iff.mp ((List.mergeSort_perm _ _).mem_iff.mp hr)
    have haddUp := day_addUp r.1 r.2 hget
    change usd r.2.charged = usd _ + usd _ + usd _ + usd _
    rw [haddUp, usd_add, usd_add, usd_add]
  · have hdeployments : ((deploymentTotals gs).rows.map fun r ↦ r.2.totalCents).sum =
        ((gs.filter fun r ↦ r.1.kind ≠ "inference".toList).map fun r ↦ r.2.cents).sum :=
      total_deployments
    have hsplit := List.sum_map_filter_add_sum_map_filter_not
      (fun r : GroupKey × Group ↦ r.1.kind = "inference".toList) (fun r ↦ r.2.cents) gs
    have hsorted : ((spendingSummary env db user first last).deployments.map
        SummaryDeployment.totalUsd).sum =
        usd ((deploymentTotals gs).rows.map fun r ↦ r.2.totalCents).sum := by
      have hperm := (List.mergeSort_perm ((deploymentTotals gs).rows.map fun r ↦
        r.2.summaryDeployment r.1) fun d d' ↦ d'.totalCents < d.totalCents ∨
          d.totalCents = d'.totalCents ∧ ¬d'.info.name < d.info.name).map SummaryDeployment.totalUsd
      rw [← usd_sum]
      refine hperm.sum_eq.trans ?_
      rw [List.map_map]
      rfl
    rw [hsorted, hdeployments]
    change usd _ = usd _ + usd _
    rw [hcharged, ← usd_add, ← hsplit, add_comm]
  · have hperm := (List.mergeSort_perm (dayTotals rows.entries gs).rows fun r r' ↦
      decide (r.1 ≤ r'.1)).map fun r ↦ (r.2.summaryDay r.1).chargedUsd
    change usd _ = ((List.mergeSort _ _).map _ |>.map _).sum
    rw [List.map_map, ← usd_sum]
    exact hperm.sum_eq.symm

/-! ## The statement -/

section statement

variable {since untilTime : Time}

/-- What a line says of the rows that it counts. -/
structure StatementLine.Counts (l : StatementLine) (block : List (EntryId × StatementEntry)) :
    Prop where
  nonempty : block ≠ []
  amount : l.amountCents = centsOf block
  date : ∀ r ∈ block, utcDay r.2.createdAt = l.date
  alike : ∀ r ∈ block, ∀ r' ∈ block, r.2.kind = r'.2.kind
  requests : ∀ n, l.quantity = some (.requests n) → n = block.length

/-- The line of a group counts the rows of its key. -/
theorem counts_group {rows : List (EntryId × StatementEntry)} {k : GroupKey} {g : Group}
    (h : (groups env (scanned rows).rows).get? k = some g) :
    (g.line k).Counts (rows.filter fun r ↦ r.2.chargeKey.groupKey = k) where
  nonempty := by
    have hkey : ((groups env (scanned rows).rows).get? k).isSome = true := by rw [h]; rfl
    rw [groups, isSome_get?_accumulate] at hkey
    obtain ⟨r, hr, hk⟩ := hkey.resolve_left (by simp)
    have hscanned : ((scanned rows).get? r.1).isSome = true := by
      rw [mem_rows_iff.mp hr]
      rfl
    rw [scanned, isSome_get?_accumulate] at hscanned
    obtain ⟨row, hrow, hkey⟩ := hscanned.resolve_left (by simp)
    refine List.ne_nil_of_mem (List.mem_filter.mpr ⟨hrow, decide_eq_true ?_⟩)
    rw [← hk, hkey]
  amount := by
    change -g.cents = _
    rw [cents_of_group h, neg_neg]
  date r hr := by
    have hk := of_decide_eq_true (List.mem_filter.mp hr).2
    change _ = k.day
    rw [← hk]
    rfl
  alike r hr r' hr' := by
    have hk := of_decide_eq_true (List.mem_filter.mp hr).2
    have hk' := of_decide_eq_true (List.mem_filter.mp hr').2
    exact congrArg GroupKey.kind (hk.trans hk'.symm)
  requests n hn := by
    have hrows : n = g.rows := by
      change g.quantity k.kind = _ at hn
      unfold Group.quantity at hn
      split at hn
      · cases hn
      · split at hn
        · cases hn
        · split at hn
          · exact (Quantity.requests.inj (Option.some.inj hn)).symm
          · cases hn
    rw [hrows, rows_of_group h]

theorem counts_entry (r : EntryId × StatementEntry) : r.2.line.Counts [r] where
  nonempty := List.cons_ne_nil _ _
  amount := by simp [centsOf, StatementEntry.line]
  date r' hr' := by
    obtain rfl := List.mem_singleton.mp hr'
    rfl
  alike a ha b hb := by
    obtain rfl := List.mem_singleton.mp ha
    obtain rfl := List.mem_singleton.mp hb
    rfl
  requests n hn := nomatch hn

/-- The lines of some spending with the rows that each counts. -/
def counted (env : StatementEnv) (db : StatementDb) (user : UserId) (since untilTime : Time) :
    List (StatementLine × List (EntryId × StatementEntry)) :=
  let rows := db.spendingRows user since untilTime
  let metered := (db.range user since untilTime).filter fun r ↦ r.2.kind ∈ meteredKinds
  ((groups env rows.metered).rows.map fun r ↦
      (r.2.line r.1, metered.filter fun row ↦ row.2.chargeKey.groupKey = r.1)) ++
    rows.entries.map fun r ↦ (r.2.line, [r])

theorem map_fst_counted : (counted env db user since untilTime).map Prod.fst =
    lines env (db.spendingRows user since untilTime) := by
  rw [counted, lines, List.map_append, List.map_map, List.map_map]
  rfl

theorem counts_of_counted : ∀ p ∈ counted env db user since untilTime, p.1.Counts p.2 := by
  intro p hp
  rcases List.mem_append.mp hp with hp | hp
  · obtain ⟨⟨k, g⟩, hr, rfl⟩ := List.mem_map.mp hp
    exact counts_group (mem_rows_iff.mp hr)
  · obtain ⟨r, -, rfl⟩ := List.mem_map.mp hp
    exact counts_entry r

/-- Every row of the range is counted once. -/
theorem flatMap_counted : ((counted env db user since untilTime).flatMap Prod.snd).Perm
    (db.range user since untilTime) := by
  have hmetered := perm_flatMap_filter
    (fun r : EntryId × StatementEntry ↦ r.2.chargeKey.groupKey)
    (groups env (db.spendingRows user since untilTime).metered).nodup
    ((db.range user since untilTime).filter fun r ↦ r.2.kind ∈ meteredKinds) fun r hr ↦
      group_of_row hr
  have hsplit := List.filter_append_perm
    (fun r : EntryId × StatementEntry ↦ r.2.kind ∈ meteredKinds) (db.range user since untilTime)
  rw [counted, List.flatMap_append, List.flatMap_map, List.flatMap_map]
  rw [List.flatMap_map] at hmetered
  have hentries : ((db.spendingRows user since untilTime).entries.flatMap fun r ↦ [r]).Perm
      ((db.range user since untilTime).filter fun r ↦ r.2.kind ∉ meteredKinds) := by
    rw [List.flatMap_singleton']
    exact entries_perm db user since untilTime
  refine (hmetered.append hentries).trans ?_
  simpa only [decide_not] using hsplit

/-- The credits less the charges of some lines are their sum. -/
theorem credits_sub_charges (l : List StatementLine) :
    ((l.filter fun x ↦ 0 < x.amountCents).map StatementLine.amountCents).sum -
      -((l.filter fun x ↦ x.amountCents < 0).map StatementLine.amountCents).sum =
        (l.map StatementLine.amountCents).sum := by
  rw [sub_neg_eq_add, sum_filter_map, sum_filter_map, ← List.sum_map_add]
  congr 1
  refine List.map_congr_left fun x _ ↦ ?_
  simp only [decide_eq_true_eq]
  rcases lt_trichotomy x.amountCents 0 with hneg | hzero | hpos
  · rw [if_neg (not_lt.mpr hneg.le), if_pos hneg, zero_add]
  · rw [if_neg (not_lt.mpr hzero.le), if_neg (not_lt.mpr hzero.ge), hzero, add_zero]
  · rw [if_pos hpos, if_neg (not_lt.mpr hpos.le), add_zero]

/-- What a statement promises of the rows of its range. -/
structure MonthlyStatement.Reconciles (s : MonthlyStatement)
    (range : List (EntryId × StatementEntry)) : Prop where
  balances : s.openingBalanceCents + s.creditsCents - s.chargesCents = s.closingBalanceCents
  lines : s.closingBalanceCents =
    s.openingBalanceCents + (s.lines.map StatementLine.amountCents).sum
  once : ∃ counted : List (StatementLine × List (EntryId × StatementEntry)),
    counted.map Prod.fst = s.lines ∧ (∀ p ∈ counted, p.1.Counts p.2) ∧
      (counted.flatMap Prod.snd).Perm range ∧ (counted.flatMap Prod.snd).Nodup

theorem nodup_range : (db.range user since untilTime).Nodup :=
  (db.ledger.nodup_select _).of_map _

/-- Every statement reconciles with the rows of its range. -/
theorem statement_reconciles (env : StatementEnv) (db : StatementDb) (user : UserId)
    (first next : Day) : (statement env db user first next).Reconciles
      (db.range user (midnight first) (midnight next)) := by
  let pairs := (counted env db user (midnight first) (midnight next)).mergeSort fun p p' ↦
    p.1.le p'.1
  have hpairs : pairs.Perm (counted env db user (midnight first) (midnight next)) :=
    List.mergeSort_perm _ _
  have hlines : pairs.map Prod.fst = (statement env db user first next).lines := by
    rw [statement, ← map_fst_counted]
    exact List.map_mergeSort fun _ _ _ _ ↦ rfl
  have hcounts : ∀ p ∈ pairs, p.1.Counts p.2 := fun p hp ↦
    counts_of_counted p (hpairs.mem_iff.mp hp)
  have hrange : (pairs.flatMap Prod.snd).Perm (db.range user (midnight first) (midnight next)) :=
    (hpairs.flatMap_right Prod.snd).trans flatMap_counted
  have hsum : ((statement env db user first next).lines.map StatementLine.amountCents).sum =
      centsOf (db.range user (midnight first) (midnight next)) := by
    have hperm := hrange.map fun r ↦ r.2.amountCents
    rw [centsOf, ← hperm.sum_eq, ← hlines, List.map_map, List.map_flatMap, List.flatMap_def,
      List.sum_flatten, List.map_map]
    congr 1
    exact List.map_congr_left fun p hp ↦ (hcounts p hp).amount
  have hbalance : (statement env db user first next).closingBalanceCents -
      (statement env db user first next).openingBalanceCents =
        centsOf (db.range user (midnight first) (midnight next)) := closing_sub_opening ..
  have hcredits : (statement env db user first next).creditsCents -
      (statement env db user first next).chargesCents =
        ((statement env db user first next).lines.map StatementLine.amountCents).sum :=
    credits_sub_charges _
  exact ⟨by linarith, by linarith, pairs, hlines, hcounts, hrange, hrange.nodup_iff.mpr nodup_range⟩

end statement

/-! ## Months -/

theorem leapDay_le (year month : ℕ) : leapDay year month ≤ 1 := by
  unfold leapDay
  split
  · exact Nat.le_refl _
  · exact Nat.zero_le _

theorem leapDay_le_succ (year month : ℕ) : leapDay year month ≤ leapDay year (month + 1) := by
  unfold leapDay
  split
  · next h => rw [if_pos ⟨h.1.trans (Nat.lt_succ_self _), h.2⟩]
  · exact Nat.zero_le _

/-- A month begins before the next one. -/
theorem firstDay_le_next (m : YearMonth) : m.firstDay ≤ m.next.firstDay := by
  obtain ⟨year, month, hyear, hpos, hle⟩ := m
  rw [YearMonth.firstDay, YearMonth.firstDay, Int.ofNat_le, YearMonth.next]
  split
  · next hmonth =>
    obtain rfl : month = 12 := hmonth
    have hdays : daysBeforeMonth 12 = 334 ∧ daysBeforeMonth 1 = 0 := by decide
    have hleap := leapDay_le year 12
    simp only [daysBeforeYear]
    omega
  · next hmonth =>
    have hlt : month < 12 := lt_of_le_of_ne hle hmonth
    have hdays : daysBeforeMonth month ≤ daysBeforeMonth (month + 1) := by
      interval_cases month <;> decide
    have hleap := leapDay_le_succ year month
    simp only
    omega

theorem midnight_mono {d d' : Day} (h : d ≤ d') : midnight d ≤ midnight d' := by
  unfold midnight
  have hcast : (d : ℚ) ≤ d' := Int.cast_le.mpr h
  linarith

/-- The statement of a month is that of its days. -/
theorem monthlyStatement_eq {today m : YearMonth} {month : Option Text} {s : MonthlyStatement}
    (hmonth : parseYearMonth today month = .ok m)
    (h : monthlyStatement env db user today month = .ok s) :
    s = statement env db user m.firstDay m.next.firstDay := by
  rw [monthlyStatement, parseMonth, hmonth] at h
  unfold Except.bind monthDays at h
  dsimp only at h
  split at h
  · exact (Except.ok.inj h).symm
  · cases h

/-- Every summary and every statement of a snapshot whose balance is the sum of its rows adds up,
and each month opens with the balance that the one before it closed with. -/
theorem statements_add_up (env : StatementEnv) (db : StatementDb) (user : UserId)
    (hbalance : (db.balances.get? user).getD 0 = db.total user fun _ ↦ true) :
    (∀ first last, (spendingSummary env db user first last).AddsUp) ∧
      (∀ today month m s, parseYearMonth today month = .ok m →
        monthlyStatement env db user today month = .ok s →
          s.Reconciles (db.range user (midnight m.firstDay) (midnight m.next.firstDay)) ∧
          s.openingBalanceCents = db.total user fun t ↦ t < midnight m.firstDay) ∧
      ∀ today today' month month' m s s', parseYearMonth today month = .ok m →
        parseYearMonth today' month' = .ok m.next →
        monthlyStatement env db user today month = .ok s →
        monthlyStatement env db user today' month' = .ok s' →
          s'.openingBalanceCents = s.closingBalanceCents := by
  refine ⟨summary_adds_up env db user, ?_, ?_⟩
  · intro today month m s hmonth hs
    obtain rfl := monthlyStatement_eq hmonth hs
    exact ⟨statement_reconciles env db user _ _,
      opening_eq_total hbalance (midnight_mono (firstDay_le_next m))⟩
  · intro today today' month month' m s s' hmonth hmonth' hs hs'
    obtain rfl := monthlyStatement_eq hmonth hs
    obtain rfl := monthlyStatement_eq hmonth' hs'
    exact opening_eq_closing db user (midnight m.firstDay)
      (midnight_mono (firstDay_le_next m.next))

/-! ### October and November -/

/-- Nothing is known of any deployment, and every rental was charged 80 cents an hour. -/
def plainEnv : StatementEnv where
  describe deploymentId _ := ⟨deploymentId, .rental, none, none, none⟩
  centsPerHour _ := some 80
  storageCentsPerDay _ := none

/-- A top-up and a rental in October 2026, a charge that names no deployment, two requests to shared
models, and a refund in November. -/
def autumn : StatementDb where
  balances := .ofRows [(1, 1698)]
  ledger := .ofRows [
    (1, ⟨1, 2000, "topup".toList, none, some "Card top-up $20.00".toList, midnight 739899 + 1⟩),
    (2, ⟨1, -80, "usage".toList, some "dep-1".toList, some "2 GPUs".toList, midnight 739899 + 2⟩),
    (3, ⟨1, -80, "usage".toList, some "dep-1".toList, none, midnight 739899 + 3⟩),
    (4, ⟨1, -40, "usage".toList, none, none, midnight 739900⟩),
    (5, ⟨1, -1, "inference".toList, some "req-1".toList, none, midnight 739900 + 4⟩),
    (6, ⟨1, -1, "inference".toList, some "req-2".toList, none, midnight 739900 + 5⟩),
    (7, ⟨1, -100, "refund".toList, none, none, midnight 739921⟩)]

/-- The tenth and the eleventh month of 2026. -/
def october : YearMonth := ⟨2026, 10, by decide, by decide, by decide⟩

def november : YearMonth := ⟨2026, 11, by decide, by decide, by decide⟩

theorem statements_add_up_autumn :
    (spendingSummary plainEnv autumn 1 739890 739925).AddsUp ∧
      ∃ s s', monthlyStatement plainEnv autumn 1 november (some "2026-10".toList) = .ok s ∧
        monthlyStatement plainEnv autumn 1 november none = .ok s' ∧
        s.Reconciles (autumn.range 1 (midnight 739890) (midnight 739921)) ∧
        s'.openingBalanceCents = s.closingBalanceCents := by
  have h := statements_add_up plainEnv autumn 1 (by decide +kernel)
  have hparse : parseYearMonth november (some "2026-10".toList) = .ok october := by decide +kernel
  have hoctober : october.firstDay = 739890 ∧ october.next.firstDay = 739921 := by decide
  have hs : monthlyStatement plainEnv autumn 1 november (some "2026-10".toList) =
      .ok (statement plainEnv autumn 1 october.firstDay october.next.firstDay) := by
    rw [monthlyStatement, parseMonth, hparse]
    rfl
  have hs' : monthlyStatement plainEnv autumn 1 november none =
      .ok (statement plainEnv autumn 1 november.firstDay november.next.firstDay) := rfl
  refine ⟨h.1 739890 739925, _, _, hs, hs', ?_, ?_⟩
  · have hreconciles := (h.2.1 november _ october _ hparse hs).1
    rwa [hoctober.1, hoctober.2] at hreconciles ⊢
  · exact h.2.2 november november _ none october _ _ hparse rfl hs hs'

end GreenCompute
