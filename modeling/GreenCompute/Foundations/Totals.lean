import GreenCompute.Foundations.Table
import Mathlib.Algebra.BigOperators.Group.Finset.Basic
import Mathlib.Tactic.Abel

/-!
# Totals of tables, key by key

The total of a table is the sum, over any set of keys that has all of its keys, of what each key
contributes. So two tables whose keys contribute alike have one total, whatever their rows and the
order of these, and where they differ at one key the totals differ by as much.
-/

namespace GreenCompute

namespace Table

variable {κ ρ ρ' M : Type} [DecidableEq κ]

/-- What a key contributes to a total. -/
def valueAt [Zero M] (t : Table κ ρ) (f : κ → ρ → M) (k : κ) : M := (t.get? k).elim 0 (f k)

theorem valueAt_of_get? [Zero M] {t : Table κ ρ} {k : κ} {r : ρ} (h : t.get? k = some r)
    (f : κ → ρ → M) : t.valueAt f k = f k r := by
  rw [valueAt, h, Option.elim_some]

theorem valueAt_of_get?_none [Zero M] {t : Table κ ρ} {k : κ} (h : t.get? k = none)
    (f : κ → ρ → M) : t.valueAt f k = 0 := by
  rw [valueAt, h, Option.elim_none]

theorem total_eq_sum [AddCommMonoid M] (t : Table κ ρ) (f : κ → ρ → M) {keys : Finset κ}
    (h : ∀ k, (t.get? k).isSome = true → k ∈ keys) :
    t.total f = ∑ k ∈ keys, t.valueAt f k := by
  have hrows : t.total f = ((t.rows.map Prod.fst).map (t.valueAt f)).sum := by
    rw [total, List.map_map]
    congr 1
    refine List.map_congr_left fun r hr ↦ ?_
    exact (valueAt_of_get? (mem_rows_iff.mp (show (r.1, r.2) ∈ t.rows from hr)) f).symm
  rw [hrows, ← List.sum_toFinset _ t.nodup]
  refine Finset.sum_subset (fun k hk ↦ ?_) fun k _ hk ↦ ?_
  · exact h k (mem_keys_iff.mp (List.mem_toFinset.mp hk))
  · rw [List.mem_toFinset, mem_keys_iff, Bool.not_eq_true, Option.isSome_eq_false_iff,
      Option.isNone_iff_eq_none] at hk
    exact valueAt_of_get?_none hk f

/-- Two tables that agree in every key but one. -/
theorem total_change [AddCommGroup M] {t : Table κ ρ} {u : Table κ ρ'} {f : κ → ρ → M}
    {g : κ → ρ' → M} (k₀ : κ) (h : ∀ k, k ≠ k₀ → u.valueAt g k = t.valueAt f k) :
    u.total g = t.total f + (u.valueAt g k₀ - t.valueAt f k₀) := by
  let keys : Finset κ :=
    Insert.insert k₀ ((t.rows.map Prod.fst).toFinset ∪ (u.rows.map Prod.fst).toFinset)
  have ht : ∀ k, (t.get? k).isSome = true → k ∈ keys := fun k hk ↦
    Finset.mem_insert_of_mem (Finset.mem_union_left _ (List.mem_toFinset.mpr (mem_keys_iff.mpr hk)))
  have hu : ∀ k, (u.get? k).isSome = true → k ∈ keys := fun k hk ↦
    Finset.mem_insert_of_mem
      (Finset.mem_union_right _ (List.mem_toFinset.mpr (mem_keys_iff.mpr hk)))
  have hk₀ : k₀ ∈ keys := Finset.mem_insert_self _ _
  rw [total_eq_sum t f ht, total_eq_sum u g hu, ← Finset.add_sum_erase _ _ hk₀,
    ← Finset.add_sum_erase (a := k₀) keys (t.valueAt f) hk₀]
  have hrest : ∑ k ∈ keys.erase k₀, u.valueAt g k = ∑ k ∈ keys.erase k₀, t.valueAt f k :=
    Finset.sum_congr rfl fun k hk ↦ h k (Finset.ne_of_mem_erase hk)
  rw [hrest]
  abel

/-- Two tables that agree in every key. -/
theorem total_congr_values [AddCommMonoid M] {t : Table κ ρ} {u : Table κ ρ'} {f : κ → ρ → M}
    {g : κ → ρ' → M} (h : ∀ k, u.valueAt g k = t.valueAt f k) : u.total g = t.total f := by
  have ht : ∀ k, (t.get? k).isSome = true →
      k ∈ (t.rows.map Prod.fst).toFinset ∪ (u.rows.map Prod.fst).toFinset := fun k hk ↦
    Finset.mem_union_left _ (List.mem_toFinset.mpr (mem_keys_iff.mpr hk))
  have hu : ∀ k, (u.get? k).isSome = true →
      k ∈ (t.rows.map Prod.fst).toFinset ∪ (u.rows.map Prod.fst).toFinset := fun k hk ↦
    Finset.mem_union_right _ (List.mem_toFinset.mpr (mem_keys_iff.mpr hk))
  rw [total_eq_sum t f ht, total_eq_sum u g hu]
  exact Finset.sum_congr rfl fun k _ ↦ h k

theorem total_eq_zero [AddCommMonoid M] {t : Table κ ρ} {f : κ → ρ → M}
    (h : ∀ k, t.valueAt f k = 0) : t.total f = 0 := by
  have hkeys : ∀ k, (t.get? k).isSome = true → k ∈ (t.rows.map Prod.fst).toFinset := fun k hk ↦
    List.mem_toFinset.mpr (mem_keys_iff.mpr hk)
  rw [total_eq_sum t f hkeys]
  exact Finset.sum_eq_zero fun k _ ↦ h k

end Table

end GreenCompute
