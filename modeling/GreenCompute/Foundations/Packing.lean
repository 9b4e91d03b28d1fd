import Mathlib.Algebra.BigOperators.Group.Finset.Piecewise
import Mathlib.Algebra.Order.BigOperators.Group.Finset

/-!
# Packing one request at a time

Bins with room, each in a group, and some of them open. A request of a fixed size goes into any
open bin that accepts it and has the room; that takes its size off the room, and it opens the
other bins of the group. Whichever bin is picked each time, the same number of requests goes in:
how often the size goes into the room of the bins within reach, summed over the bins
(`Yard.capacity`). A request lowers that number by one (`Yard.Puts.capacity_eq`) and there is a
bin to pick until it is zero (`Yard.capacity_pos_iff`).
-/

namespace GreenCompute

/-- Bins in groups, which of them are open, and the room in each. -/
structure Yard (ι γ : Type*) where
  bins : Finset ι
  group : ι → γ
  accepts : ι → Prop
  isOpen : ι → Prop
  room : ι → ℕ

namespace Yard

variable {ι γ : Type*} {y y' : Yard ι γ} {k : ℕ} {i j : ι}

/-- The bin can be picked for a request of size `k`. -/
structure Takes (y : Yard ι γ) (k : ℕ) (i : ι) : Prop where
  mem : i ∈ y.bins
  accepts : y.accepts i
  isOpen : y.isOpen i
  room : k ≤ y.room i

/-- A request of size `k` is put into bin `i`. -/
structure Puts (k : ℕ) (i : ι) (y y' : Yard ι γ) : Prop where
  takes : y.Takes k i
  bins : y'.bins = y.bins
  group : ∀ j, y'.group j = y.group j
  accepts : ∀ j, y'.accepts j ↔ y.accepts j
  opens : ∀ j ∈ y.bins, (y'.isOpen j ↔ y.isOpen j ∨ y.group j = y.group i)
  room_self : y'.room i + k = y.room i
  room_ne : ∀ j, j ≠ i → y'.room j = y.room j

/-- The bin is open, or a request would open it. -/
def Reaches (y : Yard ι γ) (k : ℕ) (j : ι) : Prop :=
  y.isOpen j ∨ ∃ i, y.Takes k i ∧ y.group j = y.group i

open Classical in
/-- How many requests of size `k` the bins within reach have room for. -/
noncomputable def capacity (y : Yard ι γ) (k : ℕ) : ℕ :=
  ∑ j ∈ y.bins, if y.accepts j ∧ y.Reaches k j then y.room j / k else 0

/-- While there is room within reach, there is a bin to pick. -/
theorem capacity_pos_iff (hk : 0 < k) : 0 < y.capacity k ↔ ∃ i, y.Takes k i := by
  rw [capacity, Nat.pos_iff_ne_zero, Ne, Finset.sum_eq_zero_iff]
  push Not
  constructor
  · rintro ⟨j, hj, hroom⟩
    split_ifs at hroom with hreach
    · obtain ⟨haccepts, hopen | ⟨i, htakes, -⟩⟩ := hreach
      · have hfits : k ≤ y.room j := by
          by_contra hlt
          exact hroom (Nat.div_eq_of_lt (Nat.lt_of_not_le hlt))
        exact ⟨j, hj, haccepts, hopen, hfits⟩
      · exact ⟨i, htakes⟩
    · exact absurd rfl hroom
  · rintro ⟨i, htakes⟩
    refine ⟨i, htakes.mem, ?_⟩
    rw [if_pos ⟨htakes.accepts, .inl htakes.isOpen⟩]
    exact (Nat.div_pos htakes.room hk).ne'

namespace Puts

variable (h : Puts k i y y')

include h

/-- A bin of another group is open as before. -/
theorem isOpen_iff (hj : j ∈ y.bins) (hgroup : y.group j ≠ y.group i) :
    y'.isOpen j ↔ y.isOpen j := by
  rw [h.opens j hj]
  exact or_iff_left hgroup

/-- A bin of another group can be picked as before. -/
theorem takes_iff (hgroup : y.group j ≠ y.group i) : y'.Takes k j ↔ y.Takes k j := by
  have hne : j ≠ i := fun heq ↦ hgroup (congrArg y.group heq)
  constructor
  · intro htakes
    have hmem : j ∈ y.bins := h.bins ▸ htakes.mem
    exact ⟨hmem, (h.accepts j).mp htakes.accepts, (h.isOpen_iff hmem hgroup).mp htakes.isOpen,
      htakes.room.trans_eq (h.room_ne j hne)⟩
  · intro htakes
    exact ⟨h.bins.symm ▸ htakes.mem, (h.accepts j).mpr htakes.accepts,
      (h.isOpen_iff htakes.mem hgroup).mpr htakes.isOpen,
      htakes.room.trans_eq (h.room_ne j hne).symm⟩

/-- Nothing comes within reach that was not, and nothing falls out of reach. -/
theorem reaches_iff (hj : j ∈ y.bins) : y'.Reaches k j ↔ y.Reaches k j := by
  by_cases hgroup : y.group j = y.group i
  · have hopen : y'.isOpen j := (h.opens j hj).mpr (.inr hgroup)
    exact iff_of_true (.inl hopen) (.inr ⟨i, h.takes, hgroup⟩)
  · refine or_congr (h.isOpen_iff hj hgroup) (exists_congr fun i' ↦ ?_)
    rw [h.group, h.group]
    refine and_congr_left fun hsame ↦ h.takes_iff ?_
    rwa [← hsame]

/-- **Each request takes one place.** -/
theorem capacity_eq (hk : 0 < k) : y.capacity k = y'.capacity k + 1 := by
  classical
  have hbin (j : ι) (hj : j ∈ y.bins) :
      (if y.accepts j ∧ y.Reaches k j then y.room j / k else 0) =
        (if y'.accepts j ∧ y'.Reaches k j then y'.room j / k else 0) + if i = j then 1 else 0 := by
    have hsame : y'.accepts j ∧ y'.Reaches k j ↔ y.accepts j ∧ y.Reaches k j :=
      and_congr (h.accepts j) (h.reaches_iff hj)
    rw [if_congr hsame rfl rfl]
    by_cases hij : i = j
    · subst hij
      have hreach : y.accepts i ∧ y.Reaches k i := ⟨h.takes.accepts, .inl h.takes.isOpen⟩
      rw [if_pos hreach, if_pos hreach, if_pos rfl, ← h.room_self, Nat.add_div_right _ hk]
    · rw [if_neg hij, Nat.add_zero, h.room_ne j (Ne.symm hij)]
  have hsum : y.capacity k = _ := Finset.sum_congr rfl hbin
  rw [Finset.sum_add_distrib, Finset.sum_ite_eq, if_pos h.takes.mem] at hsum
  rw [hsum, capacity, h.bins]

end Puts

end Yard

end GreenCompute
