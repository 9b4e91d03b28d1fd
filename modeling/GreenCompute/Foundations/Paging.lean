import Mathlib.Data.List.Nodup
import Mathlib.Data.List.TakeDrop
import Mathlib.Order.Lattice

/-!
# Reading a list in pages

A list in ascending order of a key is read a page at a time: the next page is the first few elements
above a cursor, and the cursor then moves to the last of them. What a cursor has passed has been on
a page, as long as the list only grows above it.
-/

namespace GreenCompute

variable {α K : Type} {key : α → K} {l : List α} {x y : α} {n : ℕ} {c : K}

/-- Where a page leaves the cursor. -/
def cursorAfter (key : α → K) (c : K) (page : List α) : K := (page.getLast?.map key).getD c

@[simp] theorem cursorAfter_nil : cursorAfter key c [] = c := rfl

theorem cursorAfter_concat (l : List α) (x : α) : cursorAfter key c (l ++ [x]) = key x := by
  simp [cursorAfter]

/-- The cursor is where it was, or at an element of the page. -/
theorem cursorAfter_cases (key : α → K) (c : K) (l : List α) :
    l = [] ∧ cursorAfter key c l = c ∨ ∃ x ∈ l, cursorAfter key c l = key x := by
  rcases List.eq_nil_or_concat l with rfl | ⟨init, last, rfl⟩
  · exact .inl ⟨rfl, rfl⟩
  · rw [List.concat_eq_append]
    exact .inr ⟨last, List.mem_append_right _ List.mem_cons_self, cursorAfter_concat init last⟩

variable [LinearOrder K]

/-- A list in strictly ascending order of a key. -/
abbrev Ascending (key : α → K) (l : List α) : Prop := l.Pairwise fun a b ↦ key a < key b

namespace Ascending

theorem take (h : Ascending key l) (n : ℕ) : Ascending key (l.take n) :=
  List.Pairwise.sublist (List.take_sublist n l) h

/-- A page is an initial segment. -/
theorem mem_take_of_le (h : Ascending key l) (hx : x ∈ l.take n) (hy : y ∈ l)
    (hle : key y ≤ key x) : y ∈ l.take n := by
  rw [← List.take_append_drop n l] at h hy
  rcases List.mem_append.mp hy with hy | hy
  · exact hy
  · exact absurd ((List.pairwise_append.mp h).2.2 x hx y hy) hle.not_gt

/-- An element is on a page unless there is a page of elements before it. -/
theorem mem_take_iff (h : Ascending key l) (hx : x ∈ l) :
    x ∈ l.take n ↔ l.countP (fun a ↦ key a < key x) < n := by
  obtain ⟨pre, post, rfl⟩ := List.append_of_mem hx
  obtain ⟨-, hpost, hcross⟩ := List.pairwise_append.mp h
  have hbefore : pre.countP (fun a ↦ key a < key x) = pre.length :=
    List.countP_eq_length.mpr fun a ha ↦ decide_eq_true (hcross a ha x List.mem_cons_self)
  have hafter : (x :: post).countP (fun a ↦ key a < key x) = 0 := by
    refine List.countP_eq_zero.mpr fun a ha ↦ ?_
    rcases List.mem_cons.mp ha with rfl | ha
    · simp
    · simpa using ((List.pairwise_cons.mp hpost).1 a ha).le
  rw [List.countP_append, hbefore, hafter, Nat.add_zero, List.take_append, List.mem_append]
  constructor
  · rintro (hpre | htake)
    · exact absurd (hcross x (List.mem_of_mem_take hpre) x List.mem_cons_self) (lt_irrefl _)
    · by_contra hle
      rw [Nat.sub_eq_zero_of_le (Nat.not_lt.mp hle), List.take_zero] at htake
      exact List.not_mem_nil htake
  · intro hlt
    right
    obtain ⟨m, hm⟩ := Nat.exists_eq_add_one.mpr (Nat.sub_pos_of_lt hlt)
    rw [hm, List.take_succ_cons]
    exact List.mem_cons_self

/-- A page ends at the cursor that it leaves. -/
theorem key_le_cursorAfter (h : Ascending key l) (hx : x ∈ l) : key x ≤ cursorAfter key c l := by
  rcases List.eq_nil_or_concat l with rfl | ⟨init, last, rfl⟩
  · exact absurd hx List.not_mem_nil
  · rw [List.concat_eq_append] at h hx ⊢
    rw [cursorAfter_concat]
    rcases List.mem_append.mp hx with hx | hx
    · exact ((List.pairwise_append.mp h).2.2 x hx last List.mem_cons_self).le
    · rw [List.mem_singleton.mp hx]

/-- Whatever the cursor passes is on the page. -/
theorem mem_take_of_le_cursorAfter (h : Ascending key l) (hx : x ∈ l) (hc : c < key x)
    (hle : key x ≤ cursorAfter key c (l.take n)) : x ∈ l.take n := by
  rcases List.eq_nil_or_concat (l.take n) with hnil | ⟨init, last, heq⟩
  · rw [hnil, cursorAfter_nil] at hle
    exact absurd hc hle.not_gt
  · rw [List.concat_eq_append] at heq
    have hlast : last ∈ l.take n := by
      rw [heq]
      exact List.mem_append_right _ List.mem_cons_self
    rw [heq, cursorAfter_concat] at hle
    exact h.mem_take_of_le hlast hx hle

end Ascending

/-- A cursor never moves back. -/
theorem le_cursorAfter (h : ∀ x ∈ l, c < key x) : c ≤ cursorAfter key c l := by
  rcases cursorAfter_cases key c l with ⟨-, heq⟩ | ⟨x, hx, heq⟩
  · exact heq.ge
  · rw [heq]
    exact (h x hx).le

end GreenCompute
