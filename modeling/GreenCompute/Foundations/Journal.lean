import Mathlib.Algebra.BigOperators.Group.List.Basic

/-!
# Journals

A journal is a list of postings in the order they were made. Each posting names an account, an
amount of either sign, and the balance it left. Two statements tie a journal to the balances it
is kept for: `Balanced`, every balance is the opening balance plus what was posted to it, and
`Exact`, every posting recorded the balance of that moment.

Both are kept by making a posting from the balance of the moment (`Balanced.post`, `Exact.post`)
and by leaving an account alone, so a system keeps them as soon as each of its transactions does
one or the other.
-/

namespace GreenCompute

/-- A posting: an amount put to an account, and the balance it left. -/
structure Posting (κ α : Type) where
  account : κ
  amount : α
  after : α

namespace Journal

variable {κ α : Type} [DecidableEq κ] [AddCommMonoid α]

/-- What a journal posts to an account. -/
def total (k : κ) (l : List (Posting κ α)) : α :=
  ((l.filter fun p ↦ p.account = k).map Posting.amount).sum

@[simp] theorem total_nil (k : κ) : total k ([] : List (Posting κ α)) = 0 := rfl

theorem total_append (k : κ) (l l' : List (Posting κ α)) :
    total k (l ++ l') = total k l + total k l' := by
  rw [total, List.filter_append, List.map_append, List.sum_append, total, total]

theorem total_concat (k : κ) (l : List (Posting κ α)) (p : Posting κ α) :
    total k (l ++ [p]) = if p.account = k then total k l + p.amount else total k l := by
  rw [total_append]
  split
  · next h => simp [total, h]
  · next h => simp [total, h]

/-- Every balance is the opening balance plus what the journal posts to it. -/
def Balanced (opening balance : κ → α) (l : List (Posting κ α)) : Prop :=
  ∀ k, balance k = opening k + total k l

/-- Every posting recorded the balance it left: the opening balance plus what was posted to its
account up to and including it. -/
def Exact (opening : κ → α) (l : List (Posting κ α)) : Prop :=
  ∀ pre p post, l = pre ++ p :: post →
    p.after = opening p.account + total p.account (pre ++ [p])

variable {opening balance : κ → α} {l : List (Posting κ α)}

theorem Exact.nil : Exact opening ([] : List (Posting κ α)) := by
  intro pre p post h
  cases pre <;> cases h

/-- A journal stays exact when a posting records the right balance. -/
theorem Exact.concat {p : Posting κ α} (h : Exact opening l)
    (hp : p.after = opening p.account + total p.account (l ++ [p])) :
    Exact opening (l ++ [p]) := by
  intro pre q post heq
  rcases List.append_eq_append_iff.mp heq with ⟨m, hpre, hm⟩ | ⟨m, hl, hm⟩
  · rcases m with _ | ⟨a, m⟩
    · obtain ⟨rfl, -⟩ := List.cons.inj hm
      rw [List.append_nil] at hpre
      rw [hpre]
      exact hp
    · simp at hm
  · rcases m with _ | ⟨a, m⟩
    · obtain ⟨rfl, -⟩ := List.cons.inj hm
      rw [List.append_nil] at hl
      rw [← hl]
      exact hp
    · obtain ⟨rfl, -⟩ := List.cons.inj hm
      exact h pre q m hl

/-- Posting from the balance of the moment keeps the balances right. -/
theorem Balanced.post {p : Posting κ α} {balance' : κ → α} (h : Balanced opening balance l)
    (hself : balance' p.account = balance p.account + p.amount)
    (hother : ∀ k, k ≠ p.account → balance' k = balance k) :
    Balanced opening balance' (l ++ [p]) := by
  intro k
  rw [total_concat]
  split
  · next hk =>
    subst hk
    rw [hself, h, add_assoc]
  · next hk => rw [hother k (Ne.symm hk), h]

/-- Posting from the balance of the moment and recording what it left keeps the journal exact. -/
theorem Exact.post {p : Posting κ α} (h : Exact opening l) (hb : Balanced opening balance l)
    (hp : p.after = balance p.account + p.amount) : Exact opening (l ++ [p]) := by
  refine h.concat ?_
  rw [total_concat, if_pos rfl, hp, hb, add_assoc]

end Journal

end GreenCompute
