import Mathlib.Logic.Relation

/-!
# Systems that take one step after another

A system says what each of its operations makes of a state. `Steps` are its runs, with a condition
on the operation and the state that each step is taken in; what every such step keeps is kept by the
run, and a list of operations that meets the condition one after the other is a run.
-/

namespace GreenCompute

variable {O σ : Type} {exec : O → σ → σ} {G : O → σ → Prop} {s s' : σ}

/-- Runs whose steps all meet a condition. -/
abbrev Steps (exec : O → σ → σ) (G : O → σ → Prop) : σ → σ → Prop :=
  Relation.ReflTransGen fun s s' ↦ ∃ o, G o s ∧ s' = exec o s

namespace Steps

/-- What every step keeps, the run keeps. -/
theorem invariant {P : σ → Prop} (run : Steps exec G s s')
    (step : ∀ o s, P s → G o s → P (exec o s)) (hs : P s) : P s' := by
  induction run with
  | refl => exact hs
  | tail _ hstep ih =>
    obtain ⟨o, ho, rfl⟩ := hstep
    exact step o _ ih ho

/-- The state that some operations lead to. -/
def replay (exec : O → σ → σ) (s : σ) (os : List O) : σ := os.foldl (fun s o ↦ exec o s) s

/-- Some operations meet a condition, each in the state that those before it lead to. -/
def admits (exec : O → σ → σ) (G : O → σ → Prop) [∀ o s, Decidable (G o s)] (s : σ) :
    List O → Bool
  | [] => true
  | o :: os => decide (G o s) && admits exec G (exec o s) os

theorem of_admits (exec : O → σ → σ) (G : O → σ → Prop) [∀ o s, Decidable (G o s)] (s : σ)
    (os : List O) (h : admits exec G s os = true) : Steps exec G s (replay exec s os) := by
  induction os generalizing s with
  | nil => exact .refl
  | cons o os ih =>
    rw [admits, Bool.and_eq_true] at h
    exact .head ⟨o, of_decide_eq_true h.1, rfl⟩ (ih _ h.2)

@[simp] theorem replay_nil (exec : O → σ → σ) (s : σ) : replay exec s [] = s := rfl

@[simp] theorem replay_cons (exec : O → σ → σ) (s : σ) (o : O) (os : List O) :
    replay exec s (o :: os) = replay exec (exec o s) os := rfl

/-- Some operations meet a condition one after the other: `admits`, as a proposition. -/
def Admitted (exec : O → σ → σ) (G : O → σ → Prop) : σ → List O → Prop
  | _, [] => True
  | s, o :: os => G o s ∧ Admitted exec G (exec o s) os

instance decidableAdmitted (exec : O → σ → σ) (G : O → σ → Prop) [∀ o s, Decidable (G o s)]
    (s : σ) (os : List O) : Decidable (Admitted exec G s os) :=
  match os with
  | [] => inferInstanceAs (Decidable True)
  | o :: os =>
    have := decidableAdmitted exec G (exec o s) os
    inferInstanceAs (Decidable (G o s ∧ Admitted exec G (exec o s) os))

/-- Where a condition on each step says exactly whether a property survives it, a property that
holds at first holds all along the run exactly if every step meets the condition. -/
theorem throughout_iff {P I : σ → Prop} (keep : ∀ o s, I s → I (exec o s))
    (step : ∀ o s, I s → P s → (P (exec o s) ↔ G o s)) (os : List O) (hI : I s) (hP : P s) :
    (∀ os', os' <+: os → P (replay exec s os')) ↔ Admitted exec G s os := by
  induction os generalizing s with
  | nil =>
    refine ⟨fun _ ↦ trivial, fun _ os' hos' ↦ ?_⟩
    obtain rfl := List.prefix_nil.mp hos'
    exact hP
  | cons o os ih =>
    constructor
    · intro h
      have hnext : P (exec o s) := h [o] ⟨os, rfl⟩
      refine ⟨(step o s hI hP).mp hnext, (ih (keep o s hI) hnext).mp fun os' hos' ↦ ?_⟩
      exact h (o :: os') (List.cons_prefix_cons.mpr ⟨rfl, hos'⟩)
    · rintro ⟨ho, hrest⟩ os' hos'
      have hnext := (step o s hI hP).mpr ho
      cases os' with
      | nil => exact hP
      | cons o' os' =>
        obtain ⟨rfl, hprefix⟩ := List.cons_prefix_cons.mp hos'
        exact (ih (keep o' s hI) hnext).mpr hrest os' hprefix

end Steps

end GreenCompute
