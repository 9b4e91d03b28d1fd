import Mathlib.Algebra.BigOperators.Group.List.Basic

/-!
# Programs over a transactional store

A service method is a sequence of committed transactions: it asks the store one question, waits
for the answer, and decides from the answer what to ask next. Between two questions anything may
happen to the store. `Program` is the syntax of such a method, a well-founded tree whose nodes
are store operations and whose branches are their answers, so that a loop over a list is a
recursion on that list and every method returns.

What an operation does is not part of the program. `Machine` gives the meaning of the operations
on a store type `σ`; `Program.eval` runs a whole method with nothing in between, and the module
`Interleaving` runs many methods at once.
-/

namespace GreenCompute

/-- The operations a store offers, each with the type of its answer. -/
structure Interface where
  /-- The operations. -/
  Op : Type
  /-- The answer an operation comes back with. -/
  Ans : Op → Type

/-- A method: finished with a value, or one operation followed by what its answer leads to. -/
inductive Program (I : Interface) (α : Type) : Type where
  | done (a : α)
  | call (o : I.Op) (k : I.Ans o → Program I α)

/-- The meaning of the operations on a store. `ready` says when an operation can be taken at
all: an operation that is not ready blocks its caller, as a held lock does. -/
structure Machine (I : Interface) (σ : Type) where
  /-- The new store and the answer of one committed transaction. -/
  exec : (o : I.Op) → σ → σ × I.Ans o
  /-- Whether the operation can be taken in this store. -/
  ready : I.Op → σ → Bool := fun _ _ ↦ true

/-- An operation with the answer it was given. -/
abbrev Event (I : Interface) := (o : I.Op) × I.Ans o

namespace Program

variable {I : Interface} {α β γ σ : Type}

instance decidableEqDone (p : Program I Unit) : Decidable (p = .done ()) :=
  match p with
  | .done _ => .isTrue rfl
  | .call .. => .isFalse nofun

/-- One operation, returning its answer. -/
def op (o : I.Op) : Program I (I.Ans o) := .call o .done

/-- Sequencing: run the first method and hand its value to the second. -/
def bind : Program I α → (α → Program I β) → Program I β
  | .done a, f => f a
  | .call o k, f => .call o fun r ↦ (k r).bind f

instance : Monad (Program I) where
  pure := .done
  bind := bind

@[simp] theorem pure_eq (a : α) : (pure a : Program I α) = .done a := rfl

@[simp] theorem done_bind (a : α) (f : α → Program I β) :
    (Program.done a >>= f) = f a := rfl

@[simp] theorem call_bind (o : I.Op) (k : I.Ans o → Program I α) (f : α → Program I β) :
    (Program.call o k >>= f) = .call o fun r ↦ k r >>= f := rfl

/-! ## The operations of a method -/

/-- Every operation the method can come to, whatever it is answered, is an allowed one. -/
def Uses (allowed : I.Op → Prop) : Program I α → Prop
  | .done _ => True
  | .call o k => allowed o ∧ ∀ r, (k r).Uses allowed

@[simp] theorem uses_done (allowed : I.Op → Prop) (a : α) :
    (Program.done a : Program I α).Uses allowed := trivial

@[simp] theorem uses_op {allowed : I.Op → Prop} {o : I.Op} :
    (op o).Uses allowed ↔ allowed o :=
  ⟨And.left, fun h ↦ ⟨h, fun _ ↦ trivial⟩⟩

theorem Uses.mono {allowed allowed' : I.Op → Prop} {p : Program I α} (hp : p.Uses allowed)
    (h : ∀ o, allowed o → allowed' o) : p.Uses allowed' := by
  induction p with
  | done a => trivial
  | call o k ih => exact ⟨h o hp.1, fun r ↦ ih r (hp.2 r)⟩

/-- What holds of every operation holds of those of a method. -/
theorem Uses.of_forall {allowed : I.Op → Prop} (h : ∀ o, allowed o) (p : Program I α) :
    p.Uses allowed := by
  induction p with
  | done a => trivial
  | call o k ih => exact ⟨h o, ih⟩

theorem Uses.bind {allowed : I.Op → Prop} {p : Program I α} {f : α → Program I β}
    (hp : p.Uses allowed) (hf : ∀ a, (f a).Uses allowed) : (p >>= f).Uses allowed := by
  induction p with
  | done a => exact hf a
  | call o k ih => exact ⟨hp.1, fun r ↦ ih r (hp.2 r)⟩

/-- One operation, then the rest. -/
theorem Uses.op_bind {allowed : I.Op → Prop} {o : I.Op} {f : I.Ans o → Program I β}
    (ho : allowed o) (hf : ∀ r, (f r).Uses allowed) : (op o >>= f).Uses allowed :=
  ⟨ho, hf⟩

/-! ## Methods with their history -/

/-- Every operation the method comes to meets `φ` after the operations before it, and it ends in
`Q`, as long as the answers are ones that `A` admits. -/
def Asks (A : (o : I.Op) → I.Ans o → Prop) (φ : List (Event I) → I.Op → Prop)
    (Q : α → List (Event I) → Prop) : Program I α → List (Event I) → Prop
  | .done a, past => Q a past
  | .call o k, past => φ past o ∧ ∀ r, A o r → (k r).Asks A φ Q (past ++ [⟨o, r⟩])

section Asks

variable {A : (o : I.Op) → I.Ans o → Prop} {φ : List (Event I) → I.Op → Prop}
  {Q R : α → List (Event I) → Prop} {past : List (Event I)}

theorem Asks.mono {p : Program I α} (h : p.Asks A φ Q past) (hQ : ∀ a past, Q a past → R a past) :
    p.Asks A φ R past := by
  induction p generalizing past with
  | done a => exact hQ a past h
  | call o k ih => exact ⟨h.1, fun r hr ↦ ih r (h.2 r hr)⟩

/-- The sequencing rule. -/
theorem Asks.bind {p : Program I β} {f : β → Program I α} {P : β → List (Event I) → Prop}
    (hp : p.Asks A φ P past) (hf : ∀ b past, P b past → (f b).Asks A φ Q past) :
    (p >>= f).Asks A φ Q past := by
  induction p generalizing past with
  | done b => exact hf b past hp
  | call o k ih => exact ⟨hp.1, fun r hr ↦ ih r (hp.2 r hr)⟩

/-- One operation, then the rest. -/
theorem Asks.op_bind {o : I.Op} {f : I.Ans o → Program I α} (ho : φ past o)
    (hf : ∀ r, A o r → (f r).Asks A φ Q (past ++ [⟨o, r⟩])) : (op o >>= f).Asks A φ Q past :=
  ⟨ho, hf⟩

/-- A method is fit for its history and all its operations are allowed: both may be used. -/
theorem Asks.with_uses {allowed : I.Op → Prop} {ψ : List (Event I) → I.Op → Prop}
    {p : Program I α} (hp : p.Asks A φ Q past) (hu : p.Uses allowed)
    (h : ∀ past o, φ past o → allowed o → ψ past o) : p.Asks A ψ Q past := by
  induction p generalizing past with
  | done a => exact hp
  | call o k ih => exact ⟨h past o hp.1 hu.1, fun r hr ↦ ih r (hp.2 r hr) (hu.2 r)⟩

/-- A method all of whose operations are allowed keeps what allowed operations keep of the
history. -/
theorem Uses.asks {allowed : I.Op → Prop} {p : Program I α} (hp : p.Uses allowed)
    (hφ : ∀ past o, allowed o → φ past o) (P : List (Event I) → Prop)
    (hP : ∀ past o r, allowed o → P past → P (past ++ [⟨o, r⟩])) (hpast : P past) :
    p.Asks A φ (fun _ ↦ P) past := by
  induction p generalizing past with
  | done a => exact hpast
  | call o k ih =>
    exact ⟨hφ past o hp.1, fun r _ ↦ ih r (hp.2 r) (hP past o r hp.1 hpast)⟩

end Asks

/-! ## Whole calls -/

variable (M : Machine I σ)

/-- Run a method with no other step in between: the final store and the value returned. -/
def eval : Program I α → σ → σ × α
  | .done a, s => (s, a)
  | .call o k, s => eval (k (M.exec o s).2) (M.exec o s).1

@[simp] theorem eval_done (a : α) (s : σ) : eval M (.done a : Program I α) s = (s, a) := rfl

@[simp] theorem eval_call (o : I.Op) (k : I.Ans o → Program I α) (s : σ) :
    eval M (.call o k) s = eval M (k (M.exec o s).2) (M.exec o s).1 := rfl

theorem eval_op (o : I.Op) (s : σ) : eval M (op o) s = M.exec o s := rfl

/-- A sequence of methods is run one after the other. -/
@[simp] theorem eval_bind (p : Program I α) (f : α → Program I β) (s : σ) :
    eval M (p >>= f) s = eval M (f (eval M p s).2) (eval M p s).1 := by
  induction p generalizing s with
  | done a => rfl
  | call o k ih => exact ih _ _

/-- Every operation taken by the method, run from this store with nothing in between, meets `φ` in
the store it is taken in. -/
def Along (φ : I.Op → σ → Prop) : Program I α → σ → Prop
  | .done _, _ => True
  | .call o k, s => φ o s ∧ Along φ (k (M.exec o s).2) (M.exec o s).1

variable {M} {φ : I.Op → σ → Prop}

theorem Along.bind {p : Program I α} {f : α → Program I β} {s : σ} (hp : Along M φ p s)
    (hf : Along M φ (f (eval M p s).2) (eval M p s).1) : Along M φ (p >>= f) s := by
  induction p generalizing s with
  | done a => exact hf
  | call o k ih => exact ⟨hp.1, ih _ hp.2 hf⟩

/-- The condition may be weakened. -/
theorem Along.mono {ψ : I.Op → σ → Prop} {p : Program I α} {s : σ} (h : Along M φ p s)
    (himp : ∀ o s, φ o s → ψ o s) : Along M ψ p s := by
  induction p generalizing s with
  | done a => trivial
  | call o k ih => exact ⟨himp o s h.1, ih _ h.2⟩

/-- Where the operations of a method meet `φ` in every store, they meet it along every run. -/
theorem Along.of_uses {p : Program I α} (h : p.Uses fun o ↦ ∀ s, φ o s) (s : σ) :
    Along M φ p s := by
  induction p generalizing s with
  | done a => trivial
  | call o k ih => exact ⟨h.1 s, ih _ (h.2 _) _⟩

/-- A relation that every operation along the run respects holds between its ends. -/
theorem Along.rel {r : σ → σ → Prop} (refl : ∀ s, r s s)
    (trans : ∀ {s t u}, r s t → r t u → r s u) {P : σ → Prop}
    (step : ∀ o s, P s → φ o s → P (M.exec o s).1 ∧ r s (M.exec o s).1)
    {p : Program I α} {s : σ} (h : Along M φ p s) (hs : P s) :
    P (eval M p s).1 ∧ r s (eval M p s).1 := by
  induction p generalizing s with
  | done a => exact ⟨hs, refl s⟩
  | call o k ih =>
    obtain ⟨hP, hrel⟩ := step o s hs h.1
    obtain ⟨hP', hrel'⟩ := ih _ h.2 hP
    exact ⟨hP', trans hrel hrel'⟩

/-- What every operation along the run keeps is the same at its end. -/
theorem Along.keeps {δ : Type} (f : σ → δ) (step : ∀ o s, φ o s → f (M.exec o s).1 = f s)
    {p : Program I α} {s : σ} (h : Along M φ p s) : f (eval M p s).1 = f s := by
  induction p generalizing s with
  | done a => rfl
  | call o k ih => rw [eval_call, ih _ h.2, step o s h.1]

/-- A method that only reads leaves the store as it is. -/
theorem eval_reads {p : Program I α} (h : p.Uses fun o ↦ ∀ s, (M.exec o s).1 = s) (s : σ) :
    (eval M p s).1 = s := by
  induction p generalizing s with
  | done a => rfl
  | call o k ih => rw [eval_call, ih _ (h.2 _), h.1]

/-! ### What a whole call was answered -/

variable (M) in
/-- The operations of a method run with nothing in between, with their answers. -/
def trace : Program I α → σ → List (Event I)
  | .done _, _ => []
  | .call o k, s => ⟨o, (M.exec o s).2⟩ :: trace (k (M.exec o s).2) (M.exec o s).1

@[simp] theorem trace_done (a : α) (s : σ) : trace M (.done a : Program I α) s = [] := rfl

theorem trace_op (o : I.Op) (s : σ) : trace M (op o) s = [⟨o, (M.exec o s).2⟩] := rfl

@[simp] theorem trace_bind (p : Program I α) (f : α → Program I β) (s : σ) :
    trace M (p >>= f) s = trace M p s ++ trace M (f (eval M p s).2) (eval M p s).1 := by
  induction p generalizing s with
  | done a => rfl
  | call o k ih => exact congrArg (_ :: ·) (ih _ _)

/-- The operations of a whole call are among those the method may come to. -/
theorem Uses.trace {allowed : I.Op → Prop} {p : Program I α} (hp : p.Uses allowed) (s : σ) :
    ∀ e ∈ trace M p s, allowed e.1 := by
  induction p generalizing s with
  | done a => exact fun e he ↦ nomatch he
  | call o k ih =>
    intro e he
    rcases List.mem_cons.mp he with rfl | he
    · exact hp.1
    · exact ih _ (hp.2 _) _ e he

/-- A whole call that is fit for its history ends with the history it says, and a figure of the
store has grown by what its operations were worth, when good stores give the answers it relies on
and stay good. -/
theorem Asks.account {A : (o : I.Op) → I.Ans o → Prop} {φ : List (Event I) → I.Op → Prop}
    {Q : α → List (Event I) → Prop} {P : σ → Prop} {δ : Type} [AddCommMonoid δ] (f : σ → δ)
    (gain : Event I → δ) {p : Program I α} {past : List (Event I)} {s : σ} (hp : p.Asks A φ Q past)
    (hop : ∀ past o s, φ past o → P s → A o (M.exec o s).2 ∧ P (M.exec o s).1 ∧
      f (M.exec o s).1 = f s + gain ⟨o, (M.exec o s).2⟩) (hs : P s) :
    Q (eval M p s).2 (past ++ trace M p s) ∧ P (eval M p s).1 ∧
      f (eval M p s).1 = f s + ((trace M p s).map gain).sum := by
  induction p generalizing past s with
  | done a =>
    refine ⟨?_, hs, (add_zero _).symm⟩
    rw [trace_done, List.append_nil]
    exact hp
  | call o k ih =>
    obtain ⟨hans, hgood, hgrown⟩ := hop past o s hp.1 hs
    obtain ⟨hend, hgood', hgrown'⟩ := ih _ (hp.2 _ hans) hgood
    rw [trace, List.map_cons, List.sum_cons, ← add_assoc, ← hgrown]
    refine ⟨?_, hgood', hgrown'⟩
    rwa [List.append_assoc, List.singleton_append] at hend

end Program

end GreenCompute
