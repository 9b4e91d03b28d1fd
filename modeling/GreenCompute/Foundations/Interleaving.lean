import GreenCompute.Foundations.Program

/-!
# Interleavings of programs

A service is a store, its operations and a set of calls that anyone may make at any time. A
`World` is the store with the calls in progress; one step either starts a call or lets one call
in progress take its next operation. `Reaches` is any number of such steps, so it covers every
interleaving of any number of calls, including calls that are never finished.

## Guards

A step relation comes with a `Guard`: a condition on the moment an operation is taken, in terms
of the call, of what that call has seen so far, and of the store. The trivial guard gives every
run; a nontrivial one cuts out the runs whose steps all meet a condition.

## Reasoning

`Program.Safe` is a rely-guarantee judgement. A `Contract` names an invariant of the store and a
preorder that every operation respects; between two operations of a call the store may move along
that preorder, and at each operation the call has to keep the invariant and stay within the
preorder itself. `Service.Reaches.sound` is the soundness theorem: if every call is safe from
every good store, then every reachable store is good and every finished call meets its
postcondition.
-/

namespace GreenCompute

variable {I : Interface} {C σ : Type}

/-- A store with its operations, and the calls that can be made against it. -/
structure Service (I : Interface) (C σ : Type) extends Machine I σ where
  /-- The method a call runs. -/
  body : C → Program I Unit

/-- A call in progress: what was called, the operations answered so far, and what is left. -/
structure Thread (I : Interface) (C : Type) where
  call : C
  past : List (Event I)
  rest : Program I Unit

/-- A store with the calls in progress (finished ones included). -/
structure World (I : Interface) (C σ : Type) where
  store : σ
  threads : List (Thread I C)

/-- What a run may be restricted to: the call, its past, and the operation it takes in a store. -/
abbrev Guard (I : Interface) (C σ : Type) := C → List (Event I) → I.Op → σ → Prop

/-- The guard that admits every run. -/
def Guard.free : Guard I C σ := fun _ _ _ _ ↦ True

instance (c : C) (past : List (Event I)) (o : I.Op) (s : σ) :
    Decidable ((Guard.free : Guard I C σ) c past o s) := inferInstanceAs (Decidable True)

namespace World

/-- Start a call. -/
def start (S : Service I C σ) (w : World I C σ) (c : C) : World I C σ :=
  { w with threads := w.threads ++ [⟨c, [], S.body c⟩] }

/-- Let thread `i`, which is about to take `o`, take it. -/
def answer (S : Service I C σ) (w : World I C σ) (i : ℕ) (c : C) (past : List (Event I))
    (o : I.Op) (k : I.Ans o → Program I Unit) : World I C σ where
  store := (S.exec o w.store).1
  threads := w.threads.set i
    ⟨c, past ++ [⟨o, (S.exec o w.store).2⟩], k (S.exec o w.store).2⟩

end World

namespace Service

/-- One step of a service under a guard. -/
inductive Step (S : Service I C σ) (G : Guard I C σ) : World I C σ → World I C σ → Prop
  | start (w : World I C σ) (c : C) : Step S G w (w.start S c)
  | answer (w : World I C σ) (i : ℕ) (c : C) (past : List (Event I)) (o : I.Op)
      (k : I.Ans o → Program I Unit) (thread : w.threads[i]? = some ⟨c, past, .call o k⟩)
      (ready : S.ready o w.store = true) (guarded : G c past o w.store) :
      Step S G w (w.answer S i c past o k)

/-- Any number of steps of a service under a guard. -/
abbrev Reaches (S : Service I C σ) (G : Guard I C σ) : World I C σ → World I C σ → Prop :=
  Relation.ReflTransGen (Step S G)

end Service

/-- A run under a guard is one under any weaker guard. -/
theorem Service.Reaches.weaken {S : Service I C σ} {G H : Guard I C σ} {w w' : World I C σ}
    (h : S.Reaches H w w') (hle : ∀ c past o s, H c past o s → G c past o s) :
    S.Reaches G w w' := by
  induction h with
  | refl => exact .refl
  | tail _ hstep ih =>
    cases hstep with
    | start c => exact ih.tail (.start _ c)
    | answer i c past o k thread ready guarded =>
      exact ih.tail (.answer _ i c past o k thread ready (hle c past o _ guarded))

/-! ## Whole calls -/

/-- The store after one call with nothing in between. -/
def Service.after (S : Service I C σ) (c : C) (s : σ) : σ :=
  (Program.eval S.toMachine (S.body c) s).1

/-- Any number of whole calls, one after the other, each meeting a condition on the store it is
made in. -/
abbrev Service.Calls (S : Service I C σ) (G : C → σ → Prop) : σ → σ → Prop :=
  Relation.ReflTransGen fun s s' ↦ ∃ c, G c s ∧ s' = S.after c s

/-- Make some calls in turn, or fail at one that does not meet the condition. -/
def Service.makeCalls (S : Service I C σ) (G : C → σ → Prop) [∀ c s, Decidable (G c s)] (s : σ) :
    List C → Option σ
  | [] => some s
  | c :: cs => if G c s then makeCalls S G (S.after c s) cs else none

theorem Service.calls_of_makeCalls {S : Service I C σ} {G : C → σ → Prop}
    [∀ c s, Decidable (G c s)] {s s' : σ} {cs : List C} (h : S.makeCalls G s cs = some s') :
    S.Calls G s s' := by
  induction cs generalizing s with
  | nil =>
    obtain rfl := Option.some.inj h
    exact .refl
  | cons c cs ih =>
    rw [makeCalls] at h
    split at h
    · next hc => exact .head ⟨c, hc, rfl⟩ (ih h)
    · cases h

/-- A property seen by making some calls holds of a store that calls lead to. -/
theorem Service.exists_calls_of_makeCalls {S : Service I C σ} {G : C → σ → Prop}
    [∀ c s, Decidable (G c s)] {s : σ} (cs : List C) {P : σ → Prop} [DecidablePred P]
    (h : ((S.makeCalls G s cs).any fun s' ↦ decide (P s')) = true) :
    ∃ s', S.Calls G s s' ∧ P s' := by
  cases hs : S.makeCalls G s cs with
  | none => simp [hs] at h
  | some s' =>
    rw [hs] at h
    exact ⟨s', calls_of_makeCalls hs, of_decide_eq_true h⟩

/-! ### Runs as lists of calls -/

/-- The store after some calls, made in turn. -/
def Service.afterAll (S : Service I C σ) (s : σ) (cs : List C) : σ :=
  cs.foldl (fun s c ↦ S.after c s) s

/-- Each of some calls meets a condition on the store it is made in. -/
def Service.Admits (S : Service I C σ) (G : C → σ → Prop) : σ → List C → Prop
  | _, [] => True
  | s, c :: cs => G c s ∧ S.Admits G (S.after c s) cs

section

variable {S : Service I C σ} {G : C → σ → Prop} {s : σ} {cs : List C}

@[simp] theorem Service.afterAll_nil (S : Service I C σ) (s : σ) : S.afterAll s [] = s := rfl

@[simp] theorem Service.afterAll_cons (S : Service I C σ) (s : σ) (c : C) (cs : List C) :
    S.afterAll s (c :: cs) = S.afterAll (S.after c s) cs := rfl

theorem Service.afterAll_append (S : Service I C σ) (s : σ) (cs cs' : List C) :
    S.afterAll s (cs ++ cs') = S.afterAll (S.afterAll s cs) cs' :=
  List.foldl_append

theorem Service.admits_append {cs' : List C} :
    S.Admits G s (cs ++ cs') ↔ S.Admits G s cs ∧ S.Admits G (S.afterAll s cs) cs' := by
  induction cs generalizing s with
  | nil => simp [Admits]
  | cons c cs ih => simp [Admits, ih, and_assoc]

/-- An invariant of every admitted call holds after any number of them. -/
theorem Service.Admits.keeps {P : σ → Prop} (h : S.Admits G s cs) (hs : P s)
    (step : ∀ c s, G c s → P s → P (S.after c s)) : P (S.afterAll s cs) := by
  induction cs generalizing s with
  | nil => exact hs
  | cons c cs ih => exact ih h.2 (step c s h.1 hs)

/-- Leaving calls out: two runs stay related when a call made in both keeps the relation, and so
does a call that only the first makes. -/
theorem Service.Admits.related {R : σ → σ → Prop} {keep : C → Bool} {t : σ} (h : S.Admits G s cs)
    (hst : R s t)
    (both : ∀ c s t, keep c = true → G c s → R s t → R (S.after c s) (S.after c t))
    (alone : ∀ c s t, keep c = false → G c s → R s t → R (S.after c s) t) :
    R (S.afterAll s cs) (S.afterAll t (cs.filter keep)) := by
  induction cs generalizing s t with
  | nil => exact hst
  | cons c cs ih =>
    obtain ⟨hc, hrest⟩ := h
    cases hkeep : keep c with
    | true =>
      rw [List.filter_cons_of_pos hkeep]
      exact ih hrest (both c s t hkeep hc hst)
    | false =>
      rw [List.filter_cons_of_neg (by simp [hkeep])]
      exact ih hrest (alone c s t hkeep hc hst)

instance Service.decidableAdmits [∀ c s, Decidable (G c s)] (s : σ) (cs : List C) :
    Decidable (S.Admits G s cs) :=
  match cs with
  | [] => inferInstanceAs (Decidable True)
  | c :: cs =>
    have := Service.decidableAdmits (S.after c s) cs
    inferInstanceAs (Decidable (G c s ∧ S.Admits G (S.after c s) cs))

end

/-! ## Contracts -/

/-- An invariant of the store, and a preorder that no operation leaves. -/
structure Contract (σ : Type) where
  /-- What holds between operations. -/
  inv : σ → Prop
  /-- How a later store compares with an earlier one. -/
  rel : σ → σ → Prop
  refl : ∀ s, rel s s
  trans : ∀ {s t u}, rel s t → rel t u → rel s u

namespace Contract

/-- The contract that only keeps an invariant. -/
def ofInv (inv : σ → Prop) : Contract σ :=
  ⟨inv, fun _ _ ↦ True, fun _ ↦ trivial, fun _ _ ↦ trivial⟩

end Contract

namespace Program

variable {α β : Type} (M : Machine I σ) (K : Contract σ) (G : List (Event I) → I.Op → σ → Prop)

/-- The rest of a method, taken up in store `s` after the operations `past`, keeps the contract
whatever happens in between, and ends in `Q`. -/
def Safe (Q : α → List (Event I) → σ → Prop) : Program I α → List (Event I) → σ → Prop
  | .done a, past, s => ∀ s', K.rel s s' → K.inv s' → Q a past s'
  | .call o k, past, s => ∀ s', K.rel s s' → K.inv s' → M.ready o s' = true → G past o s' →
      K.inv (M.exec o s').1 ∧ K.rel s' (M.exec o s').1 ∧
        Safe Q (k (M.exec o s').2) (past ++ [⟨o, (M.exec o s').2⟩]) (M.exec o s').1

variable {M K G} {Q R : α → List (Event I) → σ → Prop}

/-- A judgement survives what the other calls do. -/
theorem Safe.stable {p : Program I α} {past : List (Event I)} {s s' : σ}
    (h : Safe M K G Q p past s) (hs : K.rel s s') : Safe M K G Q p past s' := by
  cases p with
  | done a => exact fun t ht ↦ h t (K.trans hs ht)
  | call o k => exact fun t ht ↦ h t (K.trans hs ht)

/-- The postcondition may be weakened. -/
theorem Safe.mono {p : Program I α} {past : List (Event I)} {s : σ}
    (h : Safe M K G Q p past s) (hQ : ∀ a past s, Q a past s → R a past s) :
    Safe M K G R p past s := by
  induction p generalizing past s with
  | done a => exact fun t ht hi ↦ hQ _ _ _ (h t ht hi)
  | call o k ih =>
    intro t ht hi hr hg
    obtain ⟨h₁, h₂, h₃⟩ := h t ht hi hr hg
    exact ⟨h₁, h₂, ih _ h₃⟩

/-- The sequencing rule. -/
theorem Safe.bind {p : Program I β} {f : β → Program I α} {past : List (Event I)} {s : σ}
    {P : β → List (Event I) → σ → Prop} (hp : Safe M K G P p past s)
    (hf : ∀ b past s, (∀ s', K.rel s s' → K.inv s' → P b past s') →
      Safe M K G Q (f b) past s) :
    Safe M K G Q (p >>= f) past s := by
  induction p generalizing past s with
  | done b => exact hf b past s hp
  | call o k ih =>
    intro t ht hi hr hg
    obtain ⟨h₁, h₂, h₃⟩ := hp t ht hi hr hg
    exact ⟨h₁, h₂, ih _ h₃⟩

/-- The rule for one operation followed by the rest of a method. -/
theorem Safe.op_bind {o : I.Op} {f : I.Ans o → Program I α} {past : List (Event I)} {s : σ}
    (h : ∀ s', K.rel s s' → K.inv s' → M.ready o s' = true → G past o s' →
      K.inv (M.exec o s').1 ∧ K.rel s' (M.exec o s').1 ∧
        Safe M K G Q (f (M.exec o s').2) (past ++ [⟨o, (M.exec o s').2⟩]) (M.exec o s').1) :
    Safe M K G Q (op o >>= f) past s := h

/-- A method keeps the contract when each of its operations does, in every store that comes after
the one it is taken up in. -/
theorem Safe.of_uses {allowed : I.Op → Prop} {p : Program I α} {past : List (Event I)} {s : σ}
    (hp : p.Uses allowed)
    (hop : ∀ past o s', allowed o → K.rel s s' → K.inv s' → M.ready o s' = true → G past o s' →
      K.inv (M.exec o s').1 ∧ K.rel s' (M.exec o s').1) :
    Safe M K G (fun _ _ _ ↦ True) p past s := by
  induction p generalizing past s with
  | done a => exact fun _ _ _ ↦ trivial
  | call o k ih =>
    intro t ht hi hr hg
    obtain ⟨h₁, h₂⟩ := hop past o t hp.1 ht hi hr hg
    refine ⟨h₁, h₂, ih _ (hp.2 _) fun past o s' ho hs ↦ ?_⟩
    exact hop past o s' ho (K.trans ht (K.trans h₂ hs))

/-- A judgement may be made in the stores that the method can be taken up in. -/
theorem Safe.of_later {p : Program I α} {past : List (Event I)} {s : σ}
    (h : ∀ s', K.rel s s' → K.inv s' → Safe M K G Q p past s') : Safe M K G Q p past s := by
  cases p with
  | done a => exact fun t ht hi ↦ h t ht hi t (K.refl t) hi
  | call o k => exact fun t ht hi ↦ h t ht hi t (K.refl t) hi

/-- The sequencing rule, where the rest is taken up in a good store. -/
theorem Safe.seq {p : Program I β} {f : β → Program I α} {past : List (Event I)} {s : σ}
    {P : β → List (Event I) → σ → Prop} (hp : Safe M K G P p past s)
    (hf : ∀ b past s, K.inv s → P b past s → Safe M K G Q (f b) past s) :
    Safe M K G Q (p >>= f) past s :=
  hp.bind fun b past s hpost ↦ .of_later fun t ht hi ↦ hf b past t hi (hpost t ht hi)

/-- A condition that the other calls cannot undo still holds at the end. -/
theorem Safe.carry {P : σ → Prop} (stable : ∀ {s s'}, K.rel s s' → P s → P s') {p : Program I α}
    {past : List (Event I)} {s : σ} (h : Safe M K G Q p past s) (hs : P s) :
    Safe M K G (fun a past s ↦ Q a past s ∧ P s) p past s := by
  induction p generalizing past s with
  | done a => exact fun t ht hi ↦ ⟨h t ht hi, stable ht hs⟩
  | call o k ih =>
    intro t ht hi hr hg
    obtain ⟨h₁, h₂, h₃⟩ := h t ht hi hr hg
    exact ⟨h₁, h₂, ih _ h₃ (stable h₂ (stable ht hs))⟩

/-- Where every operation keeps the contract by itself, every method does. -/
theorem Safe.of_ops (hop : ∀ past o s, K.inv s → M.ready o s = true → G past o s →
      K.inv (M.exec o s).1 ∧ K.rel s (M.exec o s).1)
    (p : Program I α) (past : List (Event I)) (s : σ) :
    Safe M K G (fun _ _ _ ↦ True) p past s := by
  induction p generalizing past s with
  | done a => exact fun _ _ _ ↦ trivial
  | call o k ih =>
    intro t _ hi hr hg
    obtain ⟨h₁, h₂⟩ := hop past o t hi hr hg
    exact ⟨h₁, h₂, ih _ _ _⟩

/-- A method whose operations are fit for their history keeps the contract, and ends with the
history it says, when good stores give the answers it relies on. -/
theorem Safe.of_asks {A : (o : I.Op) → I.Ans o → Prop} {φ : List (Event I) → I.Op → Prop}
    {P : α → List (Event I) → Prop} {p : Program I α} {past : List (Event I)} {s : σ}
    (hp : p.Asks A φ P past)
    (hop : ∀ past o s, φ past o → K.inv s → M.ready o s = true → G past o s →
      A o (M.exec o s).2 ∧ K.inv (M.exec o s).1 ∧ K.rel s (M.exec o s).1) :
    Safe M K G (fun a past _ ↦ P a past) p past s := by
  induction p generalizing past s with
  | done a => exact fun _ _ _ ↦ hp
  | call o k ih =>
    intro t _ hi hr hg
    obtain ⟨hans, hinv, hrel⟩ := hop past o t hp.1 hi hr hg
    exact ⟨hinv, hrel, ih _ (hp.2 _ hans)⟩

/-- Run with nothing in between, a safe method stays within the contract. -/
theorem Safe.eval {p : Program I α} {past : List (Event I)} {s : σ}
    (h : Safe M K (fun _ _ _ ↦ True) Q p past s) (ready : ∀ o s, M.ready o s = true)
    (hs : K.inv s) : K.inv (eval M p s).1 ∧ K.rel s (eval M p s).1 := by
  induction p generalizing past s with
  | done a => exact ⟨hs, K.refl s⟩
  | call o k ih =>
    obtain ⟨hinv, hrel, hrest⟩ := h s (K.refl s) hs (ready o s) trivial
    obtain ⟨hinv', hrel'⟩ := ih _ hrest hinv
    exact ⟨hinv', K.trans hrel hrel'⟩

end Program

/-! ## Methods under a stable condition -/

/-- The method keeps the contract whenever it is taken up in a store that meets `P`. -/
def Program.SafeFrom {α : Type} (M : Machine I σ) (K : Contract σ)
    (G : List (Event I) → I.Op → σ → Prop) (P : σ → Prop) (p : Program I α) : Prop :=
  ∀ past s, P s → Program.Safe M K G (fun _ _ _ ↦ True) p past s

namespace Program.SafeFrom

variable {α β : Type} {M : Machine I σ} {K : Contract σ} {G : List (Event I) → I.Op → σ → Prop}
  {P : σ → Prop}

theorem done (a : α) : SafeFrom M K G P (.done a : Program I α) :=
  fun _ _ _ _ _ _ ↦ trivial

/-- The sequencing rule, for a condition that no operation undoes. -/
theorem bind (stable : ∀ {s s'}, K.rel s s' → P s → P s') {p : Program I β}
    {f : β → Program I α} (hp : SafeFrom M K G P p) (hf : ∀ b, SafeFrom M K G P (f b)) :
    SafeFrom M K G P (p >>= f) := by
  intro past s hs
  refine ((hp past s hs).carry stable hs).seq fun b past' s' _ hpost ↦ ?_
  exact hf b past' s' hpost.2

end Program.SafeFrom

/-! ## Soundness -/

namespace Service

variable {S : Service I C σ} {G : Guard I C σ} {K : Contract σ}
  {Q : C → List (Event I) → σ → Prop}

/-- A world that meets a contract: its store is good and each call in progress is safe. -/
structure Meets (S : Service I C σ) (G : Guard I C σ) (K : Contract σ)
    (Q : C → List (Event I) → σ → Prop) (w : World I C σ) : Prop where
  inv : K.inv w.store
  safe : ∀ t ∈ w.threads,
    Program.Safe S.toMachine K (G t.call) (fun _ ↦ Q t.call) t.rest t.past w.store

/-- One step of a world that meets a contract stays within it. -/
theorem Step.meets {w w' : World I C σ} (h : Step S G w w')
    (hcall : ∀ c s, K.inv s →
      Program.Safe S.toMachine K (G c) (fun _ ↦ Q c) (S.body c) [] s)
    (hw : Meets S G K Q w) : Meets S G K Q w' ∧ K.rel w.store w'.store := by
  cases h with
  | start c =>
    refine ⟨⟨hw.inv, ?_⟩, K.refl _⟩
    intro t ht
    rcases List.mem_append.mp ht with ht | ht
    · exact hw.safe t ht
    · obtain rfl := List.mem_singleton.mp ht
      exact hcall c w.store hw.inv
  | answer i c past o k thread ready guarded =>
    have hsafe := hw.safe _ (List.mem_of_getElem? thread)
    obtain ⟨hinv, hrel, hrest⟩ := hsafe w.store (K.refl _) hw.inv ready guarded
    refine ⟨⟨hinv, ?_⟩, hrel⟩
    intro t ht
    rcases List.mem_or_eq_of_mem_set ht with ht | rfl
    · exact (hw.safe t ht).stable hrel
    · exact hrest

/-- Any number of steps of a world that meets a contract stay within it. -/
theorem Meets.reaches {w w' : World I C σ} (hw : Meets S G K Q w) (h : Reaches S G w w')
    (hcall : ∀ c s, K.inv s →
      Program.Safe S.toMachine K (G c) (fun _ ↦ Q c) (S.body c) [] s) :
    Meets S G K Q w' ∧ K.rel w.store w'.store := by
  induction h with
  | refl => exact ⟨hw, K.refl _⟩
  | tail _ hstep ih =>
    obtain ⟨hmeets, hrel⟩ := ih
    obtain ⟨hmeets', hrel'⟩ := hstep.meets hcall hmeets
    exact ⟨hmeets', K.trans hrel hrel'⟩

/-- A good store with no call in progress meets the contract. -/
theorem Meets.idle {w : World I C σ} (hinv : K.inv w.store) (hidle : w.threads = []) :
    Meets S G K Q w :=
  ⟨hinv, by simp [hidle]⟩

/-- **Soundness.** If every call is safe from every good store, whatever a run reaches from a
good store with no call in progress meets the contract. -/
theorem Reaches.sound {w w' : World I C σ} (h : Reaches S G w w')
    (hcall : ∀ c s, K.inv s →
      Program.Safe S.toMachine K (G c) (fun _ ↦ Q c) (S.body c) [] s)
    (hinv : K.inv w.store) (hidle : w.threads = []) :
    Meets S G K Q w' ∧ K.rel w.store w'.store :=
  (Meets.idle hinv hidle).reaches h hcall

/-- A finished call meets its postcondition. -/
theorem Meets.finished {w : World I C σ} (hw : Meets S G K Q w) {t : Thread I C}
    (ht : t ∈ w.threads) (hdone : t.rest = .done ()) : Q t.call t.past w.store := by
  have h := hw.safe t ht
  rw [hdone] at h
  exact h w.store (K.refl _) hw.inv

end Service

/-- In a run from a world with no call in progress, every call stays fit for its history. -/
theorem Service.Reaches.asks {S : Service I C σ} {G : Guard I C σ} {w w' : World I C σ}
    (h : S.Reaches G w w') (hidle : w.threads = []) {A : (o : I.Op) → I.Ans o → Prop}
    {φ : C → List (Event I) → I.Op → Prop} {Q : C → List (Event I) → Prop}
    (body : ∀ c, (S.body c).Asks A (φ c) (fun _ ↦ Q c) [])
    (answers : ∀ o s, A o (S.exec o s).2) :
    ∀ t ∈ w'.threads, t.rest.Asks A (φ t.call) (fun _ ↦ Q t.call) t.past := by
  induction h with
  | refl => simp [hidle]
  | tail _ hstep ih =>
    cases hstep with
    | start c =>
      intro t ht
      rcases List.mem_append.mp ht with ht | ht
      · exact ih t ht
      · obtain rfl := List.mem_singleton.mp ht
        exact body c
    | answer i c past o k thread ready guarded =>
      have hfit := ih _ (List.mem_of_getElem? thread)
      intro t ht
      rcases List.mem_or_eq_of_mem_set ht with ht | rfl
      · exact ih t ht
      · exact hfit.2 _ (answers o _)

/-- In such a run, every operation that a call has taken is one its method may come to, and met the
guard when it was taken. -/
theorem Service.Reaches.uses {S : Service I C σ} {G : Guard I C σ} {w w' : World I C σ}
    (h : S.Reaches G w w') (hidle : w.threads = []) {φ : C → I.Op → Prop}
    (body : ∀ c, (S.body c).Uses (φ c)) :
    ∀ t ∈ w'.threads, t.rest.Uses (φ t.call) ∧
      ∀ e ∈ t.past, φ t.call e.1 ∧ ∃ past s, G t.call past e.1 s := by
  induction h with
  | refl => simp [hidle]
  | tail _ hstep ih =>
    cases hstep with
    | start c =>
      intro t ht
      rcases List.mem_append.mp ht with ht | ht
      · exact ih t ht
      · obtain rfl := List.mem_singleton.mp ht
        exact ⟨body c, fun e he ↦ absurd he List.not_mem_nil⟩
    | answer i c past o k thread ready guarded =>
      obtain ⟨hrest, hpast⟩ := ih _ (List.mem_of_getElem? thread)
      intro t ht
      rcases List.mem_or_eq_of_mem_set ht with ht | rfl
      · exact ih t ht
      · refine ⟨hrest.2 _, fun e he ↦ ?_⟩
        rcases List.mem_append.mp he with he | he
        · exact hpast e he
        · obtain rfl := List.mem_singleton.mp he
          exact ⟨hrest.1, past, _, guarded⟩

/-! ## Accounting

What the calls of a run have been answered can be added up. Where each operation changes a measure
of the store by exactly what its event is worth, the measure and the histories agree. -/

/-- What the operations answered so far are worth. -/
def World.worth {δ : Type} [AddCommMonoid δ] (gain : Event I → δ) (w : World I C σ) : δ :=
  (w.threads.map fun t ↦ (t.past.map gain).sum).sum

section

variable {δ : Type} [AddCommMonoid δ] (gain : Event I → δ)

private theorem worth_set {threads : List (Thread I C)} {i : ℕ} {t u : Thread I C}
    (h : threads[i]? = some t) {e : Event I} (hu : u.past = t.past ++ [e]) :
    ((threads.set i u).map fun t ↦ (t.past.map gain).sum).sum =
      (threads.map fun t ↦ (t.past.map gain).sum).sum + gain e := by
  induction threads generalizing i with
  | nil => cases h
  | cons a threads ih =>
    cases i with
    | zero =>
      obtain rfl : a = t := Option.some.inj h
      simp only [List.set_cons_zero, List.map_cons, List.sum_cons, hu, List.map_append,
        List.sum_append, List.map_nil, List.sum_nil, add_zero]
      rw [add_assoc, add_assoc, add_comm (gain e)]
    | succ i =>
      have h' := ih (i := i) h
      simp only [List.set_cons_succ, List.map_cons, List.sum_cons] at h' ⊢
      rw [h', add_assoc]

/-- In a run from a store with no call in progress, a measure that every operation changes by
what its event is worth has changed by what the histories are worth. -/
theorem Service.Reaches.account {S : Service I C σ} {G : Guard I C σ} {w w' : World I C σ}
    (h : S.Reaches G w w') (hidle : w.threads = []) (measure : σ → δ) {P : σ → Prop}
    (hP : ∀ v, S.Reaches G w v → P v.store)
    (step : ∀ c past o s, P s → G c past o s →
      measure (S.exec o s).1 = measure s + gain ⟨o, (S.exec o s).2⟩) :
    measure w'.store = measure w.store + w'.worth gain := by
  induction h with
  | refl => simp [World.worth, hidle]
  | @tail v v' hreach hstep ih =>
    cases hstep with
    | start c => simpa [World.worth, World.start] using ih
    | answer i c past o k thread ready guarded =>
      have hworth := worth_set gain thread
        (u := ⟨c, past ++ [⟨o, (S.exec o v.store).2⟩], k (S.exec o v.store).2⟩) rfl
      rw [World.worth, World.answer, hworth, ← add_assoc,
        step c past o v.store (hP v hreach) guarded]
      exact congrArg (· + _) ih

end

/-! ## Logs

A world keeps what each call has been answered, but not the order in which the operations of
different calls were taken. A log does. -/

/-- An operation taken in a run: the call that took it, and what it was answered. -/
structure Entry (I : Interface) (C : Type) where
  call : C
  event : Event I

/-- Any number of steps of a service under a guard, with the operations in the order taken. -/
inductive Service.Logs (S : Service I C σ) (G : Guard I C σ) (w : World I C σ) :
    List (Entry I C) → World I C σ → Prop
  | refl : Logs S G w [] w
  | start {log : List (Entry I C)} {v : World I C σ} (run : Logs S G w log v) (c : C) :
      Logs S G w log (v.start S c)
  | answer {log : List (Entry I C)} {v : World I C σ} (run : Logs S G w log v) (i : ℕ) (c : C)
      (past : List (Event I)) (o : I.Op) (k : I.Ans o → Program I Unit)
      (thread : v.threads[i]? = some ⟨c, past, .call o k⟩) (ready : S.ready o v.store = true)
      (guarded : G c past o v.store) :
      Logs S G w (log ++ [⟨c, ⟨o, (S.exec o v.store).2⟩⟩]) (v.answer S i c past o k)

/-- What every operation keeps of the log and the store holds after any number of steps. -/
theorem Service.Logs.keeps {S : Service I C σ} {G : Guard I C σ} {w w' : World I C σ}
    {log : List (Entry I C)} (h : S.Logs G w log w') {P : List (Entry I C) → σ → Prop}
    (hw : P [] w.store)
    (step : ∀ log c past o s, P log s → S.ready o s = true → G c past o s →
      P (log ++ [⟨c, ⟨o, (S.exec o s).2⟩⟩]) (S.exec o s).1) : P log w'.store := by
  induction h with
  | refl => exact hw
  | start run c ih => exact ih
  | answer run i c past o k thread ready guarded ih =>
    exact step _ c past o _ ih ready guarded

theorem Service.Logs.reaches {S : Service I C σ} {G : Guard I C σ} {w w' : World I C σ}
    {log : List (Entry I C)} (h : S.Logs G w log w') : S.Reaches G w w' := by
  induction h with
  | refl => exact .refl
  | start run c ih => exact ih.tail (.start _ c)
  | answer run i c past o k thread ready guarded ih =>
    exact ih.tail (.answer _ i c past o k thread ready guarded)

/-- Each entry of a log was taken in the world that the entries before it lead to. -/
theorem Service.Logs.taken {S : Service I C σ} {G : Guard I C σ} {w w' : World I C σ}
    {log before after : List (Entry I C)} {entry : Entry I C} (h : S.Logs G w log w')
    (hlog : log = before ++ entry :: after) :
    ∃ (v : World I C σ) (i : ℕ) (past : List (Event I)) (o : I.Op)
      (k : I.Ans o → Program I Unit), S.Logs G w before v ∧
        v.threads[i]? = some ⟨entry.call, past, .call o k⟩ ∧ G entry.call past o v.store ∧
        entry.event = ⟨o, (S.exec o v.store).2⟩ := by
  induction h generalizing after with
  | refl => simp at hlog
  | start run c ih => exact ih hlog
  | @answer log v run i c past o k thread ready guarded ih =>
    rcases List.eq_nil_or_concat after with rfl | ⟨after, last, rfl⟩
    · obtain ⟨rfl, hlast⟩ := List.append_inj' hlog rfl
      obtain rfl := List.singleton_inj.mp hlast
      exact ⟨v, i, past, o, k, run, thread, guarded, rfl⟩
    · rw [List.concat_eq_append, ← List.cons_append, ← List.append_assoc] at hlog
      exact ih (List.append_inj_left' hlog rfl)

/-- What a call has been answered is in the log of a run that began with no call in progress. -/
theorem Service.Logs.past_mem {S : Service I C σ} {G : Guard I C σ} {w w' : World I C σ}
    {log : List (Entry I C)} (h : S.Logs G w log w') (hidle : w.threads = []) :
    ∀ t ∈ w'.threads, ∀ e ∈ t.past, ⟨t.call, e⟩ ∈ log := by
  induction h with
  | refl => simp [hidle]
  | start run c ih =>
    intro t ht e he
    rcases List.mem_append.mp ht with ht | ht
    · exact ih t ht e he
    · obtain rfl := List.mem_singleton.mp ht
      exact absurd he List.not_mem_nil
  | answer run i c past o k thread ready guarded ih =>
    intro t ht e he
    rcases List.mem_or_eq_of_mem_set ht with ht | rfl
    · exact List.mem_append_left _ (ih t ht e he)
    · rcases List.mem_append.mp he with he | he
      · exact List.mem_append_left _ (ih _ (List.mem_of_getElem? thread) e he)
      · obtain rfl := List.mem_singleton.mp he
        exact List.mem_append_right _ (List.mem_singleton_self _)

/-! ## Schedules

A schedule says which call starts or moves next. Replaying one computes the world it leads to,
so that a particular run can be exhibited by evaluation. -/

/-- One entry of a schedule. -/
inductive Move (C : Type) where
  | start (c : C)
  | step (i : ℕ)

namespace Service

variable (S : Service I C σ) (G : Guard I C σ)

section

variable [∀ c past o s, Decidable (G c past o s)]

/-- Let thread `i` take its next operation, if it has one, is not blocked, and the guard holds. -/
def fire (w : World I C σ) (i : ℕ) : Option (World I C σ) :=
  match w.threads[i]? with
  | some ⟨c, past, .call o k⟩ =>
    if S.ready o w.store = true ∧ G c past o w.store then some (w.answer S i c past o k) else none
  | _ => none

/-- Take one entry of a schedule. -/
def move (w : World I C σ) : Move C → Option (World I C σ)
  | .start c => some (w.start S c)
  | .step i => fire S G w i

/-- Follow a schedule to its end, or fail where it cannot be followed. -/
def replay (w : World I C σ) : List (Move C) → Option (World I C σ)
  | [] => some w
  | m :: ms => (move S G w m).bind fun w' ↦ replay w' ms

/-- Follow a schedule to its end, and write down the operations taken. -/
def record (log : List (Entry I C)) (w : World I C σ) :
    List (Move C) → Option (List (Entry I C) × World I C σ)
  | [] => some (log, w)
  | .start c :: ms => record log (w.start S c) ms
  | .step i :: ms =>
    match w.threads[i]? with
    | some ⟨c, past, .call o k⟩ =>
      if S.ready o w.store = true ∧ G c past o w.store then
        record (log ++ [⟨c, ⟨o, (S.exec o w.store).2⟩⟩]) (w.answer S i c past o k) ms
      else none
    | _ => none

variable {S G}

theorem step_of_move {w w' : World I C σ} {m : Move C} (h : move S G w m = some w') :
    Step S G w w' := by
  cases m with
  | start c =>
    obtain rfl := Option.some.inj h
    exact .start w c
  | step i =>
    simp only [move, fire] at h
    split at h
    · next c past o k hthread =>
      split at h
      · next hgo =>
        obtain rfl := Option.some.inj h
        exact .answer w i c past o k hthread hgo.1 hgo.2
      · cases h
    · cases h

/-- What a schedule leads to is reachable. -/
theorem reaches_of_replay {w w' : World I C σ} {ms : List (Move C)}
    (h : replay S G w ms = some w') : Reaches S G w w' := by
  induction ms generalizing w with
  | nil =>
    obtain rfl := Option.some.inj h
    exact .refl
  | cons m ms ih =>
    obtain ⟨v, hv, hrest⟩ := Option.bind_eq_some_iff.mp h
    exact .head (step_of_move hv) (ih hrest)

/-- A property seen by evaluating a schedule holds of a reachable world. -/
theorem exists_reaches_of_replay {w : World I C σ} (ms : List (Move C)) {P : World I C σ → Prop}
    [DecidablePred P] (h : ((replay S G w ms).any fun w' ↦ decide (P w')) = true) :
    ∃ w', Reaches S G w w' ∧ P w' := by
  cases hw : replay S G w ms with
  | none => simp [hw] at h
  | some w' =>
    rw [hw] at h
    exact ⟨w', reaches_of_replay hw, of_decide_eq_true h⟩

/-- The same of two worlds, the second reached from the first. -/
theorem exists_reaches_then_of_replay {w : World I C σ} (ms ms' : List (Move C))
    {P Q : World I C σ → Prop} [DecidablePred P] [DecidablePred Q]
    (h : ((replay S G w ms).any fun v ↦
      decide (P v) && (replay S G v ms').any fun v' ↦ decide (Q v')) = true) :
    ∃ v v', Reaches S G w v ∧ P v ∧ Reaches S G v v' ∧ Q v' := by
  cases hv : replay S G w ms with
  | none => simp [hv] at h
  | some v =>
    rw [hv, Option.any_some, Bool.and_eq_true] at h
    obtain ⟨v', hreach, hQ⟩ := exists_reaches_of_replay ms' h.2
    exact ⟨v, v', reaches_of_replay hv, of_decide_eq_true h.1, hreach, hQ⟩

theorem logs_of_record {w v : World I C σ} {log : List (Entry I C)} {ms : List (Move C)}
    {out : List (Entry I C) × World I C σ} (run : S.Logs G w log v)
    (h : record S G log v ms = some out) : S.Logs G w out.1 out.2 := by
  induction ms generalizing log v with
  | nil =>
    obtain rfl := Option.some.inj h
    exact run
  | cons m ms ih =>
    cases m with
    | start c => exact ih (.start run c) h
    | step i =>
      rw [record] at h
      split at h
      · next c past o k hthread =>
        split at h
        · next hgo => exact ih (.answer run i c past o k hthread hgo.1 hgo.2) h
        · cases h
      · cases h

/-- A property of the log and the world seen by evaluating a schedule. -/
theorem exists_logs_of_record {w : World I C σ} (ms : List (Move C))
    {P : List (Entry I C) → World I C σ → Prop} [∀ log w, Decidable (P log w)]
    (h : ((record S G [] w ms).any fun out ↦ decide (P out.1 out.2)) = true) :
    ∃ log w', S.Logs G w log w' ∧ P log w' := by
  cases hout : record S G [] w ms with
  | none => simp [hout] at h
  | some out =>
    rw [hout] at h
    exact ⟨out.1, out.2, logs_of_record .refl hout, of_decide_eq_true h⟩

end

end Service

end GreenCompute
