import GreenCompute.Foundations.Interleaving

/-!
# A process that may die

A single process makes its calls one after the other. Between two operations of a call its
surroundings may change, or the process may die: what the call has committed stays, the rest of it
is never run, and the process that is started in its place makes the next call.

`Service.Alone` says what is left of the current call and what the store is, after any number of
such steps. A condition on the store and on the operation that the current call is about to take
says where the process may die, and which call it may make next.

Two rules bring a property to every such point. `Service.Alone.sound` is for a property that also
holds between the operations of a call: the contracts of the module `Interleaving` give it.
`Service.Alone.throughout` is for one that some operations suspend: `Program.Throughout` says what
holds in front of each operation, and the property only has to be restored where the process may
die.
-/

namespace GreenCompute

variable {I : Interface} {C σ : Type}

/-- The operation a method is about to take, if it has not ended. -/
def Program.next {α : Type} : Program I α → Option I.Op
  | .done _ => none
  | .call o _ => some o

/-- What is left of the current call of a process that may die, and the store. -/
inductive Service.Alone (S : Service I C σ) (E : σ → σ → Prop) (G : C → Option I.Op → σ → Prop)
    (s₀ : σ) : Program I Unit → σ → Prop
  | idle : Alone S E G s₀ (.done ()) s₀
  | call {p : Program I Unit} {s : σ} (run : Alone S E G s₀ p s) (c : C) (cut : G c p.next s) :
      Alone S E G s₀ (S.body c) s
  | op {o : I.Op} {k : I.Ans o → Program I Unit} {s : σ} (run : Alone S E G s₀ (.call o k) s) :
      Alone S E G s₀ (k (S.exec o s).2) (S.exec o s).1
  | around {p : Program I Unit} {s s' : σ} (run : Alone S E G s₀ p s) (h : E s s') :
      Alone S E G s₀ p s'

/-- A run is one under any weaker condition on where the process may die. -/
theorem Service.Alone.mono {S : Service I C σ} {E : σ → σ → Prop}
    {G G' : C → Option I.Op → σ → Prop} {s₀ s : σ} {p : Program I Unit}
    (run : S.Alone E G s₀ p s) (h : ∀ c o s, G c o s → G' c o s) : S.Alone E G' s₀ p s := by
  induction run with
  | idle => exact .idle
  | call run c cut ih => exact ih.call c (h _ _ _ cut)
  | op run ih => exact ih.op
  | around run he ih => exact ih.around he

/-! ## Contracts -/

section

variable {S : Service I C σ} {E : σ → σ → Prop} {G : C → Option I.Op → σ → Prop} {s₀ s : σ}
  {p : Program I Unit}

/-- Where no operation has to wait, a process whose calls and surroundings keep a contract keeps
it. -/
theorem Service.Alone.sound {K : Contract σ} (run : S.Alone E G s₀ p s)
    (ready : ∀ o s, S.ready o s = true) (start : K.inv s₀)
    (around : ∀ s s', E s s' → K.inv s → K.inv s' ∧ K.rel s s')
    (body : ∀ c o s, G c o s → K.inv s →
      Program.Safe S.toMachine K (fun _ _ _ ↦ True) (fun _ _ _ ↦ True) (S.body c) [] s) :
    K.inv s := by
  have h : K.inv s ∧ ∃ past, Program.Safe S.toMachine K (fun _ _ _ ↦ True) (fun _ _ _ ↦ True)
      p past s := by
    induction run with
    | idle => exact ⟨start, [], fun _ _ _ ↦ trivial⟩
    | call run c cut ih => exact ⟨ih.1, [], body c _ _ cut ih.1⟩
    | op run ih =>
      obtain ⟨hinv, past, hsafe⟩ := ih
      obtain ⟨hinv', -, hrest⟩ := hsafe _ (K.refl _) hinv (ready _ _) trivial
      exact ⟨hinv', _, hrest⟩
    | around run he ih =>
      obtain ⟨hinv, past, hsafe⟩ := ih
      obtain ⟨hinv', hrel⟩ := around _ _ he hinv
      exact ⟨hinv', past, hsafe.stable hrel⟩
  exact h.1

end

/-! ## What holds in front of each operation -/

namespace Program

variable {α β : Type} (M : Machine I σ) (E : σ → σ → Prop) (P : I.Op → σ → Prop)

/-- In front of every operation the method takes `P` holds, and `Q` at its end, whatever the
surroundings do in between. -/
def Throughout (Q : α → σ → Prop) : Program I α → σ → Prop
  | .done a, s => ∀ s', E s s' → Q a s'
  | .call o k, s => ∀ s', E s s' →
      P o s' ∧ (k (M.exec o s').2).Throughout Q (M.exec o s').1

variable {M E P} {Q R : α → σ → Prop} {s s' : σ}

theorem Throughout.stable (trans : ∀ s t u, E s t → E t u → E s u) {p : Program I α}
    (h : p.Throughout M E P Q s) (hs : E s s') : p.Throughout M E P Q s' := by
  cases p with
  | done a => exact fun t ht ↦ h t (trans _ _ _ hs ht)
  | call o k => exact fun t ht ↦ h t (trans _ _ _ hs ht)

/-- The postcondition may be weakened. -/
theorem Throughout.mono {p : Program I α} (h : p.Throughout M E P Q s)
    (hQ : ∀ a s, Q a s → R a s) : p.Throughout M E P R s := by
  induction p generalizing s with
  | done a => exact fun t ht ↦ hQ a t (h t ht)
  | call o k ih => exact fun t ht ↦ ⟨(h t ht).1, ih _ (h t ht).2⟩

/-- The sequencing rule. -/
theorem Throughout.bind (refl : ∀ s, E s s) {p : Program I β} {f : β → Program I α}
    (h : p.Throughout M E P (fun b ↦ (f b).Throughout M E P Q) s) :
    (p >>= f).Throughout M E P Q s := by
  induction p generalizing s with
  | done b => exact h s (refl s)
  | call o k ih => exact fun t ht ↦ ⟨(h t ht).1, ih _ (h t ht).2⟩

/-- One operation, then the rest. -/
theorem Throughout.op_bind {o : I.Op} {f : I.Ans o → Program I α}
    (h : ∀ s', E s s' → P o s' ∧ (f (M.exec o s').2).Throughout M E P Q (M.exec o s').1) :
    (op o >>= f).Throughout M E P Q s := h

/-- A condition that neither the operations nor the surroundings undo still holds at the end. -/
theorem Throughout.carry {allowed : I.Op → Prop} {C : σ → Prop} {p : Program I α}
    (h : p.Throughout M E P Q s) (hp : p.Uses allowed) (around : ∀ s s', E s s' → C s → C s')
    (hop : ∀ o s, allowed o → C s → C (M.exec o s).1) (hs : C s) :
    p.Throughout M E P (fun a s ↦ Q a s ∧ C s) s := by
  induction p generalizing s with
  | done a => exact fun t ht ↦ ⟨h t ht, around s t ht hs⟩
  | call o k ih =>
    exact fun t ht ↦ ⟨(h t ht).1, ih _ (h t ht).2 (hp.2 _) (hop o t hp.1 (around s t ht hs))⟩

/-- It also holds at the end of a run in which nothing else happens. -/
theorem Throughout.at_end (refl : ∀ s, E s s) {p : Program I α} (h : p.Throughout M E P Q s) :
    Q (eval M p s).2 (eval M p s).1 := by
  induction p generalizing s with
  | done a => exact h s (refl s)
  | call o k ih => exact ih _ (h s (refl s)).2

/-- Where nothing else happens, what holds in front of each operation is what holds along the
run. -/
theorem Throughout.of_along {p : Program I α} (h : Along M P p s)
    (hQ : Q (eval M p s).2 (eval M p s).1) : p.Throughout M Eq P Q s := by
  induction p generalizing s with
  | done a =>
    rintro _ rfl
    exact hQ
  | call o k ih =>
    rintro _ rfl
    exact ⟨h.1, ih _ h.2 hQ⟩

end Program

/-- What holds in front of each operation of every call holds at every point of a run. It needs an
invariant that the calls start from and end in, and that holds wherever the process may die. -/
theorem Service.Alone.throughout {S : Service I C σ} {E : σ → σ → Prop}
    {G : C → Option I.Op → σ → Prop} {s₀ s : σ} {p : Program I Unit} {P : I.Op → σ → Prop}
    {inv : σ → Prop} (run : S.Alone E G s₀ p s) (refl : ∀ s, E s s)
    (trans : ∀ s t u, E s t → E t u → E s u) (around : ∀ s s', E s s' → inv s → inv s')
    (start : inv s₀) (cut : ∀ c o s, P o s → G c (some o) s → inv s)
    (body : ∀ c o s, G c o s → inv s →
      (S.body c).Throughout S.toMachine E P (fun _ ↦ inv) s) :
    p.Throughout S.toMachine E P (fun _ ↦ inv) s := by
  induction run with
  | idle => exact fun t ht ↦ around _ t ht start
  | @call p s run c hcut ih =>
    refine body c p.next s hcut ?_
    cases p with
    | done a => exact ih s (refl s)
    | call o k => exact cut c o s (ih s (refl s)).1 hcut
  | op run ih => exact (ih _ (refl _)).2
  | around run he ih =>
    exact Program.Throughout.stable trans ih he

/-- Where nothing else happens, what every call keeps at each of its operations holds at every
point of a run, wherever the process dies. -/
theorem Service.Alone.always {S : Service I C σ} {G : C → Option I.Op → σ → Prop} {s₀ s : σ}
    {p : Program I Unit} {inv : σ → Prop} (run : S.Alone Eq G s₀ p s) (start : inv s₀)
    (body : ∀ c o s, G c o s → inv s →
      Program.Along S.toMachine (fun _ ↦ inv) (S.body c) s ∧ inv (S.after c s)) : inv s := by
  have h : p.Throughout S.toMachine Eq (fun _ ↦ inv) (fun _ ↦ inv) s := by
    refine run.throughout (fun _ ↦ rfl) (fun _ _ _ ↦ Eq.trans) ?_ start (fun _ _ _ h _ ↦ h) ?_
    · rintro _ _ rfl hs
      exact hs
    · intro c o s hc hs
      exact .of_along (body c o s hc hs).1 (body c o s hc hs).2
  cases p with
  | done a => exact h s rfl
  | call o k => exact (h s rfl).1

/-! ## Running a schedule

A particular run is exhibited by evaluation: each entry starts a call, or lets the current one
take its next operation. -/

/-- One step of a process: start a call, or take the next operation. -/
inductive Turn (C : Type) where
  | call (c : C)
  | op

/-- Follow the turns of a process to their end, or fail where one cannot be taken. -/
def Service.turns (S : Service I C σ) (G : C → Option I.Op → σ → Prop)
    [∀ c o s, Decidable (G c o s)] :
    Program I Unit → σ → List (Turn C) → Option (Program I Unit × σ)
  | p, s, [] => some (p, s)
  | p, s, .call c :: ts => if G c p.next s then turns S G (S.body c) s ts else none
  | .call o k, s, .op :: ts => turns S G (k (S.exec o s).2) (S.exec o s).1 ts
  | .done _, _, .op :: _ => none

theorem Service.alone_of_turns {S : Service I C σ} {E : σ → σ → Prop}
    {G : C → Option I.Op → σ → Prop} [∀ c o s, Decidable (G c o s)] {s₀ s s' : σ}
    {p p' : Program I Unit} {ts : List (Turn C)} (run : S.Alone E G s₀ p s)
    (h : S.turns G p s ts = some (p', s')) : S.Alone E G s₀ p' s' := by
  induction ts generalizing p s with
  | nil =>
    obtain ⟨rfl, rfl⟩ := Prod.mk.inj (Option.some.inj h)
    exact run
  | cons t ts ih =>
    cases t with
    | call c =>
      simp only [turns] at h
      split at h
      · next hcut => exact ih (run.call c hcut) h
      · cases h
    | op =>
      cases p with
      | done a => cases h
      | call o k => exact ih run.op h

/-- A property seen by following some turns holds at a point of a run. -/
theorem Service.exists_alone_of_turns {S : Service I C σ} {E : σ → σ → Prop}
    {G : C → Option I.Op → σ → Prop} [∀ c o s, Decidable (G c o s)] {s₀ : σ} (ts : List (Turn C))
    {P : Program I Unit → σ → Prop} [∀ p s, Decidable (P p s)]
    (h : ((S.turns G (.done ()) s₀ ts).any fun point ↦ decide (P point.1 point.2)) = true) :
    ∃ p s, S.Alone E G s₀ p s ∧ P p s := by
  cases hpoint : S.turns G (.done ()) s₀ ts with
  | none => simp [hpoint] at h
  | some point =>
    rw [hpoint] at h
    exact ⟨point.1, point.2, alone_of_turns .idle hpoint, of_decide_eq_true h⟩

end GreenCompute
