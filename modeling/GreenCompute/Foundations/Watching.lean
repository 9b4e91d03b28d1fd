import GreenCompute.Foundations.Interleaving

/-!
# Methods with a view of their history

What a method may do next often depends on little of what it has been answered: the last row it
read, or whether it holds a claim. A view is that part of the history, with how each answered
operation changes it. `Program.Watches` says that each operation a method comes to meets a condition
on the view it then has, whatever the answers; `Service.Reaches.watches` carries it to every call in
progress of a run.
-/

namespace GreenCompute

variable {I : Interface} {α β C V σ : Type}

namespace Program

/-- Every operation the method comes to meets `φ` in the view it then has, and it ends in `Q`. -/
def Watches (look : V → Event I → V) (φ : V → I.Op → Prop) (Q : α → V → Prop) :
    Program I α → V → Prop
  | .done a, v => Q a v
  | .call o k, v => φ v o ∧ ∀ r, (k r).Watches look φ Q (look v ⟨o, r⟩)

variable {look : V → Event I → V} {φ : V → I.Op → Prop} {Q R : α → V → Prop} {v : V}

theorem Watches.mono {p : Program I α} (h : p.Watches look φ Q v) (hQ : ∀ a v, Q a v → R a v) :
    p.Watches look φ R v := by
  induction p generalizing v with
  | done a => exact hQ a v h
  | call o k ih => exact ⟨h.1, fun r ↦ ih r (h.2 r)⟩

/-- The sequencing rule. -/
theorem Watches.bind {p : Program I β} {f : β → Program I α} {P : β → V → Prop}
    (hp : p.Watches look φ P v) (hf : ∀ b v, P b v → (f b).Watches look φ Q v) :
    (p >>= f).Watches look φ Q v := by
  induction p generalizing v with
  | done b => exact hf b v hp
  | call o k ih => exact ⟨hp.1, fun r ↦ ih r (hp.2 r)⟩

/-- One operation, then the rest. -/
theorem Watches.op_bind {o : I.Op} {f : I.Ans o → Program I α} (ho : φ v o)
    (hf : ∀ r, (f r).Watches look φ Q (look v ⟨o, r⟩)) : (op o >>= f).Watches look φ Q v :=
  ⟨ho, hf⟩

/-- A method whose operations are all allowed ends in a view of a kind that allowed operations meet
their condition in and keep. -/
theorem Uses.watches {allowed : I.Op → Prop} {P : V → Prop} {p : Program I α}
    (hp : p.Uses allowed) (hφ : ∀ v o, P v → allowed o → φ v o)
    (hkeep : ∀ v o r, P v → allowed o → P (look v ⟨o, r⟩)) (hv : P v) :
    p.Watches look φ (fun _ ↦ P) v := by
  induction p generalizing v with
  | done a => exact hv
  | call o k ih => exact ⟨hφ v o hv hp.1, fun r ↦ ih r (hp.2 r) (hkeep v o r hv hp.1)⟩

end Program

/-- In a run from a world with no call in progress, what is left of every call goes on from the view
that its history gives. -/
theorem Service.Reaches.watches {S : Service I C σ} {G : Guard I C σ} {w w' : World I C σ}
    (h : S.Reaches G w w') (hidle : w.threads = []) {look : V → Event I → V}
    {φ : C → V → I.Op → Prop} {Q : Unit → V → Prop} {v₀ : V}
    (body : ∀ c, (S.body c).Watches look (φ c) Q v₀) :
    ∀ t ∈ w'.threads, t.rest.Watches look (φ t.call) Q (t.past.foldl look v₀) := by
  induction h with
  | refl => simp [hidle]
  | tail _ hstep ih =>
    cases hstep with
    | start c =>
      intro t ht
      rcases List.mem_append.mp ht with ht | ht
      · exact ih t ht
      · obtain rfl := List.mem_singleton.mp ht
        exact body c
    | answer i c past o k thread ready guarded =>
      have hleft := ih _ (List.mem_of_getElem? thread)
      intro t ht
      rcases List.mem_or_eq_of_mem_set ht with ht | rfl
      · exact ih t ht
      · rw [List.foldl_append]
        exact hleft.2 _

end GreenCompute
