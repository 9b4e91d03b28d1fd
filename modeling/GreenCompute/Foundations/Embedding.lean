import GreenCompute.Foundations.Program

/-!
# Methods on a part of a store

A store may contain another one, and offer its operations among its own. A method of the part is
then a method of the whole: each of its operations is taken as the operation of the whole that does
the same, and reads its answer off the answer of that. `Program.embed` is this translation, and what
is known of the operations and the sequencing of the method carries over.
-/

namespace GreenCompute

variable {I J : Interface} {α β : Type}

namespace Program

/-- The method of the part, taken in the whole. -/
def embed (op : I.Op → J.Op) (back : ∀ o, J.Ans (op o) → I.Ans o) : Program I α → Program J α
  | .done a => .done a
  | .call o k => .call (op o) fun r ↦ (k (back o r)).embed op back

variable {op : I.Op → J.Op} {back : ∀ o, J.Ans (op o) → I.Ans o}

@[simp] theorem embed_done (a : α) : (Program.done a : Program I α).embed op back = .done a := rfl

@[simp] theorem embed_bind (p : Program I α) (f : α → Program I β) :
    (p >>= f).embed op back = p.embed op back >>= fun a ↦ (f a).embed op back := by
  induction p with
  | done a => rfl
  | call o k ih =>
    rw [call_bind, embed, embed, call_bind]
    congr 1
    funext r
    exact ih _

/-- The operations of an embedded method are those of the method. -/
theorem Uses.embed {allowed : I.Op → Prop} {allowed' : J.Op → Prop} {p : Program I α}
    (hp : p.Uses allowed) (h : ∀ o, allowed o → allowed' (op o)) :
    (p.embed op back).Uses allowed' := by
  induction p with
  | done a => trivial
  | call o k ih => exact ⟨h o hp.1, fun r ↦ ih _ (hp.2 _)⟩

end Program

end GreenCompute
