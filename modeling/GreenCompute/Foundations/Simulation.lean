import GreenCompute.Foundations.Interleaving

/-!
# One service in place of another

A service may do the work of another one with means of its own, some of which the other does not
have. `shown` says which of its operations counts as which operation of the other, and how that is
answered; the rest leave what is seen of the store as it is (`Service.Mimics`). A method follows the
other service when the operations it shows are those of methods of that service, one after the
other (`Program.Follows`). If every method does, then every run of the service, with any number of
calls at once, shows a run of the other service (`Service.Logs.simulates`).

A method of the other service may be left unfinished, and which one is called may depend on what its
first operation is answered.
-/

namespace GreenCompute

variable {I J : Interface} {C D σ τ : Type}

/-! ## Methods -/

namespace Program

/-- From here on the method shows what is left of `q`, and then, or instead, other methods of the
service, and it ends in `R`. -/
def Follows {α : Type} (T : Service J D τ) (shown : Event I → Option (Event J))
    (R : α → Program J Unit → Prop) : Program I α → Program J Unit → Prop
  | .done a, q => R a q
  | .call o k, q => ∀ r, match shown ⟨o, r⟩ with
    | none => (k r).Follows T shown R q
    | some ⟨o', r'⟩ => ∃ k', (q = .call o' k' ∨ ∃ c, T.body c = .call o' k') ∧
        (k r).Follows T shown R (k' r')

variable {α β : Type} {T : Service J D τ} {shown : Event I → Option (Event J)}
  {R : α → Program J Unit → Prop} {R' : β → Program J Unit → Prop} {q : Program J Unit}

/-- An operation that does not count. -/
theorem Follows.silent {o : I.Op} {f : I.Ans o → Program I α} (h : ∀ r, shown ⟨o, r⟩ = none)
    (hf : ∀ r, (f r).Follows T shown R q) : (op o >>= f).Follows T shown R q := by
  intro r
  rw [h r]
  exact hf r

/-- The sequencing rule. -/
theorem Follows.bind {p : Program I β} {f : β → Program I α} (hp : p.Follows T shown R' q)
    (hf : ∀ b q', R' b q' → (f b).Follows T shown R q') : (p >>= f).Follows T shown R q := by
  induction p generalizing q with
  | done b => exact hf b q hp
  | call o k ih =>
    intro r
    have hr := hp r
    split at hr
    · exact ih r hr
    · obtain ⟨k', hcall, hrest⟩ := hr
      exact ⟨k', hcall, ih r hrest⟩

end Program

/-! ## Runs -/

namespace Service

/-- The operation does to what is seen of the store, and is answered, as what it shows. -/
def Mimics (S : Service I C σ) (T : Service J D τ) (seen : σ → τ)
    (shown : Event I → Option (Event J)) (o : I.Op) (s : σ) : Prop :=
  match shown ⟨o, (S.exec o s).2⟩ with
  | none => seen (S.exec o s).1 = seen s
  | some ⟨o', r⟩ => T.ready o' (seen s) = true ∧ T.exec o' (seen s) = (seen (S.exec o s).1, r)

/-- The call shows what is left of a method, which is finished or is that of its partner. -/
def Paired (T : Service J D τ) (shown : Event I → Option (Event J)) (u : World J D τ)
    (partner : Option ℕ) (t : Thread I C) : Prop :=
  ∃ q, t.rest.Follows T shown (fun _ _ ↦ True) q ∧
    (q = .done () ∨ ∃ j t', partner = some j ∧ u.threads[j]? = some t' ∧ t'.rest = q)

/-- The two worlds have the same store, as it is seen, and each call in progress in the first one is
paired; no two of them have one partner. -/
structure Matched (T : Service J D τ) (seen : σ → τ) (shown : Event I → Option (Event J))
    (partner : ℕ → Option ℕ) (w : World I C σ) (u : World J D τ) : Prop where
  store : u.store = seen w.store
  bound : ∀ i j, partner i = some j → i < w.threads.length ∧ j < u.threads.length
  alone : ∀ i i' j, partner i = some j → partner i' = some j → i = i'
  paired : ∀ i t, w.threads[i]? = some t → Paired T shown u (partner i) t

variable {S : Service I C σ} {T : Service J D τ} {seen : σ → τ}
  {shown : Event I → Option (Event J)} {partner : ℕ → Option ℕ} {w : World I C σ}
  {u : World J D τ}

theorem matched_idle (idle : w.threads = []) :
    Matched T seen shown (fun _ ↦ none) w ⟨seen w.store, []⟩ :=
  ⟨rfl, nofun, nofun, fun i t ht ↦ by simp [idle] at ht⟩

namespace Matched

/-- A call is started. -/
theorem start (h : Matched T seen shown partner w u) {c : C}
    (body : (S.body c).Follows T shown (fun _ _ ↦ True) (.done ())) :
    Matched T seen shown partner (w.start S c) u := by
  refine ⟨h.store, fun i j hij ↦ ?_, h.alone, fun i t ht ↦ ?_⟩
  · obtain ⟨hi, hj⟩ := h.bound i j hij
    exact ⟨by simp only [World.start, List.length_append]; omega, hj⟩
  · rcases Nat.lt_or_ge i w.threads.length with hi | hi
    · rw [World.start, List.getElem?_append_left hi] at ht
      exact h.paired i t ht
    · rw [World.start, List.getElem?_append_right hi] at ht
      obtain rfl := List.mem_singleton.mp (List.mem_of_getElem? ht)
      exact ⟨.done (), body, .inl rfl⟩

variable {i : ℕ} {c : C} {past : List (Event I)} {o : I.Op} {k : I.Ans o → Program I Unit}

/-- An operation is taken that does not count. -/
theorem silent (h : Matched T seen shown partner w u)
    (thread : w.threads[i]? = some ⟨c, past, .call o k⟩)
    (hshown : shown ⟨o, (S.exec o w.store).2⟩ = none)
    (hseen : seen (S.exec o w.store).1 = seen w.store) :
    Matched T seen shown partner (w.answer S i c past o k) u := by
  refine ⟨h.store.trans hseen.symm, fun i' j hij ↦ ?_, h.alone, fun i' t ht ↦ ?_⟩
  · rw [World.answer, List.length_set]
    exact h.bound i' j hij
  · rw [World.answer] at ht
    by_cases hi : i = i'
    · subst hi
      obtain ⟨q, hfollows, hq⟩ := h.paired i _ thread
      have hlast := hfollows (S.exec o w.store).2
      rw [hshown] at hlast
      rw [List.getElem?_set_self (List.getElem?_eq_some_iff.mp thread).1] at ht
      obtain rfl := Option.some.inj ht
      exact ⟨q, hlast, hq⟩
    · rw [List.getElem?_set_ne hi] at ht
      exact h.paired i' t ht

variable {j : ℕ} {o' : J.Op} {r : J.Ans o'} {k' : J.Ans o' → Program J Unit} {d : D}
  {past' : List (Event J)}

/-- An operation is taken that counts, and so its partner takes it. -/
theorem both (store : u.store = seen w.store)
    (bound : ∀ i j, partner i = some j → i < w.threads.length ∧ j < u.threads.length)
    (alone : ∀ i i' j, partner i = some j → partner i' = some j → i = i')
    (others : ∀ i' t, i ≠ i' → w.threads[i']? = some t → Paired T shown u (partner i') t)
    (thread : w.threads[i]? = some ⟨c, past, .call o k⟩) (hpartner : partner i = some j)
    (thread' : u.threads[j]? = some ⟨d, past', .call o' k'⟩)
    (hrest : (k (S.exec o w.store).2).Follows T shown (fun _ _ ↦ True) (k' r))
    (hexec : T.exec o' (seen w.store) = (seen (S.exec o w.store).1, r)) :
    Matched T seen shown partner (w.answer S i c past o k) (u.answer T j d past' o' k') := by
  have hans : T.exec o' u.store = (seen (S.exec o w.store).1, r) := by rw [store, hexec]
  refine ⟨congrArg Prod.fst hans, fun i' j' hij ↦ ?_, alone, fun i' t ht ↦ ?_⟩
  · rw [World.answer, World.answer, List.length_set, List.length_set]
    exact bound i' j' hij
  · rw [World.answer] at ht
    by_cases hi : i = i'
    · subst hi
      rw [List.getElem?_set_self (List.getElem?_eq_some_iff.mp thread).1] at ht
      obtain rfl := Option.some.inj ht
      refine ⟨k' r, hrest, .inr ⟨j, _, hpartner,
        List.getElem?_set_self (List.getElem?_eq_some_iff.mp thread').1, ?_⟩⟩
      exact congrArg (fun e : τ × J.Ans o' ↦ k' e.2) hans
    · rw [List.getElem?_set_ne hi] at ht
      obtain ⟨q, hfollows, hq⟩ := others i' t hi ht
      refine ⟨q, hfollows, hq.imp_right ?_⟩
      rintro ⟨j', t', hpartner', ht', hq'⟩
      refine ⟨j', t', hpartner', ?_, hq'⟩
      -- No other call has this partner.
      have hne : j ≠ j' := fun heq ↦ hi (alone i i' j hpartner (heq ▸ hpartner'))
      rw [World.answer, List.getElem?_set_ne hne]
      exact ht'

end Matched

/-- A run of a service whose methods follow another service, and whose operations mimic what they
show, goes with a run of that service: the operations taken are those shown, and what is seen of the
store is its store. -/
theorem Logs.simulates {G : Guard I C σ} {w w' : World I C σ} {log : List (Entry I C)}
    (run : S.Logs G w log w') (start : Matched T seen shown partner w u)
    (body : ∀ c, (S.body c).Follows T shown (fun _ _ ↦ True) (.done ()))
    (mimics : ∀ c past o s, S.ready o s = true → G c past o s → S.Mimics T seen shown o s) :
    ∃ partner' log' u', T.Logs Guard.free u log' u' ∧ Matched T seen shown partner' w' u' ∧
      log'.map Entry.event = log.filterMap fun entry ↦ shown entry.event := by
  induction run with
  | refl => exact ⟨partner, [], u, .refl, start, rfl⟩
  | start run c ih =>
    obtain ⟨partner, log', u', hrun, hmatched, hlog⟩ := ih
    exact ⟨partner, log', u', hrun, hmatched.start (body c), hlog⟩
  | @answer log v run i c past o k thread ready guarded ih =>
    obtain ⟨partner, log', u', hrun, hmatched, hlog⟩ := ih
    have hmimics := mimics c past o v.store ready guarded
    rw [Mimics] at hmimics
    cases hshown : shown ⟨o, (S.exec o v.store).2⟩ with
    | none =>
      rw [hshown] at hmimics
      refine ⟨partner, log', u', hrun, hmatched.silent thread hshown hmimics, ?_⟩
      rw [hlog, List.filterMap_append]
      simp only [List.filterMap_cons, hshown, List.filterMap_nil, List.append_nil]
    | some e =>
      obtain ⟨o', r⟩ := e
      rw [hshown] at hmimics
      obtain ⟨hready, hexec⟩ := hmimics
      rw [← hmatched.store] at hready
      obtain ⟨q, hfollows, hq⟩ := hmatched.paired i _ thread
      have hlast := hfollows (S.exec o v.store).2
      rw [hshown] at hlast
      obtain ⟨k', hcall, hrest⟩ := hlast
      have hans : (T.exec o' u'.store).2 = r := by rw [hmatched.store, hexec]
      have hentry (d : D) :
          (log' ++ [(⟨d, ⟨o', (T.exec o' u'.store).2⟩⟩ : Entry J D)]).map Entry.event =
            (log ++ [(⟨c, ⟨o, (S.exec o v.store).2⟩⟩ : Entry I C)]).filterMap
              fun entry ↦ shown entry.event := by
        rw [List.map_append, hlog, List.filterMap_append, hans]
        simp only [List.filterMap_cons, hshown, List.filterMap_nil, List.map_cons, List.map_nil]
      rcases hcall with rfl | ⟨d, hd⟩
      · -- The method it shows is in progress.
        rcases hq with hdone | ⟨j, ⟨d, past', rest⟩, hpartner, hthread, rfl⟩
        · cases hdone
        · exact ⟨partner, _, _, .answer hrun j d past' o' k' hthread hready trivial,
            .both hmatched.store hmatched.bound hmatched.alone
              (fun i' t _ ht ↦ hmatched.paired i' t ht) thread hpartner hthread hrest hexec,
            hentry d⟩
      · -- It shows the first operation of a method, which is called now.
        have hnew : (u'.start T d).threads[u'.threads.length]? =
            some ⟨d, [], .call o' k'⟩ := by
          rw [World.start, List.getElem?_append_right (Nat.le_refl _), Nat.sub_self, hd]
          rfl
        have hi := (List.getElem?_eq_some_iff.mp thread).1
        refine ⟨Function.update partner i (some u'.threads.length), _, _,
          .answer (hrun.start d) _ d [] o' k' hnew hready trivial,
          .both hmatched.store (fun i' j hij ↦ ?_) (fun i₁ i₂ j h₁ h₂ ↦ ?_)
            (fun i' t hne ht ↦ ?_) thread (Function.update_self ..) hnew hrest hexec, hentry d⟩
        · rw [World.start, List.length_append]
          by_cases hii : i' = i
          · subst hii
            rw [Function.update_self] at hij
            obtain rfl := Option.some.inj hij
            exact ⟨hi, Nat.lt_succ_self _⟩
          · rw [Function.update_of_ne hii] at hij
            obtain ⟨hi', hj⟩ := hmatched.bound i' j hij
            exact ⟨hi', Nat.lt_succ_of_lt hj⟩
        · by_cases hi₁ : i₁ = i <;> by_cases hi₂ : i₂ = i
          · rw [hi₁, hi₂]
          · rw [hi₁, Function.update_self] at h₁
            rw [Function.update_of_ne hi₂] at h₂
            obtain rfl := Option.some.inj h₁
            exact absurd (hmatched.bound i₂ _ h₂).2 (Nat.lt_irrefl _)
          · rw [Function.update_of_ne hi₁] at h₁
            rw [hi₂, Function.update_self] at h₂
            obtain rfl := Option.some.inj h₂
            exact absurd (hmatched.bound i₁ _ h₁).2 (Nat.lt_irrefl _)
          · rw [Function.update_of_ne hi₁] at h₁
            rw [Function.update_of_ne hi₂] at h₂
            exact hmatched.alone i₁ i₂ j h₁ h₂
        · rw [Function.update_of_ne hne.symm]
          obtain ⟨q', hfollows', hq'⟩ := hmatched.paired i' t ht
          refine ⟨q', hfollows', hq'.imp_right ?_⟩
          rintro ⟨j, t', hpartner', ht', hrest'⟩
          refine ⟨j, t', hpartner', ?_, hrest'⟩
          rw [World.start, List.getElem?_append_left (hmatched.bound i' j hpartner').2]
          exact ht'

end Service

end GreenCompute
