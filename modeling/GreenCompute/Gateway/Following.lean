import GreenCompute.Gateway.Webhooks

/-!
# Followers miss no event

What a webhook's cursor has passed was posted to it or was not wanted, and what a client's cursor
has passed was given to it once: a customer's events become visible in the order of their ids, so
nothing comes up behind a cursor.

The first posts to a webhook are in the order of the ids as well, unless a turn dies between a post
and recording it. The events it had passed over on the way are then passed over for good only as far
as the webhook's types stay as they are: if they come to be wanted before another turn has passed
them, they are posted after the later one. `followers_miss_nothing` is about the runs in which that
does not happen.
-/

namespace GreenCompute

/-- A later state of the events, in which nothing of the customer's has gone above an id. -/
structure EventsDb.Extends (s s' : EventsDb) (userId : UserId) (c : AccountEventId) : Prop where
  settled : ∀ c', s.Settled userId c' → s'.Settled userId c'
  seen : ∀ i e, s'.Committed i e → e.userId = userId →
    s.Committed i e ∨ ∀ c', s.Settled userId c' → c' < i
  kept : ∀ i e, s.Committed i e → e.userId = userId → c < i → s'.Committed i e

/-! ## What holds of a webhook -/

namespace Endpoint

/-- Every event of the customer's up to an id was posted, or was not wanted when it was passed. -/
def Covers (p : Endpoint) (s : EventsDb) (c : AccountEventId) : Prop :=
  ∀ i e, s.Committed i e → e.userId = p.row.userId → p.start < i → i ≤ c →
    i ∈ p.posted ∨ ∃ types, (i, types) ∈ p.passed ∧ ¬Wants types e.type

/-- An event that the saved cursor has not passed and that was not posted, while a later one was. -/
def Stranded (p : Endpoint) (s : EventsDb) (i : AccountEventId) (e : AccountEvent) : Prop :=
  s.Committed i e ∧ e.userId = p.row.userId ∧ p.row.lastEventId < i ∧ i ∉ p.posted ∧
    ∃ j ∈ p.posted, i < j

instance (p : Endpoint) (s : EventsDb) (i : AccountEventId) (e : AccountEvent) :
    Decidable (p.Stranded s i e) := inferInstanceAs (Decidable (_ ∧ _))

/-- Nothing that is stranded is wanted. -/
def NoneWanted (p : Endpoint) (s : EventsDb) : Prop :=
  ∀ x ∈ s.rows.rows, p.Stranded s x.1 x.2.event → ¬Wants p.row.events x.2.event.type

instance (p : Endpoint) (s : EventsDb) : Decidable (p.NoneWanted s) :=
  inferInstanceAs (Decidable (∀ x ∈ s.rows.rows, _))

/-- What a turn has read and done. -/
structure TurnSound (p : Endpoint) (s : EventsDb) (t : DeliveryTurn) : Prop where
  le_cursor : p.row.lastEventId ≤ t.cursor
  settled : s.Settled p.row.userId t.cursor
  covers : p.Covers s t.cursor
  ascending : Ascending Prod.fst t.events
  above : ∀ x ∈ t.events, t.cursor < x.1
  committed : ∀ x ∈ t.events, s.Committed x.1 x.2 ∧ x.2.userId = p.row.userId
  complete : ∀ i e, s.Committed i e → e.userId = p.row.userId → t.cursor < i →
    (i, e) ∈ t.events ∨ ∀ x ∈ t.events, x.1 < i
  saved : t.phase = .look → t.passedOver = false → t.cursor ≤ p.row.lastEventId
  sending : ∀ url secret, t.phase = .sending url secret → ∀ x ∈ t.events.head?,
    x.1 ∈ p.posted ∨ ∀ j ∈ p.posted, j < x.1

/-- What holds of a webhook in every run: nothing is missed, and what is stranded has been passed by
the turn under way or is not wanted. -/
structure Sound (p : Endpoint) (s : EventsDb) : Prop where
  start_le : p.start ≤ p.row.lastEventId
  settled : s.Settled p.row.userId p.row.lastEventId
  covers : p.Covers s p.row.lastEventId
  posted : ∀ j ∈ p.posted, s.Settled p.row.userId j
  ascending : p.posted.eraseDups.Pairwise (· < ·)
  turn : ∀ t, p.turn = some t → p.TurnSound s t
  stranded : ∀ i e, p.Stranded s i e → Wants p.row.events e.type →
    ∃ t, p.turn = some t ∧ i ≤ t.cursor

end Endpoint

/-- A webhook that starts to want an event stranded by a turn that died, or a turn that ends without
saving where it is and leaves such an event, would send the event after a later one. -/
def EndpointOp.Keeps (s : EventsDb) (p : Endpoint) : EndpointOp → Prop
  | update userId _ events _ => userId = p.row.userId → ∀ x ∈ s.rows.rows,
      p.Stranded s x.1 x.2.event → (∀ t ∈ p.turn, t.cursor < x.1) →
        ¬Wants (events.getD p.row.events) x.2.event.type
  | look => p.row.active = false → p.NoneWanted s
  | crash => p.NoneWanted s
  | _ => True

/-- No step strands an event that is wanted. -/
def FeedOp.Keeps : FeedOp → FeedDb → Prop
  | endpoint w o, s => ∀ p ∈ s.webhooks.get? w, o.Keeps s.events p
  | _, _ => True

instance (s : EventsDb) (p : Endpoint) (o : EndpointOp) : Decidable (o.Keeps s p) := by
  cases o <;> unfold EndpointOp.Keeps <;> infer_instance

instance (o : FeedOp) (s : FeedDb) : Decidable (o.Keeps s) := by
  rcases o with _ | _ <;> unfold FeedOp.Keeps <;> infer_instance

namespace EventsDb

variable {s s' : EventsDb} {userId : UserId} {i after : AccountEventId} {e : AccountEvent}

theorem mem_eventsAfter :
    (i, e) ∈ s.eventsAfter userId after ↔ s.Committed i e ∧ e.userId = userId ∧ after < i := by
  rw [eventsAfter, mem_read, decide_eq_true_iff]

theorem ascending_eventsAfter (s : EventsDb) (userId : UserId) (after : AccountEventId) :
    Ascending Prod.fst (s.eventsAfter userId after) := s.ascending_read _

theorem Sound.extends_exec (h : s.Sound) (o : EventOp) (userId : UserId) (c : AccountEventId) :
    s.Extends (o.exec s) userId c where
  settled _ hc := hc.exec o
  seen _ _ hi huser := by
    rw [← huser]
    exact committed_exec hi
  kept _ _ hi _ _ := h.committed_of_exec hi o

/-- Deleting what everyone has dealt with. -/
theorem extends_pruneEvents {now : Time} {c : AccountEventId}
    (h : ∀ i r, s.rows.get? i = some r → r.event.userId = userId → Prunes now r → i ≤ c) :
    s.Extends (s.pruneEvents now) userId c where
  settled c' hc' := by
    refine ⟨hc'.1, fun i r w hr huser hwriter ↦ ?_⟩
    change (s.rows.filter _).get? i = some r at hr
    rw [Table.get?_filter] at hr
    exact hc'.2 i r w (Option.filter_eq_some_iff.mp hr).1 huser hwriter
  seen i e hi _ := by
    change (s.rows.filter _).get? i = _ at hi
    rw [Table.get?_filter] at hi
    exact .inl (Option.filter_eq_some_iff.mp hi).1
  kept i e hi huser hc := by
    change (s.rows.filter _).get? i = _
    rw [Table.get?_filter, Option.filter_eq_some_iff]
    refine ⟨hi, decide_eq_true fun hprunes ↦ ?_⟩
    exact absurd (h i _ hi huser hprunes) (not_le.mpr hc)

theorem Sound.pruneEvents (h : s.Sound) (now : Time) : (s.pruneEvents now).Sound := by
  have hold : ∀ i r, (s.pruneEvents now).rows.get? i = some r → s.rows.get? i = some r := by
    intro i r hr
    change (s.rows.filter _).get? i = some r at hr
    rw [Table.get?_filter] at hr
    exact (Option.filter_eq_some_iff.mp hr).1
  exact ⟨h.nextId_pos, fun i r hr ↦ h.bounds i r (hold i r hr),
    fun i r j r' w w' hr hr' ↦ h.locked i r j r' w w' (hold i r hr) (hold j r' hr'),
    fun i r j r' w hr hr' ↦ h.ordered i r j r' w (hold i r hr) (hold j r' hr')⟩

end EventsDb

namespace Endpoint

variable {s s' : EventsDb} {p : Endpoint} {t : DeliveryTurn} {i c : AccountEventId}
  {e : AccountEvent}

/-! ## Events and other customers -/

theorem Covers.extends (h : p.Covers s c) (hext : s.Extends s' p.row.userId p.row.lastEventId)
    (hc : s.Settled p.row.userId c) : p.Covers s' c := by
  intro i e hi huser hstart hle
  rcases hext.seen i e hi huser with hold | hnew
  · exact h i e hold huser hstart hle
  · exact absurd (hnew c hc) hle.not_gt

theorem TurnSound.extends (h : p.TurnSound s t)
    (hext : s.Extends s' p.row.userId p.row.lastEventId) (hsound : s.Sound) :
    p.TurnSound s' t where
  le_cursor := h.le_cursor
  settled := hext.settled _ h.settled
  covers := h.covers.extends hext h.settled
  ascending := h.ascending
  above := h.above
  committed x hx := by
    obtain ⟨hi, huser⟩ := h.committed x hx
    exact ⟨hext.kept _ _ hi huser (h.le_cursor.trans_lt (h.above x hx)), huser⟩
  complete i e hi huser hlt := by
    rcases hext.seen i e hi huser with hold | hnew
    · exact h.complete i e hold huser hlt
    · refine .inr fun x hx ↦ hnew x.1 ?_
      obtain ⟨hx, hxuser⟩ := h.committed x hx
      rw [← hxuser]
      exact hsound.settled hx
  saved := h.saved
  sending := h.sending

theorem Sound.extends (h : p.Sound s) (hext : s.Extends s' p.row.userId p.row.lastEventId)
    (hsound : s.Sound) : p.Sound s' where
  start_le := h.start_le
  settled := hext.settled _ h.settled
  covers := h.covers.extends hext h.settled
  posted j hj := hext.settled _ (h.posted j hj)
  ascending := h.ascending
  turn t ht := (h.turn t ht).extends hext hsound
  stranded i e hstranded hwants := by
    obtain ⟨hi, huser, hlt, hposted, j, hj, hij⟩ := hstranded
    rcases hext.seen i e hi huser with hold | hnew
    · exact h.stranded i e ⟨hold, huser, hlt, hposted, j, hj, hij⟩ hwants
    · exact absurd (hnew j (h.posted j hj)) hij.not_gt

/-! ## What a step of the webhook keeps -/

theorem covers_row {row : Webhook} (huser : row.userId = p.row.userId)
    (turn : Option DeliveryTurn) :
    Covers { p with row := row, turn := turn } s c ↔ p.Covers s c := by
  simp only [Covers, huser]

/-- A change of the webhook's own columns that leaves its account and its cursor. -/
theorem TurnSound.row (h : p.TurnSound s t) {row : Webhook} (huser : row.userId = p.row.userId)
    (hlast : row.lastEventId = p.row.lastEventId) : TurnSound { p with row := row } s t where
  le_cursor := hlast.trans_le h.le_cursor
  settled := by
    rw [huser]
    exact h.settled
  covers := (covers_row huser p.turn).mpr h.covers
  ascending := h.ascending
  above := h.above
  committed x hx := by
    rw [huser]
    exact h.committed x hx
  complete i e hi hiuser := h.complete i e hi (hiuser.trans huser)
  saved hphase hpassed := (h.saved hphase hpassed).trans hlast.ge
  sending := h.sending

theorem Sound.row (h : p.Sound s) {row : Webhook} (huser : row.userId = p.row.userId)
    (hlast : row.lastEventId = p.row.lastEventId)
    (hwants : ∀ i e, p.Stranded s i e → (∀ t, p.turn = some t → t.cursor < i) →
      ¬Wants row.events e.type) : Sound { p with row := row } s where
  start_le := h.start_le.trans hlast.ge
  settled := by
    rw [huser, hlast]
    exact h.settled
  covers := by
    rw [hlast]
    exact (covers_row huser p.turn).mpr h.covers
  posted := by
    rw [huser]
    exact h.posted
  ascending := h.ascending
  turn t ht := (h.turn t ht).row huser hlast
  stranded i e hstranded hwanted := by
    obtain ⟨hi, hiuser, hlt, hrest⟩ := hstranded
    by_contra hnone
    refine hwants i e ⟨hi, hiuser.trans huser, hlast.symm.trans_lt hlt, hrest⟩ ?_ hwanted
    intro t ht
    by_contra hle
    exact hnone ⟨t, ht, not_lt.mp hle⟩

/-- The turn's cursor is saved. -/
theorem Sound.save (h : p.Sound s) (ht : p.turn = some t) {row : Webhook}
    {turn : Option DeliveryTurn} (huser : row.userId = p.row.userId)
    (hevents : row.events = p.row.events)
    (hlast : row.lastEventId = max p.row.lastEventId t.cursor)
    (hturn : ∀ t', turn = some t' → TurnSound { p with row := row, turn := turn } s t') :
    Sound { p with row := row, turn := turn } s := by
  have hsound := h.turn t ht
  have hcursor : row.lastEventId = t.cursor := hlast.trans (max_eq_right hsound.le_cursor)
  refine ⟨?_, ?_, ?_, ?_, h.ascending, hturn, ?_⟩
  · exact h.start_le.trans (hsound.le_cursor.trans hcursor.ge)
  · rw [huser, hcursor]
    exact hsound.settled
  · rw [hcursor]
    exact (covers_row huser turn).mpr hsound.covers
  · rw [huser]
    exact h.posted
  · -- What the turn has passed is behind the saved cursor.
    rintro i e ⟨hi, hiuser, hlt, hrest⟩ hwants
    have hlt : t.cursor < i := hcursor.symm.trans_lt hlt
    obtain ⟨t', ht', hle⟩ := h.stranded i e
      ⟨hi, hiuser.trans huser, hsound.le_cursor.trans_lt hlt, hrest⟩ (hevents ▸ hwants)
    obtain rfl := Option.some.inj (ht.symm.trans ht')
    exact absurd hlt hle.not_gt

/-- The turn ends without saving its cursor. -/
theorem Sound.drop (h : p.Sound s) (hnone : p.NoneWanted s) : Sound { p with turn := none } s where
  start_le := h.start_le
  settled := h.settled
  covers := h.covers
  posted := h.posted
  ascending := h.ascending
  turn := nofun
  stranded i e hstranded hwants := absurd hwants (hnone (i, ⟨e, none⟩)
    (Table.mem_rows_iff.mpr hstranded.1) hstranded)

/-- The turn ends with nothing to save. -/
theorem Sound.rest (h : p.Sound s) (ht : p.turn = some t) (hle : t.cursor ≤ p.row.lastEventId) :
    Sound { p with turn := none } s := by
  refine h.drop fun x _ hstranded hwants ↦ ?_
  obtain ⟨t', ht', hcursor⟩ := h.stranded _ _ hstranded hwants
  obtain rfl := Option.some.inj (ht.symm.trans ht')
  exact absurd hstranded.2.2.1 (hcursor.trans hle).not_gt

/-- A turn begins. -/
theorem Sound.begin (h : p.Sound s) (hturn : p.turn = none) (n : ℕ) :
    Sound { p with turn := some ⟨p.row.lastEventId,
      (s.eventsAfter p.row.userId p.row.lastEventId).take n, false, .look⟩ } s := by
  have hascending := s.ascending_eventsAfter p.row.userId p.row.lastEventId
  refine ⟨h.start_le, h.settled, h.covers, h.posted, h.ascending, ?_, ?_⟩
  · rintro t ⟨⟩
    refine ⟨le_rfl, h.settled, h.covers, hascending.take n, ?_, ?_, ?_, fun _ _ ↦ le_rfl, nofun⟩
    · intro x hx
      exact (EventsDb.mem_eventsAfter.mp (List.mem_of_mem_take hx)).2.2
    · intro x hx
      obtain ⟨hi, huser, -⟩ := EventsDb.mem_eventsAfter.mp (List.mem_of_mem_take hx)
      exact ⟨hi, huser⟩
    · intro i e hi huser hlt
      by_cases hle : ∃ x ∈ (s.eventsAfter p.row.userId p.row.lastEventId).take n, i ≤ x.1
      · obtain ⟨x, hx, hle⟩ := hle
        have hmem := EventsDb.mem_eventsAfter.mpr ⟨hi, huser, hlt⟩
        exact .inl (hascending.mem_take_of_le hx hmem hle)
      · refine .inr fun x hx ↦ ?_
        by_contra hnot
        exact hle ⟨x, hx, not_lt.mp hnot⟩
  · intro i e hstranded hwants
    obtain ⟨t, ht, -⟩ := h.stranded i e hstranded hwants
    exact nomatch hturn.symm.trans ht

section turn

variable {cursor : AccountEventId} {rest : List (AccountEventId × AccountEvent)} {passedOver : Bool}
  {phase : TurnPhase}

theorem Covers.mono (h : p.Covers s c) {p' : Endpoint} (hrow : p'.row = p.row)
    (hstart : p'.start = p.start) (hposted : p.posted ⊆ p'.posted)
    (hpassed : p.passed ⊆ p'.passed) : p'.Covers s c := by
  intro i e hi huser hlt hle
  rw [hrow] at huser
  rw [hstart] at hlt
  rcases h i e hi huser hlt hle with hmem | ⟨types, hmem, hnot⟩
  · exact .inl (hposted hmem)
  · exact .inr ⟨types, hpassed hmem, hnot⟩

/-- The turn goes on behind an event that it has dealt with. -/
theorem TurnSound.advance (h : p.TurnSound s ⟨cursor, (i, e) :: rest, passedOver, phase⟩)
    (hsound : s.Sound) {p' : Endpoint} (hrow : p'.row = p.row) (hstart : p'.start = p.start)
    (hposted : p.posted ⊆ p'.posted) (hpassed : p.passed ⊆ p'.passed)
    (hdealt : i ∈ p'.posted ∨ ∃ types, (i, types) ∈ p'.passed ∧ ¬Wants types e.type)
    {passedOver' : Bool} {phase' : TurnPhase} (hsaved : phase' = .look → passedOver' = true)
    (hsending : ∀ url secret, phase' ≠ .sending url secret) :
    p'.TurnSound s ⟨i, rest, passedOver', phase'⟩ := by
  obtain ⟨hi, huser⟩ := h.committed (i, e) List.mem_cons_self
  have hlt : cursor < i := h.above (i, e) List.mem_cons_self
  obtain ⟨hfirst, hrest⟩ := List.pairwise_cons.mp h.ascending
  -- Of the customer's events above the cursor, this is the first.
  have hnext : ∀ i' e', s.Committed i' e' → e'.userId = p.row.userId → cursor < i' →
      i' = i ∧ e' = e ∨ (i', e') ∈ rest ∨ ∀ x ∈ (i, e) :: rest, x.1 < i' := by
    intro i' e' hi' huser' hlt'
    rcases h.complete i' e' hi' huser' hlt' with hmem | hbehind
    · rcases List.mem_cons.mp hmem with heq | hmem
      · exact .inl (Prod.mk.inj heq)
      · exact .inr (.inl hmem)
    · exact .inr (.inr hbehind)
  refine ⟨?_, ?_, ?_, hrest, hfirst, ?_, ?_, ?_, fun url secret hphase ↦ ?_⟩
  · rw [hrow]
    exact h.le_cursor.trans hlt.le
  · rw [hrow, ← huser]
    exact hsound.settled hi
  · intro i' e' hi' huser' hlt' hle'
    by_cases hold : i' ≤ cursor
    · exact h.covers.mono hrow hstart hposted hpassed i' e' hi' huser' hlt' hold
    · rcases hnext i' e' hi' (huser'.trans (by rw [hrow])) (not_le.mp hold) with
        ⟨rfl, rfl⟩ | hmem | hbehind
      · exact hdealt
      · exact absurd (hfirst _ hmem) hle'.not_gt
      · exact absurd (hbehind (i, e) List.mem_cons_self) hle'.not_gt
  · intro x hx
    rw [hrow]
    exact h.committed x (List.mem_cons_of_mem _ hx)
  · intro i' e' hi' huser' hlt'
    rw [hrow] at huser'
    rcases hnext i' e' hi' huser' (hlt.trans hlt') with ⟨rfl, -⟩ | hmem | hbehind
    · exact absurd hlt' (lt_irrefl i')
    · exact .inl hmem
    · exact .inr fun x hx ↦ hbehind x (List.mem_cons_of_mem _ hx)
  · intro hphase hpassedOver
    exact absurd ((hsaved hphase).symm.trans hpassedOver) (by decide)
  · exact absurd hphase (hsending url secret)

/-- The turn has come to its event. -/
theorem TurnSound.comes (h : p.TurnSound s ⟨cursor, (i, e) :: rest, passedOver, phase⟩)
    {turn : Option DeliveryTurn} {phase' : TurnPhase} (hlook : phase' ≠ .look)
    (hsending : ∀ url secret, phase' = .sending url secret → i ∈ p.posted ∨ ∀ j ∈ p.posted, j < i) :
    TurnSound { p with turn := turn } s ⟨cursor, (i, e) :: rest, passedOver, phase'⟩ where
  le_cursor := h.le_cursor
  settled := h.settled
  covers := h.covers
  ascending := h.ascending
  above := h.above
  committed := h.committed
  complete := h.complete
  saved hphase := absurd hphase hlook
  sending url secret hphase x hx := by
    obtain rfl := Option.some.inj hx
    exact hsending url secret hphase

/-- The turn passes over an event that is not wanted. -/
theorem Sound.pass (h : p.Sound s) (hsound : s.Sound)
    (ht : p.turn = some ⟨cursor, (i, e) :: rest, passedOver, phase⟩)
    (hwants : ¬Wants p.row.events e.type) :
    Sound { p with
      turn := some ⟨i, rest, true, .look⟩
      passed := p.passed ++ [(i, p.row.events)] } s where
  start_le := h.start_le
  settled := h.settled
  covers := h.covers.mono rfl rfl (List.Subset.refl _) (List.subset_append_left _ _)
  posted := h.posted
  ascending := h.ascending
  turn := by
    rintro t ⟨⟩
    refine (h.turn _ ht).advance hsound ?_ ?_ ?_ ?_ (.inr ⟨p.row.events, ?_, hwants⟩) ?_ ?_
    · rfl
    · rfl
    · exact List.Subset.refl _
    · exact List.subset_append_left _ _
    · exact List.mem_append_right _ List.mem_cons_self
    · exact fun _ ↦ rfl
    · exact nofun
  stranded i' e' hstranded hwanted := by
    obtain ⟨t, ht', hle⟩ := h.stranded i' e' hstranded hwanted
    obtain rfl := Option.some.inj (ht.symm.trans ht')
    exact ⟨_, rfl, hle.trans ((h.turn _ ht).above (i, e) List.mem_cons_self).le⟩

/-- The turn goes to send an event that is wanted. -/
theorem Sound.send (h : p.Sound s)
    (ht : p.turn = some ⟨cursor, (i, e) :: rest, passedOver, phase⟩)
    (hwants : Wants p.row.events e.type) (url secret : Text) :
    Sound { p with turn := some ⟨cursor, (i, e) :: rest, passedOver, .sending url secret⟩ } s where
  start_le := h.start_le
  settled := h.settled
  covers := h.covers
  posted := h.posted
  ascending := h.ascending
  turn := by
    rintro t ⟨⟩
    have hturn := h.turn _ ht
    have hlt : cursor < i := hturn.above (i, e) List.mem_cons_self
    refine hturn.comes ?_ fun _ _ _ ↦ ?_
    · exact nofun
    by_contra hnot
    obtain ⟨hposted, hlater⟩ := not_or.mp hnot
    -- Otherwise the event was stranded, and the turn has not passed it yet.
    obtain ⟨j, hj, hle⟩ : ∃ j ∈ p.posted, i ≤ j := by
      by_contra hnone
      exact hlater fun j hj ↦ not_le.mp fun hle ↦ hnone ⟨j, hj, hle⟩
    have hne : i ≠ j := fun heq ↦ hposted (heq ▸ hj)
    obtain ⟨hi, huser⟩ := hturn.committed (i, e) List.mem_cons_self
    obtain ⟨t, ht', hpast⟩ := h.stranded i e
      ⟨hi, huser, hturn.le_cursor.trans_lt hlt, hposted, j, hj, lt_of_le_of_ne hle hne⟩ hwants
    obtain rfl := Option.some.inj (ht.symm.trans ht')
    exact absurd hlt hpast.not_gt
  stranded i' e' hstranded hwanted := by
    obtain ⟨t, ht', hle⟩ := h.stranded i' e' hstranded hwanted
    obtain rfl := Option.some.inj (ht.symm.trans ht')
    exact ⟨_, rfl, hle⟩

/-- The post fails. -/
theorem Sound.fail (h : p.Sound s)
    (ht : p.turn = some ⟨cursor, (i, e) :: rest, passedOver, phase⟩) (error : Text) :
    Sound { p with turn := some ⟨cursor, (i, e) :: rest, passedOver, .failed error⟩ } s where
  start_le := h.start_le
  settled := h.settled
  covers := h.covers
  posted := h.posted
  ascending := h.ascending
  turn := by
    rintro t ⟨⟩
    refine (h.turn _ ht).comes ?_ ?_
    · exact nofun
    · exact nofun
  stranded i' e' hstranded hwanted := by
    obtain ⟨t, ht', hle⟩ := h.stranded i' e' hstranded hwanted
    obtain rfl := Option.some.inj (ht.symm.trans ht')
    exact ⟨_, rfl, hle⟩

/-- The post succeeds. -/
theorem Sound.post (h : p.Sound s) (hsound : s.Sound) {url secret : Text}
    (ht : p.turn = some ⟨cursor, (i, e) :: rest, passedOver, .sending url secret⟩) :
    Sound { p with turn := some ⟨i, rest, false, .sent⟩, posted := p.posted ++ [i] } s where
  start_le := h.start_le
  settled := h.settled
  covers := h.covers.mono rfl rfl (List.subset_append_left _ _) (List.Subset.refl _)
  posted j hj := by
    rcases List.mem_append.mp hj with hj | hj
    · exact h.posted j hj
    · obtain ⟨hi, huser⟩ := (h.turn _ ht).committed (i, e) List.mem_cons_self
      obtain rfl := List.mem_singleton.mp hj
      rw [← huser]
      exact hsound.settled hi
  ascending := by
    rw [List.eraseDups_append]
    by_cases hmem : i ∈ p.posted
    · simpa [List.removeAll, hmem] using h.ascending
    · have hlater : ∀ j ∈ p.posted, j < i :=
        ((h.turn _ ht).sending url secret rfl (i, e) rfl).resolve_left hmem
      simpa [List.removeAll, hmem, List.pairwise_append, List.eraseDups_cons] using
        ⟨h.ascending, hlater⟩
  turn := by
    rintro t ⟨⟩
    refine (h.turn _ ht).advance hsound ?_ ?_ ?_ ?_ (.inl ?_) ?_ ?_
    · rfl
    · rfl
    · exact List.subset_append_left _ _
    · exact List.Subset.refl _
    · exact List.mem_append_right _ List.mem_cons_self
    · exact nofun
    · exact nofun
  stranded i' e' hstranded hwanted := by
    obtain ⟨hi, huser, hlt, hposted, j, hj, hlater⟩ := hstranded
    rcases List.mem_append.mp hj with hj | hj
    · obtain ⟨t, ht', hle⟩ := h.stranded i' e' ⟨hi, huser, hlt,
        fun hmem ↦ hposted (List.mem_append_left _ hmem), j, hj, hlater⟩ hwanted
      obtain rfl := Option.some.inj (ht.symm.trans ht')
      exact ⟨_, rfl, hle.trans ((h.turn _ ht).above (i, e) List.mem_cons_self).le⟩
    · obtain rfl := List.mem_singleton.mp hj
      exact ⟨_, rfl, hlater.le⟩

/-- The turn goes on from a cursor that is saved. -/
theorem TurnSound.save {events : List (AccountEventId × AccountEvent)}
    (h : p.TurnSound s ⟨cursor, events, passedOver, phase⟩) {row : Webhook}
    (huser : row.userId = p.row.userId) (hlast : row.lastEventId = max p.row.lastEventId cursor)
    (turn : Option DeliveryTurn) :
    TurnSound { p with row := row, turn := turn } s ⟨cursor, events, passedOver, .look⟩ where
  le_cursor := hlast.trans_le (max_le h.le_cursor le_rfl)
  settled := by
    rw [huser]
    exact h.settled
  covers := (covers_row huser turn).mpr h.covers
  ascending := h.ascending
  above := h.above
  committed x hx := by
    rw [huser]
    exact h.committed x hx
  complete i e hi hiuser := h.complete i e hi (hiuser.trans huser)
  saved _ _ := (le_max_right _ _).trans hlast.ge
  sending := nofun

end turn

end Endpoint

namespace Webhook

variable (row : Webhook) (cursor : AccountEventId) (now : Time)

theorem recordFailure_eq (error : Text) :
    (row.recordFailure cursor error now).userId = row.userId ∧
      (row.recordFailure cursor error now).events = row.events ∧
      (row.recordFailure cursor error now).lastEventId = max row.lastEventId cursor := by
  unfold recordFailure
  dsimp only
  split <;> exact ⟨rfl, rfl, rfl⟩

theorem recordProgress_eq (delivered : Bool) :
    (row.recordProgress cursor now delivered).userId = row.userId ∧
      (row.recordProgress cursor now delivered).events = row.events ∧
      (row.recordProgress cursor now delivered).lastEventId = max row.lastEventId cursor := by
  unfold recordProgress
  dsimp only
  split <;> exact ⟨rfl, rfl, rfl⟩

theorem update_eq (url : Option Text) (events : Option (List EventType)) (active : Option Bool) :
    (row.update url events active).userId = row.userId ∧
      (row.update url events active).events = events.getD row.events ∧
      (row.update url events active).lastEventId = row.lastEventId := by
  unfold update
  rcases url with _ | url
  · rcases active with _ | _ | _ <;> exact ⟨rfl, rfl, rfl⟩
  · rcases active with _ | _ | _ <;> dsimp only <;> split <;> exact ⟨rfl, rfl, rfl⟩

theorem current_eq_none : row.current = none ↔ row.active = false := by
  unfold current
  cases row.active <;> simp

theorem events_of_current {url secret : Text} {wanted : List EventType}
    (h : row.current = some (url, secret, wanted)) : wanted = row.events := by
  unfold current at h
  split at h
  · exact ((Prod.mk.inj (Prod.mk.inj (Option.some.inj h)).2).2).symm
  · cases h

end Webhook

namespace Endpoint

variable {s : EventsDb} {p : Endpoint} {o : EndpointOp}

/-- Every step of a webhook keeps what holds of it, as long as nothing wanted is left stranded. -/
theorem Sound.exec (h : p.Sound s) (hsound : s.Sound) (hkeeps : o.Keeps s p) :
    (o.exec s p).Sound s := by
  cases o with
  | update userId url events active =>
    change (p.updateWebhook userId url events active).Sound s
    unfold updateWebhook
    split
    · next huserId =>
      obtain ⟨huser, hevents, hlast⟩ := p.row.update_eq url events active
      refine h.row huser hlast fun i e hstranded hpassed ↦ ?_
      rw [hevents]
      exact hkeeps huserId _ (Table.mem_rows_iff.mpr hstranded.1) hstranded hpassed
    · exact h
  | begin =>
    change (p.beginTurn s).Sound s
    unfold beginTurn
    cases hturn : p.turn with
    | some t => exact h
    | none =>
      dsimp only
      split
      · exact h.begin hturn deliveryBatch
      · exact h
  | look =>
    change (p.lookAtNext).Sound s
    unfold lookAtNext
    split
    · next cursor i e rest passedOver ht =>
      cases hcurrent : p.row.current with
      | none => exact h.drop (hkeeps (p.row.current_eq_none.mp hcurrent))
      | some current =>
        obtain ⟨url, secret, wanted⟩ := current
        obtain rfl := p.row.events_of_current hcurrent
        dsimp only
        split
        · next hwants => exact h.send ht hwants url secret
        · next hwants => exact h.pass hsound ht hwants
    · exact h
  | post error =>
    change (p.postNext error).Sound s
    unfold postNext
    split
    · next cursor i e rest passedOver url secret ht =>
      cases error with
      | none => exact h.post hsound ht
      | some error => exact h.fail ht error
    · exact h
  | record =>
    change (p.recordOutcome s).Sound s
    unfold recordOutcome
    split
    · next cursor events passedOver ht =>
      obtain ⟨huser, hevents, hlast⟩ := p.row.recordProgress_eq cursor s.now true
      refine h.save ht huser hevents hlast ?_
      rintro t ⟨⟩
      exact (h.turn _ ht).save huser hlast _
    · next cursor events passedOver error ht =>
      obtain ⟨huser, hevents, hlast⟩ := p.row.recordFailure_eq cursor s.now error
      exact h.save ht huser hevents hlast nofun
    · exact h
  | finish =>
    change (p.finishTurn s).Sound s
    unfold finishTurn
    split
    · next cursor events passedOver ht =>
      cases passedOver with
      | false => exact h.rest ht ((h.turn _ ht).saved rfl rfl)
      | true =>
        obtain ⟨huser, hevents, hlast⟩ := p.row.recordProgress_eq cursor s.now false
        exact h.save ht huser hevents hlast nofun
    · exact h
  | crash => exact h.drop hkeeps

/-- A webhook's cursor never goes back. -/
theorem lastEventId_le_exec (s : EventsDb) (p : Endpoint) (o : EndpointOp) :
    p.row.lastEventId ≤ (o.exec s p).row.lastEventId := by
  have hprogress := fun cursor delivered ↦ (p.row.recordProgress_eq cursor s.now delivered).2.2
  cases o with
  | update userId url events active =>
    change _ ≤ (p.updateWebhook userId url events active).row.lastEventId
    unfold updateWebhook
    split
    · exact (p.row.update_eq url events active).2.2.ge
    · exact le_rfl
  | begin =>
    change _ ≤ (p.beginTurn s).row.lastEventId
    unfold beginTurn
    split
    · exact le_rfl
    · dsimp only
      split <;> exact le_rfl
  | look =>
    change _ ≤ p.lookAtNext.row.lastEventId
    unfold lookAtNext
    split
    · split
      · exact le_rfl
      · split <;> exact le_rfl
    · exact le_rfl
  | post error =>
    change _ ≤ (p.postNext error).row.lastEventId
    unfold postNext
    split
    · split <;> exact le_rfl
    · exact le_rfl
  | record =>
    change _ ≤ (p.recordOutcome s).row.lastEventId
    unfold recordOutcome
    split
    · next cursor _ _ _ => exact (le_max_left _ _).trans (hprogress cursor true).ge
    · next cursor _ _ error _ =>
      exact (le_max_left _ _).trans (p.row.recordFailure_eq cursor s.now error).2.2.ge
    · exact le_rfl
  | finish =>
    change _ ≤ (p.finishTurn s).row.lastEventId
    unfold finishTurn
    split
    · next cursor _ passedOver _ =>
      dsimp only
      split
      · exact (le_max_left _ _).trans (hprogress cursor false).ge
      · exact le_rfl
    · exact le_rfl
  | crash => exact le_rfl

end Endpoint

/-! ## Clients of the feed -/

namespace Reader

variable {s s' : EventsDb} {r : Reader}

/-- What holds of a client in every run: it has been given every event that its cursor has passed,
once and in order, but for those it did not ask for. -/
structure Sound (r : Reader) (s : EventsDb) : Prop where
  start_le : r.start ≤ r.after
  settled : r.after = r.start ∨ s.Settled r.userId r.after
  complete : ∀ i e, s.Committed i e → e.userId = r.userId → r.start < i → i ≤ r.after →
    (i, e) ∈ r.seen ∨ ∃ types, (i, types) ∈ r.unwanted ∧ ¬Wants types e.type
  ascending : Ascending Prod.fst r.seen
  inside : ∀ x ∈ r.seen, x.2.userId = r.userId ∧ r.start < x.1 ∧ x.1 ≤ r.after

/-- A client has missed nothing where it starts. -/
theorem sound_start (s : EventsDb) (userId : UserId) (after : AccountEventId) :
    Reader.Sound ⟨userId, after, after, [], []⟩ s where
  start_le := le_rfl
  settled := .inl rfl
  complete _ _ _ _ hstart hle := absurd hle hstart.not_ge
  ascending := .nil
  inside _ hx := absurd hx List.not_mem_nil

theorem Sound.extends (h : r.Sound s) {c : AccountEventId} (hext : s.Extends s' r.userId c) :
    r.Sound s' where
  start_le := h.start_le
  settled := h.settled.imp_right (hext.settled _)
  complete i e hi huser hstart hle := by
    rcases hext.seen i e hi huser with hold | hnew
    · exact h.complete i e hold huser hstart hle
    · rcases h.settled with hsame | hsettled
      · exact absurd (hle.trans_eq hsame) hstart.not_ge
      · exact absurd (hnew _ hsettled) hle.not_gt
  ascending := h.ascending
  inside := h.inside

theorem listedRows_eq (s : EventsDb) (userId : UserId) (after : AccountEventId) (limit : ℤ) :
    listedRows s userId after limit =
      (s.eventsAfter userId after).take (max 1 (min limit 500)).toNat := by
  rw [listedRows, max_eq_right (Int.natCast_nonneg after), Int.toNat_natCast]

theorem after_next (s : EventsDb) (types : List EventType) (limit : ℤ) (r : Reader) :
    (r.next s types limit).after =
      cursorAfter Prod.fst r.after (listedRows s r.userId r.after limit) := by
  change cursorAfter Prod.fst (max 0 (r.after : ℤ)).toNat _ = _
  rw [max_eq_right (Int.natCast_nonneg r.after), Int.toNat_natCast]

theorem mem_listedRows {limit : ℤ} {x : AccountEventId × AccountEvent}
    (hx : x ∈ listedRows s r.userId r.after limit) :
    s.Committed x.1 x.2 ∧ x.2.userId = r.userId ∧ r.after < x.1 := by
  rw [listedRows_eq] at hx
  exact EventsDb.mem_eventsAfter.mp (List.mem_of_mem_take hx)

theorem ascending_listedRows (s : EventsDb) (r : Reader) (limit : ℤ) :
    Ascending Prod.fst (listedRows s r.userId r.after limit) := by
  rw [listedRows_eq]
  exact (s.ascending_eventsAfter _ _).take _

theorem Sound.next (h : r.Sound s) (hsound : s.Sound) (types : List EventType) (limit : ℤ) :
    (r.next s types limit).Sound s := by
  have hafter := r.after_next s types limit
  have hrows := r.ascending_listedRows s limit
  have hmoves : r.after ≤ (r.next s types limit).after := by
    rw [hafter]
    exact le_cursorAfter fun x hx ↦ (mem_listedRows hx).2.2
  refine ⟨h.start_le.trans hmoves, ?_, ?_, ?_, ?_⟩
  · rw [hafter]
    rcases cursorAfter_cases Prod.fst r.after (listedRows s r.userId r.after limit) with
      ⟨-, heq⟩ | ⟨x, hx, heq⟩
    · rw [heq]
      exact h.settled
    · obtain ⟨hi, huser, -⟩ := mem_listedRows hx
      rw [heq]
      exact .inr (huser ▸ hsound.settled hi)
  · intro i e hi huser hstart hle
    by_cases hold : i ≤ r.after
    · rcases h.complete i e hi huser hstart hold with hseen | ⟨types, hmem, hnot⟩
      · exact .inl (List.mem_append_left _ hseen)
      · exact .inr ⟨types, List.mem_append_left _ hmem, hnot⟩
    · have hmem : (i, e) ∈ listedRows s r.userId r.after limit := by
        rw [hafter] at hle
        rw [listedRows_eq] at hle ⊢
        exact (s.ascending_eventsAfter _ _).mem_take_of_le_cursorAfter
          (EventsDb.mem_eventsAfter.mpr ⟨hi, huser, not_le.mp hold⟩) (not_le.mp hold) hle
      by_cases hwants : Wants types e.type
      · exact .inl (List.mem_append_right _ (List.mem_filter.mpr ⟨hmem, decide_eq_true hwants⟩))
      · refine .inr ⟨types, List.mem_append_right _ (List.mem_map.mpr ⟨(i, e), ?_, rfl⟩), hwants⟩
        exact List.mem_filter.mpr ⟨hmem, decide_eq_true hwants⟩
  · refine List.pairwise_append.mpr ⟨h.ascending, hrows.filter _, fun x hx y hy ↦ ?_⟩
    exact (h.inside x hx).2.2.trans_lt (mem_listedRows (List.mem_filter.mp hy).1).2.2
  · intro x hx
    rcases List.mem_append.mp hx with hx | hx
    · obtain ⟨huser, hlt, hle⟩ := h.inside x hx
      exact ⟨huser, hlt, hle.trans hmoves⟩
    · have hmem := (List.mem_filter.mp hx).1
      obtain ⟨-, huser, hlt⟩ := mem_listedRows hmem
      refine ⟨huser, h.start_le.trans_lt hlt, ?_⟩
      rw [hafter]
      exact hrows.key_le_cursorAfter hmem

/-- A page after which there is no more leaves nothing behind. -/
theorem le_after_next {types : List EventType} {limit : ℤ}
    (hmore : (listEvents s r.userId r.after types limit).hasMore = false) {i : AccountEventId}
    {e : AccountEvent} (hi : s.Committed i e) (huser : e.userId = r.userId) :
    i ≤ (r.next s types limit).after := by
  rw [after_next]
  by_cases hold : i ≤ r.after
  · exact hold.trans (le_cursorAfter fun x hx ↦ (mem_listedRows hx).2.2)
  · have hshort : (listedRows s r.userId r.after limit).length ≠ (max 1 (min limit 500)).toNat :=
      of_decide_eq_false hmore
    have hmem : (i, e) ∈ listedRows s r.userId r.after limit := by
      rw [listedRows_eq] at hshort ⊢
      rw [List.length_take] at hshort
      rw [List.take_of_length_le (by omega)]
      exact EventsDb.mem_eventsAfter.mpr ⟨hi, huser, not_le.mp hold⟩
    exact (r.ascending_listedRows s limit).key_le_cursorAfter hmem

end Reader

/-! ## Runs -/

/-- What holds of the events and of all who follow them. -/
structure FeedDb.Sound (s : FeedDb) : Prop where
  events : s.events.Sound
  webhooks : ∀ w p, s.webhooks.get? w = some p → p.Sound s.events
  readers : ∀ r reader, s.readers.get? r = some reader → reader.Sound s.events

namespace FeedDb

variable {s s₀ s' : FeedDb}

/-- A webhook starts at the latest event that can be seen. -/
theorem sound_created (hsound : s.events.Sound) {row : Webhook}
    (hlast : row.lastEventId = s.events.latest fun _ e ↦ e.userId = row.userId) :
    Endpoint.Sound ⟨row, none, row.lastEventId, [], []⟩ s.events where
  start_le := le_rfl
  settled := by
    change s.events.Settled row.userId row.lastEventId
    rw [hlast]
    exact hsound.settled_latest fun _ _ huser ↦ of_decide_eq_true huser
  covers _ _ _ _ hstart hle := absurd hle hstart.not_ge
  posted := nofun
  ascending := .nil
  turn := nofun
  stranded _ _ hstranded := by
    obtain ⟨-, -, -, -, j, hj, -⟩ := hstranded
    exact absurd hj List.not_mem_nil

theorem Sound.createWebhook (h : s.Sound) (w : WebhookId) (userId : UserId) (url secret : Text)
    (events : List EventType) : (s.createWebhook w userId url secret events).Sound := by
  unfold FeedDb.createWebhook
  split
  · exact h
  · refine ⟨h.events, fun w' p hp ↦ ?_, h.readers⟩
    change (s.webhooks.insert w _).get? w' = some p at hp
    rw [Table.get?_insert] at hp
    split at hp
    · obtain rfl := Option.some.inj hp
      exact sound_created h.events rfl
    · exact h.webhooks w' p hp

theorem Sound.event (h : s.Sound) {o : EventOp} (hpossible : o.Possible s.events) :
    Sound { s with events := o.exec s.events } where
  events := h.events.exec hpossible
  webhooks w p hp := (h.webhooks w p hp).extends (h.events.extends_exec o _ _) h.events
  readers r reader hreader :=
    (h.readers r reader hreader).extends (h.events.extends_exec o _ reader.after)

theorem Sound.prune (h : s.Sound) {now : Time} (hkept : (FeedOp.prune now).Possible s) :
    Sound { s with events := s.events.pruneEvents now } where
  events := h.events.pruneEvents now
  webhooks w p hp := by
    refine (h.webhooks w p hp).extends (EventsDb.extends_pruneEvents fun i r hr huser hprunes ↦ ?_)
      h.events
    exact (hkept (i, r) (Table.mem_rows_iff.mpr hr) hprunes).1 (w, p) (Table.mem_rows_iff.mpr hp)
      huser.symm
  readers r reader hreader := by
    refine (h.readers r reader hreader).extends (c := reader.after)
      (EventsDb.extends_pruneEvents fun i row hrow huser hprunes ↦ ?_)
    exact (hkept (i, row) (Table.mem_rows_iff.mpr hrow) hprunes).2 (r, reader)
      (Table.mem_rows_iff.mpr hreader) huser.symm

theorem Sound.exec (h : s.Sound) {o : FeedOp} (hpossible : o.Possible s) (hkeeps : o.Keeps s) :
    (o.exec s).Sound := by
  cases o with
  | event o => exact h.event hpossible
  | prune now => exact h.prune hpossible
  | create w userId url secret events => exact h.createWebhook w userId url secret events
  | endpoint w o =>
    refine ⟨h.events, fun w' p hp ↦ ?_, h.readers⟩
    change (s.webhooks.modify w _).get? w' = some p at hp
    rw [Table.get?_modify] at hp
    split at hp
    · next hw =>
      subst hw
      obtain ⟨p', hp', rfl⟩ := Option.map_eq_some_iff.mp hp
      exact (h.webhooks w' p' hp').exec h.events (hkeeps p' hp')
    · exact h.webhooks w' p hp
  | follow r userId after =>
    refine ⟨h.events, h.webhooks, fun r' reader hreader ↦ ?_⟩
    change (s.readers.insert r _).get? r' = some reader at hreader
    rw [Table.get?_insert] at hreader
    split at hreader
    · obtain rfl := Option.some.inj hreader
      exact Reader.sound_start s.events userId after
    · exact h.readers r' reader hreader
  | next r types limit =>
    refine ⟨h.events, h.webhooks, fun r' reader hreader ↦ ?_⟩
    change (s.readers.modify r _).get? r' = some reader at hreader
    rw [Table.get?_modify] at hreader
    split at hreader
    · next hr =>
      subst hr
      obtain ⟨reader', hreader', rfl⟩ := Option.map_eq_some_iff.mp hreader
      exact (h.readers r' reader' hreader').next h.events types limit
    · exact h.readers r' reader hreader

/-- A webhook stays, and its cursor never goes back. -/
theorem lastEventId_le_of_steps {w : WebhookId} {p : Endpoint}
    (run : Steps FeedOp.exec FeedOp.Possible s s') (hp : s.webhooks.get? w = some p) :
    ∃ p', s'.webhooks.get? w = some p' ∧ p.row.lastEventId ≤ p'.row.lastEventId := by
  refine run.invariant (P := fun s' ↦ ∃ p', s'.webhooks.get? w = some p' ∧
    p.row.lastEventId ≤ p'.row.lastEventId) (fun o s' h hpossible ↦ ?_) ⟨p, hp, le_rfl⟩
  obtain ⟨p', hp', hle⟩ := h
  cases o with
  | create w' userId url secret events =>
    change ∃ p', (s'.createWebhook w' userId url secret events).webhooks.get? w = some p' ∧ _
    unfold FeedDb.createWebhook
    split
    · exact ⟨p', hp', hle⟩
    · refine ⟨p', (Table.get?_insert_ne _ ?_ _).trans hp', hle⟩
      rintro rfl
      cases hp'.symm.trans hpossible
  | endpoint w' o =>
    change ∃ p', (s'.webhooks.modify w' _).get? w = some p' ∧ _
    rw [Table.get?_modify]
    split
    · rw [hp']
      exact ⟨_, rfl, hle.trans (Endpoint.lastEventId_le_exec s'.events p' o)⟩
    · exact ⟨p', hp', hle⟩
  | event o => exact ⟨p', hp', hle⟩
  | prune now => exact ⟨p', hp', hle⟩
  | follow r userId after => exact ⟨p', hp', hle⟩
  | next r types limit => exact ⟨p', hp', hle⟩

/-- What a webhook is promised: every event that its cursor has passed was posted to it or was not
wanted then, and the first posts are in the order of the ids. -/
def Delivers (s : FeedDb) (p : Endpoint) : Prop :=
  p.Covers s.events p.row.lastEventId ∧ p.posted.eraseDups.Pairwise (· < ·)

/-- What a client is promised: it was given every event that its cursor has passed, but for those it
did not ask for, once and in the order of the ids; and where a page says that there is no more, its
cursor passes all there is. -/
def Informs (s : FeedDb) (r : Reader) : Prop :=
  (∀ i e, s.events.Committed i e → e.userId = r.userId → r.start < i → i ≤ r.after →
    (i, e) ∈ r.seen ∨ ∃ types, (i, types) ∈ r.unwanted ∧ ¬Wants types e.type) ∧
  Ascending Prod.fst r.seen ∧
  ∀ types limit, (listEvents s.events r.userId r.after types limit).hasMore = false →
    ∀ i e, s.events.Committed i e → e.userId = r.userId → i ≤ (r.next s.events types limit).after

/-- Nobody follows the events yet. -/
structure Fresh (s : FeedDb) : Prop where
  events : s.events.Sound
  webhooks : s.webhooks = .empty
  readers : s.readers = .empty

theorem Fresh.sound (h : s.Fresh) : s.Sound where
  events := h.events
  webhooks w p hp := by
    rw [h.webhooks, Table.get?_empty] at hp
    cases hp
  readers r reader hreader := by
    rw [h.readers, Table.get?_empty] at hreader
    cases hreader

/-- In a run in which no event is stranded that is wanted, every webhook has its events in order,
its cursor never goes back, and no client misses an event. -/
theorem followers_miss_nothing (hstart : s₀.Fresh)
    (run : Steps FeedOp.exec (fun o s ↦ o.Possible s ∧ o.Keeps s) s₀ s) :
    (∀ w p, s.webhooks.get? w = some p → s.Delivers p ∧
      ∀ s', Steps FeedOp.exec FeedOp.Possible s s' →
        ∃ p', s'.webhooks.get? w = some p' ∧ p.row.lastEventId ≤ p'.row.lastEventId) ∧
    ∀ r reader, s.readers.get? r = some reader → s.Informs reader := by
  have h : s.Sound := run.invariant (fun _ _ h ho ↦ h.exec ho.1 ho.2) hstart.sound
  refine ⟨fun w p hp ↦ ?_, fun r reader hreader ↦ ?_⟩
  · have hp' := h.webhooks w p hp
    exact ⟨⟨hp'.covers, hp'.ascending⟩, fun _ hrun ↦ lastEventId_le_of_steps hrun hp⟩
  · have hreader' := h.readers r reader hreader
    exact ⟨hreader'.complete, hreader'.ascending,
      fun types limit hmore _ _ hi huser ↦ Reader.le_after_next hmore hi huser⟩

private def noFollowers : FeedDb := ⟨.empty, .empty, .empty⟩

private theorem noFollowers_fresh : noFollowers.Fresh := ⟨EventsDb.sound_empty, rfl, rfl⟩

/-- Ada's webhook wants to hear of free GPUs. Her balance runs low, then GPUs are free. The turn
passes over the first event, posts the second, and dies. -/
private def diesAfterPost : List FeedOp :=
  [.create 1 1 "https://ada.example/hook".toList "whsec".toList [.capacityAvailable],
    .follow 1 1 0, .event (.start 1), .event (.write 1 (.balanceLow 1)), .event (.commit 1),
    .event (.start 2), .event (.write 2 (.capacityAvailable 1)), .event (.commit 2),
    .endpoint 1 .begin, .endpoint 1 .look, .endpoint 1 .look, .endpoint 1 (.post none),
    .endpoint 1 .crash]

/-- The next turn posts the second event again, and fails; a client reads both. -/
private def postsAgain : List FeedOp :=
  [.endpoint 1 .begin, .endpoint 1 .look, .endpoint 1 .look,
    .endpoint 1 (.post (some "timed out".toList)), .endpoint 1 .record, .next 1 [] 100]

private def followed : FeedDb := Steps.replay FeedOp.exec noFollowers (diesAfterPost ++ postsAgain)

theorem followers_miss_nothing_again :
    (∀ w p, followed.webhooks.get? w = some p → followed.Delivers p ∧
      ∀ s', Steps FeedOp.exec FeedOp.Possible followed s' →
        ∃ p', s'.webhooks.get? w = some p' ∧ p.row.lastEventId ≤ p'.row.lastEventId) ∧
    ∀ r reader, followed.readers.get? r = some reader → followed.Informs reader :=
  have run : Steps FeedOp.exec (fun o s ↦ o.Possible s ∧ o.Keeps s) noFollowers followed :=
    Steps.of_admits _ _ noFollowers _ (by decide +kernel)
  followers_miss_nothing noFollowers_fresh run

/-- After the turn has died ada asks for all events, and the next turn posts the first one. -/
private def wantsAll : List FeedOp :=
  [.endpoint 1 (.update 1 none (some []) none), .endpoint 1 .begin, .endpoint 1 .look,
    .endpoint 1 (.post none)]

/-- An event is posted for the first time after a later one. -/
theorem posted_out_of_order :
    ¬∀ s₀ s : FeedDb, s₀.Fresh → Steps FeedOp.exec FeedOp.Possible s₀ s →
      ∀ w p, s.webhooks.get? w = some p → s.Delivers p := by
  intro h
  have run : Steps FeedOp.exec FeedOp.Possible noFollowers
      (Steps.replay FeedOp.exec noFollowers (diesAfterPost ++ wantsAll)) :=
    Steps.of_admits _ _ noFollowers _ (by decide +kernel)
  obtain ⟨p, hp, hposted⟩ : ∃ p,
      (Steps.replay FeedOp.exec noFollowers (diesAfterPost ++ wantsAll)).webhooks.get? 1 = some p ∧
        p.posted = [2, 1] := by
    refine ⟨_, Option.some_get (by decide +kernel) |>.symm, by decide +kernel⟩
  have hordered := (h _ _ noFollowers_fresh run 1 p hp).2
  rw [hposted] at hordered
  exact absurd hordered (by decide)

end FeedDb

end GreenCompute
