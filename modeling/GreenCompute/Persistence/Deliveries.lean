import GreenCompute.Persistence.SubjectBus

/-!
# Running a delivery once

A claim hands a delivery to one worker: nobody else is handed it until it is marked or requeued,
and a pending delivery stays in the table until it is claimed or marked. But a mark names no claim.
A worker that is slower than the stale threshold may still mark a delivery that has been requeued,
claimed by another worker and completed in the meantime; if it marks it as failed and retryable, it
is pending again and will be run again. A requeue that has read its rows before the mark does the
same. Where no such write meets a completed delivery, it is never claimed again.
-/

namespace GreenCompute

open Program

/-! ## What the log shows -/

/-- The claim returned this delivery. -/
def claimsDelivery (d : DeliveryId) : Event Buses → Bool
  | ⟨.claimPending .., messages⟩ =>
    List.any (α := BusMessage) messages fun m ↦ m.deliveryId = d
  | _ => false

/-- The delivery is marked. -/
def marksDelivery (d : DeliveryId) : Event Buses → Bool
  | ⟨.update _ id _, _⟩ => id = d
  | _ => false

/-- The delivery is requeued as stale. -/
def requeuesDelivery (d : DeliveryId) : Event Buses → Bool
  | ⟨.requeue rows, _⟩ => d ∈ rows.map Prod.fst
  | _ => false

/-- The delivery is marked completed. -/
def completesDelivery (d : DeliveryId) : Event Buses → Bool
  | ⟨.update u id _, _⟩ => id = d ∧ u.status = .completed
  | _ => false

/-! ## The deliveries of a store -/

/-- Every delivery's event is there, and the identifiers yet to be drawn are those of no
delivery. -/
structure BusStore.Sound (s : BusStore) : Prop where
  event : ∀ d row, s.deliveries.get? d = some row → (s.events.get? row.eventId).isSome = true
  fresh : ∀ d, s.nextDelivery ≤ d → s.deliveries.get? d = none

/-- The status of a delivery, if there is one. -/
def BusStore.statusOf (s : BusStore) (d : DeliveryId) : Option BusStatus :=
  (s.deliveries.get? d).map Delivery.status

theorem BusStore.statusOf_eq_some {s : BusStore} {d : DeliveryId} {status : BusStatus} :
    s.statusOf d = some status ↔ ∃ row, s.deliveries.get? d = some row ∧ row.status = status :=
  Option.map_eq_some_iff

section

variable {s : BusStore} {d : DeliveryId} {row : Delivery} {consumer : Text} {subjects : List Text}
  {limit : ℕ} {now : Time} {locked : DeliveryId → Bool}

theorem BusStore.mem_claimable {r : DeliveryId × Delivery}
    (h : r ∈ s.claimable consumer subjects limit now locked) :
    s.deliveries.get? r.1 = some r.2 ∧ r.2.status = .pending := by
  have hmem := List.mem_mergeSort.mp (List.mem_of_mem_take h)
  obtain ⟨hget, hselected⟩ := Table.mem_select.mp hmem
  exact ⟨hget, (of_decide_eq_true hselected).2.2.1⟩

variable (consumer subjects limit now locked) in
theorem BusStore.get?_claimPending (hrow : s.deliveries.get? d = some row) :
    (s.claimPending consumer subjects limit now locked).1.deliveries.get? d =
      some (if d ∈ (s.claimable consumer subjects limit now locked).map Prod.fst then
        claimed now row else row) := by
  rw [claimPending, Table.get?_map, hrow, Option.map_some]

theorem BusStore.get?_update (u : DeliveryUpdate) (id : DeliveryId) (loaded : Delivery)
    (s : BusStore) (d : DeliveryId) : (s.update u id loaded).1.deliveries.get? d =
      if d = id then (s.deliveries.get? d).map (u.write s.now loaded)
      else s.deliveries.get? d := by
  rw [update]
  split <;> exact Table.get?_modify _ _ _ _

/-- A requeue leaves a delivery that is not among its rows, and makes others pending or leaves
their status. -/
theorem BusStore.get?_requeue (rows : List (DeliveryId × Delivery)) (s : BusStore)
    (hrow : s.deliveries.get? d = some row) :
    ∃ row', (s.requeue rows).deliveries.get? d = some row' ∧ row'.eventId = row.eventId ∧
      (row'.status = row.status ∨ d ∈ rows.map Prod.fst ∧ row'.status = .pending) := by
  induction rows generalizing s row with
  | nil => exact ⟨row, hrow, rfl, .inl rfl⟩
  | cons r rows ih =>
    obtain ⟨id, loaded⟩ := r
    have hfirst := get?_update (requeued s.now) id loaded s d
    rw [hrow, Option.map_some] at hfirst
    by_cases hd : d = id
    · rw [if_pos hd] at hfirst
      obtain ⟨row', hrow', hevent, hstatus⟩ := ih _ hfirst
      refine ⟨row', hrow', hevent, ?_⟩
      have hmem : d ∈ ((id, loaded) :: rows).map Prod.fst := by
        rw [List.map_cons, hd]
        exact List.mem_cons_self
      rcases hstatus with hstatus | ⟨-, hstatus⟩
      · by_cases hloaded : loaded.status = .pending
        · exact .inl (hstatus.trans (if_pos hloaded))
        · exact .inr ⟨hmem, hstatus.trans (if_neg hloaded)⟩
      · exact .inr ⟨hmem, hstatus⟩
    · rw [if_neg hd] at hfirst
      obtain ⟨row', hrow', hevent, hstatus⟩ := ih _ hfirst
      exact ⟨row', hrow', hevent, hstatus.imp_right fun h ↦ ⟨List.mem_cons_of_mem _ h.1, h.2⟩⟩

end

/-! ### Soundness -/

theorem BusStore.Sound.update {s : BusStore} (hs : s.Sound) (u : DeliveryUpdate) (id : DeliveryId)
    (loaded : Delivery) : (s.update u id loaded).1.Sound := by
  have hevents (e : EventId) (h : (s.events.get? e).isSome = true) :
      ((s.update u id loaded).1.events.get? e).isSome = true := by
    rw [BusStore.update]
    split
    · exact h
    · rw [Table.get?_insert]
      split
      · rfl
      · exact h
  have hnext : (s.update u id loaded).1.nextDelivery = s.nextDelivery := by
    rw [BusStore.update]
    split <;> rfl
  constructor
  · intro d row hrow
    rw [get?_update] at hrow
    split at hrow
    · obtain ⟨old, hold, rfl⟩ := Option.map_eq_some_iff.mp hrow
      exact hevents _ (hs.event d old hold)
    · exact hevents _ (hs.event d row hrow)
  · intro d hd
    rw [hnext] at hd
    rw [get?_update, hs.fresh d hd, Option.map_none, ite_self]

theorem BusStore.Sound.requeue {s : BusStore} (hs : s.Sound)
    (rows : List (DeliveryId × Delivery)) : (s.requeue rows).Sound := by
  induction rows generalizing s with
  | nil => exact hs
  | cons r rows ih => exact ih (hs.update _ _ _)

/-- The deliveries of a new event are added to those there are. -/
theorem BusStore.Sound.addDeliveries {s : BusStore} (hs : s.Sound) {eventId : EventId}
    (hevent : (s.events.get? eventId).isSome = true) (subject : Text) (consumers : List Text) :
    (consumers.foldl (addDelivery eventId subject) s).Sound ∧
      ∀ d row, s.deliveries.get? d = some row →
        (consumers.foldl (addDelivery eventId subject) s).deliveries.get? d = some row := by
  induction consumers generalizing s with
  | nil => exact ⟨hs, fun _ _ h ↦ h⟩
  | cons consumer consumers ih =>
    have hkept (d : DeliveryId) (row : Delivery) (hrow : s.deliveries.get? d = some row) :
        (s.addDelivery eventId subject consumer).deliveries.get? d = some row := by
      have hne : d ≠ s.nextDelivery := by
        rintro rfl
        rw [hs.fresh _ le_rfl] at hrow
        cases hrow
      exact (Table.get?_insert_ne _ hne _).trans hrow
    have hsound : (s.addDelivery eventId subject consumer).Sound := by
      constructor
      · intro d row hrow
        rw [addDelivery, Table.get?_insert] at hrow
        split at hrow
        · obtain rfl := Option.some.inj hrow
          exact hevent
        · exact hs.event d row hrow
      · intro d hd
        have hle : s.nextDelivery + 1 ≤ d := hd
        have hne : d ≠ s.nextDelivery := by omega
        rw [addDelivery, Table.get?_insert_ne _ hne]
        exact hs.fresh d (by omega)
    obtain ⟨hfinal, hrest⟩ := ih hsound hevent
    exact ⟨hfinal, fun d row hrow ↦ hrest d row (hkept d row hrow)⟩

theorem BusStore.Sound.publish {s : BusStore} (hs : s.Sound) (subject payload : Text) :
    (s.publish subject payload).1.Sound ∧ ∀ d row, s.deliveries.get? d = some row →
      (s.publish subject payload).1.deliveries.get? d = some row := by
  let published : BusStore :=
    { s with
      events := s.events.insert s.nextEvent
        ⟨subject, payload, .pending, 0, s.now, none, s.now, s.now⟩
      nextEvent := s.nextEvent + 1 }
  have hpublished : published.Sound := by
    refine ⟨fun d row hrow ↦ ?_, hs.fresh⟩
    rw [Table.get?_insert]
    split
    · rfl
    · exact hs.event d row hrow
  have hevent : (published.events.get? s.nextEvent).isSome = true := by
    rw [Table.get?_insert_self]
    rfl
  exact hpublished.addDeliveries hevent subject _

theorem BusStore.Sound.claimPending {s : BusStore} (hs : s.Sound) (consumer : Text)
    (subjects : List Text) (limit : ℕ) (now : Time) (locked : DeliveryId → Bool) :
    (s.claimPending consumer subjects limit now locked).1.Sound := by
  constructor
  · intro d row hrow
    rw [BusStore.claimPending, Table.get?_map] at hrow
    obtain ⟨old, hold, rfl⟩ := Option.map_eq_some_iff.mp hrow
    have hexists := hs.event d old hold
    split <;> exact hexists
  · intro d hd
    rw [BusStore.claimPending, Table.get?_map, hs.fresh d hd, Option.map_none]

theorem exec_sound (o : BusOp) {s : BusStore} (hs : s.Sound) : (o.exec s).1.Sound := by
  cases o with
  | publish subject payload => exact (hs.publish subject payload).1
  | claimPending => exact hs.claimPending _ _ _ _ _
  | update u id loaded => exact hs.update u id loaded
  | requeue rows => exact hs.requeue rows
  | getDelivery | listStale | now => exact hs
  | advance => exact ⟨hs.event, hs.fresh⟩

/-! ### What an operation does to a delivery -/

/-- A claim takes a pending delivery. -/
theorem claims_spec {o : BusOp} {s : BusStore} {d : DeliveryId}
    (h : claimsDelivery d ⟨o, (o.exec s).2⟩ = true) :
    s.statusOf d = some .pending ∧ (o.exec s).1.statusOf d = some .processing := by
  cases o with
  | claimPending consumer subjects limit now locked =>
    obtain ⟨m, hm, hid⟩ := List.any_eq_true.mp h
    obtain ⟨⟨id, row⟩, hr, hmessage⟩ := List.mem_filterMap.mp hm
    obtain ⟨event, -, rfl⟩ := Option.map_eq_some_iff.mp hmessage
    obtain rfl : id = d := of_decide_eq_true hid
    obtain ⟨hget, hpending⟩ := BusStore.mem_claimable hr
    refine ⟨BusStore.statusOf_eq_some.mpr ⟨row, hget, hpending⟩,
      BusStore.statusOf_eq_some.mpr ⟨_, BusStore.get?_claimPending _ _ _ _ _ hget, ?_⟩⟩
    rw [if_pos (List.mem_map_of_mem (f := Prod.fst) hr)]
    rfl
  | _ => cases h

/-- A delivery stays, and its status changes only when it is claimed, marked or requeued. -/
inductive StatusEffect (d : DeliveryId) (status : BusStatus) (o : BusOp) (s : BusStore) : Prop
  | same (after : (o.exec s).1.statusOf d = some status)
  | claimed (claim : claimsDelivery d ⟨o, (o.exec s).2⟩ = true) (before : status = .pending)
      (after : (o.exec s).1.statusOf d = some .processing)
  | marked (u : DeliveryUpdate) (loaded : Delivery) (ho : o = .update u d loaded)
      (changed : loaded.status ≠ u.status) (after : (o.exec s).1.statusOf d = some u.status)
  | requeued (rows : List (DeliveryId × Delivery)) (ho : o = .requeue rows)
      (listed : d ∈ rows.map Prod.fst) (after : (o.exec s).1.statusOf d = some .pending)

theorem exec_status {s : BusStore} (hs : s.Sound) {d : DeliveryId} {status : BusStatus}
    (hstatus : s.statusOf d = some status) (o : BusOp) : StatusEffect d status o s := by
  obtain ⟨row, hrow, rfl⟩ := BusStore.statusOf_eq_some.mp hstatus
  cases o with
  | publish subject payload =>
    have hkept := (hs.publish subject payload).2 d row hrow
    exact .same (BusStore.statusOf_eq_some.mpr ⟨row, hkept, rfl⟩)
  | claimPending consumer subjects limit now locked =>
    have hafter := BusStore.get?_claimPending consumer subjects limit now locked hrow
    by_cases hclaimed : d ∈ (s.claimable consumer subjects limit now locked).map Prod.fst
    · rw [if_pos hclaimed] at hafter
      obtain ⟨⟨id, row'⟩, hr, rfl⟩ := List.mem_map.mp hclaimed
      obtain ⟨hget, hpending⟩ := BusStore.mem_claimable hr
      obtain rfl := Option.some.inj (hrow.symm.trans hget)
      obtain ⟨event, hevent⟩ := Option.isSome_iff_exists.mp (hs.event _ row hrow)
      refine .claimed ?_ hpending (BusStore.statusOf_eq_some.mpr ⟨_, hafter, rfl⟩)
      refine List.any_eq_true.mpr ⟨toMessage id (BusStore.claimed now row) event,
        List.mem_filterMap.mpr ⟨(id, row), hr, ?_⟩, decide_eq_true rfl⟩
      rw [hevent, Option.map_some]
    · rw [if_neg hclaimed] at hafter
      exact .same (BusStore.statusOf_eq_some.mpr ⟨row, hafter, rfl⟩)
  | update u id loaded =>
    have hafter := BusStore.get?_update u id loaded s d
    rw [hrow, Option.map_some] at hafter
    by_cases hd : d = id
    · subst hd
      rw [if_pos rfl] at hafter
      by_cases hchanged : loaded.status = u.status
      · exact .same (BusStore.statusOf_eq_some.mpr ⟨_, hafter, if_pos hchanged⟩)
      · exact .marked u loaded rfl hchanged
          (BusStore.statusOf_eq_some.mpr ⟨_, hafter, if_neg hchanged⟩)
    · rw [if_neg hd] at hafter
      exact .same (BusStore.statusOf_eq_some.mpr ⟨row, hafter, rfl⟩)
  | requeue rows =>
    obtain ⟨row', hrow', -, hsame | ⟨hlisted, hpending⟩⟩ := BusStore.get?_requeue rows s hrow
    · exact .same (BusStore.statusOf_eq_some.mpr ⟨row', hrow', hsame⟩)
    · exact .requeued rows rfl hlisted (BusStore.statusOf_eq_some.mpr ⟨row', hrow', hpending⟩)
  | _ => exact .same (BusStore.statusOf_eq_some.mpr ⟨row, hrow, rfl⟩)

/-! ## Runs -/

/-- No mark of another outcome, and no requeue, is written to a completed delivery. -/
def sparesCompleted : Guard Buses BusCall BusStore := fun _ _ o s ↦
  match o with
  | .update u d loaded =>
    loaded.status ≠ u.status → u.status ≠ .completed → s.statusOf d ≠ some .completed
  | .requeue rows => ∀ r ∈ rows, s.statusOf r.1 ≠ some .completed
  | _ => True

instance (c : BusCall) (past : List (Event Buses)) (o : BusOp) (s : BusStore) :
    Decidable (sparesCompleted c past o s) := by
  unfold sparesCompleted
  split <;> infer_instance

section

variable {G : Guard Buses BusCall BusStore} {w w' : World Buses BusCall BusStore}
  {log : List (Entry Buses BusCall)} {d : DeliveryId}

theorem sound_of_logs (run : subjectBus.Logs G w log w') (sound : w.store.Sound) :
    w'.store.Sound :=
  run.keeps (P := fun _ s ↦ s.Sound) sound fun _ _ _ o _ hs _ _ ↦ exec_sound o hs

/-- Until it is marked or requeued, a delivery that has been claimed is in processing. -/
theorem processing_of_claimed (run : subjectBus.Logs G w log w') (sound : w.store.Sound) :
    ∀ before entry between, log = before ++ entry :: between →
      claimsDelivery d entry.event = true →
      (∀ e ∈ between, marksDelivery d e.event = false ∧ requeuesDelivery d e.event = false) →
      w'.store.statusOf d = some .processing := by
  refine (run.keeps (P := fun log s ↦ s.Sound ∧ ∀ before entry between,
    log = before ++ entry :: between → claimsDelivery d entry.event = true →
      (∀ e ∈ between, marksDelivery d e.event = false ∧ requeuesDelivery d e.event = false) →
      s.statusOf d = some .processing) ⟨sound, ?_⟩ ?_).2
  · intro before entry between hlog
    simp at hlog
  · rintro log c past o s ⟨hs, hheld⟩ - -
    refine ⟨exec_sound o hs, fun before entry between hlog hclaim hfree ↦ ?_⟩
    rcases List.eq_nil_or_concat between with rfl | ⟨between, last, rfl⟩
    · obtain ⟨-, hlast⟩ := List.append_inj' hlog rfl
      obtain rfl := List.singleton_inj.mp hlast
      exact (claims_spec hclaim).2
    · rw [List.concat_eq_append, ← List.cons_append, ← List.append_assoc] at hlog
      obtain ⟨hinit, hlast⟩ := List.append_inj' hlog rfl
      have hbefore := hheld before entry between hinit hclaim fun e he ↦
        hfree e (by simp [he])
      obtain ⟨hmarks, hrequeues⟩ := hfree last (by simp)
      obtain rfl := List.singleton_inj.mp hlast
      cases exec_status hs hbefore o with
      | same after => exact after
      | claimed claim before after => cases before
      | marked u loaded ho changed after =>
        subst ho
        simp [marksDelivery] at hmarks
      | requeued rows ho listed after =>
        subst ho
        rw [requeuesDelivery, decide_eq_false_iff_not] at hrequeues
        exact absurd listed hrequeues

/-- Between two claims of a delivery it is marked or requeued. -/
theorem claims_apart (run : subjectBus.Logs G w log w') (sound : w.store.Sound)
    {before between after : List (Entry Buses BusCall)} {entry entry' : Entry Buses BusCall}
    (hlog : log = before ++ entry :: (between ++ entry' :: after))
    (hclaim : claimsDelivery d entry.event = true)
    (hclaim' : claimsDelivery d entry'.event = true) :
    ∃ e ∈ between, marksDelivery d e.event = true ∨ requeuesDelivery d e.event = true := by
  by_contra hnone
  rw [← List.cons_append, ← List.append_assoc] at hlog
  obtain ⟨v, i, past, o, k, hrun, -, -, hevent⟩ := run.taken hlog
  have hheld := processing_of_claimed hrun sound before entry between rfl hclaim fun e he ↦ by
    constructor
    · exact Bool.eq_false_of_not_eq_true fun h ↦ hnone ⟨e, he, .inl h⟩
    · exact Bool.eq_false_of_not_eq_true fun h ↦ hnone ⟨e, he, .inr h⟩
  rw [hevent] at hclaim'
  rw [(claims_spec hclaim').1] at hheld
  cases hheld

/-- What was pending stays pending until it is claimed or marked. -/
theorem pending_kept (run : subjectBus.Logs G w log w') (sound : w.store.Sound)
    (pending : w.store.statusOf d = some .pending) :
    ∃ status, w'.store.statusOf d = some status ∧ (status = .pending ∨
      ∃ e ∈ log, claimsDelivery d e.event = true ∨ marksDelivery d e.event = true) := by
  refine (run.keeps (P := fun log s ↦ s.Sound ∧ ∃ status, s.statusOf d = some status ∧
    (status = .pending ∨ ∃ e ∈ log, claimsDelivery d e.event = true ∨
      marksDelivery d e.event = true)) ⟨sound, .pending, pending, .inl rfl⟩ ?_).2
  rintro log c past o s ⟨hs, status, hstatus, hkept⟩ - -
  refine ⟨exec_sound o hs, ?_⟩
  have hold (after : BusStatus) (h : ∃ e ∈ log, claimsDelivery d e.event = true ∨
      marksDelivery d e.event = true) : after = .pending ∨
        ∃ e ∈ log ++ [⟨c, ⟨o, (o.exec s).2⟩⟩], claimsDelivery d e.event = true ∨
          marksDelivery d e.event = true := by
    obtain ⟨e, he, hevent⟩ := h
    exact .inr ⟨e, List.mem_append_left _ he, hevent⟩
  have hlast : (⟨c, ⟨o, (o.exec s).2⟩⟩ : Entry Buses BusCall) ∈
      log ++ [⟨c, ⟨o, (o.exec s).2⟩⟩] := List.mem_append_right _ (List.mem_singleton_self _)
  cases exec_status hs hstatus o with
  | same after => exact ⟨status, after, hkept.elim .inl (hold status)⟩
  | claimed claim before after => exact ⟨.processing, after, .inr ⟨_, hlast, .inl claim⟩⟩
  | marked u loaded ho changed after =>
    refine ⟨u.status, after, .inr ⟨_, hlast, .inr ?_⟩⟩
    subst ho
    exact decide_eq_true rfl
  | requeued rows ho listed after => exact ⟨.pending, after, .inl rfl⟩

end

/-! ### Completed deliveries -/

/-- A row is written as it was read. -/
def ReadFirst (past : List (Event Buses)) : BusOp → Prop
  | .update _ id loaded => ⟨.getDelivery id, some loaded⟩ ∈ past
  | _ => True

section

variable {past : List (Event Buses)}

/-- The method writes rows as it has read them. -/
abbrev AsksRead {α : Type} (p : Program Buses α) (past : List (Event Buses)) : Prop :=
  p.Asks (fun _ _ ↦ True) ReadFirst (fun _ _ ↦ True) past

theorem asks_updateStatus (id : DeliveryId) (status : BusStatus) (error : Option Text)
    (retryAfterSeconds : Option Time) :
    AsksRead (SubjectBus.updateStatus id status error retryAfterSeconds) past := by
  refine Asks.op_bind trivial fun row _ ↦ ?_
  cases row with
  | none => trivial
  | some row => exact Asks.op_bind trivial fun now _ ↦ ⟨by simp [ReadFirst], fun _ _ ↦ trivial⟩

theorem asks_handleEach (handler : DeliveryId → SubjectBus.Handled) (l : List BusMessage) :
    AsksRead (SubjectBus.handleEach handler l) past := by
  induction l generalizing past with
  | nil => trivial
  | cons event l ih =>
    rw [SubjectBus.handleEach]
    split <;> exact Asks.bind (asks_updateStatus _ _ _ _) fun _ _ _ ↦ ih

theorem body_readFirst (c : BusCall) : AsksRead (subjectBus.body c) [] := by
  cases c with
  | publish => exact Asks.op_bind trivial fun _ _ ↦ trivial
  | claimPending =>
    exact Asks.bind (P := fun _ _ ↦ True)
      (Asks.op_bind trivial fun _ _ ↦ ⟨trivial, fun _ _ ↦ trivial⟩) fun _ _ _ ↦ trivial
  | markCompleted | markFailed => exact Asks.bind (asks_updateStatus _ _ _ _) fun _ _ _ ↦ trivial
  | requeueStaleProcessing =>
    exact Asks.op_bind trivial fun _ _ ↦ Asks.op_bind trivial fun _ _ ↦
      ⟨trivial, fun _ _ ↦ trivial⟩
  | processPendingEvents =>
    exact Asks.bind (P := fun _ _ ↦ True) (Asks.op_bind trivial fun _ _ ↦
      ⟨trivial, fun _ _ ↦ trivial⟩) fun _ _ _ ↦ asks_handleEach _ _
  | advance => exact ⟨trivial, fun _ _ ↦ trivial⟩

end

section

variable {w w' : World Buses BusCall BusStore} {log : List (Entry Buses BusCall)} {d : DeliveryId}

/-- What a spared delivery's log says still holds: it is completed if it was marked or seen so. -/
structure StaysCompleted (d : DeliveryId) (log : List (Entry Buses BusCall)) (s : BusStore) :
    Prop where
  sound : s.Sound
  marked : ∀ e ∈ log, completesDelivery d e.event = true → s.statusOf d = some .completed
  read : ∀ c loaded, ⟨c, ⟨.getDelivery d, some loaded⟩⟩ ∈ log → ∃ status,
    s.statusOf d = some status ∧ (loaded.status = .completed → status = .completed)

/-- A step that spares completed deliveries leaves a completed one completed. -/
theorem completed_step {s : BusStore} (hs : s.Sound) (completed : s.statusOf d = some .completed)
    {c : BusCall} {past : List (Event Buses)} {o : BusOp} (guarded : sparesCompleted c past o s) :
    (o.exec s).1.statusOf d = some .completed := by
  cases exec_status hs completed o with
  | same after => exact after
  | claimed claim before after => cases before
  | marked u loaded ho changed after =>
    subst ho
    by_cases hu : u.status = .completed
    · rw [after, hu]
    · exact absurd completed (guarded changed hu)
  | requeued rows ho listed after =>
    subst ho
    obtain ⟨r, hr, rfl⟩ := List.mem_map.mp listed
    exact absurd completed (guarded r hr)

theorem StaysCompleted.step {s : BusStore} (h : StaysCompleted d log s) {c : BusCall}
    {past : List (Event Buses)} {o : BusOp} (guarded : sparesCompleted c past o s)
    (hpast : ∀ e ∈ past, ⟨c, e⟩ ∈ log) (fit : ReadFirst past o) :
    StaysCompleted d (log ++ [⟨c, ⟨o, (o.exec s).2⟩⟩]) (o.exec s).1 := by
  refine ⟨exec_sound o h.sound, fun e he hcompletes ↦ ?_, fun c' loaded hread ↦ ?_⟩
  · rcases List.mem_append.mp he with he | he
    · exact completed_step h.sound (h.marked e he hcompletes) guarded
    · obtain rfl := List.mem_singleton.mp he
      cases o with
      | update u id loaded =>
        obtain ⟨rfl, hu⟩ : id = d ∧ u.status = .completed := of_decide_eq_true hcompletes
        -- The row is there, as it was when it was read.
        obtain ⟨status, hstatus, hread⟩ := h.read c loaded (hpast _ fit)
        obtain ⟨row, hrow, rfl⟩ := BusStore.statusOf_eq_some.mp hstatus
        have hafter := BusStore.get?_update u id loaded s id
        rw [hrow, if_pos rfl, Option.map_some] at hafter
        refine BusStore.statusOf_eq_some.mpr ⟨_, hafter, ?_⟩
        by_cases hloaded : loaded.status = u.status
        · exact (if_pos hloaded).trans (hread (hloaded.trans hu))
        · exact (if_neg hloaded).trans hu
      | _ => cases hcompletes
  · rcases List.mem_append.mp hread with hread | hread
    · obtain ⟨status, hstatus, hcompleted⟩ := h.read c' loaded hread
      by_cases hloaded : loaded.status = .completed
      · rw [hcompleted hloaded] at hstatus
        exact ⟨.completed, completed_step h.sound hstatus guarded, fun _ ↦ rfl⟩
      · cases exec_status h.sound hstatus o with
        | same after | claimed _ _ after | marked _ _ _ _ after | requeued _ _ _ after =>
          exact ⟨_, after, fun hcompleted ↦ absurd hcompleted hloaded⟩
    · have heq := List.mem_singleton.mp hread
      cases o with
      | getDelivery id =>
        injection heq with _ heq
        obtain ⟨hop, hans⟩ := Sigma.mk.inj heq
        obtain rfl : d = id := BusOp.getDelivery.inj hop
        have hloaded : s.deliveries.get? d = some loaded := (eq_of_heq hans).symm
        exact ⟨loaded.status, BusStore.statusOf_eq_some.mpr ⟨loaded, hloaded, rfl⟩, fun h ↦ h⟩
      | _ => cases heq

theorem StaysCompleted.logs (idle : w.threads = [])
    (run : subjectBus.Logs sparesCompleted w log w') (sound : w.store.Sound) (d : DeliveryId) :
    StaysCompleted d log w'.store := by
  induction run with
  | refl =>
    exact ⟨sound, fun _ he ↦ absurd he List.not_mem_nil, fun _ _ he ↦ absurd he List.not_mem_nil⟩
  | start run c ih => exact ih
  | @answer log v run i c past o k thread ready guarded ih =>
    have hthread := List.mem_of_getElem? thread
    have hfit := run.reaches.asks idle (A := fun _ _ ↦ True) (φ := fun _ ↦ ReadFirst)
      (Q := fun _ _ ↦ True) body_readFirst (fun _ _ ↦ trivial) _ hthread
    exact ih.step guarded (fun e he ↦ run.past_mem idle _ hthread e he) hfit.1

end

/-- In every run of any number of workers, however slow: between two claims of a delivery it is
marked or requeued, and a pending delivery stays there, pending until it is claimed or marked. In
every run in which no mark of another outcome and no requeue is written to a completed delivery,
no claim returns a delivery that has been marked completed. -/
theorem deliveries_run_once (w : World Buses BusCall BusStore) (idle : w.threads = [])
    (sound : w.store.Sound) :
    (∀ log w', subjectBus.Logs Guard.free w log w' → ∀ d before entry between entry' after,
      log = before ++ entry :: (between ++ entry' :: after) →
      claimsDelivery d entry.event = true → claimsDelivery d entry'.event = true →
      ∃ e ∈ between, marksDelivery d e.event = true ∨ requeuesDelivery d e.event = true) ∧
    (∀ log v log' w', subjectBus.Logs Guard.free w log v → subjectBus.Logs Guard.free v log' w' →
      ∀ d, v.store.statusOf d = some .pending → ∃ status, w'.store.statusOf d = some status ∧
        (status = .pending ∨ ∃ e ∈ log', claimsDelivery d e.event = true ∨
          marksDelivery d e.event = true)) ∧
    (∀ log w', subjectBus.Logs sparesCompleted w log w' → ∀ d before entry between entry' after,
      log = before ++ entry :: (between ++ entry' :: after) →
      completesDelivery d entry.event = true → claimsDelivery d entry'.event = false) := by
  refine ⟨?_, ?_, ?_⟩
  · intro log w' run d before entry between entry' after hlog hclaim hclaim'
    exact claims_apart run sound hlog hclaim hclaim'
  · intro log v log' w' hbefore hafter d hpending
    exact pending_kept hafter (sound_of_logs hbefore sound) hpending
  · intro log w' run d before entry between entry' after hlog hcompletes
    refine Bool.eq_false_of_not_eq_true fun hclaim ↦ ?_
    rw [← List.cons_append, ← List.append_assoc] at hlog
    obtain ⟨v, i, past, o, k, hrun, -, -, hevent⟩ := run.taken hlog
    have hcompleted := (StaysCompleted.logs idle hrun sound d).marked entry (by simp) hcompletes
    rw [hevent] at hclaim
    rw [(claims_spec hclaim).1] at hcompleted
    cases hcompleted

/-- A usage record has just been published. -/
def onePublished : World Buses BusCall BusStore where
  store := (BusStore.publish "usage.recorded".toList [] ⟨.empty, .empty, 0, 0, 0⟩).1
  threads := []

theorem onePublished_sound : onePublished.store.Sound := by
  have hempty : BusStore.Sound ⟨.empty, .empty, 0, 0, 0⟩ := by
    refine ⟨fun d row hrow ↦ ?_, fun d _ ↦ Table.get?_empty d⟩
    rw [Table.get?_empty] at hrow
    cases hrow
  exact (hempty.publish _ _).1

/-- A worker that processes the events, and whose handlers end in this way. -/
def worker (handled : SubjectBus.Handled) : BusCall :=
  .processPendingEvents 10 (fun _ ↦ false) fun _ ↦ handled

/-- A worker is handed the delivery and completes it; a requeue and a second worker, later, find
nothing to do. -/
theorem deliveries_run_once_worker : ∃ log w',
    subjectBus.Logs sparesCompleted onePublished log w' ∧ w'.store.statusOf 0 = some .completed ∧
      ∀ before entry between entry' after,
        log = before ++ entry :: (between ++ entry' :: after) →
        completesDelivery 0 entry.event = true → claimsDelivery 0 entry'.event = false := by
  obtain ⟨log, w', hrun, hcompleted⟩ := Service.exists_logs_of_record (S := subjectBus)
    (G := sparesCompleted) (w := onePublished)
    ([.start (worker .completed)] ++ List.replicate 5 (.step 0) ++ [.start (.advance 1000), .step 1,
      .start (.requeueStaleProcessing SubjectBus.controlPlaneWorker.1
        SubjectBus.controlPlaneWorker.2 900), .step 2, .step 2, .step 2,
      .start (worker .completed), .step 3, .step 3])
    (P := fun _ w' ↦ w'.store.statusOf 0 = some .completed) (by decide +kernel)
  exact ⟨log, w', hrun, hcompleted,
    (deliveries_run_once onePublished rfl onePublished_sound).2.2 log w' hrun 0⟩

/-- A worker is handed the delivery and is slow; the delivery is requeued, and a second worker
completes it. Then the first one's handler raises: the delivery is pending again, and is claimed. -/
theorem completed_delivery_claimed_again : ∃ log w',
    subjectBus.Logs Guard.free onePublished log w' ∧ ∃ before entry after,
      log = before ++ entry :: after ∧ completesDelivery 0 entry.event = true ∧
        ∃ e ∈ after, claimsDelivery 0 e.event = true := by
  obtain ⟨log, w', hrun, hlater⟩ := Service.exists_logs_of_record (S := subjectBus)
    (G := Guard.free) (w := onePublished)
    ([.start (worker (.raised [])), .step 0, .step 0, .start (.advance 1000), .step 1,
      .start (.requeueStaleProcessing SubjectBus.controlPlaneWorker.1
        SubjectBus.controlPlaneWorker.2 900), .step 2, .step 2, .step 2,
      .start (worker .completed)] ++ List.replicate 5 (.step 3) ++
      [.step 0, .step 0, .step 0, .start (.advance 40), .step 4,
      .start (worker .completed), .step 5, .step 5])
    (P := fun log _ ↦ ((log.dropWhile fun e ↦ !completesDelivery 0 e.event).tail.any fun e ↦
      claimsDelivery 0 e.event) = true) (by decide +kernel)
  refine ⟨log, w', hrun, ?_⟩
  cases hrest : log.dropWhile fun e ↦ !completesDelivery 0 e.event with
  | nil => simp [hrest] at hlater
  | cons entry after =>
    rw [hrest, List.tail_cons, List.any_eq_true] at hlater
    have hcompletes := List.head?_dropWhile_not
      (fun e : Entry Buses BusCall ↦ !completesDelivery 0 e.event) log
    refine ⟨log.takeWhile fun e ↦ !completesDelivery 0 e.event, entry, after, ?_, ?_, hlater⟩
    · rw [← hrest, List.takeWhile_append_dropWhile]
    · simpa [hrest] using hcompletes

/-! ## Attempts -/

section

variable {s : BusStore} {d : DeliveryId} {row : Delivery}

/-- A claim returns every delivery that it takes. -/
theorem claimsDelivery_claimPending (hs : s.Sound) (consumer : Text) (subjects : List Text)
    (limit : ℕ) (now : Time) (locked : DeliveryId → Bool) :
    claimsDelivery d ⟨.claimPending consumer subjects limit now locked,
      (s.claimPending consumer subjects limit now locked).2⟩ = true ↔
      d ∈ (s.claimable consumer subjects limit now locked).map Prod.fst := by
  constructor
  · intro h
    obtain ⟨m, hm, hid⟩ := List.any_eq_true.mp h
    obtain ⟨r, hr, hmessage⟩ := List.mem_filterMap.mp hm
    obtain ⟨event, -, rfl⟩ := Option.map_eq_some_iff.mp hmessage
    exact List.mem_map.mpr ⟨r, hr, of_decide_eq_true hid⟩
  · intro h
    obtain ⟨⟨id, row⟩, hr, rfl⟩ := List.mem_map.mp h
    obtain ⟨event, hevent⟩ :=
      Option.isSome_iff_exists.mp (hs.event id row (BusStore.mem_claimable hr).1)
    refine List.any_eq_true.mpr ⟨toMessage id (BusStore.claimed now row) event,
      List.mem_filterMap.mpr ⟨(id, row), hr, ?_⟩, decide_eq_true rfl⟩
    rw [hevent, Option.map_some]

theorem BusStore.attempts_requeue (rows : List (DeliveryId × Delivery))
    (hrow : s.deliveries.get? d = some row) :
    ∃ row', (s.requeue rows).deliveries.get? d = some row' ∧ row'.attempts = row.attempts := by
  induction rows generalizing s row with
  | nil => exact ⟨row, hrow, rfl⟩
  | cons r rows ih =>
    have hfirst := get?_update (requeued s.now) r.1 r.2 s d
    rw [hrow, Option.map_some] at hfirst
    split at hfirst
    · obtain ⟨row', hrow', hattempts⟩ := ih hfirst
      exact ⟨row', hrow', hattempts⟩
    · exact ih hfirst

/-- Only a claim counts as an attempt. -/
theorem exec_attempts (hs : s.Sound) (hrow : s.deliveries.get? d = some row) (o : BusOp) :
    ∃ row', (o.exec s).1.deliveries.get? d = some row' ∧ row'.attempts =
      row.attempts + if claimsDelivery d ⟨o, (o.exec s).2⟩ then 1 else 0 := by
  cases o with
  | publish subject payload => exact ⟨row, (hs.publish subject payload).2 d row hrow, rfl⟩
  | claimPending consumer subjects limit now locked =>
    have hafter := BusStore.get?_claimPending consumer subjects limit now locked hrow
    have hclaims := claimsDelivery_claimPending (d := d) hs consumer subjects limit now locked
    refine ⟨_, hafter, ?_⟩
    rw [BusOp.exec, if_congr hclaims rfl rfl]
    split <;> rfl
  | update u id loaded =>
    have hafter := BusStore.get?_update u id loaded s d
    rw [hrow, Option.map_some] at hafter
    split at hafter <;> exact ⟨_, hafter, rfl⟩
  | requeue rows => exact BusStore.attempts_requeue rows hrow
  | _ => exact ⟨row, hrow, rfl⟩

/-- **Attempts are exact.** In every run of any number of workers a delivery's `attempts` go up by
the claims that return it, and by nothing else. -/
theorem attempts_count_claims {G : Guard Buses BusCall BusStore}
    {w w' : World Buses BusCall BusStore} {log : List (Entry Buses BusCall)}
    (run : subjectBus.Logs G w log w') (sound : w.store.Sound)
    (hrow : w.store.deliveries.get? d = some row) :
    ∃ row', w'.store.deliveries.get? d = some row' ∧
      row'.attempts = row.attempts + log.countP fun e ↦ claimsDelivery d e.event := by
  refine (run.keeps (P := fun log s ↦ s.Sound ∧ ∃ row', s.deliveries.get? d = some row' ∧
    row'.attempts = row.attempts + log.countP fun e ↦ claimsDelivery d e.event)
    ⟨sound, row, hrow, rfl⟩ ?_).2
  rintro log c past o s ⟨hs, row', hrow', h⟩ - -
  obtain ⟨row'', hrow'', h'⟩ := exec_attempts hs hrow' o
  refine ⟨exec_sound o hs, row'', hrow'', ?_⟩
  rw [h', h, List.countP_append, Nat.add_assoc, List.countP_singleton]
  rfl

end

/-- A worker fails, and a second one is handed the delivery again. -/
theorem attempts_count_claims_twice : ∃ log w' row', subjectBus.Logs Guard.free onePublished log w' ∧
    log.countP (fun e ↦ claimsDelivery 0 e.event) = 2 ∧
    w'.store.deliveries.get? 0 = some row' ∧ row'.attempts = 2 := by
  obtain ⟨log, w', hrun, hcount⟩ := Service.exists_logs_of_record (S := subjectBus)
    (G := Guard.free) (w := onePublished)
    ([.start (worker (.raised []))] ++ List.replicate 5 (.step 0) ++
      [.start (.advance 40), .step 1, .start (worker .completed), .step 2, .step 2])
    (P := fun log _ ↦ log.countP (fun e ↦ claimsDelivery 0 e.event) = 2) (by decide +kernel)
  obtain ⟨row', hrow', hattempts⟩ :=
    attempts_count_claims (d := 0) hrun onePublished_sound rfl
  rw [hcount] at hattempts
  exact ⟨log, w', row', hrun, hcount, hrow', hattempts⟩

end GreenCompute
