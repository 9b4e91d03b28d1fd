import GreenCompute.Persistence.AccountEvents

/-!
# A rental that stops is told of once

A pass reads the account events above its cursor that are at least ten seconds old, five hundred at
a time, moves the cursor to the last id it has read, and sends each customer one email about their
rentals that were running and failed. The cursor goes by ids and the age by `created_at`. A sweep
takes its events' time when it starts and their ids later, so an event can be old enough while one
with a smaller id is not yet: the cursor then passes the younger one for good.
`stopped_rentals_told_once` is about the runs in which that befalls no rental that stopped.
-/

namespace GreenCompute

/-! ## One pass -/

/-- A rental in an email. Without a name it goes by its deployment's id. -/
structure StoppedRental where
  deploymentId : DeploymentId
  name : Option Text
  error : Option Text
  deriving DecidableEq

/-- An email: the rentals that stopped, each with the id of its event. -/
structure StoppedEmail where
  userId : UserId
  rentals : List (AccountEventId × StoppedRental)
  deriving DecidableEq

/-- The rental that an event is about, if it was running and stopped without being asked to. -/
def AccountEvent.stoppedRental (e : AccountEvent) : Option StoppedRental :=
  match e.data with
  | none => none
  | some news =>
    if e.type ≠ .deploymentFailed ∨ news.previousState ≠ some .ready then none
    else some
      { deploymentId := news.deploymentId
        name := news.name.filter fun n ↦ n ≠ []
        error := (news.error.filter fun t ↦ t ≠ []).map fun t ↦ t.take 300 }

namespace StoppedEmail

/-- `by_user.setdefault(event.user_id, []).append(…)` -/
def addRental (userId : UserId) (rental : AccountEventId × StoppedRental) :
    List StoppedEmail → List StoppedEmail
  | [] => [⟨userId, [rental]⟩]
  | email :: emails =>
    if email.userId = userId then { email with rentals := email.rentals ++ [rental] } :: emails
    else email :: addRental userId rental emails

/-- The emails about some events. -/
def byUser (events : List (AccountEventId × AccountEvent)) : List StoppedEmail :=
  events.foldl
    (fun emails event ↦
      match event.2.stoppedRental with
      | none => emails
      | some rental => addRental event.2.userId (event.1, rental) emails)
    []

end StoppedEmail

/-- The events, the cursor of `notify:stopped:last_event_id`, where the first pass put it, and the
emails of each pass. -/
structure AlertsDb where
  events : EventsDb
  cursor : Option AccountEventId
  first : Option AccountEventId
  passes : List (List StoppedEmail)

namespace AlertsDb

/-- `SETTLE` -/
def settle : Time := 10

/-- `BATCH` -/
def batch : ℕ := 500

variable (s : AlertsDb)

/-- The events above a cursor that are old enough. -/
def due (cursor : AccountEventId) (now : Time) : List (AccountEventId × AccountEvent) :=
  s.events.read fun i e ↦ cursor < i ∧ e.createdAt ≤ now - settle

/-- `stopped_once` -/
def stoppedOnce (now : Time) : AlertsDb :=
  match s.cursor with
  | none =>
    let latest := s.events.latest fun _ _ ↦ true
    { s with cursor := some latest, first := some latest }
  | some cursor =>
    let events := (s.due cursor now).take batch
    { s with
      cursor := some (cursorAfter Prod.fst cursor events)
      passes := s.passes ++ [StoppedEmail.byUser events] }

/-- How often an event's rental has been told of. -/
def timesTold (i : AccountEventId) : ℕ :=
  (s.passes.flatten.flatMap StoppedEmail.rentals).countP fun rental ↦ rental.1 = i

end AlertsDb

/-- A step of a writer, or a pass, which may have taken its time a while ago. -/
inductive AlertOp where
  | event (o : EventOp)
  | pass (now : Time)

namespace AlertOp

open AlertsDb

def exec : AlertOp → AlertsDb → AlertsDb
  | event o, s => { s with events := o.exec s.events }
  | pass now, s => s.stoppedOnce now

/-- Every event of a transaction that commits is at most ten seconds old. -/
def InTime : EventOp → EventsDb → Prop
  | .commit w, s => ∀ x ∈ s.rows.rows, x.2.writer = some w → s.now ≤ x.2.event.createdAt + settle
  | _, _ => True

/-- What can happen. -/
def Possible : AlertOp → AlertsDb → Prop
  | event o, s => o.Possible s.events ∧ InTime o s.events
  | pass now, s => now ≤ s.events.now

/-- A pass goes beyond no rental's stop that it cannot read yet: where the event waits for its
commit or is too young, a page of others comes before any later event that is read. -/
def Waits : AlertOp → AlertsDb → Prop
  | event _, _ => True
  | pass now, s => ∀ cursor ∈ s.cursor, ∀ x ∈ s.events.rows.rows, cursor < x.1 →
      x.2.event.stoppedRental.isSome →
      (x.2.writer ≠ none ∨ now - settle < x.2.event.createdAt) →
      ∀ y ∈ s.due cursor now, x.1 < y.1 → batch ≤ (s.due cursor now).countP fun z ↦ z.1 < y.1

instance (o : EventOp) (s : EventsDb) : Decidable (InTime o s) := by
  rcases o with _ | _ <;> unfold InTime <;> infer_instance

instance (o : AlertOp) (s : AlertsDb) : Decidable (o.Possible s) := by
  cases o <;> unfold Possible <;> infer_instance

instance (o : AlertOp) (s : AlertsDb) : Decidable (o.Waits s) := by
  cases o <;> unfold Waits <;> infer_instance

end AlertOp

/-! ## What the emails list -/

namespace StoppedEmail

theorem rentals_addRental (userId : UserId) (rental : AccountEventId × StoppedRental)
    (emails : List StoppedEmail) :
    ((addRental userId rental emails).flatMap rentals).Perm (rental :: emails.flatMap rentals) := by
  induction emails with
  | nil => simp [addRental]
  | cons email emails ih =>
    unfold addRental
    split
    · rw [List.flatMap_cons, List.flatMap_cons, List.append_assoc]
      exact List.perm_middle
    · rw [List.flatMap_cons, List.flatMap_cons]
      exact (ih.append_left _).trans List.perm_middle

/-- The emails list the rentals that stopped, and no others. -/
theorem rentals_byUser (events : List (AccountEventId × AccountEvent)) :
    ((byUser events).flatMap rentals).Perm
      (events.filterMap fun event ↦ event.2.stoppedRental.map fun rental ↦ (event.1, rental)) := by
  induction events using List.reverseRecOn with
  | nil => exact .nil
  | append_singleton events event ih =>
    rw [byUser, List.foldl_concat, List.filterMap_append]
    change (List.flatMap rentals (match event.2.stoppedRental with
      | none => byUser events
      | some rental => addRental event.2.userId (event.1, rental) (byUser events))).Perm _
    cases hrental : event.2.stoppedRental with
    | none =>
      rw [List.filterMap_cons_none (by rw [hrental]; rfl), List.filterMap_nil, List.append_nil]
      exact ih
    | some rental =>
      rw [List.filterMap_cons_some (by rw [hrental]; rfl), List.filterMap_nil]
      refine (rentals_addRental _ _ _).trans ((ih.cons _).trans ?_)
      exact (List.perm_append_singleton _ _).symm

theorem countP_byUser (events : List (AccountEventId × AccountEvent))
    (p : AccountEventId × StoppedRental → Bool) :
    ((byUser events).flatMap rentals).countP p =
      (events.filterMap fun event ↦
        event.2.stoppedRental.map fun rental ↦ (event.1, rental)).countP p :=
  (rentals_byUser events).countP_eq p

theorem told_of_notMem {events : List (AccountEventId × AccountEvent)} {i : AccountEventId}
    (hmem : ∀ event ∈ events, event.1 ≠ i) :
    ((byUser events).flatMap rentals).countP (fun rental ↦ rental.1 = i) = 0 := by
  rw [countP_byUser, List.countP_eq_zero]
  intro rental hrental
  obtain ⟨event, hevent, heq⟩ := List.mem_filterMap.mp hrental
  obtain ⟨-, -, rfl⟩ := Option.map_eq_some_iff.mp heq
  simpa using hmem event hevent

/-- An event of a page is told of once if a rental stopped there. -/
theorem told_of_mem {events : List (AccountEventId × AccountEvent)} (h : Ascending Prod.fst events)
    {i : AccountEventId} {e : AccountEvent} (hmem : (i, e) ∈ events)
    (hstop : e.stoppedRental.isSome) :
    ((byUser events).flatMap rentals).countP (fun rental ↦ rental.1 = i) = 1 := by
  obtain ⟨rental, hrental⟩ := Option.isSome_iff_exists.mp hstop
  obtain ⟨pre, post, rfl⟩ := List.append_of_mem hmem
  obtain ⟨-, hpost, hcross⟩ := List.pairwise_append.mp h
  have hbefore := told_of_notMem (i := i) fun event (hevent : event ∈ pre) ↦
    (hcross event hevent (i, e) List.mem_cons_self).ne
  have hafter := told_of_notMem (i := i) fun event (hevent : event ∈ post) ↦
    ((List.pairwise_cons.mp hpost).1 event hevent).ne'
  rw [countP_byUser] at hbefore hafter ⊢
  rw [List.filterMap_append, List.countP_append, hbefore,
    List.filterMap_cons_some (b := (i, rental)) (by rw [hrental]; rfl), List.countP_cons, hafter]
  simp

end StoppedEmail

namespace AlertsDb

variable {s s₀ s' : AlertsDb} {i cursor first : AccountEventId} {e : AccountEvent} {now : Time}

theorem mem_due : (i, e) ∈ s.due cursor now ↔
    s.events.Committed i e ∧ cursor < i ∧ e.createdAt ≤ now - settle := by
  rw [due, EventsDb.mem_read, decide_eq_true_iff]

theorem ascending_due (s : AlertsDb) (cursor : AccountEventId) (now : Time) :
    Ascending Prod.fst (s.due cursor now) := s.events.ascending_read _

theorem stoppedOnce_of_cursor (h : s.cursor = some cursor) (now : Time) :
    s.stoppedOnce now =
      { s with
        cursor := some (cursorAfter Prod.fst cursor ((s.due cursor now).take batch))
        passes := s.passes ++ [StoppedEmail.byUser ((s.due cursor now).take batch)] } := by
  simp only [stoppedOnce, h]

theorem timesTold_stoppedOnce (h : s.cursor = some cursor) (now : Time) (i : AccountEventId) :
    (s.stoppedOnce now).timesTold i = s.timesTold i +
      ((StoppedEmail.byUser ((s.due cursor now).take batch)).flatMap StoppedEmail.rentals).countP
        (fun rental ↦ rental.1 = i) := by
  rw [stoppedOnce_of_cursor h, timesTold, List.flatten_append, List.flatMap_append,
    List.countP_append, List.flatten_singleton]
  rfl

/-- Where a rental's stop is on the page, it is told of once more. -/
theorem timesTold_of_mem (h : s.cursor = some cursor)
    (hmem : (i, e) ∈ (s.due cursor now).take batch) (hstop : e.stoppedRental.isSome) :
    (s.stoppedOnce now).timesTold i = s.timesTold i + 1 := by
  rw [timesTold_stoppedOnce h,
    StoppedEmail.told_of_mem ((s.ascending_due cursor now).take batch) hmem hstop]

theorem timesTold_of_notMem (h : s.cursor = some cursor)
    (hmem : ∀ event ∈ (s.due cursor now).take batch, event.1 ≠ i) :
    (s.stoppedOnce now).timesTold i = s.timesTold i := by
  rw [timesTold_stoppedOnce h, StoppedEmail.told_of_notMem hmem, add_zero]

theorem lt_of_mem_page {event : AccountEventId × AccountEvent}
    (h : event ∈ (s.due cursor now).take batch) : cursor < event.1 :=
  (mem_due.mp (List.mem_of_mem_take h)).2.1

/-- What the cursor has passed, no later pass tells of. -/
theorem timesTold_of_le (h : s.cursor = some cursor) (hi : i ≤ cursor) (now : Time) :
    (s.stoppedOnce now).timesTold i = s.timesTold i :=
  timesTold_of_notMem h fun _ hevent ↦ (hi.trans_lt (lt_of_mem_page hevent)).ne'

theorem le_cursor_stoppedOnce (s : AlertsDb) (cursor : AccountEventId) (now : Time) :
    cursor ≤ cursorAfter Prod.fst cursor ((s.due cursor now).take batch) :=
  le_cursorAfter fun _ ↦ lt_of_mem_page

/-! ## What a run keeps -/

/-- A rental's stop that the cursor has passed was told of once, and it can be read; one above the
cursor has not been told of. -/
structure Told (s : AlertsDb) : Prop where
  sound : s.events.Sound
  fresh : s.cursor = none → s.first = none ∧ s.passes = []
  first_le : ∀ cursor, s.cursor = some cursor → ∃ first, s.first = some first ∧ first ≤ cursor
  cursor_lt : ∀ cursor, s.cursor = some cursor → cursor < s.events.nextId
  told_lt : ∀ i, s.timesTold i ≠ 0 → i < s.events.nextId
  told : ∀ first cursor i r, s.first = some first → s.cursor = some cursor →
    s.events.rows.get? i = some r → r.event.stoppedRental.isSome → first < i →
      i ≤ cursor ∧ r.writer = none ∧ s.timesTold i = 1 ∨ cursor < i ∧ s.timesTold i = 0

/-- No pass has been made. -/
structure Fresh (s : AlertsDb) : Prop where
  sound : s.events.Sound
  cursor : s.cursor = none
  first : s.first = none
  passes : s.passes = []

theorem timesTold_eq_zero (h : s.passes = []) (i : AccountEventId) : s.timesTold i = 0 := by
  rw [timesTold, h]
  rfl

theorem Fresh.told (h : s.Fresh) : s.Told where
  sound := h.sound
  fresh _ := ⟨h.first, h.passes⟩
  first_le _ hcursor := nomatch h.cursor.symm.trans hcursor
  cursor_lt _ hcursor := nomatch h.cursor.symm.trans hcursor
  told_lt i hi := absurd (timesTold_eq_zero h.passes i) hi
  told _ _ _ _ _ hcursor := nomatch h.cursor.symm.trans hcursor

namespace Told

theorem event (h : s.Told) {o : EventOp} (hpossible : o.Possible s.events) :
    Told { s with events := o.exec s.events } where
  sound := h.sound.exec hpossible
  fresh := h.fresh
  first_le := h.first_le
  cursor_lt cursor hcursor :=
    (h.cursor_lt cursor hcursor).trans_le (EventsDb.nextId_le_exec o s.events)
  told_lt i hi := (h.told_lt i hi).trans_le (EventsDb.nextId_le_exec o s.events)
  told first cursor i r hfirst hcursor hr hstop hi := by
    rcases EventsDb.get?_exec hr with hold | ⟨w, -, hnone, hold⟩ | ⟨w, _, _, -, -, -, -, rfl⟩
    · exact h.told first cursor i r hfirst hcursor hold hstop hi
    · -- A row that is committed only now has been waited for.
      rcases h.told first cursor i _ hfirst hcursor hold hstop hi with ⟨-, hcommitted, -⟩ | hlater
      · cases hcommitted
      · exact .inr hlater
    · refine .inr ⟨h.cursor_lt cursor hcursor, ?_⟩
      by_contra htold
      exact lt_irrefl _ (h.told_lt _ htold)

theorem first_pass (h : s.Told) (hcursor : s.cursor = none) (now : Time) :
    (s.stoppedOnce now).Told := by
  have heq : s.stoppedOnce now =
      { s with
        cursor := some (s.events.latest fun _ _ ↦ true)
        first := some (s.events.latest fun _ _ ↦ true) } := by
    simp only [stoppedOnce, hcursor]
  rw [heq]
  refine ⟨h.sound, nofun, ?_, ?_, h.told_lt, ?_⟩
  · rintro cursor ⟨⟩
    exact ⟨_, rfl, le_rfl⟩
  · rintro cursor ⟨⟩
    rcases s.events.latest_cases fun _ _ ↦ true with hzero | ⟨e, hcommitted, -⟩
    · rw [hzero]
      exact h.sound.nextId_pos
    · exact (h.sound.bounds _ _ hcommitted).2
  · rintro first cursor i r ⟨⟩ ⟨⟩ hr hstop hi
    exact .inr ⟨hi, timesTold_eq_zero (h.fresh hcursor).2 i⟩

/-- A pass that goes beyond no stop it cannot read. -/
theorem pass (h : s.Told) (hcursor : s.cursor = some cursor)
    (hwaits : (AlertOp.pass now).Waits s) : (s.stoppedOnce now).Told := by
  have hmoves := le_cursor_stoppedOnce s cursor now
  have hpage : ∀ event ∈ (s.due cursor now).take batch, s.events.Committed event.1 event.2 :=
    fun event hevent ↦ (mem_due.mp (List.mem_of_mem_take hevent)).1
  obtain ⟨first, hfirst, hle⟩ := h.first_le cursor hcursor
  have heq := stoppedOnce_of_cursor hcursor now
  refine ⟨?_, ?_, ?_, ?_, ?_, ?_⟩
  · rw [heq]
    exact h.sound
  · rw [heq]
    exact nofun
  · rw [heq]
    rintro cursor' ⟨⟩
    exact ⟨first, hfirst, hle.trans hmoves⟩
  · rw [heq]
    rintro cursor' ⟨⟩
    rcases cursorAfter_cases Prod.fst cursor ((s.due cursor now).take batch) with
      ⟨-, hsame⟩ | ⟨event, hevent, hlast⟩
    · exact hsame.trans_lt (h.cursor_lt cursor hcursor)
    · exact hlast.trans_lt (h.sound.bounds _ _ (hpage event hevent)).2
  · intro i hi
    by_cases hread : ∃ event ∈ (s.due cursor now).take batch, event.1 = i
    · obtain ⟨event, hevent, rfl⟩ := hread
      rw [heq]
      exact (h.sound.bounds _ _ (hpage event hevent)).2
    · rw [timesTold_of_notMem hcursor fun event hevent hi ↦ hread ⟨event, hevent, hi⟩] at hi
      rw [heq]
      exact h.told_lt i hi
  · intro first' cursor' i r hfirst' hcursor' hr hstop hi
    rw [heq] at hfirst' hcursor' hr
    obtain rfl := Option.some.inj hcursor'
    rcases h.told first' cursor i r hfirst' hcursor hr hstop hi with
      ⟨hle, hnone, hone⟩ | ⟨hlt, hzero⟩
    · exact .inl ⟨hle.trans hmoves, hnone, (timesTold_of_le hcursor hle now).trans hone⟩
    · by_cases hread : ∃ event ∈ (s.due cursor now).take batch, event.1 = i
      · obtain ⟨⟨_, e⟩, hevent, rfl⟩ := hread
        obtain rfl := Option.some.inj (hr.symm.trans (hpage _ hevent))
        have hlast := ((s.ascending_due cursor now).take batch).key_le_cursorAfter (c := cursor)
          hevent
        exact .inl ⟨hlast, rfl, (timesTold_of_mem hcursor hevent hstop).trans (by rw [hzero])⟩
      · have hnot : ∀ event ∈ (s.due cursor now).take batch, event.1 ≠ i :=
          fun event hevent hi ↦ hread ⟨event, hevent, hi⟩
        refine .inr ⟨?_, (timesTold_of_notMem hcursor hnot).trans hzero⟩
        rcases cursorAfter_cases Prod.fst cursor ((s.due cursor now).take batch) with
          ⟨-, hsame⟩ | ⟨event, hevent, hlast⟩
        · exact hsame.trans_lt hlt
        · -- What the pass reads last is not above a stop that it does not read.
          refine hlast.trans_lt (lt_of_le_of_ne (not_lt.mp fun habove ↦ ?_) (hnot event hevent))
          have hdue := List.mem_of_mem_take hevent
          by_cases hreadable : r.writer = none ∧ r.event.createdAt ≤ now - settle
          · have hmem : (i, r.event) ∈ s.due cursor now := by
              refine mem_due.mpr ⟨?_, hlt, hreadable.2⟩
              rw [EventsDb.Committed, ← hreadable.1]
              exact hr
            exact hnot _ ((s.ascending_due cursor now).mem_take_of_le hevent hmem habove.le) rfl
          · have hyoung : r.writer ≠ none ∨ now - settle < r.event.createdAt := by
              rcases not_and_or.mp hreadable with hwriter | hage
              · exact .inl hwriter
              · exact .inr (Rat.not_le.mp hage)
            have hfull := hwaits cursor hcursor (i, r) (Table.mem_rows_iff.mpr hr) hlt hstop hyoung
              event hdue habove
            exact (((s.ascending_due cursor now).mem_take_iff hdue).mp hevent).not_ge hfull

theorem exec (h : s.Told) {o : AlertOp} (hpossible : o.Possible s) (hwaits : o.Waits s) :
    (o.exec s).Told := by
  cases o with
  | event o => exact h.event hpossible.1
  | pass now =>
    cases hcursor : s.cursor with
    | none => exact h.first_pass hcursor now
    | some cursor => exact h.pass hcursor hwaits

theorem of_steps (run : Steps AlertOp.exec (fun o s ↦ o.Possible s ∧ o.Waits s) s₀ s)
    (h : s₀.Told) : s.Told :=
  run.invariant (fun _ _ h ho ↦ h.exec ho.1 ho.2) h

end Told

/-- A pass that finds an event old enough, and less than a page of others before it, reads it. -/
theorem timesTold_of_due (h : s.cursor = some cursor) (hcommitted : s.events.Committed i e)
    (hlt : cursor < i) (hage : e.createdAt ≤ now - settle) (hstop : e.stoppedRental.isSome)
    (hfew : (s.due cursor now).countP (fun y ↦ y.1 < i) < batch) :
    (s.stoppedOnce now).timesTold i = s.timesTold i + 1 := by
  have hdue : (i, e) ∈ s.due cursor now := mem_due.mpr ⟨hcommitted, hlt, hage⟩
  exact timesTold_of_mem h (((s.ascending_due cursor now).mem_take_iff hdue).mpr hfew) hstop

/-- What the cursor has passed without telling of it is never told of. -/
theorem lost_of_le (run : Steps AlertOp.exec AlertOp.Possible s s') (h : s.cursor = some cursor)
    (hi : i ≤ cursor) : s'.timesTold i = s.timesTold i := by
  have hkept : (∃ cursor', s'.cursor = some cursor' ∧ i ≤ cursor') ∧
      s'.timesTold i = s.timesTold i := by
    refine run.invariant (P := fun s' ↦ (∃ cursor', s'.cursor = some cursor' ∧ i ≤ cursor') ∧
      s'.timesTold i = s.timesTold i) ?_ ⟨⟨cursor, h, hi⟩, rfl⟩
    rintro (o | now) s' ⟨⟨cursor', hcursor', hi'⟩, heq⟩ -
    · exact ⟨⟨cursor', hcursor', hi'⟩, heq⟩
    · refine ⟨⟨_, ?_, hi'.trans (le_cursor_stoppedOnce s' cursor' now)⟩, ?_⟩
      · exact congrArg AlertsDb.cursor (stoppedOnce_of_cursor hcursor' now)
      · exact (timesTold_of_le hcursor' hi' now).trans heq
  exact hkept.2

/-- An event that the cursor has passed has been told of once. One above the cursor has not, and is
by the first pass that comes ten seconds after it and finds less than a page of others before it. -/
def ToldOnce (s : AlertsDb) (i : AccountEventId) (e : AccountEvent) : Prop :=
  ∃ cursor, s.cursor = some cursor ∧ (i ≤ cursor → s.timesTold i = 1) ∧
    (cursor < i → s.timesTold i = 0 ∧ ∀ now, e.createdAt ≤ now - settle →
      (s.due cursor now).countP (fun y ↦ y.1 < i) < batch → (s.stoppedOnce now).timesTold i = 1)

/-- Where no pass goes beyond a rental's stop that it cannot read yet, every stop that was written
after the first pass is told of once. -/
theorem stopped_rentals_told_once (hstart : s₀.Fresh)
    (run : Steps AlertOp.exec (fun o s ↦ o.Possible s ∧ o.Waits s) s₀ s)
    (hcommitted : s.events.Committed i e) (hstop : e.stoppedRental.isSome)
    (hfirst : s.first = some first) (hafter : first < i) : s.ToldOnce i e := by
  have h : s.Told := .of_steps run hstart.told
  obtain ⟨cursor, hcursor⟩ : ∃ cursor, s.cursor = some cursor := by
    refine Option.ne_none_iff_exists'.mp fun hnone ↦ ?_
    exact nomatch hfirst.symm.trans (h.fresh hnone).1
  refine ⟨cursor, hcursor, fun hle ↦ ?_, fun hlt ↦ ?_⟩
  · rcases h.told first cursor i _ hfirst hcursor hcommitted hstop hafter with
      ⟨-, -, hone⟩ | ⟨hlt, -⟩
    · exact hone
    · exact absurd hlt hle.not_gt
  · rcases h.told first cursor i _ hfirst hcursor hcommitted hstop hafter with
      ⟨hle, -⟩ | ⟨-, hzero⟩
    · exact absurd hlt hle.not_gt
    · refine ⟨hzero, fun now hage hfew ↦ ?_⟩
      rw [timesTold_of_due hcursor hcommitted hlt hage hstop hfew, hzero]

private def noAlerts : AlertsDb := ⟨.empty, none, none, []⟩

private theorem noAlerts_fresh : noAlerts.Fresh := ⟨EventsDb.sound_empty, rfl, rfl, rfl⟩

/-- Ada's pod, which has failed. -/
private def failedPod : DeploymentRecord where
  workloadId := "pod".toList
  name := some "rig-01".toList
  ownerUserId := some 1
  hotkey := some 2
  nodeId := some 3
  state := .failed
  requestedInstances := 1
  readyInstances := 0
  endpoint := none
  sshPrivateKey := none
  portMappings := []
  sshHostKeys := []
  hourlyRateCents := 40
  saveOnExhaustion := true
  resumeOnTopup := false
  suspendedReason := none
  readyAt := some 0
  suspendedAt := none
  deploymentFeeUsd := 0
  feeAcknowledged := true
  warmupState := .stopped
  lastError := some "its container died".toList
  failureClass := none
  lastRetryReason := none
  retryCount := 0
  retryExhausted := false
  healthCheckFailures := 0
  updatedAt := 7

/-- After the first pass a low-credit sweep starts. Seven seconds later ada's pod stops, and that is
written before the sweep warns bob. -/
private def sweepAndStop : List AlertOp :=
  [.pass 0, .event (.start 1), .event (.advance 7), .event (.start 2),
    .event (.write 2 (.deployment 5 failedPod (some .ready))), .event (.advance 1),
    .event (.commit 2), .event (.write 1 (.balanceLow 2)), .event (.advance 1),
    .event (.commit 1), .event (.advance 1)]

private def podStopped : AccountEvent where
  userId := 1
  type := .deploymentFailed
  data := some ⟨5, some "rig-01".toList, "pod".toList, .failed, some .ready,
    some "its container died".toList, none⟩
  createdAt := 7

/-- A pass eighteen seconds after the first one tells ada. -/
theorem stopped_rentals_told_once_later :
    (Steps.replay AlertOp.exec noAlerts
      (sweepAndStop ++ [.event (.advance 8), .pass 18])).ToldOnce 1 podStopped :=
  have run : Steps AlertOp.exec (fun o s ↦ o.Possible s ∧ o.Waits s) noAlerts
      (Steps.replay AlertOp.exec noAlerts (sweepAndStop ++ [.event (.advance 8), .pass 18])) :=
    Steps.of_admits _ _ noAlerts _ (by decide +kernel)
  have first : (Steps.replay AlertOp.exec noAlerts
      (sweepAndStop ++ [.event (.advance 8), .pass 18])).first = some 0 := by decide +kernel
  stopped_rentals_told_once noAlerts_fresh run (by decide +kernel) (by decide +kernel) first
    (by decide)

/-- A pass ten seconds after the first one reads what bob is warned of, and what befell ada is never
told. -/
theorem stopped_rental_never_told :
    ∃ (s₀ s : AlertsDb) (i first : AccountEventId) (e : AccountEvent), s₀.Fresh ∧
      Steps AlertOp.exec AlertOp.Possible s₀ s ∧ s.events.Committed i e ∧ e.stoppedRental.isSome ∧
      s.first = some first ∧ first < i ∧
      ∀ s', Steps AlertOp.exec AlertOp.Possible s s' → s'.timesTold i = 0 := by
  have run : Steps AlertOp.exec AlertOp.Possible noAlerts
      (Steps.replay AlertOp.exec noAlerts (sweepAndStop ++ [.pass 10])) :=
    Steps.of_admits _ _ noAlerts _ (by decide +kernel)
  refine ⟨noAlerts, _, 1, 0, podStopped, noAlerts_fresh, run, by decide +kernel, by decide +kernel,
    by decide +kernel, by decide, fun s' hrun ↦ ?_⟩
  have hpassed : (Steps.replay AlertOp.exec noAlerts
      (sweepAndStop ++ [.pass 10])).cursor = some 2 := by
    decide +kernel
  rw [lost_of_le hrun hpassed (by decide)]
  decide +kernel

end AlertsDb

end GreenCompute
