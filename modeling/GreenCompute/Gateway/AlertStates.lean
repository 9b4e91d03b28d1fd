import GreenCompute.Foundations.Steps
import GreenCompute.Gateway.CapacityAlerts

/-!
# The states of a capacity alert

Gateways make, list, cancel and check alerts at the same time, each call in a transaction of its
own. Making one locks the row of the customer, and a check locks the alerts that it has read; the
other reads lock nothing. What a transaction writes is locked until its end and seen after it.

A fired alert has its event, no alert gets two, and a customer has at most five different alerts
waiting, whatever the interleaving. That an alert with an event stays fired holds exactly as long
as no transaction commits an expiry or a cancellation over it, decided on a state that was read
before it fired: `alerts_truthful_iff`.
-/

namespace GreenCompute

open CapacityAlerts

abbrev TransactionId := ℕ

/-- What a transaction has still to do. One that writes has its rows to lock, those it has locked
with their new states, and perhaps a row to insert; a check that fires has the rows it read. -/
inductive AlertTask where
  | lockCustomer (id : AlertId) (alert : CapacityAlert)
  | readForCreate (id : AlertId) (alert : CapacityAlert)
  | readForList (u : UserId) (now : Time)
  | readForCancel (u : UserId) (id : AlertId)
  | readForCheck (free : Table Text (List ℕ)) (now : Time)
  | write (writes written : List (AlertId × AlertState)) (new : Option (AlertId × CapacityAlert))
  | fire (free : Table Text (List ℕ)) (now : Time) (rows : List (AlertId × CapacityAlert))

/-- What is committed, which transaction locks which row, and what each has still to do. -/
structure AlertWorld where
  alerts : Table AlertId CapacityAlert
  events : List (UserId × CapacityNotice)
  customerLocks : UserId → Option TransactionId
  rowLocks : AlertId → Option TransactionId
  transactions : TransactionId → Option AlertTask

namespace AlertWorld

/-- No alert was made yet. -/
def empty : AlertWorld where
  alerts := .empty
  events := []
  customerLocks _ := none
  rowLocks _ := none
  transactions _ := none

variable (w : AlertWorld) (t : TransactionId)

/-- A transaction goes on with a task. -/
def proceed (task : AlertTask) : AlertWorld :=
  { w with transactions := Function.update w.transactions t (some task) }

/-- A transaction ends, and its locks with it. -/
def finish : AlertWorld :=
  { w with
    customerLocks := fun u ↦ if w.customerLocks u = some t then none else w.customerLocks u
    rowLocks := fun id ↦ if w.rowLocks id = some t then none else w.rowLocks id
    transactions := Function.update w.transactions t none }

/-- The row that `create_alert` makes, or why it makes none. -/
def newAlert (publicGpuModels : List Text) (u : UserId) (gpuModel : Text)
    (gpuCount count : Option ℤ) (now : Time) : Except Text CapacityAlert := do
  let model ← normalizeModel publicGpuModels gpuModel
  let gpuCount ← wholeNumber gpuCount "gpu_count".toList maxGpuCount
  let count ← wholeNumber count "count".toList maxCount
  pure
    { userId := u
      gpuModel := model
      gpuCount := gpuCount
      count := count
      state := .waiting
      createdAt := now
      expiresAt := now + lifetime
      firedAt := none
      gpuCount_pos := pos_of_range gpuCount
      count_pos := pos_of_range count }

/-- The expiries that `_waiting` notes. -/
def expiries (u : UserId) (now : Time) : List (AlertId × AlertState) :=
  (w.alerts.select fun _ row ↦ row.userId = u ∧ overdue now row).map fun r ↦ (r.1, .expired)

/-- The two alerts ask for the same. -/
def sameAsk (row alert : CapacityAlert) : Bool :=
  row.gpuModel = alert.gpuModel ∧ row.gpuCount = alert.gpuCount ∧ row.count = alert.count

/-- Written rows with their new states. -/
def written (alerts : Table AlertId CapacityAlert) (writes : List (AlertId × AlertState)) :
    Table AlertId CapacityAlert :=
  alerts.map fun id row ↦
    match writes.lookup id with
    | some state => { row with state := state }
    | none => row

/-- The identifier of a new row is taken: the insert raises. -/
def taken (new : Option (AlertId × CapacityAlert)) : Bool :=
  new.any fun n ↦ (w.alerts.get? n.1).isSome

/-- A transaction commits what it has written. -/
def commitWrites (writes : List (AlertId × AlertState)) (new : Option (AlertId × CapacityAlert)) :
    AlertWorld :=
  if w.taken new then w.finish t
  else
    { w.finish t with
      alerts :=
        match new with
        | none => written w.alerts writes
        | some (id, alert) => (written w.alerts writes).insert id alert }

/-- A check over the rows it has locked. -/
def checkRows (free : Table Text (List ℕ)) (now : Time) (rows : List (AlertId × CapacityAlert)) :
    AlertCheck :=
  (rows.insertionSort fun a b ↦
    a.2.userId < b.2.userId ∨ a.2.userId = b.2.userId ∧ a.2.createdAt ≤ b.2.createdAt).foldl
      (checkAlert free now) ⟨w.alerts, [], [], .empty⟩

/-- The next statement of a transaction, or its commit. One that waits for a lock leaves everything
as it is. -/
def step : AlertWorld :=
  match w.transactions t with
  | none => w
  | some (.lockCustomer id alert) =>
    if w.customerLocks alert.userId = none then
      { w.proceed t (.readForCreate id alert) with
        customerLocks := Function.update w.customerLocks alert.userId (some t) }
    else w
  | some (.readForCreate id alert) =>
    let waiting := (waitingOf alert.userId alert.createdAt w.alerts).2
    let writes := w.expiries alert.userId alert.createdAt
    if waiting.any (sameAsk ·.2 alert) then w.proceed t (.write writes [] none)
    else if maxWaiting ≤ waiting.length then w.finish t
    else w.proceed t (.write writes [] (some (id, alert)))
  | some (.readForList u now) => w.proceed t (.write (w.expiries u now) [] none)
  | some (.readForCancel u id) =>
    match w.alerts.get? id with
    | none => w.finish t
    | some row =>
      if row.userId ≠ u then w.finish t
      else if row.state = .waiting then w.proceed t (.write [(id, .cancelled)] [] none)
      else w.finish t
  | some (.readForCheck free now) =>
    let rows := w.alerts.select fun id row ↦ row.state = .waiting ∧ w.rowLocks id = none
    { w.proceed t (.fire free now rows) with
      rowLocks := fun id ↦ if id ∈ rows.map Prod.fst then some t else w.rowLocks id }
  | some (.write ((id, state) :: writes) written new) =>
    if w.rowLocks id = none ∨ w.rowLocks id = some t then
      { w.proceed t (.write writes (written ++ [(id, state)]) new) with
        rowLocks := Function.update w.rowLocks id (some t) }
    else w
  | some (.write [] written new) => w.commitWrites t written new
  | some (.fire free now rows) =>
    let check := w.checkRows free now rows
    { w.finish t with
      alerts := check.alerts
      events := w.events ++ check.events }

end AlertWorld

/-- What a gateway may call, under the identifier of its transaction. -/
inductive AlertCall where
  | createAlert (publicGpuModels : List Text) (u : UserId) (gpuModel : Text)
      (gpuCount count : Option ℤ) (now : Time) (id : AlertId)
  | listAlerts (u : UserId) (now : Time)
  | cancelAlert (u : UserId) (id : AlertId)
  | checkOnce (free : Table Text (List ℕ)) (now : Time)

/-- What its transaction starts with, if it comes to one. -/
def AlertCall.task : AlertCall → Option AlertTask
  | createAlert publicGpuModels u gpuModel gpuCount count now id =>
    match AlertWorld.newAlert publicGpuModels u gpuModel gpuCount count now with
    | .ok alert => some (.lockCustomer id alert)
    | .error _ => none
  | listAlerts u now => some (.readForList u now)
  | cancelAlert u id => some (.readForCancel u id)
  | checkOnce free now => some (.readForCheck free now)

/-- A call starts its transaction, a transaction goes on, or it is rolled back. -/
inductive AlertStateOp where
  | call (t : TransactionId) (c : AlertCall)
  | step (t : TransactionId)
  | rollback (t : TransactionId)

/-- What it does. -/
def AlertStateOp.exec : AlertStateOp → AlertWorld → AlertWorld
  | call t c, w =>
    match w.transactions t, c.task with
    | none, some task => w.proceed t task
    | _, _ => w
  | step t, w => w.step t
  | rollback t, w => w.finish t

namespace AlertWorld

variable {w w' : AlertWorld} {t t' : TransactionId}

/-! ## What is promised -/

/-- An alert has at most one event, and has one exactly if it is fired; of the alerts of a customer
that wait unexpired there are never too many, and no two ask for the same. -/
structure Truthful (w : AlertWorld) : Prop where
  once : ∀ id, (w.events.filter fun e ↦ e.2.alertId = id).length ≤ 1
  fired : ∀ id row, w.alerts.get? id = some row →
    (row.state = .fired ↔ ∃ e ∈ w.events, e.2.alertId = id)
  few : ∀ u now, (w.alerts.select fun _ row ↦
    row.userId = u ∧ row.state = .waiting ∧ now < row.expiresAt).length ≤ maxWaiting
  distinct : ∀ now id id' row row', w.alerts.get? id = some row → w.alerts.get? id' = some row' →
    row.userId = row'.userId → row.state = .waiting → row'.state = .waiting →
    now < row.expiresAt → now < row'.expiresAt → sameAsk row row' = true → id = id'

/-- A transaction does not commit a new state for an alert that has fired. -/
def Timely : AlertStateOp → AlertWorld → Prop
  | .step t, w =>
    match w.transactions t with
    | some (.write [] written new) =>
      w.taken new = true ∨
        ∀ x ∈ written, ∀ row, w.alerts.get? x.1 = some row → row.state ≠ .fired
    | _ => True
  | _, _ => True

/-! ## What the transactions keep -/

/-- The same alert at a later time: it asks for what it asked, and does not wait again. -/
structure Later (row row' : CapacityAlert) : Prop where
  userId : row'.userId = row.userId
  gpuModel : row'.gpuModel = row.gpuModel
  gpuCount : row'.gpuCount = row.gpuCount
  count : row'.count = row.count
  waiting : row'.state = .waiting → row.state = .waiting

theorem Later.refl (row : CapacityAlert) : Later row row := ⟨rfl, rfl, rfl, rfl, id⟩

theorem Later.sameAsk {row row' : CapacityAlert} (h : Later row row') (alert : CapacityAlert) :
    sameAsk row' alert = AlertWorld.sameAsk row alert := by
  rw [AlertWorld.sameAsk, AlertWorld.sameAsk, h.gpuModel, h.gpuCount, h.count]

theorem sameAsk_comm (row alert : CapacityAlert) : sameAsk row alert = sameAsk alert row := by
  simp only [sameAsk, eq_comm]

/-- There is room for another alert: but for those that the transaction has noted as expired, the
alerts of the customer that wait are few, and ask for something else. -/
def Room (w : AlertWorld) (alert : CapacityAlert) (noted : List AlertId) : Prop :=
  ∃ live : List AlertId, live.length < maxWaiting ∧
    ∀ id row, w.alerts.get? id = some row → row.userId = alert.userId → row.state = .waiting →
      id ∈ noted ∨ id ∈ live ∧ sameAsk row alert = false

/-- What a transaction is about to do goes with what is committed and with the locks it holds. -/
def Fits (w : AlertWorld) (t : TransactionId) : AlertTask → Prop
  | .lockCustomer _ alert => alert.state = .waiting
  | .readForCreate _ alert => alert.state = .waiting ∧ w.customerLocks alert.userId = some t
  | .write writes written new =>
    (∀ x ∈ writes ++ written, x.2 = .expired ∨ x.2 = .cancelled) ∧
      (∀ x ∈ written, w.rowLocks x.1 = some t) ∧
      ∀ id alert, new = some (id, alert) → alert.state = .waiting ∧
        w.customerLocks alert.userId = some t ∧ w.Room alert ((writes ++ written).map Prod.fst)
  | .fire _ _ rows => (rows.map Prod.fst).Nodup ∧ ∀ r ∈ rows,
    w.alerts.get? r.1 = some r.2 ∧ r.2.state = .waiting ∧ w.rowLocks r.1 = some t
  | _ => True

/-- What others may do while a transaction holds its locks. -/
structure Undisturbed (t : TransactionId) (w w' : AlertWorld) : Prop where
  customer : ∀ u, w.customerLocks u = some t → w'.customerLocks u = some t
  row : ∀ id, w.rowLocks id = some t → w'.rowLocks id = some t
  same : ∀ id row, w.rowLocks id = some t → w.alerts.get? id = some row →
    w'.alerts.get? id = some row
  waiting : ∀ u, w.customerLocks u = some t → ∀ id row', w'.alerts.get? id = some row' →
    row'.userId = u → row'.state = .waiting → ∃ row, w.alerts.get? id = some row ∧ Later row row'

theorem fits_of_undisturbed {task : AlertTask} (h : w.Fits t task) (hsame : Undisturbed t w w') :
    w'.Fits t task := by
  cases task with
  | lockCustomer id alert => exact h
  | readForCreate id alert => exact ⟨h.1, hsame.customer _ h.2⟩
  | readForList u now => trivial
  | readForCancel u id => trivial
  | readForCheck free now => trivial
  | write writes written new =>
    obtain ⟨hstates, hlocked, hnew⟩ := h
    refine ⟨hstates, fun x hx ↦ hsame.row _ (hlocked x hx), fun id alert hid ↦ ?_⟩
    obtain ⟨hwaiting, hlock, live, hfew, hlive⟩ := hnew id alert hid
    refine ⟨hwaiting, hsame.customer _ hlock, live, hfew, fun id' row' hrow' hu hwaits ↦ ?_⟩
    obtain ⟨row, hrow, hlater⟩ := hsame.waiting _ hlock id' row' hrow' hu hwaits
    rw [hlater.sameAsk]
    exact hlive id' row hrow (hlater.userId.symm.trans hu) (hlater.waiting hwaits)
  | fire free now rows =>
    refine ⟨h.1, fun r hr ↦ ?_⟩
    obtain ⟨hrow, hwaiting, hlock⟩ := h.2 r hr
    exact ⟨hsame.same _ _ hlock hrow, hwaiting, hsame.row _ hlock⟩

/-- The alerts of a customer that wait, unexpired or not. -/
def waitingIds (w : AlertWorld) (u : UserId) : List AlertId :=
  (w.alerts.select fun _ row ↦ row.userId = u ∧ row.state = .waiting).map Prod.fst

theorem mem_waitingIds {u : UserId} {id : AlertId} : id ∈ w.waitingIds u ↔
    ∃ row, w.alerts.get? id = some row ∧ row.userId = u ∧ row.state = .waiting := by
  rw [waitingIds, List.mem_map]
  constructor
  · rintro ⟨⟨id', row⟩, hmem, rfl⟩
    obtain ⟨hrow, hwaits⟩ := Table.mem_select.mp hmem
    exact ⟨row, hrow, of_decide_eq_true hwaits⟩
  · rintro ⟨row, hrow, hwaits⟩
    exact ⟨(id, row), Table.mem_select.mpr ⟨hrow, decide_eq_true hwaits⟩, rfl⟩

theorem nodup_waitingIds (u : UserId) : (w.waitingIds u).Nodup := Table.nodup_select _ _

/-- The invariant of the interleavings. -/
structure Sound (w : AlertWorld) : Prop where
  tasks : ∀ t task, w.transactions t = some task → w.Fits t task
  told : ∀ e ∈ w.events, ∃ row, w.alerts.get? e.2.alertId = some row ∧ row.state ≠ .waiting
  once : (w.events.map fun e ↦ e.2.alertId).Nodup
  fired : ∀ id row, w.alerts.get? id = some row → row.state = .fired →
    ∃ e ∈ w.events, e.2.alertId = id
  few : ∀ u, (w.waitingIds u).length ≤ maxWaiting
  distinct : ∀ id id' row row', w.alerts.get? id = some row → w.alerts.get? id' = some row' →
    row.userId = row'.userId → row.state = .waiting → row'.state = .waiting →
    sameAsk row row' = true → id = id'

theorem sound_empty : empty.Sound where
  tasks _ _ h := nomatch h
  told _ h := nomatch h
  once := List.nodup_nil
  fired _ _ h := nomatch h
  few _ := Nat.zero_le _
  distinct _ _ _ _ h := nomatch h

/-- A sound state is truthful where every alert that has its event is fired. -/
theorem Sound.truthful_iff (h : w.Sound) : w.Truthful ↔
    ∀ e ∈ w.events, ∃ row, w.alerts.get? e.2.alertId = some row ∧ row.state = .fired := by
  constructor
  · intro htruthful e he
    obtain ⟨row, hrow, -⟩ := h.told e he
    exact ⟨row, hrow, (htruthful.fired _ row hrow).mpr ⟨e, he, rfl⟩⟩
  · intro hevents
    refine ⟨fun id ↦ ?_, fun id row hrow ↦ ⟨h.fired id row hrow, ?_⟩, fun u now ↦ ?_,
      fun now id id' row row' hrow hrow' hu hwaits hwaits' _ _ hsame ↦
        h.distinct id id' row row' hrow hrow' hu hwaits hwaits' hsame⟩
    · have hcount := List.nodup_iff_count_le_one.mp h.once id
      rwa [List.count_eq_countP, List.countP_map, List.countP_eq_length_filter] at hcount
    · rintro ⟨e, he, rfl⟩
      obtain ⟨row', hrow', hfired⟩ := hevents e he
      exact Option.some.inj (hrow.symm.trans hrow') ▸ hfired
    · refine le_trans ?_ (h.few u)
      rw [waitingIds, List.length_map]
      refine (List.monotone_filter_right _ fun r hr ↦ ?_).length_le
      simp only [decide_eq_true_eq] at hr ⊢
      exact ⟨hr.1, hr.2.1⟩

/-! ## Steps that commit nothing -/

theorem undisturbed_of_alerts (halerts : w'.alerts = w.alerts)
    (hcustomer : ∀ u, w.customerLocks u = some t → w'.customerLocks u = some t)
    (hrow : ∀ id, w.rowLocks id = some t → w'.rowLocks id = some t) : Undisturbed t w w' where
  customer := hcustomer
  row := hrow
  same _ _ _ h := halerts ▸ h
  waiting _ _ _ row' hrow' _ _ := ⟨row', halerts ▸ hrow', .refl row'⟩

theorem undisturbed_finish (hne : t' ≠ t) : Undisturbed t' w (w.finish t) := by
  refine undisturbed_of_alerts rfl (fun u hu ↦ ?_) fun id hid ↦ ?_
  · change (if w.customerLocks u = some t then none else w.customerLocks u) = some t'
    rw [hu, if_neg fun h ↦ hne (Option.some.inj h)]
  · change (if w.rowLocks id = some t then none else w.rowLocks id) = some t'
    rw [hid, if_neg fun h ↦ hne (Option.some.inj h)]

/-- A step of one transaction that commits nothing and leaves the others their locks. -/
theorem Sound.turn (h : w.Sound) (halerts : w'.alerts = w.alerts) (hevents : w'.events = w.events)
    (hothers : ∀ t', t' ≠ t → w'.transactions t' = w.transactions t' ∧ Undisturbed t' w w')
    (hown : ∀ task, w'.transactions t = some task → w'.Fits t task) : w'.Sound := by
  have hids (u : UserId) : w'.waitingIds u = w.waitingIds u := by
    rw [waitingIds, waitingIds, halerts]
  refine ⟨fun t' task htask ↦ ?_, ?_, ?_, ?_, fun u ↦ (hids u).symm ▸ h.few u, ?_⟩
  · by_cases hne : t' = t
    · subst hne
      exact hown task htask
    · obtain ⟨hsame, hundisturbed⟩ := hothers t' hne
      exact fits_of_undisturbed (h.tasks t' task (hsame.symm.trans htask)) hundisturbed
  · rw [halerts, hevents]
    exact h.told
  · rw [hevents]
    exact h.once
  · rw [halerts, hevents]
    exact h.fired
  · rw [halerts]
    exact h.distinct

theorem transactions_proceed (w : AlertWorld) (task : AlertTask) (hne : t' ≠ t) :
    (w.proceed t task).transactions t' = w.transactions t' := Function.update_of_ne hne _ _

theorem transactions_proceed_self (w : AlertWorld) (task : AlertTask) :
    (w.proceed t task).transactions t = some task := Function.update_self _ _ _

/-- A transaction goes on with a task that goes with what it has read. -/
theorem Sound.proceed (h : w.Sound) {task : AlertTask} (hfits : w.Fits t task) :
    (w.proceed t task).Sound := by
  refine h.turn rfl rfl (fun t' hne ↦ ⟨transactions_proceed w task hne, ?_⟩) fun task' htask' ↦ ?_
  · exact undisturbed_of_alerts rfl (fun _ h ↦ h) fun _ h ↦ h
  · obtain rfl := Option.some.inj ((transactions_proceed_self w task).symm.trans htask')
    exact fits_of_undisturbed hfits (undisturbed_of_alerts rfl (fun _ h ↦ h) fun _ h ↦ h)

theorem Sound.finish (h : w.Sound) (t : TransactionId) : (w.finish t).Sound := by
  refine h.turn (t := t) rfl rfl (fun t' hne ↦ ⟨Function.update_of_ne hne _ _, ?_⟩)
    fun task htask ↦ ?_
  · exact undisturbed_finish hne
  · have hnone : (w.finish t).transactions t = none := Function.update_self _ _ _
    rw [hnone] at htask
    cases htask

/-- What `create_alert` reads leaves room for another, where it goes on to make one. -/
theorem room_of_read {alert : CapacityAlert}
    (hother : ((waitingOf alert.userId alert.createdAt w.alerts).2.any (sameAsk ·.2 alert)) = false)
    (hfew : (waitingOf alert.userId alert.createdAt w.alerts).2.length < maxWaiting) :
    w.Room alert ((w.expiries alert.userId alert.createdAt ++ []).map Prod.fst) := by
  refine ⟨(waitingOf alert.userId alert.createdAt w.alerts).2.map Prod.fst, ?_,
    fun id row hrow hu hwaits ↦ ?_⟩
  · rwa [List.length_map]
  · by_cases hexpired : row.expiresAt ≤ alert.createdAt
    · refine .inl (List.mem_map.mpr ⟨(id, .expired), ?_, rfl⟩)
      rw [List.append_nil]
      exact List.mem_map.mpr ⟨(id, row), Table.mem_select.mpr ⟨hrow, decide_eq_true
        ⟨hu, decide_eq_true ⟨hwaits, hexpired⟩⟩⟩, rfl⟩
    · have hlive : (id, row) ∈ (waitingOf alert.userId alert.createdAt w.alerts).2 := by
        have hwaits' : row.userId = alert.userId ∧ row.state = .waiting ∧
            alert.createdAt < row.expiresAt := ⟨hu, hwaits, not_le.mp hexpired⟩
        rw [waitingOf]
        dsimp only
        rw [Table.mem_select]
        exact ⟨hrow, decide_eq_true hwaits'⟩
      refine .inr ⟨List.mem_map_of_mem hlive, ?_⟩
      exact Bool.eq_false_iff.mpr (List.any_eq_false.mp hother _ hlive)

/-! ## Commits -/

/-- What a commit makes of the table: alerts are later than they were, those that the transaction
has not locked are the same, and a new one that waits is of the customer whose row it has locked. -/
structure Moves (w : AlertWorld) (t : TransactionId) (alerts : Table AlertId CapacityAlert) :
    Prop where
  later : ∀ id row, w.alerts.get? id = some row →
    ∃ row', alerts.get? id = some row' ∧ Later row row'
  others : ∀ id row, w.alerts.get? id = some row → w.rowLocks id ≠ some t →
    alerts.get? id = some row
  added : ∀ id row', alerts.get? id = some row' → w.alerts.get? id = none →
    row'.state = .waiting ∧ w.customerLocks row'.userId = some t

theorem Moves.undisturbed {alerts : Table AlertId CapacityAlert} (h : w.Moves t alerts)
    (hne : t' ≠ t) (events : List (UserId × CapacityNotice)) :
    Undisturbed t' w { w.finish t with alerts := alerts, events := events } where
  customer := (undisturbed_finish hne).customer
  row := (undisturbed_finish hne).row
  same id row hlock hrow := h.others id row hrow
    fun hlock' ↦ hne (Option.some.inj (hlock.symm.trans hlock'))
  waiting u hlock id row' hrow' hu _ := by
    cases hrow : w.alerts.get? id with
    | none =>
      have hlock' := (h.added id row' hrow' hrow).2
      rw [hu, hlock] at hlock'
      exact absurd (Option.some.inj hlock') hne
    | some row =>
      obtain ⟨row'', hrow'', hlater⟩ := h.later id row hrow
      obtain rfl := Option.some.inj (hrow'.symm.trans hrow'')
      exact ⟨row, rfl, hlater⟩

/-- A transaction commits: what is left to show is about the alerts and their events. -/
theorem Sound.commit (h : w.Sound) {alerts : Table AlertId CapacityAlert}
    (hmoves : w.Moves t alerts) {events : List (UserId × CapacityNotice)}
    (htold : ∀ e ∈ events, ∃ row, alerts.get? e.2.alertId = some row ∧ row.state ≠ .waiting)
    (honce : (events.map fun e ↦ e.2.alertId).Nodup)
    (hfired : ∀ id row, alerts.get? id = some row → row.state = .fired →
      ∃ e ∈ events, e.2.alertId = id)
    (hfew : ∀ u, ({ w.finish t with alerts := alerts, events := events }.waitingIds u).length ≤
      maxWaiting)
    (hdistinct : ∀ id id' row row', alerts.get? id = some row → alerts.get? id' = some row' →
      row.userId = row'.userId → row.state = .waiting → row'.state = .waiting →
      sameAsk row row' = true → id = id') :
    { w.finish t with alerts := alerts, events := events }.Sound := by
  refine ⟨fun t' task htask ↦ ?_, htold, honce, hfired, hfew, hdistinct⟩
  by_cases hne : t' = t
  · have hnone : (w.finish t).transactions t' = none := hne ▸ Function.update_self _ _ _
    exact nomatch hnone.symm.trans htask
  · have hsame : (w.finish t).transactions t' = w.transactions t' := Function.update_of_ne hne _ _
    exact fits_of_undisturbed (h.tasks t' task (hsame.symm.trans htask))
      (hmoves.undisturbed hne events)

/-- Where no alert is added, no more wait than before. -/
theorem Sound.commit_of_no_new (h : w.Sound) {alerts : Table AlertId CapacityAlert}
    (hmoves : w.Moves t alerts)
    (hold : ∀ id row', alerts.get? id = some row' → ∃ row, w.alerts.get? id = some row)
    {events : List (UserId × CapacityNotice)}
    (htold : ∀ e ∈ events, ∃ row, alerts.get? e.2.alertId = some row ∧ row.state ≠ .waiting)
    (honce : (events.map fun e ↦ e.2.alertId).Nodup)
    (hfired : ∀ id row, alerts.get? id = some row → row.state = .fired →
      ∃ e ∈ events, e.2.alertId = id) :
    { w.finish t with alerts := alerts, events := events }.Sound := by
  have hback (id : AlertId) (row' : CapacityAlert) (hrow' : alerts.get? id = some row') :
      ∃ row, w.alerts.get? id = some row ∧ Later row row' := by
    obtain ⟨row, hrow⟩ := hold id row' hrow'
    obtain ⟨row'', hrow'', hlater⟩ := hmoves.later id row hrow
    obtain rfl := Option.some.inj (hrow'.symm.trans hrow'')
    exact ⟨row, hrow, hlater⟩
  refine h.commit hmoves htold honce hfired (fun u ↦ ?_)
    fun id id' row₁ row₂ hrow₁ hrow₂ hu hwaits₁ hwaits₂ hsame ↦ ?_
  · refine le_trans (List.Subperm.length_le ?_) (h.few u)
    refine (nodup_waitingIds u).subperm fun id hid ↦ ?_
    obtain ⟨row', hrow', hu, hwaits⟩ := mem_waitingIds.mp hid
    obtain ⟨row, hrow, hlater⟩ := hback id row' hrow'
    exact mem_waitingIds.mpr ⟨row, hrow, hlater.userId.symm.trans hu, hlater.waiting hwaits⟩
  · obtain ⟨row, hrow, hlater⟩ := hback id row₁ hrow₁
    obtain ⟨row', hrow', hlater'⟩ := hback id' row₂ hrow₂
    refine h.distinct id id' row row' hrow hrow' ?_ (hlater.waiting hwaits₁)
      (hlater'.waiting hwaits₂) ?_
    · rw [← hlater.userId, hu, hlater'.userId]
    · rw [← hlater.sameAsk, sameAsk_comm, ← hlater'.sameAsk, sameAsk_comm]
      exact hsame

/-- What a row is after some writes: the same, or in a state that was written. -/
theorem get?_written (ws : List (AlertId × AlertState)) {id : AlertId} {row : CapacityAlert}
    (hrow : w.alerts.get? id = some row) :
    id ∉ ws.map Prod.fst ∧ (written w.alerts ws).get? id = some row ∨
      ∃ state, (id, state) ∈ ws ∧
        (written w.alerts ws).get? id = some { row with state := state } := by
  have hget : (written w.alerts ws).get? id = (w.alerts.get? id).map fun row ↦
      match ws.lookup id with
      | some state => { row with state := state }
      | none => row := Table.get?_map _ _ _
  rw [hget, hrow, Option.map_some]
  cases hlook : ws.lookup id with
  | none =>
    refine .inl ⟨fun hmem ↦ ?_, rfl⟩
    obtain ⟨x, hx, rfl⟩ := List.mem_map.mp hmem
    exact absurd (List.lookup_eq_none_iff.mp hlook x hx) (by simp)
  | some state =>
    refine .inr ⟨state, ?_, rfl⟩
    obtain ⟨l₁, l₂, rfl, -⟩ := List.lookup_eq_some_iff.mp hlook
    exact List.mem_append_right _ List.mem_cons_self

theorem get?_written_none (ws : List (AlertId × AlertState)) {id : AlertId}
    (hrow : w.alerts.get? id = none) : (written w.alerts ws).get? id = none := by
  have hget : (written w.alerts ws).get? id = (w.alerts.get? id).map _ := Table.get?_map _ _ _
  rw [hget, hrow, Option.map_none]

/-- The states that are written. -/
def Ends (ws : List (AlertId × AlertState)) : Prop := ∀ x ∈ ws, x.2 = .expired ∨ x.2 = .cancelled

theorem moves_written {ws : List (AlertId × AlertState)} (hends : Ends ws)
    (hlocked : ∀ x ∈ ws, w.rowLocks x.1 = some t) : w.Moves t (written w.alerts ws) where
  later id row hrow := by
    rcases get?_written ws hrow with ⟨-, hsame⟩ | ⟨state, hmem, hwritten⟩
    · exact ⟨row, hsame, .refl row⟩
    · refine ⟨_, hwritten, rfl, rfl, rfl, rfl, fun hwaits ↦ ?_⟩
      change state = .waiting at hwaits
      rcases hends _ hmem with hstate | hstate <;> cases hwaits.symm.trans hstate
  others id row hrow hlock := by
    rcases get?_written ws hrow with ⟨-, hsame⟩ | ⟨state, hmem, -⟩
    · exact hsame
    · exact absurd (hlocked _ hmem) hlock
  added id row' hrow' hnone := nomatch hrow'.symm.trans (get?_written_none ws hnone)

/-- An alert that waits after some writes waited before, and was not written. -/
theorem waiting_of_written {ws : List (AlertId × AlertState)} (hends : Ends ws) {id : AlertId}
    {row' : CapacityAlert} (hrow' : (written w.alerts ws).get? id = some row')
    (hwaits : row'.state = .waiting) :
    w.alerts.get? id = some row' ∧ id ∉ ws.map Prod.fst := by
  cases hrow : w.alerts.get? id with
  | none => exact nomatch hrow'.symm.trans (get?_written_none ws hrow)
  | some row =>
    rcases get?_written ws hrow with ⟨hnot, hsame⟩ | ⟨state, hmem, hwritten⟩
    · exact ⟨hsame.symm.trans hrow', hnot⟩
    · obtain rfl := Option.some.inj (hrow'.symm.trans hwritten)
      change state = .waiting at hwaits
      rcases hends _ hmem with hstate | hstate <;> cases hwaits.symm.trans hstate

/-- An alert that is fired after some writes was fired before. -/
theorem fired_of_written {ws : List (AlertId × AlertState)} (hends : Ends ws) {id : AlertId}
    {row' : CapacityAlert} (hrow' : (written w.alerts ws).get? id = some row')
    (hfired : row'.state = .fired) : w.alerts.get? id = some row' := by
  cases hrow : w.alerts.get? id with
  | none => exact nomatch hrow'.symm.trans (get?_written_none ws hrow)
  | some row =>
    rcases get?_written ws hrow with ⟨-, hsame⟩ | ⟨state, hmem, hwritten⟩
    · exact hsame.symm.trans hrow'
    · obtain rfl := Option.some.inj (hrow'.symm.trans hwritten)
      change state = .fired at hfired
      rcases hends _ hmem with hstate | hstate <;> cases hfired.symm.trans hstate

/-- Events stay those of alerts that do not wait. -/
theorem Sound.told_of_moves (h : w.Sound) {alerts : Table AlertId CapacityAlert}
    (hmoves : w.Moves t alerts) :
    ∀ e ∈ w.events, ∃ row, alerts.get? e.2.alertId = some row ∧ row.state ≠ .waiting := by
  intro e he
  obtain ⟨row, hrow, hstate⟩ := h.told e he
  obtain ⟨row', hrow', hlater⟩ := hmoves.later _ row hrow
  exact ⟨row', hrow', fun hwaits ↦ hstate (hlater.waiting hwaits)⟩

theorem Sound.commit_written (h : w.Sound) {ws : List (AlertId × AlertState)} (hends : Ends ws)
    (hlocked : ∀ x ∈ ws, w.rowLocks x.1 = some t) :
    { w.finish t with alerts := written w.alerts ws }.Sound := by
  have hmoves := moves_written hends hlocked
  refine h.commit_of_no_new hmoves (fun id row' hrow' ↦ ?_) (h.told_of_moves hmoves) h.once
    fun id row' hrow' hfired ↦ h.fired id row' (fired_of_written hends hrow' hfired) hfired
  cases hrow : w.alerts.get? id with
  | none => exact nomatch hrow'.symm.trans (get?_written_none ws hrow)
  | some row => exact ⟨row, rfl⟩

/-- A new alert is committed with some writes: those of its customer that wait were read, ask for
something else, and are few. -/
theorem Sound.commit_new (h : w.Sound) {ws : List (AlertId × AlertState)} (hends : Ends ws)
    (hlocked : ∀ x ∈ ws, w.rowLocks x.1 = some t) {id : AlertId} {alert : CapacityAlert}
    (hfresh : w.alerts.get? id = none) (hwaiting : alert.state = .waiting)
    (hlock : w.customerLocks alert.userId = some t) (hroom : w.Room alert (ws.map Prod.fst)) :
    { w.finish t with alerts := (written w.alerts ws).insert id alert }.Sound := by
  have hwritten := moves_written hends hlocked
  have hnew : ((written w.alerts ws).insert id alert).get? id = some alert :=
    Table.get?_insert_self _ _ _
  have hold {id' : AlertId} (hid : id' ≠ id) :
      ((written w.alerts ws).insert id alert).get? id' = (written w.alerts ws).get? id' :=
    Table.get?_insert_ne _ hid _
  have hne {id' : AlertId} {row : CapacityAlert} (hrow : w.alerts.get? id' = some row) :
      id' ≠ id := by
    rintro rfl
    exact nomatch hrow.symm.trans hfresh
  have hmoves : w.Moves t ((written w.alerts ws).insert id alert) := by
    refine ⟨fun id' row hrow ↦ ?_, fun id' row hrow hlock' ↦ ?_, fun id' row' hrow' hnone ↦ ?_⟩
    · rw [hold (hne hrow)]
      exact hwritten.later id' row hrow
    · rw [hold (hne hrow)]
      exact hwritten.others id' row hrow hlock'
    · by_cases hid : id' = id
      · subst hid
        obtain rfl := Option.some.inj (hnew.symm.trans hrow')
        exact ⟨hwaiting, hlock⟩
      · rw [hold hid] at hrow'
        exact hwritten.added id' row' hrow' hnone
  obtain ⟨live, hfew, hlive⟩ := hroom
  -- Of the customer's alerts that still wait, all were read as live and ask for something else.
  have hread {id' : AlertId} {row : CapacityAlert} (hid : id' ≠ id)
      (hrow : ((written w.alerts ws).insert id alert).get? id' = some row)
      (hwaits : row.state = .waiting) :
      w.alerts.get? id' = some row ∧
        (row.userId = alert.userId → id' ∈ live ∧ sameAsk row alert = false) := by
    rw [hold hid] at hrow
    obtain ⟨hbefore, hnot⟩ := waiting_of_written hends hrow hwaits
    exact ⟨hbefore, fun hu ↦ (hlive id' row hbefore hu hwaits).resolve_left hnot⟩
  refine h.commit hmoves (h.told_of_moves hmoves) h.once (fun id' row' hrow' hfired ↦ ?_)
    (fun u ↦ ?_) fun id₁ id₂ row₁ row₂ hrow₁ hrow₂ hu hwaits₁ hwaits₂ hsame ↦ ?_
  · by_cases hid : id' = id
    · subst hid
      obtain rfl := Option.some.inj (hnew.symm.trans hrow')
      exact nomatch hwaiting.symm.trans hfired
    · rw [hold hid] at hrow'
      exact h.fired id' row' (fired_of_written hends hrow' hfired) hfired
  · by_cases hu : u = alert.userId
    · subst hu
      refine le_trans (List.Subperm.length_le ((nodup_waitingIds _).subperm fun id' hid' ↦ ?_))
        (show (id :: live).length ≤ maxWaiting from hfew)
      obtain ⟨row', hrow', hu', hwaits⟩ := mem_waitingIds.mp hid'
      by_cases hid : id' = id
      · exact hid ▸ List.mem_cons_self
      · exact List.mem_cons_of_mem _ ((hread hid hrow' hwaits).2 hu').1
    · refine le_trans (List.Subperm.length_le ((nodup_waitingIds _).subperm fun id' hid' ↦ ?_))
        (h.few u)
      obtain ⟨row', hrow', hu', hwaits⟩ := mem_waitingIds.mp hid'
      have hid : id' ≠ id := by
        rintro rfl
        obtain rfl := Option.some.inj (hnew.symm.trans hrow')
        exact hu hu'.symm
      exact mem_waitingIds.mpr ⟨row', (hread hid hrow' hwaits).1, hu', hwaits⟩
  · by_cases hid₁ : id₁ = id
    · by_cases hid₂ : id₂ = id
      · rw [hid₁, hid₂]
      · subst hid₁
        obtain rfl := Option.some.inj (hnew.symm.trans hrow₁)
        have hother := ((hread hid₂ hrow₂ hwaits₂).2 hu.symm).2
        rw [sameAsk_comm, hsame] at hother
        cases hother
    · by_cases hid₂ : id₂ = id
      · subst hid₂
        obtain rfl := Option.some.inj (hnew.symm.trans hrow₂)
        have hother := ((hread hid₁ hrow₁ hwaits₁).2 hu).2
        rw [hsame] at hother
        cases hother
      · exact h.distinct id₁ id₂ row₁ row₂ (hread hid₁ hrow₁ hwaits₁).1 (hread hid₂ hrow₂ hwaits₂).1
          hu hwaits₁ hwaits₂ hsame

/-! ## Checks -/

/-- What a check has made of the rows it went over: others are as they were, its own are later, and
those that are fired are the ones with an event. -/
structure Checked (before after : AlertCheck) (rows : List (AlertId × CapacityAlert))
    (fired : List AlertId) : Prop where
  others : ∀ id, id ∉ rows.map Prod.fst → after.alerts.get? id = before.alerts.get? id
  each : ∀ r ∈ rows, ∃ row', after.alerts.get? r.1 = some row' ∧ Later r.2 row' ∧
    (row'.state = .fired ↔ r.1 ∈ fired)
  nodup : fired.Nodup
  subset : fired ⊆ rows.map Prod.fst
  events : after.events.map (fun e ↦ e.2.alertId) =
    before.events.map (fun e ↦ e.2.alertId) ++ fired

variable {free : Table Text (List ℕ)} {now : Time}

/-- One alert of a check. -/
theorem checked_checkAlert (check : AlertCheck) {r : AlertId × CapacityAlert}
    (hrow : check.alerts.get? r.1 = some r.2) (hwaits : r.2.state = .waiting) :
    ∃ fired, Checked check (checkAlert free now check r) [r] fired := by
  obtain ⟨id, alert⟩ := r
  dsimp only at hrow hwaits
  rw [checkAlert]
  dsimp only
  have hother (row : CapacityAlert) (id' : AlertId) (hid : id' ∉ [(id, alert)].map Prod.fst) :
      (check.alerts.insert id row).get? id' = check.alerts.get? id' :=
    Table.get?_insert_ne _ (by simpa using hid) _
  split
  · refine ⟨[], hother _, fun r hr ↦ ?_, List.nodup_nil, List.nil_subset _,
      (List.append_nil _).symm⟩
    obtain rfl := List.mem_singleton.mp hr
    refine ⟨_, Table.get?_insert_self _ _ _, ⟨rfl, rfl, rfl, rfl, fun _ ↦ hwaits⟩, ?_⟩
    exact iff_of_false (by rintro ⟨⟩) List.not_mem_nil
  · split
    · refine ⟨[id], hother _, fun r hr ↦ ?_, List.nodup_singleton _, List.Subset.refl _, ?_⟩
      · obtain rfl := List.mem_singleton.mp hr
        refine ⟨_, Table.get?_insert_self _ _ _, ⟨rfl, rfl, rfl, rfl, fun _ ↦ hwaits⟩, ?_⟩
        exact iff_of_true rfl List.mem_cons_self
      · rw [List.map_append]
        rfl
    · refine ⟨[], fun _ _ ↦ rfl, fun r hr ↦ ?_, List.nodup_nil, List.nil_subset _,
        (List.append_nil _).symm⟩
      obtain rfl := List.mem_singleton.mp hr
      refine ⟨alert, hrow, .refl alert, ?_⟩
      exact iff_of_false (fun hfired ↦ by cases hwaits.symm.trans hfired) List.not_mem_nil

theorem checked_foldl (check : AlertCheck) {rows : List (AlertId × CapacityAlert)}
    (hnodup : (rows.map Prod.fst).Nodup)
    (hrows : ∀ r ∈ rows, check.alerts.get? r.1 = some r.2 ∧ r.2.state = .waiting) :
    ∃ fired, Checked check (rows.foldl (checkAlert free now) check) rows fired := by
  induction rows generalizing check with
  | nil =>
    exact ⟨[], fun _ _ ↦ rfl, fun r hr ↦ (nomatch hr), List.nodup_nil, List.Subset.refl _,
      (List.append_nil _).symm⟩
  | cons r rows ih =>
    rw [List.map_cons, List.nodup_cons] at hnodup
    obtain ⟨hrow, hwaits⟩ := hrows r List.mem_cons_self
    obtain ⟨first, hfirst⟩ : ∃ first, Checked check (checkAlert free now check r) [r] first :=
      checked_checkAlert check hrow hwaits
    have hnext : ∀ r' ∈ rows,
        (checkAlert free now check r).alerts.get? r'.1 = some r'.2 ∧ r'.2.state = .waiting := by
      intro r' hr'
      have hid : r'.1 ∉ [r].map Prod.fst := fun hmem ↦
        hnodup.1 (List.mem_singleton.mp hmem ▸ List.mem_map_of_mem hr')
      rw [hfirst.others _ hid]
      exact hrows r' (List.mem_cons_of_mem _ hr')
    obtain ⟨fired, hrest⟩ := ih _ hnodup.2 hnext
    rw [List.foldl_cons]
    have hnot : r.1 ∉ fired := fun hmem ↦ hnodup.1 (hrest.subset hmem)
    have hfirstly {id : AlertId} (hid : id ∈ first) : id = r.1 :=
      List.mem_singleton.mp (hfirst.subset hid)
    refine ⟨first ++ fired, fun id hid ↦ ?_, fun r' hr' ↦ ?_, ?_, ?_, ?_⟩
    · rw [List.map_cons, List.mem_cons, not_or] at hid
      rw [hrest.others id hid.2, hfirst.others id (by simpa using hid.1)]
    · rcases List.mem_cons.mp hr' with rfl | hlater
      · obtain ⟨row', hrow', hlater, hfired⟩ := hfirst.each r' List.mem_cons_self
        refine ⟨row', (hrest.others _ hnodup.1).trans hrow', hlater, hfired.trans ?_⟩
        rw [List.mem_append, or_iff_left hnot]
      · obtain ⟨row', hrow', hlater', hfired⟩ := hrest.each r' hlater
        refine ⟨row', hrow', hlater', hfired.trans ?_⟩
        have hnot' : r'.1 ∉ first := fun hmem ↦
          hnodup.1 (hfirstly hmem ▸ List.mem_map_of_mem hlater)
        rw [List.mem_append, or_iff_right hnot']
    · refine List.nodup_append.mpr ⟨hfirst.nodup, hrest.nodup, fun id hid id' hid' heq ↦ ?_⟩
      exact hnot (hfirstly hid ▸ heq ▸ hid')
    · refine List.append_subset.mpr ⟨fun id hid ↦ ?_, fun id hid ↦ ?_⟩
      · rw [hfirstly hid]
        exact List.mem_cons_self
      · exact List.mem_cons_of_mem _ (hrest.subset hid)
    · rw [hrest.events, hfirst.events, List.append_assoc]

theorem checked_checkRows (free : Table Text (List ℕ)) (now : Time)
    {rows : List (AlertId × CapacityAlert)} (hnodup : (rows.map Prod.fst).Nodup)
    (hrows : ∀ r ∈ rows, w.alerts.get? r.1 = some r.2 ∧ r.2.state = .waiting) :
    ∃ fired, Checked ⟨w.alerts, [], [], .empty⟩ (w.checkRows free now rows) rows fired := by
  have hperm := List.perm_insertionSort (fun a b : AlertId × CapacityAlert ↦
    a.2.userId < b.2.userId ∨ a.2.userId = b.2.userId ∧ a.2.createdAt ≤ b.2.createdAt) rows
  have hids := hperm.map Prod.fst
  obtain ⟨fired, hchecked⟩ : ∃ fired,
      Checked ⟨w.alerts, [], [], .empty⟩ (w.checkRows free now rows) _ fired :=
    checked_foldl ⟨w.alerts, [], [], .empty⟩ (hids.nodup_iff.mpr hnodup)
      fun r hr ↦ hrows r (hperm.mem_iff.mp hr)
  refine ⟨fired, fun id hid ↦ hchecked.others id fun hmem ↦ hid (hids.mem_iff.mp hmem),
    fun r hr ↦ hchecked.each r (hperm.mem_iff.mpr hr), hchecked.nodup,
    fun id hid ↦ hids.mem_iff.mp (hchecked.subset hid), hchecked.events⟩

/-- What becomes of an alert in a check: it was read, waited and is later, or it is as it was. -/
inductive AfterCheck (w : AlertWorld) (t : TransactionId) (alerts : Table AlertId CapacityAlert)
    (fired : List AlertId) (id : AlertId) : Prop
  | read (row row' : CapacityAlert) (before : w.alerts.get? id = some row)
      (waited : row.state = .waiting) (locked : w.rowLocks id = some t)
      (after : alerts.get? id = some row') (later : Later row row')
      (fires : row'.state = .fired ↔ id ∈ fired)
  | same (not_fired : id ∉ fired) (after : alerts.get? id = w.alerts.get? id)

theorem exists_afterCheck {rows : List (AlertId × CapacityAlert)}
    (hfits : w.Fits t (.fire free now rows)) :
    ∃ fired : List AlertId, fired.Nodup ∧
      (w.checkRows free now rows).events.map (fun e ↦ e.2.alertId) = fired ∧
      ∀ id, AfterCheck w t (w.checkRows free now rows).alerts fired id := by
  obtain ⟨fired, hchecked⟩ := checked_checkRows free now hfits.1
    fun r hr ↦ ⟨(hfits.2 r hr).1, (hfits.2 r hr).2.1⟩
  refine ⟨fired, hchecked.nodup, hchecked.events, fun id ↦ ?_⟩
  by_cases hid : id ∈ rows.map Prod.fst
  · obtain ⟨r, hr, rfl⟩ := List.mem_map.mp hid
    obtain ⟨hrow, hwaits, hlock⟩ := hfits.2 r hr
    obtain ⟨row', hrow', hlater, hfired⟩ := hchecked.each r hr
    exact .read r.2 row' hrow hwaits hlock hrow' hlater hfired
  · exact .same (fun hmem ↦ hid (hchecked.subset hmem)) (hchecked.others id hid)

/-- A check commits the rows it has locked. -/
theorem Sound.commit_checkRows (h : w.Sound) {rows : List (AlertId × CapacityAlert)}
    (hfits : w.Fits t (.fire free now rows)) :
    { w.finish t with
      alerts := (w.checkRows free now rows).alerts
      events := w.events ++ (w.checkRows free now rows).events }.Sound := by
  obtain ⟨fired, hnodup, hevents, hcases⟩ := exists_afterCheck hfits
  have hmoves : w.Moves t (w.checkRows free now rows).alerts := by
    refine ⟨fun id row hrow ↦ ?_, fun id row hrow hlock ↦ ?_, fun id row' hrow' hnone ↦ ?_⟩
    · cases hcases id with
      | read row₀ row' before waited locked after later fires =>
        obtain rfl := Option.some.inj (hrow.symm.trans before)
        exact ⟨row', after, later⟩
      | same not_fired after => exact ⟨row, after.trans hrow, .refl row⟩
    · cases hcases id with
      | read row₀ row' before waited locked after later fires => exact absurd locked hlock
      | same not_fired after => exact after.trans hrow
    · cases hcases id with
      | read row₀ row' before waited locked after later fires =>
        exact nomatch before.symm.trans hnone
      | same not_fired after => exact nomatch (after.symm.trans hrow').symm.trans hnone
  refine h.commit_of_no_new hmoves (fun id row' hrow' ↦ ?_) (fun e he ↦ ?_) ?_
    fun id row' hrow' hfired ↦ ?_
  · cases hcases id with
    | read row row₀ before waited locked after later fires => exact ⟨row, before⟩
    | same not_fired after => exact ⟨row', after.symm.trans hrow'⟩
  · rcases List.mem_append.mp he with he | he
    · exact h.told_of_moves hmoves e he
    · have hid : e.2.alertId ∈ fired := hevents ▸ List.mem_map_of_mem he
      cases hcases e.2.alertId with
      | read row row' before waited locked after later fires =>
        exact ⟨row', after, fun hwaits ↦ nomatch hwaits.symm.trans (fires.mpr hid)⟩
      | same not_fired after => exact absurd hid not_fired
  · rw [List.map_append, hevents]
    refine List.nodup_append.mpr ⟨h.once, hnodup, fun id hid id' hid' heq ↦ ?_⟩
    subst heq
    obtain ⟨e, he, rfl⟩ := List.mem_map.mp hid
    obtain ⟨row₀, hrow₀, hnot⟩ := h.told e he
    cases hcases e.2.alertId with
    | read row row' before waited locked after later fires =>
      exact hnot (Option.some.inj (before.symm.trans hrow₀) ▸ waited)
    | same not_fired after => exact not_fired hid'
  · cases hcases id with
    | read row row₀ before waited locked after later fires =>
      obtain rfl := Option.some.inj (hrow'.symm.trans after)
      obtain ⟨e, he, hid⟩ := List.mem_map.mp (hevents.symm ▸ fires.mp hfired)
      exact ⟨e, List.mem_append_right _ he, hid⟩
    | same not_fired after =>
      obtain ⟨e, he, hid⟩ := h.fired id row' (after.symm.trans hrow') hfired
      exact ⟨e, List.mem_append_left _ he, hid⟩

/-! ## Any step -/

theorem Sound.commitWrites (h : w.Sound) {ws : List (AlertId × AlertState)}
    {new : Option (AlertId × CapacityAlert)} (hfits : w.Fits t (.write [] ws new)) :
    (w.commitWrites t ws new).Sound := by
  obtain ⟨hends, hlocked, hnew⟩ := hfits
  rw [List.nil_append] at hends
  rw [AlertWorld.commitWrites.eq_def]
  by_cases htaken : w.taken new = true
  · rw [if_pos htaken]
    exact h.finish t
  · rw [if_neg htaken]
    cases new with
    | none => exact h.commit_written hends hlocked
    | some n =>
      obtain ⟨id, alert⟩ := n
      obtain ⟨hwaiting, hlock, hroom⟩ := hnew id alert rfl
      have hfresh : w.alerts.get? id = none := by
        rw [taken, Option.any_some] at htaken
        exact Option.not_isSome_iff_eq_none.mp htaken
      exact h.commit_new hends hlocked hfresh hwaiting hlock hroom

/-- A transaction goes on to write what it has read. -/
theorem Sound.proceed_write (h : w.Sound) {ws : List (AlertId × AlertState)} (hends : Ends ws) :
    (w.proceed t (.write ws [] none)).Sound := by
  refine h.proceed ⟨fun x hx ↦ hends x (List.append_nil ws ▸ hx), ?_, ?_⟩
  · intro x hx
    cases hx
  · intro id alert hnew
    cases hnew

theorem ends_expiries (u : UserId) (now : Time) : Ends (w.expiries u now) := by
  intro x hx
  obtain ⟨r, -, rfl⟩ := List.mem_map.mp hx
  exact .inl rfl

theorem Room.mono {alert : CapacityAlert} {noted noted' : List AlertId} (h : w.Room alert noted)
    (halerts : w'.alerts = w.alerts) (hsub : noted ⊆ noted') : w'.Room alert noted' := by
  obtain ⟨live, hfew, hlive⟩ := h
  refine ⟨live, hfew, fun id row hrow hu hwaits ↦ ?_⟩
  exact (hlive id row (halerts ▸ hrow) hu hwaits).imp_left fun hid ↦ hsub hid

/-- A transaction takes a lock that is free. -/
theorem Sound.lock (h : w.Sound) {task : AlertTask} {customerLocks : UserId → Option TransactionId}
    {rowLocks : AlertId → Option TransactionId}
    (hcustomer : ∀ t', t' ≠ t → ∀ u, w.customerLocks u = some t' → customerLocks u = some t')
    (hrow : ∀ t', t' ≠ t → ∀ id, w.rowLocks id = some t' → rowLocks id = some t')
    (hfits : { w.proceed t task with
      customerLocks := customerLocks, rowLocks := rowLocks }.Fits t task) :
    { w.proceed t task with customerLocks := customerLocks, rowLocks := rowLocks }.Sound := by
  refine h.turn rfl rfl (fun t' hne ↦ ⟨transactions_proceed w task hne, ?_⟩) fun task' htask' ↦ ?_
  · exact undisturbed_of_alerts rfl (hcustomer t' hne) (hrow t' hne)
  · obtain rfl := Option.some.inj ((transactions_proceed_self w task).symm.trans htask')
    exact hfits

theorem Sound.step (h : w.Sound) (t : TransactionId) : (w.step t).Sound := by
  rw [AlertWorld.step]
  cases htask : w.transactions t with
  | none => exact h
  | some task =>
    have hfits := h.tasks t task htask
    cases task with
    | lockCustomer id alert =>
      dsimp only
      split
      · next hfree =>
        refine h.lock (fun t' _ u hu ↦ ?_) (fun _ _ _ hid ↦ hid)
          ⟨hfits, Function.update_self _ _ _⟩
        have hother : u ≠ alert.userId := by
          rintro rfl
          exact nomatch hfree.symm.trans hu
        rw [Function.update_of_ne hother]
        exact hu
      · exact h
    | readForCreate id alert =>
      dsimp only
      split
      · exact h.proceed_write (ends_expiries _ _)
      · next hother =>
        split
        · exact h.finish t
        · next hfew =>
          refine h.proceed ⟨?_, fun x hx ↦ ?_, fun id' alert' hnew ↦ ?_⟩
          · rw [List.append_nil]
            exact ends_expiries _ _
          · cases hx
          · cases hnew
            exact ⟨hfits.1, hfits.2,
              room_of_read (Bool.eq_false_iff.mpr hother) (not_le.mp hfew)⟩
    | readForList u now => exact h.proceed_write (ends_expiries u now)
    | readForCancel u id =>
      dsimp only
      split
      · exact h.finish t
      · split
        · exact h.finish t
        · split
          · refine h.proceed_write fun x hx ↦ ?_
            obtain rfl := List.mem_singleton.mp hx
            exact .inr rfl
          · exact h.finish t
    | readForCheck free now =>
      dsimp only
      refine h.lock (fun _ _ _ hu ↦ hu) (fun t' _ id hid ↦ ?_)
        ⟨Table.nodup_select _ _, fun r hr ↦ ?_⟩
      · rw [if_neg, hid]
        intro hmem
        obtain ⟨r, hr, rfl⟩ := List.mem_map.mp hmem
        have hread := of_decide_eq_true (Table.mem_select.mp hr).2
        exact nomatch hread.2.symm.trans hid
      · obtain ⟨hrow, hread⟩ := Table.mem_select.mp hr
        exact ⟨hrow, (of_decide_eq_true hread).1, if_pos (List.mem_map_of_mem hr)⟩
    | write writes written new =>
      cases writes with
      | nil => exact h.commitWrites hfits
      | cons x writes =>
        obtain ⟨id, state⟩ := x
        obtain ⟨hends, hlocked, hnew⟩ := hfits
        dsimp only
        split
        · next hfree =>
          refine h.lock (fun _ _ _ hu ↦ hu) (fun t' hne id' hid' ↦ ?_)
            ⟨fun x hx ↦ ?_, fun x hx ↦ ?_, fun id' alert hid' ↦ ?_⟩
          · have hother : id' ≠ id := by
              rintro rfl
              rcases hfree with hfree | hfree
              · exact nomatch hfree.symm.trans hid'
              · exact hne (Option.some.inj (hid'.symm.trans hfree))
            rw [Function.update_of_ne hother]
            exact hid'
          · refine hends x ?_
            simp only [List.mem_append, List.mem_cons, List.not_mem_nil, or_false] at hx ⊢
            tauto
          · by_cases hid : x.1 = id
            · rw [hid]
              exact Function.update_self _ _ _
            · refine (Function.update_of_ne hid _ _).trans (hlocked x ?_)
              rcases List.mem_append.mp hx with hx | hx
              · exact hx
              · exact absurd (congrArg Prod.fst (List.mem_singleton.mp hx)) hid
          · obtain ⟨hwaiting, hlock, hroom⟩ := hnew id' alert hid'
            refine ⟨hwaiting, hlock, hroom.mono rfl (List.map_subset _ fun x hx ↦ ?_)⟩
            simp only [List.mem_append, List.mem_cons, List.not_mem_nil, or_false] at hx ⊢
            tauto
        · exact h
    | fire free now rows => exact h.commit_checkRows hfits

/-- A new alert waits. -/
theorem state_newAlert {publicGpuModels : List Text} {u : UserId} {gpuModel : Text}
    {gpuCount count : Option ℤ} {alert : CapacityAlert}
    (h : newAlert publicGpuModels u gpuModel gpuCount count now = .ok alert) :
    alert.state = .waiting := by
  rw [newAlert] at h
  cases hmodel : normalizeModel publicGpuModels gpuModel with
  | error e => rw [hmodel] at h; cases h
  | ok model =>
    rw [hmodel] at h
    cases hgpuCount : wholeNumber gpuCount "gpu_count".toList maxGpuCount with
    | error e => rw [hgpuCount] at h; cases h
    | ok n =>
      rw [hgpuCount] at h
      cases hcount : wholeNumber count "count".toList maxCount with
      | error e => rw [hcount] at h; cases h
      | ok m =>
        rw [hcount] at h
        obtain rfl := Except.ok.inj h
        rfl

theorem Sound.exec (h : w.Sound) (o : AlertStateOp) : (o.exec w).Sound := by
  cases o with
  | call t c =>
    rw [AlertStateOp.exec]
    split
    · next task htask =>
      refine h.proceed ?_
      cases c with
      | createAlert publicGpuModels u gpuModel gpuCount count now id =>
        rw [AlertCall.task] at htask
        split at htask
        · next alert halert =>
          obtain rfl := Option.some.inj htask
          exact state_newAlert halert
        · cases htask
      | listAlerts u now =>
        obtain rfl := Option.some.inj htask
        trivial
      | cancelAlert u id =>
        obtain rfl := Option.some.inj htask
        trivial
      | checkOnce free now =>
        obtain rfl := Option.some.inj htask
        trivial
    · exact h
  | step t => exact h.step t
  | rollback t => exact h.finish t

/-- Every alert that has its event is fired. -/
def Kept (w : AlertWorld) : Prop :=
  ∀ e ∈ w.events, ∃ row, w.alerts.get? e.2.alertId = some row ∧ row.state = .fired

/-- A commit of writes leaves the alerts that were there to the writes. -/
theorem get?_commitWrites {ws : List (AlertId × AlertState)}
    {new : Option (AlertId × CapacityAlert)} (htaken : w.taken new = false) {id : AlertId}
    {row : CapacityAlert} (hrow : w.alerts.get? id = some row) :
    (w.commitWrites t ws new).alerts.get? id = (written w.alerts ws).get? id := by
  rw [AlertWorld.commitWrites.eq_def, if_neg (Bool.eq_false_iff.mp htaken)]
  cases new with
  | none => rfl
  | some n =>
    obtain ⟨id', alert⟩ := n
    refine Table.get?_insert_ne _ ?_ _
    rintro rfl
    rw [taken, Option.any_some, hrow] at htaken
    cases htaken

theorem events_commitWrites (ws : List (AlertId × AlertState))
    (new : Option (AlertId × CapacityAlert)) : (w.commitWrites t ws new).events = w.events := by
  rw [AlertWorld.commitWrites.eq_def]
  split
  · rfl
  · split <;> rfl

theorem kept_commitWrites_iff (h : w.Sound) (hkept : w.Kept) {ws : List (AlertId × AlertState)}
    {new : Option (AlertId × CapacityAlert)} (hends : Ends ws) :
    (w.commitWrites t ws new).Kept ↔ w.taken new = true ∨
      ∀ x ∈ ws, ∀ row, w.alerts.get? x.1 = some row → row.state ≠ .fired := by
  by_cases htaken : w.taken new = true
  · refine iff_of_true ?_ (.inl htaken)
    rw [AlertWorld.commitWrites.eq_def, if_pos htaken]
    exact hkept
  · rw [or_iff_right htaken]
    rw [Bool.not_eq_true] at htaken
    constructor
    · intro hafter x hx row hrow hfired
      obtain ⟨e, he, hid⟩ := h.fired x.1 row hrow hfired
      obtain ⟨row', hrow', hfired'⟩ := hafter e ((events_commitWrites ws new).symm ▸ he)
      rw [hid, get?_commitWrites htaken hrow] at hrow'
      rcases get?_written ws hrow with ⟨hnot, -⟩ | ⟨state, hmem, hwritten⟩
      · exact hnot (List.mem_map_of_mem hx)
      · obtain rfl := Option.some.inj (hwritten.symm.trans hrow')
        change state = .fired at hfired'
        rcases hends _ hmem with hstate | hstate <;> cases hfired'.symm.trans hstate
    · intro htimely e he
      rw [events_commitWrites] at he
      obtain ⟨row, hrow, hfired⟩ := hkept e he
      rcases get?_written ws hrow with ⟨-, hsame⟩ | ⟨state, hmem, -⟩
      · exact ⟨row, (get?_commitWrites htaken hrow).trans hsame, hfired⟩
      · exact absurd hfired (htimely _ hmem row hrow)

/-- Alerts with an event stay fired exactly where no new state is committed for one that fired. -/
theorem kept_step_iff (h : w.Sound) (hkept : w.Kept) (o : AlertStateOp) :
    (o.exec w).Kept ↔ Timely o w := by
  cases o with
  | call t c =>
    refine iff_of_true ?_ trivial
    rw [AlertStateOp.exec]
    split <;> exact hkept
  | rollback t => exact iff_of_true hkept trivial
  | step t =>
    rw [AlertStateOp.exec, Timely, AlertWorld.step]
    cases htask : w.transactions t with
    | none => exact iff_of_true hkept trivial
    | some task =>
      have hfits := h.tasks t task htask
      cases task with
      | write writes written new =>
        cases writes with
        | nil => exact kept_commitWrites_iff h hkept (fun x hx ↦ hfits.1 x hx)
        | cons x writes =>
          refine iff_of_true ?_ trivial
          dsimp only
          split <;> exact hkept
      | fire free now rows =>
        refine iff_of_true (fun e he ↦ ?_) trivial
        obtain ⟨fired, -, hevents, hcases⟩ := exists_afterCheck hfits
        rcases List.mem_append.mp he with he | he
        · obtain ⟨row, hrow, hfired⟩ := hkept e he
          cases hcases e.2.alertId with
          | read row₀ row' before waited locked after later fires =>
            obtain rfl := Option.some.inj (hrow.symm.trans before)
            exact nomatch waited.symm.trans hfired
          | same not_fired after => exact ⟨row, after.trans hrow, hfired⟩
        · have hid : e.2.alertId ∈ fired := hevents ▸ List.mem_map_of_mem he
          cases hcases e.2.alertId with
          | read row row' before waited locked after later fires =>
            exact ⟨row', after, fires.mpr hid⟩
          | same not_fired after => exact absurd hid not_fired
      | lockCustomer id alert =>
        refine iff_of_true ?_ trivial
        dsimp only
        split <;> exact hkept
      | readForCreate id alert =>
        refine iff_of_true ?_ trivial
        dsimp only
        split
        · exact hkept
        · split <;> exact hkept
      | readForList u now => exact iff_of_true hkept trivial
      | readForCancel u id =>
        refine iff_of_true ?_ trivial
        dsimp only
        split
        · exact hkept
        · split
          · exact hkept
          · split <;> exact hkept
      | readForCheck free now => exact iff_of_true hkept trivial

end AlertWorld

open AlertWorld

/-- Alerts are truthful all along a run exactly if no transaction in it commits an expiry or a
cancellation of an alert that has fired in the meantime. -/
theorem alerts_truthful_iff (os : List AlertStateOp) :
    (∀ os', os' <+: os → (Steps.replay AlertStateOp.exec AlertWorld.empty os').Truthful) ↔
      Steps.Admitted AlertStateOp.exec Timely AlertWorld.empty os := by
  have hsound (w : AlertWorld) (h : w.Sound) (os' : List AlertStateOp) :
      (Steps.replay AlertStateOp.exec w os').Sound := by
    induction os' generalizing w with
    | nil => exact h
    | cons o os' ih => exact ih _ (h.exec o)
  have hkept (os' : List AlertStateOp) : (Steps.replay AlertStateOp.exec AlertWorld.empty os').Truthful ↔
      (Steps.replay AlertStateOp.exec AlertWorld.empty os').Kept :=
    (hsound _ sound_empty os').truthful_iff
  simp only [hkept]
  refine Steps.throughout_iff (I := Sound) (P := Kept) (fun o w h ↦ h.exec o)
    (fun o w h hkept ↦ kept_step_iff h hkept o) os sound_empty ?_
  intro e he
  cases he

/-- A cancellation reads the alert, a check fires it, and the cancellation is committed. -/
def cancelledWhileFired : List AlertStateOp :=
  [.call 0 (.createAlert ["RTX 4090".toList] 1 "rtx4090".toList (some 1) (some 1) 0 7),
    .step 0, .step 0, .step 0,
    .call 1 (.cancelAlert 1 7), .step 1,
    .call 2 (.checkOnce (.ofRows [("rtx4090".toList, [1])]) 60), .step 2, .step 2,
    .step 1, .step 1]

/-- An alert whose event was written may end as cancelled. -/
theorem cancelled_with_event :
    ¬∀ os os' : List AlertStateOp, os' <+: os →
      (Steps.replay AlertStateOp.exec AlertWorld.empty os').Truthful := by
  intro hall
  have htruthful := hall cancelledWhileFired cancelledWhileFired List.prefix_rfl
  have hstate : ((Steps.replay AlertStateOp.exec AlertWorld.empty cancelledWhileFired).alerts.get?
      7).map CapacityAlert.state = some .cancelled := by decide +kernel
  have hevent : (Steps.replay AlertStateOp.exec AlertWorld.empty cancelledWhileFired).events.any
      (fun e ↦ e.2.alertId = 7) = true := by decide +kernel
  obtain ⟨row, hrow, hcancelled⟩ := Option.map_eq_some_iff.mp hstate
  obtain ⟨e, he, hid⟩ := List.any_eq_true.mp hevent
  have hfired := (htruthful.fired 7 row hrow).mpr ⟨e, he, of_decide_eq_true hid⟩
  exact nomatch hcancelled.symm.trans hfired

end GreenCompute
