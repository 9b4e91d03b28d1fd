import GreenCompute.Foundations.Steps
import GreenCompute.Persistence.KeyLimits
import GreenCompute.Persistence.SubjectBus
import GreenCompute.Persistence.Transport

/-!
# Which attempt is recorded

A request goes to its candidates in turn until one serves it, and each attempt publishes a record
under the id of the request: that it failed, and in the end that it succeeded. The worker of the
control plane stores the records. The table takes one record of a request, so a record that comes
after another one raises, is tried again later, and is given up after five times.

`served_recorded_iff` says which requests are sure to be recorded as served, in whatever order
workers claim, die, and store: those whose first candidate serves them.
-/

namespace GreenCompute

/-! ## The attempts of a request -/

/-- What `_classify_inference_error` tells apart. -/
inductive UpstreamError where
  | timeout
  | connectionFailure
  | badResponse
  | failure
  deriving DecidableEq

/-- `InvocationRecord`: which request, who served it for whom, and how it ended. A record without an
error says that the request succeeded. -/
structure InvocationRecord where
  requestId : RequestId
  deploymentId : DeploymentId
  workloadId : WorkloadId
  apiKeyId : Option KeyId
  error : Option UpstreamError
  deriving DecidableEq

/-- The `status` of a record. -/
def InvocationRecord.succeeded (record : InvocationRecord) : Bool := record.error.isNone

/-- A candidate, and what comes of asking it. -/
structure Upstream where
  deploymentId : DeploymentId
  workloadId : WorkloadId
  outcome : Except UpstreamError Unit

variable (requestId : RequestId) (apiKeyId : Option KeyId)

/-- `_record_invocation` -/
def recordInvocation (candidate : Upstream) (error : Option UpstreamError) : InvocationRecord where
  requestId := requestId
  deploymentId := candidate.deploymentId
  workloadId := candidate.workloadId
  apiKeyId := apiKeyId
  error := error

/-- `_invoke_from_candidates`: the records that are published, in turn, and who served the
request. -/
def invokeFromCandidates : List Upstream → List InvocationRecord × Option DeploymentId
  | [] => ([], none)
  | candidate :: candidates =>
    match candidate.outcome with
    | .error e =>
      let (records, served) := invokeFromCandidates candidates
      (recordInvocation requestId apiKeyId candidate (some e) :: records, served)
    | .ok () => ([recordInvocation requestId apiKeyId candidate none], some candidate.deploymentId)

/-! ## Storing the records -/

/-- A row of `bus_deliveries` with the record of its event. -/
structure InvocationDelivery where
  record : InvocationRecord
  status : BusStatus
  attempts : ℕ
  availableAt : Time
  createdAt : Time
  updatedAt : Time

/-- What a worker has still to do: to store the record of a message, or to mark its delivery. -/
inductive InvocationTask where
  | handle (id : DeliveryId) (record : InvocationRecord) (attempts : ℕ)
  | mark (id : DeliveryId) (status : BusStatus) (retryAfterSeconds : Option Time)

abbrev EventWorkerId := ℕ

/-- The deliveries, the table of records, what was published so far, and what each worker has still
to do. -/
structure InvocationQueue where
  deliveries : Table DeliveryId InvocationDelivery
  nextDelivery : ℕ
  records : List InvocationRecord
  published : List InvocationRecord
  workers : EventWorkerId → List InvocationTask
  now : Time

namespace InvocationQueue

variable (w : InvocationQueue)

/-- Nothing was published yet. -/
def empty : InvocationQueue where
  deliveries := .empty
  nextDelivery := 0
  records := []
  published := []
  workers _ := []
  now := 0

/-- `record_invocation` -/
def publish (record : InvocationRecord) : InvocationQueue :=
  { w with
    deliveries := w.deliveries.insert w.nextDelivery ⟨record, .pending, 0, w.now, w.now, w.now⟩
    nextDelivery := w.nextDelivery + 1
    published := w.published ++ [record] }

/-- The rows that `claim_pending` selects. -/
def claimable (limit : ℕ) (locked : DeliveryId → Bool) : List (DeliveryId × InvocationDelivery) :=
  ((w.deliveries.select fun id row ↦
    row.status = .pending ∧ row.availableAt ≤ w.now ∧ locked id = false).mergeSort fun r r' ↦
      r.2.createdAt ≤ r'.2.createdAt).take limit

/-- The start of `process_pending_events`: a worker that is through with its last batch claims
another. -/
def claim (worker : EventWorkerId) (limit : ℕ) (locked : DeliveryId → Bool) : InvocationQueue :=
  if w.workers worker = [] then
    let rows := w.claimable limit locked
    { w with
      deliveries := w.deliveries.map fun id row ↦
        if id ∈ rows.map Prod.fst then
          { row with status := .processing, attempts := row.attempts + 1, updatedAt := w.now }
        else row
      workers := Function.update w.workers worker
        (rows.map fun r ↦ .handle r.1 r.2.record (r.2.attempts + 1)) }
  else w

/-- `_MAX_EVENT_ATTEMPTS` -/
def maxEventAttempts : ℕ := 5

/-- A record of the request is kept. -/
def keeps (requestId : RequestId) : Bool := w.records.any (·.requestId = requestId)

/-- What `_process_invocation_record` does with a message, or the guard around it: the record is
stored, unless there is one of the request, and what the delivery will be marked as. -/
def handle (id : DeliveryId) (record : InvocationRecord) (attempts : ℕ) :
    InvocationQueue × InvocationTask :=
  if w.keeps record.requestId then
    let retryable : Bool := attempts < maxEventAttempts
    (w, .mark id (if retryable then .pending else .failed) (some (min (30 * attempts) 300)))
  else ({ w with records := w.records ++ [record] }, .mark id .completed none)

/-- `_update_status` -/
def updateStatus (id : DeliveryId) (status : BusStatus) (retryAfterSeconds : Option Time) :
    InvocationQueue :=
  { w with
    deliveries := w.deliveries.modify id fun row ↦
      { row with
        status := status
        availableAt := (retryAfterSeconds.map (w.now + ·)).getD row.availableAt
        updatedAt := w.now } }

/-- A worker does what is next. -/
def work (worker : EventWorkerId) : InvocationQueue :=
  match w.workers worker with
  | [] => w
  | .handle id record attempts :: tasks =>
    let (stored, task) := w.handle id record attempts
    { stored with workers := Function.update stored.workers worker (task :: tasks) }
  | .mark id status retryAfterSeconds :: tasks =>
    { w.updateStatus id status retryAfterSeconds with
      workers := Function.update w.workers worker tasks }

/-- `requeue_stale_processing` -/
def requeueStale (staleAfterSeconds : Time) : InvocationQueue :=
  { w with
    deliveries := w.deliveries.map fun _ row ↦
      if row.status = .processing ∧ row.updatedAt ≤ w.now - staleAfterSeconds then
        { row with status := .pending, availableAt := w.now, updatedAt := w.now }
      else row }

/-- No delivery is left to be claimed or marked. -/
def Drained : Prop :=
  ∀ id row, w.deliveries.get? id = some row → row.status = .completed ∨ row.status = .failed

/-- The record that is kept of a request. -/
def kept (requestId : RequestId) : Option InvocationRecord :=
  w.records.find? (·.requestId = requestId)

/-- The record that is kept of a request says that it was served, and by whom. -/
def Records (requestId : RequestId) (served : DeploymentId) : Prop :=
  ∃ record, w.kept requestId = some record ∧ record.succeeded = true ∧
    record.deploymentId = served

end InvocationQueue

/-- What can happen: an attempt publishes its record, a worker claims a batch, does what is next or
dies, stale deliveries are requeued, or time passes. -/
inductive InvocationOp where
  | publish (record : InvocationRecord)
  | claim (worker : EventWorkerId) (limit : ℕ) (locked : DeliveryId → Bool)
  | work (worker : EventWorkerId)
  | die (worker : EventWorkerId)
  | requeueStale (staleAfterSeconds : Time)
  | advance (seconds : Time)

/-- What it does. -/
def InvocationOp.exec : InvocationOp → InvocationQueue → InvocationQueue
  | publish record, w => w.publish record
  | claim worker limit locked, w => w.claim worker limit locked
  | work worker, w => w.work worker
  | die worker, w => { w with workers := Function.update w.workers worker [] }
  | requeueStale staleAfterSeconds, w => w.requeueStale staleAfterSeconds
  | advance seconds, w => { w with now := w.now + max 0 seconds }

/-- The runs of the queue. -/
abbrev InvocationQueue.Runs : InvocationQueue → InvocationQueue → Prop :=
  Steps InvocationOp.exec fun _ _ ↦ True

/-! ## What is kept of a request -/

namespace InvocationQueue

variable {w w' : InvocationQueue} {worker : EventWorkerId}

/-- What a worker is about to do goes with the deliveries: a record is that of its delivery, and a
record of its request is kept before a delivery is marked. -/
def Fits (w : InvocationQueue) : InvocationTask → Prop
  | .handle id record _ => ∃ row, w.deliveries.get? id = some row ∧ row.record = record
  | .mark id _ _ => ∃ row, w.deliveries.get? id = some row ∧ w.keeps row.record.requestId = true

/-- Every published record has its delivery, what is kept was published, and of the request of a
delivery that is settled a record is kept. -/
structure Sound (w : InvocationQueue) : Prop where
  fresh : ∀ id, w.nextDelivery ≤ id → w.deliveries.get? id = none
  stored : ∀ record ∈ w.records, record ∈ w.published
  delivered : ∀ record ∈ w.published,
    ∃ id row, w.deliveries.get? id = some row ∧ row.record = record
  published : ∀ id row, w.deliveries.get? id = some row → row.record ∈ w.published
  settled : ∀ id row, w.deliveries.get? id = some row →
    row.status = .completed ∨ row.status = .failed → w.keeps row.record.requestId = true
  tasks : ∀ worker, ∀ task ∈ w.workers worker, w.Fits task

theorem sound_empty : empty.Sound where
  fresh _ _ := rfl
  stored _ h := nomatch h
  delivered _ h := nomatch h
  published _ _ h := nomatch h
  settled _ _ h := nomatch h
  tasks _ _ h := nomatch h

/-- Deliveries keep their records, and what is kept of a request stays. -/
theorem fits_mono {task : InvocationTask} (h : w.Fits task)
    (hrows : ∀ id row, w.deliveries.get? id = some row →
      ∃ row', w'.deliveries.get? id = some row' ∧ row'.record = row.record)
    (hkeeps : ∀ requestId, w.keeps requestId = true → w'.keeps requestId = true) :
    w'.Fits task := by
  cases task with
  | handle id record attempts =>
    obtain ⟨row, hrow, hrecord⟩ := h
    obtain ⟨row', hrow', hsame⟩ := hrows id row hrow
    exact ⟨row', hrow', hsame.trans hrecord⟩
  | mark id status after =>
    obtain ⟨row, hrow, hkept⟩ := h
    obtain ⟨row', hrow', hsame⟩ := hrows id row hrow
    exact ⟨row', hrow', hsame ▸ hkeeps _ hkept⟩

theorem mem_claimable {limit : ℕ} {locked : DeliveryId → Bool}
    {r : DeliveryId × InvocationDelivery} (h : r ∈ w.claimable limit locked) :
    w.deliveries.get? r.1 = some r.2 :=
  (Table.mem_select.mp (List.mem_mergeSort.mp (List.mem_of_mem_take h))).1

/-- The deliveries keep their records, and none is settled that was not, unless a record of its
request is kept. -/
theorem Sound.map (h : w.Sound) (workers : EventWorkerId → List InvocationTask)
    {f : DeliveryId → InvocationDelivery → InvocationDelivery}
    (hrecord : ∀ id row, (f id row).record = row.record)
    (hsettled : ∀ id row, w.deliveries.get? id = some row →
      (f id row).status = .completed ∨ (f id row).status = .failed →
        (row.status = .completed ∨ row.status = .failed) ∨ w.keeps row.record.requestId = true)
    (htasks : ∀ worker, ∀ task ∈ workers worker, w.Fits task) :
    { w with deliveries := w.deliveries.map f, workers := workers }.Sound := by
  have hget (id : DeliveryId) : (w.deliveries.map f).get? id = (w.deliveries.get? id).map (f id) :=
    Table.get?_map _ _ _
  have hfound (id : DeliveryId) (row : InvocationDelivery)
      (hrow : w.deliveries.get? id = some row) :
      (w.deliveries.map f).get? id = some (f id row) := by
    rw [hget, hrow, Option.map_some]
  have hback (id : DeliveryId) (row' : InvocationDelivery)
      (hrow' : (w.deliveries.map f).get? id = some row') :
      ∃ row, w.deliveries.get? id = some row ∧ f id row = row' := by
    rw [hget] at hrow'
    exact Option.map_eq_some_iff.mp hrow'
  refine ⟨fun id hid ↦ ?_, h.stored, fun record hrecord' ↦ ?_, fun id row' hrow' ↦ ?_,
    fun id row' hrow' hdone ↦ ?_, fun worker task htask ↦ ?_⟩
  · rw [hget, h.fresh id hid]
    rfl
  · obtain ⟨id, row, hrow, hrecord''⟩ := h.delivered record hrecord'
    exact ⟨id, f id row, hfound id row hrow, (hrecord id row).trans hrecord''⟩
  · obtain ⟨row, hrow, rfl⟩ := hback id row' hrow'
    rw [hrecord]
    exact h.published id row hrow
  · obtain ⟨row, hrow, rfl⟩ := hback id row' hrow'
    rw [hrecord]
    rcases hsettled id row hrow hdone with hbefore | hkeeps
    · exact h.settled id row hrow hbefore
    · exact hkeeps
  · exact fits_mono (htasks worker task htask)
      (fun id row hrow ↦ ⟨f id row, hfound id row hrow, hrecord id row⟩) fun _ hkeeps ↦ hkeeps

theorem Sound.publish (h : w.Sound) (record : InvocationRecord) : (w.publish record).Sound := by
  have hnew : (w.publish record).deliveries.get? w.nextDelivery =
      some ⟨record, .pending, 0, w.now, w.now, w.now⟩ := Table.get?_insert_self _ _ _
  have hold (id : DeliveryId) (hid : id ≠ w.nextDelivery) :
      (w.publish record).deliveries.get? id = w.deliveries.get? id := Table.get?_insert_ne _ hid _
  have hother {id : DeliveryId} {row : InvocationDelivery}
      (hrow : w.deliveries.get? id = some row) :
      (w.publish record).deliveries.get? id = some row := by
    refine (hold id ?_).trans hrow
    rintro rfl
    exact nomatch (h.fresh _ le_rfl).symm.trans hrow
  have hback {id : DeliveryId} {row : InvocationDelivery}
      (hrow : (w.publish record).deliveries.get? id = some row) :
      row = ⟨record, .pending, 0, w.now, w.now, w.now⟩ ∨ w.deliveries.get? id = some row := by
    by_cases hid : id = w.nextDelivery
    · subst hid
      exact .inl (Option.some.inj (hrow.symm.trans hnew))
    · exact .inr ((hold id hid).symm.trans hrow)
  refine ⟨fun id hid ↦ ?_, fun r hr ↦ ?_, fun r hr ↦ ?_, fun id row hrow ↦ ?_,
    fun id row hrow hdone ↦ ?_, fun worker task htask ↦ ?_⟩
  · have hlater : w.nextDelivery < id := hid
    exact (hold id hlater.ne').trans (h.fresh id hlater.le)
  · exact List.mem_append_left _ (h.stored r hr)
  · rcases List.mem_append.mp hr with hr | hr
    · obtain ⟨id, row, hrow, hsame⟩ := h.delivered r hr
      exact ⟨id, row, hother hrow, hsame⟩
    · exact ⟨_, _, hnew, (List.mem_singleton.mp hr).symm⟩
  · rcases hback hrow with rfl | hrow
    · exact List.mem_append_right _ List.mem_cons_self
    · exact List.mem_append_left _ (h.published id row hrow)
  · rcases hback hrow with rfl | hrow
    · rcases hdone with hdone | hdone <;> cases hdone
    · exact h.settled id row hrow hdone
  · exact fits_mono (h.tasks worker task htask) (fun id row hrow ↦ ⟨row, hother hrow, rfl⟩)
      fun _ hkeeps ↦ hkeeps

theorem Sound.claim (h : w.Sound) (limit : ℕ) (locked : DeliveryId → Bool) :
    (w.claim worker limit locked).Sound := by
  rw [InvocationQueue.claim]
  split
  · refine h.map _ (fun id row ↦ ?_) (fun id row hrow hdone ↦ ?_) fun other task htask ↦ ?_
    · split <;> rfl
    · split at hdone
      · rcases hdone with hdone | hdone <;> cases hdone
      · exact .inl hdone
    · by_cases hother : other = worker
      · subst hother
        rw [Function.update_self] at htask
        obtain ⟨r, hr, rfl⟩ := List.mem_map.mp htask
        exact ⟨r.2, mem_claimable hr, rfl⟩
      · rw [Function.update_of_ne hother] at htask
        exact h.tasks other task htask
  · exact h

theorem Sound.requeueStale (h : w.Sound) (staleAfterSeconds : Time) :
    (w.requeueStale staleAfterSeconds).Sound := by
  refine h.map w.workers (fun id row ↦ ?_) (fun id row hrow hdone ↦ ?_) h.tasks
  · split <;> rfl
  · split at hdone
    · rcases hdone with hdone | hdone <;> cases hdone
    · exact .inl hdone

theorem keeps_append_of_keeps {requestId : RequestId} (h : w.keeps requestId = true)
    (record : InvocationRecord) :
    { w with records := w.records ++ [record] }.keeps requestId = true := by
  rw [keeps, List.any_append, show w.records.any _ = true from h, Bool.true_or]

theorem keeps_append_self (w : InvocationQueue) (record : InvocationRecord) :
    { w with records := w.records ++ [record] }.keeps record.requestId = true := by
  rw [keeps, List.any_append, List.any_cons, decide_eq_true rfl, Bool.true_or, Bool.or_true]

/-- A record that was published is stored. -/
theorem Sound.store (h : w.Sound) {record : InvocationRecord} (hpublished : record ∈ w.published) :
    { w with records := w.records ++ [record] }.Sound := by
  refine ⟨h.fresh, fun r hr ↦ ?_, h.delivered, h.published,
    fun id row hrow hdone ↦ keeps_append_of_keeps (h.settled id row hrow hdone) record,
    fun worker task htask ↦ ?_⟩
  · rcases List.mem_append.mp hr with hr | hr
    · exact h.stored r hr
    · exact List.mem_singleton.mp hr ▸ hpublished
  · exact fits_mono (h.tasks worker task htask) (fun id row hrow ↦ ⟨row, hrow, rfl⟩)
      fun _ hkeeps ↦ keeps_append_of_keeps hkeeps record

/-- A worker whose tasks go with the deliveries. -/
theorem Sound.setTasks (h : w.Sound) {tasks : List InvocationTask}
    (htasks : ∀ task ∈ tasks, w.Fits task) :
    { w with workers := Function.update w.workers worker tasks }.Sound := by
  refine ⟨h.fresh, h.stored, h.delivered, h.published, h.settled, fun other task htask ↦ ?_⟩
  have hfits : w.Fits task := by
    change task ∈ Function.update w.workers worker tasks other at htask
    by_cases hother : other = worker
    · subst hother
      rw [Function.update_self] at htask
      exact htasks task htask
    · rw [Function.update_of_ne hother] at htask
      exact h.tasks other task htask
  exact fits_mono hfits (fun id row hrow ↦ ⟨row, hrow, rfl⟩) fun _ hkeeps ↦ hkeeps

theorem Sound.handle (h : w.Sound) {id : DeliveryId} {record : InvocationRecord} (attempts : ℕ)
    (hfits : w.Fits (.handle id record attempts)) :
    (w.handle id record attempts).1.Sound ∧
      (w.handle id record attempts).1.Fits (w.handle id record attempts).2 := by
  obtain ⟨row, hrow, rfl⟩ := hfits
  rw [InvocationQueue.handle]
  by_cases hkeeps : w.keeps row.record.requestId = true
  · rw [if_pos hkeeps]
    exact ⟨h, row, hrow, hkeeps⟩
  · rw [if_neg hkeeps]
    exact ⟨h.store (h.published id row hrow), row, hrow, keeps_append_self w row.record⟩

/-- A delivery is marked of whose request a record is kept. -/
theorem Sound.updateStatus (h : w.Sound) {id : DeliveryId} {status : BusStatus}
    {after : Option Time} (hfits : w.Fits (.mark id status after)) :
    (w.updateStatus id status after).Sound := by
  obtain ⟨row, hrow, hkeeps⟩ := hfits
  refine h.map w.workers (fun id' row' ↦ ?_) (fun id' row' hrow' hdone ↦ ?_) h.tasks
  · split <;> rfl
  · split at hdone
    · next hid =>
      subst hid
      obtain rfl := Option.some.inj (hrow.symm.trans hrow')
      exact .inr hkeeps
    · exact .inl hdone

theorem Sound.work (h : w.Sound) (worker : EventWorkerId) : (w.work worker).Sound := by
  rw [InvocationQueue.work]
  cases htasks : w.workers worker with
  | nil => exact h
  | cons task tasks =>
    have hfits : ∀ task' ∈ task :: tasks, w.Fits task' := htasks ▸ h.tasks worker
    cases task with
    | handle id record attempts =>
      obtain ⟨hstored, hmark⟩ := h.handle attempts (hfits _ List.mem_cons_self)
      refine hstored.setTasks fun task' htask' ↦ ?_
      rcases List.mem_cons.mp htask' with rfl | hrest
      · exact hmark
      · refine fits_mono (hfits task' (List.mem_cons_of_mem _ hrest)) (fun id' row hrow ↦ ?_)
          fun requestId hkeeps ↦ ?_
        · refine ⟨row, ?_, rfl⟩
          rw [InvocationQueue.handle]
          split <;> exact hrow
        · rw [InvocationQueue.handle]
          split
          · exact hkeeps
          · exact keeps_append_of_keeps hkeeps record
    | mark id status after =>
      refine (h.updateStatus (hfits _ List.mem_cons_self)).setTasks fun task' htask' ↦ ?_
      refine fits_mono (hfits task' (List.mem_cons_of_mem _ htask')) (fun id' row hrow ↦ ?_)
        fun _ hkeeps ↦ hkeeps
      rw [InvocationQueue.updateStatus, Table.get?_modify, hrow]
      split
      · exact ⟨_, rfl, rfl⟩
      · exact ⟨row, rfl, rfl⟩

theorem Sound.exec (h : w.Sound) (o : InvocationOp) : (o.exec w).Sound := by
  cases o with
  | publish record => exact h.publish record
  | claim worker limit locked => exact h.claim limit locked
  | work worker => exact h.work worker
  | die worker => exact h.setTasks fun _ htask ↦ nomatch htask
  | requeueStale staleAfterSeconds => exact h.requeueStale staleAfterSeconds
  | advance seconds =>
    exact ⟨h.fresh, h.stored, h.delivered, h.published, h.settled, fun worker task htask ↦
      fits_mono (h.tasks worker task htask) (fun id row hrow ↦ ⟨row, hrow, rfl⟩)
        fun _ hkeeps ↦ hkeeps⟩

/-- Where one record of a request was published, it is the one that is kept when the queue is
drained. -/
theorem Sound.kept_of_drained (h : w.Sound) {requestId : RequestId} {record : InvocationRecord}
    (hpublished : w.published.filter (·.requestId = requestId) = [record]) (hdrained : w.Drained) :
    w.kept requestId = some record := by
  have hone (r : InvocationRecord) (hr : r ∈ w.published) (hid : r.requestId = requestId) :
      r = record := by
    have hmem : r ∈ w.published.filter (·.requestId = requestId) :=
      List.mem_filter.mpr ⟨hr, decide_eq_true hid⟩
    rw [hpublished] at hmem
    exact List.mem_singleton.mp hmem
  have hrecord : record ∈ w.published ∧ record.requestId = requestId := by
    have hmem : record ∈ w.published.filter (·.requestId = requestId) :=
      hpublished ▸ List.mem_cons_self
    exact ⟨(List.mem_filter.mp hmem).1, of_decide_eq_true (List.mem_filter.mp hmem).2⟩
  obtain ⟨id, row, hrow, rfl⟩ := h.delivered record hrecord.1
  have hkeeps := h.settled id row hrow (hdrained id row hrow)
  rw [hrecord.2, keeps, List.any_eq_true] at hkeeps
  obtain ⟨r, hr⟩ := Option.isSome_iff_exists.mp (List.find?_isSome.mpr hkeeps)
  have hid : decide (r.requestId = requestId) = true :=
    List.find?_some (p := fun r : InvocationRecord ↦ decide (r.requestId = requestId)) hr
  rw [kept, hr, hone r (h.stored r (List.mem_of_find?_eq_some hr)) (of_decide_eq_true hid)]

/-! ## A request with several records -/

/-- Nothing is left to be done. -/
structure Quiet (w : InvocationQueue) : Prop where
  sound : w.Sound
  drained : w.Drained
  idle : ∀ worker, w.workers worker = []

theorem quiet_empty : empty.Quiet := ⟨sound_empty, fun _ _ h ↦ (nomatch h), fun _ ↦ rfl⟩

/-- One worker takes up a delivery, does what it says, and marks it; then time passes. -/
def round (id : DeliveryId) : List InvocationOp :=
  [.claim 0 1 (fun d ↦ d ≠ id), .work 0, .work 0, .advance 300]

/-- What a round makes of a delivery. -/
def afterRound (w : InvocationQueue) (row : InvocationDelivery) : InvocationDelivery :=
  { row with
    status :=
      if w.keeps row.record.requestId then
        if row.attempts + 1 < maxEventAttempts then .pending else .failed
      else .completed
    attempts := row.attempts + 1
    availableAt :=
      if w.keeps row.record.requestId then w.now + min (30 * ((row.attempts + 1 : ℕ) : Time)) 300
      else row.availableAt
    updatedAt := w.now }

/-- A worker takes up one delivery. -/
def take (w : InvocationQueue) (worker : EventWorkerId) (id : DeliveryId)
    (row : InvocationDelivery) : InvocationQueue :=
  { w with
    deliveries := w.deliveries.modify id fun row ↦
      { row with status := .processing, attempts := row.attempts + 1, updatedAt := w.now }
    workers := Function.update w.workers worker [.handle id row.record (row.attempts + 1)] }

theorem claim_alone {id : DeliveryId} {row : InvocationDelivery}
    (hrow : w.deliveries.get? id = some row) (hpending : row.status = .pending)
    (hdue : row.availableAt ≤ w.now) (hidle : w.workers worker = []) :
    w.claim worker 1 (fun d ↦ d ≠ id) = w.take worker id row := by
  have hclaimable : w.claimable 1 (fun d ↦ d ≠ id) = [(id, row)] := by
    rw [claimable, Table.select_eq_singleton hrow (by simp [hpending, hdue]) (by simp +contextual),
      List.mergeSort_singleton]
    rfl
  rw [claim, if_pos hidle, hclaimable]
  simp only [List.map_cons, List.map_nil, List.mem_singleton]
  rfl

/-- A worker that is to mark a delivery marks it. -/
theorem work_mark {id : DeliveryId} {status : BusStatus} {after : Option Time} :
    { w with workers := Function.update w.workers worker [.mark id status after] }.work worker =
      { w.updateStatus id status after with workers := Function.update w.workers worker [] } := by
  simp only [work, Function.update_self, Function.update_idem]
  rfl

theorem work_work_of_keeps {id : DeliveryId} {record : InvocationRecord} {attempts : ℕ}
    (htasks : w.workers worker = [.handle id record attempts])
    (hkeeps : w.keeps record.requestId = true) :
    (w.work worker).work worker =
      { w.updateStatus id (if attempts < maxEventAttempts then .pending else .failed)
          (some (min (30 * attempts) 300)) with
        workers := Function.update w.workers worker [] } := by
  have hwork : w.work worker =
      { w with
        workers := Function.update w.workers worker
          [.mark id (if attempts < maxEventAttempts then .pending else .failed)
            (some (min (30 * attempts) 300))] } := by
    rw [work, htasks]
    simp only [handle, if_pos hkeeps, decide_eq_true_eq]
  rw [hwork]
  exact work_mark

theorem work_work_of_not_keeps {id : DeliveryId} {record : InvocationRecord} {attempts : ℕ}
    (htasks : w.workers worker = [.handle id record attempts])
    (hkeeps : ¬w.keeps record.requestId = true) :
    (w.work worker).work worker =
      { w.updateStatus id .completed none with
        records := w.records ++ [record]
        workers := Function.update w.workers worker [] } := by
  have hwork : w.work worker =
      { w with
        records := w.records ++ [record]
        workers := Function.update w.workers worker [.mark id .completed none] } := by
    rw [work, htasks]
    simp only [handle, if_neg hkeeps]
  rw [hwork]
  exact work_mark (w := { w with records := w.records ++ [record] })

theorem replay_round {id : DeliveryId} {row : InvocationDelivery}
    (hrow : w.deliveries.get? id = some row) (hpending : row.status = .pending)
    (hdue : row.availableAt ≤ w.now) (hidle : ∀ worker, w.workers worker = []) :
    Steps.replay InvocationOp.exec w (round id) =
      { w with
        deliveries := w.deliveries.modify id fun _ ↦ w.afterRound row
        records := (w.handle id row.record (row.attempts + 1)).1.records
        now := w.now + 300 } := by
  have hworkers (tasks : List InvocationTask) :
      Function.update (Function.update w.workers 0 tasks) 0 [] = w.workers := by
    rw [Function.update_idem, Function.update_eq_self_iff, hidle]
  have hrewritten (f g : InvocationDelivery → InvocationDelivery)
      (hfg : g (f row) = w.afterRound row) :
      (w.deliveries.modify id f).modify id g = w.deliveries.modify id fun _ ↦ w.afterRound row := by
    rw [Table.modify, Table.modify, Table.map_map]
    refine Table.map_congr fun id' row' hrow' ↦ ?_
    by_cases hid : id' = id
    · subst hid
      obtain rfl := Option.some.inj (hrow.symm.trans hrow')
      simp only [if_true, hfg]
    · simp only [if_neg hid]
  have hlater : w.now + max 0 300 = w.now + 300 := by rw [max_eq_right (by norm_num)]
  have htaken : (w.take 0 id row).workers 0 = [.handle id row.record (row.attempts + 1)] := by
    simp only [take, Function.update_self]
  by_cases hkeeps : w.keeps row.record.requestId = true
  · have hstored : (w.handle id row.record (row.attempts + 1)).1 = w := by
      rw [handle, if_pos hkeeps]
    change InvocationOp.exec (.advance 300) (((w.claim 0 1 (fun d ↦ d ≠ id)).work 0).work 0) = _
    rw [claim_alone hrow hpending hdue (hidle 0), work_work_of_keeps htaken hkeeps,
      hstored]
    simp only [InvocationOp.exec, take, updateStatus, hworkers, hlater]
    rw [hrewritten]
    simp only [afterRound, if_pos hkeeps, Option.map_some, Option.getD_some]
  · have hstored : (w.handle id row.record (row.attempts + 1)).1.records =
        w.records ++ [row.record] := by
      rw [handle, if_neg hkeeps]
    change InvocationOp.exec (.advance 300) (((w.claim 0 1 (fun d ↦ d ≠ id)).work 0).work 0) = _
    rw [claim_alone hrow hpending hdue (hidle 0), work_work_of_not_keeps htaken hkeeps,
      hstored]
    simp only [InvocationOp.exec, take, updateStatus, hworkers, hlater]
    rw [hrewritten]
    simp only [afterRound, if_neg hkeeps, Option.map_none, Option.getD_none]

/-- A run of given operations. -/
theorem runs_replay (w : InvocationQueue) (os : List InvocationOp) :
    Runs w (Steps.replay InvocationOp.exec w os) := by
  induction os generalizing w with
  | nil => exact .refl
  | cons o os ih => exact .head ⟨o, trivial, rfl⟩ (ih (o.exec w))

/-- Everything but one delivery is settled, and no worker has anything to do. -/
structure Awaits (w : InvocationQueue) (id : DeliveryId) (row : InvocationDelivery) : Prop where
  sound : w.Sound
  idle : ∀ worker, w.workers worker = []
  found : w.deliveries.get? id = some row
  pending : row.status = .pending
  due : row.availableAt ≤ w.now
  others : ∀ id' row', id' ≠ id → w.deliveries.get? id' = some row' →
    row'.status = .completed ∨ row'.status = .failed

variable {id : DeliveryId} {row : InvocationDelivery}

theorem Quiet.awaits_publish (h : w.Quiet) (record : InvocationRecord) :
    (w.publish record).Awaits w.nextDelivery ⟨record, .pending, 0, w.now, w.now, w.now⟩ where
  sound := h.sound.publish record
  idle := h.idle
  found := Table.get?_insert_self _ _ _
  pending := rfl
  due := le_rfl
  others id' row' hid hrow' := h.drained id' row' ((Table.get?_insert_ne _ hid _).symm.trans hrow')

theorem runs_sound (run : Runs w w') (h : w.Sound) : w'.Sound :=
  run.invariant (fun o _ hsound _ ↦ hsound.exec o) h

theorem afterRound_availableAt_le (h : row.availableAt ≤ w.now) :
    (w.afterRound row).availableAt ≤ w.now + 300 := by
  rw [afterRound]
  dsimp only
  split
  · exact add_le_add_right (min_le_right _ _) _
  · linarith

theorem Awaits.replay_round (h : w.Awaits id row) :
    Steps.replay InvocationOp.exec w (round id) =
      { w with
        deliveries := w.deliveries.modify id fun _ ↦ w.afterRound row
        records := (w.handle id row.record (row.attempts + 1)).1.records
        now := w.now + 300 } :=
  InvocationQueue.replay_round h.found h.pending h.due h.idle

/-- What is found after a round. -/
theorem Awaits.get?_round (h : w.Awaits id row) (id' : DeliveryId) :
    (Steps.replay InvocationOp.exec w (round id)).deliveries.get? id' =
      if id' = id then some (w.afterRound row) else w.deliveries.get? id' := by
  rw [h.replay_round, Table.get?_modify]
  split
  · next hid => rw [hid, h.found, Option.map_some]
  · rfl

theorem Awaits.quiet_round (h : w.Awaits id row)
    (hsettled : (w.afterRound row).status = .completed ∨ (w.afterRound row).status = .failed) :
    (Steps.replay InvocationOp.exec w (round id)).Quiet := by
  refine ⟨runs_sound (runs_replay w _) h.sound, fun id' row' hrow' ↦ ?_, ?_⟩
  · rw [h.get?_round] at hrow'
    by_cases hid : id' = id
    · rw [if_pos hid] at hrow'
      exact Option.some.inj hrow' ▸ hsettled
    · rw [if_neg hid] at hrow'
      exact h.others id' row' hid hrow'
  · rw [h.replay_round]
    exact h.idle

theorem Awaits.awaits_round (h : w.Awaits id row)
    (hpending : (w.afterRound row).status = .pending) :
    (Steps.replay InvocationOp.exec w (round id)).Awaits id (w.afterRound row) := by
  refine ⟨runs_sound (runs_replay w _) h.sound, ?_, ?_, hpending, ?_, fun id' row' hid hrow' ↦ ?_⟩
  · rw [h.replay_round]
    exact h.idle
  · rw [h.get?_round, if_pos rfl]
  · rw [h.replay_round]
    exact afterRound_availableAt_le h.due
  · rw [h.get?_round, if_neg hid] at hrow'
    exact h.others id' row' hid hrow'

/-- The delivery of a record is settled in the end; the record is stored, unless one of its request
is kept. -/
theorem Awaits.exists_runs (h : w.Awaits id row) {n : ℕ}
    (hn : row.attempts + n + 1 = maxEventAttempts) :
    ∃ w', Runs w w' ∧ w'.Quiet ∧ w'.published = w.published ∧
      w'.records = (w.handle id row.record (row.attempts + 1)).1.records := by
  have hround := h.replay_round
  have hpublished : (Steps.replay InvocationOp.exec w (round id)).published = w.published := by
    rw [hround]
  have hrecords : (Steps.replay InvocationOp.exec w (round id)).records =
      (w.handle id row.record (row.attempts + 1)).1.records := by
    rw [hround]
  by_cases hkeeps : w.keeps row.record.requestId = true
  · induction n generalizing w row with
    | zero =>
      refine ⟨_, runs_replay w (round id), h.quiet_round (.inr ?_), hpublished, hrecords⟩
      have hlast : ¬row.attempts + 1 < maxEventAttempts := by omega
      simp only [afterRound, if_pos hkeeps, if_neg hlast]
    | succ n ih =>
      have hmore : row.attempts + 1 < maxEventAttempts := by omega
      have hagain := h.awaits_round (by simp only [afterRound, if_pos hkeeps, if_pos hmore])
      have hsame : (w.handle id row.record (row.attempts + 1)).1.records = w.records := by
        rw [handle, if_pos hkeeps]
      have hkeeps' : (Steps.replay InvocationOp.exec w (round id)).keeps
          (w.afterRound row).record.requestId = true := by
        rw [keeps, hrecords, hsame]
        exact hkeeps
      obtain ⟨w', run, hquiet, hpublished', hrecords'⟩ := ih hagain
        (by simp only [afterRound]; omega) hagain.replay_round (by rw [hagain.replay_round])
        (by rw [hagain.replay_round]) hkeeps'
      refine ⟨w', (runs_replay w (round id)).trans run, hquiet, hpublished'.trans hpublished, ?_⟩
      rw [hrecords', handle, if_pos hkeeps', hrecords]
  · refine ⟨_, runs_replay w (round id), h.quiet_round (.inl ?_), hpublished, hrecords⟩
    simp only [afterRound, if_neg hkeeps]

/-- A record is published and settled. -/
theorem Quiet.exists_runs_publish (h : w.Quiet) (record : InvocationRecord) :
    ∃ w', Runs w w' ∧ w'.Quiet ∧ w'.published = w.published ++ [record] ∧
      w'.records =
        if w.keeps record.requestId then w.records else w.records ++ [record] := by
  obtain ⟨w', run, hquiet, hpublished, hrecords⟩ :=
    (h.awaits_publish record).exists_runs (n := 4) rfl
  refine ⟨w', .head ⟨.publish record, trivial, rfl⟩ run, hquiet, hpublished, ?_⟩
  rw [hrecords, handle]
  change (if w.keeps record.requestId = true then (_ : InvocationQueue × InvocationTask)
    else _).1.records = _
  split <;> rfl

/-- Of several records of a request the first is kept where each is settled before the next. -/
theorem exists_runs_first (record : InvocationRecord) (later : List InvocationRecord)
    (hsame : ∀ r ∈ later, r.requestId = record.requestId) :
    ∃ w, Runs empty w ∧ w.Quiet ∧ w.published = record :: later ∧ w.records = [record] := by
  induction later using List.reverseRecOn with
  | nil => exact quiet_empty.exists_runs_publish record
  | append_singleton later r ih =>
    obtain ⟨w, run, hquiet, hpublished, hrecords⟩ :=
      ih fun r' hr' ↦ hsame r' (List.mem_append_left _ hr')
    obtain ⟨w', run', hquiet', hpublished', hrecords'⟩ := hquiet.exists_runs_publish r
    have hkeeps : w.keeps r.requestId = true := by
      rw [keeps, hrecords, List.any_cons, hsame r (List.mem_append_right _ List.mem_cons_self),
        decide_eq_true rfl, Bool.true_or]
    refine ⟨w', run.trans run', hquiet', by rw [hpublished', hpublished, List.cons_append], ?_⟩
    rw [hrecords', if_pos hkeeps, hrecords]

end InvocationQueue

open InvocationQueue

variable {requestId : RequestId} {apiKeyId : Option KeyId} {candidates : List Upstream}

/-- Every record of a request is under its id. -/
theorem requestId_of_mem_invokeFromCandidates {record : InvocationRecord}
    (h : record ∈ (invokeFromCandidates requestId apiKeyId candidates).1) :
    record.requestId = requestId := by
  induction candidates with
  | nil => cases h
  | cons candidate candidates ih =>
    rw [invokeFromCandidates] at h
    cases hasked : candidate.outcome with
    | error e =>
      rw [hasked] at h
      rcases List.mem_cons.mp h with rfl | hlater
      · rfl
      · exact ih hlater
    | ok a =>
      rw [hasked] at h
      obtain rfl := List.mem_singleton.mp h
      rfl

/-- Where the first candidate fails, a run that settles its record before the others are published
keeps that one. -/
theorem exists_runs_not_records (requestId : RequestId) (apiKeyId : Option KeyId)
    {candidate : Upstream} {e : UpstreamError} (candidates : List Upstream)
    (hfails : candidate.outcome = .error e) (served : DeploymentId) :
    ∃ w, Runs empty w ∧
      w.published.filter (·.requestId = requestId) =
        (invokeFromCandidates requestId apiKeyId (candidate :: candidates)).1 ∧
      w.Drained ∧ ¬w.Records requestId served := by
  have hrecords : (invokeFromCandidates requestId apiKeyId (candidate :: candidates)).1 =
      recordInvocation requestId apiKeyId candidate (some e) ::
        (invokeFromCandidates requestId apiKeyId candidates).1 := by
    rw [invokeFromCandidates, hfails]
  obtain ⟨w, run, hquiet, hpublished, hkept⟩ :=
    exists_runs_first (recordInvocation requestId apiKeyId candidate (some e))
      (invokeFromCandidates requestId apiKeyId candidates).1
      fun _ hr ↦ requestId_of_mem_invokeFromCandidates hr
  refine ⟨w, run, ?_, hquiet.drained, ?_⟩
  · rw [hpublished, ← hrecords, List.filter_eq_self]
    exact fun r hr ↦ decide_eq_true (requestId_of_mem_invokeFromCandidates hr)
  · rintro ⟨record, hfound, hsucceeded, -⟩
    have hfirst : w.kept requestId =
        some (recordInvocation requestId apiKeyId candidate (some e)) := by
      rw [kept, hkept]
      exact List.find?_cons_of_pos (decide_eq_true rfl)
    obtain rfl := Option.some.inj (hfirst.symm.trans hfound)
    cases hsucceeded

/-- A request that was served is sure to be recorded so, and under the deployment that served it,
exactly if its first candidate served it. -/
theorem served_recorded_iff (requestId : RequestId) (apiKeyId : Option KeyId)
    {candidates : List Upstream} {served : DeploymentId}
    (h : (invokeFromCandidates requestId apiKeyId candidates).2 = some served) :
    (∀ w, Runs empty w →
      w.published.filter (·.requestId = requestId) =
        (invokeFromCandidates requestId apiKeyId candidates).1 →
      w.Drained → w.Records requestId served) ↔
    ∃ candidate, candidates.head? = some candidate ∧ candidate.outcome = .ok () := by
  cases candidates with
  | nil => cases h
  | cons candidate candidates =>
    cases hasked : candidate.outcome with
    | error e =>
      constructor
      · intro hrecorded
        obtain ⟨w, run, hpublished, hdrained, hnot⟩ :=
          exists_runs_not_records requestId apiKeyId candidates hasked served
        exact absurd (hrecorded w run hpublished hdrained) hnot
      · rintro ⟨first, hfirst, hok⟩
        obtain rfl := Option.some.inj hfirst
        rw [hasked] at hok
        cases hok
    | ok a =>
      refine ⟨fun _ ↦ ⟨candidate, rfl, hasked⟩, fun _ w run hpublished hdrained ↦ ?_⟩
      rw [invokeFromCandidates, hasked] at hpublished h
      exact ⟨_, (runs_sound run sound_empty).kept_of_drained hpublished hdrained, rfl,
        Option.some.inj h⟩

/-- A request that its first candidate serves, in a run where its record is settled. -/
theorem first_served_recorded :
    ∃ w, Runs empty w ∧
      w.published = (invokeFromCandidates 1 none [⟨7, "llama".toList, .ok ()⟩]).1 ∧
      w.Records 1 7 := by
  obtain ⟨w, run, hquiet, hpublished, -⟩ :=
    quiet_empty.exists_runs_publish (recordInvocation 1 none ⟨7, "llama".toList, .ok ()⟩ none)
  have hserved : (invokeFromCandidates 1 none [⟨7, "llama".toList, .ok ()⟩]).2 = some 7 := rfl
  have hfilter : w.published.filter (·.requestId = 1) =
      (invokeFromCandidates 1 none [⟨7, "llama".toList, .ok ()⟩]).1 := by
    rw [hpublished]
    rfl
  exact ⟨w, run, hpublished, (served_recorded_iff 1 none hserved).mpr ⟨_, rfl, rfl⟩ w run hfilter
    hquiet.drained⟩

/-- A request that the second candidate serves may stay recorded as one that failed. -/
theorem served_kept_as_failed :
    ¬∀ (requestId : RequestId) (apiKeyId : Option KeyId) (candidates : List Upstream)
      (served : DeploymentId),
      (invokeFromCandidates requestId apiKeyId candidates).2 = some served →
      ∀ w, Runs empty w →
        w.published.filter (·.requestId = requestId) =
          (invokeFromCandidates requestId apiKeyId candidates).1 →
        w.Drained → w.Records requestId served := by
  intro hall
  obtain ⟨w, run, hpublished, hdrained, hnot⟩ :=
    exists_runs_not_records 1 none [⟨7, "llama".toList, .ok ()⟩]
      (rfl : (⟨6, "llama".toList, .error .timeout⟩ : Upstream).outcome = .error .timeout) 7
  exact hnot (hall 1 none _ 7 rfl w run hpublished hdrained)

end GreenCompute
