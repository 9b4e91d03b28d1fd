import GreenCompute.ControlPlane.Advertised

/-!
# Capacity alerts

A customer asks to be told when there is room for so many rentals of so many GPUs of one model. The
alert waits for at most a week; each check counts, machine by machine, how many such rentals the
free GPUs have room for, and fires the alerts whose number is reached.

An alert in the table asks for at least one rental of at least one GPU: `createAlert` lets nothing
else in, and the row carries the proofs. So a check never divides by zero, and where it fires it
has a machine to name.
-/

namespace GreenCompute

abbrev AlertId := ℕ

inductive AlertState where
  | waiting
  | fired
  | expired
  | cancelled
  deriving DecidableEq

/-- A row of `capacity_alerts`. -/
structure CapacityAlert where
  userId : UserId
  gpuModel : Text
  gpuCount : ℕ
  count : ℕ
  state : AlertState
  createdAt : Time
  expiresAt : Time
  firedAt : Option Time
  gpuCount_pos : 0 < gpuCount
  count_pos : 0 < count

/-- What the customer is told when an alert fires. -/
structure CapacityNotice where
  alertId : AlertId
  gpuModel : Text
  gpuCount : ℕ
  count : ℕ
  availableGpus : ℕ
  maxGpusPerDeployment : ℕ
  deriving DecidableEq

namespace CapacityAlerts

def maxWaiting : ℕ := 5
def lifetime : Time := 7 * 86400
def maxGpuCount : ℕ := 8
def maxCount : ℕ := 64

/-! ## Asking -/

/-- `normalize_model`: one of the models that are rented out. -/
def normalizeModel (publicGpuModels : List Text) (raw : Text) : Except Text Text :=
  let model := normalizeGpuModel raw
  let rented := publicGpuModels.map normalizeGpuModel
  if model ∈ rented then .ok model
  else .error ("gpu_model must be a GPU we rent out: ".toList ++ (", ".toList).intercalate rented)

theorem toNat_mem_range {value : ℤ} {top : ℕ} (h : 1 ≤ value ∧ value ≤ top) :
    0 < value.toNat ∧ value.toNat ≤ top := by
  omega

/-- `_int`: a whole number in its range. A value of another type is none. -/
def wholeNumber (value : Option ℤ) (name : Text) (top : ℕ) :
    Except Text { n : ℕ // 0 < n ∧ n ≤ top } :=
  let refusal := name ++ " must be a whole number from 1 to ".toList ++ (toString top).toList
  match value with
  | none => .error refusal
  | some value =>
    if h : 1 ≤ value ∧ value ≤ top then .ok ⟨value.toNat, toNat_mem_range h⟩ else .error refusal

theorem pos_of_range {top : ℕ} (n : { n : ℕ // 0 < n ∧ n ≤ top }) : 0 < n.1 := n.2.1

/-- The alert waits, and its time is up. -/
def overdue (now : Time) (row : CapacityAlert) : Bool := row.state = .waiting ∧ row.expiresAt ≤ now

/-- `_waiting`: the customer's alerts that wait; those whose time is up are marked. -/
def waitingOf (u : UserId) (now : Time) (alerts : Table AlertId CapacityAlert) :
    Table AlertId CapacityAlert × List (AlertId × CapacityAlert) :=
  (alerts.map fun _ row ↦
      if row.userId = u ∧ overdue now row = true then { row with state := .expired } else row,
    alerts.select fun _ row ↦ row.userId = u ∧ row.state = .waiting ∧ now < row.expiresAt)

/-- `create_alert`: a new alert under an identifier, or the same one that waits already. -/
def createAlert (publicGpuModels : List Text) (u : UserId) (gpuModel : Text)
    (gpuCount count : Option ℤ) (now : Time) (id : AlertId)
    (alerts : Table AlertId CapacityAlert) :
    Except Text (Table AlertId CapacityAlert × AlertId) := do
  let model ← normalizeModel publicGpuModels gpuModel
  let gpuCount ← wholeNumber gpuCount "gpu_count".toList maxGpuCount
  let count ← wholeNumber count "count".toList maxCount
  let (alerts, waiting) := waitingOf u now alerts
  match waiting.find? fun row ↦
      row.2.gpuModel = model ∧ row.2.gpuCount = gpuCount.1 ∧ row.2.count = count.1 with
  | some row => pure (alerts, row.1)
  | none =>
    if maxWaiting ≤ waiting.length then
      .error ("at most ".toList ++ (toString maxWaiting).toList ++
        " alerts can wait at once; cancel one first".toList)
    else
      pure (alerts.insert id
        { userId := u
          gpuModel := model
          gpuCount := gpuCount
          count := count
          state := .waiting
          createdAt := now
          expiresAt := now + lifetime
          firedAt := none
          gpuCount_pos := pos_of_range gpuCount
          count_pos := pos_of_range count }, id)

/-- `cancel_alert`: none for an alert that is not the customer's. -/
def cancelAlert (u : UserId) (id : AlertId) (alerts : Table AlertId CapacityAlert) :
    Option (Table AlertId CapacityAlert) :=
  match alerts.get? id with
  | none => none
  | some row =>
    if row.userId ≠ u then none
    else if row.state = .waiting then some (alerts.insert id { row with state := .cancelled })
    else some alerts

/-! ## The check -/

/-- `free_by_model`: the free GPUs of each machine that has any, by model. -/
def freeByModel (capacity : List (NodeCapability × ℕ)) : Table Text (List ℕ) :=
  Table.accumulate (fun machine ↦ normalizeGpuModel machine.1.gpuModel) (fun _ ↦ [])
    (fun machine machines ↦ machines ++ [machine.2]) .empty
    (capacity.filter fun machine ↦ 0 < machine.2)

/-- `_fits`: do the machines have room for `count` rentals of `gpuCount` GPUs, each on one? -/
def fits (freePerMachine : List ℕ) (gpuCount count : ℕ) : Bool :=
  count ≤ (freePerMachine.map (· / gpuCount)).sum

/-- The machines that a check counts for an alert. -/
def machinesFor (free : Table Text (List ℕ)) (row : CapacityAlert) : List ℕ :=
  (free.get? row.gpuModel).getD []

/-- What a check has done. -/
structure AlertCheck where
  alerts : Table AlertId CapacityAlert
  events : List (UserId × CapacityNotice)
  fired : List AlertId
  emails : Table UserId CapacityNotice

/-- One alert of a check: it expires, fires or goes on waiting. A customer gets one mail, about the
alert that asks for most. -/
def checkAlert (free : Table Text (List ℕ)) (now : Time) (check : AlertCheck)
    (row : AlertId × CapacityAlert) : AlertCheck :=
  let (id, alert) := row
  if alert.expiresAt ≤ now then
    { check with alerts := check.alerts.insert id { alert with state := .expired } }
  else if fits (machinesFor free alert) alert.gpuCount alert.count then
    let machines := machinesFor free alert
    let data : CapacityNotice :=
      { alertId := id
        gpuModel := alert.gpuModel
        gpuCount := alert.gpuCount
        count := alert.count
        availableGpus := machines.sum
        maxGpusPerDeployment := machines.foldr max 0 }
    { alerts := check.alerts.insert id { alert with state := .fired, firedAt := some now }
      events := check.events ++ [(alert.userId, data)]
      fired := check.fired ++ [id]
      emails :=
        if (check.emails.get? alert.userId).all
            fun best ↦ best.gpuCount * best.count < alert.gpuCount * alert.count then
          check.emails.insert alert.userId data
        else check.emails }
  else check

/-- `check_once`: every alert that waits, customer by customer and the oldest first. -/
def checkOnce (free : Table Text (List ℕ)) (now : Time) (alerts : Table AlertId CapacityAlert) :
    AlertCheck :=
  let rows := (alerts.select fun _ row ↦ row.state = .waiting).insertionSort fun a b ↦
    a.2.userId < b.2.userId ∨ a.2.userId = b.2.userId ∧ a.2.createdAt ≤ b.2.createdAt
  rows.foldl (checkAlert free now) ⟨alerts, [], [], .empty⟩

/-! ## What a check fires -/

variable {free : Table Text (List ℕ)} {now : Time} {alerts : Table AlertId CapacityAlert}
  {id : AlertId}

/-- The machines of a model, as the check counts them. -/
theorem machines_freeByModel (capacity : List (NodeCapability × ℕ)) (model : Text) :
    ((freeByModel capacity).get? model).getD [] =
      ((capacity.filter fun machine ↦ normalizeGpuModel machine.1.gpuModel = model).map
        Prod.snd).filter (0 < ·) := by
  have happend (rows : List (NodeCapability × ℕ)) (machines : List ℕ) :
      rows.foldl (fun machines machine ↦ machines ++ [machine.2]) machines =
        machines ++ rows.map Prod.snd := by
    induction rows generalizing machines with
    | nil => exact (List.append_nil _).symm
    | cons row rows ih =>
      rw [List.foldl_cons, ih, List.map_cons, List.append_assoc, List.singleton_append]
  rw [freeByModel, Table.getD_accumulate, Table.get?_empty, Option.getD_none, happend,
    List.nil_append, List.filter_map, List.filter_filter, List.filter_filter]
  refine congrArg _ (List.filter_congr fun machine _ ↦ ?_)
  exact Bool.and_comm _ _

/-- A machine with nothing free has room for nothing. -/
theorem sum_div_filter_pos (machines : List ℕ) (k : ℕ) :
    ((machines.filter (0 < ·)).map (· / k)).sum = (machines.map (· / k)).sum := by
  induction machines with
  | nil => rfl
  | cons free machines ih =>
    rw [List.filter_cons, List.map_cons, List.sum_cons]
    split_ifs with hfree
    · rw [List.map_cons, List.sum_cons, ih]
    · have hzero : free = 0 := by simpa using hfree
      rw [ih, hzero, Nat.zero_div, Nat.zero_add]

/-- One alert is added to those that fired where its time is not up and it fits. -/
theorem fired_checkAlert (check : AlertCheck) (row : AlertId × CapacityAlert) :
    (checkAlert free now check row).fired = check.fired ++
      if now < row.2.expiresAt ∧ fits (machinesFor free row.2) row.2.gpuCount row.2.count = true
      then [row.1] else [] := by
  obtain ⟨id, alert⟩ := row
  rw [checkAlert]
  by_cases hexpired : alert.expiresAt ≤ now
  · rw [if_pos hexpired, if_neg fun h ↦ absurd h.1 (not_lt.mpr hexpired), List.append_nil]
  · rw [if_neg hexpired]
    by_cases hfits : fits (machinesFor free alert) alert.gpuCount alert.count = true
    · rw [if_pos hfits, if_pos ⟨not_le.mp hexpired, hfits⟩]
    · rw [if_neg hfits, if_neg fun h ↦ hfits h.2, List.append_nil]

/-- **What a check fires**: the alerts that wait, whose time is not up and whose number of rentals
fits on the machines of their model. -/
theorem mem_fired_checkOnce : id ∈ (checkOnce free now alerts).fired ↔
    ∃ alert, alerts.get? id = some alert ∧ alert.state = .waiting ∧ now < alert.expiresAt ∧
      fits (machinesFor free alert) alert.gpuCount alert.count = true := by
  have hfold (rows : List (AlertId × CapacityAlert)) (check : AlertCheck) :
      id ∈ (rows.foldl (checkAlert free now) check).fired ↔
        id ∈ check.fired ∨ ∃ row ∈ rows, row.1 = id ∧ now < row.2.expiresAt ∧
          fits (machinesFor free row.2) row.2.gpuCount row.2.count = true := by
    induction rows generalizing check with
    | nil => simp
    | cons row rows ih =>
      rw [List.foldl_cons, ih, fired_checkAlert, List.mem_append, or_assoc]
      simp only [List.mem_cons, or_and_right, exists_or, exists_eq_left]
      refine or_congr_right (or_congr_left ?_)
      split_ifs with hfires
      · rw [List.mem_singleton, and_iff_left hfires]
        exact eq_comm
      · exact iff_of_false List.not_mem_nil fun h ↦ hfires h.2
  rw [checkOnce, hfold, or_iff_right List.not_mem_nil]
  constructor
  · rintro ⟨row, hmem, rfl, hfires⟩
    obtain ⟨hrow, hwaiting⟩ := Table.mem_select.mp ((List.mem_insertionSort _).mp hmem)
    exact ⟨row.2, hrow, of_decide_eq_true hwaiting, hfires⟩
  · rintro ⟨alert, hrow, hwaiting, hfires⟩
    refine ⟨(id, alert), (List.mem_insertionSort _).mpr ?_, rfl, hfires⟩
    exact Table.mem_select.mpr ⟨hrow, decide_eq_true hwaiting⟩

end CapacityAlerts

end GreenCompute
