import GreenCompute.ControlPlane.Resuming
import Mathlib.Algebra.Order.Archimedean.Basic
import Mathlib.Algebra.Order.Floor.Semifield

/-!
# What it costs to keep a suspended rental

The worker's loop runs once in a poll interval, and once in so many rounds it charges every saved
rental a minute's storage. The number of rounds is worked out from the interval, so a charge stands
for a minute only where that many intervals make one. A new process begins to count anew.

`charged_by_the_clock_iff` says for which intervals a rental is never charged more than once a minute
in the runs in which no process is replaced while it sleeps after a round of charges.
-/

namespace GreenCompute

open ControlPlaneRepository

/-- `_metering_interval`: how many rounds there are from one round of charges to the next. -/
def meteringInterval (interval : Time) : ℕ := max 1 ⌊60 / max 1 interval⌋₊

/-- The tables, and the worker's loop: how many rounds it has made since the last charges, and when
it is through with its sleep. Each charge that was made is noted with its time. -/
structure StorageWorld where
  tables : ResumeWorld
  meteringCounter : ℕ
  awakeAt : Time
  charged : List (DeploymentId × Time)

namespace StorageWorld

variable (w : StorageWorld) (terms : StorageTerms) (interval : Time)

/-- The clock. -/
def now : Time := w.tables.fleet.now

/-- One turn of the loop of `meter_pod_storage`. -/
def chargeOne (d : DeploymentId) (record : DeploymentRecord) : StorageWorld :=
  { w with
    tables := w.tables.storageOne terms d record
    charged := if w.tables.fleet.storageDue record then w.charged ++ [(d, w.now)] else w.charged }

/-- The loop of `meter_pod_storage`. -/
def chargeEach : Rows → StorageWorld → StorageWorld
  | [], w => w
  | (d, record) :: rows, w => chargeEach rows (w.chargeOne terms d record)

/-- `meter_pod_storage` -/
def meterPodStorage : StorageWorld :=
  if terms.podStorageBillingEnabled then
    chargeEach terms (listDeploymentsByState .suspended w.tables.fleet) w
  else w

/-- A round of `_control_plane_worker_loop`, as far as it is about storage, and the sleep after it.
What raises before the meters ends the round. -/
def iterate (raised : Bool) : StorageWorld :=
  let w := { w with awakeAt := w.now + interval }
  if raised then w
  else if meteringInterval interval ≤ w.meteringCounter + 1 then
    { w with meteringCounter := 0 }.meterPodStorage terms
  else { w with meteringCounter := w.meteringCounter + 1 }

/-- How often a rental has been charged. -/
def charges (d : DeploymentId) : ℕ := w.charged.countP fun charge ↦ charge.1 = d

/-- The rental is suspended and saved. -/
def Saves (d : DeploymentId) : Prop :=
  ∃ record, w.tables.fleet.record d = some record ∧ record.state = .suspended ∧
    record.saveOnExhaustion = true

end StorageWorld

/-- What can happen: anything is asked of the control plane or time passes, the loop makes a round,
or a new process takes the place of the worker's. -/
inductive StorageOp where
  | call (c : FleetCall)
  | iterate (raised : Bool)
  | restart

namespace StorageOp

/-- What it does. -/
def exec (settings : Settings) (protocol : Protocol) (terms : StorageTerms) (interval : Time) :
    StorageOp → StorageWorld → StorageWorld
  | call c, w =>
    { w with tables := w.tables.move ((controlPlane settings protocol).after c w.tables.fleet) }
  | iterate raised, w => w.iterate terms interval raised
  | restart, w => { w with meteringCounter := 0, awakeAt := w.now }

/-- The loop makes no round while it sleeps. -/
def Possible : StorageOp → StorageWorld → Prop
  | iterate _, w => w.awakeAt ≤ w.now
  | _, _ => True

/-- No process is replaced while it sleeps after a round of charges. -/
def Unhurried : StorageOp → StorageWorld → Prop
  | restart, w => w.meteringCounter = 0 → w.awakeAt ≤ w.now
  | _, _ => True

end StorageOp

/-- A process that has not made a round yet. -/
def StorageWorld.Started (w : StorageWorld) : Prop := w.meteringCounter = 0 ∧ w.awakeAt ≤ w.now

/-- In every run whose steps meet a condition, from when a process is started on: while a rental is
suspended and saved, it is charged at most once a minute, and once more. -/
def ChargedByTheClock (interval : Time) (G : StorageOp → StorageWorld → Prop) : Prop :=
  ∀ (settings : Settings) (protocol : Protocol) (terms : StorageTerms) (d : DeploymentId)
    (w₀ w w' : StorageWorld), w₀.Started →
      Steps (StorageOp.exec settings protocol terms interval)
        (fun o w ↦ o.Possible w ∧ G o w) w₀ w →
      Steps (StorageOp.exec settings protocol terms interval)
        (fun o w ↦ (o.Possible w ∧ G o w) ∧ w.Saves d) w w' →
        (w'.charges d - w.charges d : ℚ) ≤ (w'.now - w.now) / 60 + 1

/-- So many intervals are at least a minute. -/
def WholeMinutes (interval : Time) : Prop :=
  60 ≤ interval ∨ 1 ≤ interval ∧ ∃ n : ℕ, n * interval = 60

/-! ## A round of charges -/

/-- Another state of the billing tables, and no other time. -/
def SameTables (s s' : Fleet) : Prop :=
  ∃ billing : Db, s' = { s with billing := billing } ∧ billing.now = s.billing.now

theorem SameTables.refl (s : Fleet) : SameTables s s := ⟨s.billing, rfl, rfl⟩

theorem SameTables.trans {s s' s'' : Fleet} (h : SameTables s s') (h' : SameTables s' s'') :
    SameTables s s'' := by
  obtain ⟨b, rfl, hb⟩ := h
  obtain ⟨b', rfl, hb'⟩ := h'
  exact ⟨b', rfl, hb'.trans hb⟩

theorem SameTables.now {s s' : Fleet} (h : SameTables s s') : s'.now = s.now := by
  obtain ⟨b, rfl, hb⟩ := h
  exact hb

theorem SameTables.record {s s' : Fleet} (h : SameTables s s') (d : DeploymentId) :
    s'.record d = s.record d := by
  obtain ⟨b, rfl, -⟩ := h
  rfl

theorem SameTables.storageDue {s s' : Fleet} (h : SameTables s s') (record : DeploymentRecord) :
    s'.storageDue record = s.storageDue record := by
  obtain ⟨b, rfl, -⟩ := h
  rfl

theorem now_debitUser (u : UserId) (amount : ℤ) (kind : LedgerKind) (reference : Option Reference)
    (db : Db) :
    (BillingRepository.debitUser u amount kind reference true db).1.now = db.now := by
  rw [BillingRepository.debitUser]
  cases db.users.get? u with
  | none => rfl
  | some row => rfl

/-- A charge for storage changes the balance of the owner. -/
theorem sameTables_storageOne (terms : StorageTerms) (t : ResumeWorld) (d : DeploymentId)
    (record : DeploymentRecord) : SameTables t.fleet (t.storageOne terms d record).fleet := by
  rw [ResumeWorld.storageOne]
  cases record.ownerUserId with
  | none => exact .refl _
  | some owner =>
    dsimp only
    split
    · have hnoted : (t.noteHarm d).fleet = t.fleet := by
        rw [ResumeWorld.noteHarm]
        split <;> rfl
      have haccrued : ((t.noteHarm d).accrueStorage d terms.storageMcentsPerMinute).1.fleet =
          t.fleet := by
        rw [ResumeWorld.accrueStorage]
        split
        · exact hnoted
        · exact hnoted
      generalize (t.noteHarm d).accrueStorage d terms.storageMcentsPerMinute = accrued at haccrued ⊢
      rw [← haccrued]
      split
      · exact .refl _
      · exact ⟨_, rfl, now_debitUser _ _ _ _ _⟩
    · exact .refl _

namespace StorageWorld

variable {w : StorageWorld} {terms : StorageTerms} {interval : Time} {d : DeploymentId}

/-- What a round of charges leaves as it is. -/
structure Kept (w w' : StorageWorld) : Prop where
  tables : SameTables w.tables.fleet w'.tables.fleet
  meteringCounter : w'.meteringCounter = w.meteringCounter
  awakeAt : w'.awakeAt = w.awakeAt

theorem Kept.refl (w : StorageWorld) : w.Kept w := ⟨.refl _, rfl, rfl⟩

theorem Kept.trans {w' w'' : StorageWorld} (h : w.Kept w') (h' : w'.Kept w'') : w.Kept w'' :=
  ⟨h.tables.trans h'.tables, h'.meteringCounter.trans h.meteringCounter,
    h'.awakeAt.trans h.awakeAt⟩

theorem kept_chargeOne (d : DeploymentId) (record : DeploymentRecord) :
    w.Kept (w.chargeOne terms d record) :=
  ⟨sameTables_storageOne terms w.tables d record, rfl, rfl⟩

theorem kept_chargeEach (rows : Rows) : w.Kept (chargeEach terms rows w) := by
  induction rows generalizing w with
  | nil => exact .refl w
  | cons r rows ih => exact (kept_chargeOne r.1 r.2).trans ih

theorem charges_chargeOne (d' : DeploymentId) (record : DeploymentRecord) :
    (w.chargeOne terms d' record).charges d =
      w.charges d + if w.tables.fleet.storageDue record ∧ d' = d then 1 else 0 := by
  rw [charges, chargeOne, charges]
  by_cases hdue : w.tables.fleet.storageDue record = true
  · rw [if_pos hdue, List.countP_append, List.countP_singleton]
    by_cases hd : d' = d
    · rw [if_pos (decide_eq_true hd), if_pos ⟨hdue, hd⟩]
    · rw [if_neg (by simpa using hd), if_neg fun h ↦ hd h.2]
  · rw [if_neg hdue, if_neg fun h ↦ hdue h.1, Nat.add_zero]

theorem charges_chargeEach_of_notMem {rows : Rows} (h : d ∉ rows.map Prod.fst) :
    (chargeEach terms rows w).charges d = w.charges d := by
  induction rows generalizing w with
  | nil => rfl
  | cons r rows ih =>
    rw [List.map_cons, List.mem_cons, not_or] at h
    rw [chargeEach, ih h.2, charges_chargeOne, if_neg fun hboth ↦ h.1 hboth.2.symm, Nat.add_zero]

/-- Each rental is charged once, if at all. -/
theorem charges_chargeEach {rows : Rows} (h : (rows.map Prod.fst).Nodup) (d : DeploymentId) :
    ∃ more ≤ 1, (chargeEach terms rows w).charges d = w.charges d + more := by
  induction rows generalizing w with
  | nil => exact ⟨0, Nat.zero_le 1, rfl⟩
  | cons r rows ih =>
    rw [List.map_cons, List.nodup_cons] at h
    rw [chargeEach]
    by_cases hd : r.1 = d
    · rw [charges_chargeEach_of_notMem (hd ▸ h.1), charges_chargeOne]
      refine ⟨_, ?_, rfl⟩
      split
      · exact le_rfl
      · exact Nat.zero_le 1
    · obtain ⟨more, hmore, hrest⟩ := ih h.2 (w := w.chargeOne terms r.1 r.2)
      rw [charges_chargeOne, if_neg fun hboth ↦ hd hboth.2, Nat.add_zero] at hrest
      exact ⟨more, hmore, hrest⟩

theorem kept_meterPodStorage : w.Kept (w.meterPodStorage terms) := by
  rw [meterPodStorage]
  split
  · exact kept_chargeEach _
  · exact .refl w

theorem charges_meterPodStorage (w : StorageWorld) (terms : StorageTerms) (d : DeploymentId) :
    ∃ more ≤ 1, (w.meterPodStorage terms).charges d = w.charges d + more := by
  rw [meterPodStorage]
  split
  · exact charges_chargeEach (nodup_listDeploymentsByState _ _) d
  · exact ⟨0, Nat.zero_le 1, rfl⟩

/-! ## The pace of the rounds -/

/-- The earliest time of the next round of charges, if no process is replaced before. -/
def due (w : StorageWorld) (interval : Time) : Time :=
  max w.now w.awakeAt + (meteringInterval interval - 1 - w.meteringCounter : ℕ) * interval

/-- The loop has not yet made the round that charges, and sleeps for an interval at most. -/
structure Paced (w : StorageWorld) (interval : Time) : Prop where
  counter : w.meteringCounter < meteringInterval interval
  asleep : w.awakeAt ≤ w.now + interval

theorem meteringInterval_pos (interval : Time) : 0 < meteringInterval interval :=
  lt_of_lt_of_le Nat.one_pos (le_max_left _ _)

theorem Started.paced (h : w.Started) (hpos : 0 < interval) : w.Paced interval := by
  obtain ⟨hcounter, hawake⟩ := h
  refine ⟨hcounter.symm ▸ meteringInterval_pos interval, ?_⟩
  linarith

variable {settings : Settings} {protocol : Protocol} {w' : StorageWorld}

theorem now_iterate (raised : Bool) : (w.iterate terms interval raised).now = w.now := by
  rw [iterate]
  dsimp only
  split
  · rfl
  · split
    · exact (kept_meterPodStorage
        (w := { w with awakeAt := w.now + interval, meteringCounter := 0 })).tables.now
    · rfl

theorem now_le_exec (o : StorageOp) : w.now ≤ (o.exec settings protocol terms interval w).now := by
  cases o with
  | call c => exact now_le_after settings protocol c w.tables.fleet
  | iterate raised => exact (now_iterate raised).ge
  | restart => exact le_rfl

/-- What a round makes of the loop: it has raised, or counted, or charged. -/
inductive Round (w : StorageWorld) (terms : StorageTerms) (interval : Time) : StorageWorld → Prop
  | raised : Round w terms interval { w with awakeAt := w.now + interval }
  | counted (more : w.meteringCounter + 1 < meteringInterval interval) :
      Round w terms interval
        { w with awakeAt := w.now + interval, meteringCounter := w.meteringCounter + 1 }
  | charged {w' : StorageWorld} (done : meteringInterval interval ≤ w.meteringCounter + 1)
      (now : w'.now = w.now) (counter : w'.meteringCounter = 0)
      (awake : w'.awakeAt = w.now + interval)
      (charges : ∀ d, ∃ more ≤ 1, w'.charges d = w.charges d + more) : Round w terms interval w'

theorem round_iterate (raised : Bool) : w.Round terms interval
    (w.iterate terms interval raised) := by
  rw [iterate]
  dsimp only
  cases raised with
  | true => exact .raised
  | false =>
    by_cases hdone : meteringInterval interval ≤ w.meteringCounter + 1
    · rw [if_neg Bool.false_ne_true, if_pos hdone]
      have hkept : StorageWorld.Kept _ (meterPodStorage _ terms) := kept_meterPodStorage
        (w := { w with awakeAt := w.now + interval, meteringCounter := 0 })
      exact .charged hdone hkept.tables.now hkept.meteringCounter hkept.awakeAt
        (charges_meterPodStorage _ terms)
    · rw [if_neg Bool.false_ne_true, if_neg hdone]
      exact .counted (not_le.mp hdone)

theorem Paced.exec (h : w.Paced interval) (hpos : 0 < interval) (o : StorageOp) :
    (o.exec settings protocol terms interval w).Paced interval := by
  have hmoved : w.now ≤ (o.exec settings protocol terms interval w).now := now_le_exec o
  cases o with
  | call c =>
    have hasleep : w.awakeAt ≤ w.now + interval := h.asleep
    exact ⟨h.counter, hasleep.trans (add_le_add_left hmoved interval)⟩
  | restart =>
    refine ⟨meteringInterval_pos interval, ?_⟩
    change w.now ≤ w.now + interval
    linarith
  | iterate raised =>
    change (w.iterate terms interval raised).Paced interval
    have hround : w.Round terms interval (w.iterate terms interval raised) := round_iterate raised
    generalize w.iterate terms interval raised = v at hround ⊢
    cases hround with
    | raised => exact ⟨h.counter, le_rfl⟩
    | counted more => exact ⟨more, le_rfl⟩
    | charged done now counter awake charges =>
      exact ⟨counter ▸ meteringInterval_pos interval, (awake.trans (now ▸ rfl)).le⟩

/-- Since a time there have been so many charges of a rental, and the next is not due until as many
minutes after it. -/
structure Timed (w : StorageWorld) (interval start : Time) (count : ℕ) : Prop where
  later : start ≤ w.now
  last : count ≠ 0 → start + 60 * (count - 1 : ℚ) ≤ w.now
  next : count ≠ 0 → start + 60 * count ≤ w.due interval

/-- Where nothing is charged and no round comes sooner, the charges stay timed. -/
theorem Timed.of_later {start : Time} {count : ℕ} (h : w.Timed interval start count)
    (hnow : w.now ≤ w'.now) (hdue : w.due interval ≤ w'.due interval) :
    w'.Timed interval start count :=
  ⟨h.later.trans hnow, fun hc ↦ (h.last hc).trans hnow, fun hc ↦ (h.next hc).trans hdue⟩

theorem due_le_of_later (hnow : w.now ≤ w'.now) (hcounter : w'.meteringCounter = w.meteringCounter)
    (hawake : w.awakeAt ≤ max w'.now w'.awakeAt) : w.due interval ≤ w'.due interval := by
  rw [due, due, hcounter]
  exact add_le_add_left (max_le (hnow.trans (le_max_left _ _)) hawake) _

/-- The rounds that are left, less one. -/
theorem rounds_left {count : ℕ} (h : count + 1 < meteringInterval interval) :
    ((meteringInterval interval - 1 - count : ℕ) : ℚ) =
      (meteringInterval interval - 1 - (count + 1) : ℕ) + 1 := by
  have hnat : meteringInterval interval - 1 - count =
      meteringInterval interval - 1 - (count + 1) + 1 := by omega
  rw [hnat, Nat.cast_add, Nat.cast_one]

/-- Where so many intervals make a minute, a step that is not hurried keeps the charges timed. -/
theorem Timed.exec {start : Time} {count : ℕ} (h : w.Timed interval start count)
    (hpaced : w.Paced interval) (hpos : 0 < interval)
    (hwhole : 60 ≤ (meteringInterval interval : ℚ) * interval) {o : StorageOp}
    (hpossible : o.Possible w) (hunhurried : o.Unhurried w) (d : DeploymentId) :
    ∃ more, (o.exec settings protocol terms interval w).charges d = w.charges d + more ∧
      (o.exec settings protocol terms interval w).Timed interval start (count + more) := by
  have hmoved : w.now ≤ (o.exec settings protocol terms interval w).now := now_le_exec o
  cases o with
  | call c =>
    exact ⟨0, rfl, h.of_later hmoved (due_le_of_later hmoved rfl (le_max_right _ _))⟩
  | restart =>
    refine ⟨0, rfl, h.of_later le_rfl ?_⟩
    change max w.now w.awakeAt + _ ≤ max w.now w.now + ((meteringInterval interval - 1 - 0 : ℕ) : ℚ) *
      interval
    rw [max_self, Nat.sub_zero]
    rcases Nat.eq_zero_or_pos w.meteringCounter with hzero | hsome
    · -- The sleep after a round of charges is over.
      rw [hzero, Nat.sub_zero, max_eq_left (hunhurried hzero)]
    · have hless : (((meteringInterval interval - 1 - w.meteringCounter : ℕ) : ℚ) + 1) * interval ≤
          ((meteringInterval interval - 1 : ℕ) : ℚ) * interval := by
        refine mul_le_mul_of_nonneg_right ?_ hpos.le
        have hcounter := hpaced.counter
        have hnat : meteringInterval interval - 1 - w.meteringCounter + 1 ≤
            meteringInterval interval - 1 := by omega
        exact_mod_cast hnat
      have hlate : max w.now w.awakeAt ≤ w.now + interval :=
        max_le (le_add_of_nonneg_right hpos.le) hpaced.asleep
      linarith
  | iterate raised =>
    have hawake : w.awakeAt ≤ w.now := hpossible
    have hlong : w.now ≤ w.now + interval := le_add_of_nonneg_right hpos.le
    change ∃ more, (w.iterate terms interval raised).charges d = w.charges d + more ∧
      (w.iterate terms interval raised).Timed interval start (count + more)
    have hround : w.Round terms interval (w.iterate terms interval raised) := round_iterate raised
    generalize w.iterate terms interval raised = v at hround ⊢
    cases hround with
    | raised =>
      refine ⟨0, rfl, h.of_later le_rfl (due_le_of_later le_rfl rfl ?_)⟩
      exact hawake.trans (le_max_left _ _)
    | counted more =>
      refine ⟨0, rfl, h.of_later le_rfl ?_⟩
      change max w.now w.awakeAt + _ ≤ max w.now (w.now + interval) +
        ((meteringInterval interval - 1 - (w.meteringCounter + 1) : ℕ) : ℚ) * interval
      rw [max_eq_left hawake, max_eq_right hlong, rounds_left more]
      linarith
    | charged done now counter awake charges =>
      obtain ⟨more, hmore, hcharges⟩ := charges d
      have hdue : w.due interval = w.now := by
        have hzero : meteringInterval interval - 1 - w.meteringCounter = 0 := by omega
        rw [due, hzero, Nat.cast_zero, zero_mul, add_zero, max_eq_left hawake]
      have hnext : w.now + 60 ≤ v.due interval := by
        have hrounds : ((meteringInterval interval - 1 : ℕ) : ℚ) + 1 = meteringInterval interval := by
          have := meteringInterval_pos interval
          exact_mod_cast Nat.sub_add_cancel this
        rw [due, counter, Nat.sub_zero, now, awake, max_eq_right hlong]
        have hall : w.now + interval + ((meteringInterval interval - 1 : ℕ) : ℚ) * interval =
            w.now + meteringInterval interval * interval := by
          rw [← hrounds]
          ring
        linarith
      have hsince : start + 60 * count ≤ w.now := by
        rcases Nat.eq_zero_or_pos count with rfl | hsome
        · simpa using h.later
        · exact (h.next hsome.ne').trans hdue.le
      refine ⟨more, hcharges, h.later.trans now.ge, fun _ ↦ ?_, fun _ ↦ ?_⟩
      · have hle : ((count + more : ℕ) : ℚ) ≤ count + 1 := by
          exact_mod_cast Nat.add_le_add_left hmore _
        rw [now]
        linarith
      · have hle : ((count + more : ℕ) : ℚ) ≤ count + 1 := by
          exact_mod_cast Nat.add_le_add_left hmore _
        linarith

/-! ## Runs at the pace of the clock -/

/-- The rounds from one round of charges to the next take a minute exactly where so many intervals
are a minute. -/
theorem sixty_le_meteringInterval_mul_iff (hpos : 0 < interval) :
    60 ≤ (meteringInterval interval : ℚ) * interval ↔ WholeMinutes interval := by
  rw [WholeMinutes, meteringInterval]
  rcases lt_or_ge interval 1 with hfast | hslow
  · have hsixty : max 1 ⌊(60 : ℚ) / max 1 interval⌋₊ = 60 := by
      rw [max_eq_left hfast.le]
      norm_num
    rw [hsixty]
    constructor
    · intro h
      push_cast at h
      linarith
    · rintro (h | h)
      · linarith
      · linarith [h.1]
  · rw [max_eq_right hslow]
    rcases le_or_gt 60 interval with hlong | hshort
    · refine ⟨fun _ ↦ .inl hlong, fun _ ↦ ?_⟩
      have hone : (1 : ℚ) ≤ (max 1 ⌊60 / interval⌋₊ : ℕ) := by exact_mod_cast le_max_left _ _
      calc (60 : ℚ) ≤ 1 * interval := by linarith
        _ ≤ _ := mul_le_mul_of_nonneg_right hone hpos.le
    · have hatleast : 1 ≤ ⌊60 / interval⌋₊ := by
        rw [Nat.one_le_floor_iff, le_div_iff₀ hpos]
        linarith
      rw [max_eq_right hatleast]
      have hmost : (⌊60 / interval⌋₊ : ℚ) * interval ≤ 60 := by
        rw [← le_div_iff₀ hpos]
        exact Nat.floor_le (div_nonneg (by norm_num) hpos.le)
      constructor
      · intro h
        exact .inr ⟨hslow, _, le_antisymm hmost h⟩
      · rintro (h | ⟨-, n, hn⟩)
        · linarith
        · have hfloor : (60 : ℚ) / interval = n := by
            rw [← hn, mul_div_assoc, div_self hpos.ne', mul_one]
          rw [hfloor, Nat.floor_natCast]
          exact hn.ge

/-- Where so many intervals are a minute, the charges keep to the clock. -/
theorem chargedByTheClock_of_wholeMinutes (hpos : 0 < interval) (h : WholeMinutes interval) :
    ChargedByTheClock interval StorageOp.Unhurried := by
  intro settings protocol terms d w₀ w w' hstarted hbefore hafter
  have hwhole := (sixty_le_meteringInterval_mul_iff hpos).mpr h
  have hpaced : w.Paced interval :=
    hbefore.invariant (P := fun w ↦ w.Paced interval) (fun o _ hp _ ↦ hp.exec hpos o)
      (hstarted.paced hpos)
  obtain ⟨-, count, hcount, htimed⟩ := hafter.invariant
    (P := fun v ↦ v.Paced interval ∧ ∃ count, v.charges d = w.charges d + count ∧
      v.Timed interval w.now count)
    (fun o v hv hstep ↦ by
      obtain ⟨hpaced, count, hcount, htimed⟩ := hv
      obtain ⟨more, hmore, hnext⟩ :=
        htimed.exec hpaced hpos hwhole hstep.1.1 hstep.1.2 d
      refine ⟨hpaced.exec hpos o, count + more, ?_, hnext⟩
      rw [hmore, hcount, Nat.add_assoc])
    ⟨hpaced, 0, rfl, ⟨le_rfl, fun h ↦ absurd rfl h, fun h ↦ absurd rfl h⟩⟩
  have hcharges : (w'.charges d - w.charges d : ℚ) = count := by
    rw [hcount, Nat.cast_add, add_sub_cancel_left]
  rw [hcharges]
  rcases Nat.eq_zero_or_pos count with rfl | hsome
  · have hlater := htimed.later
    rw [Nat.cast_zero]
    have hspan : 0 ≤ (w'.now - w.now) / 60 := div_nonneg (sub_nonneg.mpr hlater) (by norm_num)
    linarith
  · have hlast := htimed.last hsome.ne'
    rw [← sub_le_iff_le_add, le_div_iff₀ (by norm_num : (0 : ℚ) < 60)]
    linarith

/-! ## A run of rounds without a pause -/

/-- The loop is about to make a round, and would charge the rental for its storage. -/
structure Storing (w : StorageWorld) (d : DeploymentId) (record : DeploymentRecord) : Prop where
  awake : w.awakeAt ≤ w.now
  held : w.tables.fleet.record d = some record
  suspended : record.state = .suspended
  due : w.tables.fleet.storageDue record = true

variable {record : DeploymentRecord}

theorem Storing.saves (h : w.Storing d record) : w.Saves d := by
  have hdue := h.due
  rw [Fleet.storageDue] at hdue
  simp only [Bool.and_eq_true] at hdue
  exact ⟨record, h.held, h.suspended, hdue.1.1.2⟩

theorem charges_chargeEach_of_mem {rows : Rows} (h : (rows.map Prod.fst).Nodup)
    (hmem : (d, record) ∈ rows) (hdue : w.tables.fleet.storageDue record = true) :
    (chargeEach terms rows w).charges d = w.charges d + 1 := by
  induction rows generalizing w with
  | nil => cases hmem
  | cons r rows ih =>
    rw [List.map_cons, List.nodup_cons] at h
    rw [chargeEach]
    rcases List.mem_cons.mp hmem with rfl | hrest
    · rw [charges_chargeEach_of_notMem h.1, charges_chargeOne, if_pos ⟨hdue, rfl⟩]
    · have hother : r.1 ≠ d := fun hd ↦ h.1 (hd ▸ List.mem_map_of_mem hrest)
      have hkept : w.Kept (w.chargeOne terms r.1 r.2) := kept_chargeOne r.1 r.2
      rw [ih h.2 hrest ((hkept.tables.storageDue record).trans hdue), charges_chargeOne,
        if_neg fun hboth ↦ hother hboth.2, Nat.add_zero]

theorem charges_meterPodStorage_of_due (held : w.tables.fleet.record d = some record)
    (suspended : record.state = .suspended) (due : w.tables.fleet.storageDue record = true)
    (henabled : terms.podStorageBillingEnabled = true) :
    (w.meterPodStorage terms).charges d = w.charges d + 1 := by
  rw [meterPodStorage, if_pos henabled]
  exact charges_chargeEach_of_mem (nodup_listDeploymentsByState _ _)
    (mem_listDeploymentsByState.mpr ⟨held, suspended⟩) due

theorem Storing.of_kept {v : StorageWorld} (h : w.Storing d record)
    (hkept : SameTables w.tables.fleet v.tables.fleet) :
    v.tables.fleet.record d = some record ∧ v.tables.fleet.storageDue record = true :=
  ⟨(hkept.record d).trans h.held, (hkept.storageDue record).trans h.due⟩

/-- The steps of a run in which a rental is saved all along. -/
abbrev Saving (settings : Settings) (protocol : Protocol) (terms : StorageTerms) (interval : Time)
    (d : DeploymentId) : StorageWorld → StorageWorld → Prop :=
  Steps (StorageOp.exec settings protocol terms interval)
    fun o w ↦ (o.Possible w ∧ o.Unhurried w) ∧ w.Saves d

/-- A round, and the sleep after it. -/
theorem Storing.round (h : w.Storing d record) (settings : Settings) (protocol : Protocol)
    (henabled : terms.podStorageBillingEnabled = true) (hpos : 0 < interval) :
    ∃ w', Saving settings protocol terms interval d w w' ∧ w'.Storing d record ∧
      w'.now = w.now + interval ∧
      if meteringInterval interval ≤ w.meteringCounter + 1 then
        w'.meteringCounter = 0 ∧ w'.charges d = w.charges d + 1
      else w'.meteringCounter = w.meteringCounter + 1 ∧ w'.charges d = w.charges d := by
  -- What the round makes of the world.
  obtain ⟨v, hv, hkept, hawake, hcounts⟩ : ∃ v, w.iterate terms interval false = v ∧
      SameTables w.tables.fleet v.tables.fleet ∧ v.awakeAt = w.now + interval ∧
      if meteringInterval interval ≤ w.meteringCounter + 1 then
        v.meteringCounter = 0 ∧ v.charges d = w.charges d + 1
      else v.meteringCounter = w.meteringCounter + 1 ∧ v.charges d = w.charges d := by
    refine ⟨_, rfl, ?_⟩
    rw [iterate]
    dsimp only
    by_cases hdone : meteringInterval interval ≤ w.meteringCounter + 1
    · rw [if_neg Bool.false_ne_true, if_pos hdone, if_pos hdone]
      have hkept : StorageWorld.Kept _ (meterPodStorage _ terms) := kept_meterPodStorage
        (w := { w with awakeAt := w.now + interval, meteringCounter := 0 })
      exact ⟨hkept.tables, hkept.awakeAt, hkept.meteringCounter,
        charges_meterPodStorage_of_due h.held h.suspended h.due henabled⟩
    · rw [if_neg Bool.false_ne_true, if_neg hdone, if_neg hdone]
      exact ⟨.refl _, rfl, rfl, rfl⟩
  have hstored := h.of_kept hkept
  have hnow : v.now = w.now := hkept.now
  have hsaved : v.Saves d := by
    obtain ⟨saved, hrecord, hsaved⟩ := h.saves
    exact ⟨saved, (hkept.record d).trans hrecord, hsaved⟩
  let w' := StorageOp.exec settings protocol terms interval (.call (.advance interval)) v
  have hlater : w'.now = w.now + interval := by
    have hmoved : w'.now = v.now + max 0 interval := rfl
    rw [hmoved, hnow, max_eq_right hpos.le]
  have hround : Saving settings protocol terms interval d w v :=
    .single ⟨.iterate false, ⟨⟨h.awake, trivial⟩, h.saves⟩, hv.symm⟩
  refine ⟨w', hround.tail ⟨.call (.advance interval), ⟨⟨trivial, trivial⟩, hsaved⟩, rfl⟩, ?_,
    hlater, hcounts⟩
  exact ⟨(hawake.trans hlater.symm).le, hstored.1, h.suspended, hstored.2⟩

/-- As many rounds as do not charge. -/
theorem Storing.count (h : w.Storing d record) (settings : Settings) (protocol : Protocol)
    (henabled : terms.podStorageBillingEnabled = true) (hpos : 0 < interval)
    (hzero : w.meteringCounter = 0) {rounds : ℕ} (hfew : rounds < meteringInterval interval) :
    ∃ w', Saving settings protocol terms interval d w w' ∧ w'.Storing d record ∧
      w'.now = w.now + rounds * interval ∧ w'.meteringCounter = rounds ∧
      w'.charges d = w.charges d := by
  induction rounds with
  | zero => exact ⟨w, .refl, h, by rw [Nat.cast_zero, zero_mul, add_zero], hzero, rfl⟩
  | succ rounds ih =>
    obtain ⟨v, hv, hstoring, hnow, hcounter, hcharges⟩ := ih (Nat.lt_of_succ_lt hfew)
    obtain ⟨w', hw', hstored, hlater, hround⟩ := hstoring.round settings protocol henabled hpos
    rw [hcounter, if_neg (not_le.mpr hfew)] at hround
    refine ⟨w', hv.trans hw', hstored, ?_, hround.1, hround.2.trans hcharges⟩
    rw [hlater, hnow, Nat.cast_succ]
    ring

/-- As many rounds of charges. -/
theorem Storing.charge (h : w.Storing d record) (settings : Settings) (protocol : Protocol)
    (henabled : terms.podStorageBillingEnabled = true) (hpos : 0 < interval)
    (hzero : w.meteringCounter = 0) (times : ℕ) :
    ∃ w', Saving settings protocol terms interval d w w' ∧ w'.Storing d record ∧
      w'.now = w.now + times * (meteringInterval interval * interval) ∧ w'.meteringCounter = 0 ∧
      w'.charges d = w.charges d + times := by
  induction times with
  | zero => exact ⟨w, .refl, h, by rw [Nat.cast_zero, zero_mul, add_zero], hzero, rfl⟩
  | succ times ih =>
    obtain ⟨v, hv, hstoring, hnow, hcounter, hcharges⟩ := ih
    have hrounds : meteringInterval interval - 1 < meteringInterval interval :=
      Nat.sub_lt (meteringInterval_pos interval) Nat.one_pos
    have hall : meteringInterval interval - 1 + 1 = meteringInterval interval :=
      Nat.sub_add_cancel (meteringInterval_pos interval)
    obtain ⟨u, hu, hcounted, hthen, hlast, hsame⟩ :=
      hstoring.count settings protocol henabled hpos hcounter hrounds
    obtain ⟨w', hw', hstored, hlater, hround⟩ := hcounted.round settings protocol henabled hpos
    rw [hlast, hall, if_pos le_rfl] at hround
    refine ⟨w', (hv.trans hu).trans hw', hstored, ?_, hround.1, ?_⟩
    · have hcast : ((meteringInterval interval - 1 : ℕ) : ℚ) + 1 = meteringInterval interval := by
        exact_mod_cast hall
      rw [hlater, hthen, hnow, Nat.cast_succ, ← hcast]
      ring
    · rw [hround.2, hsame, hcharges, Nat.add_assoc]

/-- User 1's pod 1, suspended and to be saved. -/
private def savedRecord : DeploymentRecord :=
  { ControlPlaneService.newRecord ⟨"pod".toList, some 1, none, 1, true, false, true⟩ 40 0 with
    state := .suspended
    suspendedAt := some 0 }

/-- The pod, and the worker's loop before its first round. -/
private def savedPod : StorageWorld :=
  ⟨⟨updateDeployment 1 savedRecord (podOwner 1000), .empty, [], [], []⟩, 0, 0, []⟩

private theorem storing_savedPod : savedPod.Storing 1 savedRecord :=
  ⟨by decide +kernel, rfl, rfl, by decide +kernel⟩

/-- A dollar a day. -/
private def dollarADay : StorageTerms := ⟨true, 69⟩

/-- Where so many intervals are less than a minute, the pod is charged more often, and no process
has to be replaced for it. -/
theorem overcharged (hpos : 0 < interval)
    (hshort : (meteringInterval interval : ℚ) * interval < 60) :
    ∃ w', Saving {} quotedRates dollarADay interval 1 savedPod w' ∧
      ((w'.now - savedPod.now) / 60 + 1 : ℚ) < w'.charges 1 - savedPod.charges 1 := by
  have hgain : 0 < 60 - (meteringInterval interval : ℚ) * interval := sub_pos.mpr hshort
  obtain ⟨times, htimes⟩ := exists_nat_gt (60 / (60 - (meteringInterval interval : ℚ) * interval))
  obtain ⟨w', hw', -, hnow, -, hcharges⟩ := storing_savedPod.charge {} quotedRates
    (show dollarADay.podStorageBillingEnabled = true from rfl) hpos rfl times
  refine ⟨w', hw', ?_⟩
  rw [div_lt_iff₀ hgain] at htimes
  rw [hnow, hcharges, Nat.cast_add, add_sub_cancel_left, add_sub_cancel_left,
    ← lt_sub_iff_add_lt, div_lt_iff₀ (by norm_num : (0 : ℚ) < 60)]
  linarith

/-- In the run that overcharges, every step may be taken. -/
theorem not_chargedByTheClock_of_short (hpos : 0 < interval)
    (hshort : (meteringInterval interval : ℚ) * interval < 60)
    {G : StorageOp → StorageWorld → Prop} (hG : ∀ o w, o.Unhurried w → G o w) :
    ¬ChargedByTheClock interval G := by
  intro h
  obtain ⟨w', hsaving, hmore⟩ := overcharged hpos hshort
  have hrun : Steps (StorageOp.exec {} quotedRates dollarADay interval)
      (fun o w ↦ (o.Possible w ∧ G o w) ∧ w.Saves 1) savedPod w' :=
    hsaving.lift id fun _ _ ⟨o, ⟨⟨hpossible, hunhurried⟩, hsaves⟩, hv⟩ ↦
      ⟨o, ⟨⟨hpossible, hG o _ hunhurried⟩, hsaves⟩, hv⟩
  exact absurd (h {} quotedRates dollarADay 1 savedPod savedPod w' ⟨rfl, le_rfl⟩ .refl hrun)
    (not_le.mpr hmore)

end StorageWorld

open StorageWorld

/-- **A minute's storage is charged for a minute.** In the runs in which no process is replaced
while it sleeps after a round of charges, saved rentals are charged by the clock exactly where so
many intervals are at least a minute. -/
theorem charged_by_the_clock_iff {interval : Time} (hpos : 0 < interval) :
    ChargedByTheClock interval StorageOp.Unhurried ↔ WholeMinutes interval := by
  constructor
  · intro h
    by_contra hpart
    rw [← sixty_le_meteringInterval_mul_iff hpos, not_le] at hpart
    exact not_chargedByTheClock_of_short hpos hpart (fun _ _ hunhurried ↦ hunhurried) h
  · exact chargedByTheClock_of_wholeMinutes hpos

/-- A round in five seconds. -/
theorem charged_by_the_clock_five : ChargedByTheClock 5 StorageOp.Unhurried :=
  (charged_by_the_clock_iff (by norm_num)).mpr (.inr ⟨by norm_num, 12, by norm_num⟩)

/-- With a round in seven seconds, eight rounds are charged as a minute. -/
theorem charged_in_less_than_a_minute :
    ¬∀ interval : Time, 0 < interval → ChargedByTheClock interval fun _ _ ↦ True := by
  intro h
  have hrounds : meteringInterval 7 = 8 := by
    have hfloor : ⌊(60 : ℚ) / 7⌋₊ = 8 := Nat.floor_div_eq_div 60 7
    rw [meteringInterval, max_eq_right (by norm_num : (1 : ℚ) ≤ 7), hfloor]
    rfl
  have hshort : (meteringInterval 7 : ℚ) * 7 < 60 := by
    rw [hrounds]
    norm_num
  exact not_chargedByTheClock_of_short (by norm_num) hshort (fun _ _ _ ↦ trivial)
    (h 7 (by norm_num))

end GreenCompute
