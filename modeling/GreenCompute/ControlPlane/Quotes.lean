import GreenCompute.ControlPlane.Conservation

/-!
# The quote

A deployment is created with a quote. Each placement locks a rate for it, and that rate is never
above the quote, whatever the card; what a cycle of the meter charges is that rate for each GPU and
for each ready instance that the machine has reported. The scheduler places one instance, so in the
runs in which no machine reports more, the owner never pays above the quote: `charged_within_quote`.
-/

namespace GreenCompute

open ControlPlaneRepository ControlPlaneService

variable {settings : Settings} {protocol : Protocol} {s : Fleet} {d : DeploymentId}

/-! ## Rates -/

theorem maxRate_pos (protocol : Protocol) {models : List Text} (h : models ≠ []) :
    0 < maxRate protocol models := by
  obtain ⟨model, rest, rfl⟩ := List.exists_cons_of_ne_nil h
  exact lt_of_lt_of_le (protocol.rateForGpu_pos (some model)) (le_max_left _ _)

/-- Nothing is quoted for free. -/
theorem quotedHourlyRateCents_pos (protocol : Protocol) (workload : WorkloadSpec)
    (liveModels : List Text) : 0 < quotedHourlyRateCents protocol workload liveModels := by
  rw [quotedHourlyRateCents]
  split
  · next h => exact maxRate_pos protocol h
  · split
    · next h => exact maxRate_pos protocol h
    · exact protocol.topRateCents_pos

theorem lockedRate_le {granted quoted : ℕ}
    (h : 0 < quoted) : lockedRate granted quoted ≤ quoted := by
  rw [lockedRate, if_neg h.ne']
  exact min_le_right _ _

theorem lockedRate_pos {granted quoted : ℕ} (hgranted : 0 < granted) (h : 0 < quoted) :
    0 < lockedRate granted quoted := by
  rw [lockedRate, if_neg h.ne']
  exact lt_min hgranted h

/-! ## Records within their quote -/

/-- The deployment runs a workload at a rate within a quote. -/
structure Quoted (w : WorkloadId) (q : ℕ) (record : DeploymentRecord) : Prop where
  workloadId : record.workloadId = w
  rate_pos : 0 < record.hourlyRateCents
  rate_le : record.hourlyRateCents ≤ q

section

variable {w : WorkloadId} {q : ℕ} {record saved : DeploymentRecord}

theorem Quoted.of_same (h : Quoted w q record) (hworkload : saved.workloadId = record.workloadId)
    (hrate : saved.hourlyRateCents = record.hourlyRateCents) : Quoted w q saved :=
  ⟨hworkload.trans h.workloadId, hrate ▸ h.rate_pos, hrate ▸ h.rate_le⟩

/-- A placement locks a rate within the quote. -/
theorem Quoted.of_locked (h : Quoted w q record) (hworkload : saved.workloadId = record.workloadId)
    {granted : ℕ} (hgranted : 0 < granted)
    (hrate : saved.hourlyRateCents = lockedRate granted record.hourlyRateCents) :
    Quoted w q saved := by
  refine ⟨hworkload.trans h.workloadId, ?_, ?_⟩
  · rw [hrate]
    exact lockedRate_pos hgranted h.rate_pos
  · rw [hrate]
    exact (lockedRate_le h.rate_pos).trans h.rate_le

/-- What is kept about the deployment says that it runs within its quote. -/
def Position.Quoted (w : WorkloadId) (q : ℕ) (p : Position) : Prop :=
  ∃ record ∈ p.stand.record, GreenCompute.Quoted w q record

/-- What an edit saves in place of a record that is within its quote is within it. -/
theorem Edit.quoted {c : FleetCall} {now : Time} {p p' : Position} (h : Edit c d now p p')
    (hp : p.Quoted w q) : p'.Quoted w q := by
  obtain ⟨record, hrecord, hquoted⟩ := hp
  have hold {record' : DeploymentRecord} (found : p.stand.record = some record') :
      GreenCompute.Quoted w q record' := Option.some.inj (found.symm.trans hrecord) ▸ hquoted
  cases h with
  | created request quote made missing => exact nomatch missing.symm.trans hrecord
  | noted record' saved found same =>
    exact ⟨saved, rfl, (hold found).of_same same.workloadId same.hourlyRateCents⟩
  | reported update record' readyAt found => exact ⟨_, rfl, (hold found).of_same rfl rfl⟩
  | scheduled record' saved stand attempts granted made found waiting terms state positive rate =>
    exact ⟨saved, rfl, (hold found).of_locked terms.workloadId positive rate⟩
  | unplaced record' saved stand origin found terms state rate =>
    exact ⟨saved, rfl, (hold found).of_same terms.workloadId rate⟩
  | ended record' saved reason made found terms state hotkey nodeId rate =>
    exact ⟨saved, rfl, (hold found).of_same terms.workloadId rate⟩
  | freed stand kept | resumed stand made kept => exact ⟨record, kept.trans hrecord, hquoted⟩
  | stamped => exact ⟨record, hrecord, hquoted⟩

/-- No call takes a deployment above its quote. -/
theorem quoted_after (settings : Settings) (protocol : Protocol) (c : FleetCall)
    (hs : (s.position d).Quoted w q) :
    (((controlPlane settings protocol).after c s).position d).Quoted w q :=
  position_after_of_edits settings protocol c (fun _ _ h hp ↦ h.quoted hp) hs

/-! ## Ready instances -/

/-- The call reports at most one ready instance of the deployment, if it reports that it is ready. -/
def FleetCall.ReportsOneInstance (d : DeploymentId) : FleetCall → Prop
  | deploymentStatus d' _ update | updateDeploymentStatus d' update =>
    d' = d → update.state = .ready → update.readyInstances ≤ 1
  | _ => True

instance (d : DeploymentId) (c : FleetCall) : Decidable (c.ReportsOneInstance d) := by
  rcases c with _ | _ <;> unfold FleetCall.ReportsOneInstance <;> infer_instance

/-- The deployment has at most the one instance ready that was placed. -/
def Position.OneInstance (p : Position) : Prop :=
  ∀ record ∈ p.stand.record, record.readyInstances ≤ 1

/-- A report that is not of a ready deployment counts no instances, and the control plane itself
makes no other. -/
theorem FleetCall.Reports.oneInstance {c : FleetCall} {now : Time} {update : DeploymentStatusUpdate}
    (origin : c.Reports d now update record) (hc : c.ReportsOneInstance d) (readyAt : Option Time) :
    (reported update record update.state readyAt).readyInstances ≤ 1 := by
  change (if update.state = .ready then update.readyInstances else 0) ≤ 1
  by_cases hready : update.state = .ready
  · rw [if_pos hready]
    cases c with
    | deploymentStatus d' hotkey update' =>
      obtain ⟨hd, -, rfl⟩ := origin
      exact hc hd hready
    | updateDeploymentStatus d' update' =>
      obtain ⟨hd, rfl⟩ := origin
      exact hc hd hready
    | meterUsage | processIdleInferenceDeployments =>
      exact absurd (origin.1.symm.trans hready) (by decide)
    | recordDeploymentHealthFailure | processDeploymentRequest | failDeployment =>
      exact absurd (origin.2.symm.trans hready) (by decide)
    | processUnhealthyMiners | reapExhaustedPods | processTimeouts =>
      have hstate : update.state = _ := origin
      exact absurd (hstate.symm.trans hready) (by decide)
    | _ => exact origin.elim
  · rw [if_neg hready]
    decide

theorem Edit.oneInstance {c : FleetCall} {now : Time} {p p' : Position} (h : Edit c d now p p')
    (hc : c.ReportsOneInstance d) (hp : p.OneInstance) : p'.OneInstance := by
  cases h with
  | created request quote => rintro _ ⟨⟩; exact zero_le_one
  | noted record saved found same => rintro _ ⟨⟩; exact same.readyInstances ▸ hp record found
  | reported update record readyAt found origin =>
    rintro _ ⟨⟩
    exact origin.oneInstance hc readyAt
  | scheduled record saved stand attempts granted made found waiting terms state positive rate instances =>
    rintro _ ⟨⟩
    exact instances ▸ hp record found
  | unplaced record saved stand origin found terms state rate instances =>
    rintro _ ⟨⟩
    exact instances ▸ zero_le_one
  | ended record saved reason made found terms state hotkey nodeId rate instances =>
    rintro _ ⟨⟩
    exact instances ▸ zero_le_one
  | freed stand kept | resumed stand made kept => exact fun record h ↦ hp record (kept ▸ h)
  | stamped => exact hp

theorem oneInstance_after (settings : Settings) (protocol : Protocol) {c : FleetCall}
    (hc : c.ReportsOneInstance d) (hs : (s.position d).OneInstance) :
    (((controlPlane settings protocol).after c s).position d).OneInstance :=
  position_after_of_edits settings protocol c (fun _ _ h hp ↦ h.oneInstance hc hp) hs

end

/-! ## What a cycle accrues -/

/-- The GPUs of an instance of a workload. -/
def workloadGpus (s : Fleet) (w : WorkloadId) : ℕ :=
  ((s.workloads.get? w).map fun workload ↦ workload.requirements.gpuCount).getD 1

theorem meteredMcents_le {rate q gpuCount : ℕ} {instances : ℤ} {seconds : Time} (hrate : rate ≤ q)
    (hnonneg : 0 ≤ instances) (hone : instances ≤ 1) (hseconds : 0 ≤ seconds) :
    meteredMcents rate gpuCount instances seconds ≤ meteredMcents q gpuCount 1 seconds := by
  have hrate' : (rate : ℚ) ≤ q := by exact_mod_cast hrate
  have hnonneg' : (0 : ℚ) ≤ instances := by exact_mod_cast hnonneg
  have hone' : (instances : ℚ) ≤ 1 := by exact_mod_cast hone
  rw [meteredMcents, meteredMcents, Int.cast_one]
  refine roundHalfEven_mono ?_
  gcongr

theorem chargeOf_nonneg {cycle now seconds : Time} {record : DeploymentRecord} {owner : UserId}
    (hcycle : 0 ≤ cycle) (h : chargeOf settings cycle now d record s = some (owner, seconds)) :
    0 ≤ seconds := by
  rw [chargeOf] at h
  cases howner : record.ownerUserId with
  | none => simp [howner] at h
  | some owner' =>
    simp only [howner] at h
    split at h
    · cases h
    split at h
    · cases h
    cases hsince : getBillableSince d s with
    | some since =>
      rw [hsince] at h
      cases h
      exact le_min hcycle (le_max_left _ _)
    | none =>
      rw [hsince] at h
      dsimp only at h
      split at h
      · cases h
      · cases h
        exact hcycle

theorem billedInCycle_nonneg (settings : Settings) (elapsed : Option Time) (d : DeploymentId)
    (s : Fleet) : 0 ≤ billedInCycle settings elapsed d s := by
  rw [billedInCycle]
  cases s.record d with
  | none => exact le_rfl
  | some record =>
    dsimp only
    split
    · cases hcharge : chargeOf settings (cycleSeconds elapsed) s.now d record s with
      | none => exact le_rfl
      | some charged => exact chargeOf_nonneg (cycleSeconds_nonneg elapsed) hcharge
    · exact le_rfl

section

variable {w : WorkloadId} {q : ℕ}

/-- A cycle accrues for a deployment with one instance no more than its quote. -/
theorem accrual_le_quote {elapsed : Option Time} (hquoted : (s.position d).Quoted w q)
    (hone : (s.position d).OneInstance) {add : ℤ}
    (hadd : add ∈ accruals d (history settings (meterUsage settings elapsed) s)) :
    add ≤ meteredMcents q (workloadGpus s w) 1 (billedInCycle settings elapsed d s) := by
  rcases accruals_meterUsage settings elapsed d s with hnone | ⟨record, hrecord, -, hsome⟩
  · rw [hnone] at hadd
    cases hadd
  · obtain ⟨record', hrecord', hwithin⟩ := hquoted
    obtain rfl := Option.some.inj (hrecord.symm.trans hrecord')
    rw [hsome, List.mem_singleton] at hadd
    have hrate : rateOrDefault record ≤ q := by
      rw [rateOrDefault, if_neg hwithin.rate_pos.ne']
      exact hwithin.rate_le
    have hgpus : chargedGpus s record = workloadGpus s w := by
      rw [chargedGpus, workloadGpus, hwithin.workloadId]
    rw [hadd, hgpus]
    refine meteredMcents_le hrate ?_ ?_ (billedInCycle_nonneg settings elapsed d s)
    · exact le_max_of_le_right zero_le_one
    · exact max_le (hone record hrecord) le_rfl

variable (settings) in
/-- The accruals of one cycle, before rounding. -/
theorem sum_accruals_le (elapsed : Option Time) (hquoted : (s.position d).Quoted w q)
    (hone : (s.position d).OneInstance) :
    ((accruals d (history settings (meterUsage settings elapsed) s)).sum : ℚ) ≤
      1000 * q * workloadGpus s w * billedInCycle settings elapsed d s / 3600 + 1 / 2 := by
  have hnonneg := billedInCycle_nonneg settings elapsed d s
  rcases accruals_meterUsage settings elapsed d s with hnone | ⟨record, hrecord, -, hsome⟩
  · rw [hnone, List.sum_nil, Int.cast_zero]
    positivity
  · rw [hsome, List.sum_singleton]
    have hle := accrual_le_quote hquoted hone (hsome ▸ List.mem_singleton_self _)
    refine (Int.cast_le.mpr hle).trans ((roundHalfEven_le_add_half _).trans_eq ?_)
    push_cast
    ring

end

/-! ## What a cycle books -/

/-- The transactions of a cycle of the meter: they come from inside, and debit something. -/
def Modest (o : FleetOp) : Prop :=
  o.outside = false ∧
    ∀ u cents kind reference, o = .debitUserToFloor u cents kind reference → 0 < cents

variable (settings) in
theorem meterUsage_modest (elapsed : Option Time) : (meterUsage settings elapsed).Uses Modest := by
  have hlooks (o : FleetOp) (ho : o.looks = true) : Modest o := by
    cases o with
    | debitUserToFloor | upsertHeartbeat | setMinerDrained | money | advance => cases ho
    | _ => exact ⟨rfl, by rintro _ _ _ _ ⟨⟩⟩
  refine .op_bind (hlooks _ rfl) fun now ↦ .op_bind (hlooks _ rfl) fun ready ↦ ?_
  unfold cycleSeconds
  induction ready with
  | nil => trivial
  | cons row rest ih =>
    refine .bind (meterDeployment_uses hlooks ?_ ?_ ?_ ?_ ?_ ?_ ?_ ?_ _ _ _) fun _ ↦
      .bind ih fun _ ↦ trivial
    · exact ⟨rfl, by rintro _ _ _ _ ⟨⟩⟩
    · exact fun _ ↦ ⟨rfl, by rintro _ _ _ _ ⟨⟩⟩
    · exact ⟨rfl, by rintro _ _ _ _ ⟨⟩⟩
    · exact fun _ _ ↦ ⟨rfl, by rintro _ _ _ _ ⟨⟩⟩
    · exact fun _ ↦ ⟨rfl, by rintro _ _ _ _ ⟨⟩⟩
    · exact fun _ ↦ ⟨rfl, by rintro _ _ _ _ ⟨⟩⟩
    · exact fun _ ↦ ⟨rfl, by rintro _ _ _ _ ⟨⟩⟩
    · rintro u cents hcents
      refine ⟨rfl, ?_⟩
      rintro _ _ _ _ ⟨⟩
      exact hcents

theorem dropped_nonneg {e : Event ControlPlane} (he : Modest e.1) : 0 ≤ dropped d e := by
  obtain ⟨o, r⟩ := e
  cases o with
  | debitUserToFloor u cents kind reference =>
    have hcents := he.2 u cents kind reference rfl
    unfold dropped
    split
    · next heq =>
      cases heq
      split_ifs
      · exact hcents.le
      · exact le_rfl
    · exact le_rfl
  | _ => exact le_rfl

theorem sum_accrual (history : List (Event ControlPlane)) :
    (history.map (accrual d)).sum = (accruals d history).sum := by
  induction history with
  | nil => rfl
  | cons e history ih =>
    obtain ⟨o, r⟩ := e
    rw [List.map_cons, List.sum_cons, ih]
    cases o with
    | accrueMetering d' add =>
      by_cases hd : d' = d
      · simp [accruals, accrual, hd]
      · simp [accruals, accrual, hd]
    | _ => exact zero_add _

variable (settings) in
/-- A cycle books for a deployment no more than it accrues. -/
theorem booked_meterUsage_le (hs : Accrues d s) (elapsed : Option Time) :
    Accrues d (run settings (meterUsage settings elapsed) s).1 ∧
      (run settings (meterUsage settings elapsed) s).1.booked d ≤
        s.booked d + (accruals d (history settings (meterUsage settings elapsed) s)).sum := by
  have hmodest := meterUsage_modest settings elapsed
  have hasks := (meterUsage_settling (d := d) elapsed).with_uses hmodest
    (ψ := fun _ o ↦ Charges d o ∧ Modest o) fun _ _ hcharges hmodest ↦ ⟨hcharges, hmodest⟩
  have hop (past : List (Event ControlPlane)) (o : FleetOp) (s : Fleet)
      (ho : Charges d o ∧ Modest o) (haccrues : Accrues d s) :
      Honest d o (o.exec settings s).2 ∧ Accrues d (o.exec settings s).1 ∧
        (o.exec settings s).1.booked d = s.booked d + booking d ⟨o, (o.exec settings s).2⟩ := by
    have hquiet : BooksNoUsage d s o := by
      cases o with
      | money op => exact nomatch ho.2.1
      | _ => trivial
    exact ⟨honest_exec haccrues ho.1, accrues_exec haccrues ho.1, booked_exec haccrues.1 hquiet⟩
  obtain ⟨hsettled, haccrues, hbooked⟩ :=
    hasks.account (M := fleet settings) (fun s ↦ s.booked d) (booking d) hop hs
  refine ⟨haccrues, hbooked.trans_le ?_⟩
  have howes := hsettled.owes
  have hdropped : 0 ≤ ((history settings (meterUsage settings elapsed) s).map (dropped d)).sum :=
    List.sum_nonneg fun x hx ↦ by
      obtain ⟨e, he, rfl⟩ := List.mem_map.mp hx
      exact dropped_nonneg (hmodest.trace s e he)
  rw [Owes, List.nil_append, add_zero] at howes
  have hsum := sum_accrual (d := d) (history settings (meterUsage settings elapsed) s)
  simp only [history] at hsum hdropped ⊢
  linarith

/-- The call is not a payment that is booked as usage of the deployment. -/
def FleetCall.PaysNoUsage (d : DeploymentId) (s : Fleet) : FleetCall → Prop
  | money op => BooksNoUsage d s (.money op)
  | _ => True

instance (d : DeploymentId) (s : Fleet) (c : FleetCall) : Decidable (c.PaysNoUsage d s) := by
  rcases c with _ | _ <;> unfold FleetCall.PaysNoUsage <;> infer_instance

variable (settings protocol) in
/-- A call that is no cycle books nothing for the deployment. -/
theorem booked_after_of_unmetered {c : FleetCall} (hs : Accrues d s) (hc : c.meters = false)
    (hmoney : c.PaysNoUsage d s) :
    Accrues d ((controlPlane settings protocol).after c s) ∧
      ((controlPlane settings protocol).after c s).booked d = s.booked d := by
  by_cases hpays : ∃ op, c = .money op
  · obtain ⟨op, rfl⟩ := hpays
    have haccrues : Accrues d ((FleetOp.money op).exec settings s).1 := accrues_exec hs trivial
    have hbooked : ((FleetOp.money op).exec settings s).1.booked d = s.booked d + 0 :=
      booked_exec hs.1 hmoney
    exact ⟨haccrues, hbooked.trans (add_zero _)⟩
  · have hunbilled := body_unbilled settings protocol hc (not_exists.mp hpays)
    have hasks : (c.body settings protocol).Asks (fun _ _ ↦ True) (fun _ o ↦ Unbilled o)
        (fun _ _ ↦ True) [] :=
      hunbilled.asks (fun _ _ h ↦ h) (fun _ ↦ True) (fun _ _ _ _ _ ↦ trivial) trivial
    have hop (_ : List (Event ControlPlane)) (o : FleetOp) (s : Fleet) (ho : Unbilled o)
        (haccrues : Accrues d s) : True ∧ Accrues d (o.exec settings s).1 ∧
          (o.exec settings s).1.booked d = s.booked d + 0 := by
      have hunmetered := (Bool.or_eq_false_iff.mp ho).1
      have hcharges : Charges d o := by
        cases o with
        | accrueMetering => cases ho
        | _ => trivial
      have hquiet : BooksNoUsage d s o := by
        cases o with
        | money => cases ho
        | _ => trivial
      refine ⟨trivial, accrues_exec haccrues hcharges, (booked_exec haccrues.1 hquiet).trans ?_⟩
      rw [(unbooked_of_unmetered (d := d) o hunmetered).worthless.1]
    obtain ⟨-, haccrues, hbooked⟩ :=
      hasks.account (M := fleet settings) (fun s ↦ s.booked d) (fun _ ↦ 0) hop hs
    refine ⟨haccrues, hbooked.trans ?_⟩
    rw [List.map_const', List.sum_replicate, nsmul_zero, add_zero]

/-! ## Runs -/

/-- No machine reports more than one ready instance of the deployment, and nothing but the meter
books usage for it. -/
def WithinQuote (d : DeploymentId) (c : FleetCall) (s : Fleet) : Prop :=
  c.ReportsOneInstance d ∧ c.PaysNoUsage d s

instance (d : DeploymentId) (c : FleetCall) (s : Fleet) : Decidable (WithinQuote d c s) :=
  inferInstanceAs (Decidable (_ ∧ _))

section

variable {w : WorkloadId} {q : ℕ} {cs : List FleetCall}

theorem workloadGpus_afterAll (settings : Settings) (protocol : Protocol) (s : Fleet)
    (cs : List FleetCall) (w : WorkloadId) :
    workloadGpus ((controlPlane settings protocol).afterAll s cs) w = workloadGpus s w := by
  induction cs generalizing s with
  | nil => rfl
  | cons c cs ih =>
    refine (ih _).trans ?_
    have hworkloads : ((controlPlane settings protocol).after c s).workloads = s.workloads :=
      workloads_run _ s
    rw [workloadGpus, hworkloads, workloadGpus]

variable (settings protocol) in
/-- What is kept of a deployment that is within its quote, by every call that keeps to it. -/
theorem withinQuote_after {c : FleetCall} (hc : WithinQuote d c s)
    (hs : (s.position d).Quoted w q ∧ (s.position d).OneInstance) :
    (((controlPlane settings protocol).after c s).position d).Quoted w q ∧
      (((controlPlane settings protocol).after c s).position d).OneInstance :=
  ⟨quoted_after settings protocol c hs.1, oneInstance_after settings protocol hc.1 hs.2⟩

/-- What a run books is at most the quote of the seconds it bills, and half a millicent a cycle. -/
theorem booked_afterAll_le
    (admitted : (controlPlane settings protocol).Admits (WithinQuote d) s cs) (hs : Accrues d s)
    (hquoted : (s.position d).Quoted w q ∧ (s.position d).OneInstance) :
    Accrues d ((controlPlane settings protocol).afterAll s cs) ∧
      (((controlPlane settings protocol).afterAll s cs).booked d : ℚ) ≤ s.booked d +
        1000 * q * workloadGpus s w * billedSeconds settings protocol d s cs / 3600 +
          cs.countP FleetCall.meters / 2 := by
  induction cs generalizing s with
  | nil => exact ⟨hs, by simp [billedSeconds, Service.afterAll]⟩
  | cons c cs ih =>
    obtain ⟨hc, hrest⟩ := admitted
    have hworkloads := workloadGpus_afterAll settings protocol s [c] w
    change workloadGpus ((controlPlane settings protocol).after c s) w = _ at hworkloads
    have hquoted' := withinQuote_after settings protocol hc hquoted
    by_cases hmeter : c.meters = true
    · cases c with
      | meterUsage elapsed =>
        have hcycle := booked_meterUsage_le settings hs elapsed
        have hafter : (controlPlane settings protocol).after (.meterUsage elapsed) s =
            (run settings (meterUsage settings elapsed) s).1 := run_discard settings _ s
        rw [← hafter] at hcycle
        obtain ⟨haccrues, hbooked⟩ := hcycle
        obtain ⟨hend, hle⟩ := ih hrest haccrues hquoted'
        refine ⟨hend, hle.trans ?_⟩
        have hsum := sum_accruals_le settings elapsed hquoted.1 hquoted.2
        have hbooked' : (((controlPlane settings protocol).after (.meterUsage elapsed) s).booked d : ℚ) ≤
            s.booked d + (accruals d (history settings (meterUsage settings elapsed) s)).sum := by
          exact_mod_cast hbooked
        rw [hworkloads, billedSeconds, FleetCall.billed, List.countP_cons_of_pos hmeter]
        push_cast
        linarith
      | _ => cases hmeter
    · rw [Bool.not_eq_true] at hmeter
      obtain ⟨haccrues, hbooked⟩ := booked_after_of_unmetered settings protocol hs hmeter hc.2
      obtain ⟨hend, hle⟩ := ih hrest haccrues hquoted'
      refine ⟨hend, hle.trans_eq ?_⟩
      have hbilled : c.billed settings d s = 0 := by
        cases c with
        | meterUsage => cases hmeter
        | _ => rfl
      rw [hworkloads, hbooked, billedSeconds, hbilled, zero_add,
        List.countP_cons_of_neg (by rw [hmeter]; decide)]

variable (settings protocol) in
/-- Creating a deployment writes its row, or nothing. -/
theorem after_createDeployment {s₀ : Fleet} (request : DeploymentCreateRequest)
    (fresh : s₀.record d = none) :
    (controlPlane settings protocol).after (.createDeployment d request) s₀ = s₀ ∨
      ∃ quote, 0 < quote ∧
        (controlPlane settings protocol).after (.createDeployment d request) s₀ =
          { s₀ with deployments :=
              s₀.deployments.insert d ⟨newRecord request quote s₀.now, 0, none⟩ } := by
  have hafter : (controlPlane settings protocol).after (.createDeployment d request) s₀ =
      (run settings (ControlPlaneService.createDeployment settings protocol d request) s₀).1 :=
    run_discard settings _ s₀
  have hmissing : s₀.deployments.get? d = none := Option.map_eq_none_iff.mp fresh
  rw [hafter, ControlPlaneService.createDeployment, run_bind, run_getWorkload]
  cases s₀.workloads.get? request.workloadId with
  | none => exact .inl rfl
  | some workload =>
    dsimp only
    have hmodels : (onlineGpuModels settings).Uses fun o : FleetOp ↦ o.looks = true :=
      onlineGpuModels_uses fun _ h ↦ h
    have hlooks := run_of_looks settings hmodels s₀
    rw [run_bind, hlooks]
    refine .inr ⟨_, quotedHourlyRateCents_pos protocol workload
      (run settings (onlineGpuModels settings) s₀).2, ?_⟩
    show ((FleetOp.createDeployment d _).exec settings s₀).1 = _
    simp only [FleetOp.exec, ControlPlaneRepository.createDeployment]
    rw [if_neg (by rw [hmissing]; decide)]
    rfl

/-- A new deployment has its quote for a rate, and nothing on its accumulator. -/
theorem created_on_quote {s₀ s : Fleet} {request : DeploymentCreateRequest}
    {record : DeploymentRecord} (fresh : s₀.record d = none)
    (hs : (controlPlane settings protocol).after (.createDeployment d request) s₀ = s)
    (created : s.record d = some record) :
    (s.position d).Quoted record.workloadId record.hourlyRateCents ∧ (s.position d).OneInstance ∧
      s.state d ≠ some .ready ∧ (s.deployments.get? d).isSome = true ∧ s.remainder d = 0 := by
  rcases after_createDeployment settings protocol request fresh with
    hsame | ⟨quote, hquote, hcreated⟩
  · rw [← hs, hsame, fresh] at created
    cases created
  · rw [hcreated] at hs
    have hrow : s.deployments.get? d = some ⟨newRecord request quote s₀.now, 0, none⟩ := by
      rw [← hs]
      exact Table.get?_insert_self ..
    have hrecord : s.record d = some (newRecord request quote s₀.now) := by
      rw [Fleet.record, hrow, Option.map_some]
    obtain rfl := Option.some.inj (hrecord.symm.trans created)
    refine ⟨⟨_, hrecord, rfl, hquote, le_rfl⟩, fun record hmem ↦ ?_, ?_, ?_, ?_⟩
    · obtain rfl := Option.some.inj (hrecord.symm.trans hmem)
      exact zero_le_one
    · rw [Fleet.state_of_some hrecord]
      rintro ⟨⟩
    · rw [hrow, Option.isSome_some]
    · rw [Fleet.remainder, hrow, Option.map_some, Option.getD_some]

/-- **Nobody pays above the quote.** In every run from a deployment's creation on in which no machine
reports more than one ready instance of it, each cycle of the meter accrues for it at most the quote
for the seconds it bills, and what is debited for it is at most the quote for the time it was ready
and half a millicent for each cycle. -/
theorem charged_within_quote {s₀ : Fleet} {request : DeploymentCreateRequest}
    {record : DeploymentRecord} {last : Time} (fresh : s₀.record d = none)
    (created : ((controlPlane settings protocol).after (.createDeployment d request) s₀).record d =
      some record)
    (admitted : (controlPlane settings protocol).Admits (WithinQuote d)
      ((controlPlane settings protocol).after (.createDeployment d request) s₀) cs)
    (paced : Paced settings protocol last
      ((controlPlane settings protocol).after (.createDeployment d request) s₀) cs) :
    let s := (controlPlane settings protocol).after (.createDeployment d request) s₀
    let gpuCount := workloadGpus s record.workloadId
    (∀ before elapsed later, cs = before ++ .meterUsage elapsed :: later →
      ∀ add ∈ accruals d (history settings (meterUsage settings elapsed)
          ((controlPlane settings protocol).afterAll s before)),
        add ≤ meteredMcents record.hourlyRateCents gpuCount 1
          (billedInCycle settings elapsed d ((controlPlane settings protocol).afterAll s before))) ∧
      1000 * ((((controlPlane settings protocol).afterAll s cs).billing.usageDebited d -
          s.billing.usageDebited d : ℤ) : ℚ) ≤
        1000 * record.hourlyRateCents * gpuCount * readySeconds settings protocol d s cs / 3600 +
          cs.countP FleetCall.meters / 2 := by
  intro s gpuCount
  obtain ⟨hquoted, hone, hstate, hrow, hremainder⟩ := created_on_quote fresh rfl created
  refine ⟨fun before elapsed later hcs add hadd ↦ ?_, ?_⟩
  · rw [hcs] at admitted
    obtain ⟨hbefore, -⟩ := Service.admits_append.mp admitted
    obtain ⟨hquoted', hone'⟩ := hbefore.keeps (P := fun t ↦
      (t.position d).Quoted record.workloadId record.hourlyRateCents ∧ (t.position d).OneInstance)
      ⟨hquoted, hone⟩ fun c t hc ht ↦ withinQuote_after settings protocol hc ht
    have hle := accrual_le_quote hquoted' hone' hadd
    rwa [workloadGpus_afterAll] at hle
  · have hs : Accrues d s := ⟨hrow, hremainder.ge⟩
    obtain ⟨haccrues, hbooked⟩ := booked_afterAll_le admitted hs ⟨hquoted, hone⟩
    have hbilled := billedSeconds_le (d := d) settings protocol paced
    rw [Position.unbilled_of_not_ready (p := s.position d) hstate, zero_add] at hbilled
    have hend : (0 : ℚ) ≤ ((controlPlane settings protocol).afterAll s cs).remainder d := by
      exact_mod_cast haccrues.2
    have hready : 1000 * (record.hourlyRateCents : ℚ) * gpuCount *
          billedSeconds settings protocol d s cs / 3600 ≤
        1000 * record.hourlyRateCents * gpuCount * readySeconds settings protocol d s cs / 3600 := by
      gcongr
    rw [Fleet.booked, Fleet.booked, hremainder] at hbooked
    push_cast at hbooked ⊢
    linarith

end

/-- A machine with room for the pod, before the pod is created. -/
private def roomForPod : Fleet :=
  (controlPlane {} quotedRates).afterAll (podOwner 100)
    [.updateCapacity ⟨7, [oneNode], 0⟩, .recordHeartbeat 7 ⟨true, some 0⟩]

/-- A pod of one 4090. -/
private def podRequest : DeploymentCreateRequest := ⟨"pod".toList, some 1, none, 1, true, false, true⟩

/-- The pod runs for five minutes, and its machine says how many instances it runs. -/
private def fiveMinutes (readyInstances : ℤ) : List FleetCall :=
  [.processDeploymentRequest 1 1,
    .deploymentStatus 1 7 { state := .ready, readyInstances := readyInstances, observedAt := 0 },
    .advance 300, .recordHeartbeat 7 ⟨true, some 300⟩, .meterUsage (some 300)]

private def podQuoted : DeploymentRecord := newRecord podRequest 40 0

private theorem created_podQuoted :
    ((controlPlane {} quotedRates).after (.createDeployment 1 podRequest) roomForPod).record 1 =
      some podQuoted := by with_unfolding_all rfl

/-- Three cents are debited for five minutes at 40 cents an hour. -/
theorem charged_within_quote_one :
    let s := (controlPlane {} quotedRates).after (.createDeployment 1 podRequest) roomForPod
    ((controlPlane {} quotedRates).afterAll s (fiveMinutes 1)).billing.usageDebited 1 = 3 ∧
      1000 * ((((controlPlane {} quotedRates).afterAll s (fiveMinutes 1)).billing.usageDebited 1 -
          s.billing.usageDebited 1 : ℤ) : ℚ) ≤
        1000 * podQuoted.hourlyRateCents * workloadGpus s podQuoted.workloadId *
          readySeconds {} quotedRates 1 s (fiveMinutes 1) / 3600 +
            (fiveMinutes 1).countP FleetCall.meters / 2 :=
  have paced : Paced {} quotedRates 0
      ((controlPlane {} quotedRates).after (.createDeployment 1 podRequest) roomForPod)
      (fiveMinutes 1) := by decide +kernel
  ⟨by decide +kernel,
    (charged_within_quote (by decide +kernel) created_podQuoted (by decide +kernel) paced).2⟩

/-- The machine reports two instances of the pod it runs, and the cycle accrues twice the quote. -/
theorem charged_for_reported_instances :
    ¬∀ (settings : Settings) (protocol : Protocol) (d : DeploymentId) (s₀ : Fleet)
      (request : DeploymentCreateRequest) (record : DeploymentRecord) (cs : List FleetCall),
      s₀.record d = none →
        ((controlPlane settings protocol).after (.createDeployment d request) s₀).record d =
          some record →
        let s := (controlPlane settings protocol).after (.createDeployment d request) s₀
        Paced settings protocol s.now s cs →
          (∀ before elapsed later, cs = before ++ .meterUsage elapsed :: later →
            ∀ add ∈ accruals d (history settings (meterUsage settings elapsed)
                ((controlPlane settings protocol).afterAll s before)),
              add ≤ meteredMcents record.hourlyRateCents (workloadGpus s record.workloadId) 1
                (billedInCycle settings elapsed d
                  ((controlPlane settings protocol).afterAll s before))) := by
  intro h
  have hle := h {} quotedRates 1 roomForPod podRequest podQuoted (fiveMinutes 2)
    (by decide +kernel) created_podQuoted (by decide +kernel)
    ((fiveMinutes 2).take 4) (some 300) [] rfl 6667 (by decide +kernel)
  revert hle
  decide +kernel

end GreenCompute
