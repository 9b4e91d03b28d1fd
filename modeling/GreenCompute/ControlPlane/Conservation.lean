import GreenCompute.ControlPlane.Metering
import GreenCompute.ControlPlane.Unmetered
import Mathlib.Algebra.BigOperators.Ring.List

/-!
# What the meter accrues and what it books

The meter takes the whole cents off a deployment's accumulator before it debits them, debits as
much as the owner has, and carries the rest back. Between these transactions anything else may
happen to the balance and to the deployment, so at any one moment cents may be on their way. A
cycle that has come to its end has none on the way: all it accrued is debited or back on the
accumulator, but for the cents whose debit found no row of the owner.
-/

namespace GreenCompute

open ControlPlaneRepository ControlPlaneService

/-! ## Usage in the books -/

/-- What has been debited for a deployment's usage, in cents. -/
def Db.usageDebited (db : Db) (d : DeploymentId) : ℤ :=
  (db.ledger.map fun e ↦
    if e.kind = .usage ∧ e.referenceId = some (.deployment d) then -e.amountCents else 0).sum

namespace Fleet

/-- A deployment's accumulator. -/
def remainder (s : Fleet) (d : DeploymentId) : ℤ :=
  ((s.deployments.get? d).map DeploymentRow.meteringRemainderMcents).getD 0

/-- What has been debited for a deployment, with what its accumulator holds, in millicents. -/
def booked (s : Fleet) (d : DeploymentId) : ℤ :=
  1000 * s.billing.usageDebited d + s.remainder d

end Fleet

/-! ## What an operation is worth -/

/-- What is added to a deployment's accumulator as its charge. -/
def accrual (d : DeploymentId) : Event ControlPlane → ℤ
  | ⟨.accrueMetering d' add, _⟩ => if d' = d then add else 0
  | _ => 0

/-- The cents whose debit finds no row of the owner. -/
def dropped (d : DeploymentId) : Event ControlPlane → ℤ
  | ⟨.debitUserToFloor _ cents .usage (some (.deployment d')), .error _⟩ =>
    if d' = d then cents else 0
  | _ => 0

/-- What a transaction adds to what is booked for a deployment. -/
def booking (d : DeploymentId) : Event ControlPlane → ℤ
  | ⟨.accrueMetering d' add, wholeCents, _⟩ => if d' = d then add - 1000 * wholeCents else 0
  | ⟨.debitUserToFloor _ _ .usage (some (.deployment d')), .ok drain⟩ =>
    if d' = d then 1000 * drain.debitedCents else 0
  | ⟨.returnMeteringMcents d' mcents, _⟩ => if d' = d then max 0 mcents else 0
  | _ => 0

/-- A deployment is there, with nothing negative on its accumulator. -/
def Accrues (d : DeploymentId) (s : Fleet) : Prop :=
  (s.deployments.get? d).isSome = true ∧ 0 ≤ s.remainder d

instance (d : DeploymentId) (s : Fleet) : Decidable (Accrues d s) :=
  inferInstanceAs (Decidable (_ ∧ _))

/-- A transaction on the deployment's accumulator adds no negative charge. -/
def Charges (d : DeploymentId) : FleetOp → Prop
  | .accrueMetering d' add => d' = d → 0 ≤ add
  | _ => True

/-- A transaction of money that books no usage of the deployment. -/
def BooksNoUsage (d : DeploymentId) (s : Fleet) : FleetOp → Prop
  | .money op => (op.exec s.billing).usageDebited d = s.billing.usageDebited d
  | _ => True

instance (d : DeploymentId) (s : Fleet) (o : FleetOp) : Decidable (BooksNoUsage d s o) := by
  unfold BooksNoUsage
  split <;> infer_instance

variable {settings : Settings} {protocol : Protocol} {s : Fleet} {d : DeploymentId}

section

variable (db : Db) (u : UserId) (amount : ℤ) (kind : LedgerKind) (reference : Option Reference)

/-- A debit to the floor books what it takes, under its kind and reference. -/
theorem usageDebited_debitUserToFloor :
    (BillingRepository.debitUserToFloor u amount kind reference db).1.usageDebited d =
      db.usageDebited d + if kind = .usage ∧ reference = some (.deployment d) then
        ((BillingRepository.debitUserToFloor u amount kind reference db).2.map
          BillingRepository.FloorDebit.debitedCents).toOption.getD 0 else 0 := by
  unfold BillingRepository.debitUserToFloor
  cases db.users.get? u with
  | none => simp [Except.map, Except.toOption]
  | some row =>
    dsimp only
    by_cases htake : 0 < min (max 0 amount) (max 0 row.balanceCredits)
    · rw [if_pos htake, Db.usageDebited, Db.post_ledger, List.map_append, List.sum_append,
        Db.usageDebited]
      simp [Except.map, Except.toOption]
    · rw [if_neg htake]
      have hzero : min (max 0 amount) (max 0 row.balanceCredits) = 0 := by omega
      simp [Except.map, Except.toOption, hzero]

end

/-- A transaction that is not one of the meter's leaves the accumulators. -/
theorem remainder_exec {o : FleetOp} (hrow : (s.deployments.get? d).isSome = true)
    (haccrue : ∀ add, o ≠ .accrueMetering d add)
    (hreturn : ∀ mcents, o ≠ .returnMeteringMcents d mcents) :
    (o.exec settings s).1.remainder d = s.remainder d := by
  by_cases hsubject : o.subject = some d
  · obtain ⟨row, hget⟩ := Option.isSome_iff_exists.mp hrow
    cases o with
    | createDeployment d' record =>
      obtain rfl := Option.some.inj hsubject
      simp only [FleetOp.exec, ControlPlaneRepository.createDeployment, hrow, if_true]
    | updateDeployment d' record =>
      obtain rfl := Option.some.inj hsubject
      simp [FleetOp.exec, ControlPlaneRepository.updateDeployment, Fleet.remainder, hget,
        savedRow]
    | accrueMetering d' add => exact absurd (Option.some.inj hsubject ▸ rfl) (haccrue add)
    | returnMeteringMcents d' mcents =>
      exact absurd (Option.some.inj hsubject ▸ rfl) (hreturn mcents)
    | setBillableSince d' since =>
      obtain rfl := Option.some.inj hsubject
      simp [FleetOp.exec, setBillableSince, Fleet.remainder, hget]
    | reserveGpus d' hotkey node count capacity =>
      simp only [FleetOp.exec, reserveGpus]
      split <;> rfl
    | updateAssignmentStatus d' status =>
      simp only [FleetOp.exec, updateAssignmentStatus]
      split
      · rfl
      · obtain ⟨placements, hplacements⟩ := modifyLatestPlacement_eq d'
          (fun p ↦ { p with status := status, updatedAt := s.now }) s
        rw [hplacements]
        rfl
    | updatePlacementStatus d' status failed cooldown =>
      simp only [FleetOp.exec, updatePlacementStatus]
      obtain ⟨placements, hplacements⟩ := modifyLatestPlacement_eq d' _ s
      rw [hplacements]
      rfl
    | saveAssignment | releaseGpuReservation => rfl
    | _ => cases hsubject
  · rw [Fleet.remainder, (leaves_exec settings o s).row d hsubject, Fleet.remainder]

/-- No transaction drops a deployment. -/
theorem row_exec {o : FleetOp} (hrow : (s.deployments.get? d).isSome = true) :
    ((o.exec settings s).1.deployments.get? d).isSome = true := by
  have hrecord (t : Fleet) : (t.record d).isSome = (t.deployments.get? d).isSome :=
    Option.isSome_map
  rw [← hrecord] at hrow ⊢
  cases recordStep_exec settings o d s with
  | kept h => rwa [h]
  | saved record _ h => rw [h, Option.isSome_some]
  | created record _ _ h => rw [h, Option.isSome_some]

/-- A transaction that is not one of the meter's adds nothing to what is booked. -/
theorem booked_exec_of_quiet {o : FleetOp} (hrow : (s.deployments.get? d).isSome = true)
    (hdebited : (o.exec settings s).1.billing.usageDebited d = s.billing.usageDebited d)
    (haccrue : ∀ add, o ≠ .accrueMetering d add)
    (hreturn : ∀ mcents, o ≠ .returnMeteringMcents d mcents) :
    (o.exec settings s).1.booked d = s.booked d := by
  rw [Fleet.booked, hdebited, remainder_exec hrow haccrue hreturn, Fleet.booked]

/-- What a debit to the floor is worth. -/
theorem booking_debitUserToFloor (u : UserId) (amount : ℤ) (kind : LedgerKind)
    (reference : Option Reference) (drain : Except BillingError BillingRepository.FloorDebit) :
    booking d ⟨.debitUserToFloor u amount kind reference, drain⟩ =
      if kind = .usage ∧ reference = some (.deployment d) then
        1000 * (drain.map BillingRepository.FloorDebit.debitedCents).toOption.getD 0 else 0 := by
  by_cases hkind : kind = .usage
  · subst hkind
    cases reference with
    | none => cases drain <;> rfl
    | some reference =>
      cases reference with
      | deployment d' =>
        by_cases hd : d' = d
        · subst hd
          cases drain <;> simp [booking, Except.map, Except.toOption]
        · cases drain <;> simp [booking, hd]
      | _ => cases drain <;> rfl
  · rw [if_neg fun h ↦ hkind h.1]
    cases kind with
    | usage => exact absurd rfl hkind
    | _ => rfl

/-- One transaction adds to what is booked for a deployment what its event is worth. -/
theorem booked_exec {o : FleetOp} (hrow : (s.deployments.get? d).isSome = true)
    (hmoney : BooksNoUsage d s o) :
    (o.exec settings s).1.booked d = s.booked d + booking d ⟨o, (o.exec settings s).2⟩ := by
  obtain ⟨row, hget⟩ := Option.isSome_iff_exists.mp hrow
  have hstill (hquiet : o.books = false) :
      (o.exec settings s).1.billing.usageDebited d = s.billing.usageDebited d := by
    rw [(leaves_exec settings o s).billing hquiet]
  cases o with
  | accrueMetering d' add =>
    by_cases hd : d' = d
    · subst hd
      simp only [FleetOp.exec, accrueMetering, hget, booking, if_true, Fleet.booked,
        Fleet.remainder, Table.get?_insert_self, Option.map_some, Option.getD_some]
      ring
    · have hworth : booking d ⟨.accrueMetering d' add,
          ((FleetOp.accrueMetering d' add).exec settings s).2⟩ = 0 := if_neg hd
      rw [hworth, add_zero]
      exact booked_exec_of_quiet hrow (hstill rfl) (by rintro _ ⟨⟩; exact hd rfl)
        (by rintro _ ⟨⟩)
  | returnMeteringMcents d' mcents =>
    by_cases hd : d' = d
    · subst hd
      simp only [FleetOp.exec, returnMeteringMcents, hget, booking, if_true]
      split
      · next hle => rw [max_eq_left hle, add_zero]
      · next hgt =>
        rw [max_eq_right (not_le.mp hgt).le]
        simp only [Fleet.booked, Fleet.remainder, hget, Table.get?_insert_self, Option.map_some,
          Option.getD_some]
        ring
    · have hworth : booking d ⟨.returnMeteringMcents d' mcents,
          ((FleetOp.returnMeteringMcents d' mcents).exec settings s).2⟩ = 0 := if_neg hd
      rw [hworth, add_zero]
      exact booked_exec_of_quiet hrow (hstill rfl) (by rintro _ ⟨⟩)
        (by rintro _ ⟨⟩; exact hd rfl)
  | debitUserToFloor u amount kind reference =>
    have hremainder : ((FleetOp.debitUserToFloor u amount kind reference).exec settings
        s).1.remainder d = s.remainder d :=
      remainder_exec hrow (by rintro _ ⟨⟩) (by rintro _ ⟨⟩)
    have hdebited := usageDebited_debitUserToFloor (d := d) s.billing u amount kind reference
    have hbilling : ((FleetOp.debitUserToFloor u amount kind reference).exec settings
        s).1.billing =
          (BillingRepository.debitUserToFloor u amount kind reference s.billing).1 := rfl
    have hanswer : ((FleetOp.debitUserToFloor u amount kind reference).exec settings s).2 =
        (BillingRepository.debitUserToFloor u amount kind reference s.billing).2 := rfl
    rw [Fleet.booked, hremainder, hbilling, hdebited, hanswer, booking_debitUserToFloor,
      Fleet.booked]
    split_ifs
    · ring
    · ring
  | money op =>
    have hdebited : ((FleetOp.money op).exec settings s).1.billing.usageDebited d =
        s.billing.usageDebited d := hmoney
    exact (booked_exec_of_quiet hrow hdebited (by rintro _ ⟨⟩) (by rintro _ ⟨⟩)).trans
      (add_zero _).symm
  | advance seconds =>
    exact (booked_exec_of_quiet hrow rfl (by rintro _ ⟨⟩) (by rintro _ ⟨⟩)).trans
      (add_zero _).symm
  | _ =>
    exact (booked_exec_of_quiet hrow (hstill rfl) (by rintro _ ⟨⟩) (by rintro _ ⟨⟩)).trans
      (add_zero _).symm

/-- Nothing negative comes onto an accumulator. -/
theorem accrues_exec {o : FleetOp} (haccrues : Accrues d s) (hcharges : Charges d o) :
    Accrues d (o.exec settings s).1 := by
  obtain ⟨hrow, hnonneg⟩ := haccrues
  refine ⟨row_exec hrow, ?_⟩
  obtain ⟨row, hget⟩ := Option.isSome_iff_exists.mp hrow
  by_cases haccrue : ∃ add, o = .accrueMetering d add
  · obtain ⟨add, rfl⟩ := haccrue
    simp only [FleetOp.exec, accrueMetering, hget, Fleet.remainder, Table.get?_insert_self,
      Option.map_some, Option.getD_some]
    omega
  · by_cases hreturn : ∃ mcents, o = .returnMeteringMcents d mcents
    · obtain ⟨mcents, rfl⟩ := hreturn
      simp only [Fleet.remainder, hget, Option.map_some, Option.getD_some] at hnonneg
      simp only [FleetOp.exec, returnMeteringMcents, hget]
      split
      · simpa [Fleet.remainder, hget] using hnonneg
      · simp only [Fleet.remainder, Table.get?_insert_self, Option.map_some, Option.getD_some]
        omega
    · rw [remainder_exec hrow (fun add h ↦ haccrue ⟨add, h⟩) fun mcents h ↦ hreturn ⟨mcents, h⟩]
      exact hnonneg

/-! ## A cycle settles what it accrues -/

/-- What the deployment's accumulator and the owner's account answer. -/
def Honest (d : DeploymentId) : (o : FleetOp) → o.Ans → Prop
  | .accrueMetering d' _, (wholeCents, _) => d' = d → 0 ≤ wholeCents
  | .debitUserToFloor _ cents _ _, .ok drain =>
    drain.debitedCents + drain.shortfallCents = max 0 cents ∧ 0 ≤ drain.shortfallCents
  | _, _ => True

theorem honest_exec {o : FleetOp} (haccrues : Accrues d s) (hcharges : Charges d o) :
    Honest d o (o.exec settings s).2 := by
  cases o with
  | accrueMetering d' add =>
    rintro rfl
    obtain ⟨hrow, hnonneg⟩ := haccrues
    obtain ⟨row, hget⟩ := Option.isSome_iff_exists.mp hrow
    simp only [Fleet.remainder, hget, Option.map_some, Option.getD_some] at hnonneg
    have hadd : 0 ≤ add := hcharges rfl
    simp only [FleetOp.exec, accrueMetering, hget]
    omega
  | debitUserToFloor u cents kind reference =>
    simp only [FleetOp.exec, BillingRepository.debitUserToFloor, Fleet.onBilling]
    cases s.billing.users.get? u with
    | none => trivial
    | some row =>
      refine ⟨?_, ?_⟩
      · dsimp only
        omega
      · dsimp only
        omega
  | _ => trivial

/-- A transaction that books nothing for the deployment. -/
def Unbooked (d : DeploymentId) : FleetOp → Prop
  | .accrueMetering d' _ | .returnMeteringMcents d' _ => d' ≠ d
  | .debitUserToFloor _ _ .usage (some (.deployment d')) => d' ≠ d
  | _ => True

/-- A debit for the deployment that the owner could not pay all of. -/
def FellShort (d : DeploymentId) : Event ControlPlane → Prop
  | ⟨.debitUserToFloor _ _ .usage (some (.deployment d')), .ok drain⟩ =>
    d' = d ∧ 0 < drain.shortfallCents
  | _ => False

/-- A cycle has asked for the deployment's suspension: a status update begins by reading the
deployment, and metering does not read it otherwise. -/
def AskedToSuspend (d : DeploymentId) (past : List (Event ControlPlane)) : Prop :=
  ∃ e ∈ past, e.1 = .getDeployment d

/-- What is on its way: taken off the accumulator, and neither debited nor carried back. -/
def Owes (d : DeploymentId) (owed : ℤ) (past : List (Event ControlPlane)) : Prop :=
  (past.map (booking d)).sum + owed =
    (past.map (accrual d)).sum - 1000 * (past.map (dropped d)).sum

/-- A suspension was asked for exactly if a debit fell short. -/
def SuspendsForShortfall (d : DeploymentId) (past : List (Event ControlPlane)) : Prop :=
  AskedToSuspend d past ↔ ∃ e ∈ past, FellShort d e

/-- Nothing is on its way, and the suspensions are those of the shortfalls. -/
structure SettledUp (d : DeploymentId) (past : List (Event ControlPlane)) : Prop where
  owes : Owes d 0 past
  suspends : SuspendsForShortfall d past

theorem Owes.append {owed : ℤ} {past : List (Event ControlPlane)} (h : Owes d owed past)
    (e : Event ControlPlane) :
    Owes d (owed + accrual d e - 1000 * dropped d e - booking d e) (past ++ [e]) := by
  unfold Owes at h ⊢
  simp only [List.map_append, List.sum_append, List.map_cons, List.map_nil, List.sum_cons,
    List.sum_nil, add_zero]
  linarith

/-- What books nothing is worth nothing. -/
theorem Unbooked.worthless {e : Event ControlPlane} (h : Unbooked d e.1) :
    booking d e = 0 ∧ accrual d e = 0 ∧ dropped d e = 0 ∧ ¬FellShort d e := by
  obtain ⟨o, r⟩ := e
  cases o with
  | accrueMetering d' add => exact ⟨if_neg h, if_neg h, rfl, id⟩
  | returnMeteringMcents d' mcents => exact ⟨if_neg h, rfl, rfl, id⟩
  | debitUserToFloor u cents kind reference =>
    by_cases hkind : kind = .usage
    · subst hkind
      cases reference with
      | none => cases r <;> exact ⟨rfl, rfl, rfl, id⟩
      | some reference =>
        cases reference with
        | deployment d' =>
          have hd : d' ≠ d := h
          cases r with
          | error e => exact ⟨rfl, rfl, if_neg hd, id⟩
          | ok drain => exact ⟨if_neg hd, rfl, rfl, fun hshort ↦ hd hshort.1⟩
        | _ => cases r <;> exact ⟨rfl, rfl, rfl, id⟩
    · cases kind with
      | usage => exact absurd rfl hkind
      | _ => exact ⟨rfl, rfl, rfl, id⟩
  | _ => exact ⟨rfl, rfl, rfl, id⟩

section

variable {past : List (Event ControlPlane)} {e : Event ControlPlane} {owed : ℤ}

theorem Owes.unbooked (h : Owes d owed past) (he : Unbooked d e.1) : Owes d owed (past ++ [e]) := by
  obtain ⟨hbooking, haccrual, hdropped, -⟩ := he.worthless
  have happend := h.append e
  rwa [hbooking, haccrual, hdropped, mul_zero, add_zero, sub_zero, sub_zero] at happend

/-- The whole cents of a charge are taken off the accumulator. -/
theorem Owes.accrued (h : Owes d 0 past) (add wholeCents remainder : ℤ) :
    Owes d (1000 * wholeCents) (past ++ [⟨.accrueMetering d add, wholeCents, remainder⟩]) := by
  unfold Owes at h ⊢
  simp only [List.map_append, List.sum_append, List.map_singleton, List.sum_singleton, booking,
    accrual, dropped, if_true]
  linarith

/-- What finds no row of the owner is dropped. -/
theorem Owes.refused {u : UserId} {cents : ℤ} {error : BillingError}
    (h : Owes d (1000 * cents) past) :
    Owes d 0 (past ++ [⟨.debitUserToFloor u cents .usage (some (.deployment d)),
      .error error⟩]) := by
  unfold Owes at h ⊢
  simp only [List.map_append, List.sum_append, List.map_singleton, List.sum_singleton, booking,
    accrual, dropped, if_true]
  linarith

/-- After a debit, the shortfall is left. -/
theorem Owes.debited {u : UserId} {cents : ℤ} {drain : BillingRepository.FloorDebit}
    (h : Owes d (1000 * cents) past) (hdrain : drain.debitedCents + drain.shortfallCents = cents) :
    Owes d (1000 * drain.shortfallCents)
      (past ++ [⟨.debitUserToFloor u cents .usage (some (.deployment d)), .ok drain⟩]) := by
  unfold Owes at h ⊢
  simp only [List.map_append, List.sum_append, List.map_singleton, List.sum_singleton, booking,
    accrual, dropped, if_true]
  linarith

/-- What is carried back is on its way no longer. -/
theorem Owes.returned {mcents remainder : ℤ} (h : Owes d mcents past) (hmcents : 0 ≤ mcents) :
    Owes d 0 (past ++ [⟨.returnMeteringMcents d mcents, remainder⟩]) := by
  unfold Owes at h ⊢
  simp only [List.map_append, List.sum_append, List.map_singleton, List.sum_singleton, booking,
    accrual, dropped, if_true, max_eq_right hmcents]
  linarith

theorem SuspendsForShortfall.append (h : SuspendsForShortfall d past)
    (hread : e.1 ≠ .getDeployment d) (hcovered : ¬FellShort d e) :
    SuspendsForShortfall d (past ++ [e]) := by
  have hasked : AskedToSuspend d (past ++ [e]) ↔ AskedToSuspend d past := by
    simp [AskedToSuspend, or_and_right, exists_or, hread]
  have hshort : (∃ e' ∈ past ++ [e], FellShort d e') ↔ ∃ e' ∈ past, FellShort d e' := by
    simp [or_and_right, exists_or, hcovered]
  rw [SuspendsForShortfall, hasked, hshort]
  exact h

theorem SettledUp.unbooked (h : SettledUp d past) (he : Unbooked d e.1)
    (hread : e.1 ≠ .getDeployment d) : SettledUp d (past ++ [e]) :=
  ⟨h.owes.unbooked he, h.suspends.append hread he.worthless.2.2.2⟩

end

/-- The judgement about the meter's methods: whatever honest tables answer, they add no negative
charge, and end with what they accrued settled. -/
abbrev Settling (d : DeploymentId) {α : Type} (p : Program ControlPlane α)
    (past : List (Event ControlPlane)) : Prop :=
  p.Asks (Honest d) (fun _ ↦ Charges d) (fun _ ↦ SettledUp d) past

/-- A method that has to do with other deployments settles. -/
theorem settling_of_uses {α : Type} {p : Program ControlPlane α} {past : List (Event ControlPlane)}
    (hp : p.Uses fun o : FleetOp ↦ Unbooked d o ∧ o ≠ .getDeployment d) (h : SettledUp d past) :
    Settling d p past := by
  refine hp.asks (fun past o ho ↦ ?_) (SettledUp d) (fun past o r ho h ↦ h.unbooked ho.1 ho.2) h
  cases o with
  | accrueMetering d' add => exact fun hd ↦ absurd hd ho.1
  | _ => trivial

/-- A method that books nothing, after the deployment was read for its suspension. -/
theorem settling_of_unbooked {α : Type} {p : Program ControlPlane α}
    {past : List (Event ControlPlane)} (hp : p.Uses (Unbooked d)) (howes : Owes d 0 past)
    (hshort : ∃ e ∈ past, FellShort d e) (hasked : AskedToSuspend d past) :
    Settling d p past := by
  have hasks := hp.asks (A := Honest d) (φ := fun _ ↦ Charges d)
    (fun past o ho ↦ ?_)
    (fun past ↦ Owes d 0 past ∧ (∃ e ∈ past, FellShort d e) ∧ AskedToSuspend d past)
    (fun past o r ho h ↦ ?_) ⟨howes, hshort, hasked⟩
  · exact hasks.mono fun _ past ⟨howes, hshort, hasked⟩ ↦
      ⟨howes, iff_of_true hasked hshort⟩
  · cases o with
    | accrueMetering d' add => exact fun hd ↦ absurd hd ho
    | _ => trivial
  · obtain ⟨howes, ⟨e, he, hshort⟩, e', he', hasked⟩ := h
    exact ⟨howes.unbooked ho, ⟨e, List.mem_append_left _ he, hshort⟩, e',
      List.mem_append_left _ he', hasked⟩

theorem unbooked_of_looks (o : FleetOp) (h : o.looks = true) : Unbooked d o := by
  cases o with
  | accrueMetering | returnMeteringMcents | debitUserToFloor => cases h
  | _ => trivial

theorem updateDeploymentStatus_unbooked (d' : DeploymentId) (update : DeploymentStatusUpdate) :
    (updateDeploymentStatus d' update).Uses (Unbooked d) :=
  updateDeploymentStatus_uses unbooked_of_looks trivial (fun _ ↦ trivial) trivial
    (fun _ _ ↦ trivial) fun _ ↦ trivial

/-- Carrying back what the owner could not pay, and asking for the suspension. -/
theorem suspendForBalance_settling {past : List (Event ControlPlane)} {shortfallCents : ℤ}
    (howes : Owes d (1000 * shortfallCents) past) (hpos : 0 < shortfallCents)
    (hshort : ∃ e ∈ past, FellShort d e) :
    Settling d (suspendForBalance d shortfallCents) past := by
  obtain ⟨e, he, hshort⟩ := hshort
  refine .op_bind trivial fun remainder _ ↦ .op_bind trivial fun now _ ↦ ?_
  refine .bind (P := fun _ ↦ SettledUp d) ?_ fun _ _ h ↦ h
  refine .op_bind trivial fun record _ ↦ ?_
  refine settling_of_unbooked ((updateDeploymentStatus_unbooked d _).2 record) ?_
    ⟨e, by simp [he], hshort⟩ ⟨⟨.getDeployment d, record⟩, by simp, rfl⟩
  have hreturned : Owes d 0
      (past ++ [⟨.returnMeteringMcents d (shortfallCents * 1000), remainder⟩]) := by
    rw [mul_comm] at howes
    exact howes.returned (by omega)
  exact (hreturned.unbooked (e := ⟨.now, now⟩) trivial).unbooked
    (e := ⟨.getDeployment d, record⟩) trivial

/-- A charge settles. -/
theorem charge_settling {past : List (Event ControlPlane)} (owner : UserId) {addMcents : ℤ}
    (hadd : 0 ≤ addMcents) (h : SettledUp d past) : Settling d (charge d owner addMcents) past := by
  refine .op_bind (fun _ ↦ hadd) fun ⟨wholeCents, remainder⟩ hwhole ↦ ?_
  have hwhole : 0 ≤ wholeCents := hwhole rfl
  have howes := h.owes.accrued addMcents wholeCents remainder
  have hsuspends := h.suspends.append (e := ⟨.accrueMetering d addMcents, wholeCents, remainder⟩)
    (by rintro ⟨⟩) id
  dsimp only
  split
  · next hnone =>
    -- Nothing came off the accumulator.
    obtain rfl : wholeCents = 0 := le_antisymm hnone hwhole
    exact ⟨howes, hsuspends⟩
  · refine .op_bind trivial fun drain hdrain ↦ ?_
    cases drain with
    | error e => exact ⟨howes.refused, hsuspends.append (by rintro ⟨⟩) id⟩
    | ok drain =>
      obtain ⟨hsum, hnonneg⟩ := hdrain
      rw [max_eq_right hwhole] at hsum
      have hdebited := howes.debited (u := owner) hsum
      dsimp only
      split
      · next hshort =>
        refine .bind (P := fun _ ↦ SettledUp d) (suspendForBalance_settling hdebited hshort
          ⟨_, List.mem_append_right _ (List.mem_singleton_self _), rfl, hshort⟩) fun _ _ h ↦ h
      · next hcovered =>
        have hzero : drain.shortfallCents = 0 := le_antisymm (not_lt.mp hcovered) hnonneg
        rw [hzero, mul_zero] at hdebited
        exact ⟨hdebited, hsuspends.append (by rintro ⟨⟩) fun h ↦ hcovered h.2⟩

/-- A method that only looks, followed by the rest. -/
theorem settling_bind {α β : Type} {p : Program ControlPlane α} {f : α → Program ControlPlane β}
    {past : List (Event ControlPlane)} (hp : p.Uses fun o : FleetOp ↦ o.looks = true)
    (h : SettledUp d past) (hf : ∀ a past, SettledUp d past → Settling d (f a) past) :
    Settling d (p >>= f) past := by
  refine (settling_of_uses (hp.mono fun o ho ↦ ⟨unbooked_of_looks o ho, ?_⟩) h).bind hf
  rintro rfl
  cases ho

theorem meteredMcents_nonneg (hourlyCents gpuCount : ℕ) (record : DeploymentRecord)
    {seconds : Time} (h : 0 ≤ seconds) :
    0 ≤ meteredMcents hourlyCents gpuCount (billedInstances record) seconds := by
  have hinstances : (0 : ℚ) ≤ billedInstances record := by
    exact_mod_cast le_max_of_le_right zero_le_one
  exact roundHalfEven_nonneg (by positivity)

theorem cycleSeconds_nonneg (elapsed : Option Time) : 0 ≤ cycleSeconds elapsed := by
  cases elapsed with
  | none => norm_num [cycleSeconds]
  | some elapsed => exact le_max_left _ _

/-- One pass of the loop settles. -/
theorem meterDeployment_settling {past : List (Event ControlPlane)} {cycle : Time} (now : Time)
    (hcycle : 0 ≤ cycle) (d' : DeploymentId) (record : DeploymentRecord) (h : SettledUp d past) :
    Settling d (meterDeployment settings cycle now d' record) past := by
  by_cases hd : d' = d
  · subst hd
    unfold meterDeployment
    split
    · exact h
    · refine settling_bind (Program.uses_op.mpr rfl) h fun workload past h ↦ ?_
      refine settling_bind (isPrivateModel_uses (fun _ h ↦ h) _ _) h fun private_ past h ↦ ?_
      dsimp only
      split
      · exact h
      · refine settling_bind (boxSilent_uses (fun _ h ↦ h) _ _) h fun silent past h ↦ ?_
        split
        · exact h
        · refine settling_bind (Program.uses_op.mpr rfl) h fun since past h ↦ ?_
          cases since with
          | some since =>
            have hseconds : 0 ≤ min cycle (max 0 (now - since)) :=
              le_min hcycle (le_max_left _ _)
            exact charge_settling _ (meteredMcents_nonneg _ _ _ hseconds) h
          | none =>
            dsimp only
            split
            · exact settling_of_uses (.op_bind ⟨trivial, by rintro ⟨⟩⟩ fun _ ↦ trivial) h
            · exact charge_settling _ (meteredMcents_nonneg _ _ _ hcycle) h
  · have hlooks (o : FleetOp) (ho : o.looks = true) : Unbooked d o ∧ o ≠ .getDeployment d := by
      refine ⟨unbooked_of_looks o ho, ?_⟩
      rintro rfl
      cases ho
    have hread : FleetOp.getDeployment d' ≠ .getDeployment d := by
      rintro ⟨⟩
      exact hd rfl
    refine settling_of_uses (meterDeployment_uses hlooks ⟨trivial, hread⟩ ?_ ?_ ?_ ?_ ?_ ?_ ?_ _ _
      _) h
    · exact fun _ ↦ ⟨trivial, by rintro ⟨⟩⟩
    · exact ⟨trivial, by rintro ⟨⟩⟩
    · exact fun _ _ ↦ ⟨trivial, by rintro ⟨⟩⟩
    · exact fun _ ↦ ⟨trivial, by rintro ⟨⟩⟩
    · exact fun _ ↦ ⟨hd, by rintro ⟨⟩⟩
    · exact fun _ ↦ ⟨hd, by rintro ⟨⟩⟩
    · exact fun _ _ _ ↦ ⟨hd, by rintro ⟨⟩⟩

/-- The loop settles. -/
theorem meterAll_settling {past : List (Event ControlPlane)} {cycle : Time} (now : Time)
    (hcycle : 0 ≤ cycle) (ready : List (DeploymentId × DeploymentRecord)) (h : SettledUp d past) :
    Settling d (meterAll settings cycle now ready) past := by
  induction ready generalizing past with
  | nil => exact h
  | cons row rest ih =>
    exact .bind (meterDeployment_settling now hcycle row.1 row.2 h) fun _ past h ↦
      .bind (ih h) fun _ past h ↦ h

/-- A cycle settles. -/
theorem meterUsage_settling (elapsed : Option Time) :
    Settling d (meterUsage settings elapsed) [] := by
  have hstart : SettledUp d [] := ⟨rfl, by simp [SuspendsForShortfall, AskedToSuspend]⟩
  refine settling_bind (Program.uses_op.mpr rfl) hstart fun now past h ↦ ?_
  refine settling_bind (Program.uses_op.mpr rfl) h fun ready past h ↦ ?_
  exact meterAll_settling now (cycleSeconds_nonneg elapsed) ready h

/-! ## Runs -/

/-- Nothing but the meter books usage for the deployment. -/
def meterBooks (d : DeploymentId) : Guard ControlPlane FleetCall Fleet := fun _ _ o s ↦
  BooksNoUsage d s o

instance (d : DeploymentId) (c : FleetCall) (past : List (Event ControlPlane)) (o : FleetOp)
    (s : Fleet) : Decidable (meterBooks d c past o s) := inferInstanceAs (Decidable (BooksNoUsage ..))

/-- No cycle of the meter is still going on. -/
def CyclesDone (w : World ControlPlane FleetCall Fleet) : Prop :=
  ∀ t ∈ w.threads, t.call.meters = true → t.rest = .done ()

instance (w : World ControlPlane FleetCall Fleet) : Decidable (CyclesDone w) :=
  inferInstanceAs (Decidable (∀ t ∈ w.threads, _))

theorem unbooked_of_unmetered (o : FleetOp) (h : Unmetered o) : Unbooked d o := by
  cases o with
  | accrueMetering | returnMeteringMcents | debitUserToFloor => cases h
  | _ => trivial

/-- Every call is fit for its history: a cycle settles, and the other calls charge nothing. -/
theorem body_settles (settings : Settings) (protocol : Protocol) (d : DeploymentId)
    (c : FleetCall) :
    (c.body settings protocol).Asks (Honest d) (fun _ ↦ Charges d)
      (fun _ past ↦ c.meters = true → SettledUp d past) [] := by
  cases hc : c.meters with
  | true =>
    cases c with
    | meterUsage elapsed =>
      exact (meterUsage_settling elapsed).bind fun _ past h ↦ fun _ ↦ h
    | _ => cases hc
  | false =>
    have hcharges (o : FleetOp) (ho : Unmetered o) : Charges d o := by
      cases o with
      | accrueMetering => cases ho
      | _ => trivial
    refine (body_unmetered settings protocol hc).asks (fun _ o ho ↦ hcharges o ho) _
      (fun _ _ _ _ _ h ↦ nomatch h) fun h ↦ nomatch h

/-- A cycle touches nothing but what the control plane owns. -/
theorem meterUsage_inside (elapsed : Option Time) :
    (meterUsage settings elapsed).Uses fun o : FleetOp ↦ o.outside = false := by
  have hlooks (o : FleetOp) (ho : o.looks = true) : o.outside = false := by
    cases o with
    | upsertHeartbeat | setMinerDrained | money | advance => cases ho
    | _ => rfl
  refine .op_bind rfl fun now ↦ .op_bind rfl fun ready ↦ ?_
  unfold cycleSeconds
  induction ready with
  | nil => trivial
  | cons row rest ih =>
    refine .bind ?_ fun _ ↦ .bind ih fun _ ↦ trivial
    exact meterDeployment_uses hlooks rfl (fun _ ↦ rfl) rfl (fun _ _ ↦ rfl) (fun _ ↦ rfl)
      (fun _ ↦ rfl) (fun _ ↦ rfl) (fun _ _ _ ↦ rfl) _ _ _

/-- From inside, a balance is driven no further below nothing than it is. -/
theorem min_zero_le_balance_exec {o : FleetOp} (h : o.outside = false) (u : UserId) :
    min 0 (s.billing.balance u) ≤ (o.exec settings s).1.billing.balance u := by
  have hstill (hquiet : o.books = false) :
      min 0 (s.billing.balance u) ≤ (o.exec settings s).1.billing.balance u := by
    rw [(leaves_exec settings o s).billing hquiet]
    exact min_le_right _ _
  cases o with
  | debitUserToFloor u' amount kind reference =>
    exact min_zero_le_debitUserToFloor u' amount kind reference s.billing u
  | money | advance => cases h
  | _ => exact hstill rfl

section

variable {s₀ : Fleet} {w : World ControlPlane FleetCall Fleet}

/-- The deployment accrues all along a run, and its finished cycles are settled up. -/
theorem settledUp_reaches (hs₀ : Accrues d s₀)
    (run : (controlPlane settings protocol).Reaches (meterBooks d) ⟨s₀, []⟩ w) :
    Accrues d w.store ∧
      ∀ t ∈ w.threads, t.call.meters = true → t.rest = .done () → SettledUp d t.past := by
  have hmeets := (run.sound (K := .ofInv (Accrues d))
    (Q := fun c past _ ↦ c.meters = true → SettledUp d past) (fun c s _ ↦ ?_) hs₀ rfl).1
  · exact ⟨hmeets.inv, fun t ht hmeter hdone ↦ hmeets.finished ht hdone hmeter⟩
  · exact .of_asks (body_settles settings protocol d c) fun past o s hcharges haccrues _ _ ↦
      ⟨honest_exec haccrues hcharges, accrues_exec haccrues hcharges, trivial⟩

/-- What is booked has grown by what the histories book. -/
theorem booked_reaches (hs₀ : Accrues d s₀)
    (run : (controlPlane settings protocol).Reaches (meterBooks d) ⟨s₀, []⟩ w) :
    w.store.booked d = s₀.booked d + w.worth (booking d) :=
  run.account (booking d) rfl (fun s ↦ s.booked d) (fun _ hreach ↦ (settledUp_reaches hs₀ hreach).1)
    fun _ _ _ _ haccrues hguard ↦ booked_exec haccrues.1 hguard

/-- Once no cycle is going on, the histories book what they accrued and did not drop. -/
theorem worth_booking (hs₀ : Accrues d s₀)
    (run : (controlPlane settings protocol).Reaches (meterBooks d) ⟨s₀, []⟩ w)
    (hdone : CyclesDone w) :
    w.worth (booking d) = w.worth (accrual d) - 1000 * w.worth (dropped d) := by
  have hthread (t : Thread ControlPlane FleetCall) (ht : t ∈ w.threads) :
      (t.past.map (accrual d)).sum =
        (t.past.map (booking d)).sum + 1000 * (t.past.map (dropped d)).sum := by
    cases hmeter : t.call.meters with
    | true =>
      have howes := ((settledUp_reaches hs₀ run).2 t ht hmeter (hdone t ht hmeter)).owes
      rw [Owes, add_zero] at howes
      rw [howes, sub_add_cancel]
    | false =>
      -- The other calls take no transaction of the meter's.
      have hpast := (run.uses rfl (φ := fun c o ↦ c.meters = false → Unmetered o) fun c ↦
        ?_) t ht
      · have hworthless (e : Event ControlPlane) (he : e ∈ t.past) :=
          (unbooked_of_unmetered (d := d) e.1 ((hpast.2 e he).1 hmeter)).worthless
        have hzero (gain : Event ControlPlane → ℤ) (h : ∀ e ∈ t.past, gain e = 0) :
            (t.past.map gain).sum = 0 := List.sum_eq_zero fun x hx ↦ by
          obtain ⟨e, he, rfl⟩ := List.mem_map.mp hx
          exact h e he
        rw [hzero _ fun e he ↦ (hworthless e he).2.1, hzero _ fun e he ↦ (hworthless e he).1,
          hzero _ fun e he ↦ (hworthless e he).2.2.1]
        rfl
      · cases hc : c.meters with
        | true => exact .of_forall (fun _ h ↦ nomatch h) _
        | false => exact (body_unmetered settings protocol hc).mono fun _ h _ ↦ h
  simp only [World.worth]
  rw [List.map_congr_left hthread, List.sum_map_add, List.sum_map_mul_left, add_sub_cancel_right]

end

/-- User 1's pod has run for an hour on a machine that still reports, and no cycle was made. -/
private def meteredPod (balanceCents : ℤ) : Fleet :=
  (controlPlane {} quotedRates).afterAll (podOwner balanceCents) (startPod ++
    [.advance 3600, .updateCapacity ⟨7, [oneNode], 3600⟩, .recordHeartbeat 7 ⟨true, some 3600⟩])

/-- The same pod, when no row of its owner is left. -/
private def unownedPod : Fleet := { meteredPod 0 with billing := { Db.empty with now := 3600 } }

end GreenCompute
