import GreenCompute.ControlPlane.Leases
import GreenCompute.Foundations.Steps

/-!
# A resume that is under way

A rental that is resumed stays suspended in the tables until its machine reports. Three periodic
passes go by those tables: one deletes rentals whose retention is over, one charges for the storage
of saved ones, one resumes what a top-up pays for. Only the last looks at the leases, by which a
resume that is under way can be told, and it looks once. Each pass reads its rows first and then
takes them one by one, while anything else goes on; `resume_left_alone` is about the runs in which
no pass comes to a row whose resume it does not see.
-/

namespace GreenCompute

open ControlPlaneRepository ControlPlaneService

/-! ## Passes -/

/-- Rows as a pass has read them. -/
abbrev Rows := List (DeploymentId × DeploymentRecord)

/-- A pass in progress, with the rows it has still to take. What a pass that resumes has not seen in
the leases it has read is kept beside it: the deployments that were resumed since. -/
inductive Pass where
  | reap (observedAt : Time) (todo : Rows)
  | storage (todo : Rows)
  | flagged (rows : Rows)
  | leases (rows : Rows) (live since : List DeploymentId)
  | candidates (todo : Rows) (since : List DeploymentId)

/-- The tables, with the storage meter of each rental, the passes in progress, and what is to be
watched: which rentals are being resumed, and which of those a pass did not leave alone. -/
structure ResumeWorld where
  fleet : Fleet
  storageRemainderMcents : Table DeploymentId ℕ
  passes : List Pass
  resuming : List DeploymentId
  harmed : List DeploymentId

/-- What the storage of saved rentals costs. -/
structure StorageTerms where
  podStorageBillingEnabled : Bool
  storageMcentsPerMinute : ℕ

/-- `SUSPENDED_FOR_BALANCE` -/
def suspendedForBalance : Text := "balance".toList

namespace Fleet

variable (s : Fleet)

/-- `_is_rental` -/
def isRental (record : DeploymentRecord) : Bool :=
  (s.workloads.get? record.workloadId).any fun w ↦ w.kind ≠ .inference

/-- The checks of `reap_exhausted_pods` on a row. -/
def reapDue (settings : Settings) (observedAt : Time) (record : DeploymentRecord) : Bool :=
  (record.suspendedAt.any fun suspendedAt ↦
    ¬observedAt - suspendedAt < retentionSeconds settings record) && s.isRental record

/-- The checks of `meter_pod_storage` on a row. -/
def storageDue (record : DeploymentRecord) : Bool :=
  record.ownerUserId.isSome && record.saveOnExhaustion && record.suspendedAt.isSome &&
    s.isRental record

/-- The deployments that `auto_resume_once` may resume. -/
def flaggedRows : Rows :=
  (listDeploymentsByState .suspended s).filter fun r ↦
    r.2.ownerUserId.isSome && r.2.resumeOnTopup && decide (r.2.suspendedReason = suspendedForBalance)

/-- The deployments with a live lease. -/
def liveLeases : List DeploymentId := (listAssignments activeStatuses s).map Prod.fst

/-- The suspended deployments with one of the leases, as `_committed_by_owner` finds them. -/
def resumingRows (live : List DeploymentId) : List DeploymentId :=
  ((listDeploymentsByState .suspended s).filter fun r ↦
    r.2.ownerUserId.isSome && decide (r.1 ∈ live)).map Prod.fst

end Fleet

/-- When a flagged deployment was suspended, as far as is known. -/
def suspensionKey (r : DeploymentId × DeploymentRecord) : Time :=
  r.2.suspendedAt.getD r.2.updatedAt

/-! ## Watching resumes -/

/-- The resume is still under way: it has not ended in a running deployment or another
suspension. -/
def stillResuming (s s' : Fleet) (d : DeploymentId) : Bool :=
  s'.state d ≠ some .ready ∧ ¬(s'.state d = some .suspended ∧ (s.state d ≠ some .suspended ∨
    (s'.leases.get? d).map LeaseAssignment.status = some .suspended))

/-- Note that a deployment was resumed after the leases were read. -/
def Pass.noteResume (d : DeploymentId) : Pass → Pass
  | leases rows live since => leases rows live (d :: since)
  | candidates todo since => candidates todo (d :: since)
  | p => p

namespace ResumeWorld

variable (w : ResumeWorld)

/-- The tables have changed. -/
def move (s : Fleet) : ResumeWorld :=
  { w with fleet := s, resuming := w.resuming.filter (stillResuming w.fleet s) }

/-- A resume has returned. -/
def noteResume (d : DeploymentId) : ResumeWorld :=
  { w with resuming := d :: w.resuming, passes := w.passes.map (Pass.noteResume d) }

/-- A pass did not leave a deployment alone. -/
def noteHarm (d : DeploymentId) : ResumeWorld :=
  if d ∈ w.resuming then { w with harmed := w.harmed ++ [d] } else w

/-- Put a pass in place of one in progress. -/
def setPass (i : ℕ) (p : Pass) : ResumeWorld := { w with passes := w.passes.set i p }

variable (settings : Settings) (terms : StorageTerms)

/-- The control plane's `resume_deployment`. -/
def resume (d : DeploymentId) : ResumeWorld :=
  match run settings (resumeDeployment d) w.fleet with
  | (s, .ok _) => (w.move s).noteResume d
  | (s, .error _) => w.move s

/-- One turn of the loop of `reap_exhausted_pods`. -/
def reapOne (observedAt : Time) (d : DeploymentId) (record : DeploymentRecord) : ResumeWorld :=
  let s := (run settings (reap settings observedAt d record) w.fleet).1
  let noted := if w.fleet.state d ≠ some .terminated ∧ s.state d = some .terminated
    then w.noteHarm d else w
  noted.move s

/-- `accrue_storage` -/
def accrueStorage (d : DeploymentId) (addMcents : ℕ) : ResumeWorld × ℕ :=
  match w.fleet.deployments.get? d with
  | none => (w, 0)
  | some _ =>
    let total := (w.storageRemainderMcents.get? d).getD 0 + addMcents
    let wholeCents := total / 1000
    ({ w with
      storageRemainderMcents := w.storageRemainderMcents.insert d (total - wholeCents * 1000) },
      wholeCents)

/-- One turn of the loop of `meter_pod_storage`. -/
def storageOne (d : DeploymentId) (record : DeploymentRecord) : ResumeWorld :=
  match record.ownerUserId with
  | none => w
  | some owner =>
    if w.fleet.storageDue record then
      let (accrued, wholeCents) := (w.noteHarm d).accrueStorage d terms.storageMcentsPerMinute
      if wholeCents = 0 then accrued
      else
        let billing := (BillingRepository.debitUser owner wholeCents (.other "storage".toList)
          (some (.deployment d)) true accrued.fleet.billing).1
        accrued.move { accrued.fleet with billing := billing }
    else w

/-- One turn of the last loop of `auto_resume_once`; what the owner's balance and the gateway's own
checks say is given. -/
def resumeOne (d : DeploymentId) (allowed : Bool) : ResumeWorld :=
  if allowed then
    match (run settings (resumeDeployment d) w.fleet).2 with
    | .ok _ => (w.noteHarm d).resume settings d
    | .error _ => w.resume settings d
  else w

/-- The next transaction of a pass. -/
def next (i : ℕ) (allowed : Bool) : ResumeWorld :=
  match w.passes[i]? with
  | some (.reap observedAt ((d, record) :: rest)) =>
    (w.setPass i (.reap observedAt rest)).reapOne settings observedAt d record
  | some (.storage ((d, record) :: rest)) =>
    (w.setPass i (.storage rest)).storageOne terms d record
  | some (.flagged rows) => w.setPass i (.leases rows w.fleet.liveLeases [])
  | some (.leases rows live since) =>
    w.setPass i (.candidates ((rows.filter fun r ↦ r.1 ∉ w.fleet.resumingRows live).insertionSort
      fun a b ↦ suspensionKey a ≤ suspensionKey b) since)
  | some (.candidates ((d, _) :: rest) since) =>
    (w.setPass i (.candidates rest since)).resumeOne settings d allowed
  | _ => w

end ResumeWorld

/-! ## Runs -/

/-- What can happen: a pass starts, or does its next transaction, or anything is asked of the
control plane. -/
inductive ResumeOp where
  | fleet (c : FleetCall)
  | startReap (now : Option Time)
  | startStorage
  | startAutoResume
  | next (i : ℕ) (allowed : Bool)

namespace ResumeOp

variable (settings : Settings) (protocol : Protocol) (terms : StorageTerms)

/-- Start a pass of `reap_exhausted_pods`. -/
def beginReap (now : Option Time) (w : ResumeWorld) : ResumeWorld :=
  if settings.podExhaustionReaperEnabled then
    { w with passes := w.passes ++
      [.reap (now.getD w.fleet.now) (listDeploymentsByState .suspended w.fleet)] }
  else w

/-- One step. The reaper's passes are taken apart, whoever starts them. -/
def exec : ResumeOp → ResumeWorld → ResumeWorld
  | fleet (.reapExhaustedPods now), w | startReap now, w => beginReap settings now w
  | fleet (.resumeDeployment d), w => w.resume settings d
  | fleet c, w => w.move ((controlPlane settings protocol).after c w.fleet)
  | startStorage, w =>
    if terms.podStorageBillingEnabled then
      { w with passes := w.passes ++ [.storage (listDeploymentsByState .suspended w.fleet)] }
    else w
  | startAutoResume, w => { w with passes := w.passes ++ [.flagged w.fleet.flaggedRows] }
  | next i allowed, w => w.next settings terms i allowed

end ResumeOp

/-- The passes come to no row whose resume they do not see: a rental whose resume is under way is
not past its retention when the reaper comes to it, nor to be charged when the storage meter does,
and it was not resumed after the pass that is to resume it has read the leases. Nor is it failed by
the operator, which would end its lease. -/
def Sighted (settings : Settings) : ResumeOp → ResumeWorld → Prop
  | .fleet c, w => SparesResuming w.fleet c
  | .next i _, w =>
    match w.passes[i]? with
    | some (.reap observedAt ((d, record) :: _)) =>
      d ∈ w.resuming → w.fleet.reapDue settings observedAt record = false
    | some (.storage ((d, record) :: _)) => d ∈ w.resuming → w.fleet.storageDue record = false
    | some (.candidates ((d, _) :: _) since) => d ∉ since
    | _ => True
  | _, _ => True

instance (settings : Settings) (o : ResumeOp) (w : ResumeWorld) :
    Decidable (Sighted settings o w) := by
  unfold Sighted
  repeat' split
  all_goals infer_instance

/-! ## What the control plane keeps -/

section Keeps

variable {settings : Settings} {protocol : Protocol} {s s' : Fleet} {d : DeploymentId}

/-- The deployment has an owner. -/
def Position.Owned (p : Position) : Prop :=
  ∃ record ∈ p.stand.record, record.ownerUserId.isSome = true

/-- An owner is kept by whatever saves a record on the same terms. -/
theorem Position.owned_save {p : Position} {stand : Stand} {since : Option Time}
    {record saved : DeploymentRecord} (hp : p.Owned) (found : p.stand.record = some record)
    (same : saved.ownerUserId = record.ownerUserId) : (⟨stand.save saved, since⟩ : Position).Owned := by
  obtain ⟨record', hrecord, howner⟩ := hp
  obtain rfl := Option.some.inj (found.symm.trans hrecord)
  exact ⟨saved, rfl, same ▸ howner⟩

/-- No edit takes a deployment from its owner. -/
theorem Edit.owned {c : FleetCall} {now : Time} {p q : Position} (h : Edit c d now p q)
    (hp : p.Owned) : q.Owned := by
  cases h with
  | created request quote made missing =>
    obtain ⟨record, hrecord, -⟩ := hp
    exact nomatch missing.symm.trans hrecord
  | noted record saved found same => exact Position.owned_save hp found same.ownerUserId
  | reported update record readyAt found => exact Position.owned_save hp found rfl
  | scheduled record saved stand attempts granted made found waiting terms =>
    exact Position.owned_save hp found terms.ownerUserId
  | unplaced record saved stand origin found terms =>
    exact Position.owned_save hp found terms.ownerUserId
  | ended record saved reason made found terms =>
    exact Position.owned_save hp found terms.ownerUserId
  | freed stand kept | resumed stand made kept =>
    obtain ⟨record, hrecord, howner⟩ := hp
    exact ⟨record, kept.trans hrecord, howner⟩
  | stamped => exact hp

theorem Edited.owned {c : FleetCall} (h : Edited c s s') (hs : (s.position d).Owned) :
    (s'.position d).Owned := by
  have hedits := h.position d
  generalize s'.position d = q at hedits ⊢
  induction hedits with
  | refl => exact hs
  | tail _ hedit ih => exact hedit.owned ih

theorem owned_after (c : FleetCall) (hs : (s.position d).Owned) :
    (((controlPlane settings protocol).after c s).position d).Owned :=
  position_after_of_edits settings protocol c (fun _ _ h hp ↦ h.owned hp) hs

theorem mem_resumingRows {live : List DeploymentId} (hstate : s.state d = some .suspended)
    (howned : (s.position d).Owned) (hlive : d ∈ live) : d ∈ s.resumingRows live := by
  obtain ⟨record, hrecord, howner⟩ := howned
  have hsuspended : record.state = .suspended :=
    Option.some.inj ((Fleet.state_of_some hrecord).symm.trans hstate)
  refine List.mem_map.mpr ⟨(d, record), List.mem_filter.mpr ⟨?_, ?_⟩, rfl⟩
  · exact mem_listDeploymentsByState.mpr ⟨hrecord, hsuspended⟩
  · rw [Bool.and_eq_true, decide_eq_true_eq]
    exact ⟨howner, hlive⟩

theorem owned_of_mem_flaggedRows {r : DeploymentId × DeploymentRecord} (h : r ∈ s.flaggedRows) :
    (s.position r.1).Owned := by
  obtain ⟨hrow, hflags⟩ := List.mem_filter.mp h
  rw [Bool.and_eq_true, Bool.and_eq_true] at hflags
  exact ⟨r.2, (mem_listDeploymentsByState.mp hrow).1, hflags.1.1⟩

theorem mem_liveLeases (h : s.Leased d) : d ∈ s.liveLeases := by
  obtain ⟨lease, hlease, hactive⟩ := h
  refine List.mem_map.mpr ⟨(d, lease), ?_, rfl⟩
  exact Table.mem_select.mpr ⟨hlease, decide_eq_true hactive⟩

/-- A row that is not due is left as it is. -/
theorem run_reap_of_not_due {observedAt : Time} {record : DeploymentRecord}
    (h : s.reapDue settings observedAt record = false) :
    (run settings (reap settings observedAt d record) s).1 = s := by
  rw [Fleet.reapDue] at h
  rw [reap]
  cases hsuspended : record.suspendedAt with
  | none => rfl
  | some suspendedAt =>
    rw [hsuspended, Option.any_some] at h
    dsimp only
    rw [run_bind, run_of_looks settings (isRental_uses (fun _ h ↦ h) _)]
    change (run settings (if s.isRental record = false then _ else _) s).1 = s
    by_cases hrental : s.isRental record = false
    · rw [if_pos hrental]
      rfl
    · rw [Bool.not_eq_false] at hrental
      rw [hrental, Bool.and_true, decide_eq_false_iff_not, not_not] at h
      rw [if_neg (by rw [hrental]; decide), if_pos h]
      rfl

variable (settings) in
/-- A deployment that is not suspended is not resumed. -/
theorem run_resumeDeployment_of_not_suspended (hstate : s.state d ≠ some .suspended) :
    ∃ e, (run settings (resumeDeployment d) s).2 = .error e := by
  have hspec := run_resumeDeployment settings d s
  generalize run settings (resumeDeployment d) s = out at hspec ⊢
  cases hspec with
  | refused e s' same => exact ⟨e, rfl⟩
  | resumed record saved s' found suspended =>
    exact absurd ((Fleet.state_of_some found).trans (congrArg some suspended)) hstate

/-- What every change of the tables keeps of those that a resume can be told by. -/
structure Follows (s s' : Fleet) : Prop where
  tied : TiedLeases s'
  leased : ∀ d, (s.leases.get? d).isSome = true → (s'.leases.get? d).isSome = true
  owned : ∀ d, (s.position d).Owned → (s'.position d).Owned

theorem Follows.of_call (settings : Settings) (protocol : Protocol) {c : FleetCall}
    (hs : TiedLeases s) (hc : SparesResuming s c) :
    Follows s ((controlPlane settings protocol).after c s) :=
  ⟨tied_after hs hc, fun _ ↦ isSome_lease_run settings _, fun _ ↦ owned_after c⟩

theorem Follows.of_resume (settings : Settings) (hs : TiedLeases s) (d : DeploymentId) :
    Follows s (run settings (resumeDeployment d) s).1 := by
  have hshifted : Shifted (.resumeDeployment d) s (run settings (resumeDeployment d) s).1 :=
    shifted_of_about (permits_about d).resumeDeployment_uses shifts_resumeDeployment
  exact ⟨hshifted.tied hs nofun, fun _ ↦ isSome_lease_run settings _,
    fun _ ↦ hshifted.edited.owned⟩

theorem Follows.of_reap (settings : Settings) (hs : TiedLeases s) (observedAt : Time)
    (d : DeploymentId) (record : DeploymentRecord) :
    Follows s (run settings (reap settings observedAt d record) s).1 := by
  have hshifted := shifted_reap settings none observedAt d record s
  exact ⟨hshifted.tied hs nofun, fun _ ↦ isSome_lease_run settings _,
    fun _ ↦ hshifted.edited.owned⟩

end Keeps

/-! ## The invariant -/

namespace ResumeWorld

variable {settings : Settings} {protocol : Protocol} {terms : StorageTerms} {w : ResumeWorld}
  {s : Fleet} {d : DeploymentId}

/-- A pass that resumes sees what it will come to: a row whose resume is under way is one it can
tell by the leases it has read, or one that was resumed since. -/
def Sees (w : ResumeWorld) : Pass → Prop
  | .flagged rows => ∀ r ∈ rows, (w.fleet.position r.1).Owned
  | .leases rows live since => ∀ r ∈ rows, (w.fleet.position r.1).Owned ∧
      (r.1 ∈ w.resuming → r.1 ∉ since → w.fleet.state r.1 = some .suspended → r.1 ∈ live)
  | .candidates todo since =>
    ∀ r ∈ todo, r.1 ∈ w.resuming → r.1 ∉ since → w.fleet.state r.1 ≠ some .suspended
  | _ => True

/-- Resumes are left alone so far, and can be told by their leases. -/
structure LeftAlone (w : ResumeWorld) : Prop where
  tied : TiedLeases w.fleet
  leased : ∀ d ∈ w.resuming, w.fleet.state d = some .suspended → w.fleet.Leased d
  sees : ∀ p ∈ w.passes, w.Sees p
  unharmed : w.harmed = []

/-- A resume that goes on in a suspended deployment was going on in one before. -/
theorem suspended_of_stillResuming {s s' : Fleet} (h : stillResuming s s' d = true)
    (hstate : s'.state d = some .suspended) : s.state d = some .suspended ∧
      (s'.leases.get? d).map LeaseAssignment.status ≠ some .suspended := by
  have hstill := (of_decide_eq_true h).2
  simp only [hstate, true_and, not_or, not_not] at hstill
  exact hstill

namespace LeftAlone

theorem move (h : w.LeftAlone) (hs : Follows w.fleet s) : (w.move s).LeftAlone := by
  refine ⟨hs.tied, fun d hd hstate ↦ ?_, fun p hp ↦ ?_, h.unharmed⟩
  · obtain ⟨hresuming, hstill⟩ := List.mem_filter.mp hd
    obtain ⟨hbefore, hstatus⟩ := suspended_of_stillResuming hstill hstate
    obtain ⟨old, hold, -⟩ := h.leased d hresuming hbefore
    -- The lease is still there, and as it does not say that the deployment is suspended, it is live.
    have hsome := hs.leased d (Option.isSome_of_mem hold)
    obtain ⟨lease, hlease⟩ := Option.isSome_iff_exists.mp hsome
    obtain ⟨record, hrecord, hrecordState⟩ := Option.map_eq_some_iff.mp hstate
    refine ⟨lease, hlease, ((hs.tied d record hrecord).2 hrecordState lease hlease).resolve_right ?_⟩
    intro hsuspended
    exact hstatus ((congrArg (Option.map LeaseAssignment.status) hlease).trans
      (congrArg some hsuspended))
  · have hsees := h.sees p hp
    cases p with
    | reap => trivial
    | storage => trivial
    | flagged rows => exact fun r hr ↦ hs.owned r.1 (hsees r hr)
    | leases rows live since =>
      intro r hr
      obtain ⟨howned, hlive⟩ := hsees r hr
      refine ⟨hs.owned r.1 howned, fun hd hsince hstate ↦ ?_⟩
      obtain ⟨hresuming, hstill⟩ := List.mem_filter.mp hd
      exact hlive hresuming hsince (suspended_of_stillResuming hstill hstate).1
    | candidates todo since =>
      intro r hr hd hsince hstate
      obtain ⟨hresuming, hstill⟩ := List.mem_filter.mp hd
      exact hsees r hr hresuming hsince (suspended_of_stillResuming hstill hstate).1

theorem noteResume (h : w.LeftAlone) (hleased : w.fleet.Leased d) : (w.noteResume d).LeftAlone := by
  refine ⟨h.tied, fun d' hd' hstate ↦ ?_, fun p hp ↦ ?_, h.unharmed⟩
  · rcases List.mem_cons.mp hd' with rfl | hresuming
    · exact hleased
    · exact h.leased d' hresuming hstate
  · obtain ⟨q, hq, rfl⟩ := List.mem_map.mp hp
    have hsees := h.sees q hq
    cases q with
    | reap => trivial
    | storage => trivial
    | flagged rows => exact hsees
    | leases rows live since =>
      intro r hr
      refine ⟨(hsees r hr).1, fun hd hsince hstate ↦ ?_⟩
      obtain ⟨hne, hbefore⟩ := not_or.mp (List.mem_cons.not.mp hsince)
      exact (hsees r hr).2 ((List.mem_cons.mp hd).resolve_left hne) hbefore hstate
    | candidates todo since =>
      intro r hr hd hsince
      obtain ⟨hne, hbefore⟩ := not_or.mp (List.mem_cons.not.mp hsince)
      exact hsees r hr ((List.mem_cons.mp hd).resolve_left hne) hbefore

theorem setPass (h : w.LeftAlone) (i : ℕ) {p : Pass} (hp : w.Sees p) :
    (w.setPass i p).LeftAlone := by
  refine ⟨h.tied, h.leased, fun q hq ↦ ?_, h.unharmed⟩
  rcases List.mem_or_eq_of_mem_set hq with hmem | rfl
  · exact h.sees q hmem
  · exact hp

theorem addPass (h : w.LeftAlone) {p : Pass} (hp : w.Sees p) :
    ({ w with passes := w.passes ++ [p] } : ResumeWorld).LeftAlone := by
  refine ⟨h.tied, h.leased, fun q hq ↦ ?_, h.unharmed⟩
  rcases List.mem_append.mp hq with hmem | hmem
  · exact h.sees q hmem
  · rw [List.mem_singleton.mp hmem]
    exact hp

theorem resume (h : w.LeftAlone) (settings : Settings) (d : DeploymentId) :
    (w.resume settings d).LeftAlone := by
  have hfollows := Follows.of_resume settings h.tied d
  have hspec := run_resumeDeployment settings d w.fleet
  rw [ResumeWorld.resume]
  generalize run settings (resumeDeployment d) w.fleet = out at hfollows hspec ⊢
  cases hspec with
  | refused e s' same => exact h.move hfollows
  | resumed record saved s' found suspended placed saves state hotkey leased =>
    obtain ⟨lease, hlease⟩ := Option.isSome_iff_exists.mp ((h.tied d record found).1 placed)
    refine (h.move hfollows).noteResume ⟨{ lease with status := .active }, ?_, ?_⟩
    · exact leased.trans (congrArg (Option.map _) hlease)
    · exact active_mem_activeStatuses

theorem noteHarm_eq (hd : d ∉ w.resuming) : w.noteHarm d = w := if_neg hd

theorem reapOne (h : w.LeftAlone) {observedAt : Time} {record : DeploymentRecord}
    (hseen : d ∈ w.resuming → w.fleet.reapDue settings observedAt record = false) :
    (w.reapOne settings observedAt d record).LeftAlone := by
  have hfollows := Follows.of_reap settings h.tied observedAt d record
  rw [ResumeWorld.reapOne]
  by_cases hd : d ∈ w.resuming
  · have hsame := run_reap_of_not_due (d := d) (hseen hd)
    rw [hsame] at hfollows ⊢
    rw [if_neg fun hreaped ↦ hreaped.1 hreaped.2]
    exact h.move hfollows
  · rw [noteHarm_eq hd, ite_self]
    exact h.move hfollows

theorem accrueStorage (h : w.LeftAlone) (d : DeploymentId) (addMcents : ℕ) :
    (w.accrueStorage d addMcents).1.LeftAlone := by
  rw [ResumeWorld.accrueStorage]
  split
  · exact h
  · exact ⟨h.tied, h.leased, h.sees, h.unharmed⟩

theorem storageOne (h : w.LeftAlone) (terms : StorageTerms) {record : DeploymentRecord}
    (hseen : d ∈ w.resuming → w.fleet.storageDue record = false) :
    (w.storageOne terms d record).LeftAlone := by
  rw [ResumeWorld.storageOne]
  cases record.ownerUserId with
  | none => exact h
  | some owner =>
    dsimp only
    split
    · rename_i hdue
      have hd : d ∉ w.resuming := fun hd ↦ nomatch (hseen hd).symm.trans hdue
      rw [noteHarm_eq hd]
      have haccrued := h.accrueStorage d terms.storageMcentsPerMinute
      generalize w.accrueStorage d terms.storageMcentsPerMinute = accrued at haccrued ⊢
      split
      · exact haccrued
      · exact haccrued.move ⟨haccrued.tied, fun _ ↦ id, fun _ ↦ id⟩
    · exact h

theorem resumeOne (h : w.LeftAlone) (settings : Settings) {allowed : Bool}
    (hseen : d ∈ w.resuming → w.fleet.state d ≠ some .suspended) :
    (w.resumeOne settings d allowed).LeftAlone := by
  rw [ResumeWorld.resumeOne]
  split
  · split
    · rename_i saved hresumed
      have hd : d ∉ w.resuming := by
        intro hd
        obtain ⟨e, he⟩ := run_resumeDeployment_of_not_suspended settings (hseen hd)
        exact nomatch he.symm.trans hresumed
      rw [noteHarm_eq hd]
      exact h.resume settings d
    · exact h.resume settings d
  · exact h

/-- A turn of a pass that comes to no row whose resume it does not see. -/
theorem next (h : w.LeftAlone) (settings : Settings) (terms : StorageTerms) {i : ℕ} {allowed : Bool}
    (hsighted : Sighted settings (.next i allowed) w) :
    (w.next settings terms i allowed).LeftAlone := by
  rw [ResumeWorld.next]
  simp only [Sighted] at hsighted
  cases hpass : w.passes[i]? with
  | none => exact h
  | some p =>
    rw [hpass] at hsighted
    have hsees := h.sees p (List.mem_of_getElem? hpass)
    cases p with
    | reap observedAt todo =>
      cases todo with
      | nil => exact h
      | cons r rest => exact (h.setPass i (p := .reap observedAt rest) trivial).reapOne hsighted
    | storage todo =>
      cases todo with
      | nil => exact h
      | cons r rest => exact (h.setPass i (p := .storage rest) trivial).storageOne terms hsighted
    | flagged rows =>
      refine h.setPass i fun r hr ↦ ⟨hsees r hr, fun hd _ hstate ↦ ?_⟩
      exact mem_liveLeases (h.leased r.1 hd hstate)
    | leases rows live since =>
      refine h.setPass i fun r hr hd hsince hstate ↦ ?_
      obtain ⟨hrow, hfree⟩ := List.mem_filter.mp ((List.mem_insertionSort _).mp hr)
      obtain ⟨howned, hlive⟩ := hsees r hrow
      exact of_decide_eq_true hfree (mem_resumingRows hstate howned (hlive hd hsince hstate))
    | candidates todo since =>
      cases todo with
      | nil => exact h
      | cons r rest =>
        have hrest := h.setPass i (p := .candidates rest since)
          fun r' hr' ↦ hsees r' (List.mem_cons_of_mem r hr')
        exact hrest.resumeOne settings fun hd ↦ hsees r List.mem_cons_self hd hsighted

theorem exec (h : w.LeftAlone) (protocol : Protocol) (terms : StorageTerms) {o : ResumeOp}
    (hsighted : Sighted settings o w) : (o.exec settings protocol terms w).LeftAlone := by
  have hbegin : ∀ now, (ResumeOp.beginReap settings now w).LeftAlone := by
    intro now
    rw [ResumeOp.beginReap]
    split
    · exact h.addPass trivial
    · exact h
  cases o with
  | fleet c =>
    have hmove := h.move (Follows.of_call settings protocol h.tied hsighted)
    cases c with
    | reapExhaustedPods now => exact hbegin now
    | resumeDeployment d => exact h.resume settings d
    | _ => exact hmove
  | startReap now => exact hbegin now
  | startStorage =>
    rw [ResumeOp.exec]
    split
    · exact h.addPass trivial
    · exact h
  | startAutoResume => exact h.addPass fun r hr ↦ owned_of_mem_flaggedRows hr
  | next i allowed => exact h.next settings terms hsighted

end LeftAlone

/-- **A resume that is left alone.** In every run in which the passes come to no row whose resume
they do not see, none terminates a rental that is being resumed, charges it for storage or resumes
it again. -/
theorem resume_left_alone {w' : ResumeWorld} (tied : TiedLeases w.fleet) (idle : w.passes = [])
    (unresumed : w.resuming = []) (unharmed : w.harmed = [])
    (run : Steps (ResumeOp.exec settings protocol terms) (Sighted settings) w w') :
    w'.harmed = [] := by
  have hstart : w.LeftAlone := by
    refine ⟨tied, fun d hd ↦ ?_, fun p hp ↦ ?_, unharmed⟩
    · rw [unresumed] at hd
      cases hd
    · rw [idle] at hp
      cases hp
  exact (run.invariant (fun o w h hsighted ↦ h.exec protocol terms hsighted) hstart).unharmed

/-! ### Two runs -/

/-- User 1 with a rental, before anything happened, and no pass in progress. -/
private def unstarted : ResumeWorld :=
  ⟨podOwner 0, .empty, [], [], []⟩

private theorem tied_unstarted : TiedLeases unstarted.fleet := fun _ _ h ↦ nomatch h

/-- A dollar a day. -/
private def storageTerms : StorageTerms := ⟨true, 69⟩

/-- The reaper at work. -/
private def sweeping : Settings := { podExhaustionReaperEnabled := true }

/-- User 1's pod 1 runs without being paid for, to be resumed with a top-up and not to be saved. -/
private def suspendedPod : List ResumeOp :=
  [.fleet (.updateCapacity ⟨7, [oneNode], 0⟩), .fleet (.recordHeartbeat 7 ⟨true, some 0⟩),
    .fleet (.createDeployment 1 ⟨"pod".toList, some 1, none, 1, false, true, true⟩),
    .fleet (.processDeploymentRequest 1 1),
    .fleet (.deploymentStatus 1 7 { state := .ready, readyInstances := 1, observedAt := 0 }),
    .fleet (.advance 100), .fleet (.meterUsage (some 100))]

/-- The pod is resumed some time later. -/
private def resumedPod (later : Time) : List ResumeOp :=
  suspendedPod ++ [.fleet (.advance later), .fleet (.updateCapacity ⟨7, [oneNode], 100 + later⟩),
    .fleet (.resumeDeployment 1)]

/-- The pod is resumed at once, and each of the passes looks at it. -/
theorem resume_left_alone_seen :
    ∃ w, Steps (ResumeOp.exec sweeping quotedRates storageTerms) (Sighted sweeping) unstarted w ∧
      w.resuming = [1] ∧ w.harmed = [] := by
  have run := Steps.of_admits (ResumeOp.exec sweeping quotedRates storageTerms) (Sighted sweeping)
    unstarted (resumedPod 0 ++ [.startAutoResume, .next 0 true, .next 0 true, .next 0 true,
      .startReap none, .next 1 true, .startStorage, .next 2 true]) (by decide +kernel)
  exact ⟨_, run, by decide +kernel, resume_left_alone tied_unstarted rfl rfl rfl run⟩

/-- The pod is resumed a minute before it would be deleted, and deleted two minutes later. -/
theorem resumed_pod_reaped :
    ¬∀ (settings : Settings) (protocol : Protocol) (terms : StorageTerms) (w w' : ResumeWorld),
      TiedLeases w.fleet → w.passes = [] → w.resuming = [] → w.harmed = [] →
        Steps (ResumeOp.exec settings protocol terms) (fun _ _ ↦ True) w w' → w'.harmed = [] := by
  intro h
  have run := Steps.of_admits (ResumeOp.exec sweeping quotedRates storageTerms) (fun _ _ ↦ True)
    unstarted (resumedPod 840 ++ [.fleet (.advance 120), .startReap none, .next 0 true])
    (by decide +kernel)
  exact absurd (h _ _ _ _ _ tied_unstarted rfl rfl rfl run) (by decide +kernel)

end ResumeWorld

end GreenCompute
