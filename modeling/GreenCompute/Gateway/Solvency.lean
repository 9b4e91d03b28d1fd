import GreenCompute.Gateway.Credit
import Mathlib.Tactic.Linarith

/-!
# The balance covers an hour of what is started

Everything a starter starts is covered by the balance it has read, with all else that the account
is committed to, as long as the starter counts all of that. It does if nothing of the account
changes for the dearer between its one reading and its start but by its own doing
(`started_within_balance`). Two starters at work for one account do not see what the other starts.
-/

namespace GreenCompute

namespace CreditReading

variable {reading : CreditReading} {rentals : Table DeploymentId CreditRental} {d : DeploymentId}
  {r : CreditRental} {userId owner : UserId} {cents : ℕ}

/-! ## What has been read -/

/-- What of an account's costs is in the states that have been read. -/
def readCents (left : List DeploymentState) (rentals : Table DeploymentId CreditRental)
    (userId : UserId) : ℕ :=
  rentals.total fun _ r ↦
    if r.ownerUserId = some userId ∧ r.state ∉ left then r.committedCents else 0

/-- The figures count all that has been read, of the accounts that are not out of date, and every
suspended deployment that is being resumed will count. -/
structure Covers (reading : CreditReading) (rentals : Table DeploymentId CreditRental) : Prop where
  counted : ∀ userId ∉ reading.stale,
    readCents reading.left rentals userId ≤ reading.committed userId
  leased : .suspended ∈ reading.left → ∀ userId ∉ reading.stale, ∀ d r, rentals.get? d = some r →
    r.ownerUserId = some userId → r.state = .suspended → r.leased = true → d ∈ reading.leases

theorem committedCents_eq_zero (h : r.state ∉ creditStates) (hsuspended : r.state ≠ .suspended) :
    r.committedCents = 0 := by
  simp [CreditRental.committedCents, CreditRental.committed, h, hsuspended]

theorem covers_ofLeases (rentals : Table DeploymentId CreditRental) :
    (ofLeases rentals).Covers rentals where
  counted userId _ := by
    have hzero : readCents (ofLeases rentals).left rentals userId ≤
        rentals.total fun _ _ ↦ 0 := by
      refine Table.total_le_total fun d r _ ↦ ?_
      split
      · next h =>
        have hleft := h.2
        rw [ofLeases, List.mem_append, List.mem_singleton, not_or] at hleft
        exact (committedCents_eq_zero hleft.1 hleft.2).le
      · exact le_rfl
    refine hzero.trans ?_
    simp [Table.total]
  leased _ _ _ d r hr _ _ hleased :=
    List.mem_map.mpr ⟨(d, r), Table.mem_select.mpr ⟨hr, hleased⟩, rfl⟩

/-- A deployment of the state that is read next is counted, unless it commits its owner to
nothing. -/
theorem Covers.le_counted {state : DeploymentState} {left : List DeploymentState}
    (h : reading.Covers rentals) (hleft : reading.left = state :: left)
    (huser : userId ∉ reading.stale) (hr : rentals.get? d = some r)
    (howner : r.ownerUserId = some userId) (hstate : r.state = state) :
    r.committedCents ≤
      if r.ownerUserId = some userId ∧ reading.counts state d r then r.hourlyChargeCents.getD 0
      else 0 := by
  unfold CreditRental.committedCents
  split
  · next hcommitted =>
    have hlease : state = .suspended → d ∈ reading.leases := by
      rintro rfl
      have hleased : r.leased = true := by
        rcases of_decide_eq_true hcommitted with hlive | ⟨-, hleased⟩
        · rw [hstate] at hlive
          exact absurd hlive (by decide)
        · exact hleased
      exact h.leased (by rw [hleft]; exact .head _) userId huser d r hr howner hstate hleased
    have hcounts : reading.counts state d r = true :=
      decide_eq_true ⟨by rw [howner]; rfl, hstate, hlease⟩
    rw [if_pos ⟨howner, hcounts⟩]
  · exact Nat.zero_le _

/-- What the next query adds is what is committed in its state. -/
theorem Covers.readState (h : reading.Covers rentals) :
    (reading.readState rentals).Covers rentals := by
  unfold CreditReading.readState
  split
  · exact h
  · next state left hleft =>
    refine ⟨fun userId huser ↦ ?_, fun hmem ↦ h.leased (by rw [hleft]; exact .tail _ hmem)⟩
    have hsplit : readCents left rentals userId ≤ readCents reading.left rentals userId +
        rentals.total fun d r ↦
          if r.ownerUserId = some userId ∧ reading.counts state d r then
            r.hourlyChargeCents.getD 0 else 0 := by
      rw [readCents, readCents, Table.total, Table.total, Table.total, ← List.sum_map_add]
      refine List.sum_le_sum fun x hx ↦ ?_
      by_cases hx' : x.2.ownerUserId = some userId ∧ x.2.state ∉ left
      · obtain ⟨howner, hnot⟩ := hx'
        by_cases hstate : x.2.state = state
        · have hcounted := h.le_counted hleft huser (Table.mem_rows_iff.mp hx) howner hstate
          rw [if_pos ⟨howner, hnot⟩]
          exact hcounted.trans (Nat.le_add_left _ _)
        · have hread : x.2.state ∉ reading.left := by
            rw [hleft, List.mem_cons, not_or]
            exact ⟨hstate, hnot⟩
          rw [if_pos ⟨howner, hnot⟩, if_pos ⟨howner, hread⟩]
          exact Nat.le_add_right _ _
      · rw [if_neg hx']
        exact Nat.zero_le _
    exact hsplit.trans (Nat.add_le_add_right (h.counted userId huser) _)

/-! ## What changes after it was read -/

/-- A deployment is set: the other deployments' costs, and its own. -/
theorem readCents_insert (left : List DeploymentState) (rentals : Table DeploymentId CreditRental)
    (d : DeploymentId) (r : CreditRental) (userId : UserId) :
    readCents left (rentals.insert d r) userId =
      (rentals.total fun d' r' ↦ if d' = d then 0 else
        if r'.ownerUserId = some userId ∧ r'.state ∉ left then r'.committedCents else 0) +
      if r.ownerUserId = some userId ∧ r.state ∉ left then r.committedCents else 0 :=
  Table.total_insert rentals d r _

/-- The other deployments' costs are part of the sum. -/
theorem others_le_readCents (left : List DeploymentState)
    (rentals : Table DeploymentId CreditRental) (d : DeploymentId) (userId : UserId) :
    (rentals.total fun d' r' ↦ if d' = d then 0 else
      if r'.ownerUserId = some userId ∧ r'.state ∉ left then r'.committedCents else 0) ≤
      readCents left rentals userId := by
  refine Table.total_le_total fun d' r' _ ↦ ?_
  split
  · exact Nat.zero_le _
  · exact le_rfl

/-- Setting a deployment adds its costs at most. -/
theorem readCents_insert_le (left : List DeploymentState)
    (rentals : Table DeploymentId CreditRental) (d : DeploymentId) (r : CreditRental)
    (userId : UserId) :
    readCents left (rentals.insert d r) userId ≤ readCents left rentals userId +
      if r.ownerUserId = some userId then r.committedCents else 0 := by
  rw [readCents_insert]
  refine Nat.add_le_add (others_le_readCents left rentals d userId) ?_
  by_cases howner : r.ownerUserId = some userId
  · rw [if_pos howner]
    split
    · exact le_rfl
    · exact Nat.zero_le _
  · rw [if_neg howner, if_neg fun h ↦ howner h.1]

/-- A deployment that costs no more than before, in the state it was in, adds nothing. -/
theorem readCents_insert_of_le {left : List DeploymentState} {old : CreditRental}
    (hold : rentals.get? d = some old) (howner : old.ownerUserId = r.ownerUserId)
    (hcents : r.committedCents ≤ old.committedCents) (hstate : left ≠ [] → old.state = r.state) :
    readCents left (rentals.insert d r) userId ≤ readCents left rentals userId := by
  have hbefore : readCents left rentals userId = _ := Table.total_of_get? hold _
  rw [readCents_insert, hbefore]
  refine Nat.add_le_add_left ?_ _
  by_cases hread : r.ownerUserId = some userId ∧ r.state ∉ left
  · have hread' : old.ownerUserId = some userId ∧ old.state ∉ left := by
      refine ⟨howner.trans hread.1, ?_⟩
      by_cases hleft : left = []
      · rw [hleft]
        exact List.not_mem_nil
      · rw [hstate hleft]
        exact hread.2
    rw [if_pos hread, if_pos hread']
    exact hcents
  · rw [if_neg hread]
    exact Nat.zero_le _

theorem notice_committed (reading : CreditReading) (old : Option CreditRental) (r : CreditRental) :
    (reading.notice old r).committed = reading.committed ∧
      (reading.notice old r).left = reading.left ∧
      (reading.notice old r).leases = reading.leases ∧
      reading.stale ⊆ (reading.notice old r).stale := by
  unfold notice
  split
  · exact ⟨rfl, rfl, rfl, List.subset_append_right _ _⟩
  · exact ⟨rfl, rfl, rfl, List.Subset.refl _⟩

/-- What is not noticed makes no difference. -/
theorem Covers.notice (h : reading.Covers rentals)
    (howner : ∀ old ∈ rentals.get? d, old.ownerUserId = r.ownerUserId) :
    (reading.notice (rentals.get? d) r).Covers (rentals.insert d r) := by
  obtain ⟨hcommitted, hleft, hleases, hstale⟩ := reading.notice_committed (rentals.get? d) r
  -- An account that is not out of date either does not own the deployment, or it is as before.
  have hsame : ∀ userId ∉ (reading.notice (rentals.get? d) r).stale,
      r.ownerUserId = some userId →
        (rentals.get? d).elim 0 CreditRental.committedCents ≥ r.committedCents ∧
          (reading.left ≠ [] →
            (rentals.get? d).map (fun r ↦ (r.state, r.leased)) = some (r.state, r.leased)) := by
    intro userId huser hr
    by_contra hnot
    refine huser ?_
    unfold CreditReading.notice
    rw [if_pos]
    · rw [hr]
      exact List.mem_cons_self
    · by_contra hnone
      rw [not_or, not_and, not_not] at hnone
      exact hnot ⟨not_lt.mp hnone.1, hnone.2⟩
  constructor
  · intro userId huser
    have hbefore := h.counted userId fun hmem ↦ huser (hstale hmem)
    rw [hcommitted, hleft]
    refine le_trans ?_ hbefore
    by_cases hr : r.ownerUserId = some userId
    · obtain ⟨hcents, hstate⟩ := hsame userId huser hr
      cases hold : rentals.get? d with
      | none =>
        rw [hold] at hcents
        have hzero : r.committedCents = 0 := Nat.le_zero.mp hcents
        refine (readCents_insert_le _ _ _ _ _).trans ?_
        rw [hzero, ite_self, Nat.add_zero]
      | some old =>
        rw [hold] at hcents hstate
        refine readCents_insert_of_le hold (howner old hold) hcents fun hne ↦ ?_
        exact (Prod.mk.inj (Option.some.inj (hstate hne))).1
    · refine (readCents_insert_le _ _ _ _ _).trans ?_
      rw [if_neg hr, Nat.add_zero]
  · intro hmem userId huser d' r' hr' howner' hstate' hleased'
    rw [hleft] at hmem
    rw [hleases]
    have hbefore := h.leased hmem userId fun hmem ↦ huser (hstale hmem)
    rw [Table.get?_insert] at hr'
    split at hr'
    · next heq =>
      obtain rfl := Option.some.inj hr'
      subst heq
      have hold := (hsame userId huser howner').2 (List.ne_nil_of_mem hmem)
      obtain ⟨old, hget, hpair⟩ := Option.map_eq_some_iff.mp hold
      obtain ⟨hstate, hleased⟩ := Prod.mk.inj hpair
      exact hbefore d' old hget ((howner old hget).trans howner') (hstate.trans hstate')
        (hleased.trans hleased')
    · exact hbefore d' r' hr' howner' hstate' hleased'

/-- A starter that counts what it has started. -/
theorem Covers.add (h : reading.Covers rentals) (hleft : reading.left = [])
    (hr : r.ownerUserId = some owner) (hcents : r.committedCents ≤ cents) :
    (reading.add owner cents).Covers (rentals.insert d r) where
  counted userId huser := by
    refine (readCents_insert_le _ _ _ _ _).trans ?_
    change _ ≤ Function.update reading.committed owner (reading.committed owner + cents) userId
    have hbefore := h.counted userId huser
    by_cases hsame : userId = owner
    · subst hsame
      rw [Function.update_self, if_pos hr]
      exact Nat.add_le_add hbefore hcents
    · rw [Function.update_of_ne hsame, if_neg, Nat.add_zero]
      · exact hbefore
      · rw [hr]
        exact fun heq ↦ hsame (Option.some.inj heq).symm
  leased hmem := by
    change DeploymentState.suspended ∈ reading.left at hmem
    rw [hleft] at hmem
    exact absurd hmem List.not_mem_nil

end CreditReading

/-! ## Starters -/

/-- What a starter is about to start is covered, with all that it counts. -/
def StarterStage.Affords (reading : Option CreditReading) : StarterStage → Prop
  | .pricing _ costCents _ => 0 < costCents
  | .starting owner costCents left balanceCents => ∃ r, reading = some r ∧ r.left = [] ∧
      (left = 0 ∨ ((r.committed owner + left * costCents : ℕ) : ℤ) ≤ balanceCents)
  | .resuming _ owner costCents balanceCents _ => ∃ r, reading = some r ∧ r.left = [] ∧
      ((r.committed owner + costCents : ℕ) : ℤ) ≤ balanceCents
  | .sweeping _ => ∃ r, reading = some r ∧ r.left = []
  | _ => True

structure Starter.Sound (starter : Starter) (rentals : Table DeploymentId CreditRental) : Prop where
  covers : ∀ reading, starter.reading = some reading → reading.Covers rentals
  affords : starter.stage.Affords starter.reading

/-- What holds in a run whose starters are not disturbed. -/
structure CreditDb.Sound (s : CreditDb) : Prop where
  starters : ∀ a starter, s.starters.get? a = some starter → starter.Sound s.rentals
  log : ∀ e ∈ s.log, (e.committedCents : ℤ) ≤ e.balanceCents

theorem Starter.Sound.notice {starter : Starter} {rentals : Table DeploymentId CreditRental}
    {d : DeploymentId} {r : CreditRental} (h : starter.Sound rentals)
    (howner : ∀ old ∈ rentals.get? d, old.ownerUserId = r.ownerUserId) :
    (starter.notice (rentals.get? d) r).Sound (rentals.insert d r) where
  covers reading hreading := by
    obtain ⟨before, hbefore, rfl⟩ := Option.map_eq_some_iff.mp hreading
    exact (h.covers before hbefore).notice howner
  affords := by
    have haffords := h.affords
    change starter.stage.Affords (starter.reading.map _)
    cases hstage : starter.stage with
    | starting owner costCents left balanceCents =>
      rw [hstage] at haffords
      obtain ⟨reading, hreading, hleft, hbalance⟩ := haffords
      obtain ⟨hcommitted, hleft', -⟩ := reading.notice_committed (rentals.get? d) r
      refine ⟨_, by rw [hreading]; rfl, hleft'.trans hleft, ?_⟩
      rw [hcommitted]
      exact hbalance
    | resuming d' owner costCents balanceCents candidates =>
      rw [hstage] at haffords
      obtain ⟨reading, hreading, hleft, hbalance⟩ := haffords
      obtain ⟨hcommitted, hleft', -⟩ := reading.notice_committed (rentals.get? d) r
      refine ⟨_, by rw [hreading]; rfl, hleft'.trans hleft, ?_⟩
      rw [hcommitted]
      exact hbalance
    | pricing owner costCents needed =>
      rw [hstage] at haffords
      exact haffords
    | between => trivial
    | sweeping candidates =>
      rw [hstage] at haffords
      obtain ⟨reading, hreading, hleft⟩ := haffords
      obtain ⟨-, hleft', -⟩ := reading.notice_committed (rentals.get? d) r
      exact ⟨_, by rw [hreading]; rfl, hleft'.trans hleft⟩
    | listed flagged => trivial

namespace CreditDb

variable {s s₀ : CreditDb} {a : StarterId} {reading : CreditReading} {stage : StarterStage}
  {d : DeploymentId} {r : CreditRental} {owner : UserId} {costCents : ℕ} {balanceCents : ℤ}

theorem committedCents_eq (s : CreditDb) (userId : UserId) :
    s.committedCents userId = CreditReading.readCents [] s.rentals userId := by
  simp [committedCents, CreditReading.readCents]

theorem get?_setRental (s : CreditDb) (d : DeploymentId) (r : CreditRental)
    (except : Option StarterId) (a : StarterId) :
    (s.setRental d r except).starters.get? a = (s.starters.get? a).map fun starter ↦
      if some a = except then starter else starter.notice (s.rentals.get? d) r :=
  Table.get?_map _ _ _

theorem get?_setStage (s : CreditDb) (a a' : StarterId) (stage : StarterStage) :
    (s.setStage a stage).starters.get? a' =
      if a' = a then (s.starters.get? a').map fun starter ↦ { starter with stage := stage }
      else s.starters.get? a' := Table.get?_modify _ _ _ _

theorem get?_setReading (s : CreditDb) (a a' : StarterId) (reading : CreditReading) :
    (s.setReading a reading).starters.get? a' =
      if a' = a then
        (s.starters.get? a').map fun starter ↦ { starter with reading := some reading }
      else s.starters.get? a' := Table.get?_modify _ _ _ _

theorem get?_note (s : CreditDb) (owner : UserId) (balanceCents : ℤ) (a : StarterId) :
    (s.note owner balanceCents).starters.get? a = s.starters.get? a := rfl

/-- Something happens around the starters. -/
theorem Sound.rental (h : s.Sound)
    (howner : ∀ old ∈ s.rentals.get? d, old.ownerUserId = r.ownerUserId) :
    (s.setRental d r none).Sound where
  starters a starter hstarter := by
    rw [get?_setRental] at hstarter
    obtain ⟨before, hbefore, rfl⟩ := Option.map_eq_some_iff.mp hstarter
    rw [if_neg (Option.some_ne_none a)]
    exact (h.starters a before hbefore).notice howner
  log := h.log

/-- A starter goes on, and nothing else changes. -/
theorem Sound.setStage (h : s.Sound)
    (hstage : ∀ starter, s.starters.get? a = some starter → stage.Affords starter.reading) :
    (s.setStage a stage).Sound where
  starters a' starter hstarter := by
    rw [get?_setStage] at hstarter
    split at hstarter
    · next hsame =>
      subst hsame
      obtain ⟨before, hbefore, rfl⟩ := Option.map_eq_some_iff.mp hstarter
      exact ⟨(h.starters a' before hbefore).covers, hstage before hbefore⟩
    · exact h.starters a' starter hstarter
  log := h.log

/-- A starter reads on. -/
theorem Sound.setReading (h : s.Sound) (hcovers : reading.Covers s.rentals)
    (hstage : ∀ starter, s.starters.get? a = some starter →
      starter.stage.Affords (some reading)) : (s.setReading a reading).Sound where
  starters a' starter hstarter := by
    rw [get?_setReading] at hstarter
    split at hstarter
    · next hsame =>
      subst hsame
      obtain ⟨before, hbefore, rfl⟩ := Option.map_eq_some_iff.mp hstarter
      refine ⟨?_, hstage before hbefore⟩
      rintro _ ⟨⟩
      exact hcovers
    · exact h.starters a' starter hstarter
  log := h.log

/-- A starter begins. -/
theorem Sound.begin (h : s.Sound) {starter : Starter} (hstarter : starter.Sound s.rentals) :
    Sound { s with starters := s.starters.insert a starter } where
  starters a' starter' hstarter' := by
    rw [Table.get?_insert] at hstarter'
    split at hstarter'
    · obtain rfl := Option.some.inj hstarter'
      exact hstarter
    · exact h.starters a' starter' hstarter'
  log := h.log

/-- What is started is covered by the balance that was read. -/
theorem committedCents_le (hcovers : reading.Covers s.rentals) (hleft : reading.left = [])
    (hr : r.ownerUserId = some owner)
    (huptodate : CreditOp.UpToDate reading owner r costCents)
    (hbalance : ((reading.committed owner + costCents : ℕ) : ℤ) ≤ balanceCents)
    (except : Option StarterId) :
    ((s.setRental d r except).committedCents owner : ℤ) ≤ balanceCents := by
  have hbefore := hcovers.counted owner huptodate.1
  rw [hleft] at hbefore
  have hafter : (s.setRental d r except).committedCents owner ≤
      reading.committed owner + costCents := by
    rw [committedCents_eq]
    refine (CreditReading.readCents_insert_le _ _ _ _ _).trans ?_
    rw [if_pos hr]
    exact Nat.add_le_add hbefore huptodate.2
  exact (Int.ofNat_le.mpr hafter).trans hbalance

/-- A starter that counts all there is starts something. -/
theorem Sound.starts (h : s.Sound) (ha : s.starters.get? a = some ⟨some reading, stage⟩)
    (hleft : reading.left = []) (hr : r.ownerUserId = some owner)
    (howner : ∀ old ∈ s.rentals.get? d, old.ownerUserId = r.ownerUserId)
    (huptodate : CreditOp.UpToDate reading owner r costCents)
    (hbalance : ((reading.committed owner + costCents : ℕ) : ℤ) ≤ balanceCents)
    (recorded : Bool) {stage' : StarterStage}
    (hstage : recorded = true → stage'.Affords (some (reading.add owner costCents)))
    (hlost : recorded = false → stage'.Affords (some (reading.notice (s.rentals.get? d) r))) :
    ((s.starts a reading d r owner costCents balanceCents recorded).setStage a stage').Sound := by
  have hcovers := (h.starters a _ ha).covers reading rfl
  have hlog (except : Option StarterId) : ∀ e ∈ s.log ++
      [⟨owner, balanceCents, (s.setRental d r except).committedCents owner⟩],
      (e.committedCents : ℤ) ≤ e.balanceCents := by
    intro e he
    rcases List.mem_append.mp he with he | he
    · exact h.log e he
    · rw [List.mem_singleton.mp he]
      exact committedCents_le hcovers hleft hr huptodate hbalance except
  cases recorded with
  | false =>
    have hnoticed : (s.setRental d r none).Sound := h.rental howner
    have hnoted : ((s.setRental d r none).note owner balanceCents).Sound :=
      ⟨hnoticed.starters, hlog none⟩
    refine hnoted.setStage fun starter hstarter ↦ ?_
    rw [get?_note, get?_setRental, ha] at hstarter
    obtain rfl := Option.some.inj hstarter
    exact hlost rfl
  | true =>
    rw [CreditDb.starts, if_pos rfl]
    refine ⟨fun a' starter hstarter ↦ ?_, hlog (some a)⟩
    rw [get?_setStage, get?_note, get?_setReading, get?_setRental] at hstarter
    by_cases hsame : a' = a
    · subst hsame
      rw [if_pos rfl, if_pos rfl, ha] at hstarter
      obtain rfl := Option.some.inj hstarter
      refine ⟨?_, hstage rfl⟩
      rintro _ ⟨⟩
      exact hcovers.add hleft hr huptodate.2
    · rw [if_neg hsame, if_neg hsame] at hstarter
      obtain ⟨before, hbefore, rfl⟩ := Option.map_eq_some_iff.mp hstarter
      rw [if_neg fun heq ↦ hsame (Option.some.inj heq)]
      exact (h.starters a' before hbefore).notice howner

/-- As many members as the credit allows are covered. -/
theorem le_of_affordableMembers {committed cost needed : ℕ} (hcost : 0 < cost) :
    affordableMembers balanceCents committed cost needed = 0 ∨
      ((committed + affordableMembers balanceCents committed cost needed * cost : ℕ) : ℤ) ≤
        balanceCents := by
  by_cases hzero : affordableMembers balanceCents committed cost needed = 0
  · exact .inl hzero
  · right
    have hcost' : (0 : ℤ) < cost := Int.ofNat_lt.mpr hcost
    have hle : (affordableMembers balanceCents committed cost needed : ℤ) ≤
        (balanceCents - committed) / cost := by
      rw [affordableMembers, if_pos hcost] at hzero ⊢
      omega
    have hmul := (Int.le_ediv_iff_mul_le hcost').mp hle
    rw [Nat.cast_add, Nat.cast_mul]
    linarith

theorem affords_readState {rentals : Table DeploymentId CreditRental}
    (h : stage.Affords (some reading)) : stage.Affords (some (reading.readState rentals)) := by
  have hkept : reading.left = [] → reading.readState rentals = reading := by
    intro hleft
    unfold CreditReading.readState
    rw [hleft]
  cases stage with
  | starting owner costCents left balanceCents =>
    obtain ⟨_, ⟨⟩, hleft, hbalance⟩ := h
    rw [hkept hleft]
    exact ⟨reading, rfl, hleft, hbalance⟩
  | resuming d owner costCents balanceCents candidates =>
    obtain ⟨_, ⟨⟩, hleft, hbalance⟩ := h
    rw [hkept hleft]
    exact ⟨reading, rfl, hleft, hbalance⟩
  | pricing owner costCents needed => exact h
  | between => trivial
  | sweeping candidates =>
    obtain ⟨_, ⟨⟩, hleft⟩ := h
    rw [hkept hleft]
    exact ⟨reading, rfl, hleft⟩
  | listed flagged => trivial

/-- A pass starts a member. -/
theorem Sound.start (h : s.Sound) {left gpuCount hourlyRateCents : ℕ} {recorded : Bool}
    (ha : s.starters.get? a =
      some ⟨some reading, .starting owner costCents (left + 1) balanceCents⟩)
    (hfresh : s.rentals.get? d = none)
    (huptodate : CreditOp.UpToDate reading owner (newMember owner gpuCount hourlyRateCents)
      costCents) :
    ((s.starts a reading d (newMember owner gpuCount hourlyRateCents) owner costCents balanceCents
      recorded).setStage a (if recorded then .starting owner costCents left balanceCents
        else .between)).Sound := by
  obtain ⟨_, ⟨⟩, hleft, hzero | hbalance⟩ := (h.starters a _ ha).affords
  · exact absurd hzero (Nat.succ_ne_zero left)
  rw [Nat.succ_mul] at hbalance
  refine h.starts ha hleft rfl ?_ huptodate ?_ recorded ?_ ?_
  · intro old hold
    exact nomatch hfresh.symm.trans hold
  · refine le_trans (Int.ofNat_le.mpr ?_) hbalance
    exact Nat.add_le_add_left (Nat.le_add_left _ _) _
  · rintro rfl
    refine ⟨_, rfl, hleft, .inr ?_⟩
    have hadd : (reading.add owner costCents).committed owner =
        reading.committed owner + costCents := Function.update_self _ _ _
    rw [hadd]
    refine le_trans (Int.ofNat_le.mpr ?_) hbalance
    omega
  · rintro rfl
    trivial

/-- The sweep resumes a deployment. -/
theorem Sound.resume (h : s.Sound) {recorded : Bool}
    {candidates : List (DeploymentId × CreditRental)}
    (ha : s.starters.get? a =
      some ⟨some reading, .resuming d owner costCents balanceCents candidates⟩)
    (hd : s.rentals.get? d = some r) (hr : r.ownerUserId = some owner)
    (huptodate : CreditOp.UpToDate reading owner { r with leased := true } costCents) :
    ((s.starts a reading d { r with leased := true } owner costCents balanceCents
      recorded).setStage a (.sweeping candidates)).Sound := by
  obtain ⟨_, ⟨⟩, hleft, hbalance⟩ := (h.starters a _ ha).affords
  refine h.starts (r := { r with leased := true }) ha hleft hr ?_ huptodate hbalance recorded
    (fun _ ↦ ⟨_, rfl, hleft⟩) fun _ ↦ ⟨_, rfl, ?_⟩
  · intro old hold
    obtain rfl := Option.some.inj (hd.symm.trans hold)
    rfl
  · exact (reading.notice_committed _ _).2.1.trans hleft

theorem Sound.exec (h : s.Sound) {o : CreditOp} (hpossible : o.Possible s)
    (hundisturbed : o.Undisturbed s) : (o.exec s).Sound := by
  cases o with
  | rental d r =>
    obtain ⟨old, hold, howner, -⟩ := hpossible
    refine h.rental fun old' hold' ↦ ?_
    obtain rfl := Option.some.inj (Option.mem_def.mp hold |>.symm.trans hold')
    exact howner
  | balance userId cents => exact ⟨h.starters, h.log⟩
  | beginPass a => exact h.begin ⟨by rintro _ ⟨⟩, trivial⟩
  | reconcile a owner costCents needed =>
    simp only [CreditOp.exec]
    split
    · exact h.setStage fun _ _ ↦ hpossible
    · exact h
  | readLeases a =>
    simp only [CreditOp.exec]
    split
    · next owner costCents needed ha =>
      refine h.setReading (CreditReading.covers_ofLeases _) fun starter hstarter ↦ ?_
      obtain rfl := Option.some.inj (ha.symm.trans hstarter)
      exact (h.starters a _ ha).affords
    · next flagged ha =>
      refine h.setReading (CreditReading.covers_ofLeases _) fun starter hstarter ↦ ?_
      obtain rfl := Option.some.inj (ha.symm.trans hstarter)
      trivial
    · exact h
  | readState a =>
    simp only [CreditOp.exec]
    split
    · next reading stage ha =>
      have hstarter := h.starters a _ ha
      refine h.setReading (hstarter.covers reading rfl).readState fun starter hget ↦ ?_
      obtain rfl := Option.some.inj (ha.symm.trans hget)
      exact affords_readState hstarter.affords
    · exact h
  | afford a =>
    simp only [CreditOp.exec]
    split
    · next reading owner costCents needed ha =>
      split
      · next hleft =>
        refine h.setStage fun starter hstarter ↦ ?_
        obtain rfl := Option.some.inj (ha.symm.trans hstarter)
        exact ⟨reading, rfl, hleft, le_of_affordableMembers (h.starters a _ ha).affords⟩
      · exact h
    · exact h
  | start a d gpuCount hourlyRateCents recorded =>
    simp only [CreditOp.exec]
    split
    · next reading owner costCents left balanceCents ha =>
      exact h.start ha hpossible.1 (hundisturbed _ ha _ rfl _ rfl)
    · exact h
  | stop a =>
    simp only [CreditOp.exec]
    split
    · exact h.setStage fun _ _ ↦ trivial
    · next reading _ _ _ ha =>
      refine h.begin ⟨fun reading' hreading' ↦ ?_, trivial⟩
      exact (h.starters a _ ha).covers reading' (Option.filter_eq_some_iff.mp hreading').1
    · exact h
  | beginSweep a => exact h.begin ⟨by rintro _ ⟨⟩, trivial⟩
  | choose a =>
    simp only [CreditOp.exec]
    split
    · next reading flagged ha =>
      split
      · next hleft =>
        refine h.setStage fun starter hstarter ↦ ?_
        obtain rfl := Option.some.inj (ha.symm.trans hstarter)
        exact ⟨reading, rfl, hleft⟩
      · exact h
    · exact h
  | consider a =>
    simp only [CreditOp.exec]
    split
    · next reading d listed candidates ha =>
      obtain ⟨_, ⟨⟩, hleft⟩ := (h.starters a _ ha).affords
      have hgoes : (s.setStage a (.sweeping candidates)).Sound := by
        refine h.setStage fun starter hstarter ↦ ?_
        obtain rfl := Option.some.inj (ha.symm.trans hstarter)
        exact ⟨reading, rfl, hleft⟩
      split
      · exact hgoes
      · split
        · exact hgoes
        · next hbalance =>
          refine h.setStage fun starter hstarter ↦ ?_
          obtain rfl := Option.some.inj (ha.symm.trans hstarter)
          exact ⟨reading, rfl, hleft, by push_cast; exact not_lt.mp hbalance⟩
    · exact h
  | resume a recorded =>
    simp only [CreditOp.exec]
    split
    · next reading d owner costCents balanceCents candidates ha =>
      obtain ⟨r, hd, hr, -, -⟩ := hpossible _ ha _ rfl
      split
      · next r' hd' =>
        obtain rfl := Option.some.inj (Option.mem_def.mp hd |>.symm.trans hd')
        exact h.resume ha hd hr (hundisturbed _ ha _ rfl _ rfl _ hd)
      · exact h
    · exact h
  | refuse a =>
    simp only [CreditOp.exec]
    split
    · next ha =>
      refine h.setStage fun starter hstarter ↦ ?_
      obtain rfl := Option.some.inj (ha.symm.trans hstarter)
      obtain ⟨reading, hreading, hleft, -⟩ := (h.starters a _ ha).affords
      exact ⟨reading, hreading, hleft⟩
    · exact h
  | finish a =>
    refine ⟨fun a' starter hstarter ↦ ?_, h.log⟩
    change (s.starters.filter _).get? a' = some starter at hstarter
    rw [Table.get?_filter] at hstarter
    exact h.starters a' starter (Option.filter_eq_some_iff.mp hstarter).1

/-- Whatever is started is covered by the balance that was read for it, for an hour and with all
else that the account is then committed to, where no starter is disturbed. -/
theorem started_within_balance (hstarters : s₀.starters = .empty) (hlog : s₀.log = [])
    (run : Steps CreditOp.exec (fun o s ↦ o.Possible s ∧ o.Undisturbed s) s₀ s) :
    ∀ e ∈ s.log, (e.committedCents : ℤ) ≤ e.balanceCents := by
  have hstart : s₀.Sound := by
    refine ⟨fun a starter hstarter ↦ ?_, fun e he ↦ ?_⟩
    · rw [hstarters, Table.get?_empty] at hstarter
      cases hstarter
    · rw [hlog] at he
      exact absurd he List.not_mem_nil
  have h : s.Sound := run.invariant (fun _ _ h ho ↦ h.exec ho.1 ho.2) hstart
  exact h.log

/-- Ada's balance is a dollar, and a pod of hers has been suspended. -/
private def adasDollar : CreditDb where
  rentals := .ofRows [(5, ⟨some 1, .suspended, false, false, false, 1, 20, 0, true,
    some "balance".toList, 0⟩)] (List.nodup_singleton _)
  balances _ := 100
  starters := .empty
  log := []

/-- A starter reads what is committed. -/
private def readsAll (a : StarterId) : List CreditOp :=
  .readLeases a :: List.replicate 6 (.readState a)

/-- A pass comes to a fleet of ada's, whose members cost forty cents. -/
private def comesToFleet (a : StarterId) : List CreditOp :=
  [.beginPass a, .reconcile a 1 40 2] ++ readsAll a ++ [.afford a]

/-- A pass starts two members, and a sweep brings the pod back. -/
private def oneByOne : List CreditOp :=
  comesToFleet 1 ++ [.start 1 10 1 40 true, .start 1 11 1 40 true, .stop 1, .finish 1] ++
    [.beginSweep 2] ++ readsAll 2 ++ [.choose 2, .consider 2, .resume 2 true]

theorem started_within_balance_one_by_one :
    let s := Steps.replay CreditOp.exec adasDollar oneByOne
    s.log = [⟨1, 100, 40⟩, ⟨1, 100, 80⟩, ⟨1, 100, 100⟩] ∧
      ∀ e ∈ s.log, (e.committedCents : ℤ) ≤ e.balanceCents :=
  have run : Steps CreditOp.exec (fun o s ↦ o.Possible s ∧ o.Undisturbed s) adasDollar
      (Steps.replay CreditOp.exec adasDollar oneByOne) :=
    Steps.of_admits _ _ adasDollar oneByOne (by decide +kernel)
  ⟨by decide +kernel, started_within_balance rfl rfl run⟩

/-- Two fleets of ada's are looked at together. -/
private def together : List CreditOp :=
  comesToFleet 1 ++ comesToFleet 2 ++ [.start 1 10 1 40 true, .start 1 11 1 40 true,
    .start 2 12 1 40 true]

/-- The third member takes ada beyond her dollar. -/
theorem started_beyond_balance :
    ¬∀ s₀ s : CreditDb, s₀.starters = .empty → s₀.log = [] →
      Steps CreditOp.exec CreditOp.Possible s₀ s →
        ∀ e ∈ s.log, (e.committedCents : ℤ) ≤ e.balanceCents := by
  intro h
  have run : Steps CreditOp.exec CreditOp.Possible adasDollar
      (Steps.replay CreditOp.exec adasDollar together) :=
    Steps.of_admits _ _ adasDollar together (by decide +kernel)
  have hlast : (⟨1, 100, 120⟩ : StartedRental) ∈
      (Steps.replay CreditOp.exec adasDollar together).log := by decide +kernel
  exact absurd (h _ _ rfl rfl run _ hlast) (by decide)

end CreditDb

end GreenCompute
