import GreenCompute.Gateway.Holds

/-!
# What is held, and what is granted

However a user reserves and releases, the holds that have not expired fit into the balance. But not
everything that is granted is held. A reservation under a reference whose hold has expired finds
that hold, which the same session is about to delete: the new amount is assigned to it, the hold is
deleted with the assignment, and the caller is told that the reservation was granted
(`granted_iff_held`).
-/

namespace GreenCompute

/-- What one user does with holds, and time that passes. -/
inductive HoldOp where
  | reserveInferenceHold (amountCents : ℤ) (r : RequestId) (ttlSeconds : ℤ)
  | releaseInferenceHold (r : RequestId)
  | tick (dt : Time)

/-- One step. -/
def HoldOp.exec (u : UserId) : HoldOp → InferenceDb → InferenceDb
  | reserveInferenceHold amountCents r ttlSeconds, s =>
    (s.reserveInferenceHold u amountCents r ttlSeconds).1
  | releaseInferenceHold r, s => s.releaseInferenceHold r
  | tick dt, s => { s with billing := { s.billing with now := s.billing.now + max 0 dt } }

namespace InferenceDb

variable {s t : InferenceDb} {u : UserId}

/-- `active_hold_cents`: the sum of the user's unexpired holds. -/
def activeCents (s : InferenceDb) (u : UserId) : ℕ :=
  s.holds.total fun _ hold ↦
    if hold.userId = u ∧ s.billing.now < hold.expiresAt then hold.amountCents else 0

/-- What holds between the calls of a user. -/
structure Bounded (u : UserId) (balance : ℤ) (s : InferenceDb) : Prop where
  owned : ∀ r hold, s.holds.get? r = some hold → hold.userId = u
  unchanged : s.billing.balance u = balance
  bounded : (s.activeCents u : ℤ) ≤ balance

/-- Where holds only go or expire, the sum does not grow. -/
theorem activeCents_le_activeCents (hnow : s.billing.now ≤ t.billing.now)
    (hholds : ∀ r hold, t.holds.get? r = some hold → s.holds.get? r = some hold) :
    t.activeCents u ≤ s.activeCents u := by
  refine Table.total_le_of_rows fun r hold hget hcounts ↦ ?_
  obtain ⟨huser, hlasts⟩ := of_not_not fun hno ↦ hcounts (if_neg hno)
  refine ⟨hholds r hold hget, ?_⟩
  rw [if_pos ⟨huser, hlasts⟩, if_pos ⟨huser, hnow.trans_lt hlasts⟩]

theorem Bounded.shrink {balance : ℤ} (h : s.Bounded u balance)
    (hnow : s.billing.now ≤ t.billing.now) (hbalance : t.billing.balance u = s.billing.balance u)
    (hholds : ∀ r hold, t.holds.get? r = some hold → s.holds.get? r = some hold) :
    t.Bounded u balance where
  owned r hold hget := h.owned r hold (hholds r hold hget)
  unchanged := hbalance.trans h.unchanged
  bounded := (Nat.cast_le.mpr (activeCents_le_activeCents hnow hholds)).trans h.bounded

theorem get?_of_filter {keep : RequestId → Hold → Bool} {r : RequestId} {hold : Hold}
    (hget : (s.holds.filter keep).get? r = some hold) : s.holds.get? r = some hold := by
  rw [Table.get?_filter, Option.filter_eq_some_iff] at hget
  exact hget.1

/-- Deleting expired holds loses nothing that counts. -/
theorem Bounded.dropExpired {balance : ℤ} (h : s.Bounded u balance) :
    (s.dropExpired u).Bounded u balance :=
  h.shrink le_rfl rfl fun _ _ ↦ get?_of_filter

/-- What a reservation comes to. -/
theorem reserve_cases (u : UserId) (amountCents : ℤ) (r : RequestId) (ttlSeconds : ℤ) :
    s.reserveInferenceHold u amountCents r ttlSeconds = (s, false) ∨
    s.reserveInferenceHold u amountCents r ttlSeconds = (s.dropExpired u, false) ∨
    ((s.dropExpired u).activeHoldCents u r + (max 0 amountCents).toNat : ℤ) ≤
        s.billing.balance u ∧
      ((∃ hold, s.holds.get? r = some hold ∧ hold.userId = u ∧ hold.expiresAt ≤ s.billing.now ∧
          s.reserveInferenceHold u amountCents r ttlSeconds = (s.dropExpired u, true)) ∨
        ∃ v, (∀ hold ∈ s.holds.get? r,
            v = hold.userId ∧ (hold.userId = u → s.billing.now < hold.expiresAt)) ∧
          (s.holds.get? r = none → v = u) ∧
          s.reserveInferenceHold u amountCents r ttlSeconds = ({ s.dropExpired u with
            holds := (s.dropExpired u).holds.insert r ⟨v, (max 0 amountCents).toNat,
              s.billing.now + (max 1 ttlSeconds : ℤ)⟩ }, true)) := by
  unfold reserveInferenceHold
  cases huser : s.billing.users.get? u with
  | none => exact .inl rfl
  | some row =>
    have hbalance : s.billing.balance u = row.balanceCredits := by
      rw [Db.balance, huser]
      rfl
    dsimp only
    split_ifs with hshort
    · exact .inr (.inl rfl)
    · refine .inr (.inr ⟨by omega, ?_⟩)
      cases hget : s.holds.get? r with
      | none => exact .inr ⟨u, (by rintro _ ⟨⟩), fun _ ↦ rfl, rfl⟩
      | some hold =>
        dsimp only
        by_cases hexpired : hold.userId = u ∧ hold.expiresAt ≤ s.billing.now
        · rw [if_pos hexpired]
          exact .inl ⟨hold, rfl, hexpired.1, hexpired.2, rfl⟩
        · rw [if_neg hexpired]
          refine .inr ⟨hold.userId, fun h hh ↦ ?_, (by rintro ⟨⟩), rfl⟩
          obtain rfl := Option.some.inj hh
          exact ⟨rfl, fun hu ↦ not_le.mp fun hle ↦ hexpired ⟨hu, hle⟩⟩

/-- A hold is put in the place of the other one under its reference. -/
theorem activeCents_insert_le (hold : Hold) (r : RequestId) :
    ({ s with holds := s.holds.insert r hold } : InferenceDb).activeCents u ≤
      s.activeHoldCents u r + hold.amountCents := by
  rw [activeCents, Table.total_insert]
  refine Nat.add_le_add (Table.total_le_total fun r' other _ ↦ ?_) ?_
  · by_cases hr : r' = r
    · rw [if_pos hr]
      exact Nat.zero_le _
    · rw [if_neg hr]
      by_cases hcounts : other.userId = u ∧ s.billing.now < other.expiresAt
      · rw [if_pos hcounts, if_pos ⟨hcounts.1, hcounts.2, hr⟩]
      · rw [if_neg hcounts]
        exact Nat.zero_le _
  · split_ifs
    · exact le_rfl
    · exact Nat.zero_le _

/-- A reservation by the user keeps to the balance. -/
theorem Bounded.reserve {balance : ℤ} (h : s.Bounded u balance) (amountCents : ℤ) (r : RequestId)
    (ttlSeconds : ℤ) :
    (s.reserveInferenceHold u amountCents r ttlSeconds).1.Bounded u balance := by
  rcases @reserve_cases s u amountCents r ttlSeconds with
    hno | hno | ⟨hfits, ⟨-, -, -, -, hlost⟩ | ⟨v, hv, hnone, hheld⟩⟩
  · rw [hno]
    exact h
  · rw [hno]
    exact h.dropExpired
  · rw [hlost]
    exact h.dropExpired
  · have howner : v = u := by
      cases hget : s.holds.get? r with
      | none => exact hnone hget
      | some hold => exact (hv hold hget).1.trans (h.owned r hold hget)
    rw [hheld]
    refine ⟨fun r' hold hget ↦ ?_, h.unchanged, ?_⟩
    · by_cases hr : r' = r
      · rw [hr, Table.get?_insert_self] at hget
        obtain rfl := Option.some.inj hget
        exact howner
      · rw [Table.get?_insert_ne _ hr] at hget
        exact h.dropExpired.owned r' hold hget
    · have hle := @activeCents_insert_le (s.dropExpired u) u ⟨v, (max 0 amountCents).toNat,
        s.billing.now + (max 1 ttlSeconds : ℤ)⟩ r
      rw [h.unchanged] at hfits
      exact (Nat.cast_le.mpr hle).trans (by rwa [Nat.cast_add])

theorem Bounded.exec {balance : ℤ} (h : s.Bounded u balance) (o : HoldOp) :
    (o.exec u s).Bounded u balance := by
  cases o with
  | reserveInferenceHold amountCents r ttlSeconds => exact h.reserve amountCents r ttlSeconds
  | releaseInferenceHold r => exact h.shrink le_rfl rfl fun _ _ ↦ get?_of_filter
  | tick dt => exact h.shrink (le_add_of_nonneg_right (le_max_left _ _)) rfl fun _ _ hget ↦ hget

/-- The one hold under the reference is the user's, has not expired, and is of this amount. -/
def HeldFor (s : InferenceDb) (u : UserId) (r : RequestId) (amountCents : ℤ) : Prop :=
  ∃ hold, s.holds.get? r = some hold ∧ hold.userId = u ∧ s.billing.now < hold.expiresAt ∧
    hold.amountCents = amountCents

/-- **Holds fit into the balance**, in whatever way a user reserves and releases; and what is
granted is held exactly where the amount is not negative and no expired hold is left under the
reference. -/
theorem granted_iff_held (u : UserId) (s₀ s : InferenceDb) (unheld : s₀.holds = .empty)
    (solvent : 0 ≤ s₀.billing.balance u)
    (run : Steps (HoldOp.exec u) (fun _ _ ↦ True) s₀ s) :
    (s.activeCents u : ℤ) ≤ s₀.billing.balance u ∧
      ∀ (amountCents : ℤ) (r : RequestId) (ttlSeconds : ℤ),
        (s.reserveInferenceHold u amountCents r ttlSeconds).2 = true →
          ((s.reserveInferenceHold u amountCents r ttlSeconds).1.HeldFor u r amountCents ↔
            0 ≤ amountCents ∧ ∀ hold ∈ s.holds.get? r, s.billing.now < hold.expiresAt) := by
  have hstart : s₀.Bounded u (s₀.billing.balance u) := by
    refine ⟨fun r hold hget ↦ ?_, rfl, ?_⟩
    · rw [unheld] at hget
      cases hget
    · rw [activeCents, unheld]
      exact solvent
  have h : s.Bounded u (s₀.billing.balance u) :=
    run.invariant (fun o s hs _ ↦ hs.exec o) hstart
  refine ⟨h.bounded, fun amountCents r ttlSeconds hgranted ↦ ?_⟩
  rcases @reserve_cases s u amountCents r ttlSeconds with
    hno | hno | ⟨hfits, ⟨hold, hget, huser, hexpired, hlost⟩ | ⟨v, hv, hnone, hheld⟩⟩
  · rw [hno] at hgranted
    cases hgranted
  · rw [hno] at hgranted
    cases hgranted
  · -- The hold that is found is deleted with what was assigned to it.
    rw [hlost]
    refine iff_of_false ?_ fun hlasts ↦ absurd (hlasts.2 hold hget) (not_lt.mpr hexpired)
    rintro ⟨other, hother, -, hlasts, -⟩
    obtain rfl := Option.some.inj (hget.symm.trans (get?_of_filter hother))
    exact absurd hlasts (not_lt.mpr hexpired)
  · have hlasts : ∀ hold ∈ s.holds.get? r, s.billing.now < hold.expiresAt :=
      fun hold hget ↦ (hv hold hget).2 (h.owned r hold hget)
    have howner : v = u := by
      cases hget : s.holds.get? r with
      | none => exact hnone hget
      | some hold => exact (hv hold hget).1.trans (h.owned r hold hget)
    rw [hheld]
    constructor
    · rintro ⟨hold, hget, -, -, hamount⟩
      rw [Table.get?_insert_self] at hget
      obtain rfl := Option.some.inj hget
      exact ⟨hamount ▸ Int.natCast_nonneg _, hlasts⟩
    · rintro ⟨hamount, -⟩
      refine ⟨_, Table.get?_insert_self _ _ _, howner, ?_, ?_⟩
      · have hpos : (0 : ℚ) < (max 1 ttlSeconds : ℤ) :=
          Int.cast_pos.mpr (lt_of_lt_of_le Int.zero_lt_one (le_max_left _ _))
        exact lt_add_of_pos_right _ hpos
      · exact (Int.toNat_of_nonneg (le_max_left _ _)).trans (max_eq_right hamount)

/-- A user with a dollar. -/
def oneDollar : InferenceDb where
  billing := { Db.empty with users := Table.ofRows [(1, ⟨[], none, none, none, none, [], 100⟩)] }
  holds := .empty
  inFlight := .empty
  drawn := 0
  charges := []

/-- A hold is renewed while it lasts. -/
theorem granted_iff_held_renewed :
    ((Steps.replay (HoldOp.exec 1) oneDollar [.reserveInferenceHold 60 7 30,
      .tick 20]).reserveInferenceHold 1 70 7 30).1.HeldFor 1 7 70 :=
  ((granted_iff_held 1 oneDollar _ rfl (by decide +kernel)
    (Steps.of_admits (HoldOp.exec 1) (fun _ _ ↦ True) oneDollar
      [.reserveInferenceHold 60 7 30, .tick 20] (by decide +kernel))).2 70 7 30
    (by decide +kernel)).mpr (by decide +kernel)

/-- A hold that has expired is reserved again: the reservation is granted, and there is no hold. -/
theorem granted_without_hold :
    ((Steps.replay (HoldOp.exec 1) oneDollar [.reserveInferenceHold 60 7 30,
        .tick 30]).reserveInferenceHold 1 60 7 30).2 = true ∧
      ((Steps.replay (HoldOp.exec 1) oneDollar [.reserveInferenceHold 60 7 30,
        .tick 30]).reserveInferenceHold 1 60 7 30).1.holds.rows = [] := by
  decide +kernel

end InferenceDb

end GreenCompute
