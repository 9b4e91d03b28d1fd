import GreenCompute.Billing.Stripe
import Mathlib.Algebra.BigOperators.Fin
import Mathlib.Algebra.Order.BigOperators.Group.Finset

/-!
# Clawing back refunds

A charge may be refunded in parts, with an event for each part. The event may carry the list of the
refunds up to it, whose first is the part just refunded; it always carries the amount refunded so
far. The webhook debits the customer by the first of the list, and where there is no list by the
amount so far. An event is booked once, under its identifier, so what is debited in total is what
the events say one by one: the final refund exactly when only the first of them says the amount so
far.
-/

namespace GreenCompute

open StripeService Program

/-! ## A charge and its refunds -/

/-- A charge that is refunded in parts: the parts in turn, the identifiers of their events, and
which of the events carry the list of refunds. -/
structure RefundedCharge where
  paymentIntent : Text
  refunds : List ℤ
  eventId : ℕ → Text
  carriesList : ℕ → Bool
  trimmed : Text.Trimmed paymentIntent
  positive : ∀ r ∈ refunds, 0 < r
  distinct : ∀ i j, i < refunds.length → j < refunds.length → eventId i = eventId j → i = j

namespace RefundedCharge

/-- A part. -/
def refund (c : RefundedCharge) (k : ℕ) : ℤ := c.refunds.getD k 0

/-- The charge as the event of a part carries it. -/
def chargeAt (c : RefundedCharge) (k : ℕ) : Charge where
  paymentIntent := some c.paymentIntent
  refunds := if c.carriesList k then some ((c.refunds.take (k + 1)).reverse.map some) else none
  amountRefunded := some (c.refunds.take (k + 1)).sum

/-- The delivery of the event of a part. -/
def delivery (c : RefundedCharge) (k : ℕ) : StripeCall :=
  .billingStripeWebhook (some (.chargeRefunded (c.eventId k) (c.chargeAt k)))

/-- What the event of a part is booked for. -/
def booked (c : RefundedCharge) (k : ℕ) : ℤ := latestRefundAmountCents (c.chargeAt k)

variable {c : RefundedCharge} {k : ℕ}

theorem take_succ (hk : k < c.refunds.length) :
    c.refunds.take (k + 1) = c.refunds.take k ++ [c.refund k] := by
  rw [List.take_add_one, refund, List.getD_eq_getElem?_getD, List.getElem?_eq_getElem hk]
  rfl

theorem refund_pos (hk : k < c.refunds.length) : 0 < c.refund k := by
  rw [refund, List.getD_eq_getElem?_getD, List.getElem?_eq_getElem hk]
  exact c.positive _ (List.getElem_mem hk)

theorem sum_take_nonneg (c : RefundedCharge) (k : ℕ) : 0 ≤ (c.refunds.take k).sum :=
  List.sum_nonneg fun r hr ↦ (c.positive r (List.mem_of_mem_take hr)).le

theorem sum_take_pos (hpos : 0 < k) (hk : k < c.refunds.length) :
    0 < (c.refunds.take k).sum := by
  obtain ⟨j, rfl⟩ := Nat.exists_eq_succ_of_ne_zero hpos.ne'
  have hj : j < c.refunds.length := by omega
  rw [take_succ hj, List.sum_append, List.sum_singleton]
  exact add_pos_of_nonneg_of_pos (c.sum_take_nonneg j) (refund_pos hj)

/-- An event is booked for its part where it carries the list, and for all so far otherwise. -/
theorem booked_eq (hk : k < c.refunds.length) :
    c.booked k =
      if c.carriesList k then c.refund k else (c.refunds.take k).sum + c.refund k := by
  rw [booked, latestRefundAmountCents, chargeAt, take_succ hk]
  cases c.carriesList k with
  | true => simp
  | false => simp

/-- It is booked for no less than its part. -/
theorem le_booked (hk : k < c.refunds.length) : c.refund k ≤ c.booked k := by
  rw [booked_eq hk]
  have := c.sum_take_nonneg k
  split <;> omega

/-- It is booked for just its part when it carries the list or is the first. -/
theorem booked_eq_iff (hk : k < c.refunds.length) :
    c.refund k = c.booked k ↔ (0 < k → c.carriesList k = true) := by
  rw [booked_eq hk]
  split
  · next hlist => simp [hlist]
  · next hnone =>
    by_cases hpos : 0 < k
    · have := sum_take_pos hpos hk
      simp only [hpos, hnone, true_implies, iff_false, Bool.false_eq_true]
      omega
    · obtain rfl : k = 0 := by omega
      simp

theorem sum_refund (c : RefundedCharge) :
    ∑ k ∈ Finset.range c.refunds.length, c.refund k = c.refunds.sum := by
  rw [Finset.sum_range, ← List.sum_ofFn]
  congr 1
  refine List.ext_getElem (by simp) fun i hi _ ↦ ?_
  rw [List.length_ofFn] at hi
  simp [refund, List.getD_eq_getElem?_getD]

/-- The events are booked for the refunded amount in total when every later one carries the
list. -/
theorem sum_booked_iff (c : RefundedCharge) :
    ∑ k ∈ Finset.range c.refunds.length, c.booked k = c.refunds.sum ↔
      ∀ k, 0 < k → k < c.refunds.length → c.carriesList k = true := by
  rw [← c.sum_refund, eq_comm, Finset.sum_eq_sum_iff_of_le fun k hk ↦ le_booked
    (Finset.mem_range.mp hk)]
  constructor
  · intro h k hpos hk
    exact (booked_eq_iff hk).mp (h k (Finset.mem_range.mpr hk)) hpos
  · intro h k hk
    rw [Finset.mem_range] at hk
    exact (booked_eq_iff hk).mpr fun hpos ↦ h k hpos hk

end RefundedCharge

/-! ## Deliveries -/

/-- The charge paid this session of a customer who exists. -/
structure Charged (s : StripeStore) (c : RefundedCharge) (session : StripeSession) : Prop where
  paid : s.getStripeSessionByPaymentIntent c.paymentIntent = some session
  customer : (s.db.users.get? session.userId).isSome = true

/-- The reversal of a part is in the ledger. -/
def Booked (s : StripeStore) (c : RefundedCharge) (k : ℕ) : Prop :=
  s.db.refTaken (some (.stripeRefund (c.eventId k))) = true

section

variable {s : StripeStore} {c : RefundedCharge} {session : StripeSession} {k : ℕ}

theorem Charged.named (h : Charged s c session) : c.paymentIntent ≠ [] := by
  intro hnil
  have hpaid := h.paid
  rw [hnil, StripeStore.getStripeSessionByPaymentIntent] at hpaid
  cases hpaid

theorem paymentIntentId_of_ne {pi : Text} (h : pi ≠ []) : paymentIntentId (some pi) = some pi := by
  cases pi with
  | nil => exact absurd rfl h
  | cons => rfl

/-- A delivery runs one transaction. -/
theorem Charged.after_delivery (h : Charged s c session) (hk : k < c.refunds.length) :
    cardPayments.after (c.delivery k) s =
      { s with db := (BillingRepository.reverseStripeTopup 0 session.userId (c.booked k)
          (c.eventId k) (some (.stripeSession session.sessionId)) .chargeback s.db).1 } := by
  have hpos : ¬c.booked k ≤ 0 := by
    have := RefundedCharge.le_booked hk
    have := RefundedCharge.refund_pos hk
    omega
  have hstrip : Text.strip c.paymentIntent = c.paymentIntent := c.trimmed
  have hread : eval cardPayments.toMachine
      (StripeService.call (.getStripeSessionByPaymentIntent c.paymentIntent)) s =
      (s, some session) := congrArg (s, ·) h.paid
  change (eval cardPayments.toMachine (reversalEvent (c.eventId k) (some c.paymentIntent)
    (c.booked k) >>= fun _ ↦ .done ()) s).1 = _
  rw [eval_bind, eval_done, reversalEvent, eval_bind, paymentIntentId_of_ne h.named,
    reverseStripeTopupForEvent, Option.getD_some, hstrip, if_neg h.named, eval_bind, hread]
  dsimp only
  rw [if_neg hpos, eval_bind]
  split <;> rfl

/-- What the parts delivered so far have come to. -/
structure Delivered (s₀ s : StripeStore) (c : RefundedCharge) (session : StripeSession)
    (parts : Finset ℕ) : Prop where
  charged : Charged s c session
  booked : ∀ k < c.refunds.length, Booked s c k ↔ k ∈ parts
  balance : s.db.balance session.userId =
    s₀.db.balance session.userId - ∑ k ∈ parts, c.booked k

/-- A delivery books its part unless it is booked already. -/
theorem Delivered.deliver {s₀ : StripeStore} {parts : Finset ℕ}
    (h : Delivered s₀ s c session parts) (hk : k < c.refunds.length) :
    Delivered s₀ (cardPayments.after (c.delivery k) s) c session (insert k parts) := by
  obtain ⟨user, huser⟩ := Option.isSome_iff_exists.mp h.charged.customer
  rw [h.charged.after_delivery hk, BillingRepository.reverseStripeTopup, Db.seenLedger_zero]
  by_cases hbooked : k ∈ parts
  · have htaken : (s.db.ledger.any fun e ↦
        e.depositRef = some (.stripeRefund (c.eventId k))) = true := (h.booked k hk).mpr hbooked
    rw [if_pos htaken, Finset.insert_eq_of_mem hbooked]
    exact h
  · have hfree : ¬s.db.refTaken (some (.stripeRefund (c.eventId k))) = true :=
      fun hb ↦ hbooked ((h.booked k hk).mp hb)
    have hnone : ¬(s.db.ledger.any fun e ↦
        e.depositRef = some (.stripeRefund (c.eventId k))) = true := hfree
    rw [if_neg hnone, huser]
    dsimp only
    rw [if_neg hfree]
    constructor
    · refine ⟨h.charged.paid, ?_⟩
      dsimp only
      rw [Db.post_users, Table.get?_insert_self]
      rfl
    · intro j hj
      rw [Finset.mem_insert, ← h.booked j hj, Booked, Booked,
        BillingRepository.refTaken_iff, BillingRepository.refTaken_iff, Db.post_ledger]
      simp only [List.mem_append, List.mem_singleton]
      constructor
      · rintro ⟨e, he | rfl, hkey⟩
        · exact .inr ⟨e, he, hkey⟩
        · simp only [Option.some.injEq, DepositRef.stripeRefund.injEq] at hkey
          exact .inl (c.distinct j k hj hk hkey.symm)
      · rintro (rfl | ⟨e, he, hkey⟩)
        · exact ⟨_, .inr rfl, rfl⟩
        · exact ⟨e, .inl he, hkey⟩
    · dsimp only
      rw [Db.post_balance, if_pos rfl, Finset.sum_insert hbooked]
      have hbalance := h.balance
      rw [Db.balance, huser] at hbalance
      simp only [Option.map_some, Option.getD_some] at hbalance
      rw [hbalance]
      ring

/-- Any number of deliveries book the parts delivered, once each. -/
theorem Delivered.deliverAll {s₀ : StripeStore} {parts : Finset ℕ}
    (h : Delivered s₀ s c session parts) (ks : List ℕ) (hks : ∀ k ∈ ks, k < c.refunds.length) :
    Delivered s₀ (cardPayments.afterAll s (ks.map c.delivery)) c session
      (parts ∪ ks.toFinset) := by
  induction ks generalizing s parts with
  | nil => simpa using h
  | cons k ks ih =>
    have hstep := h.deliver (hks k List.mem_cons_self)
    have hrest := ih hstep fun j hj ↦ hks j (List.mem_cons_of_mem _ hj)
    rw [List.map_cons, Service.afterAll_cons, List.toFinset_cons, Finset.union_insert,
      ← Finset.insert_union]
    exact hrest

end

/-- What the customer has been debited between two stores. -/
def debited (u : UserId) (s s' : StripeStore) : ℤ := s.db.balance u - s'.db.balance u

/-- Once every event has been delivered, in any order and however often each, the customer has been
debited the final refund if and only if every event but the first carries the list of refunds.
Where they do, no deliveries ever debit more. -/
theorem refunds_clawed_back (s : StripeStore) (c : RefundedCharge) (session : StripeSession)
    (charged : Charged s c session) (unbooked : ∀ k < c.refunds.length, ¬Booked s c k)
    (ks : List ℕ) (parts : ∀ k ∈ ks, k < c.refunds.length) :
    ((∀ k < c.refunds.length, k ∈ ks) →
      (debited session.userId s (cardPayments.afterAll s (ks.map c.delivery)) = c.refunds.sum ↔
        ∀ k, 0 < k → k < c.refunds.length → c.carriesList k = true)) ∧
      ((∀ k, 0 < k → k < c.refunds.length → c.carriesList k = true) →
        c.refunds.sum ≤ session.amountCents →
        debited session.userId s (cardPayments.afterAll s (ks.map c.delivery)) ≤
          session.amountCents) := by
  have hnone : Delivered s s c session ∅ :=
    ⟨charged, fun k hk ↦ iff_of_false (unbooked k hk) (Finset.notMem_empty k), by simp⟩
  have hafter := hnone.deliverAll ks parts
  rw [Finset.empty_union] at hafter
  have hdebited : debited session.userId s (cardPayments.afterAll s (ks.map c.delivery)) =
      ∑ k ∈ ks.toFinset, c.booked k := by
    rw [debited, hafter.balance]
    ring
  have hsub : ks.toFinset ⊆ Finset.range c.refunds.length := fun k hk ↦
    Finset.mem_range.mpr (parts k (List.mem_toFinset.mp hk))
  rw [hdebited]
  constructor
  · intro hall
    have hfull : ks.toFinset = Finset.range c.refunds.length :=
      hsub.antisymm fun k hk ↦ List.mem_toFinset.mpr (hall k (Finset.mem_range.mp hk))
    rw [hfull]
    exact c.sum_booked_iff
  · intro hlists htopped
    refine le_trans ?_ ((c.sum_booked_iff.mpr hlists).le.trans htopped)
    refine Finset.sum_le_sum_of_subset_of_nonneg hsub fun k hk _ ↦ ?_
    have hk := Finset.mem_range.mp hk
    exact (RefundedCharge.refund_pos hk).le.trans (RefundedCharge.le_booked hk)

/-- Ada's top-up of a hundred dollars, paid with this intent. -/
def paidTopup : StripeStore where
  db :=
    { Db.empty with
      users := .ofRows [(1, ⟨"ada".toList, none, none, none, none, [], 10000⟩)]
      stripeSessions := .ofRows [("cs_a".toList, ⟨1, 1, 10000, .paid⟩)] }
  paymentIntents := .ofRows [("cs_a".toList, "pi_a".toList)]
  remote := fun _ ↦ none

/-- Two partial refunds of the charge, thirty dollars and twenty. -/
def twoRefunds (carriesList : ℕ → Bool) : RefundedCharge where
  paymentIntent := "pi_a".toList
  refunds := [3000, 2000]
  eventId := fun k ↦ "evt_".toList ++ List.replicate k '0'
  carriesList := carriesList
  trimmed := by decide
  positive := by decide
  distinct := fun i j _ _ h ↦ by simpa using congrArg List.length h

theorem twoRefunds_charged (carriesList : ℕ → Bool) :
    Charged paidTopup (twoRefunds carriesList) ⟨1, 1, 10000, .paid⟩ :=
  ⟨rfl, rfl⟩

/-- The second event carries the list; it arrives first, and the first event twice. -/
theorem refunds_clawed_back_two :
    debited 1 paidTopup (cardPayments.afterAll paidTopup
      ([1, 0, 0].map (twoRefunds fun k ↦ k = 1).delivery)) = 5000 := by
  refine ((refunds_clawed_back paidTopup (twoRefunds fun k ↦ k = 1) ⟨1, 1, 10000, .paid⟩
    (twoRefunds_charged _) (fun _ _ ↦ Bool.false_ne_true) [1, 0, 0] (by decide)).1
    (by decide)).mpr fun k hpos hk ↦ ?_
  have hlast : k < 2 := hk
  have : k = 1 := by omega
  exact decide_eq_true this

/-- Without the lists, fifty dollars refunded in two parts are clawed back as eighty. -/
theorem cumulative_refund_booked_again :
    debited 1 paidTopup (cardPayments.afterAll paidTopup
        ([0, 1].map (twoRefunds fun _ ↦ false).delivery)) = 8000 ∧
      (twoRefunds fun _ ↦ false).refunds.sum = 5000 := by
  decide +kernel

end GreenCompute
