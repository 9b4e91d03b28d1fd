import GreenCompute.Billing.Stripe

/-!
# Crediting what was captured

A session is credited at most once, because its key is unique in the ledger, and the webhook only
credits one that its event reports paid. The reconcile job credits whatever Stripe reports paid or
complete. The two agree about a session unless it is complete and not paid, as a checkout is whose
payment is still on its way; in a run where no answer to the job says so, every credit follows a
report that the session is paid.
-/

namespace GreenCompute

open StripeService Program BillingRepository

/-! ## Credits of a session -/

/-- How many credits of a session the ledger holds. -/
def StripeStore.creditsOf (sid : Text) (s : StripeStore) : ℕ :=
  s.db.ledger.countP fun e ↦ e.depositRef = some (.stripe sid)

/-- The event is a fresh credit of this session. -/
def creditsSession (sid : Text) : Event CardPayments → Bool
  | ⟨.completeAndCreditStripeSession k, .credited ..⟩ => k = sid
  | _ => false

theorem completeAndCredit_creditsOf (k sid : Text) (s : StripeStore) :
    let o := StripeOp.completeAndCreditStripeSession k
    (o.exec s).1.creditsOf sid =
        s.creditsOf sid + (if creditsSession sid ⟨o, (o.exec s).2⟩ then 1 else 0) ∧
      (creditsSession sid ⟨o, (o.exec s).2⟩ = true → s.creditsOf sid = 0) := by
  simp only [StripeOp.exec, BillingRepository.completeAndCreditStripeSession]
  split
  · exact ⟨rfl, by rintro ⟨⟩⟩
  · next ss hss =>
    split
    · exact ⟨rfl, by rintro ⟨⟩⟩
    · split
      · exact ⟨rfl, by rintro ⟨⟩⟩
      · next user huser =>
        split
        · exact ⟨rfl, by rintro ⟨⟩⟩
        · next hfree =>
          have hnone : s.creditsOf k = 0 := by
            refine List.countP_eq_zero.mpr fun e he hkey ↦ hfree ?_
            exact refTaken_iff.mpr ⟨e, he, of_decide_eq_true hkey⟩
          constructor
          · simp only [StripeStore.creditsOf, Db.post_ledger, List.countP_append,
              List.countP_singleton, creditsSession, decide_eq_true_eq, Option.some.injEq,
              DepositRef.stripe.injEq]
          · simp only [creditsSession, decide_eq_true_eq]
            rintro rfl
            exact hnone

/-- A transaction changes the credits of a session by a fresh credit, and there is none once the
ledger holds one. -/
theorem exec_creditsOf (o : StripeOp) (sid : Text) (s : StripeStore) :
    (o.exec s).1.creditsOf sid =
        s.creditsOf sid + (if creditsSession sid ⟨o, (o.exec s).2⟩ then 1 else 0) ∧
      (creditsSession sid ⟨o, (o.exec s).2⟩ = true → s.creditsOf sid = 0) := by
  cases o with
  | completeAndCreditStripeSession k => exact completeAndCredit_creditsOf k sid s
  | reverseStripeTopup u cents eventId reference kind =>
    refine ⟨?_, by rintro ⟨⟩⟩
    simp only [StripeOp.exec, BillingRepository.reverseStripeTopup]
    split
    · rfl
    · split
      · rfl
      · split
        · rfl
        · simp [StripeStore.creditsOf, creditsSession]
  | setStripePaymentIntent k pi =>
    refine ⟨?_, by rintro ⟨⟩⟩
    simp only [StripeOp.exec, StripeStore.setStripePaymentIntent]
    split
    · rfl
    · split <;> rfl
  | createStripeSession k ss =>
    refine ⟨?_, by rintro ⟨⟩⟩
    simp only [StripeOp.exec, StripeStore.createStripeSession]
    split <;> rfl
  | _ => exact ⟨rfl, by rintro ⟨⟩⟩

/-! ## Reports of a payment -/

/-- The delivery is of an event that reports the session paid. -/
def StripeCall.deliversPaid (sid : Text) : StripeCall → Bool
  | billingStripeWebhook (some (.checkoutSessionCompleted k paymentStatus _)) =>
    k = sid ∧ paymentStatus = some .paid
  | billingStripeWebhook (some (.asyncPaymentSucceeded k paymentStatus _)) =>
    k = sid ∧ paymentStatus = some .paid
  | _ => false

/-- Stripe has answered that the session is paid. -/
def answersPaid (sid : Text) : Event CardPayments → Bool
  | ⟨.retrieveCheckoutSession k, some r⟩ => k = sid ∧ r.paymentStatus = some .paid
  | _ => false

/-- No answer to a reconcile run that credits is that a session is complete and not paid. -/
def completeIsPaid : Guard CardPayments StripeCall StripeStore := fun c _ o s ↦
  match c, o with
  | .reconcilePendingStripeSessions false, .retrieveCheckoutSession sid =>
    ∀ r ∈ s.remote sid, r.status = some .complete → r.paymentStatus = some .paid
  | _, _ => True

instance (c : StripeCall) (past : List (Event CardPayments)) (o : StripeOp) (s : StripeStore) :
    Decidable (completeIsPaid c past o s) := by
  unfold completeIsPaid
  split <;> infer_instance

/-- What a call has to have seen before it asks for a credit. -/
def JustifiesCredit (c : StripeCall) (sid : Text) (past : List (Event CardPayments)) : Prop :=
  c.deliversPaid sid = true ∨ c = .reconcilePendingStripeSessions false ∧
    ∃ r, (⟨.retrieveCheckoutSession sid, some r⟩ : Event CardPayments) ∈ past ∧ isPaid r = true

/-- An operation that only asks for a justified credit. -/
def Justified (c : StripeCall) (past : List (Event CardPayments)) : StripeOp → Prop
  | .completeAndCreditStripeSession sid => JustifiesCredit c sid past
  | _ => True

theorem JustifiesCredit.mono {c : StripeCall} {sid : Text} {past : List (Event CardPayments)}
    (h : JustifiesCredit c sid past) (e : Event CardPayments) :
    JustifiesCredit c sid (past ++ [e]) := by
  refine h.imp_right fun ⟨hc, r, hr, hpaid⟩ ↦ ⟨hc, r, List.mem_append_left _ hr, hpaid⟩

section

variable {c : StripeCall} {past : List (Event CardPayments)}

/-- The methods of a call ask only for credits it has justified. -/
abbrev AsksJustified (c : StripeCall) {α : Type} (p : Program CardPayments α)
    (past : List (Event CardPayments)) : Prop :=
  p.Asks (fun _ _ ↦ True) (Justified c) (fun _ _ ↦ True) past

theorem asks_confirmStripePayment {sid : Text} (pi : Option Text)
    (h : JustifiesCredit c sid past) : AsksJustified c (confirmStripePayment sid pi) past := by
  unfold confirmStripePayment
  refine Asks.op_bind trivial fun ss _ ↦ ?_
  cases ss with
  | none => trivial
  | some ss =>
    dsimp only
    split
    · exact ⟨h.mono _, fun _ _ ↦ trivial⟩
    · exact ⟨h.mono _, fun _ _ ↦ trivial⟩
    · exact Asks.op_bind trivial fun _ _ ↦ ⟨(h.mono _).mono _, fun _ _ ↦ trivial⟩

theorem asks_reconcileEach {dryRun : Bool}
    (hc : dryRun = false → c = .reconcilePendingStripeSessions false)
    (l : List (Text × StripeSession)) (summary : ReconcileSummary) :
    AsksJustified c (reconcileEach dryRun l summary) past := by
  induction l generalizing past summary with
  | nil => trivial
  | cons row l ih =>
    obtain ⟨sid, ss⟩ := row
    refine Asks.op_bind trivial fun answer _ ↦ ?_
    cases answer with
    | none => exact ih _
    | some remote =>
      dsimp only
      split
      · exact ih _
      · next hpaid =>
        split
        · exact ih _
        · next hdry =>
          have hjust : JustifiesCredit c sid
              (past ++ [⟨.retrieveCheckoutSession sid, some remote⟩]) :=
            .inr ⟨hc (Bool.eq_false_of_not_eq_true hdry), remote,
              List.mem_append_right _ (List.mem_singleton_self _), by simpa using hpaid⟩
          refine Asks.bind (asks_confirmStripePayment _ hjust) fun result past' _ ↦ ?_
          cases result with
          | raised => trivial
          | _ => exact ih _

theorem asks_checkoutEvent {sid : Text} {paymentStatus : Option PaymentStatus}
    (pi : Option Text) (h : paymentStatus = some .paid → c.deliversPaid sid = true) :
    AsksJustified c (checkoutEvent sid paymentStatus pi) past := by
  unfold checkoutEvent
  split
  · next hpaid =>
    refine Asks.bind (asks_confirmStripePayment _ (.inl (h hpaid))) fun result past' _ ↦ ?_
    cases result <;> trivial
  · trivial

theorem asks_reversalEvent (eventId : Text) (pi : Option Text) (cents : ℤ) :
    AsksJustified c (reversalEvent eventId pi cents) past := by
  have hplain : (reverseStripeTopupForEvent eventId (paymentIntentId pi) cents).Uses
      fun o ↦ ∀ past, Justified c past o := by
    unfold reverseStripeTopupForEvent
    dsimp only
    split
    · trivial
    · refine Uses.op_bind (fun _ ↦ trivial) fun session ↦ ?_
      cases session with
      | none => trivial
      | some session =>
        dsimp only
        split
        · trivial
        · exact Uses.op_bind (fun _ ↦ trivial) fun _ ↦ trivial
  unfold reversalEvent
  refine Asks.bind (hplain.asks (fun past o ho ↦ ho past) (fun _ ↦ True) (fun _ _ _ _ _ ↦ trivial)
    trivial) fun result past' _ ↦ ?_
  split <;> trivial

end

theorem body_asksJustified (c : StripeCall) : AsksJustified c c.body [] := by
  cases c with
  | createStripeTopup u usd draw => exact ⟨trivial, fun _ _ ↦ trivial⟩
  | setRemote sid answer => exact ⟨trivial, fun _ _ ↦ trivial⟩
  | reconcilePendingStripeSessions dryRun =>
    refine Asks.bind (Asks.op_bind trivial fun pending _ ↦ asks_reconcileEach ?_ _ _)
      fun _ _ _ ↦ trivial
    rintro rfl
    rfl
  | billingStripeWebhook event =>
    refine Asks.bind (P := fun _ _ ↦ True) ?_ fun _ _ _ ↦ trivial
    match event with
    | none | some .other => trivial
    | some (.checkoutSessionCompleted sid paymentStatus pi) =>
      exact asks_checkoutEvent pi fun h ↦ decide_eq_true ⟨rfl, h⟩
    | some (.asyncPaymentSucceeded sid paymentStatus pi) =>
      exact asks_checkoutEvent pi fun h ↦ decide_eq_true ⟨rfl, h⟩
    | some (.chargeRefunded eventId charge) => exact asks_reversalEvent _ _ _
    | some (.disputeCreated eventId pi amount) => exact asks_reversalEvent _ _ _

/-! ## Runs -/

section Runs

variable {w w' : World CardPayments StripeCall StripeStore} {sid : Text}
  {G : Guard CardPayments StripeCall StripeStore} {log : List (Entry CardPayments StripeCall)}

/-- The log of a run holds at most one fresh credit of a session, and so many are added to the
ledger. -/
theorem credits_once (run : cardPayments.Logs G w log w') :
    w'.store.creditsOf sid =
        w.store.creditsOf sid + log.countP (fun entry ↦ creditsSession sid entry.event) ∧
      log.countP (fun entry ↦ creditsSession sid entry.event) ≤ 1 := by
  refine run.keeps (P := fun log s ↦ s.creditsOf sid =
      w.store.creditsOf sid + log.countP (fun entry ↦ creditsSession sid entry.event) ∧
      log.countP (fun entry ↦ creditsSession sid entry.event) ≤ 1) ⟨rfl, Nat.zero_le _⟩ ?_
  rintro log c past o s ⟨hledger, honce⟩ - -
  obtain ⟨hstep, hfirst⟩ := exec_creditsOf o sid s
  rw [List.countP_append, List.countP_singleton, ← Nat.add_assoc, ← hledger]
  refine ⟨hstep, ?_⟩
  split
  · next hcredits =>
    -- A second credit would find the first in the ledger.
    have := hfirst hcredits
    omega
  · exact honce

theorem eq_of_creditsSession {key : Text} {r : StripeResult}
    (h : creditsSession sid ⟨.completeAndCreditStripeSession key, r⟩ = true) : key = sid := by
  cases r with
  | credited => exact of_decide_eq_true h
  | _ => cases h

/-- Where no answer calls an unpaid session complete, a session the job takes for paid is paid. -/
theorem paid_of_isPaid (run : cardPayments.Logs completeIsPaid w log w') {r : RemoteSession}
    (hr : (⟨.reconcilePendingStripeSessions false, ⟨.retrieveCheckoutSession sid, some r⟩⟩ :
      Entry CardPayments StripeCall) ∈ log) (hpaid : isPaid r = true) :
    r.paymentStatus = some .paid := by
  obtain ⟨before, after, hlog⟩ := List.append_of_mem hr
  obtain ⟨v, i, past, o, k, -, -, hguard, hevent⟩ := run.taken hlog
  obtain ⟨rfl, hanswer⟩ := Sigma.mk.inj hevent
  rcases of_decide_eq_true hpaid with hpaid | hcomplete
  · exact hpaid
  · exact hguard r (eq_of_heq hanswer).symm hcomplete

/-- Where no answer calls an unpaid session complete, a session is credited only after a report
that it is paid. -/
theorem credits_after_report (hidle : w.threads = [])
    (run : cardPayments.Logs completeIsPaid w log w')
    {before after : List (Entry CardPayments StripeCall)} {entry : Entry CardPayments StripeCall}
    (hlog : log = before ++ entry :: after) (hcredits : creditsSession sid entry.event = true) :
    entry.call.deliversPaid sid = true ∨ ∃ earlier ∈ before,
      answersPaid sid earlier.event = true := by
  obtain ⟨v, i, past, o, k, hbefore, hthread, -, hevent⟩ := run.taken hlog
  have hmem := List.mem_of_getElem? hthread
  have hasks := hbefore.reaches.asks hidle (A := fun _ _ ↦ True) (φ := Justified)
    (Q := fun _ _ ↦ True) body_asksJustified (fun _ _ ↦ trivial) _ hmem
  rw [hevent] at hcredits
  cases o with
  | completeAndCreditStripeSession key =>
    obtain rfl := eq_of_creditsSession hcredits
    rcases hasks.1 with hdelivered | ⟨hcall, r, hr, hpaid⟩
    · exact .inl hdelivered
    · have hseen := hbefore.past_mem hidle _ hmem _ hr
      exact .inr ⟨_, hseen, decide_eq_true ⟨rfl, paid_of_isPaid hbefore (hcall ▸ hseen) hpaid⟩⟩
  | _ => cases hcredits

end Runs

/-! ## The two gates -/

/-- A pending session that nothing has credited, of a customer who exists, and what Stripe reports
of it. -/
structure Creditable (s : StripeStore) (sid : Text) (ss : StripeSession) (r : RemoteSession) :
    Prop where
  session : s.db.stripeSessions.get? sid = some ss
  pending : ss.status = .pending
  customer : (s.db.users.get? ss.userId).isSome = true
  uncredited : s.creditsOf sid = 0
  reported : s.remote sid = some r

/-- The delivery of an event about a session in the state that Stripe reports. -/
def StripeCall.aboutSession (async : Bool) (sid : Text) (r : RemoteSession) : StripeCall :=
  .billingStripeWebhook (some
    (if async then .asyncPaymentSucceeded sid r.paymentStatus r.paymentIntent
      else .checkoutSessionCompleted sid r.paymentStatus r.paymentIntent))

/-- The webhook credits the session when it is told of this state. -/
def WebhookCredits (async : Bool) (s : StripeStore) (sid : Text) (r : RemoteSession) : Prop :=
  (cardPayments.after (.aboutSession async sid r) s).creditsOf sid ≠ 0

/-- The reconcile job credits the session when it comes to it. -/
def ReconcileCredits (s : StripeStore) (sid : Text) (ss : StripeSession)
    (summary : ReconcileSummary) : Prop :=
  (eval cardPayments.toMachine (reconcileEach false [(sid, ss)] summary) s).1.creditsOf sid ≠ 0

section

variable {s : StripeStore} {sid : Text} {ss : StripeSession} {r : RemoteSession}

/-- Confirming a creditable session credits it. -/
theorem Creditable.confirm (h : Creditable s sid ss r) (pi : Option Text) :
    (eval cardPayments.toMachine (confirmStripePayment sid pi) s).1.creditsOf sid ≠ 0 := by
  have hcredit (t : StripeStore) (hdb : t.db = s.db) :
      ((StripeOp.completeAndCreditStripeSession sid).exec t).1.creditsOf sid ≠ 0 := by
    obtain ⟨user, huser⟩ := Option.isSome_iff_exists.mp h.customer
    have hfree : s.db.refTaken (some (.stripe sid)) ≠ true := by
      rw [ne_eq, refTaken_iff]
      rintro ⟨e, he, hkey⟩
      exact List.countP_eq_zero.mp h.uncredited e he (decide_eq_true hkey)
    simp only [StripeOp.exec, BillingRepository.completeAndCreditStripeSession, hdb, h.session,
      h.pending, huser]
    rw [if_neg (by rintro ⟨⟩), if_neg hfree]
    simp [StripeStore.creditsOf]
  have hget : eval cardPayments.toMachine
      (StripeService.call (.getStripeSessionByStripeId sid)) s = (s, some ss) :=
    congrArg (s, ·) h.session
  rw [confirmStripePayment, eval_bind, hget]
  dsimp only
  split
  · exact hcredit s rfl
  · exact hcredit s rfl
  · rw [eval_bind]
    refine hcredit _ ?_
    change (StripeStore.setStripePaymentIntent _ _ s).db = s.db
    unfold StripeStore.setStripePaymentIntent
    dsimp only
    split
    · rfl
    · split <;> rfl

theorem after_aboutSession (async : Bool) (sid : Text) (r : RemoteSession) (s : StripeStore) :
    cardPayments.after (.aboutSession async sid r) s =
      (eval cardPayments.toMachine (checkoutEvent sid r.paymentStatus r.paymentIntent) s).1 := by
  have hbody (p : Program CardPayments WebhookOutcome) :
      (eval cardPayments.toMachine (p >>= fun _ ↦ .done ()) s).1 =
        (eval cardPayments.toMachine p s).1 := by
    rw [eval_bind, eval_done]
  cases async <;> exact hbody _

/-- The webhook credits the session when it is paid. -/
theorem Creditable.webhook (h : Creditable s sid ss r) (async : Bool) :
    WebhookCredits async s sid r ↔ r.paymentStatus = some .paid := by
  rw [WebhookCredits, after_aboutSession, checkoutEvent]
  split
  · next hpaid =>
    refine iff_of_true ?_ hpaid
    have hcredits := h.confirm (paymentIntentId r.paymentIntent)
    rw [eval_bind]
    split <;> exact hcredits
  · next hunpaid =>
    exact iff_of_false (fun hcredits ↦ hcredits h.uncredited) hunpaid

/-- The reconcile job credits it when it is paid or complete. -/
theorem Creditable.reconcile (h : Creditable s sid ss r) (summary : ReconcileSummary) :
    ReconcileCredits s sid ss summary ↔ isPaid r = true := by
  have hget : eval cardPayments.toMachine (StripeService.call (.retrieveCheckoutSession sid)) s =
      (s, some r) := congrArg (s, ·) h.reported
  rw [ReconcileCredits, reconcileEach, eval_bind, hget]
  dsimp only
  split
  · next hunpaid =>
    exact iff_of_false (fun hcredits ↦ hcredits h.uncredited) (by simp [hunpaid])
  · next hpaid =>
    refine iff_of_true ?_ (Bool.eq_true_of_not_eq_false hpaid)
    have hcredits := h.confirm (paymentIntentId r.paymentIntent)
    rw [if_neg nofun, eval_bind]
    split <;> exact hcredits

end

/-- The two paths credit a session in the same states unless it can be complete and not paid; and
where no answer to the job calls an unpaid session complete, in every run of any number of
deliveries and jobs at once, each session is credited at most once and only after a report that it
is paid. -/
theorem captured_payments_credited (sid : Text) :
    (∀ s ss r async summary, Creditable s sid ss r →
      (WebhookCredits async s sid r ↔ r.paymentStatus = some .paid) ∧
        ((ReconcileCredits s sid ss summary ↔ WebhookCredits async s sid r) ↔
          ¬(r.status = some .complete ∧ r.paymentStatus ≠ some .paid))) ∧
      ∀ w w' log, w.threads = [] → cardPayments.Logs completeIsPaid w log w' →
        (w'.store.creditsOf sid =
            w.store.creditsOf sid + log.countP (fun entry ↦ creditsSession sid entry.event) ∧
          log.countP (fun entry ↦ creditsSession sid entry.event) ≤ 1) ∧
        ∀ before entry after, log = before ++ entry :: after →
          creditsSession sid entry.event = true →
            entry.call.deliversPaid sid = true ∨ ∃ earlier ∈ before,
              answersPaid sid earlier.event = true := by
  refine ⟨fun s ss r async summary h ↦ ⟨h.webhook async, ?_⟩, fun w w' log hidle run ↦
    ⟨credits_once run, fun before entry after ↦ credits_after_report hidle run⟩⟩
  rw [h.webhook async, h.reconcile summary, isPaid, decide_eq_true_eq]
  tauto

/-- A session of ada's that waits for its payment, and bob's that Stripe calls complete while the
payment is still on its way. -/
def awaitingPayment : World CardPayments StripeCall StripeStore where
  store :=
    { db :=
        { Db.empty with
          users := .ofRows [(1, ⟨"ada".toList, none, none, none, none, [], 0⟩),
            (2, ⟨"bob".toList, none, none, none, none, [], 0⟩)] (by decide : [1, 2].Nodup)
          stripeSessions := .ofRows [("cs_a".toList, ⟨1, 1, 2500, .pending⟩),
            ("cs_b".toList, ⟨2, 2, 5000, .pending⟩)] }
      paymentIntents := .empty
      remote := fun sid ↦
        if sid = "cs_a".toList then
          some ⟨some .opened, some .unpaid, none⟩
        else some ⟨some .complete, some .unpaid, some "pi_b".toList⟩ }
  threads := []

/-- Both sessions turn out paid; the webhook and the job credit one each. -/
theorem captured_payments_credited_two :
    ∃ log w', cardPayments.Logs completeIsPaid awaitingPayment log w' ∧
      w'.store.creditsOf "cs_a".toList = 1 ∧ w'.store.creditsOf "cs_b".toList = 1 ∧
      log.countP (fun entry ↦ creditsSession "cs_b".toList entry.event) ≤ 1 := by
  let paid : RemoteSession := ⟨some .complete, some .paid, some "pi_b".toList⟩
  obtain ⟨log, w', hrun, ha, hb⟩ := Service.exists_logs_of_record (S := cardPayments)
    (G := completeIsPaid) (w := awaitingPayment)
    ([.start (.setRemote "cs_b".toList (some paid)), .step 0,
      .start (.aboutSession false "cs_a".toList ⟨some .complete, some .paid, none⟩),
      .start (.reconcilePendingStripeSessions false)] ++
      [1, 2, 1, 2, 2, 2, 2, 2].map .step)
    (P := fun _ w' ↦ w'.store.creditsOf "cs_a".toList = 1 ∧
      w'.store.creditsOf "cs_b".toList = 1) (by decide +kernel)
  exact ⟨log, w', hrun, ha, hb, ((captured_payments_credited _).2 _ _ _ rfl hrun).1.2⟩

/-- The job credits bob's session, though Stripe has never reported it paid. -/
theorem unpaid_session_credited :
    ∃ log w', cardPayments.Logs Guard.free awaitingPayment log w' ∧
      (∃ entry ∈ log, creditsSession "cs_b".toList entry.event = true) ∧
      ∀ entry ∈ log, entry.call.deliversPaid "cs_b".toList = false ∧
        answersPaid "cs_b".toList entry.event = false :=
  Service.exists_logs_of_record
    (.start (.reconcilePendingStripeSessions false) :: List.replicate 6 (.step 0))
    (by decide +kernel)

end GreenCompute
