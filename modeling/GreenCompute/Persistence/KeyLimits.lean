import GreenCompute.Gateway.ApiKeys

/-!
# What an API key has spent

A key's spend is not kept anywhere: it is computed from the ledger, each debit of which names a
deployment or a request, and from the rows of deployments and of invocation records, which name the
key. `key_spend_never_forgotten` says when that is everything the key has spent: while no row that
a debit needs is missing. Deleting a workload takes the rows of its deployments away, and a request
has none before the worker has recorded it.
-/

namespace GreenCompute

abbrev RequestId := ℕ

/-! ## The tables -/

/-- What a ledger entry is about, where a key could be behind it. -/
inductive SpendReference where
  | deployment (d : DeploymentId)
  | request (r : RequestId)
  | other (name : Text)
  deriving DecidableEq

/-- The columns of `ledger_entries` that a key's spend reads. -/
structure SpendEntry where
  amountCents : ℤ
  kind : LedgerKind
  referenceId : Option SpendReference
  createdAt : Time
  deriving DecidableEq

/-- The columns of `deployments` that a key's limits read. -/
structure RentalRow where
  workloadId : WorkloadId
  createdByKeyId : Option KeyId
  state : DeploymentState
  deriving DecidableEq

/-- The tables that a key's limits read; an invocation record is the key of its request. -/
structure KeyLimitsDb where
  deployments : Table DeploymentId RentalRow
  ledger : List SpendEntry
  invocations : Table RequestId (Option KeyId)

namespace KeyLimitsDb

variable (db : KeyLimitsDb) (k : KeyId) (since : Time)

/-- The kind of the debits for requests. -/
def inferenceKind : LedgerKind := .other "inference".toList

/-- The reference is to a deployment that the key started. -/
def startedBy : Option SpendReference → Bool
  | some (.deployment d) => (db.deployments.get? d).any fun row ↦ row.createdByKeyId = some k
  | _ => false

/-- The reference is to a request that the key made. -/
def recordedFor : Option SpendReference → Bool
  | some (.request r) => db.invocations.get? r = some (some k)
  | _ => false

/-- A debit on a rental that the key started. -/
def onRental (e : SpendEntry) : Bool :=
  e.amountCents < 0 ∧ since ≤ e.createdAt ∧ db.startedBy k e.referenceId = true

/-- A debit for a request that the key made. -/
def onRequest (e : SpendEntry) : Bool :=
  e.amountCents < 0 ∧ since ≤ e.createdAt ∧ e.kind = inferenceKind ∧
    db.recordedFor k e.referenceId = true

/-- `key_spend_cents` -/
def keySpendCents : ℤ :=
  -(((db.ledger.filter (db.onRental k since)).map SpendEntry.amountCents).sum +
    ((db.ledger.filter (db.onRequest k since)).map SpendEntry.amountCents).sum)

/-- `_FINISHED_STATES` -/
def finishedStates : List DeploymentState := [.terminated, .failed]

/-- `key_active_rentals` -/
def keyActiveRentals : ℕ :=
  (db.deployments.select fun _ row ↦
    row.createdByKeyId = some k ∧ row.state ∉ finishedStates).length

end KeyLimitsDb

/-! ## What happens to the tables -/

/-- The tables, with the history of what was started with which key. -/
structure SpendWorld where
  db : KeyLimitsDb
  created : Table DeploymentId (WorkloadId × Option KeyId)
  requested : Table RequestId (Option KeyId)

/-- The transactions. A row of `deployments` is written as it was read, but for its state; the
entries of `post` are all those that are neither a debit on a rental nor one for a request. -/
inductive SpendOp where
  | createDeployment (d : DeploymentId) (w : WorkloadId) (k : Option KeyId)
  | updateDeployment (d : DeploymentId) (state : DeploymentState)
  | debitRental (d : DeploymentId) (cents : ℕ) (kind : LedgerKind) (now : Time)
  | request (r : RequestId) (k : Option KeyId)
  | chargeRequest (r : RequestId) (cents : ℕ) (now : Time)
  | recordInvocation (r : RequestId)
  | post (e : SpendEntry)
  | deleteWorkload (w : WorkloadId)

namespace SpendWorld

/-- Before anything has happened. -/
def empty : SpendWorld := ⟨⟨.empty, [], .empty⟩, .empty, .empty⟩

/-- Append a ledger entry. -/
def append (e : SpendEntry) (w : SpendWorld) : SpendWorld :=
  { w with db := { w.db with ledger := w.db.ledger ++ [e] } }

end SpendWorld

/-- An entry that no key's spend counts. -/
def SpendEntry.Unkeyed (e : SpendEntry) : Prop :=
  0 ≤ e.amountCents ∨ ∀ ref ∈ e.referenceId, ∃ name, ref = .other name

instance (e : SpendEntry) : Decidable e.Unkeyed := by
  unfold SpendEntry.Unkeyed
  have (ref : SpendReference) : Decidable (∃ name, ref = .other name) :=
    match ref with
    | .other name => .isTrue ⟨name, rfl⟩
    | .deployment _ => .isFalse nofun
    | .request _ => .isFalse nofun
  infer_instance

/-- One transaction. -/
def SpendOp.exec : SpendOp → SpendWorld → SpendWorld
  | createDeployment d wl k, w =>
    if (w.created.get? d).isSome then w
    else
      { w with
        db := { w.db with deployments := w.db.deployments.insert d ⟨wl, k, .pending⟩ }
        created := w.created.insert d (wl, k) }
  | updateDeployment d state, w =>
    match w.created.get? d with
    | none => w
    | some (wl, k) =>
      { w with db := { w.db with deployments := w.db.deployments.insert d ⟨wl, k, state⟩ } }
  | debitRental d cents kind now, w =>
    if (w.created.get? d).isSome then w.append ⟨-cents, kind, some (.deployment d), now⟩ else w
  | request r k, w =>
    if (w.requested.get? r).isSome then w
    else { w with requested := w.requested.insert r k }
  | chargeRequest r cents now, w =>
    if (w.requested.get? r).isSome then
      w.append ⟨-cents, KeyLimitsDb.inferenceKind, some (.request r), now⟩
    else w
  | recordInvocation r, w =>
    match w.requested.get? r with
    | none => w
    | some k =>
      if (w.db.invocations.get? r).isSome then w
      else { w with db := { w.db with invocations := w.db.invocations.insert r k } }
  | post e, w => if e.Unkeyed then w.append e else w
  | deleteWorkload wl, w =>
    { w with db := { w.db with
        deployments := w.db.deployments.filter fun _ row ↦ row.workloadId ≠ wl } }

namespace SpendWorld

variable (w : SpendWorld) (k : KeyId) (since : Time)

/-- The entry is about a rental that the key started, or a request that it made. -/
def MadeWith (e : SpendEntry) : Prop :=
  match e.referenceId with
  | some (.deployment d) => (w.created.get? d).map Prod.snd = some (some k)
  | some (.request r) => w.requested.get? r = some (some k)
  | _ => False

instance (e : SpendEntry) : Decidable (w.MadeWith k e) := by
  unfold MadeWith
  split <;> infer_instance

/-- Everything that was spent with the key. -/
def spentWith : ℤ :=
  -((w.db.ledger.filter fun e ↦
    e.amountCents < 0 ∧ since ≤ e.createdAt ∧ w.MadeWith k e).map SpendEntry.amountCents).sum

/-- The row that ties the entry to its key is there. -/
def HasRow (e : SpendEntry) : Prop :=
  match e.referenceId with
  | some (.deployment d) => (w.db.deployments.get? d).isSome
  | some (.request r) => (w.db.invocations.get? r).isSome
  | _ => True

/-- Any number of transactions, each meeting a condition on the tables it finds. -/
abbrev Runs (G : SpendOp → SpendWorld → Prop) : SpendWorld → SpendWorld → Prop :=
  Relation.ReflTransGen fun w w' ↦ ∃ o, G o w ∧ w' = o.exec w

/-- Nothing that the key was charged for since then is deleted. -/
def Spares (o : SpendOp) : Prop :=
  match o with
  | .deleteWorkload wl => ∀ e ∈ w.db.ledger, w.db.onRental k since e = true →
      ∀ d, e.referenceId = some (.deployment d) →
        ∀ row ∈ w.db.deployments.get? d, row.workloadId ≠ wl
  | _ => True

end SpendWorld

namespace SpendWorld

variable {w : SpendWorld} {k : KeyId} {since : Time}

/-! ### The spend as a sum over the ledger -/

/-- A sum over some of the entries. -/
private theorem sum_filter_eq (p : SpendEntry → Bool) (l : List SpendEntry) :
    ((l.filter p).map SpendEntry.amountCents).sum =
      (l.map fun e ↦ if p e then e.amountCents else 0).sum := by
  induction l with
  | nil => rfl
  | cons e l ih =>
    by_cases hp : p e
    · rw [List.filter_cons_of_pos hp, List.map_cons, List.sum_cons, ih, List.map_cons,
        List.sum_cons, if_pos hp]
    · rw [List.filter_cons_of_neg hp, ih, List.map_cons, List.sum_cons, if_neg hp, zero_add]

/-- The entry counts towards the key's spend. -/
def counts (db : KeyLimitsDb) (k : KeyId) (since : Time) (e : SpendEntry) : Bool :=
  db.onRental k since e || db.onRequest k since e

theorem keySpendCents_eq (db : KeyLimitsDb) :
    db.keySpendCents k since =
      (db.ledger.map fun e ↦ if counts db k since e then -e.amountCents else 0).sum := by
  rw [KeyLimitsDb.keySpendCents, sum_filter_eq, sum_filter_eq]
  induction db.ledger with
  | nil => rfl
  | cons e l ih =>
    rw [List.map_cons, List.sum_cons, List.map_cons, List.sum_cons, List.map_cons, List.sum_cons,
      ← ih]
    -- An entry is about a deployment or about a request.
    have hnot : ¬(db.onRental k since e = true ∧ db.onRequest k since e = true) := by
      rintro ⟨hrental, hrequest⟩
      obtain ⟨-, -, hstarted⟩ := of_decide_eq_true hrental
      obtain ⟨-, -, -, hrecorded⟩ := of_decide_eq_true hrequest
      cases href : e.referenceId with
      | none => simp [href, KeyLimitsDb.startedBy] at hstarted
      | some ref => cases ref <;> simp [href, KeyLimitsDb.startedBy, KeyLimitsDb.recordedFor]
                      at hstarted hrecorded
    cases hrental : db.onRental k since e <;> cases hrequest : db.onRequest k since e
    · simp [counts, hrental, hrequest]
    · simp [counts, hrental, hrequest]
      ring
    · simp [counts, hrental, hrequest]
      ring
    · exact absurd ⟨hrental, hrequest⟩ hnot

theorem spentWith_eq :
    w.spentWith k since = (w.db.ledger.map fun e ↦
      if e.amountCents < 0 ∧ since ≤ e.createdAt ∧ w.MadeWith k e then -e.amountCents else 0).sum := by
  rw [spentWith, sum_filter_eq]
  induction w.db.ledger with
  | nil => rfl
  | cons e l ih =>
    rw [List.map_cons, List.sum_cons, List.map_cons, List.sum_cons, ← ih]
    by_cases h : e.amountCents < 0 ∧ since ≤ e.createdAt ∧ w.MadeWith k e
    · rw [if_pos (decide_eq_true h), if_pos h]
      ring
    · rw [if_neg (by simpa using h), if_neg h]
      ring

/-! ### The rows and the history -/

/-- The rows are those of the history, and the debits for requests are of their kind. -/
structure Linked (w : SpendWorld) : Prop where
  deployments : ∀ d row, w.db.deployments.get? d = some row →
    w.created.get? d = some (row.workloadId, row.createdByKeyId)
  invocations : ∀ r key, w.db.invocations.get? r = some key → w.requested.get? r = some key
  requests : ∀ e ∈ w.db.ledger, e.amountCents < 0 → ∀ r, e.referenceId = some (.request r) →
    e.kind = KeyLimitsDb.inferenceKind

theorem linked_empty : Linked empty := ⟨nofun, nofun, nofun⟩

theorem Linked.append (h : Linked w) {e : SpendEntry}
    (he : e.amountCents < 0 → ∀ r, e.referenceId = some (.request r) →
      e.kind = KeyLimitsDb.inferenceKind) : Linked (w.append e) where
  deployments := h.deployments
  invocations := h.invocations
  requests e' he' := by
    rcases List.mem_append.mp he' with hold | hnew
    · exact h.requests e' hold
    · exact List.mem_singleton.mp hnew ▸ he

theorem Linked.exec (h : Linked w) (o : SpendOp) : Linked (o.exec w) := by
  cases o with
  | createDeployment d wl key =>
    rw [SpendOp.exec]
    split
    · exact h
    · refine ⟨fun d' row hrow ↦ ?_, h.invocations, h.requests⟩
      rw [Table.get?_insert] at hrow ⊢
      split_ifs at hrow ⊢ with hd
      · obtain rfl := Option.some.inj hrow
        rfl
      · exact h.deployments d' row hrow
  | updateDeployment d state =>
    rw [SpendOp.exec]
    split
    · exact h
    · next wl key hcreated =>
      refine ⟨fun d' row hrow ↦ ?_, h.invocations, h.requests⟩
      rw [Table.get?_insert] at hrow
      split_ifs at hrow with hd
      · obtain rfl := Option.some.inj hrow
        exact hd ▸ hcreated
      · exact h.deployments d' row hrow
  | debitRental d cents kind now =>
    rw [SpendOp.exec]
    split
    · exact h.append (by rintro _ _ ⟨⟩)
    · exact h
  | request r key =>
    rw [SpendOp.exec]
    split
    · exact h
    · next hnew =>
      refine ⟨h.deployments, fun r' key' hkey ↦ ?_, h.requests⟩
      have hold := h.invocations r' key' hkey
      refine (Table.get?_insert_ne _ ?_ _).trans hold
      rintro rfl
      exact hnew (hold ▸ rfl)
  | chargeRequest r cents now =>
    rw [SpendOp.exec]
    split
    · exact h.append fun _ _ _ ↦ rfl
    · exact h
  | recordInvocation r =>
    rw [SpendOp.exec]
    split
    · exact h
    · next key hkey =>
      split
      · exact h
      · refine ⟨h.deployments, fun r' key' hrow ↦ ?_, h.requests⟩
        rw [Table.get?_insert] at hrow
        split_ifs at hrow with hr
        · obtain rfl : key = key' := Option.some.inj hrow
          exact hr ▸ hkey
        · exact h.invocations r' key' hrow
  | post e =>
    rw [SpendOp.exec]
    split
    · next hunkeyed =>
      refine h.append fun hneg r hr ↦ ?_
      rcases hunkeyed with hpos | hother
      · exact absurd hneg (not_lt.mpr hpos)
      · obtain ⟨name, hname⟩ := hother _ hr
        cases hname
    · exact h
  | deleteWorkload wl =>
    refine ⟨fun d row hrow ↦ h.deployments d row ?_, h.invocations, h.requests⟩
    change (w.db.deployments.filter fun _ row ↦ row.workloadId ≠ wl).get? d = some row at hrow
    rw [Table.get?_filter] at hrow
    exact (Option.filter_eq_some_iff.mp hrow).1

theorem Linked.runs {G : SpendOp → SpendWorld → Prop} {w' : SpendWorld} (h : Linked w)
    (hruns : Runs G w w') : Linked w' := by
  induction hruns with
  | refl => exact h
  | tail _ hstep ih =>
    obtain ⟨o, -, rfl⟩ := hstep
    exact ih.exec o

/-- Of a debit, the code counts what is the key's and has its row. -/
theorem Linked.counts_iff (h : Linked w) {e : SpendEntry} (he : e ∈ w.db.ledger) :
    counts w.db k since e = true ↔
      (e.amountCents < 0 ∧ since ≤ e.createdAt ∧ w.MadeWith k e) ∧ w.HasRow e := by
  unfold counts KeyLimitsDb.onRental KeyLimitsDb.onRequest MadeWith HasRow
  rw [Bool.or_eq_true, decide_eq_true_eq, decide_eq_true_eq]
  cases href : e.referenceId with
  | none => simp [KeyLimitsDb.startedBy, KeyLimitsDb.recordedFor]
  | some ref =>
    cases ref with
    | other name => simp [KeyLimitsDb.startedBy, KeyLimitsDb.recordedFor]
    | deployment d =>
      cases hrow : w.db.deployments.get? d with
      | none => simp [KeyLimitsDb.startedBy, KeyLimitsDb.recordedFor, hrow]
      | some row =>
        simp [KeyLimitsDb.startedBy, KeyLimitsDb.recordedFor, hrow, h.deployments d row hrow]
    | request r =>
      cases hrow : w.db.invocations.get? r with
      | none => simp [KeyLimitsDb.startedBy, KeyLimitsDb.recordedFor, hrow]
      | some key =>
        have hkind : e.amountCents < 0 → e.kind = KeyLimitsDb.inferenceKind := fun hneg ↦
          h.requests e he hneg r href
        simp only [KeyLimitsDb.startedBy, KeyLimitsDb.recordedFor, hrow, h.invocations r key hrow,
          Bool.false_eq_true, and_false, false_or, decide_eq_true_eq, Option.some.injEq,
          Option.isSome_some, and_true]
        constructor
        · rintro ⟨hneg, hsince, -, hkey⟩
          exact ⟨hneg, hsince, hkey⟩
        · rintro ⟨hneg, hsince, hkey⟩
          exact ⟨hneg, hsince, hkind hneg, hkey⟩

/-! ### What is forgotten -/

/-- Two sums, one of which is the larger entry by entry, are equal if the entries are. -/
private theorem sum_map_eq_iff {f g : SpendEntry → ℤ} {l : List SpendEntry}
    (h : ∀ e ∈ l, f e ≤ g e) : (l.map f).sum = (l.map g).sum ↔ ∀ e ∈ l, f e = g e := by
  induction l with
  | nil => simp
  | cons e l ih =>
    have hhead := h e List.mem_cons_self
    have htail : ∀ e' ∈ l, f e' ≤ g e' := fun e' he' ↦ h e' (List.mem_cons_of_mem _ he')
    have hsum : (l.map f).sum ≤ (l.map g).sum := List.sum_le_sum htail
    rw [List.map_cons, List.map_cons, List.sum_cons, List.sum_cons, List.forall_mem_cons,
      ← ih htail]
    exact ⟨fun heq ↦ ⟨by omega, by omega⟩, fun ⟨he, hl⟩ ↦ by rw [he, hl]⟩

/-- Every debit that was made with the key since then has its row. -/
def Accounted (w : SpendWorld) (k : KeyId) (since : Time) : Prop :=
  ∀ e ∈ w.db.ledger, e.amountCents < 0 → since ≤ e.createdAt → w.MadeWith k e → w.HasRow e

theorem Linked.keySpend_eq_iff (h : Linked w) :
    w.db.keySpendCents k since = w.spentWith k since ↔ w.Accounted k since := by
  have hle : ∀ e ∈ w.db.ledger, (if counts w.db k since e = true then -e.amountCents else 0) ≤
      if e.amountCents < 0 ∧ since ≤ e.createdAt ∧ w.MadeWith k e then -e.amountCents else 0 := by
    intro e he
    by_cases hmade : e.amountCents < 0 ∧ since ≤ e.createdAt ∧ w.MadeWith k e
    · rw [if_pos hmade]
      split
      · exact le_rfl
      · have := hmade.1
        omega
    · rw [if_neg hmade, if_neg fun hcounts ↦ hmade ((h.counts_iff he).mp hcounts).1]
  rw [keySpendCents_eq, spentWith_eq, sum_map_eq_iff hle, Accounted]
  refine forall₂_congr fun e he ↦ ?_
  by_cases hmade : e.amountCents < 0 ∧ since ≤ e.createdAt ∧ w.MadeWith k e
  · rw [if_pos hmade]
    have hneg := hmade.1
    constructor
    · intro heq _ _ _
      by_contra hrow
      rw [if_neg fun hcounts ↦ hrow ((h.counts_iff he).mp hcounts).2] at heq
      omega
    · intro hall
      rw [if_pos ((h.counts_iff he).mpr ⟨hmade, hall hmade.1 hmade.2.1 hmade.2.2⟩)]
  · rw [if_neg hmade, if_neg fun hcounts ↦ hmade ((h.counts_iff he).mp hcounts).1]
    exact ⟨fun _ hneg hsince hwith ↦ absurd ⟨hneg, hsince, hwith⟩ hmade, fun _ ↦ rfl⟩

/-! ### What stays -/

/-- A row of `deployments` keeps its key. -/
theorem Linked.exists_row_exec (h : Linked w) {o : SpendOp} {d : DeploymentId} {row : RentalRow}
    (hrow : w.db.deployments.get? d = some row)
    (hspared : ∀ wl, o = .deleteWorkload wl → row.workloadId ≠ wl) :
    ∃ row', (o.exec w).db.deployments.get? d = some row' ∧
      row'.createdByKeyId = row.createdByKeyId := by
  have hcreated := h.deployments d row hrow
  cases o with
  | createDeployment d' wl key =>
    rw [SpendOp.exec]
    split
    · exact ⟨row, hrow, rfl⟩
    · next hnew =>
      have hne : d ≠ d' := by
        rintro rfl
        exact hnew (hcreated ▸ rfl)
      exact ⟨row, (Table.get?_insert_ne _ hne _).trans hrow, rfl⟩
  | updateDeployment d' state =>
    rw [SpendOp.exec]
    split
    · exact ⟨row, hrow, rfl⟩
    · next wl key hget =>
      by_cases hd : d = d'
      · have hkey := hcreated.symm.trans (hd ▸ hget)
        refine ⟨⟨wl, key, state⟩, hd ▸ Table.get?_insert_self _ _ _, ?_⟩
        exact (Prod.ext_iff.mp (Option.some.inj hkey)).2.symm
      · exact ⟨row, (Table.get?_insert_ne _ hd _).trans hrow, rfl⟩
  | deleteWorkload wl =>
    refine ⟨row, ?_, rfl⟩
    change (w.db.deployments.filter fun _ row ↦ row.workloadId ≠ wl).get? d = some row
    rw [Table.get?_filter, hrow, Option.filter_some, if_pos (decide_eq_true (hspared wl rfl))]
  | request r key =>
    rw [SpendOp.exec]
    split <;> exact ⟨row, hrow, rfl⟩
  | recordInvocation r =>
    rw [SpendOp.exec]
    split
    · exact ⟨row, hrow, rfl⟩
    · split <;> exact ⟨row, hrow, rfl⟩
  | debitRental | chargeRequest | post =>
    rw [SpendOp.exec]
    split <;> exact ⟨row, hrow, rfl⟩

theorem get?_invocations_exec {o : SpendOp} {r : RequestId} {key : Option KeyId}
    (hrow : w.db.invocations.get? r = some key) :
    (o.exec w).db.invocations.get? r = some key := by
  cases o with
  | recordInvocation r' =>
    rw [SpendOp.exec]
    split
    · exact hrow
    · split
      · exact hrow
      · next hnew =>
        refine (Table.get?_insert_ne _ ?_ _).trans hrow
        rintro rfl
        exact hnew (hrow ▸ rfl)
  | updateDeployment d state =>
    rw [SpendOp.exec]
    split <;> exact hrow
  | deleteWorkload wl => exact hrow
  | createDeployment | debitRental | request | chargeRequest | post =>
    rw [SpendOp.exec]
    split <;> exact hrow

/-- What is counted stays counted, as long as nothing that was charged for is deleted. -/
theorem Linked.counts_exec (h : Linked w) {o : SpendOp} (hspares : w.Spares k since o)
    {e : SpendEntry} (he : e ∈ w.db.ledger) (hcounts : counts w.db k since e = true) :
    counts (o.exec w).db k since e = true := by
  unfold counts at hcounts ⊢
  rw [Bool.or_eq_true] at hcounts ⊢
  refine hcounts.imp (fun hrental ↦ ?_) fun hrequest ↦ ?_
  · obtain ⟨hneg, hsince, hstarted⟩ := of_decide_eq_true hrental
    refine decide_eq_true ⟨hneg, hsince, ?_⟩
    cases href : e.referenceId with
    | none => exact nomatch href ▸ hstarted
    | some ref =>
      cases ref with
      | deployment d =>
        rw [href] at hstarted
        obtain ⟨row, hrow, hkey⟩ := (Option.any_eq_true _ _).mp hstarted
        have hspared : ∀ wl, o = .deleteWorkload wl → row.workloadId ≠ wl := by
          rintro wl rfl
          exact hspares e he hrental d href row hrow
        obtain ⟨row', hrow', hsame⟩ := h.exists_row_exec hrow hspared
        exact (Option.any_eq_true _ _).mpr ⟨row', hrow', hsame ▸ hkey⟩
      | request r => exact nomatch href ▸ hstarted
      | other name => exact nomatch href ▸ hstarted
  · obtain ⟨hneg, hsince, hkind, hrecorded⟩ := of_decide_eq_true hrequest
    refine decide_eq_true ⟨hneg, hsince, hkind, ?_⟩
    cases href : e.referenceId with
    | none => exact nomatch href ▸ hrecorded
    | some ref =>
      cases ref with
      | request r =>
        rw [href] at hrecorded
        exact decide_eq_true (get?_invocations_exec (of_decide_eq_true hrecorded))
      | deployment d => exact nomatch href ▸ hrecorded
      | other name => exact nomatch href ▸ hrecorded

theorem exists_ledger_exec (o : SpendOp) :
    ∃ new, (o.exec w).db.ledger = w.db.ledger ++ new := by
  have hsame : ∀ w' : SpendWorld, w'.db.ledger = w.db.ledger →
      ∃ new, w'.db.ledger = w.db.ledger ++ new := fun w' hw' ↦
    ⟨[], hw'.trans (List.append_nil _).symm⟩
  cases o with
  | debitRental | chargeRequest | post =>
    rw [SpendOp.exec]
    split
    · exact ⟨_, rfl⟩
    · exact hsame w rfl
  | deleteWorkload wl => exact hsame _ rfl
  | recordInvocation r =>
    rw [SpendOp.exec]
    split
    · exact hsame w rfl
    · split <;> exact hsame _ rfl
  | createDeployment | updateDeployment | request =>
    rw [SpendOp.exec]
    split <;> exact hsame _ rfl

/-- A transaction that deletes nothing that was charged for does not lower the spend. -/
theorem Linked.keySpend_le_exec (h : Linked w) {o : SpendOp} (hspares : w.Spares k since o) :
    w.db.keySpendCents k since ≤ (o.exec w).db.keySpendCents k since := by
  obtain ⟨new, hnew⟩ := exists_ledger_exec (w := w) o
  rw [keySpendCents_eq, keySpendCents_eq, hnew, List.map_append, List.sum_append]
  have hnonneg : ∀ (db : KeyLimitsDb) (e : SpendEntry),
      0 ≤ if counts db k since e = true then -e.amountCents else 0 := by
    intro db e
    split
    · next hcounts =>
      have hneg : e.amountCents < 0 := by
        rcases (Bool.or_eq_true _ _).mp hcounts with h | h
        · exact (of_decide_eq_true h).1
        · exact (of_decide_eq_true h).1
      omega
    · exact le_rfl
  have hold : (w.db.ledger.map fun e ↦ if counts w.db k since e then -e.amountCents else 0).sum ≤
      (w.db.ledger.map fun e ↦
        if counts (o.exec w).db k since e then -e.amountCents else 0).sum := by
    refine List.sum_le_sum fun e he ↦ ?_
    by_cases hcounts : counts w.db k since e = true
    · rw [if_pos hcounts, if_pos (h.counts_exec hspares he hcounts)]
    · rw [if_neg hcounts]
      exact hnonneg _ e
  have hrest : 0 ≤ (new.map fun e ↦
      if counts (o.exec w).db k since e then -e.amountCents else 0).sum := by
    refine List.sum_nonneg fun x hx ↦ ?_
    obtain ⟨e, -, rfl⟩ := List.mem_map.mp hx
    exact hnonneg _ e
  omega

/-- In every state that is reached, the spend that is computed is everything that was spent with
the key exactly if no debit lacks its row; and it never falls while nothing that was charged for is
deleted. -/
theorem key_spend_never_forgotten (w : SpendWorld) (h : Runs (fun _ _ ↦ True) empty w)
    (k : KeyId) (since : Time) :
    (w.db.keySpendCents k since = w.spentWith k since ↔ w.Accounted k since) ∧
      ∀ w', Runs (fun o w ↦ w.Spares k since o) w w' →
        w.db.keySpendCents k since ≤ w'.db.keySpendCents k since := by
  have hlinked := linked_empty.runs h
  refine ⟨hlinked.keySpend_eq_iff, fun w' hruns ↦ ?_⟩
  have hmono : Linked w' ∧ w.db.keySpendCents k since ≤ w'.db.keySpendCents k since := by
    induction hruns with
    | refl => exact ⟨hlinked, le_rfl⟩
    | tail _ hstep ih =>
      obtain ⟨o, hspares, rfl⟩ := hstep
      exact ⟨ih.1.exec o, ih.2.trans (ih.1.keySpend_le_exec hspares)⟩
  exact hmono.2

/-! ### A rental whose workload is deleted -/

/-- Some transactions in turn. -/
def after (ops : List SpendOp) : SpendWorld := ops.foldl (fun w o ↦ o.exec w) empty

theorem runs_after (ops : List SpendOp) : Runs (fun _ _ ↦ True) empty (after ops) := by
  induction ops using List.reverseRecOn with
  | nil => exact .refl
  | append_singleton ops o ih =>
    rw [after, List.foldl_append]
    exact ih.tail ⟨o, trivial, rfl⟩

/-- A rental that the key starts and is charged for. -/
def chargedRental : List SpendOp :=
  [.createDeployment 1 "pod".toList (some 7), .updateDeployment 1 .ready,
    .debitRental 1 100 .usage 10]

theorem key_spend_never_forgotten_rental :
    ((after chargedRental).db.keySpendCents 7 0 = (after chargedRental).spentWith 7 0 ↔
      (after chargedRental).Accounted 7 0) ∧
    (after chargedRental).db.keySpendCents 7 0 ≤
      ((SpendOp.updateDeployment 1 .terminated).exec (after chargedRental)).db.keySpendCents 7 0 :=
  have h := key_spend_never_forgotten (after chargedRental) (runs_after chargedRental) 7 0
  ⟨h.1, h.2 _ (.single ⟨.updateDeployment 1 .terminated, trivial, rfl⟩)⟩

/-- With its workload the charge is forgotten. -/
theorem deleted_rental_forgotten :
    ¬∀ (w : SpendWorld), Runs (fun _ _ ↦ True) empty w → ∀ (k : KeyId) (since : Time),
      w.db.keySpendCents k since = w.spentWith k since := by
  intro h
  have heq := h _ (runs_after (chargedRental ++
    [.updateDeployment 1 .terminated, .deleteWorkload "pod".toList])) 7 0
  revert heq
  decide +kernel

end SpendWorld

end GreenCompute
