import GreenCompute.Foundations.Grouping
import GreenCompute.Foundations.Steps
import GreenCompute.Gateway.RentalLimits

/-!
# The daily limit of a key and of the keys below it

A pass stops the running rentals of each key that has spent its daily limit. It looks a key's limit
up in the table of keys, and sums what that one key has spent. But a key may be deleted, by itself
as well, and its rentals go on; and a key may mint others, each of which has a counter of its own.

So a limit binds all that was started under a key exactly if each of its running rentals is of a key
that is still there and has spent its own limit by itself (`key_limit_binds_family`). For a key that
is still there it is enough that it has spent the limit of the key at the top, since limits only get
tighter down a branch, whatever is deleted.
-/

namespace GreenCompute

/-! ## Deleting a key -/

/-- A request to `DELETE /platform/api-keys/{key_id}`, with the answer of the throttle. -/
structure DeleteApiKey where
  keyId : KeyId
  authorization : Option Text
  xApiKey : Option Text
  throttled : Bool := false

namespace KeyStore

/-- `delete_api_key` of the repository. -/
def remove (id : KeyId) (s : KeyStore) : KeyStore where
  apiKeys := s.apiKeys.filter fun id' _ ↦ id' ≠ id
  drawn := s.drawn
  fresh id' hid := by
    rw [Table.get?_filter, s.fresh id' hid]
    rfl

/-- `get_api_key` of the service: a user's own key, or any for an admin. -/
def getOwnApiKey (id : KeyId) (userId : Option UserId) (admin : Bool) (s : KeyStore) :
    Option ApiKeyRow :=
  (s.apiKeys.get? id).filter fun key ↦ admin || key.userId = userId

/-- `delete_api_key` of the service. -/
def deleteApiKey (id : KeyId) (userId : Option UserId) (admin : Bool) (s : KeyStore) :
    Except HttpError KeyStore :=
  match s.apiKeys.get? id with
  | none => .error ⟨404, "api key not found: ".toList ++ (Nat.repr id).toList⟩
  | some key =>
    if admin = false ∧ key.userId ≠ userId then
      .error ⟨403, "api key delete denied: ".toList ++ (Nat.repr id).toList⟩
    else .ok (s.remove id)

/-- The route `DELETE /platform/api-keys/{key_id}`. -/
def deleteApiKeyRoute (env : GatewayEnv) (call : DeleteApiKey) (s : KeyStore) :
    Except HttpError KeyStore := do
  let apiKey ← requireApiKey env s call.throttled "DELETE".toList
    ("/platform/api-keys/".toList ++ (Nat.repr call.keyId).toList) call.authorization call.xApiKey
  let target := s.getOwnApiKey call.keyId apiKey.userId false
  if apiKey.scopes ≠ [] ∧ apiKey.admin = false ∧
      (target.any fun key ↦ key.scopes = [] ∨ ¬key.scopes ⊆ apiKey.scopes) then
    .error ⟨403, "a scoped key can't delete a key broader than itself".toList⟩
  else s.deleteApiKey call.keyId apiKey.userId apiKey.admin

/-- The store after a request to delete a key. -/
def delete (env : GatewayEnv) (call : DeleteApiKey) (s : KeyStore) : KeyStore :=
  match s.deleteApiKeyRoute env call with
  | .ok s' => s'
  | .error _ => s

end KeyStore

/-! ## The pass -/

namespace RentalWorld

/-- `keys_with_spend_limits` -/
def keysWithSpendLimits (s : RentalWorld) (k : KeyId) : Option ℤ :=
  (s.keys.keys.apiKeys.get? k).bind ApiKeyRow.dailySpendLimitCents

/-- `SPEND_WINDOW` -/
def spendWindow : Time := 86400

/-- The rental runs, and its key has spent its limit. -/
def overKeyLimit (now : Time) (s : RentalWorld) (row : RentalRow) : Bool :=
  row.state = .ready ∧ row.createdByKeyId.any fun k ↦ (s.keysWithSpendLimits k).any fun limit ↦
    limit ≤ s.db.keySpendCents k (now - spendWindow)

/-- What becomes of a rental in the pass. -/
def stopOverKeyLimit (now : Time) (s : RentalWorld) (row : RentalRow) : RentalRow :=
  if s.overKeyLimit now row then { row with state := .terminated } else row

/-- `stop_rentals_over_key_limits`, without errors. -/
def stopRentalsOverKeyLimits (now : Time) (s : RentalWorld) : RentalWorld :=
  { s with db := { s.db with
      deployments := s.db.deployments.map fun _ row ↦ s.stopOverKeyLimit now row } }

end RentalWorld

/-! ## What happens to the tables -/

/-- The tables, with the rows of the keys as they were made. -/
structure Lineage where
  rentals : RentalWorld
  made : Table KeyId ApiKeyRow

/-- The transactions. Rentals are inserted and change their state, and the ledger grows, in any
way. -/
inductive LineageOp where
  | createApiKey (call : PostApiKey)
  | deleteApiKey (call : DeleteApiKey)
  | createDeployment (d : DeploymentId) (w : WorkloadId) (k : Option KeyId)
  | updateState (d : DeploymentId) (state : DeploymentState)
  | post (e : SpendEntry)
  | recordInvocation (r : RequestId) (k : Option KeyId)
  | stopRentalsOverKeyLimits (now : Time)

namespace Lineage

/-- Before there is any key. -/
def empty : Lineage := ⟨⟨⟨⟨.empty, 0, fresh_empty⟩, []⟩, ⟨.empty, [], .empty⟩⟩, .empty⟩

/-- A request to mint a key. -/
def createApiKey (env : GatewayEnv) (call : PostApiKey) (s : Lineage) : Lineage where
  rentals := { s.rentals with keys := s.rentals.keys.post env call }
  made := match createApiKeyRoute env call s.rentals.keys.keys with
    | .ok key => s.made.insert s.rentals.keys.keys.drawn (mintedRow key)
    | .error _ => s.made

/-- A request to delete a key. -/
def deleteApiKey (env : GatewayEnv) (call : DeleteApiKey) (s : Lineage) : Lineage :=
  { s with rentals := { s.rentals with keys := { s.rentals.keys with
      keys := s.rentals.keys.keys.delete env call } } }

/-- A change of the tables of rentals. -/
def onDb (f : KeyLimitsDb → KeyLimitsDb) (s : Lineage) : Lineage :=
  { s with rentals := { s.rentals with db := f s.rentals.db } }

end Lineage

/-- One transaction. -/
def LineageOp.exec (env : GatewayEnv) : LineageOp → Lineage → Lineage
  | createApiKey call, s => s.createApiKey env call
  | deleteApiKey call, s => s.deleteApiKey env call
  | createDeployment d w k, s => { s with rentals := s.rentals.createDeployment d w k }
  | updateState d state, s => { s with rentals := s.rentals.updateState d state }
  | post e, s => s.onDb fun db ↦ { db with ledger := db.ledger ++ [e] }
  | recordInvocation r k, s => s.onDb fun db ↦ { db with invocations := db.invocations.insert r k }
  | stopRentalsOverKeyLimits now, s =>
    { s with rentals := s.rentals.stopRentalsOverKeyLimits now }

/-! ## Families of keys -/

namespace RentalWorld

variable (s : RentalWorld) (k : KeyId)

/-- The entry is about a rental that was started with a key or with one below it. -/
def StartedUnder (ref : Option SpendReference) : Prop :=
  ∃ d row k', ref = some (.deployment d) ∧ s.db.deployments.get? d = some row ∧
    row.createdByKeyId = some k' ∧ s.Under k k'

open Classical in
/-- What was charged since then for the rentals that were started under a key. -/
noncomputable def familySpend (since : Time) : ℤ :=
  -((s.db.ledger.filter fun e ↦ e.amountCents < 0 ∧ since ≤ e.createdAt ∧
    s.StartedUnder k e.referenceId).map SpendEntry.amountCents).sum

/-- A rental that was started under a key is running. -/
def RunsUnder (row : RentalRow) : Prop :=
  row.state = .ready ∧ ∃ k' ∈ row.createdByKeyId, s.Under k k'

/-- Where the rentals under a key have spent a limit in a day, none of them is running. -/
def Binds (limit : ℤ) (now : Time) : Prop :=
  limit ≤ s.familySpend k (now - spendWindow) →
    ∀ d row, s.db.deployments.get? d = some row → ¬s.RunsUnder k row

/-- Where the rentals under a key have spent a limit in a day, each that is running is of a key that
is still there, and that has spent its own limit. -/
def EachOverItsOwn (limit : ℤ) (now : Time) : Prop :=
  limit ≤ s.familySpend k (now - spendWindow) →
    ∀ d row, s.db.deployments.get? d = some row → s.RunsUnder k row →
      ∃ k' ∈ row.createdByKeyId, ∃ key ∈ s.keys.keys.apiKeys.get? k',
        ∃ own ∈ key.dailySpendLimitCents, own ≤ s.db.keySpendCents k' (now - spendWindow)

end RentalWorld

namespace RentalWorld

variable {s : RentalWorld} {k : KeyId} {now : Time}

/-! ### What a pass does -/

theorem overKeyLimit_iff {row : RentalRow} : s.overKeyLimit now row = true ↔
    row.state = .ready ∧ ∃ k' ∈ row.createdByKeyId, ∃ key ∈ s.keys.keys.apiKeys.get? k',
      ∃ own ∈ key.dailySpendLimitCents, own ≤ s.db.keySpendCents k' (now - spendWindow) := by
  rw [overKeyLimit, decide_eq_true_eq]
  refine and_congr_right fun _ ↦ ?_
  rw [Option.any_eq_true]
  refine exists_congr fun k' ↦ and_congr_right fun _ ↦ ?_
  rw [Option.any_eq_true]
  constructor
  · rintro ⟨own, hown, hle⟩
    obtain ⟨key, hkey, hlimit⟩ := Option.bind_eq_some_iff.mp hown
    exact ⟨key, hkey, own, hlimit, of_decide_eq_true hle⟩
  · rintro ⟨key, hkey, own, hown, hle⟩
    exact ⟨own, Option.bind_eq_some_iff.mpr ⟨key, hkey, hown⟩, decide_eq_true hle⟩

theorem get?_stopRentalsOverKeyLimits (d : DeploymentId) :
    (s.stopRentalsOverKeyLimits now).db.deployments.get? d =
      (s.db.deployments.get? d).map (s.stopOverKeyLimit now) :=
  Table.get?_map _ _ _

theorem createdByKeyId_stopOverKeyLimit (row : RentalRow) :
    (s.stopOverKeyLimit now row).createdByKeyId = row.createdByKeyId := by
  unfold stopOverKeyLimit
  split <;> rfl

/-- A pass leaves it as it was which rentals were started under a key. -/
theorem startedUnder_stopRentals (ref : Option SpendReference) :
    (s.stopRentalsOverKeyLimits now).StartedUnder k ref ↔ s.StartedUnder k ref := by
  constructor
  · rintro ⟨d, row, k', hd, hrow, hcreated, hunder⟩
    rw [get?_stopRentalsOverKeyLimits] at hrow
    obtain ⟨old, hold, rfl⟩ := Option.map_eq_some_iff.mp hrow
    rw [createdByKeyId_stopOverKeyLimit] at hcreated
    exact ⟨d, old, k', hd, hold, hcreated, hunder⟩
  · rintro ⟨d, row, k', hd, hrow, hcreated, hunder⟩
    refine ⟨d, s.stopOverKeyLimit now row, k', hd, ?_, ?_, hunder⟩
    · rw [get?_stopRentalsOverKeyLimits, hrow, Option.map_some]
    · rw [createdByKeyId_stopOverKeyLimit, hcreated]

theorem familySpend_stopRentals (since : Time) :
    (s.stopRentalsOverKeyLimits now).familySpend k since = s.familySpend k since := by
  have hfilter : (s.stopRentalsOverKeyLimits now).db.ledger = s.db.ledger := rfl
  rw [familySpend, familySpend, hfilter]
  congr 3
  refine List.filter_congr fun e _ ↦ ?_
  rw [decide_eq_decide, startedUnder_stopRentals]

/-- After a pass those run that ran before and whose key had not spent its limit. -/
theorem runsUnder_stopRentals {d : DeploymentId} :
    (∃ row, (s.stopRentalsOverKeyLimits now).db.deployments.get? d = some row ∧
        (s.stopRentalsOverKeyLimits now).RunsUnder k row) ↔
      ∃ row, s.db.deployments.get? d = some row ∧ s.RunsUnder k row ∧
        s.overKeyLimit now row = false := by
  rw [get?_stopRentalsOverKeyLimits]
  constructor
  · rintro ⟨row, hrow, hruns⟩
    obtain ⟨old, hold, rfl⟩ := Option.map_eq_some_iff.mp hrow
    cases hover : s.overKeyLimit now old with
    | true =>
      rw [stopOverKeyLimit, if_pos hover] at hruns
      exact nomatch hruns.1
    | false =>
      rw [stopOverKeyLimit, hover, if_neg Bool.false_ne_true] at hruns
      exact ⟨old, hold, hruns, hover⟩
  · rintro ⟨row, hrow, hruns, hover⟩
    refine ⟨row, ?_, hruns⟩
    rw [hrow, Option.map_some, stopOverKeyLimit, hover, if_neg Bool.false_ne_true]

theorem binds_stopRentals_iff (limit : ℤ) :
    (s.stopRentalsOverKeyLimits now).Binds k limit now ↔ s.EachOverItsOwn k limit now := by
  rw [Binds, familySpend_stopRentals, EachOverItsOwn]
  refine imp_congr_right fun _ ↦ ?_
  constructor
  · intro hnone d row hrow hruns
    have hover : s.overKeyLimit now row = true := by
      by_contra hnot
      obtain ⟨row', hrow', hruns'⟩ :=
        runsUnder_stopRentals.mpr ⟨row, hrow, hruns, Bool.eq_false_of_not_eq_true hnot⟩
      exact hnone d row' hrow' hruns'
    exact (overKeyLimit_iff.mp hover).2
  · intro hover d row hrow hruns
    obtain ⟨old, hold, hran, hnot⟩ := runsUnder_stopRentals.mp ⟨row, hrow, hruns⟩
    exact absurd (overKeyLimit_iff.mpr ⟨hran.1, hover d old hold hran⟩) (hnot ▸ Bool.false_ne_true)

end RentalWorld

/-! ### How the keys of a family were made -/

namespace Lineage

variable {env : GatewayEnv} {s : Lineage}

/-- The keys that are there are as they were made, and one that was minted by a key that is no admin
was made within its reach. -/
structure Tracked (s : Lineage) : Prop where
  rows : ∀ id row, s.rentals.keys.keys.apiKeys.get? id = some row → s.made.get? id = some row
  undrawn : ∀ id, s.rentals.keys.keys.drawn ≤ id → s.made.get? id = none
  edges : ∀ mint ∈ s.rentals.keys.mints, ∀ id, mint.caller = .key id →
    ∃ minter row, s.made.get? id = some minter ∧ s.made.get? mint.minted = some row ∧
      (minter.admin = false → row.WithinReach minter)

theorem tracked_empty : Tracked empty := ⟨nofun, fun _ _ ↦ rfl, nofun⟩

theorem Tracked.createApiKey (h : Tracked s) (call : PostApiKey) :
    Tracked (s.createApiKey env call) := by
  rw [Lineage.createApiKey, KeyWorld.post, KeyStore.post]
  cases hroute : createApiKeyRoute env call s.rentals.keys.keys with
  | error e => exact ⟨h.rows, h.undrawn, h.edges⟩
  | ok key =>
    obtain ⟨caller, hcaller, hpermitted⟩ := permitted_of_createApiKeyRoute hroute
    rw [hcaller]
    have hold {id : KeyId} {row : ApiKeyRow} (hrow : s.made.get? id = some row) :
        (s.made.insert s.rentals.keys.keys.drawn (mintedRow key)).get? id = some row := by
      refine (Table.get?_insert_ne _ ?_ _).trans hrow
      rintro rfl
      rw [h.undrawn _ le_rfl] at hrow
      cases hrow
    refine ⟨fun id row hrow ↦ ?_, fun id hid ↦ ?_, fun mint hmint id hid ↦ ?_⟩
    · rw [KeyStore.get?_saveApiKey] at hrow
      split at hrow
      · next hdrawn => exact hdrawn ▸ hrow ▸ Table.get?_insert_self _ _ _
      · exact hold (h.rows id row hrow)
    · exact (Table.get?_insert_ne _ (Nat.lt_of_succ_le hid).ne' _).trans
        (h.undrawn id (Nat.le_of_succ_le hid))
    · rcases List.mem_append.mp hmint with hmint | hmint
      · obtain ⟨minter, row, hminter, hrow, hreach⟩ := h.edges mint hmint id hid
        exact ⟨minter, row, hold hminter, hold hrow, hreach⟩
      · obtain rfl := List.mem_singleton.mp hmint
        obtain rfl : caller = .key id := hid
        obtain ⟨minter, hminter, hreach⟩ := hpermitted
        refine ⟨minter, mintedRow key, hold (h.rows id minter hminter),
          Table.get?_insert_self _ _ _, fun hadmin ↦ ?_⟩
        rwa [hadmin, if_neg Bool.false_ne_true] at hreach

/-- A request to delete a key takes one key away, or none. -/
theorem delete_cases (keys : KeyStore) (call : DeleteApiKey) :
    keys.delete env call = keys ∨ keys.delete env call = keys.remove call.keyId := by
  unfold KeyStore.delete
  cases hroute : keys.deleteApiKeyRoute env call with
  | error e => exact .inl rfl
  | ok keys' =>
    refine .inr ?_
    unfold KeyStore.deleteApiKeyRoute at hroute
    cases hkey : requireApiKey env keys call.throttled "DELETE".toList
        ("/platform/api-keys/".toList ++ (Nat.repr call.keyId).toList) call.authorization
        call.xApiKey with
    | error e =>
      rw [hkey] at hroute
      cases hroute
    | ok apiKey =>
      rw [hkey] at hroute
      change (if _ then _ else keys.deleteApiKey call.keyId apiKey.userId apiKey.admin) = _
        at hroute
      unfold KeyStore.deleteApiKey at hroute
      split at hroute
      · cases hroute
      · split at hroute
        · cases hroute
        · split at hroute
          · cases hroute
          · exact (Except.ok.inj hroute).symm

theorem Tracked.deleteApiKey (h : Tracked s) (call : DeleteApiKey) :
    Tracked (s.deleteApiKey env call) := by
  rw [Lineage.deleteApiKey]
  rcases @delete_cases env s.rentals.keys.keys call with hsame | hremoved
  · rw [hsame]
    exact h
  · rw [hremoved]
    refine ⟨fun id row hrow ↦ h.rows id row ?_, h.undrawn, h.edges⟩
    change (s.rentals.keys.keys.apiKeys.filter _).get? id = some row at hrow
    rw [Table.get?_filter] at hrow
    exact (Option.filter_eq_some_iff.mp hrow).1

/-- What happens to the rentals is nothing to the keys. -/
theorem Tracked.rentals (h : Tracked s) {rentals : RentalWorld}
    (hkeys : rentals.keys = s.rentals.keys) : Tracked { s with rentals := rentals } := by
  refine ⟨?_, ?_, ?_⟩
  · exact hkeys ▸ h.rows
  · exact hkeys ▸ h.undrawn
  · exact hkeys ▸ h.edges

theorem Tracked.exec (h : Tracked s) (op : LineageOp) : Tracked (op.exec env s) := by
  cases op with
  | createApiKey call => exact h.createApiKey call
  | deleteApiKey call => exact h.deleteApiKey call
  | createDeployment d w k =>
    refine h.rentals ?_
    unfold RentalWorld.createDeployment
    split <;> rfl
  | updateState | post | recordInvocation | stopRentalsOverKeyLimits => exact h.rentals rfl

theorem Tracked.replay (h : Tracked s) (ops : List LineageOp) :
    Tracked (Steps.replay (LineageOp.exec env) s ops) := by
  induction ops generalizing s with
  | nil => exact h
  | cons op ops ih => exact ih (h.exec op)

/-- Below a key that is no admin there are keys that are no admins and have limits no looser than
its own. -/
theorem Tracked.below (h : Tracked s) {k k' : KeyId} {row : ApiKeyRow}
    (hrow : s.made.get? k = some row) (hadmin : row.admin = false) (hunder : s.rentals.Under k k') :
    ∃ row', s.made.get? k' = some row' ∧ row'.admin = false ∧ row'.NoLooser row := by
  rcases hunder with rfl | hancestor
  · exact ⟨row, hrow, hadmin, Tighter.refl _, Tighter.refl _⟩
  · have hedge {id id' : KeyId} {minter : ApiKeyRow} (hmint : ⟨.key id, id'⟩ ∈ s.rentals.keys.mints)
        (hminter : s.made.get? id = some minter) (hplain : minter.admin = false) :
        ∃ row', s.made.get? id' = some row' ∧ row'.admin = false ∧ row'.NoLooser minter := by
      obtain ⟨minter', row', hminter', hrow', hreach⟩ := h.edges _ hmint id rfl
      obtain rfl := Option.some.inj (hminter'.symm.trans hminter)
      exact ⟨row', hrow', (hreach hplain).admin, (hreach hplain).limits⟩
    induction hancestor with
    | single hmint => exact hedge hmint hrow hadmin
    | tail _ hmint ih =>
      obtain ⟨parent, hparent, hplain, hlimits⟩ := ih
      obtain ⟨row', hrow', hplain', hlimits'⟩ := hedge hmint hparent hplain
      exact ⟨row', hrow', hplain', hlimits'.trans hlimits⟩

end Lineage

/-- In every run, a pass leaves no rental under a key running where together they have spent its
limit, exactly if each that runs is of a key that is still there and has spent its own limit. That a
key is still there and has by itself spent the limit of the key at the top is enough for its own
rentals. -/
theorem key_limit_binds_family (env : GatewayEnv) (ops : List LineageOp) (now : Time) (k : KeyId)
    (row : ApiKeyRow) (limit : ℤ)
    (hrow : (Steps.replay (LineageOp.exec env) .empty ops).made.get? k = some row)
    (hadmin : row.admin = false) (hlimit : row.dailySpendLimitCents = some limit) :
    let s := (Steps.replay (LineageOp.exec env) .empty ops).rentals
    ((s.stopRentalsOverKeyLimits now).Binds k limit now ↔ s.EachOverItsOwn k limit now) ∧
      ∀ k', s.Under k k' → (s.keys.keys.apiKeys.get? k').isSome = true →
        limit ≤ s.db.keySpendCents k' (now - RentalWorld.spendWindow) →
          ∀ d row, (s.stopRentalsOverKeyLimits now).db.deployments.get? d = some row →
            row.createdByKeyId = some k' → row.state ≠ .ready := by
  intro s
  refine ⟨RentalWorld.binds_stopRentals_iff limit, ?_⟩
  intro k' hunder hthere hspent d row' hrow' hkey
  have htracked : Lineage.Tracked (Steps.replay (LineageOp.exec env) .empty ops) :=
    Lineage.tracked_empty.replay ops
  obtain ⟨key, hget⟩ := Option.isSome_iff_exists.mp hthere
  obtain ⟨made, hmade, -, hlimits⟩ := htracked.below hrow hadmin hunder
  obtain rfl : made = key := Option.some.inj (hmade.symm.trans (htracked.rows k' key hget))
  obtain ⟨own, hown, hle⟩ := hlimits.2 limit hlimit
  -- Its own limit is no looser, so the pass stops what it has running.
  intro hready
  have hruns : (s.stopRentalsOverKeyLimits now).RunsUnder k row' := ⟨hready, k', hkey, hunder⟩
  obtain ⟨old, hold, hran, hnot⟩ := RentalWorld.runsUnder_stopRentals.mp ⟨row', hrow', hruns⟩
  have hsame : old.createdByKeyId = some k' := by
    rw [RentalWorld.get?_stopRentalsOverKeyLimits, hold, Option.map_some] at hrow'
    rw [← hkey, ← Option.some.inj hrow', RentalWorld.createdByKeyId_stopOverKeyLimit]
  have hover : s.overKeyLimit now old = true :=
    RentalWorld.overKeyLimit_iff.mpr ⟨hran.1, k', hsame, made, hget, own, hown, hle.trans hspent⟩
  exact absurd hover (hnot ▸ Bool.false_ne_true)

/-! ### A key that deletes itself -/

namespace Lineage

/-- What was charged for a key's own rentals was charged for its family's. -/
theorem rentalSpend_le_familySpend (s : RentalWorld) (k : KeyId) (since : Time) :
    -((s.db.ledger.filter (s.db.onRental k since)).map SpendEntry.amountCents).sum ≤
      s.familySpend k since := by
  classical
  rw [RentalWorld.familySpend, sum_filter_map, sum_filter_map, neg_le_neg_iff]
  refine List.sum_le_sum fun e _ ↦ ?_
  split
  · next hfamily =>
    split
    · exact le_rfl
    · exact (decide_eq_true_iff.mp hfamily).1.le
  · next hfamily =>
    have hown : ¬s.db.onRental k since e = true := by
      intro hown
      obtain ⟨hneg, hsince, hstarted⟩ := of_decide_eq_true hown
      refine hfamily (decide_eq_true_iff.mpr ⟨hneg, hsince, ?_⟩)
      unfold KeyLimitsDb.startedBy at hstarted
      split at hstarted
      · next d href =>
        obtain ⟨row, hrow, hkey⟩ := (Option.any_eq_true _ _).mp hstarted
        exact ⟨d, row, k, href, hrow, of_decide_eq_true hkey, .inl rfl⟩
      · exact nomatch hstarted
    rw [if_neg hown]

def keyEnv : GatewayEnv := ⟨"root".toList, "website".toList⟩

/-- A key with a limit of a dollar a day has a rental running, which has cost a dollar and a half. -/
def overspent : List LineageOp :=
  [.createApiKey
      { payload := { name := "agent".toList, userId := some 1, dailySpendLimitUsd := some 1 }
        authorization := none
        xApiKey := some "root".toList
        secret := "agent".toList },
    .createDeployment 1 "pod".toList (some 0), .updateState 1 .ready,
    .post ⟨-150, .usage, some (.deployment 1), 10⟩]

/-- The key deletes itself. -/
def selfDeletion : LineageOp :=
  .deleteApiKey ⟨0, none, some "agent".toList, false⟩

theorem made_overspent (ops : List LineageOp)
    (h : ((Steps.replay (LineageOp.exec keyEnv) .empty ops).made.get? 0).map
      (fun row ↦ (row.admin, row.dailySpendLimitCents)) = some (false, some 100)) :
    ∃ row, (Steps.replay (LineageOp.exec keyEnv) .empty ops).made.get? 0 = some row ∧
      row.admin = false ∧ row.dailySpendLimitCents = some 100 := by
  obtain ⟨row, hrow, hpair⟩ := Option.map_eq_some_iff.mp h
  obtain ⟨hadmin, hlimit⟩ := Prod.mk.inj hpair
  exact ⟨row, hrow, hadmin, hlimit⟩

/-- While the key is there, the pass stops its rental. -/
theorem key_limit_binds_family_agent :
    ((Steps.replay (LineageOp.exec keyEnv) .empty overspent).rentals.db.deployments.get? 1).map
        RentalRow.state = some .ready ∧
      ∀ d row, ((Steps.replay (LineageOp.exec keyEnv) .empty
          overspent).rentals.stopRentalsOverKeyLimits 20).db.deployments.get? d = some row →
        row.createdByKeyId = some 0 → row.state ≠ .ready := by
  obtain ⟨row, hrow, hadmin, hlimit⟩ := made_overspent overspent (by decide +kernel)
  exact ⟨by decide +kernel,
    (key_limit_binds_family keyEnv overspent 20 0 row 100 hrow hadmin hlimit).2 0 (.inl rfl)
      (by decide +kernel) (by decide +kernel)⟩

/-- Its limit is gone with the key, and the rental runs on. -/
theorem deleted_key_spends_on : ¬∀ (env : GatewayEnv) (ops : List LineageOp) (now : Time)
    (k : KeyId) (row : ApiKeyRow) (limit : ℤ),
    (Steps.replay (LineageOp.exec env) .empty ops).made.get? k = some row → row.admin = false →
      row.dailySpendLimitCents = some limit →
        ((Steps.replay (LineageOp.exec env) .empty ops).rentals.stopRentalsOverKeyLimits
          now).Binds k limit now := by
  intro h
  let ops := overspent ++ [selfDeletion]
  obtain ⟨row, hrow, hadmin, hlimit⟩ := made_overspent ops (by decide +kernel)
  have hbinds := h keyEnv ops 20 0 row 100 hrow hadmin hlimit
  have hspent : (100 : ℤ) ≤ ((Steps.replay (LineageOp.exec keyEnv) .empty
      ops).rentals.stopRentalsOverKeyLimits 20).familySpend 0 (20 - RentalWorld.spendWindow) :=
    le_trans (by decide +kernel) (rentalSpend_le_familySpend _ 0 _)
  have hstate : (((Steps.replay (LineageOp.exec keyEnv) .empty
      ops).rentals.stopRentalsOverKeyLimits 20).db.deployments.get? 1).map
        (fun row ↦ (row.state, row.createdByKeyId)) = some (.ready, some 0) := by
    decide +kernel
  obtain ⟨rental, hrental, hpair⟩ := Option.map_eq_some_iff.mp hstate
  obtain ⟨hready, hkey⟩ := Prod.mk.inj hpair
  exact hbinds hspent 1 rental hrental ⟨hready, 0, hkey, .inl rfl⟩

end Lineage

end GreenCompute
