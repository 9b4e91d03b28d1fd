import GreenCompute.ControlPlane.Registration

/-!
# The model catalog and the workloads behind it

Each model of the catalog has one workload that its replicas run, which the catalog's routes find
by its name. Customers name their workloads as they like, and a query for a name answers whichever
row it meets first. `customers_workloads_kept` is about the runs in which no customer's workload
bears the name of a model when the catalog goes by that name.
-/

namespace GreenCompute

abbrev SubmissionId := ℕ

/-! ## The tables -/

/-- A row of `workloads`, with its JSON columns as they are stored. -/
structure WorkloadRow extends WorkloadColumns where
  kind : WorkloadKind
  requirements : Metadata
  metadata : Metadata

/-- `MultiNodeConfig`, with the figures that it derives from the others. -/
structure MultiNodeConfig where
  nodeCount : ℕ
  gpusPerNode : ℕ
  effectiveTensorParallelSize : ℕ
  effectivePipelineParallelSize : ℕ
  minInterconnectGbps : ℚ
  backend : Text
  isDistributed : Bool

/-- `ModelCatalogEntry`, and a row of `model_catalog`. -/
structure ModelCatalogEntry where
  modelId : Text
  displayName : Text
  hfRepo : Text
  template : Text
  minVramGbPerGpu : ℕ
  gpuCount : ℕ
  maxModelLen : Option ℕ
  visibility : Text
  minReplicas : ℕ := 1
  maxReplicas : Option ℕ := none
  adminNotes : Text := []
  createdByHotkey : Option Hotkey := none
  multiNode : Option MultiNodeConfig := none
  imageOverride : Option Text := none
  extraEngineArgs : List Text := []
  extraEnv : List (Text × Text) := []

/-- `CatalogSubmission`, and a row of `model_catalog_submissions`. -/
structure CatalogSubmission where
  modelId : Text
  hotkey : Option Hotkey
  displayName : Text
  hfRepo : Text
  template : Text
  minVramGbPerGpu : ℕ
  gpuCount : ℕ
  maxModelLen : Option ℕ
  status : Text
  reviewerNotes : Text

/-- The tables that the catalog's routes and the customers' workloads share. -/
structure CatalogDb where
  workloads : Table WorkloadId WorkloadRow
  catalog : Table Text ModelCatalogEntry
  submissions : Table SubmissionId CatalogSubmission
  now : Time

/-- An order in which a query that asks for none may come upon the rows. -/
structure Scan where
  order : List (WorkloadId × WorkloadRow) → List (WorkloadId × WorkloadRow)
  perm : ∀ rows, (order rows).Perm rows

theorem Scan.perm_id : ∀ rows : List (WorkloadId × WorkloadRow), (id rows).Perm rows :=
  fun _ ↦ .refl _

/-! ## The transactions -/

/-- The image that an entry's template runs. -/
def defaultImage (template : Text) : Text :=
  if template = "diffusion".toList then "ghcr.io/greencompute110/diffusion:latest".toList
  else "vllm/vllm-openai:v0.19.1-cu130-ubuntu2404".toList

namespace ModelCatalogEntry

variable (entry : ModelCatalogEntry)

/-- The GPUs that one deployment of the model asks for: of a distributed one, those of a rank. -/
def perDeploymentGpus : ℕ :=
  match entry.multiNode with
  | some config => if config.isDistributed then config.gpusPerNode else entry.gpuCount
  | none => entry.gpuCount

/-- The requirements of the entry's workload. -/
def requirements : Metadata :=
  [("gpu_count".toList, .num entry.perDeploymentGpus),
    ("min_vram_gb_per_gpu".toList, .num entry.minVramGbPerGpu),
    ("cpu_cores".toList, .num 4), ("memory_gb".toList, .num 16), ("storage_gb".toList, .num 200),
    ("supported_gpu_models".toList, .arr [])]

/-- The runtime of the entry's workload. -/
def runtime : Metadata :=
  [("template".toList, .str entry.template),
    ("model_identifier".toList, .str (if entry.hfRepo = [] then entry.modelId else entry.hfRepo)),
    ("max_model_len".toList, (entry.maxModelLen.map fun n ↦ Json.num n).getD .null),
    ("image_override".toList, (entry.imageOverride.map Json.str).getD .null),
    ("extra_engine_args".toList, .arr (entry.extraEngineArgs.map .str)),
    ("extra_env".toList, .obj (entry.extraEnv.map fun item ↦ (item.1, .str item.2)))]

/-- The metadata by which the rest of the platform knows the entry's workload. -/
def workloadMetadata : Metadata :=
  [("managed_by".toList, .str "flux".toList), ("catalog_model_id".toList, .str entry.modelId)]

/-- The name under which the entry's workload is shown. -/
def shownName : Text := if entry.displayName = [] then entry.modelId else entry.displayName

/-- A new workload for the entry. -/
def newWorkload (now : Time) : WorkloadRow where
  ownerUserId := none
  name := entry.modelId
  image := defaultImage entry.template
  displayName := some entry.shownName
  readme := none
  logoUri := none
  tags := ["catalog".toList]
  workloadAlias := some entry.modelId
  ingressHost := none
  securityTier := "standard".toList
  pricingClass := "standard".toList
  runtime := entry.runtime
  lifecycle := []
  isPublic := entry.visibility = "public".toList
  createdAt := now
  kind := .inference
  requirements := entry.requirements
  metadata := entry.workloadMetadata

/-- The workload found for the entry, brought up to date with it. -/
def overwrite (row : WorkloadRow) : WorkloadRow :=
  { row with
    displayName := some entry.shownName
    image := defaultImage entry.template
    requirements := entry.requirements
    runtime := entry.runtime
    isPublic := entry.visibility = "public".toList
    metadata := entry.workloadMetadata }

end ModelCatalogEntry

namespace CatalogDb

/-- The first workload of a name that a scan comes upon. -/
def firstNamed (db : CatalogDb) (scan : Scan) (name : Text) : Option (WorkloadId × WorkloadRow) :=
  (scan.order db.workloads.rows).find? fun row ↦ row.2.name = name

/-- Some other workload bears the alias or the ingress host: both are unique where they are set. -/
def Clashes (db : CatalogDb) (w : WorkloadId) (row : WorkloadRow) : Prop :=
  ∃ other ∈ db.workloads.rows, other.1 ≠ w ∧
    (row.workloadAlias.isSome ∧ other.2.workloadAlias = row.workloadAlias ∨
      row.ingressHost.isSome ∧ other.2.ingressHost = row.ingressHost)

instance (db : CatalogDb) (w : WorkloadId) (row : WorkloadRow) : Decidable (db.Clashes w row) :=
  inferInstanceAs (Decidable (∃ other ∈ db.workloads.rows, _))

/-- `_ensure_catalog_workload`: overwrite the first workload of the model's name, or insert one;
false when the insertion breaks a constraint. -/
def ensureCatalogWorkload (entry : ModelCatalogEntry) (scan : Scan) (db : CatalogDb) :
    CatalogDb × Bool :=
  match db.firstNamed scan entry.modelId with
  | some (w, _) => ({ db with workloads := db.workloads.modify w entry.overwrite }, true)
  | none =>
    let w : WorkloadId := "catalog-".toList ++ entry.modelId
    let row := entry.newWorkload db.now
    if (db.workloads.get? w).isSome ∨ db.Clashes w row then (db, false)
    else ({ db with workloads := db.workloads.insert w row }, true)

/-- `upsert_workload`: false when the row breaks a constraint. -/
def upsertWorkload (w : WorkloadId) (row : WorkloadRow) (db : CatalogDb) : CatalogDb × Bool :=
  if db.Clashes w row then (db, false)
  else ({ db with workloads := db.workloads.insert w row }, true)

/-- `update_catalog_submission_status`, answering the submission with its columns' defaults. -/
def updateCatalogSubmissionStatus (id : SubmissionId) (status notes : Text) (db : CatalogDb) :
    CatalogDb × Option CatalogSubmission :=
  match db.submissions.get? id with
  | none => (db, none)
  | some row =>
    let row := { row with status := status, reviewerNotes := notes }
    ({ db with submissions := db.submissions.insert id row },
      some { row with
        template := if row.template = [] then "vllm".toList else row.template
        minVramGbPerGpu := if row.minVramGbPerGpu = 0 then 24 else row.minVramGbPerGpu
        gpuCount := if row.gpuCount = 0 then 1 else row.gpuCount })

end CatalogDb

/-- The transactions of the catalog's routes, and those that create a workload. -/
inductive CatalogOp where
  | updateCatalogSubmissionStatus (id : SubmissionId) (status notes : Text)
  | upsertCatalogEntry (entry : ModelCatalogEntry)
  | deleteCatalogEntry (modelId : Text)
  | ensureCatalogWorkload (entry : ModelCatalogEntry) (scan : Scan)
  | deleteWorkloadsNamed (modelId : Text)
  | getCatalogWorkload (modelId : Text) (scan : Scan)
  | findWorkloadByIngressHost (host : Text)
  | upsertWorkload (w : WorkloadId) (row : WorkloadRow)

/-- What each answers. -/
abbrev CatalogOp.Ans : CatalogOp → Type
  | updateCatalogSubmissionStatus .. => Option CatalogSubmission
  | upsertCatalogEntry _ | deleteWorkloadsNamed _ => Unit
  | deleteCatalogEntry _ | ensureCatalogWorkload .. | upsertWorkload .. => Bool
  | getCatalogWorkload .. => Option (WorkloadId × WorkloadRow)
  | findWorkloadByIngressHost _ => Option WorkloadId

/-- The interface of the catalog's tables. -/
abbrev CatalogInterface : Interface := ⟨CatalogOp, CatalogOp.Ans⟩

/-- One transaction, with its answer. -/
def CatalogOp.exec : (o : CatalogOp) → CatalogDb → CatalogDb × o.Ans
  | updateCatalogSubmissionStatus id status notes, db =>
    db.updateCatalogSubmissionStatus id status notes
  | upsertCatalogEntry entry, db =>
    ({ db with catalog := db.catalog.insert entry.modelId entry }, ())
  | deleteCatalogEntry modelId, db =>
    ({ db with catalog := db.catalog.filter fun m _ ↦ m ≠ modelId },
      (db.catalog.get? modelId).isSome)
  | ensureCatalogWorkload entry scan, db => db.ensureCatalogWorkload entry scan
  | deleteWorkloadsNamed modelId, db =>
    ({ db with workloads := db.workloads.filter fun _ row ↦ row.name ≠ modelId }, ())
  | getCatalogWorkload modelId scan, db => (db, db.firstNamed scan modelId)
  | findWorkloadByIngressHost host, db =>
    (db, (db.workloads.rows.find? fun row ↦ row.2.ingressHost = some host).map Prod.fst)
  | upsertWorkload w row, db => db.upsertWorkload w row

/-! ## The routes -/

/-- What creating a workload checks of its metadata and its address before it is stored; the hosts
are the ones tried for a model that asks for none. -/
structure WorkloadChecks where
  normalizePodStart : Metadata → Except Text Metadata
  validateIngressHost : Text → Except Text Text
  ingressHosts : WorkloadId → WorkloadRow → List Text

namespace CatalogRoutes

/-- One transaction as a program. -/
def transact (o : CatalogOp) : Program CatalogInterface o.Ans :=
  Program.op (I := CatalogInterface) o

/-- The digits of a number. -/
def digits (n : ℕ) : Text := (toString n).toList

/-- A character of a model's identifier that may also be its first or last. -/
def isSlugEnd (c : Char) : Bool := ('a' ≤ c && c ≤ 'z') || ('0' ≤ c && c ≤ '9')

/-- `_MODEL_ID_RE` matches: 2 to 128 characters, with dots and dashes on the inside only. -/
def isModelId (t : Text) : Bool :=
  2 ≤ t.length && t.length ≤ 128 && t.head?.any isSlugEnd && t.getLast?.any isSlugEnd &&
    t.all fun c ↦ isSlugEnd c || c = '.' || c = '-'

/-- `_validate_model_id` -/
def validateModelId (modelId : Text) : Except HttpError Text :=
  let normalized := Text.lower (Text.strip modelId)
  if isModelId normalized then .ok normalized
  else .error ⟨400,
    "model_id must be lowercase alphanumeric with dashes/dots (2–128 chars)".toList⟩

/-- `validate_topology`: why the topology cannot be served. -/
def validateTopology (config : MultiNodeConfig) : List Text :=
  let tp := config.effectiveTensorParallelSize
  let pp := config.effectivePipelineParallelSize
  (if tp > config.gpusPerNode then
    ["tensor_parallel_size ".toList ++ digits tp ++ " exceeds gpus_per_node ".toList ++
      digits config.gpusPerNode ++ " — tensor parallelism cannot span nodes".toList] else []) ++
  (if config.gpusPerNode % tp ≠ 0 then
    ["gpus_per_node ".toList ++ digits config.gpusPerNode ++
      " is not divisible by tensor_parallel_size ".toList ++ digits tp] else []) ++
  (if pp ≠ config.nodeCount then
    ["pipeline_parallel_size ".toList ++ digits pp ++ " must equal node_count ".toList ++
      digits config.nodeCount ++ " (one pipeline stage per node)".toList] else []) ++
  (if config.isDistributed ∧ config.minInterconnectGbps ≤ 0 then
    [("min_interconnect_gbps is 0 for a distributed model — set a floor, " ++
      "cross-node serving over a commodity link will not perform").toList] else []) ++
  (if config.backend ≠ "ray".toList ∧ config.backend ≠ "vllm-native".toList then
    ["unknown backend '".toList ++ config.backend ++ "'".toList] else [])

/-- Why an entry's topology is refused, where it is a distributed one. -/
def topologyProblems (entry : ModelCatalogEntry) : List Text :=
  match entry.multiNode with
  | some config => if config.isDistributed then validateTopology config else []
  | none => []

/-- `upsert_catalog_entry`: the route. -/
def upsertCatalogEntry (payload : ModelCatalogEntry) (scan : Scan) :
    Program CatalogInterface (Except HttpError ModelCatalogEntry) :=
  match validateModelId payload.modelId with
  | .error e => pure (.error e)
  | .ok modelId =>
    let entry := { payload with modelId := modelId }
    if topologyProblems entry ≠ [] then
      pure (.error ⟨400, "invalid multi-node topology: ".toList ++
        "; ".toList.intercalate (topologyProblems entry)⟩)
    else do
      transact (.upsertCatalogEntry entry)
      if ← transact (.ensureCatalogWorkload entry scan) then pure (.ok entry)
      else pure (.error ⟨500, "Internal Server Error".toList⟩)

/-- The entry that an approved submission becomes. -/
def approvedEntry (sub : CatalogSubmission) : ModelCatalogEntry where
  modelId := sub.modelId
  displayName := if sub.displayName = [] then sub.modelId else sub.displayName
  hfRepo := sub.hfRepo
  template := sub.template
  minVramGbPerGpu := sub.minVramGbPerGpu
  gpuCount := sub.gpuCount
  maxModelLen := sub.maxModelLen
  visibility := "public".toList
  createdByHotkey := sub.hotkey

/-- `approve_catalog_submission`: the route. -/
def approveCatalogSubmission (id : SubmissionId) (reviewerNotes : Text) (scan : Scan) :
    Program CatalogInterface (Except HttpError Text) := do
  match ← transact (.updateCatalogSubmissionStatus id "approved".toList reviewerNotes) with
  | none => pure (.error ⟨404, "submission not found".toList⟩)
  | some sub => do
    transact (.upsertCatalogEntry (approvedEntry sub))
    if ← transact (.ensureCatalogWorkload (approvedEntry sub) scan) then pure (.ok sub.modelId)
    else pure (.error ⟨500, "Internal Server Error".toList⟩)

/-- `delete_catalog_entry`: the route. -/
def deleteCatalogEntry (modelId : Text) : Program CatalogInterface (Except HttpError Text) := do
  if ← transact (.deleteCatalogEntry modelId) then do
    transact (.deleteWorkloadsNamed modelId)
    pure (.ok modelId)
  else pure (.error ⟨404, "catalog entry not found".toList⟩)

/-- `get_catalog_workload_id` -/
def getCatalogWorkloadId (modelId : Text) (scan : Scan) :
    Program CatalogInterface (Option WorkloadId) := do
  let row ← transact (.getCatalogWorkload modelId scan)
  pure (row.map Prod.fst)

/-- `_claim_ingress_host` -/
def claimIngressHost (checks : WorkloadChecks) (host : Text) (w : WorkloadId) :
    Program CatalogInterface (Except Text Text) :=
  match checks.validateIngressHost host with
  | .error e => pure (.error e)
  | .ok normalized => do
    let holder ← transact (.findWorkloadByIngressHost normalized)
    if holder.any (· ≠ w) then
      pure (.error ("ingress_host ".toList ++ normalized ++ " is already taken".toList))
    else pure (.ok normalized)

/-- `_assign_ingress_host`: the first of some hosts that nobody else has. -/
def assignIngressHost (w : WorkloadId) : List Text → Program CatalogInterface (Except Text Text)
  | [] => pure (.error "could not assign a model address".toList)
  | host :: hosts => do
    let holder ← transact (.findWorkloadByIngressHost host)
    if holder.all (· = w) then pure (.ok host) else assignIngressHost w hosts

/-- The address of a new workload, if it has one. -/
def ingressHost (checks : WorkloadChecks) (w : WorkloadId) (row : WorkloadRow) :
    Program CatalogInterface (Except Text (Option Text)) :=
  match row.ingressHost with
  | some host => do
    let claimed ← claimIngressHost checks host w
    pure (claimed.map some)
  | none =>
    if row.kind = .inference then do
      let assigned ← assignIngressHost w (checks.ingressHosts w row)
      pure (assigned.map some)
    else pure (.ok none)

/-- `create_workload`, under the identifier that is drawn for it. -/
def createWorkload (checks : WorkloadChecks) (w : WorkloadId) (request : WorkloadRow)
    (ownerUserId : Option UserId) : Program CatalogInterface (Except Text WorkloadRow) :=
  match if request.kind = .pod then checks.normalizePodStart request.metadata
    else .ok request.metadata with
  | .error e => pure (.error e)
  | .ok metadata => do
    let row := { request with ownerUserId := ownerUserId, metadata := metadata }
    match ← ingressHost checks w row with
    | .error e => pure (.error e)
    | .ok host => do
      let row := { row with ingressHost := host }
      if ← transact (.upsertWorkload w row) then pure (.ok row)
      else pure (.error "Internal Server Error".toList)

end CatalogRoutes

/-- The calls: the catalog's routes, its lookup for a placement, and a customer's new workload. -/
inductive CatalogCall where
  | upsertCatalogEntry (payload : ModelCatalogEntry) (scan : Scan)
  | approveCatalogSubmission (id : SubmissionId) (reviewerNotes : Text) (scan : Scan)
  | deleteCatalogEntry (modelId : Text)
  | getCatalogWorkloadId (modelId : Text) (scan : Scan)
  | createWorkload (w : WorkloadId) (request : WorkloadRow) (ownerUserId : Option UserId)

/-- The catalog, with any number of calls. -/
def catalogService (checks : WorkloadChecks) : Service CatalogInterface CatalogCall CatalogDb where
  exec := CatalogOp.exec
  body
    | .upsertCatalogEntry payload scan => do
      let _ ← CatalogRoutes.upsertCatalogEntry payload scan
      pure ()
    | .approveCatalogSubmission id reviewerNotes scan => do
      let _ ← CatalogRoutes.approveCatalogSubmission id reviewerNotes scan
      pure ()
    | .deleteCatalogEntry modelId => do
      let _ ← CatalogRoutes.deleteCatalogEntry modelId
      pure ()
    | .getCatalogWorkloadId modelId scan => do
      let _ ← CatalogRoutes.getCatalogWorkloadId modelId scan
      pure ()
    | .createWorkload w request ownerUserId => do
      let _ ← CatalogRoutes.createWorkload checks w request ownerUserId
      pure ()

/-! ## Customers' workloads -/

/-- No customer's workload bears the name. -/
def CatalogDb.NoCustomerNamed (db : CatalogDb) (name : Text) : Prop :=
  ∀ row ∈ db.workloads.rows, row.2.name = name → row.2.ownerUserId = none

instance (db : CatalogDb) (name : Text) : Decidable (db.NoCustomerNamed name) :=
  inferInstanceAs (Decidable (∀ row ∈ db.workloads.rows, _))

/-- A new workload is stored under an identifier that is not in use. -/
def freshWorkloads : Guard CatalogInterface CatalogCall CatalogDb
  | _, _, .upsertWorkload w _, db => db.workloads.get? w = none
  | _, _, _, _ => True

/-- Beside that, whenever the catalog goes by a model's name, no customer's workload bears it. -/
def namesApart : Guard CatalogInterface CatalogCall CatalogDb
  | _, _, .upsertWorkload w _, db => db.workloads.get? w = none
  | _, _, .ensureCatalogWorkload entry _, db => db.NoCustomerNamed entry.modelId
  | _, _, .deleteWorkloadsNamed modelId, db => db.NoCustomerNamed modelId
  | _, _, .getCatalogWorkload modelId _, db => db.NoCustomerNamed modelId
  | _, _, _, _ => True

instance (c : CatalogCall) (past : List (Event CatalogInterface)) (o : CatalogOp)
    (db : CatalogDb) : Decidable (freshWorkloads c past o db) := by
  cases o with
  | upsertWorkload w row =>
    exact decidable_of_iff ((db.workloads.get? w).isNone = true) Option.isNone_iff_eq_none
  | _ => exact inferInstanceAs (Decidable True)

instance (c : CatalogCall) (past : List (Event CatalogInterface)) (o : CatalogOp)
    (db : CatalogDb) : Decidable (namesApart c past o db) := by
  cases o with
  | upsertWorkload w row =>
    exact decidable_of_iff ((db.workloads.get? w).isNone = true) Option.isNone_iff_eq_none
  | ensureCatalogWorkload entry scan =>
    exact inferInstanceAs (Decidable (db.NoCustomerNamed entry.modelId))
  | deleteWorkloadsNamed modelId =>
    exact inferInstanceAs (Decidable (db.NoCustomerNamed modelId))
  | getCatalogWorkload modelId scan =>
    exact inferInstanceAs (Decidable (db.NoCustomerNamed modelId))
  | _ => exact inferInstanceAs (Decidable True)

section

variable {db : CatalogDb} {w : WorkloadId} {row : WorkloadRow} {name : Text} {scan : Scan}

theorem CatalogDb.mem_of_firstNamed (h : db.firstNamed scan name = some (w, row)) :
    (w, row) ∈ db.workloads.rows ∧ row.name = name := by
  have hmem : (w, row) ∈ scan.order db.workloads.rows := List.mem_of_find?_eq_some h
  have hname := List.find?_some h
  exact ⟨(scan.perm _).mem_iff.mp hmem, of_decide_eq_true hname⟩

/-- A name that no customer's workload bears leads to no customer's workload. -/
theorem CatalogDb.NoCustomerNamed.ownerless (h : db.NoCustomerNamed name)
    (hfound : db.firstNamed scan name = some (w, row)) : row.ownerUserId = none := by
  obtain ⟨hmem, hname⟩ := CatalogDb.mem_of_firstNamed hfound
  exact h _ hmem hname

/-- A customer's workload bears another name then. -/
theorem CatalogDb.NoCustomerNamed.name_ne (h : db.NoCustomerNamed name)
    (hrow : db.workloads.get? w = some row) (howned : row.ownerUserId ≠ none) :
    row.name ≠ name := by
  intro hname
  exact howned (h _ (Table.mem_rows_iff.mpr hrow) hname)

theorem ensureCatalogWorkload_keeps {entry : ModelCatalogEntry}
    (hapart : db.NoCustomerNamed entry.modelId) (hrow : db.workloads.get? w = some row)
    (howned : row.ownerUserId ≠ none) :
    (db.ensureCatalogWorkload entry scan).1.workloads.get? w = some row := by
  unfold CatalogDb.ensureCatalogWorkload
  split
  · next w' row' hfound =>
    -- The workload that is overwritten has no owner, so it is another one.
    have hne : w ≠ w' := by
      rintro rfl
      have hrow' := Table.mem_rows_iff.mp (CatalogDb.mem_of_firstNamed hfound).1
      obtain rfl : row = row' := Option.some.inj (hrow.symm.trans hrow')
      exact howned (hapart.ownerless hfound)
    exact (Table.get?_modify_ne _ hne _).trans hrow
  · dsimp only
    split
    · exact hrow
    · next hnew =>
      have hne : w ≠ "catalog-".toList ++ entry.modelId := by
        rintro rfl
        exact hnew (.inl (by rw [hrow]; rfl))
      exact (Table.get?_insert_ne _ hne _).trans hrow

/-- No transaction touches a customer's workload, in a run that keeps the names apart. -/
theorem CatalogOp.exec_keeps {c : CatalogCall} {past : List (Event CatalogInterface)}
    (o : CatalogOp) (hguard : namesApart c past o db) (hrow : db.workloads.get? w = some row)
    (howned : row.ownerUserId ≠ none) : (o.exec db).1.workloads.get? w = some row := by
  cases o with
  | updateCatalogSubmissionStatus id status notes =>
    rw [CatalogOp.exec, CatalogDb.updateCatalogSubmissionStatus]
    cases db.submissions.get? id with
    | none => exact hrow
    | some sub => exact hrow
  | ensureCatalogWorkload entry scan => exact ensureCatalogWorkload_keeps hguard hrow howned
  | deleteWorkloadsNamed modelId =>
    have hname : row.name ≠ modelId := hguard.name_ne hrow howned
    exact (Table.get?_filter _ _ _).trans (by rw [hrow, Option.filter_some, if_pos (by simpa)])
  | upsertWorkload w' row' =>
    have hne : w ≠ w' := by
      rintro rfl
      exact nomatch hrow.symm.trans hguard
    rw [CatalogOp.exec, CatalogDb.upsertWorkload]
    split
    · exact hrow
    · exact (Table.get?_insert_ne _ hne _).trans hrow
  | upsertCatalogEntry _ | deleteCatalogEntry _ | getCatalogWorkload _ _
  | findWorkloadByIngressHost _ => exact hrow

end

/-- What the lookup for a placement has answered, if the entry is one. -/
def lookedUp (entry : Entry CatalogInterface CatalogCall) : Option (WorkloadId × WorkloadRow) :=
  match entry.event with
  | ⟨.getCatalogWorkload _ _, found⟩ => found
  | _ => none

variable {checks : WorkloadChecks} {start finish : World CatalogInterface CatalogCall CatalogDb}
  {log : List (Entry CatalogInterface CatalogCall)}

/-- In a run in which, whenever the catalog goes by a model's name, no customer's workload bears
it, every customer's workload keeps its row, and the catalog finds none of them. -/
theorem customers_workloads_kept
    (run : (catalogService checks).Logs namesApart start log finish) :
    (∀ w row, start.store.workloads.get? w = some row → row.ownerUserId ≠ none →
      finish.store.workloads.get? w = some row) ∧
    ∀ entry ∈ log, ∀ found ∈ lookedUp entry, found.2.ownerUserId = none := by
  refine run.keeps (P := fun log db ↦
    (∀ w row, start.store.workloads.get? w = some row → row.ownerUserId ≠ none →
      db.workloads.get? w = some row) ∧
    ∀ entry ∈ log, ∀ found ∈ lookedUp entry, found.2.ownerUserId = none) ?_ ?_
  · refine ⟨fun w row hrow _ ↦ hrow, fun entry hentry ↦ ?_⟩
    exact absurd hentry List.not_mem_nil
  · rintro log c past o db ⟨hkept, hfound⟩ - hguard
    refine ⟨fun w row hrow howned ↦ ?_, fun entry hentry found hlooked ↦ ?_⟩
    · exact o.exec_keeps hguard (hkept w row hrow howned) howned
    · rcases List.mem_append.mp hentry with hold | hnew
      · exact hfound entry hold found hlooked
      · obtain rfl := List.mem_singleton.mp hnew
        cases o with
        | getCatalogWorkload modelId scan =>
          exact CatalogDb.NoCustomerNamed.ownerless hguard hlooked
        | _ => exact nomatch hlooked

/-- Checks that let everything pass. -/
private def noChecks : WorkloadChecks where
  normalizePodStart := .ok
  validateIngressHost := .ok
  ingressHosts w _ := [w]

/-- What a customer asks for. -/
private def modelNamed (name : Text) : WorkloadRow where
  ownerUserId := none
  name := name
  image := "customer/model".toList
  displayName := none
  readme := none
  logoUri := none
  tags := []
  workloadAlias := none
  ingressHost := none
  securityTier := "standard".toList
  pricingClass := "standard".toList
  runtime := []
  lifecycle := []
  isPublic := false
  createdAt := 0
  kind := .inference
  requirements := []
  metadata := []

/-- Customer 1 has a model of that name. -/
private def besideCatalog (name : Text) : CatalogDb where
  workloads := .ofRows [("w1".toList, { modelNamed name with ownerUserId := some 1 })]
    (List.nodup_singleton _)
  catalog := .empty
  submissions := .empty
  now := 0

private def llama : ModelCatalogEntry where
  modelId := "llama".toList
  displayName := []
  hfRepo := []
  template := "vllm".toList
  minVramGbPerGpu := 24
  gpuCount := 1
  maxModelLen := none
  visibility := "public".toList

/-- Rows as they come. -/
private def inOrder : Scan := ⟨id, Scan.perm_id⟩

/-- The catalog takes a model in, looks it up and drops it, beside a customer's model of another
name. -/
theorem customers_workloads_kept_apart :
    ∃ log finish, (catalogService noChecks).Logs namesApart ⟨besideCatalog "mine".toList, []⟩ log
        finish ∧ log.length = 5 ∧
      (∀ w row, (besideCatalog "mine".toList).workloads.get? w = some row →
        row.ownerUserId ≠ none → finish.store.workloads.get? w = some row) ∧
      ∀ entry ∈ log, ∀ found ∈ lookedUp entry, found.2.ownerUserId = none := by
  obtain ⟨log, finish, run, hlength⟩ := Service.exists_logs_of_record
    (S := catalogService noChecks) (G := namesApart) (w := ⟨besideCatalog "mine".toList, []⟩)
    [.start (.upsertCatalogEntry llama inOrder), .step 0, .step 0,
      .start (.getCatalogWorkloadId "llama".toList inOrder), .step 1,
      .start (.deleteCatalogEntry "llama".toList), .step 2, .step 2]
    (P := fun log _ ↦ log.length = 5) (by decide +kernel)
  exact ⟨log, finish, run, hlength, customers_workloads_kept run⟩

/-- The workload that an entry of a log has stored. -/
def storedWorkload (entry : Entry CatalogInterface CatalogCall) : Option
    (WorkloadId × WorkloadRow) :=
  match entry.event with
  | ⟨.upsertWorkload w row, true⟩ => some (w, row)
  | _ => none

/-- A customer deploys a model and calls it by the name of one that the catalog then takes in: the
catalog overwrites the customer's workload, finds it for its own placements, and deletes it. -/
theorem customers_workload_taken :
    ∃ log finish, (catalogService noChecks).Logs freshWorkloads
        ⟨⟨.empty, .empty, .empty, 0⟩, []⟩ log finish ∧
      ∃ created ∈ log[1]?.bind storedWorkload, created.2.ownerUserId = some 1 ∧
        (∃ found ∈ log[4]?.bind lookedUp, found.1 = created.1 ∧
          found.2.ownerUserId = some 1 ∧ found.2.image ≠ created.2.image ∧
          found.2.isPublic ≠ created.2.isPublic) ∧
        (finish.store.workloads.get? created.1).isNone :=
  Service.exists_logs_of_record
    [.start (.createWorkload "w1".toList (modelNamed "llama".toList) (some 1)), .step 0, .step 0,
      .start (.upsertCatalogEntry llama inOrder), .step 1, .step 1,
      .start (.getCatalogWorkloadId "llama".toList inOrder), .step 2,
      .start (.deleteCatalogEntry "llama".toList), .step 3, .step 3] (by decide +kernel)

end GreenCompute
