import GreenCompute.Gateway.Routing
import GreenCompute.Validator.Catalog

/-!
# The workload routes

The routes by which customers create, list, get, update and delete their workloads, with what is
checked of a pod's start and of the address of a model. A workload's metadata holds what its owner
gave it, tokens and passwords among it; the routes that create, list and get workloads strip these
before they answer.
-/

namespace GreenCompute

/-! ## Redaction -/

/-- The parts of a key's name by which it is known for a secret. -/
def secretMarkers : List Text :=
  ["token".toList, "secret".toList, "password".toList, "apikey".toList, "privatekey".toList]

/-- `_is_secret_meta_key` -/
def isSecretMetaKey (key : Text) : Bool :=
  secretMarkers.any fun s ↦ s <:+: (Text.lower key).filter (· ≠ '_')

/-- What stands in for a secret. -/
def redacted : Json := .str "***redacted***".toList

/-- The names of an object's values, with nothing behind them. -/
def namesOnly : Json → Json
  | .obj items => .obj (items.map fun item ↦ (item.1, redacted))
  | value => value

/-- The metadata that `_redact_workload` leaves. -/
def redactMetadata (metadata : Metadata) : Metadata :=
  (metadata.map fun item ↦ if isSecretMetaKey item.1 then (item.1, redacted) else item).map
    fun item ↦ if item.1 = "env".toList then (item.1, namesOnly item.2) else item

/-- `_redact_workload` -/
def redactWorkload (row : WorkloadRow) : WorkloadRow :=
  { row with metadata := redactMetadata row.metadata }

/-! ## The start of a pod -/

/-- What the checks go by: the zone of the models' addresses, and texts that the language makes. -/
structure WorkloadEnv where
  ingressDomain : Text
  sha1Hex : Text → Text
  numText : ℚ → Text
  repr : Text → Text

/-- A character that a shell takes for itself. -/
def isShellSafe (c : Char) : Bool :=
  c.isAlphanum || c = '_' || c ∈ "@%+=:,./-".toList

/-- `shlex.quote` -/
def shlexQuote (s : Text) : Text :=
  if s = [] then "''".toList
  else if s.all isShellSafe then s
  else "'".toList ++ (s.flatMap fun c ↦ if [c] = "'".toList then "'\"'\"'".toList else [c]) ++
    "'".toList

/-- The text in a JSON value that is one. -/
def Json.text? : Json → Option Text
  | .str s => some s
  | _ => none

/-- A command given as a list of arguments, as one line. -/
def joinCommand : Json → Json
  | .arr items =>
    if items.isEmpty = false ∧ items.all (fun a ↦ a.text?.isSome) then
      .str (" ".toList.intercalate ((items.filterMap Json.text?).map shlexQuote))
    else .arr items
  | command => command

/-- A text is longer than a command may be, or ends where it should not. -/
def isUnfit (t : Text) : Bool := 8192 < t.length || Char.ofNat 0 ∈ t

/-- The checks of `metadata.command`. -/
def podCommand (command : Json) : Except Text Json :=
  match joinCommand command with
  | .str line =>
    if Text.strip line = [] then
      .error "metadata.command must be a non-empty string, or a list of strings".toList
    else if isUnfit line then
      .error "metadata.command must be at most 8192 characters".toList
    else .ok (.str line)
  | _ => .error "metadata.command must be a non-empty string, or a list of strings".toList

/-- `RESTART_POLICIES` -/
def restartPolicies : List Text := ["never".toList, "on-failure".toList, "always".toList]

/-- The checks of `metadata.restart_policy`, beside the command. -/
def podRestartPolicy (command : Option Json) (policy : Json) : Except Text Json :=
  let normalized := policy.text?.map fun p ↦
    (Text.lower (Text.strip p)).map fun c ↦ if c = '_' then '-' else c
  match normalized.filter (· ∈ restartPolicies) with
  | none =>
    .error "metadata.restart_policy must be one of: never, on-failure, always".toList
  | some p =>
    if p ≠ "never".toList ∧ command.any Json.truthy = false then
      .error ("metadata.restart_policy restarts metadata.command, so set that too " ++
        "(an image's own start command already restarts with its container)").toList
    else .ok (.str p)

/-- `_ENV_NAME` matches; the end of its pattern may stand before a last line feed. -/
def isEnvName (name : Text) : Bool :=
  match if name.getLast? = some '\n' then name.dropLast else name with
  | [] => false
  | c :: rest =>
    (c.isAlpha || c = '_') && rest.length ≤ 127 && rest.all fun c ↦ c.isAlphanum || c = '_'

/-- `_RESERVED_ENV` -/
def reservedEnv : List Text :=
  ["AUTHORIZED_KEYS".toList, "GC_START_COMMAND_B64".toList, "NVIDIA_VISIBLE_DEVICES".toList,
    "NVIDIA_DRIVER_CAPABILITIES".toList, "GC_DEPLOYMENT_ID".toList, "GC_DEPLOYMENT_NAME".toList,
    "GC_NEW_HOST_KEYS".toList, "GC_RESTART_POLICY".toList]

/-- The checks of one variable of `metadata.env`. -/
def podVariable (env : WorkloadEnv) (item : Text × Json) : Except Text (Text × Json) :=
  let name := item.1
  let fit (value : Text) : Except Text (Text × Json) :=
    if isUnfit value then
      .error ("metadata.env.".toList ++ name ++ " must be at most 8192 characters".toList)
    else .ok (name, .str value)
  if isEnvName name = false then
    .error ("metadata.env: ".toList ++ env.repr name ++ " is not a valid variable name".toList)
  else if name.map Char.toUpper ∈ reservedEnv then
    .error ("metadata.env: ".toList ++ name ++
      " is set by the platform and can't be changed".toList)
  else
    match item.2 with
    | .str value => fit value
    | .num value => fit (env.numText value)
    | _ => .error ("metadata.env.".toList ++ name ++ " must be a string".toList)

/-- The checks of `metadata.env`. -/
def podEnv (env : WorkloadEnv) : Json → Except Text Json
  | .obj items =>
    if 64 < items.length then .error "metadata.env can set at most 64 variables".toList
    else (items.mapM (podVariable env)).map .obj
  | _ => .error
      "metadata.env must be an object such as \x7b\"HF_HOME\": \"/workspace/hf\"\x7d".toList

/-- A key of the metadata with its value checked, where it has one. -/
def checkKey (key : Text) (check : Json → Except Text Json) (metadata : Metadata) :
    Except Text Metadata :=
  match metadata.lookup key with
  | none | some .null => .ok metadata
  | some value => (check value).map fun value' ↦
      metadata.map fun item ↦ if item.1 = key then (key, value') else item

/-- `normalize_pod_start` -/
def normalizePodStart (env : WorkloadEnv) (metadata : Metadata) : Except Text Metadata := do
  let metadata ← checkKey "command".toList podCommand metadata
  let command := metadata.lookup "command".toList
  let metadata ← checkKey "restart_policy".toList (podRestartPolicy command) metadata
  checkKey "env".toList (podEnv env) metadata

/-! ## Addresses -/

/-- The words of a name, without the organisation before it. -/
def labelWordsOf (source : Text) : List Text :=
  ((Text.lower (source.rtakeWhile (· ≠ '/'))).splitOnP fun c ↦ !CatalogRoutes.isSlugEnd c).filter
    (· ≠ [])

/-- The words of the first name that has any. -/
def labelWords (modelIdentifier : Option Text) (name : Text) : List Text :=
  let sources := [modelIdentifier.getD [], name].filter fun source ↦
    source ≠ [] ∧ source ≠ "sshleifer/tiny-gpt2".toList ∧ ¬"://".toList <:+: source
  ((sources.map labelWordsOf).find? (· ≠ [])).getD []

/-- Drop the last words that only add length, of the words backwards. -/
def dropSuffixes : List Text → List Text
  | last :: next :: words =>
    if last ∈ ["chat".toList, "it".toList, "hf".toList] then dropSuffixes (next :: words)
    else last :: next :: words
  | words => words

/-- Drop the words that only add length. -/
def shortenWords (words : List Text) : List Text :=
  let words := if 1 < words.length ∧ words.head? = some "meta".toList then words.tail else words
  let kept := words.filter (· ≠ "instruct".toList)
  (dropSuffixes (if kept = [] then words else kept).reverse).reverse

/-- As many words as fit. -/
def slugOf (slug : Text) : List Text → Text
  | [] => slug
  | word :: words =>
    let longer := if slug = [] then word else slug ++ '-' :: word
    if 24 < longer.length then slug else slugOf longer words

/-- `default_ingress_label` -/
def defaultIngressLabel (env : WorkloadEnv) (name : Text) (w : WorkloadId) (length : ℕ)
    (modelIdentifier : Option Text) : Text :=
  let words := shortenWords (labelWords modelIdentifier name)
  let fitting := slugOf [] words
  let slug := if fitting = [] then (words.head?.map (·.take 24)).getD "model".toList else fitting
  let hexed := w.filter (· ≠ '-')
  let short :=
    if hexed ≠ [] ∧ hexed.all (fun c ↦ c.isDigit || ('a' ≤ c && c ≤ 'f')) then hexed.take length
    else (env.sha1Hex w).take length
  slug ++ '-' :: short

/-- `_INGRESS_LABEL` matches; the end of its pattern may stand before a last line feed. -/
def isIngressLabel (label : Text) : Bool :=
  let label := if label.getLast? = some '\n' then label.dropLast else label
  3 ≤ label.length && label.length ≤ 40 && label.head?.any CatalogRoutes.isSlugEnd &&
    label.getLast?.any CatalogRoutes.isSlugEnd &&
    label.all fun c ↦ CatalogRoutes.isSlugEnd c || c = '-'

/-- `validate_ingress_host` -/
def validateIngressHost (env : WorkloadEnv) (host : Text) : Except Text Text :=
  let zone := modelIngressZone env.ingressDomain
  let normalized := (Text.lower (Text.strip host)).rdropWhile (· = '.')
  let label := normalized.takeWhile (· ≠ '.')
  let rest := normalized.dropWhile (· ≠ '.')
  if rest = '.' :: zone ∧ isIngressLabel label then .ok normalized
  else .error ("ingress_host must be <name>.".toList ++ zone ++
    ", where <name> is 3-40 lowercase letters, digits or hyphens".toList)

/-- What creating a workload checks. -/
def WorkloadEnv.checks (env : WorkloadEnv) : WorkloadChecks where
  normalizePodStart := normalizePodStart env
  validateIngressHost := validateIngressHost env
  ingressHosts w row := [6, 9].map fun length ↦
    defaultIngressLabel env row.name w length
      ((row.runtime.lookup "model_identifier".toList).bind Json.text?) ++
      '.' :: modelIngressZone env.ingressDomain

/-! ## The routes -/

/-- The tables of the workloads, with the users each is shared with. -/
structure WorkloadDb where
  tables : CatalogDb
  shares : List (WorkloadId × UserId)

/-- The holder of an API key. -/
structure KeyHolder where
  userId : Option UserId
  admin : Bool

/-- `WorkloadUpdateRequest` -/
structure WorkloadUpdateRequest where
  displayName : Option Text := none
  readme : Option Text := none
  logoUri : Option Text := none
  tags : Option (List Text) := none
  clearWorkloadAlias : Bool := false
  workloadAlias : Option Text := none
  ingressHost : Option Text := none
  pricingClass : Option Text := none
  isPublic : Option Bool := none
  lifecycle : Option Metadata := none

/-- The row after an update, at the address given. -/
def WorkloadUpdateRequest.applied (request : WorkloadUpdateRequest) (host : Option Text)
    (row : WorkloadRow) : WorkloadRow :=
  { row with
    displayName := request.displayName.or row.displayName
    readme := request.readme.or row.readme
    logoUri := request.logoUri.or row.logoUri
    tags := request.tags.getD row.tags
    workloadAlias :=
      if request.clearWorkloadAlias then none else request.workloadAlias.or row.workloadAlias
    ingressHost := host.or row.ingressHost
    pricingClass := request.pricingClass.getD row.pricingClass
    isPublic := request.isPublic.getD row.isPublic
    lifecycle := request.lifecycle.getD row.lifecycle }

/-- The calls of the routes; a new workload is stored under the identifier drawn for it. -/
inductive WorkloadCall where
  | createWorkload (w : WorkloadId) (request : WorkloadRow)
  | listWorkloads (mine : Bool)
  | getWorkload (w : WorkloadId)
  | updateWorkload (w : WorkloadId) (request : WorkloadUpdateRequest)
  | deleteWorkload (w : WorkloadId)

/-- What they answer with: one workload, or several. -/
inductive WorkloadAnswer where
  | one (w : WorkloadId) (row : WorkloadRow)
  | many (rows : List (WorkloadId × WorkloadRow))

/-- What an IntegrityError becomes. -/
def internalError : HttpError := ⟨500, "Internal Server Error".toList⟩

namespace WorkloadDb

variable (env : WorkloadEnv) (caller : KeyHolder) (db : WorkloadDb)

/-- The workload under an identifier. -/
def row? (w : WorkloadId) : Option WorkloadRow := db.tables.workloads.get? w

/-- `_user_can_access_workload` -/
def userCanAccessWorkload (w : WorkloadId) (row : WorkloadRow) : Bool :=
  row.isPublic || RoutingDb.ownedBy row.ownerUserId caller.userId ||
    caller.userId.any fun user ↦ (w, user) ∈ db.shares

/-- Is the workload in the list? -/
def isListed (mine : Bool) (r : WorkloadId × WorkloadRow) : Bool :=
  if mine then RoutingDb.ownedBy r.2.ownerUserId caller.userId
  else caller.admin || r.2.isPublic || r.2.ownerUserId = caller.userId ||
    caller.userId.any fun user ↦ (r.1, user) ∈ db.shares

/-- A method on the tables, with nothing in between. -/
def ran {α : Type} (method : Program CatalogInterface α) : CatalogDb × α :=
  method.eval ⟨CatalogOp.exec, fun _ _ ↦ true⟩ db.tables

/-- `_create_workload`, of a request that is well formed. -/
def createWorkload (w : WorkloadId) (request : WorkloadRow) :
    WorkloadDb × Except HttpError WorkloadAnswer :=
  if caller.userId = none then (db, .error ⟨403, "api key must be bound to a user".toList⟩)
  else
    let created := db.ran (CatalogRoutes.createWorkload env.checks w request caller.userId)
    ({ db with tables := created.1 },
      match created.2 with
      | .ok row => .ok (.one w (redactWorkload row))
      | .error e => .error (if e = internalError.detail then internalError else ⟨400, e⟩))

/-- `list_workloads` -/
def listWorkloads (mine : Bool) : WorkloadDb × Except HttpError WorkloadAnswer :=
  (db, .ok (.many ((db.tables.workloads.rows.filter (db.isListed caller mine)).map fun r ↦
    (r.1, redactWorkload r.2))))

/-- `get_workload` -/
def getWorkload (w : WorkloadId) : WorkloadDb × Except HttpError WorkloadAnswer :=
  match (db.row? w).filter fun row ↦ caller.admin || db.userCanAccessWorkload caller w row with
  | none => (db, .error ⟨404, "workload not found".toList⟩)
  | some row => (db, .ok (.one w (redactWorkload row)))

/-- `_claim_ingress_host`, where a host is asked for. -/
def claimIngressHost (w : WorkloadId) (host : Option Text) : Except Text (Option Text) :=
  match host with
  | none => .ok none
  | some host => ((db.ran (CatalogRoutes.claimIngressHost env.checks host w)).2).map some

/-- `update_workload` -/
def updateWorkload (w : WorkloadId) (request : WorkloadUpdateRequest) :
    WorkloadDb × Except HttpError WorkloadAnswer :=
  match db.row? w with
  | none => (db, .error ⟨404, env.repr ("workload not found: ".toList ++ w)⟩)
  | some row =>
    if caller.admin = false ∧ RoutingDb.ownedBy row.ownerUserId caller.userId = false then
      (db, .error ⟨403, "workload update denied: ".toList ++ w⟩)
    else
      match db.claimIngressHost env w request.ingressHost with
      | .error e => (db, .error ⟨400, e⟩)
      | .ok host =>
        let row := request.applied host row
        let stored := db.tables.upsertWorkload w row
        ({ db with tables := stored.1 },
          if stored.2 then .ok (.one w row) else .error internalError)

/-- `delete_workload` -/
def deleteWorkload (w : WorkloadId) : WorkloadDb × Except HttpError WorkloadAnswer :=
  match db.row? w with
  | none => (db, .error ⟨404, env.repr ("workload not found: ".toList ++ w)⟩)
  | some row =>
    if caller.admin = false ∧ RoutingDb.ownedBy row.ownerUserId caller.userId = false then
      (db, .error ⟨403, "workload delete denied: ".toList ++ w⟩)
    else
      ({ db with tables := { db.tables with
          workloads := db.tables.workloads.filter fun w' _ ↦ w' ≠ w } }, .ok (.one w row))

/-- One call: the database after it, and the response. -/
def route : WorkloadCall → WorkloadDb × Except HttpError WorkloadAnswer
  | .createWorkload w request => db.createWorkload env caller w request
  | .listWorkloads mine => db.listWorkloads caller mine
  | .getWorkload w => db.getWorkload caller w
  | .updateWorkload w request => db.updateWorkload env caller w request
  | .deleteWorkload w => db.deleteWorkload env caller w

end WorkloadDb

end GreenCompute
