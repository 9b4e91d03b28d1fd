import GreenCompute.ControlPlane.Registration
import GreenCompute.Foundations.Rounding
import GreenCompute.Foundations.Table
import GreenCompute.Foundations.Text
import Mathlib.Data.List.Dedup
import Mathlib.Data.List.Sort

/-!
# API keys

Who presents a credential, what an API key may do, and how a new one is minted. The privileges of
a new key come from the caller: the environment's master key, the website's provision secret, and
an admin key of the database set them as they ask; any other key can only hand on what it has.

Names, secrets and error texts are kept; the throttle of failed attempts is given by its answers,
and metrics are left out.
-/

namespace GreenCompute

abbrev KeyId := ℕ

/-! ## Scopes -/

/-- `SCOPES` -/
def scopeNames : List Text :=
  ["read".toList, "rentals".toList, "inference".toList, "billing".toList, "keys".toList]

/-- A list of names as Python writes it. -/
def listRepr (names : List Text) : Text :=
  "[".toList ++ (", ".toList).intercalate (names.map fun n ↦ '\'' :: n ++ ['\'']) ++ "]".toList

/-- Names in order. -/
def sortNames (names : List Text) : List Text :=
  names.insertionSort fun (a b : Text) ↦ a ≤ b

/-- `normalize_scopes`: the names, or those that are unknown. -/
def normalizeScopes (scopes : List Text) : Except (List Text) (List Text) :=
  let out := sortNames (scopes.map fun s ↦ s.strip.lower).dedup
  let unknown := out.filter fun s ↦ s ∉ scopeNames
  if unknown ≠ [] then .error unknown else .ok out

/-- `_SSH` -/
def isSsh (path : Text) : Bool :=
  let start := "/platform/deployments/".toList
  let rest := path.drop start.length
  let ending := rest.dropWhile (· ≠ '/')
  start.isPrefixOf path ∧ rest.takeWhile (· ≠ '/') ≠ [] ∧
    ending ∈ ["/ssh".toList, "/ssh/".toList, "/ssh\n".toList, "/ssh/\n".toList]

/-- `_RENTAL_PREFIXES` -/
def rentalPrefixes : List Text :=
  ["/platform/workloads".toList, "/platform/deployments".toList, "/platform/fleets".toList,
    "/platform/builds".toList, "/platform/images".toList, "/platform/capacity-alerts".toList]

/-- `required_scope`: the scope that a request needs, or none where only a key of full access may
make it. -/
def requiredScope (method path : Text) : Option Text :=
  let read := method.map Char.toUpper = "GET".toList
  if path.rdropWhile (· = '/') = "/mcp".toList then some "*".toList
  else if "/v1/".toList.isPrefixOf path then some "inference".toList
  else if "/platform/api-keys".toList.isPrefixOf path then some "keys".toList
  else if isSsh path then some "rentals".toList
  else if "/platform/billing".toList.isPrefixOf path then
    some (if read then "read".toList else "billing".toList)
  else if rentalPrefixes.any fun start ↦ start.isPrefixOf path then
    some (if read then "read".toList else "rentals".toList)
  else if read then some "read".toList
  else none

/-! ## Keys -/

/-- A row of `api_keys`. -/
structure ApiKeyRow where
  userId : Option UserId
  name : Text
  admin : Bool
  scopes : List Text
  secret : Text
  maxActiveRentals : Option ℤ
  dailySpendLimitCents : Option ℤ

/-- `APIKeyRecord`; the environment's principals have no id of their own. -/
structure ApiKeyRecord where
  keyId : Option KeyId
  userId : Option UserId
  name : Text
  admin : Bool
  scopes : List Text
  secret : Text
  maxActiveRentals : Option ℤ
  dailySpendLimitUsd : Option ℚ

/-- The table of keys, and the ids and the secrets that are drawn next. -/
structure KeyStore where
  apiKeys : Table KeyId ApiKeyRow
  drawn : ℕ
  fresh : ∀ id, drawn ≤ id → apiKeys.get? id = none

theorem fresh_empty : ∀ id, 0 ≤ id → (Table.empty : Table KeyId ApiKeyRow).get? id = none :=
  fun _ _ ↦ rfl

/-- `APIKeyCreateRequest` -/
structure ApiKeyCreateRequest where
  name : Text
  userId : Option UserId := none
  admin : Bool := false
  scopes : List Text := []
  maxActiveRentals : Option ℤ := none
  dailySpendLimitUsd : Option ℚ := none

/-- The environment: the two secrets, stripped, and empty where they are not set. -/
structure GatewayEnv where
  adminApiKey : Text
  provisionSecret : Text

namespace KeyStore

/-- `_to_api_key` -/
def toRecord (id : KeyId) (row : ApiKeyRow) : ApiKeyRecord where
  keyId := some id
  userId := row.userId
  name := row.name
  admin := row.admin
  scopes := row.scopes
  secret := row.secret
  maxActiveRentals := row.maxActiveRentals
  dailySpendLimitUsd := row.dailySpendLimitCents.map fun cents ↦ (cents : ℚ) / 100

/-- The row of a secret, which no two keys share. -/
def findBySecret (s : KeyStore) (secret : Text) : Option (KeyId × ApiKeyRow) :=
  s.apiKeys.rows.find? fun r ↦ r.2.secret = secret

/-- `get_api_key_by_secret` -/
def getApiKeyBySecret (s : KeyStore) (secret : Text) : Option ApiKeyRecord :=
  (s.findBySecret secret).map fun r ↦ toRecord r.1 r.2

/-- `save_api_key`, of a new key: the limit is kept in whole cents. -/
def saveApiKey (s : KeyStore) (key : ApiKeyRecord) : KeyStore where
  apiKeys := s.apiKeys.insert s.drawn
    { userId := key.userId
      name := key.name
      admin := key.admin
      scopes := key.scopes
      secret := key.secret
      maxActiveRentals := key.maxActiveRentals
      dailySpendLimitCents := key.dailySpendLimitUsd.map fun usd ↦ roundHalfEven (usd * 100) }
  drawn := s.drawn + 1
  fresh id hid := by
    rw [Table.get?_insert_ne _ (Nat.lt_of_succ_le hid).ne']
    exact s.fresh id (Nat.le_of_succ_le hid)

end KeyStore

/-! ## Who calls -/

/-- `extract_api_key_secret` -/
def extractApiKeySecret (authorization xApiKey : Option Text) : Option Text :=
  match xApiKey, authorization with
  | some (c :: secret), _ => some (c :: secret)
  | _, some authorization =>
    if "bearer ".toList.isPrefixOf authorization.lower then some (Text.strip (authorization.drop 7))
    else none
  | _, none => none

/-- `_AUTH_HELP` -/
def authHelp : Text :=
  (". Send `Authorization: Bearer <key>`. Create a key at " ++
    "https://www.green-compute.com/settings ; docs: https://www.green-compute.com/docs").toList

/-- `_master_admin_record` -/
def masterAdminRecord (secret : Text) : ApiKeyRecord where
  keyId := none
  userId := none
  name := "env master admin".toList
  admin := true
  scopes := []
  secret := secret
  maxActiveRentals := none
  dailySpendLimitUsd := none

/-- A failed attempt is refused, or throttled where it is one too many. -/
def refuse {α : Type} (throttled : Bool) (status : ℕ) (detail : Text) : Except HttpError α :=
  if throttled then .error ⟨429, "too many auth failures".toList⟩ else .error ⟨status, detail⟩

/-- `_check_scopes` -/
def checkScopes (key : ApiKeyRecord) (method path : Text) : Except HttpError Unit :=
  let refused : Except HttpError Unit :=
    .error ⟨403, "this API key's scopes don't allow this request".toList⟩
  if key.admin ∨ key.scopes = [] then .ok ()
  else
    match requiredScope method path with
    | none => refused
    | some needed => if needed = "*".toList ∨ needed ∈ key.scopes then .ok () else refused

/-- `require_api_key`, where no admin key is asked for. -/
def requireApiKey (env : GatewayEnv) (s : KeyStore) (throttled : Bool) (method path : Text)
    (authorization xApiKey : Option Text) : Except HttpError ApiKeyRecord :=
  match (extractApiKeySecret authorization xApiKey).filter fun secret ↦ secret ≠ [] with
  | none => refuse throttled 401 ("missing api key".toList ++ authHelp)
  | some secret =>
    if env.adminApiKey ≠ [] ∧ secret = env.adminApiKey then .ok (masterAdminRecord secret)
    else
      match s.getApiKeyBySecret secret with
      | none => refuse throttled 401 ("invalid api key".toList ++ authHelp)
      | some key => (checkScopes key method path).map fun _ ↦ key

/-- `require_provision_or_admin`: the caller, and whether it counts as the master admin. -/
def requireProvisionOrAdmin (env : GatewayEnv) (s : KeyStore) (throttled : Bool)
    (authorization xApiKey : Option Text) : Except HttpError (ApiKeyRecord × Bool) :=
  match (extractApiKeySecret authorization xApiKey).filter fun secret ↦ secret ≠ [] with
  | none => refuse throttled 401 ("missing api key".toList ++ authHelp)
  | some secret =>
    if env.provisionSecret ≠ [] ∧ secret = env.provisionSecret then
      .ok (masterAdminRecord secret, false)
    else if env.adminApiKey ≠ [] ∧ secret = env.adminApiKey then
      .ok (masterAdminRecord secret, true)
    else
      match s.getApiKeyBySecret secret with
      | none => refuse throttled 401 ("invalid api key".toList ++ authHelp)
      | some key =>
        if key.admin then .ok (key, true)
        else refuse throttled 403 "admin api key required".toList

/-! ## Minting -/

/-- Why a key is not minted. -/
inductive MintError
  | unknownScopes (unknown : List Text)
  | scopesTooBroad (callerScopes : List Text)
  | moreRentals
  | higherSpendLimit

/-- The limit of a self-service key: its own, or else the caller's, and no looser than that. -/
def inheritLimit {α : Type} [LT α] [DecidableLT α] (error : MintError) (asked limit : Option α) :
    Except MintError (Option α) :=
  match asked, limit with
  | some a, some l => if l < a then .error error else .ok (some a)
  | none, some l => .ok (some l)
  | asked, none => .ok asked

/-- A scoped caller mints nothing broader than itself, and never a key of full access. -/
def checkNarrower (callerScopes scopes : List Text) : Except MintError Unit :=
  if callerScopes ≠ [] ∧ (scopes = [] ∨ ¬scopes ⊆ callerScopes) then
    .error (.scopesTooBroad callerScopes)
  else .ok ()

/-- `create_api_key`; the secret is drawn by the caller. -/
def createApiKey (s : KeyStore) (secret : Text) (request : ApiKeyCreateRequest)
    (callerUserId : Option UserId) (callerAdmin allowUserIdOverride : Option Bool)
    (allowAdminGrant : Bool) (callerScopes : List Text) (callerLimits : Option ApiKeyRecord) :
    Except MintError ApiKeyRecord := do
  let asked : ApiKeyRecord :=
    { keyId := some s.drawn
      userId := request.userId
      name := request.name
      admin := request.admin
      scopes := request.scopes
      secret := secret
      maxActiveRentals := request.maxActiveRentals
      dailySpendLimitUsd := request.dailySpendLimitUsd }
  match allowUserIdOverride <|> callerAdmin with
  | none => return asked
  | some true => return { asked with admin := request.admin && allowAdminGrant }
  | some false =>
    let scopes ← (normalizeScopes request.scopes).mapError .unknownScopes
    checkNarrower callerScopes scopes
    let maxActive ← inheritLimit .moreRentals request.maxActiveRentals
      (callerLimits.bind ApiKeyRecord.maxActiveRentals)
    let dailyLimit ← inheritLimit .higherSpendLimit request.dailySpendLimitUsd
      (callerLimits.bind ApiKeyRecord.dailySpendLimitUsd)
    return { asked with
      userId := callerUserId
      admin := false
      scopes := scopes
      maxActiveRentals := maxActive
      dailySpendLimitUsd := dailyLimit }

/-- A request to `POST /platform/api-keys`, with the answers of the throttle and the secret that is
drawn for the key. -/
structure PostApiKey where
  payload : ApiKeyCreateRequest
  authorization : Option Text
  xApiKey : Option Text
  throttled : Bool := false
  throttledAgain : Bool := false
  secret : Text

/-- The status of a key that is not minted. -/
def MintError.status : MintError → ℕ
  | .unknownScopes _ => 400
  | _ => 403

/-- What a key that is not minted is answered with. -/
def MintError.toHttp (e : MintError) : HttpError where
  status := e.status
  detail := match e with
    | .unknownScopes unknown =>
      "unknown scope(s) ".toList ++ listRepr unknown ++ "; choose from ".toList ++
        listRepr (sortNames scopeNames)
    | .scopesTooBroad callerScopes =>
      "a key with scopes ".toList ++ listRepr (sortNames callerScopes) ++
        " can only create keys with some of those scopes".toList
    | .moreRentals => "a new key can't allow more running rentals than the key creating it".toList
    | .higherSpendLimit =>
      "a new key can't have a higher spend limit than the key creating it".toList

/-- The route `POST /platform/api-keys`: whom it takes the caller for, and the key it mints. -/
def createApiKeyRoute (env : GatewayEnv) (call : PostApiKey) (s : KeyStore) :
    Except HttpError ApiKeyRecord :=
  match requireProvisionOrAdmin env s call.throttled call.authorization call.xApiKey with
  | .ok (caller, isMasterAdmin) =>
    (createApiKey s call.secret call.payload caller.userId none (some true) isMasterAdmin []
      none).mapError MintError.toHttp
  | .error e =>
    if e.status ≠ 401 ∧ e.status ≠ 403 then .error e
    else do
      let key ← requireApiKey env s call.throttledAgain "POST".toList "/platform/api-keys".toList
        call.authorization call.xApiKey
      (createApiKey s call.secret call.payload key.userId none (some false) false key.scopes
        (some key)).mapError MintError.toHttp

/-- The store after a request. -/
def KeyStore.post (env : GatewayEnv) (call : PostApiKey) (s : KeyStore) : KeyStore :=
  match createApiKeyRoute env call s with
  | .ok key => s.saveApiKey key
  | .error _ => s

end GreenCompute
