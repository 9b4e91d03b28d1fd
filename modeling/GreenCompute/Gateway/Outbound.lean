import GreenCompute.Foundations.Program
import GreenCompute.Foundations.Words

/-!
# Connections that customers make us open

A webhook is posted to the URL that a customer gave, and a provider's server is set up over SSH at
the host that the provider gave. Both resolve a name first and refuse it unless every address that
it resolves to passes a test. A webhook is then sent to one of the addresses that were tested. The
SSH library is given the name, and resolves it itself.

What the network answers is up to it: a name may resolve differently at each query, and a connection
may fail at any point. Each request is a program over the network, so it holds for all answers. The
classification of addresses and the parser of URLs are the language's, and come as `Addressing`.
-/

namespace GreenCompute

/-! ## Addresses -/

structure IpAddress where
  version : ℕ
  value : ℕ
  deriving DecidableEq

structure IpNetwork where
  version : ℕ
  base : ℕ
  hostBits : ℕ

/-- `ip in net`, for addresses of one version. -/
def IpNetwork.contains (net : IpNetwork) (ip : IpAddress) : Bool :=
  ip.version = net.version ∧ ip.value / 2 ^ net.hostBits = net.base / 2 ^ net.hostBits

/-- `ipv4_mapped` -/
def IpAddress.ipv4Mapped (ip : IpAddress) : Option IpAddress :=
  if ip.version = 6 ∧ ip.value / 2 ^ 32 = 0xffff then some ⟨4, ip.value % 2 ^ 32⟩ else none

/-- What `urlsplit` makes of a URL; no port is an invalid one. -/
structure UrlParts where
  scheme : Text
  username : Option Text
  password : Option Text
  hostname : Option Text
  port : Option (Option ℕ)
  path : Text
  query : Text

/-- What the language's library says of addresses, networks and URLs. -/
structure Addressing where
  ipAddress : Text → Option IpAddress
  ipNetwork : Text → Option IpNetwork
  isGlobal : IpAddress → Bool
  isPrivate : IpAddress → Bool
  isLoopback : IpAddress → Bool
  isLinkLocal : IpAddress → Bool
  isMulticast : IpAddress → Bool
  isReserved : IpAddress → Bool
  isUnspecified : IpAddress → Bool
  text : IpAddress → Text
  urlsplit : Text → Option UrlParts
  repr : Text → Text

/-- A comma-separated list of networks; entries that cannot be read are passed over. -/
def Addressing.networks (lib : Addressing) (raw : Text) : List IpNetwork :=
  ((Text.words (fun c ↦ c = ',') raw).map Text.strip).filterMap fun part ↦
    if part = [] then none else lib.ipNetwork part

/-! ## The network -/

/-- What becomes of a connection. -/
inductive Exchange where
  /-- It failed before the request was sent; whether time is left. -/
  | unreached (timeLeft : Bool)
  /-- It failed later. -/
  | broken
  | replied (reply : Text)

/-- What the gateway asks the network: the addresses of a name, whether time is left, and an
exchange over a connection that it opens. -/
inductive NetworkOp where
  | getaddrinfo (host : Text) (port : ℕ)
  | left
  | connect (address : Text) (port : ℕ) (request : Text)

/-- No addresses are the failure to resolve a name. -/
abbrev NetworkOp.Ans : NetworkOp → Type
  | getaddrinfo .. => Option (List Text)
  | left => Bool
  | connect .. => Exchange

abbrev Network : Interface := ⟨NetworkOp, NetworkOp.Ans⟩

namespace Outbound

/-- One question to the network. -/
def call (o : NetworkOp) : Program Network o.Ans := Program.op (I := Network) o

/-! ## Webhooks -/

/-- Why a URL is not posted to: the message of the error that is caught, or another error. -/
inductive UrlRefusal where
  | webhookUrlError (message : Text)
  | raised

/-- `MAX_URL_CHARS` -/
def maxUrlChars : ℕ := 2048

/-- `check_url` -/
def checkUrl (lib : Addressing) (url : Text) : Except UrlRefusal (Text × ℕ × Text) :=
  let refused (message : String) : Except UrlRefusal (Text × ℕ × Text) :=
    .error (.webhookUrlError message.toList)
  let url := Text.strip url
  if url = [] then refused "url is required, e.g. https://example.com/green-compute"
  else if maxUrlChars < url.length then refused "url must be at most 2048 characters"
  else if url.any fun c ↦ c.toNat ≤ 0x20 ∨ c.toNat = 0x7f then
    refused "url must not contain spaces or control characters"
  else
    match lib.urlsplit url with
    | none => .error .raised
    | some parts =>
      if Text.lower parts.scheme ≠ "https".toList then refused "url must start with https://"
      else if parts.username.isSome ∨ parts.password.isSome then
        refused "url must not contain a user name or password"
      else
        match parts.hostname with
        | none | some [] => refused "url has no host"
        | some host =>
          match parts.port with
          | none => refused "url has an invalid port"
          | some port =>
            let path := if parts.path = [] then "/".toList else parts.path
            .ok (host, if port.getD 0 = 0 then 443 else port.getD 0,
              if parts.query = [] then path else path ++ '?' :: parts.query)

/-- `_DEFAULT_DENY` -/
def defaultDeny : Text := "217.138.104.0/24,45.143.122.0/24".toList

/-- `_denied_networks`, with what the environment adds. -/
def deniedNetworks (lib : Addressing) (denyCidrs : Text) : List IpNetwork :=
  lib.networks (defaultDeny ++ ',' :: denyCidrs)

/-- The address that is reached: a mapped address stands for the one that it maps. -/
def unmapped (ip : IpAddress) : IpAddress := ip.ipv4Mapped.getD ip

/-- `_is_public`; no answer where the address cannot be read. -/
def isPublic (lib : Addressing) (denyCidrs : Text) (address : Text) : Option Bool :=
  (lib.ipAddress (address.takeWhile fun c ↦ c ≠ '%')).map fun ip ↦
    let ip := unmapped ip
    lib.isGlobal ip && !lib.isMulticast ip &&
      !(deniedNetworks lib denyCidrs).any fun net ↦ net.contains ip

/-- `resolve_public`, given what the name resolves to. -/
def resolvePublic (lib : Addressing) (denyCidrs host : Text) (infos : Option (List Text)) :
    Except UrlRefusal (List Text) :=
  let refused := UrlRefusal.webhookUrlError
    (host ++ " doesn't resolve to a public address; use a public HTTPS endpoint".toList)
  match infos with
  | none => .error refused
  | some infos =>
    -- The first of each address, in order.
    let addresses := infos.reverse.dedup.reverse
    if addresses = [] then .error refused
    else
      -- `all` stops at the first address that is not public.
      match addresses.find? fun a ↦ isPublic lib denyCidrs a ≠ some true with
      | none => .ok addresses
      | some a => if isPublic lib denyCidrs a = none then .error .raised else .error refused

/-- `_host_header` -/
def hostHeader (host : Text) (port : ℕ) : Text :=
  let name := if ':' ∈ host then '[' :: host ++ [']'] else host
  if port = 443 then name else name ++ ':' :: (Nat.repr port).toList

/-- The request that is sent. -/
def requestText (host : Text) (port : ℕ) (path body : Text) (headers : List (Text × Text)) : Text :=
  let lines : List Text :=
    ["POST ".toList ++ path ++ " HTTP/1.1".toList, "Host: ".toList ++ hostHeader host port,
      "User-Agent: GreenCompute-Webhooks/1".toList, "Content-Type: application/json".toList,
      "Content-Length: ".toList ++ (Nat.repr body.length).toList, "Connection: close".toList] ++
      headers.map fun h ↦ h.1 ++ ": ".toList ++ h.2
  List.intercalate "\r\n".toList lines ++ "\r\n\r\n".toList ++ body

/-- The loop over the addresses: the next one only if this one could not be reached. -/
def tryEach (port : ℕ) (request : Text) : List Text → Program Network (Option Text)
  | [] => .done none
  | address :: rest => do
    let timeLeft ← call .left
    if timeLeft = false then .done none
    else
      let exchange ← call (.connect address port request)
      match exchange with
      | .unreached true => tryEach port request rest
      | .unreached false | .broken => .done none
      | .replied reply => .done (some reply)

/-- `UNREACHABLE` -/
def unreachable : Text :=
  "could not reach the endpoint over HTTPS (connection, TLS certificate or timeout)".toList

/-- The number that a status line has in second place. -/
def statusOf (statusLine : Text) : Option ℕ :=
  match Text.words Text.isBlank statusLine with
  | protocol :: code :: _ =>
    if "HTTP/".toList <+: protocol ∧ code.all Char.isDigit then
      some (code.foldl (fun n c ↦ 10 * n + (c.toNat - 48)) 0)
    else none
  | _ => none

/-- The text before the first line end. -/
def statusLine : Text → Text
  | '\r' :: '\n' :: _ => []
  | c :: t => c :: statusLine t
  | [] => []

/-- What `post` returns for a reply, or for the lack of one. -/
def readReply (lib : Addressing) : Option Text → Option ℕ × Option Text
  | none => (none, some unreachable)
  | some reply =>
    match statusOf (statusLine reply) with
    | none => (none, some ("not an HTTP reply: ".toList ++ lib.repr ((statusLine reply).take 80)))
    | some status =>
      if 200 ≤ status ∧ status < 300 then (some status, none)
      else (some status, some ("HTTP ".toList ++ (Nat.repr status).toList))

/-- `post`; no answer where an error is not caught. -/
def post (lib : Addressing) (denyCidrs url body : Text) (headers : List (Text × Text)) :
    Program Network (Option (Option ℕ × Option Text)) :=
  match checkUrl lib url with
  | .error (.webhookUrlError message) => .done (some (none, some message))
  | .error .raised => .done none
  | .ok (host, port, path) => do
    let infos ← call (.getaddrinfo host port)
    match resolvePublic lib denyCidrs host infos with
    | .error (.webhookUrlError message) => .done (some (none, some message))
    | .error .raised => .done none
    | .ok addresses =>
      let reply ← tryEach port (requestText host port path body headers) addresses
      .done (some (readReply lib reply))

/-! ## Providers' servers -/

/-- Why an onboarding is refused: a 400 or a 403. -/
inductive OnboardingError where
  | valueError (message : Text)
  | permissionError (message : Text)

/-- A host that may be resolved, without the blanks at its ends. -/
def checkHost (host : Text) : Except OnboardingError Text :=
  let host := Text.strip host
  if host = [] then .error (.valueError "ssh_host is required".toList)
  else if host.any fun c ↦ c = ' ' ∨ c.toNat < 32 then
    .error (.valueError "ssh_host contains invalid characters".toList)
  else .ok host

/-- The six flags that the guard refuses. -/
def disallowed (lib : Addressing) (ip : IpAddress) : Bool :=
  lib.isPrivate ip || lib.isLoopback ip || lib.isLinkLocal ip || lib.isMulticast ip ||
    lib.isReserved ip || lib.isUnspecified ip

/-- The addresses that a host resolves to, each of which has to be one. -/
def readAddresses (lib : Addressing) : List Text → Except OnboardingError (List IpAddress)
  | [] => .ok []
  | text :: texts =>
    match lib.ipAddress text with
    | none => .error (.valueError ("ssh_host resolved to an invalid address: ".toList ++ text))
    | some ip => (readAddresses lib texts).map (ip :: ·)

/-- `resolve_and_guard_host`, given what the host resolves to. -/
def guardAddresses (lib : Addressing) (allowlist host : Text) (infos : Option (List Text)) :
    Except OnboardingError Text :=
  match infos with
  | none => .error (.valueError ("could not resolve ssh_host: ".toList ++ host))
  | some infos =>
    match readAddresses lib infos with
    | .error e => .error e
    | .ok addrs =>
      if addrs = [] then
        .error (.valueError ("ssh_host did not resolve to any address: ".toList ++ host))
      else
        let nets := lib.networks allowlist
        match addrs.find? fun ip ↦
            disallowed lib ip || (nets ≠ [] ∧ !nets.any (·.contains ip)) with
        | none => .ok host
        | some ip =>
          if disallowed lib ip then
            .error (.valueError ("ssh_host ".toList ++ host ++
              " resolves to a disallowed address (".toList ++ lib.text ip ++ ") — ".toList ++
              "private/loopback/link-local/multicast/reserved hosts are not ".toList ++
              "allowed for onboarding".toList))
          else
            .error (.valueError ("ssh_host ".toList ++ host ++ " (".toList ++ lib.text ip ++
              ") is not in the onboarding allowlist".toList))

/-- `resolve_and_guard_host` -/
def resolveAndGuardHost (lib : Addressing) (allowlist host : Text) (port : ℕ) :
    Program Network (Except OnboardingError Text) :=
  match checkHost host with
  | .error e => .done (.error e)
  | .ok host => do
    let infos ← call (.getaddrinfo host port)
    .done (guardAddresses lib allowlist host infos)

/-- `ProviderServerCreateRequest` -/
structure ProviderServerCreateRequest where
  hotkey : Text
  payoutAddress : Text
  label : Text
  sshHost : Text
  sshPort : ℕ
  sshUser : Text
  sshPassword : Text
  sshPrivateKey : Text
  hfToken : Text

structure ProvisionInputs where
  hotkey : Text
  payoutAddress : Text
  label : Text
  sshHost : Text
  sshPort : ℕ
  sshUser : Text
  sshPassword : Text
  sshPrivateKey : Text
  hfToken : Text

/-- `_no_ctrl` -/
def noCtrl (value : Text) (field : String) : Except OnboardingError Unit :=
  if value.any fun c ↦ c.toNat < 32 ∧ c ≠ '\t' then
    .error (.valueError (field.toList ++ " contains invalid control characters".toList))
  else .ok ()

/-- The checks of `create_provider_server` before it resolves the host; the hotkey is `whitelisted`
when it is looked up. -/
def checkRequest (request : ProviderServerCreateRequest) (admin whitelisted : Bool) :
    Except OnboardingError Unit := do
  let hotkey := Text.strip request.hotkey
  if hotkey = [] then throw (.valueError "hotkey is required".toList)
  noCtrl request.hotkey "hotkey"
  noCtrl request.payoutAddress "payout_address"
  noCtrl request.label "label"
  noCtrl request.hfToken "hf_token"
  noCtrl request.sshUser "ssh_user"
  if admin = false ∧ whitelisted = false then
    throw (.permissionError ("hotkey ".toList ++ hotkey.take 10 ++
      "… is not whitelisted — submit a provider ".toList ++
      "application and get approved before onboarding servers".toList))
  if Text.strip request.sshPassword = [] ∧ Text.strip request.sshPrivateKey = [] then
    throw (.valueError "provide an SSH password or private key".toList)

/-- The inputs of the provisioning that a request leads to. -/
def ProviderServerCreateRequest.inputs (request : ProviderServerCreateRequest) :
    ProvisionInputs where
  hotkey := Text.strip request.hotkey
  payoutAddress := Text.strip request.payoutAddress
  label := Text.strip request.label
  sshHost := Text.strip request.sshHost
  sshPort := request.sshPort
  sshUser := if Text.strip request.sshUser = [] then "root".toList else Text.strip request.sshUser
  sshPassword := request.sshPassword
  sshPrivateKey := request.sshPrivateKey
  hfToken := request.hfToken

/-- `create_provider_server` -/
def createProviderServer (lib : Addressing) (allowlist : Text)
    (request : ProviderServerCreateRequest) (admin whitelisted : Bool) :
    Program Network (Except OnboardingError ProvisionInputs) :=
  match checkRequest request admin whitelisted with
  | .error e => .done (.error e)
  | .ok () => do
    let guarded ← resolveAndGuardHost lib allowlist (Text.strip request.sshHost) request.sshPort
    match guarded with
    | .error e => .done (.error e)
    | .ok _ => .done (.ok request.inputs)

/-- The SSH library connects to a host: it resolves the name, and tries one address after the other
until one can be reached. -/
def sshConnect (host : Text) (port : ℕ) : Program Network (Option Text) := do
  let infos ← call (.getaddrinfo host port)
  connectEach port (infos.getD [])
where
  /-- The loop over the addresses. -/
  connectEach (port : ℕ) : List Text → Program Network (Option Text)
    | [] => .done none
    | address :: rest => do
      let exchange ← call (.connect address port [])
      match exchange with
      | .unreached true => connectEach port rest
      | .unreached false | .broken => .done none
      | .replied banner => .done (some banner)

/-- Whether there is a credential to connect with: a private key that can be read, or else a
password. -/
def hasCredential (readsKey : Text → Bool) (inputs : ProvisionInputs) : Bool :=
  if Text.strip inputs.sshPrivateKey ≠ [] then readsKey inputs.sshPrivateKey
  else inputs.sshPassword ≠ []

/-- `_SSH.__init__`: whether the connection is made. The commands that follow go over it. -/
def openSsh (lib : Addressing) (allowlist : Text) (readsKey : Text → Bool)
    (inputs : ProvisionInputs) : Program Network (Option Text) := do
  let guarded ← resolveAndGuardHost lib allowlist inputs.sshHost inputs.sshPort
  match guarded with
  | .error _ => .done none
  | .ok _ =>
    if hasCredential readsKey inputs then sshConnect inputs.sshHost inputs.sshPort
    else .done none

end Outbound

/-! ## Requests -/

/-- A webhook that is delivered, or a provider's server that is created and then provisioned. -/
inductive OutboundCall where
  | deliverWebhook (url body : Text) (headers : List (Text × Text))
  | onboard (request : Outbound.ProviderServerCreateRequest) (admin whitelisted : Bool)

/-- The gateway's surroundings: the language's library, the two environment variables, and the keys
that can be read. -/
structure OutboundSettings where
  lib : Addressing
  denyCidrs : Text
  allowlist : Text
  readsKey : Text → Bool

open Outbound in
/-- What a request asks of the network. -/
def OutboundCall.body (config : OutboundSettings) : OutboundCall → Program Network Unit
  | deliverWebhook url body headers => do
    let _ ← post config.lib config.denyCidrs url body headers
    .done ()
  | onboard request admin whitelisted => do
    let created ← createProviderServer config.lib config.allowlist request admin whitelisted
    match created with
    | .error _ => .done ()
    | .ok inputs =>
      let _ ← openSsh config.lib config.allowlist config.readsKey inputs
      .done ()

end GreenCompute
