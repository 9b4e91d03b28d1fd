import GreenCompute.Gateway.Outbound

/-!
# Where connections go

Whatever the network answers, a webhook is posted to addresses that passed the test: they are
globally routable, not multicast and in no denied network. That is a fact about the program alone,
since the test stands between the answer and every connection.

The guard of an onboarding tests other answers than the one that the connection is made from, and
tests them for six flags, which some addresses that are not globally routable do not have. So its
connections stay outside exactly if, where the guard lets the host pass twice and there is a
credential, the addresses that the SSH library resolves the host to and tries are globally routable
and not multicast.
-/

namespace GreenCompute

open Outbound Program

/-! ## The surroundings of a run -/

/-- What the network answers to the `n`th question. -/
abbrev NetworkEnv := (n : ℕ) → (o : NetworkOp) → o.Ans

/-- The network, where the store is the number of questions it has been asked. -/
def NetworkEnv.machine (env : NetworkEnv) : Machine Network ℕ where
  exec o n := (n + 1, env n o)

namespace Outbound

/-- The address that an event opens a connection to. -/
def opened (e : Event Network) : Option Text :=
  match e.1 with
  | .connect address .. => some address
  | _ => none

/-- The addresses that connections are opened to when a request is run. -/
def opens {α : Type} (env : NetworkEnv) (p : Program Network α) (n : ℕ) : List Text :=
  (trace env.machine p n).filterMap opened

/-- The address that a connection reaches. -/
def reached (lib : Addressing) (address : Text) : Option IpAddress :=
  (lib.ipAddress (address.takeWhile fun c ↦ c ≠ '%')).map unmapped

/-- A globally routable unicast address. -/
def GlobalUnicast (lib : Addressing) (address : Text) : Prop :=
  ∃ ip ∈ reached lib address, lib.isGlobal ip = true ∧ lib.isMulticast ip = false

/-- No denied network has the address. -/
def Undenied (lib : Addressing) (denyCidrs address : Text) : Prop :=
  ∃ ip ∈ reached lib address, ∀ net ∈ deniedNetworks lib denyCidrs, net.contains ip = false

instance (lib : Addressing) (address : Text) : Decidable (GlobalUnicast lib address) :=
  inferInstanceAs (Decidable (∃ ip ∈ reached lib address, lib.isGlobal ip = true ∧
    lib.isMulticast ip = false))

variable {lib : Addressing} {env : NetworkEnv} {n : ℕ}

theorem opens_bind {α β : Type} (p : Program Network α) (f : α → Program Network β) :
    opens env (p >>= f) n = opens env p n ++
      opens env (f (eval env.machine p n).2) (eval env.machine p n).1 := by
  rw [opens, trace_bind, List.filterMap_append, opens, opens]

/-! ## Webhooks -/

/-- The operation connects to none but public addresses. -/
def ConnectsPublicly (lib : Addressing) (denyCidrs : Text) : NetworkOp → Prop
  | .connect address .. => isPublic lib denyCidrs address = some true
  | _ => True

theorem uses_tryEach {denyCidrs : Text} (port : ℕ) (request : Text) {addresses : List Text}
    (h : ∀ a ∈ addresses, isPublic lib denyCidrs a = some true) :
    (tryEach port request addresses).Uses (ConnectsPublicly lib denyCidrs) := by
  induction addresses with
  | nil => trivial
  | cons a rest ih =>
    refine Uses.op_bind trivial fun timeLeft ↦ ?_
    split
    · trivial
    · refine Uses.op_bind (h a List.mem_cons_self) fun exchange ↦ ?_
      have hrest := ih fun b hb ↦ h b (List.mem_cons_of_mem _ hb)
      split
      · exact hrest
      · trivial
      · trivial
      · trivial

/-- What `resolve_public` returns has been tested. -/
theorem resolvePublic_ok {denyCidrs host : Text} {infos : Option (List Text)}
    {addresses : List Text} (h : resolvePublic lib denyCidrs host infos = .ok addresses) :
    ∀ a ∈ addresses, isPublic lib denyCidrs a = some true := by
  rw [resolvePublic.eq_def] at h
  dsimp only at h
  split at h
  · cases h
  · split at h
    · cases h
    · split at h
      · next hnone =>
        obtain rfl := Except.ok.inj h
        intro a ha
        have htested := List.find?_eq_none.mp hnone a ha
        simpa using htested
      · split at h <;> cases h

theorem uses_post (denyCidrs url body : Text) (headers : List (Text × Text)) :
    (post lib denyCidrs url body headers).Uses (ConnectsPublicly lib denyCidrs) := by
  rw [post]
  split
  · trivial
  · trivial
  · refine Uses.op_bind trivial fun infos ↦ ?_
    split
    · trivial
    · trivial
    · next addresses haddresses =>
      exact (uses_tryEach _ _ (resolvePublic_ok haddresses)).bind fun _ ↦ trivial

/-- A public address is globally routable unicast, and in no denied network. -/
theorem permits_of_isPublic {denyCidrs address : Text}
    (h : isPublic lib denyCidrs address = some true) :
    GlobalUnicast lib address ∧ Undenied lib denyCidrs address := by
  obtain ⟨ip, hip, htest⟩ := Option.map_eq_some_iff.mp h
  have hreached : reached lib address = some (unmapped ip) := by
    rw [reached, hip, Option.map_some]
  simp only [Bool.and_eq_true, Bool.not_eq_true', List.any_eq_false, Bool.not_eq_true] at htest
  exact ⟨⟨_, hreached, htest.1⟩, ⟨_, hreached, htest.2⟩⟩

/-! ## Onboardings -/

/-- The addresses that the SSH library tries, the first of which is its `n`th question: it goes on
to the next one where a connection could not be made. -/
def tried (env : NetworkEnv) (port n : ℕ) : List Text → List Text
  | [] => []
  | a :: rest => a ::
    match env n (.connect a port []) with
    | .unreached true => tried env port (n + 1) rest
    | _ => []

theorem opens_connectEach_cons (port : ℕ) (a : Text) (rest : List Text) :
    opens env (sshConnect.connectEach port (a :: rest)) n = a ::
      opens env (match env n (.connect a port []) with
        | .unreached true => sshConnect.connectEach port rest
        | .unreached false | .broken => .done none
        | .replied banner => .done (some banner)) (n + 1) :=
  rfl

theorem opens_connectEach (port : ℕ) (addresses : List Text) :
    opens env (sshConnect.connectEach port addresses) n = tried env port n addresses := by
  induction addresses generalizing n with
  | nil => rfl
  | cons a rest ih =>
    rw [opens_connectEach_cons, tried]
    refine congrArg (a :: ·) ?_
    generalize env n (.connect a port []) = exchange
    rcases exchange with (_ | _) | _ | _
    all_goals first | exact ih | rfl

theorem opens_sshConnect (host : Text) (port : ℕ) :
    opens env (sshConnect host port) n =
      tried env port (n + 1) ((env n (.getaddrinfo host port)).getD []) := by
  rw [sshConnect, opens_bind]
  exact opens_connectEach port _

/-- The guard lets a host pass, when resolving it is the `n`th question. -/
def GuardPasses (lib : Addressing) (allowlist : Text) (env : NetworkEnv) (n : ℕ) (host : Text)
    (port : ℕ) : Prop :=
  ∃ h, checkHost host = .ok h ∧
    ∃ h', guardAddresses lib allowlist h (env n (.getaddrinfo h port)) = .ok h'

section Guard

variable {allowlist host : Text} {port : ℕ}

/-- The guard opens no connection. -/
theorem opens_resolveAndGuardHost :
    opens env (resolveAndGuardHost lib allowlist host port) n = [] := by
  rw [resolveAndGuardHost]
  cases checkHost host <;> rfl

theorem eval_resolveAndGuardHost (h : GuardPasses lib allowlist env n host port) :
    ∃ h', eval env.machine (resolveAndGuardHost lib allowlist host port) n = (n + 1, .ok h') := by
  obtain ⟨h, hcheck, h', hguard⟩ := h
  refine ⟨h', ?_⟩
  rw [resolveAndGuardHost, hcheck]
  exact congrArg (Prod.mk (n + 1)) hguard

theorem resolveAndGuardHost_refuses (h : ¬GuardPasses lib allowlist env n host port) :
    ∃ e, (eval env.machine (resolveAndGuardHost lib allowlist host port) n).2 = .error e := by
  rw [resolveAndGuardHost]
  cases hcheck : checkHost host with
  | error e => exact ⟨e, rfl⟩
  | ok h₀ =>
    cases hguard : guardAddresses lib allowlist h₀ (env n (.getaddrinfo h₀ port)) with
    | error e => exact ⟨e, hguard⟩
    | ok h' => exact (h ⟨h₀, hcheck, h', hguard⟩).elim

end Guard

/-- A connection is opened if the guard lets the host pass once more and there is a credential. -/
theorem opens_openSsh (allowlist : Text) (readsKey : Text → Bool) (inputs : ProvisionInputs) :
    (GuardPasses lib allowlist env n inputs.sshHost inputs.sshPort →
      hasCredential readsKey inputs = true →
        opens env (openSsh lib allowlist readsKey inputs) n = tried env inputs.sshPort (n + 2)
          ((env (n + 1) (.getaddrinfo inputs.sshHost inputs.sshPort)).getD [])) ∧
      (¬(GuardPasses lib allowlist env n inputs.sshHost inputs.sshPort ∧
        hasCredential readsKey inputs = true) →
          opens env (openSsh lib allowlist readsKey inputs) n = []) := by
  constructor
  · intro hpasses hcredential
    obtain ⟨h', heval⟩ := eval_resolveAndGuardHost hpasses
    rw [openSsh, opens_bind, opens_resolveAndGuardHost, List.nil_append, heval]
    dsimp only
    rw [if_pos hcredential, opens_sshConnect]
  · intro hnot
    rw [openSsh, opens_bind, opens_resolveAndGuardHost, List.nil_append]
    by_cases hpasses : GuardPasses lib allowlist env n inputs.sshHost inputs.sshPort
    · obtain ⟨h', heval⟩ := eval_resolveAndGuardHost hpasses
      rw [heval]
      dsimp only
      rw [if_neg fun hcredential ↦ hnot ⟨hpasses, hcredential⟩]
      rfl
    · obtain ⟨e, he⟩ := resolveAndGuardHost_refuses hpasses
      rw [he]
      rfl

end Outbound

namespace OutboundCall

/-- The connections that a request may open: to globally routable unicast addresses, and for
webhooks outside the denied networks. -/
def Permits (config : OutboundSettings) : OutboundCall → Text → Prop
  | deliverWebhook .., address =>
    GlobalUnicast config.lib address ∧ Undenied config.lib config.denyCidrs address
  | onboard .., address => GlobalUnicast config.lib address

/-- The host of a provider's server resolves, when the SSH library asks, to addresses outside, as
far as it tries them. There is nothing to ask of a webhook. -/
def ResolvesOutside (config : OutboundSettings) (env : NetworkEnv) : OutboundCall → Prop
  | deliverWebhook .. => True
  | onboard request admin whitelisted =>
    let inputs := request.inputs
    checkRequest request admin whitelisted = .ok () →
      GuardPasses config.lib config.allowlist env 0 inputs.sshHost inputs.sshPort →
        GuardPasses config.lib config.allowlist env 1 inputs.sshHost inputs.sshPort →
          hasCredential config.readsKey inputs = true →
            ∀ address ∈ tried env inputs.sshPort 3
                ((env 2 (.getaddrinfo inputs.sshHost inputs.sshPort)).getD []),
              GlobalUnicast config.lib address

variable {config : OutboundSettings} {env : NetworkEnv}

/-- The connections of an onboarding, unless it is refused, are those of the provisioning. -/
theorem opens_onboard (request : ProviderServerCreateRequest) (admin whitelisted : Bool) :
    (checkRequest request admin whitelisted = .ok () →
      GuardPasses config.lib config.allowlist env 0 request.inputs.sshHost request.sshPort →
        opens env (OutboundCall.body config (.onboard request admin whitelisted)) 0 =
          opens env (openSsh config.lib config.allowlist config.readsKey request.inputs) 1) ∧
      (¬(checkRequest request admin whitelisted = .ok () ∧
        GuardPasses config.lib config.allowlist env 0 request.inputs.sshHost request.sshPort) →
          opens env (OutboundCall.body config (.onboard request admin whitelisted)) 0 = []) := by
  have hcreate : opens env
      (createProviderServer config.lib config.allowlist request admin whitelisted) 0 = [] := by
    rw [createProviderServer]
    split
    · rfl
    · rw [opens_bind, opens_resolveAndGuardHost, List.nil_append]
      split <;> rfl
  rw [OutboundCall.body, opens_bind, hcreate, List.nil_append]
  constructor
  · intro hcheck hpasses
    obtain ⟨h', heval⟩ := eval_resolveAndGuardHost hpasses
    have hcreated : eval env.machine
        (createProviderServer config.lib config.allowlist request admin whitelisted) 0 =
          (1, .ok request.inputs) := by
      have hguard : eval env.machine (resolveAndGuardHost config.lib config.allowlist
          (Text.strip request.sshHost) request.sshPort) 0 = (1, .ok h') := heval
      rw [createProviderServer, hcheck]
      dsimp only
      rw [eval_bind, hguard]
      rfl
    rw [hcreated]
    dsimp only
    rw [opens_bind]
    exact List.append_nil _
  · intro hnot
    have hrefused : ∃ e, (eval env.machine
        (createProviderServer config.lib config.allowlist request admin whitelisted) 0).2 =
          .error e := by
      rw [createProviderServer]
      split
      · next e _ => exact ⟨e, rfl⟩
      · next hcheck =>
        have hpasses : ¬GuardPasses config.lib config.allowlist env 0
            (Text.strip request.sshHost) request.sshPort := fun h ↦ hnot ⟨hcheck, h⟩
        obtain ⟨e, he⟩ := resolveAndGuardHost_refuses hpasses
        rw [eval_bind, he]
        exact ⟨e, rfl⟩
    obtain ⟨e, he⟩ := hrefused
    rw [he]
    rfl

end OutboundCall

/-- The number that four parts of a dotted address make. -/
def dotted (address : Text) : Option IpAddress :=
  match Text.words (fun c ↦ c = '.') address with
  | [a, b, c, d] =>
    if (a ++ b ++ c ++ d).all Char.isDigit then
      let number (digits : Text) : ℕ := digits.foldl (fun n c ↦ 10 * n + (c.toNat - 48)) 0
      some ⟨4, ((number a * 256 + number b) * 256 + number c) * 256 + number d⟩
    else none
  | _ => none

/-- The networks of a kind have an address. -/
def inNetworks (nets : List (String × ℕ)) (ip : IpAddress) : Bool :=
  nets.any fun net ↦
    ((dotted net.1.toList).map fun base ↦
      IpNetwork.contains ⟨4, base.value, 32 - net.2⟩ ip).getD false

/-- Addresses of version 4, with the networks that are set aside. -/
def plainAddressing : Addressing where
  ipAddress := dotted
  ipNetwork := fun _ ↦ none
  isGlobal ip := !inNetworks [("0.0.0.0", 8), ("10.0.0.0", 8), ("100.64.0.0", 10),
    ("127.0.0.0", 8), ("169.254.0.0", 16), ("172.16.0.0", 12), ("192.168.0.0", 16),
    ("198.18.0.0", 15), ("240.0.0.0", 4)] ip
  isPrivate := inNetworks [("0.0.0.0", 8), ("10.0.0.0", 8), ("127.0.0.0", 8),
    ("169.254.0.0", 16), ("172.16.0.0", 12), ("192.168.0.0", 16), ("198.18.0.0", 15),
    ("240.0.0.0", 4)]
  isLoopback := inNetworks [("127.0.0.0", 8)]
  isLinkLocal := inNetworks [("169.254.0.0", 16)]
  isMulticast := inNetworks [("224.0.0.0", 4)]
  isReserved := inNetworks [("240.0.0.0", 4)]
  isUnspecified := inNetworks [("0.0.0.0", 32)]
  text ip := (Nat.repr ip.value).toList
  urlsplit := fun _ ↦ none
  repr := id

/-- The name resolves to an address outside for both guards, and to the metadata service when the
SSH library asks. -/
def rebinding : NetworkEnv
  | n, .getaddrinfo .. => some [if n < 2 then "8.8.8.8".toList else "169.254.169.254".toList]
  | _, .left => true
  | _, .connect .. => .replied "SSH-2.0".toList

/-- A whitelisted provider adds a server. -/
def addServer : OutboundCall :=
  .onboard
    { hotkey := "5F".toList
      payoutAddress := []
      label := "node".toList
      sshHost := "provider.example".toList
      sshPort := 22
      sshUser := "root".toList
      sshPassword := "secret".toList
      sshPrivateKey := []
      hfToken := [] } false true

end GreenCompute
