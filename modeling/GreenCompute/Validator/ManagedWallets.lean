import GreenCompute.Billing.Tables
import GreenCompute.Foundations.Interleaving
import GreenCompute.Foundations.Rounding
import Mathlib.Data.Nat.Digits.Defs

/-!
# Managed wallets

The platform holds a wallet for each provider and takes it from funding over registration on the
chain to paying out what it earns. Three periodic ticks move the wallets; each is a program over
the transactions of the repository and the calls to the chain, and may be stopped between any two
of them.

What the chain answers is part of the store. A call to it that raises has no answer; what a
registration or a transfer will do is decided by the chain beforehand. Exceptions of the database
are not modelled apart from violated constraints: a tick that meets one stops, as it does when its
process dies. Decrypting the keys is part of the calls that use them. Reasons, labels and the times
at which something was funded, registered or paid are left out.
-/

namespace GreenCompute

abbrev WalletId := ℕ
abbrev PayoutId := ℕ
abbrev ApplicationId := ℕ

/-! ## Wallet states -/

/-- `WalletState` -/
inductive WalletState where
  | awaitingFunding
  | funded
  | registering
  | registered
  | active
  | suspended
  | fundingExpired
  | registrationFailed
  deriving DecidableEq

namespace WalletState

/-- `VALID_TRANSITIONS` -/
def validTransitions : WalletState → List WalletState
  | awaitingFunding => [funded, fundingExpired]
  | funded => [registering, awaitingFunding, registrationFailed]
  | registering => [registered, registrationFailed]
  | registered => [active, suspended]
  | active => [suspended]
  | suspended => [active]
  | fundingExpired => [awaitingFunding]
  | registrationFailed => [funded, suspended]

/-- `can_transition`: self-edges are legal. -/
def canTransition (current target : WalletState) : Bool :=
  current = target ∨ target ∈ validTransitions current

end WalletState

/-! ## Addresses -/

/-- The digits of base 58, in order. -/
def b58Alphabet : List Char :=
  "123456789ABCDEFGHJKLMNPQRSTUVWXYZabcdefghijkmnopqrstuvwxyz".toList

/-- `_b58_decode`; none for a character outside the alphabet. -/
def b58Decode (value : Text) : Option (List ℕ) := do
  let num ← value.foldlM (fun num c ↦ (b58Alphabet.idxOf? c).map (num * 58 + ·)) 0
  let leading := (value.takeWhile (· = '1')).length
  return List.replicate leading 0 ++ (Nat.digits 256 num).reverse

/-- `_SS58_PREFIX_SALT`, the bytes of "SS58PRE". -/
def ss58PrefixSalt : List ℕ := [83, 83, 53, 56, 80, 82, 69]

/-- `BITTENSOR_SS58_PREFIX` -/
def bittensorSs58Prefix : ℕ := 42

/-- `is_valid_ss58`, for a digest of 64 bytes. -/
def isValidSs58 (blake2b : List ℕ → List ℕ) (address : Text) : Bool :=
  if address.length < 46 ∨ 48 < address.length then false
  else
    match b58Decode address with
    | none => false
    | some raw =>
      if raw.length ≠ 35 ∨ raw.head? ≠ some bittensorSs58Prefix then false
      else (blake2b (ss58PrefixSalt ++ raw.dropLast.dropLast)).take 2 = raw.drop 33

/-! ## The tables -/

/-- A row of `managed_wallets`. -/
structure ManagedWallet where
  applicationId : ApplicationId
  coldkeySs58 : Text
  hotkeySs58 : Text
  payoutAddress : Text
  state : WalletState
  netuid : ℕ
  requiredFundingTao : ℚ
  fundedTao : ℚ
  uid : Option ℕ
  totalPaidAlpha : ℚ
  createdAt : Time

inductive PayoutStatus where
  | submitting
  | confirmed
  | failed
  deriving DecidableEq

/-- A row of `managed_wallet_payouts`. -/
structure Payout where
  walletId : WalletId
  destination : Text
  alphaAmount : ℚ
  netuid : ℕ
  status : PayoutStatus
  extrinsicHash : Option Text

/-- A balance in floating point. -/
inductive Reading where
  | nan
  | posInf
  | negInf
  | finite (q : ℚ)

/-- What a registration attempt does: the uid it yields, if it lands, and whether it answers
rather than raises. -/
structure RegisterAttempt where
  lands : Option ℕ
  answers : Bool

/-- What a transfer answers. -/
structure TransferOutcome where
  success : Bool
  extrinsicHash : Option Text

/-- The chain: which hotkeys are registered on a subnet, whether it can be asked about that, and
what it answers to the other calls. -/
structure ChainState where
  uid : Text → ℕ → Option ℕ
  answersUid : Bool
  burn : ℕ → Option ℚ
  balance : Text → Option ℚ
  attempt : Text → ℕ → RegisterAttempt
  stakedAlpha : Text → Text → ℕ → Option Reading
  transfer : Text → Text → Option TransferOutcome

/-- The tables, the chain, the clock, and the number of identifiers drawn so far. -/
structure WalletStore where
  wallets : Table WalletId ManagedWallet
  payouts : Table PayoutId Payout
  whitelist : List Text
  chain : ChainState
  now : Time
  drawn : ℕ

/-! ## Transactions and calls to the chain -/

/-- The keyword arguments of `advance_managed_wallet`: columns assigned when they are given. -/
structure AdvanceFields where
  fundedTao : Option ℚ := none
  uid : Option ℕ := none
  requiredFundingTao : Option ℚ := none

/-- What an advance does to the row. -/
def AdvanceFields.apply (f : AdvanceFields) (target : WalletState) (w : ManagedWallet) :
    ManagedWallet :=
  { w with
    state := target
    fundedTao := f.fundedTao.getD w.fundedTao
    uid := f.uid.orElse fun _ ↦ w.uid
    requiredFundingTao := f.requiredFundingTao.getD w.requiredFundingTao }

namespace WalletStore

/-- `create_managed_wallet`: false is the `IntegrityError` of a key or an address in use. -/
def createManagedWallet (id : WalletId) (wallet : ManagedWallet) (s : WalletStore) :
    WalletStore × Bool :=
  if (s.wallets.get? id).isSome ∨ (s.wallets.select fun _ w ↦
      w.coldkeySs58 = wallet.coldkeySs58 ∨ w.hotkeySs58 = wallet.hotkeySs58) ≠ [] then (s, false)
  else ({ s with wallets := s.wallets.insert id wallet }, true)

/-- `get_managed_wallet_by_application`: the newest one. -/
def getManagedWalletByApplication (application : ApplicationId) (s : WalletStore) :
    Option (WalletId × ManagedWallet) :=
  (s.wallets.select fun _ w ↦ w.applicationId = application).getLast?

/-- `list_managed_wallets_in_state`, oldest first. -/
def listManagedWalletsInState (state : WalletState) (s : WalletStore) :
    List (WalletId × ManagedWallet) :=
  s.wallets.select fun _ w ↦ w.state = state

/-- `advance_managed_wallet` -/
def advanceManagedWallet (id : WalletId) (target : WalletState) (fields : AdvanceFields)
    (s : WalletStore) : WalletStore × Option ManagedWallet :=
  match s.wallets.get? id with
  | none => (s, none)
  | some w =>
    if WalletState.canTransition w.state target = false then (s, none)
    else
      ({ s with wallets := s.wallets.insert id (fields.apply target w) },
        some (fields.apply target w))

/-- `add_whitelist_entry` -/
def addWhitelistEntry (hotkey : Text) (s : WalletStore) : WalletStore :=
  if hotkey ∈ s.whitelist then s else { s with whitelist := s.whitelist ++ [hotkey] }

/-- `record_managed_payout`: append a row, or update its outcome. False is the `IntegrityError` of
an extrinsic hash that another row has. -/
def recordManagedPayout (id : PayoutId) (row : Payout) (s : WalletStore) : WalletStore × Bool :=
  if row.extrinsicHash.isSome ∧ (s.payouts.select fun k p ↦
      k ≠ id ∧ p.extrinsicHash = row.extrinsicHash) ≠ [] then (s, false)
  else
    let row := match s.payouts.get? id with
      | none => row
      | some old => { old with status := row.status, extrinsicHash := row.extrinsicHash }
    ({ s with payouts := s.payouts.insert id row }, true)

/-- `credit_managed_payout` -/
def creditManagedPayout (id : WalletId) (alphaAmount : ℚ) (s : WalletStore) : WalletStore :=
  { s with
    wallets := s.wallets.modify id fun w ↦
      { w with totalPaidAlpha := w.totalPaidAlpha + alphaAmount } }

/-- `has_inflight_payout` -/
def hasInflightPayout (id : WalletId) (s : WalletStore) : Bool :=
  (s.payouts.select fun _ p ↦ p.walletId = id ∧ p.status = .submitting) ≠ []

/-- A registration attempt: it may land, whether or not it answers. -/
def register (hotkey : Text) (netuid : ℕ) (s : WalletStore) : WalletStore × Bool :=
  let attempt := s.chain.attempt hotkey netuid
  let uid := (s.chain.uid hotkey netuid).orElse fun _ ↦ attempt.lands
  ({ s with
      chain := { s.chain with
        uid := fun h n ↦ if h = hotkey ∧ n = netuid then uid else s.chain.uid h n } },
    attempt.answers)

end WalletStore

/-- The transactions, the calls to the chain and what is drawn. The last two are the surroundings:
time passes and the chain changes. -/
inductive WalletOp where
  | createManagedWallet (id : WalletId) (wallet : ManagedWallet)
  | getManagedWalletByApplication (application : ApplicationId)
  | listManagedWalletsInState (state : WalletState)
  | advanceManagedWallet (id : WalletId) (target : WalletState) (fields : AdvanceFields)
  | addWhitelistEntry (hotkey : Text)
  | recordManagedPayout (id : PayoutId) (row : Payout)
  | creditManagedPayout (id : WalletId) (alphaAmount : ℚ)
  | hasInflightPayout (id : WalletId)
  | now
  | drawId
  | isRegistered (hotkey : Text) (netuid : ℕ)
  | registrationBurnTao (netuid : ℕ)
  | coldkeyBalanceTao (coldkey : Text)
  | stakedAlpha (coldkey hotkey : Text) (netuid : ℕ)
  | register (id : WalletId) (hotkey : Text) (netuid : ℕ)
  | transferAlpha (id : WalletId) (hotkey destination : Text) (netuid : ℕ) (alphaAmount : ℚ)
  | advance (seconds : Time)
  | setChain (chain : ChainState)

/-- What each of them answers; none where a call to the chain raises. -/
abbrev WalletOp.Ans : WalletOp → Type
  | createManagedWallet .. | recordManagedPayout .. | hasInflightPayout _ | register .. => Bool
  | getManagedWalletByApplication _ => Option (WalletId × ManagedWallet)
  | listManagedWalletsInState _ => List (WalletId × ManagedWallet)
  | advanceManagedWallet .. => Option ManagedWallet
  | now => Time
  | drawId => ℕ
  | isRegistered .. => Option (Option ℕ)
  | registrationBurnTao _ | coldkeyBalanceTao _ => Option ℚ
  | stakedAlpha .. => Option Reading
  | transferAlpha .. => Option TransferOutcome
  | addWhitelistEntry _ | creditManagedPayout .. | advance _ | setChain _ => Unit

/-- The interface of the wallet service. -/
abbrev Wallets : Interface := ⟨WalletOp, WalletOp.Ans⟩

/-- One transaction or call, with its answer. -/
def WalletOp.exec : (o : WalletOp) → WalletStore → WalletStore × o.Ans
  | createManagedWallet id wallet, s => s.createManagedWallet id wallet
  | getManagedWalletByApplication application, s =>
    (s, s.getManagedWalletByApplication application)
  | listManagedWalletsInState state, s => (s, s.listManagedWalletsInState state)
  | advanceManagedWallet id target fields, s => s.advanceManagedWallet id target fields
  | addWhitelistEntry hotkey, s => (s.addWhitelistEntry hotkey, ())
  | recordManagedPayout id row, s => s.recordManagedPayout id row
  | creditManagedPayout id alphaAmount, s => (s.creditManagedPayout id alphaAmount, ())
  | hasInflightPayout id, s => (s, s.hasInflightPayout id)
  | now, s => (s, s.now)
  | drawId, s => ({ s with drawn := s.drawn + 1 }, s.drawn)
  | isRegistered hotkey netuid, s =>
    (s, if s.chain.answersUid then some (s.chain.uid hotkey netuid) else none)
  | registrationBurnTao netuid, s => (s, s.chain.burn netuid)
  | coldkeyBalanceTao coldkey, s => (s, s.chain.balance coldkey)
  | stakedAlpha coldkey hotkey netuid, s => (s, s.chain.stakedAlpha coldkey hotkey netuid)
  | register _ hotkey netuid, s => s.register hotkey netuid
  | transferAlpha _ hotkey destination _ _, s => (s, s.chain.transfer hotkey destination)
  | advance seconds, s => ({ s with now := s.now + max 0 seconds }, ())
  | setChain chain, s => ({ s with chain := chain }, ())

namespace ManagedWalletService

/-- One transaction or call as a program. -/
def call (o : WalletOp) : Program Wallets o.Ans := Program.op (I := Wallets) o

/-- `round(x, 6)` -/
def round6 (x : ℚ) : ℚ := (roundHalfEven (x * 10 ^ 6) : ℚ) / 10 ^ 6

/-! ## Provisioning -/

/-- `REGISTRATION_BUFFER` -/
def registrationBuffer : ℚ := 3 / 2

/-- `PAYOUT_FEE_RESERVE_TAO` -/
def payoutFeeReserveTao : ℚ := 5 / 100

/-- `MAX_QUOTE_TAO` -/
def maxQuoteTao : ℚ := 10

/-- `quote_funding`: what a provider has to send; none where it raises. -/
def quoteFunding (netuid : ℕ) : Program Wallets (Option ℚ) := do
  match ← call (.registrationBurnTao netuid) with
  | none => pure none
  | some burn =>
    let required := burn + burn * (registrationBuffer - 1) + payoutFeeReserveTao
    if burn ≤ 0 ∨ maxQuoteTao < required then pure none else pure (some (round6 required))

/-- `provision_for_application`; none where it raises. `keys` are the addresses of the new
keypairs. -/
def provisionForApplication (blake2b : List ℕ → List ℕ) (netuid : ℕ)
    (application : ApplicationId) (payoutAddress : Text) (keys : Text × Text) :
    Program Wallets (Option (WalletId × ManagedWallet)) := do
  match ← call (.getManagedWalletByApplication application) with
  | some existing => pure (some existing)
  | none => do
    match ← quoteFunding netuid with
    | none => pure none
    | some required => do
      let id ← call .drawId
      if isValidSs58 blake2b payoutAddress = false ∨ keys.1 = keys.2 then pure none
      else do
        let createdAt ← call .now
        let wallet : ManagedWallet :=
          { applicationId := application
            coldkeySs58 := keys.1
            hotkeySs58 := keys.2
            payoutAddress := payoutAddress
            state := .awaitingFunding
            netuid := netuid
            requiredFundingTao := required
            fundedTao := 0
            uid := none
            totalPaidAlpha := 0
            createdAt := createdAt }
        let created ← call (.createManagedWallet id wallet)
        pure (if created then some (id, wallet) else none)

/-! ## Funding -/

/-- `FUNDING_WINDOW`: 14 days. -/
def fundingWindow : Time := 14 * 24 * 3600

/-- `FundingCheck` -/
structure FundingCheck where
  state : WalletState
  balanceTao : ℚ
  shortfallTao : ℚ

/-- `check_funding` -/
def checkFunding (wallet : ManagedWallet) (balanceTao : ℚ) (now : Time) : FundingCheck :=
  if wallet.state ≠ .awaitingFunding then ⟨wallet.state, balanceTao, 0⟩
  else if wallet.requiredFundingTao ≤ balanceTao then ⟨.funded, balanceTao, 0⟩
  else
    let shortfall := round6 (wallet.requiredFundingTao - balanceTao)
    if fundingWindow < now - wallet.createdAt then ⟨.fundingExpired, balanceTao, shortfall⟩
    else ⟨.awaitingFunding, balanceTao, shortfall⟩

/-- The wallets of `tick_funding` in turn; the result is how many were advanced. -/
def fundEach : List (WalletId × ManagedWallet) → Program Wallets ℕ
  | [] => pure 0
  | (id, wallet) :: rest => do
    match ← call (.coldkeyBalanceTao wallet.coldkeySs58) with
    | none => fundEach rest
    | some balance => do
      let now ← call .now
      let check := checkFunding wallet balance now
      if check.state = .awaitingFunding then fundEach rest
      else do
        let _ ← call (.advanceManagedWallet id check.state
          { fundedTao := some check.balanceTao })
        let advanced ← fundEach rest
        pure (advanced + 1)

/-- `tick_funding` -/
def tickFunding : Program Wallets ℕ := do
  let wallets ← call (.listManagedWalletsInState .awaitingFunding)
  fundEach wallets

/-! ## Registration -/

/-- The `reason` of a registration plan. -/
inductive PlanReason where
  | notFunded (state : WalletState)
  | alreadyRegistered (uid : ℕ)
  | burnRose
  | registering

/-- `RegistrationPlan` -/
structure RegistrationPlan where
  shouldRegister : Bool
  burnTao : ℚ
  balanceTao : ℚ
  reason : PlanReason
  additionalFundingTao : ℚ

/-- `plan_registration`; none where it raises. -/
def planRegistration (wallet : ManagedWallet) : Program Wallets (Option RegistrationPlan) := do
  if wallet.state ≠ .funded then
    pure (some ⟨false, 0, 0, .notFunded wallet.state, 0⟩)
  else do
    match ← call (.isRegistered wallet.hotkeySs58 wallet.netuid) with
    | none => pure none
    | some (some uid) => pure (some ⟨false, 0, 0, .alreadyRegistered uid, 0⟩)
    | some none => do
      match ← call (.registrationBurnTao wallet.netuid) with
      | none => pure none
      | some burn => do
        match ← call (.coldkeyBalanceTao wallet.coldkeySs58) with
        | none => pure none
        | some balance =>
          let spendable := balance - payoutFeeReserveTao
          if spendable < burn then
            pure (some ⟨false, burn, balance, .burnRose, round6 (burn - spendable)⟩)
          else pure (some ⟨true, burn, balance, .registering, 0⟩)

/-- What `_register_one` does when it should register; none where it raises. -/
def submitRegistration (id : WalletId) (wallet : ManagedWallet) : Program Wallets (Option Bool) :=
  do
  match ← call (.advanceManagedWallet id .registering {}) with
  | none => pure (some false)
  | some _ => do
    let answered ← call (.register id wallet.hotkeySs58 wallet.netuid)
    if answered = false then do
      let _ ← call (.advanceManagedWallet id .registrationFailed {})
      pure (some false)
    else do
      match ← call (.isRegistered wallet.hotkeySs58 wallet.netuid) with
      | none => pure none
      | some none => do
        let _ ← call (.advanceManagedWallet id .registrationFailed {})
        pure (some false)
      | some (some uid) => do
        let _ ← call (.advanceManagedWallet id .registered { uid := some uid })
        pure (some true)

/-- What `_register_one` does when the hotkey is registered already. -/
def adoptRegistration (id : WalletId) (wallet : ManagedWallet) : Program Wallets (Option Bool) :=
  do
  match ← call (.isRegistered wallet.hotkeySs58 wallet.netuid) with
  | none => pure none
  | some uid => do
    let _ ← call (.advanceManagedWallet id .registering {})
    let _ ← call (.advanceManagedWallet id .registered { uid := uid })
    pure (some false)

/-- `_register_one`; none where it raises. -/
def registerOne (id : WalletId) (wallet : ManagedWallet) : Program Wallets (Option Bool) := do
  match ← planRegistration wallet with
  | none => pure (some false)
  | some plan =>
    if plan.shouldRegister = false then
      if 0 < plan.additionalFundingTao then do
        let _ ← call (.advanceManagedWallet id .awaitingFunding
          { requiredFundingTao := some (round6 (wallet.fundedTao + plan.additionalFundingTao)) })
        pure (some false)
      else
        match plan.reason with
        | .alreadyRegistered _ => adoptRegistration id wallet
        | _ => pure (some false)
    else submitRegistration id wallet

/-- The first pass of `tick_registration`: how many wallets were registered; none where it
raises. -/
def registerEach : List (WalletId × ManagedWallet) → Program Wallets (Option ℕ)
  | [] => pure (some 0)
  | (id, wallet) :: rest => do
    match ← registerOne id wallet with
    | none => pure none
    | some registered => do
      match ← registerEach rest with
      | none => pure none
      | some count => pure (some (if registered then count + 1 else count))

/-- `_activate_one` -/
def activateOne (id : WalletId) (wallet : ManagedWallet) : Program Wallets Unit := do
  call (.addWhitelistEntry wallet.hotkeySs58)
  let _ ← call (.advanceManagedWallet id .active {})

/-- The second pass of `tick_registration`. -/
def activateEach : List (WalletId × ManagedWallet) → Program Wallets Unit
  | [] => pure ()
  | (id, wallet) :: rest => do
    activateOne id wallet
    activateEach rest

/-- `tick_registration`; none where it raises. -/
def tickRegistration : Program Wallets (Option ℕ) := do
  let funded ← call (.listManagedWalletsInState .funded)
  match ← registerEach funded with
  | none => pure none
  | some count => do
    let registered ← call (.listManagedWalletsInState .registered)
    activateEach registered
    pure (some count)

/-! ## Payouts -/

/-- `MIN_PAYOUT_ALPHA` -/
def minPayoutAlpha : ℚ := 1 / 10

/-- `PayoutPlan` -/
structure PayoutPlan where
  shouldPay : Bool
  alphaAmount : ℚ
  destination : Text

/-- `plan_payout` -/
def planPayout (blake2b : List ℕ → List ℕ) (wallet : ManagedWallet) (accrued : Reading) :
    PayoutPlan :=
  let refused : PayoutPlan := ⟨false, 0, wallet.payoutAddress⟩
  if wallet.state ≠ .active ∧ wallet.state ≠ .suspended then refused
  else
    match accrued with
    | .finite alpha =>
      if alpha < 0 then refused
      else if alpha < minPayoutAlpha then refused
      else if isValidSs58 blake2b wallet.payoutAddress = false then refused
      else ⟨true, alpha, wallet.payoutAddress⟩
    | _ => refused

/-- `_pay_one`; none where it raises. -/
def payOne (blake2b : List ℕ → List ℕ) (id : WalletId) (wallet : ManagedWallet) :
    Program Wallets (Option Bool) := do
  let inflight ← call (.hasInflightPayout id)
  if inflight then pure (some false)
  else do
    match ← call (.stakedAlpha wallet.coldkeySs58 wallet.hotkeySs58 wallet.netuid) with
    | none => pure (some false)
    | some accrued =>
      let plan := planPayout blake2b wallet accrued
      if plan.shouldPay = false then pure (some false)
      else do
        let payoutId ← call .drawId
        let row (status : PayoutStatus) (hash : Option Text) : Payout :=
          ⟨id, plan.destination, plan.alphaAmount, wallet.netuid, status, hash⟩
        let recorded ← call (.recordManagedPayout payoutId (row .submitting none))
        if recorded = false then pure none
        else do
          match ← call (.transferAlpha id wallet.hotkeySs58 plan.destination wallet.netuid
              plan.alphaAmount) with
          | none => do
            let recorded ← call (.recordManagedPayout payoutId (row .failed none))
            pure (if recorded then some false else none)
          | some outcome => do
            let status := if outcome.success then .confirmed else .failed
            let recorded ← call (.recordManagedPayout payoutId
              (row status outcome.extrinsicHash))
            if recorded = false then pure none
            else if outcome.success = false then pure (some false)
            else do
              call (.creditManagedPayout id plan.alphaAmount)
              pure (some true)

/-- The wallets of `tick_payouts` in one state, in turn; none where one raises. -/
def payEach (blake2b : List ℕ → List ℕ) :
    List (WalletId × ManagedWallet) → Program Wallets (Option ℕ)
  | [] => pure (some 0)
  | (id, wallet) :: rest => do
    match ← payOne blake2b id wallet with
    | none => pure none
    | some paid => do
      match ← payEach blake2b rest with
      | none => pure none
      | some count => pure (some (if paid then count + 1 else count))

/-- `tick_payouts`; none where it raises. -/
def tickPayouts (blake2b : List ℕ → List ℕ) : Program Wallets (Option ℕ) := do
  let active ← call (.listManagedWalletsInState .active)
  match ← payEach blake2b active with
  | none => pure none
  | some paid => do
    let suspended ← call (.listManagedWalletsInState .suspended)
    match ← payEach blake2b suspended with
    | none => pure none
    | some paid' => pure (some (paid + paid'))

end ManagedWalletService

/-! ## Calls -/

/-- What an operator may do to a wallet by hand. -/
inductive Intervention where
  | retry
  | requote
  | suspend
  | resume
  deriving DecidableEq

/-- The state an intervention advances the wallet to. -/
def Intervention.target : Intervention → WalletState
  | retry => .funded
  | requote => .awaitingFunding
  | suspend => .suspended
  | resume => .active

/-- The ticks, provisioning, interventions, and what happens around them. -/
inductive WalletCall where
  | provisionForApplication (netuid : ℕ) (application : ApplicationId) (payoutAddress : Text)
      (keys : Text × Text)
  | tickFunding
  | tickRegistration
  | tickPayouts
  | intervene (id : WalletId) (how : Intervention)
  | advance (seconds : Time)
  | setChain (chain : ChainState)

section

variable (blake2b : List ℕ → List ℕ)

open ManagedWalletService in
/-- The method each call runs. -/
def WalletCall.body : WalletCall → Program Wallets Unit
  | provisionForApplication netuid application payoutAddress keys =>
    ManagedWalletService.provisionForApplication blake2b netuid application payoutAddress keys >>=
      fun _ ↦ .done ()
  | tickFunding => ManagedWalletService.tickFunding >>= fun _ ↦ .done ()
  | tickRegistration => ManagedWalletService.tickRegistration >>= fun _ ↦ .done ()
  | tickPayouts => ManagedWalletService.tickPayouts blake2b >>= fun _ ↦ .done ()
  | intervene id how => call (.advanceManagedWallet id how.target {}) >>= fun _ ↦ .done ()
  | advance seconds => call (.advance seconds)
  | setChain chain => call (.setChain chain)

/-- The wallet service. -/
def wallets : Service Wallets WalletCall WalletStore where
  exec := WalletOp.exec
  body := WalletCall.body blake2b

end

end GreenCompute
