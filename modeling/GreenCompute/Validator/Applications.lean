import GreenCompute.ControlPlane.Registration
import GreenCompute.Foundations.Embedding
import GreenCompute.Validator.ManagedWallets

/-!
# Applications of providers

A provider applies with a hotkey of their own, or with an address to be paid at and no hotkey. The
application is approved by the automated review when it is submitted, or by an administrator later.
Approval is to onboard the applicant: their hotkey goes on the whitelist, or a wallet is provisioned
for them, whose hotkey the registration tick puts there.

Each request is a program over the transactions of the repository, and `respond` keeps what it is
answered. The verdict of the automated review is given with the request. The tables of attachments,
the texts of an application and who signed it play no part here.
-/

namespace GreenCompute

/-! ## The tables -/

/-- `status` of an application. -/
inductive ApplicationStatus where
  | pending
  | approved
  | rejected
  deriving DecidableEq

/-- A row of `green_energy_applications`. -/
structure Application where
  hotkey : Text
  payoutAddress : Option Text
  status : ApplicationStatus
  deriving DecidableEq

/-- `GeneratedKeypair`: the address of a key that the wallet library has just made. -/
structure GeneratedKeypair where
  ss58Address : Text
  nonempty : ss58Address ≠ []

/-- What a request is answered. -/
inductive ApplicationReply where
  | submitted (application : ApplicationId) (app : Application)
  | provisioned (application : ApplicationId) (wallet : WalletId × ManagedWallet)
  | whitelisted (application : ApplicationId) (hotkey : Text)
  | rejected (application : ApplicationId)
  | walletStatus (application : ApplicationId) (wallet : WalletId × ManagedWallet)
  | refused (error : HttpError)

/-- The tables of the wallets and of the applications, the identifier of the next application, and
what requests have been answered. -/
structure ApplicationStore where
  wallets : WalletStore
  applications : Table ApplicationId Application
  nextApplication : ApplicationId
  replies : List ApplicationReply

namespace ApplicationReply

/-- The application that the reply says is approved. -/
def approves : ApplicationReply → Option ApplicationId
  | submitted application app => if app.status = .approved then some application else none
  | provisioned application _ | whitelisted application _ => some application
  | _ => none

/-- The `funding_address` of the reply, and the application it is for. -/
def fundingAddress : ApplicationReply → Option (ApplicationId × Text)
  | provisioned application wallet | walletStatus application wallet =>
    some (application, wallet.2.coldkeySs58)
  | _ => none

end ApplicationReply

/-! ## Transactions -/

namespace ApplicationStore

/-- `create_application`, under a new identifier. -/
def createApplication (app : Application) (s : ApplicationStore) :
    ApplicationStore × ApplicationId :=
  ({ s with
      applications := s.applications.insert s.nextApplication app
      nextApplication := s.nextApplication + 1 },
    s.nextApplication)

/-- `update_application_status` -/
def updateApplicationStatus (application : ApplicationId) (status : ApplicationStatus)
    (s : ApplicationStore) : ApplicationStore × Option Application :=
  let written := s.applications.modify application fun app ↦ { app with status := status }
  ({ s with applications := written }, written.get? application)

end ApplicationStore

/-- The operations of the wallet service, those on applications, and `respond`. -/
inductive ApplicationOp where
  | wallet (o : WalletOp)
  | createApplication (app : Application)
  | updateApplicationStatus (application : ApplicationId) (status : ApplicationStatus)
  | isWhitelisted (hotkey : Text)
  | respond (reply : ApplicationReply)

/-- What each answers. -/
abbrev ApplicationOp.Ans : ApplicationOp → Type
  | wallet o => o.Ans
  | createApplication _ => ApplicationId
  | updateApplicationStatus .. => Option Application
  | isWhitelisted _ => Bool
  | respond _ => Unit

/-- The interface of the validator's routes. -/
abbrev Applications : Interface := ⟨ApplicationOp, ApplicationOp.Ans⟩

/-- One transaction or call, with its answer. -/
def ApplicationOp.exec : (o : ApplicationOp) → ApplicationStore → ApplicationStore × o.Ans
  | wallet o, s => ({ s with wallets := (o.exec s.wallets).1 }, (o.exec s.wallets).2)
  | createApplication app, s => s.createApplication app
  | updateApplicationStatus application status, s => s.updateApplicationStatus application status
  | isWhitelisted hotkey, s => (s, hotkey ∈ s.wallets.whitelist)
  | respond reply, s => ({ s with replies := s.replies ++ [reply] }, ())

/-! ## The routes -/

/-- A form as it was sent: whether its `details` are absent or a JSON object, and how large its files
are. -/
structure ApplicationForm where
  hotkey : Text
  payoutAddress : Text
  detailsParse : Bool
  fileSizes : List ℕ

/-- What the automated review comes to, where it is enabled. -/
inductive AutomatedReview where
  | disabled
  | errored
  | approve
  | reject
  deriving DecidableEq

namespace ApplicationRoutes

/-- One operation as a program. -/
def call (o : ApplicationOp) : Program Applications o.Ans := Program.op (I := Applications) o

/-- A method of the wallet service. -/
def onWallets {α : Type} (p : Program Wallets α) : Program Applications α :=
  p.embed (J := Applications) .wallet fun _ r ↦ r

/-- A reply with an error. -/
def refuse (status : ℕ) (detail : String) : Program Applications Unit :=
  call (.respond (.refused ⟨status, detail.toList⟩))

/-- `_MAX_FILE_BYTES` -/
def maxFileBytes : ℕ := 15 * 1024 * 1024

/-- `_MAX_TOTAL_UPLOAD_BYTES` -/
def maxTotalUploadBytes : ℕ := 60 * 1024 * 1024

/-- The uploads are within the limits, `total` bytes having been read. -/
def uploadsFit (total : ℕ) : List ℕ → Bool
  | [] => true
  | size :: sizes =>
    if maxFileBytes < size ∨ maxTotalUploadBytes < total + size then false
    else uploadsFit (total + size) sizes

/-- `_run_automated_review`: the status of the application, and whether to whitelist. -/
def runAutomatedReview : AutomatedReview → ApplicationStatus × Bool
  | .disabled | .errored => (.pending, false)
  | .approve => (.approved, true)
  | .reject => (.rejected, false)

/-- `submit_application` -/
def submitApplication (blake2b : List ℕ → List ℕ) (form : ApplicationForm)
    (review : AutomatedReview) : Program Applications Unit :=
  let hotkey := form.hotkey.strip
  let payoutAddress := form.payoutAddress.strip
  if hotkey = [] ∧ payoutAddress = [] then
    refuse 400 "either hotkey (self-custody) or payout_address (managed wallet) is required"
  else if hotkey ≠ [] ∧ payoutAddress ≠ [] then
    refuse 400 "provide either hotkey or payout_address, not both"
  else if payoutAddress ≠ [] ∧ isValidSs58 blake2b payoutAddress = false then
    refuse 400 ("payout_address is not a valid Bittensor (SS58) address — " ++
      "check for a mistyped or missing character")
  else if form.detailsParse = false then refuse 400 "details must be valid JSON"
  else if uploadsFit 0 form.fileSizes = false then
    refuse 413 "uploaded files exceed the size limit"
  else do
    let outcome := runAutomatedReview review
    let app : Application :=
      { hotkey := hotkey
        payoutAddress := if payoutAddress = [] then none else some payoutAddress
        status := outcome.1 }
    let application ← call (.createApplication app)
    -- The applicant is whitelisted under their hotkey, also when they gave none.
    if outcome.2 then
      let listed ← call (.isWhitelisted app.hotkey)
      if listed = false then call (.wallet (.addWhitelistEntry app.hotkey))
    call (.respond (.submitted application app))

/-- `approve_application`. `netuid` is that of the service for managed wallets, where there is one;
`coldkey` and `hotkey` are the keys it makes. -/
def approveApplication (blake2b : List ℕ → List ℕ) (netuid : Option ℕ)
    (application : ApplicationId) (coldkey hotkey : GeneratedKeypair) :
    Program Applications Unit := do
  match ← call (.updateApplicationStatus application .approved) with
  | none => refuse 404 "application not found"
  | some app =>
    let payoutAddress := app.payoutAddress.getD []
    if payoutAddress ≠ [] ∧ app.hotkey = [] then
      match netuid with
      | none => refuse 503 "managed wallets are not enabled on this validator"
      | some netuid => do
        match ← onWallets (ManagedWalletService.provisionForApplication blake2b netuid application
            payoutAddress (coldkey.ss58Address, hotkey.ss58Address)) with
        | none => refuse 502 "could not provision wallet"
        | some wallet => call (.respond (.provisioned application wallet))
    else do
      call (.wallet (.addWhitelistEntry app.hotkey))
      call (.respond (.whitelisted application app.hotkey))

/-- `reject_application` -/
def rejectApplication (application : ApplicationId) : Program Applications Unit := do
  match ← call (.updateApplicationStatus application .rejected) with
  | none => refuse 404 "application not found"
  | some _ => call (.respond (.rejected application))

/-- `managed_wallet_status`, with `wallet_status`. -/
def managedWalletStatus (enabled : Bool) (application : ApplicationId) :
    Program Applications Unit :=
  if enabled = false then refuse 503 "managed wallets are not enabled on this validator"
  else do
    match ← call (.wallet (.getManagedWalletByApplication application)) with
    | none => refuse 404 "no managed wallet for this application"
    | some wallet => call (.respond (.walletStatus application wallet))

end ApplicationRoutes

/-! ## Calls -/

/-- The requests, the ticks of the wallets, and what happens around them. -/
inductive ApplicationCall where
  | submitApplication (form : ApplicationForm) (review : AutomatedReview)
  | approveApplication (netuid : Option ℕ) (application : ApplicationId)
      (coldkey hotkey : GeneratedKeypair)
  | rejectApplication (application : ApplicationId)
  | managedWalletStatus (enabled : Bool) (application : ApplicationId)
  | tickFunding
  | tickRegistration
  | tickPayouts
  | intervene (id : WalletId) (how : Intervention)
  | advance (seconds : Time)
  | setChain (chain : ChainState)

section

variable (blake2b : List ℕ → List ℕ)

open ApplicationRoutes in
/-- The method each call runs. -/
def ApplicationCall.body : ApplicationCall → Program Applications Unit
  | submitApplication form review => ApplicationRoutes.submitApplication blake2b form review
  | approveApplication netuid application coldkey hotkey =>
    ApplicationRoutes.approveApplication blake2b netuid application coldkey hotkey
  | rejectApplication application => ApplicationRoutes.rejectApplication application
  | managedWalletStatus enabled application =>
    ApplicationRoutes.managedWalletStatus enabled application
  | tickFunding => onWallets (WalletCall.tickFunding.body blake2b)
  | tickRegistration => onWallets (WalletCall.tickRegistration.body blake2b)
  | tickPayouts => onWallets (WalletCall.tickPayouts.body blake2b)
  | intervene id how => onWallets ((WalletCall.intervene id how).body blake2b)
  | advance seconds => onWallets ((WalletCall.advance seconds).body blake2b)
  | setChain chain => onWallets ((WalletCall.setChain chain).body blake2b)

/-- The validator's routes for applications, with the ticks of its wallets. -/
def applications : Service Applications ApplicationCall ApplicationStore where
  exec := ApplicationOp.exec
  body := ApplicationCall.body blake2b

end

end GreenCompute
