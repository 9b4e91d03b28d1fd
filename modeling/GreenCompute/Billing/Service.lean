import GreenCompute.Billing.Repository
import GreenCompute.Foundations.Interleaving
import GreenCompute.Foundations.Rounding

/-!
# The billing service

The methods of the billing service as programs over the repository's transactions. Each call of a
repository method is one committed transaction, so other calls may run between any two of them.

What a method only sends (emails, alerts, log lines) is left out; what it returns or raises is
kept as a value of an outcome type. Amounts that the source keeps in floating point are exact
rationals here.
-/

namespace GreenCompute

open BillingRepository (DepositFields ConfirmResult CreditResult LinkResult ReviewRequest
  EarlierCredit CreditOwner txKey)

/-! ## The interface to the database -/

/-- The transactions the service makes, and what it reads from its surroundings. The last two
constructors are the surroundings themselves: time passes and prices change. -/
inductive BillingOp where
  | now
  | getPrice (base : BaseCurrency)
  | depositAddressFor (currency : Currency)
  | countPendingInvoices (u : UserId)
  | reservedInvoiceUnits (currency : Currency) (address : Text) (expiredSince : Time)
  | createCryptoInvoice (id : InvoiceId) (invoice : CryptoInvoice)
  | getCryptoInvoice (id : InvoiceId)
  | getInvoiceReview (id : InvoiceId)
  | confirmAndCreditInvoice (id : InvoiceId) (txHash : Text) (depositRef : Option DepositRef)
      (allowExpired : Bool) (creditCents : Option ℤ)
  | expireStalePendingInvoices (graceSeconds : Time)
  | rejectCryptoInvoice (id : InvoiceId) (reason note : Option Text)
  | requestInvoiceReview (id : InvoiceId) (u : UserId) (txHash : Text) (note : Option Text)
  | setReviewStatus (id : InvoiceId) (review : ReviewStatus) (paidTx reason note : Option Text)
  | pendingInvoices (currency : Currency) (address : Text)
  | recentlyExpiredInvoices (currency : Currency) (address : Text) (expiredSince : Time)
  | recordDeposit (t : Transfer)
  | getDeposit (ref : TransferRef)
  | markDeposit (ref : TransferRef) (fields : DepositFields)
  | markDepositsByTx (currency : Option Currency) (txHash : Text) (fields : DepositFields)
  | earlierCredit (ref : TransferRef) (txHash : Option Text)
  | txCreditOwner (txHash : Text)
  | creditDeposit (ref : TransferRef) (u : UserId) (amountCents : ℤ) (matchedBy : MatchedBy)
  | ignoreDeposit (ref : TransferRef)
  | unmatchedDepositsFrom (sender : Text) (currencies : List Currency) (since : Time)
  | addVerifiedWallet (u : UserId) (chain : Chain) (address : Text)
  | walletOwner (chain : Chain) (address : Text)
  | advance (seconds : Time)
  | setPrice (base : BaseCurrency) (price : ℚ)

/-- What each transaction answers. -/
abbrev BillingOp.Ans : BillingOp → Type
  | now => Time
  | getPrice _ => ℚ
  | depositAddressFor _ => Text
  | countPendingInvoices _ => ℕ
  | reservedInvoiceUnits .. => List ℤ
  | createCryptoInvoice .. => Bool
  | getCryptoInvoice _ | getInvoiceReview _ => Option CryptoInvoice
  | confirmAndCreditInvoice .. => ConfirmResult
  | expireStalePendingInvoices _ => ℕ
  | rejectCryptoInvoice .. => Option CryptoInvoice
  | requestInvoiceReview .. => ReviewRequest
  | pendingInvoices .. | recentlyExpiredInvoices .. => List (InvoiceId × CryptoInvoice)
  | recordDeposit _ => DepositStatus
  | getDeposit _ => Option CryptoDeposit
  | earlierCredit .. => Option EarlierCredit
  | txCreditOwner _ => Option CreditOwner
  | creditDeposit .. => CreditResult
  | unmatchedDepositsFrom .. => List (TransferRef × CryptoDeposit)
  | addVerifiedWallet .. => LinkResult
  | walletOwner .. => Option UserId
  | setReviewStatus .. | markDeposit .. | markDepositsByTx .. | ignoreDeposit _ | advance _
  | setPrice .. => Unit

/-- The interface of the billing service. -/
abbrev Billing : Interface := ⟨BillingOp, BillingOp.Ans⟩

/-- One transaction, with its answer. Every transaction sees all that was committed before it. -/
def BillingOp.exec : (o : BillingOp) → Db → Db × o.Ans
  | now, db => (db, db.now)
  | getPrice base, db => (db, db.price base)
  | depositAddressFor currency, db => (db, db.depositAddress currency)
  | countPendingInvoices u, db => (db, BillingRepository.countPendingInvoices u db)
  | reservedInvoiceUnits c a since, db => (db, BillingRepository.reservedInvoiceUnits c a since db)
  | createCryptoInvoice id inv, db => BillingRepository.createCryptoInvoice id inv db
  | getCryptoInvoice id, db => (db, BillingRepository.getCryptoInvoice id db)
  | getInvoiceReview id, db => (db, BillingRepository.getCryptoInvoice id db)
  | confirmAndCreditInvoice id tx ref expired cents, db =>
    BillingRepository.confirmAndCreditInvoice 0 id tx ref expired cents db
  | expireStalePendingInvoices g, db => BillingRepository.expireStalePendingInvoices g db
  | rejectCryptoInvoice id reason note, db =>
    BillingRepository.rejectCryptoInvoice id reason note db
  | requestInvoiceReview id u tx note, db =>
    BillingRepository.requestInvoiceReview id u tx note db
  | setReviewStatus id review paid reason note, db =>
    (BillingRepository.setReviewStatus id review paid reason note db, ())
  | pendingInvoices c a, db => (db, BillingRepository.pendingInvoices c a db)
  | recentlyExpiredInvoices c a since, db =>
    (db, BillingRepository.recentlyExpiredInvoices c a since db)
  | recordDeposit t, db => BillingRepository.recordDeposit t db
  | getDeposit ref, db => (db, BillingRepository.getDeposit ref db)
  | markDeposit ref fields, db => (BillingRepository.markDeposit ref fields db, ())
  | markDepositsByTx c tx fields, db => (BillingRepository.markDepositsByTx c tx fields db, ())
  | earlierCredit ref tx, db => (db, BillingRepository.earlierCredit ref tx db)
  | txCreditOwner tx, db => (db, BillingRepository.txCreditOwner tx db)
  | creditDeposit ref u cents how, db => BillingRepository.creditDeposit 0 ref u cents how db
  | ignoreDeposit ref, db => (BillingRepository.ignoreDeposit ref db, ())
  | unmatchedDepositsFrom s cs since, db =>
    (db, BillingRepository.unmatchedDepositsFrom s cs since db)
  | addVerifiedWallet u c a, db => BillingRepository.addVerifiedWallet u c a db
  | walletOwner c a, db => (db, BillingRepository.walletOwner c a db)
  | advance seconds, db => ({ db with now := db.now + max 0 seconds }, ())
  | setPrice base p, db => ({ db with price := Function.update db.price base p }, ())

namespace BillingService

/-- One transaction as a program. -/
def call (o : BillingOp) : Program Billing o.Ans := Program.op (I := Billing) o

/-! ## Amounts -/

/-- `LATE_PAYMENT_WINDOW`: 24 hours. -/
def latePaymentWindow : Time := 24 * 3600

/-- `WALLET_LINK_LOOKBACK`: 30 days. -/
def walletLinkLookback : Time := 30 * 24 * 3600

/-- `WALLET_CHALLENGE_TTL`: 15 minutes. -/
def walletChallengeTtl : Time := 15 * 60

/-- `_exact_amount`: does the transfer pay exactly what the invoice asked for? -/
def exactAmount (inv : CryptoInvoice) (t : TransferInfo) : Bool :=
  match inv.amountUnits with
  | none => false
  | some units =>
    let scale : ℚ := 10 ^ t.decimals / 10 ^ 6
    let tolerance : ℚ := if 9 ≤ t.decimals then 100 else 0
    |(t.amountRaw : ℚ) - units * scale| ≤ tolerance

/-- `_value_at_invoice_rate` -/
def valueAtInvoiceRate (inv : CryptoInvoice) (amount : ℚ) : ℤ :=
  let rate : ℚ :=
    if inv.currency.base.isStable then 1
    else if inv.amountCrypto = 0 then 0 else inv.amountUsd / inv.amountCrypto
  let cents := roundHalfEven (amount * rate * 100)
  cents + roundHalfEven (cents * inv.bonusPct)

/-- The price of one token: the one recorded with the transfer, one dollar for a stablecoin, or
the feed's. -/
def unitPrice (currency : Currency) (usdPrice : Option ℚ) : Program Billing ℚ :=
  match usdPrice with
  | some p => pure p
  | none => if currency.base.isStable then pure 1 else call (.getPrice currency.base)

/-- `deposit_value_cents` -/
def depositValueCents (currency : Currency) (amount : ℚ) (usdPrice : Option ℚ) :
    Program Billing ℤ := do
  let price ← unitPrice currency usdPrice
  let cents := roundHalfEven (amount * price * 100)
  return cents + roundHalfEven (cents * currency.base.bonusRate)

/-! ## Invoices -/

/-- The outcomes of `create_crypto_invoice`. -/
inductive CreateOutcome where
  | noAddress
  | noPrice
  | tooManyOpenInvoices
  | couldNotReserve
  | created (id : InvoiceId)

/-- `MAX_PENDING_INVOICES_PER_USER` -/
def maxPendingInvoicesPerUser : ℕ := 5

/-- The attempts of `create_crypto_invoice` to take an amount that no other invoice asks for.
`draw` supplies the random identifier and the random choice of each attempt. -/
def reserveAmount (currency : Currency) (address : Text) (maxExtra : ℕ) (baseUnits : ℤ)
    (invoice : Time → ℤ → CryptoInvoice) (draw : ℕ → InvoiceId × ℕ) :
    ℕ → Program Billing CreateOutcome
  | 0 => pure .couldNotReserve
  | n + 1 => do
    let now ← call .now
    let taken ← call (.reservedInvoiceUnits currency address (now - latePaymentWindow))
    let free := ((List.range maxExtra).map (· + 1)).filter fun e : ℕ ↦ baseUnits + e ∉ taken
    let extra := if free = [] then maxExtra + 1 + taken.dedup.length
      else free.getD ((draw n).2 % free.length) 0
    let inserted ← call (.createCryptoInvoice (draw n).1 (invoice now (baseUnits + extra)))
    if inserted then pure (.created (draw n).1)
    else reserveAmount currency address maxExtra baseUnits invoice draw n

/-- How many tokens an amount in dollars is: to six decimals at the feed's price, or none where
there is no price. -/
def cryptoAmount (base : BaseCurrency) (amountUsd : ℚ) : Program Billing ℚ :=
  if base.isStable then pure amountUsd
  else do
    let price ← call (.getPrice base)
    pure (if 0 < price then (roundHalfEven (amountUsd / price * 10 ^ 6) : ℚ) / 10 ^ 6 else 0)

/-- `create_crypto_invoice` -/
def createCryptoInvoice (u : UserId) (currency : Currency) (amountUsd : ℚ)
    (draw : ℕ → InvoiceId × ℕ) : Program Billing CreateOutcome := do
  let base := currency.base
  let baseCents := roundHalfEven (amountUsd * 100)
  let totalCredits := baseCents + roundHalfEven (baseCents * base.bonusRate)
  let amountCrypto ← cryptoAmount base amountUsd
  let address ← call (.depositAddressFor currency)
  if address = [] then pure .noAddress
  else if amountCrypto ≤ 0 then pure .noPrice
  else do
    let pending ← call (.countPendingInvoices u)
    if maxPendingInvoicesPerUser ≤ pending then pure .tooManyOpenInvoices
    else
      let usdPerToken := if base.isStable then 1 else amountUsd / amountCrypto
      let baseUnits := roundHalfEven (amountCrypto * 10 ^ 6)
      let maxExtra := max 20 (min 9999 ⌊1 / 100 / usdPerToken * 10 ^ 6⌋.toNat)
      reserveAmount currency address maxExtra baseUnits
        (fun now units ↦
          { userId := u
            currency := currency
            amountCrypto := units / 10 ^ 6
            amountUnits := some units
            amountUsd := amountUsd
            bonusPct := base.bonusRate
            totalCredits := totalCredits
            depositAddress := address
            status := .pending
            txHash := none
            expiresAt := now + 30 * 60
            createdAt := now
            reviewStatus := none
            reviewNote := none
            decisionReason := none
            decisionNote := none })
        draw 8

/-! ## On-chain deposits -/

/-- How `resolve_deposit` ended; `raised` is a `KeyError`. -/
inductive Resolution where
  | seen
  | matched (how : MatchedBy)
  | ignored
  | unmatched
  | raised
  deriving DecidableEq

/-- `if outcome: return outcome`: a rule that settles the transfer, or the rest. -/
def orElse (rule : Program Billing (Option Resolution)) (rest : Program Billing Resolution) :
    Program Billing Resolution := do
  match ← rule with
  | some outcome => pure outcome
  | none => rest

/-- The hash put on an invoice: the transfer's, or its key where it has none. -/
def recordedHash (t : Transfer) : Text :=
  match t.info.txHash with
  | some (c :: tx) => c :: tx
  | _ => t.depositRef.text

/-- `_credit_invoice`: credit an invoice for a transfer. -/
def creditInvoice (id : InvoiceId) (inv : CryptoInvoice) (t : Transfer) (how : MatchedBy)
    (creditCents : Option ℤ) (allowExpired : Bool) : Program Billing (Option Resolution) := do
  match ← call (.confirmAndCreditInvoice id (recordedHash t) (some (.transfer t.depositRef))
      allowExpired creditCents) with
  | .notFound => pure none
  | .refused _ => pure none
  | .raised => pure (some .raised)
  | .credited total _ => do
    call (.markDeposit t.depositRef
      { status := some .credited
        matchedBy := some how
        invoiceId := some (some id)
        userId := some inv.userId
        creditedCents := some total })
    pure (some (.matched how))
  -- Already credited by an earlier tick.
  | .alreadyConfirmed => do
    call (.markDeposit t.depositRef { status := some .credited })
    pure (some .seen)
  | .duplicateDeposit _ => do
    call (.markDeposit t.depositRef { status := some .credited })
    pure (some .seen)

/-- Rule 1 of `resolve_deposit`: the open invoices that ask for exactly this amount, in turn. -/
def creditExact (t : Transfer) : List (InvoiceId × CryptoInvoice) →
    Program Billing (Option Resolution)
  | [] => pure none
  | (id, inv) :: rest => do
    match ← creditInvoice id inv t .invoice none false with
    | some outcome => pure (some outcome)
    | none => creditExact t rest

/-- Rule 2: the one invoice that asked for exactly this amount and expired not long ago. -/
def creditLate (t : Transfer) : Program Billing (Option Resolution) := do
  let now ← call .now
  let expired ← call (.recentlyExpiredInvoices t.info.currency t.info.depositAddress
    (now - latePaymentWindow))
  match expired.filter fun r ↦ exactAmount r.2 t.info with
  | [(id, inv)] => do
    let cents ← depositValueCents t.info.currency t.info.amount t.info.usdPrice
    creditInvoice id inv t .invoiceLate (some cents) true
  | _ => pure none

/-- Rule 3: the sender is a verified wallet. -/
def creditWallet (t : Transfer) : Program Billing (Option Resolution) := do
  match t.info.currency.chain with
  | none => pure none
  | some chain => do
    match ← call (.walletOwner chain t.info.sender) with
    | none => pure none
    | some owner => do
      let cents ← depositValueCents t.info.currency t.info.amount t.info.usdPrice
      if 1 ≤ cents then do
        match ← call (.creditDeposit t.depositRef owner cents .wallet) with
        | .credited .. => pure (some (.matched .wallet))
        | .raised => pure (some .raised)
        | _ => pure (some .seen)
      else pure none

/-- Is the amount within `TOLERANT_MATCH` of what the invoice asked for? -/
def fits (amount : ℚ) (inv : CryptoInvoice) : Bool :=
  0 < inv.amountCrypto ∧ 1 / 2 * inv.amountCrypto ≤ amount ∧ amount ≤ 2 * inv.amountCrypto

/-- Rule 4, `_credit_one_customers_invoice`: every invoice it could be for is one customer's. -/
def creditOneCustomersInvoice (t : Transfer) (openInvoices : List (InvoiceId × CryptoInvoice)) :
    Program Billing (Option Resolution) := do
  let amount := t.info.amount
  let openFit := openInvoices.filter fun r ↦ fits amount r.2
  let now ← call .now
  let expired ← call (.recentlyExpiredInvoices t.info.currency t.info.depositAddress
    (now - latePaymentWindow))
  let expiredFit := expired.filter fun r ↦ fits amount r.2
  if ((openFit ++ expiredFit).map fun r ↦ r.2.userId).dedup.length ≠ 1 then pure none
  else
    match openFit, expiredFit.getLast? with
    | (id, inv) :: _, _ =>
      creditInvoice id inv t
        (if inv.amountCrypto < amount then .invoiceOverpay else .invoiceUnderpay)
        (some (valueAtInvoiceRate inv amount)) false
    | [], some (id, inv) => do
      let cents ← depositValueCents t.info.currency amount t.info.usdPrice
      creditInvoice id inv t .invoiceLate (some cents) true
    | [], none => pure none

/-- Rule 5: dust is ignored, anything else waits for somebody to claim it. -/
def leaveUnmatched (t : Transfer) : Program Billing Resolution := do
  let cents ← depositValueCents t.info.currency t.info.amount t.info.usdPrice
  if cents < 1 then do
    call (.markDeposit t.depositRef { status := some .ignored })
    pure .ignored
  else pure .unmatched

/-- The rules of `resolve_deposit` in turn, for a transfer that nothing has paid. -/
def settleUnpaid (t : Transfer) : Program Billing Resolution := do
  let invoices ← call (.pendingInvoices t.info.currency t.info.depositAddress)
  orElse (creditExact t (invoices.filter fun r ↦ exactAmount r.2 t.info))
    (orElse (creditLate t)
      (orElse (creditWallet t)
        (orElse (creditOneCustomersInvoice t invoices)
          (leaveUnmatched t))))

/-- `resolve_deposit`, once the transfer is logged and found unmatched. -/
def settleDeposit (t : Transfer) : Program Billing Resolution := do
  match ← call (.earlierCredit t.depositRef t.info.txHash) with
  | some earlier => do
    call (.markDeposit t.depositRef
      { status := some .credited
        matchedBy := some earlier.matchedBy
        invoiceId := some earlier.invoiceId
        userId := some earlier.userId
        creditedCents := some earlier.amountCents })
    pure .seen
  | none => settleUnpaid t

/-- `resolve_deposit` -/
def resolveDeposit (t : Transfer) : Program Billing Resolution := do
  let status ← call (.recordDeposit t)
  if status ≠ .unmatched then pure .seen
  else settleDeposit t

/-! ## Staff -/

/-- `_assign_deposit`: the logged deposit and the credit result. -/
def assignDepositTo (ref : TransferRef) (u : UserId) :
    Program Billing (Option (CryptoDeposit × CreditResult)) := do
  match ← call (.getDeposit ref) with
  | none => pure none
  | some dep => do
    let cents ← depositValueCents dep.info.currency dep.info.amount dep.info.usdPrice
    let result ← call (.creditDeposit ref u cents .admin)
    pure (some (dep, result))

/-- `assign_deposit` -/
def assignDeposit (ref : TransferRef) (u : UserId) : Program Billing (Option CreditResult) := do
  let r ← assignDepositTo ref u
  pure (r.map Prod.snd)

/-- The codes of `REASONS`, with the decisions each may be given for. -/
def reasonApplies (code : Text) : Bool × Bool :=
  if code ∈ ["tx_not_found".toList, "wrong_address".toList, "wrong_subnet".toList] then
    (true, false)
  else if code ∈ ["already_credited".toList, "not_linked".toList, "other".toList] then
    (true, true)
  else if code ∈ ["not_paid".toList, "duplicate".toList] then (false, true)
  else (false, false)

/-- `check_reason`: the cleaned reason and note of a staff decision, if it may be given. -/
def checkReason (code note : Option Text) (rejecting : Bool) : Option (Text × Option Text) :=
  let code := Text.strip (code.getD [])
  let note := Text.strip (note.getD [])
  let applies := reasonApplies code
  if (if rejecting then applies.2 else applies.1) = false then none
  else if code = "other".toList ∧ note = [] then none
  else if 1000 < note.length then none
  else some (code, if note = [] then none else some note)

/-- What staff can do with an open review. -/
inductive ReviewAction where
  | dismiss (reason note : Option Text)
  | creditDeposit (ref : Option TransferRef)
  | confirmInvoice

/-- How a staff method ended. -/
inductive StaffOutcome where
  | refused
  | raised
  | dismissed
  | credited
  deriving DecidableEq

/-- The key of a staff confirmation, when a hash is given. -/
def manualRef (currency : Currency) (txHash : Text) : Option DepositRef :=
  if txHash = [] then none else some (.manual currency txHash)

/-- How the logged transfers of a confirmed transaction are marked. -/
def adminFields (id : InvoiceId) (inv : CryptoInvoice) : DepositFields where
  status := some .credited
  matchedBy := some .adminInvoice
  invoiceId := some (some id)
  userId := some inv.userId
  creditedCents := some inv.totalCredits

/-- The action `credit_deposit` of `resolve_review`. -/
def reviewCreditDeposit (id : InvoiceId) (review : CryptoInvoice) (ref : TransferRef) :
    Program Billing StaffOutcome := do
  match ← assignDepositTo ref review.userId with
  | some (dep, .credited _ _) => do
    call (.setReviewStatus id .resolved (some (dep.info.txHash.getD [])) none none)
    call (.markDeposit ref { invoiceId := some (some id) })
    pure .credited
  | some (_, .raised) => pure .raised
  | _ => pure .refused

/-- The action `confirm_invoice` of `resolve_review`. -/
def reviewConfirmInvoice (id : InvoiceId) (review : CryptoInvoice) :
    Program Billing StaffOutcome := do
  let txHash := review.txHash.getD []
  match ← call (.txCreditOwner txHash) with
  | some _ => pure .refused
  | none => do
    match ← call (.confirmAndCreditInvoice id txHash (manualRef review.currency txHash) true
        none) with
    | .credited .. => do
      if txHash ≠ [] then
        call (.markDepositsByTx none txHash (adminFields id review))
      call (.setReviewStatus id .resolved none none none)
      pure .credited
    | .raised => pure .raised
    | _ => pure .refused

/-- `resolve_review` -/
def resolveReview (id : InvoiceId) (action : ReviewAction) : Program Billing StaffOutcome := do
  match ← call (.getInvoiceReview id) with
  | none => pure .raised
  | some review =>
    if review.reviewStatus ≠ some .opened then pure .refused
    else
      match action with
      | .dismiss reason note =>
        match checkReason reason note false with
        | none => pure .refused
        | some (reason, note) => do
          call (.setReviewStatus id .dismissed none (some reason) note)
          pure .dismissed
      | .creditDeposit none => pure .refused
      | .creditDeposit (some ref) => reviewCreditDeposit id review ref
      | .confirmInvoice => reviewConfirmInvoice id review

/-- The outcomes of `confirm_crypto_deposit`. -/
inductive ConfirmOutcome where
  | notFound
  | alreadyCredited
  | result (r : ConfirmResult)
  deriving DecidableEq

/-- `confirm_crypto_deposit` -/
def confirmCryptoDeposit (id : InvoiceId) (txHash : Text) : Program Billing ConfirmOutcome := do
  match ← call (.getCryptoInvoice id) with
  | none => pure .notFound
  | some invoice => do
    let paid ← call (.txCreditOwner txHash)
    if paid.isSome ∧ invoice.status ≠ .confirmed then pure .alreadyCredited
    else do
      let result ← call (.confirmAndCreditInvoice id txHash (manualRef invoice.currency txHash)
        false none)
      match result with
      | .credited .. => do
        if txHash ≠ [] then
          call (.markDepositsByTx none txHash (adminFields id invoice))
        pure (.result result)
      | _ => pure (.result result)

/-- `reject_invoice`: true when the invoice is rejected, now or before. -/
def rejectInvoice (id : InvoiceId) (reason note : Option Text) : Program Billing Bool := do
  match checkReason reason note true with
  | none => pure false
  | some (reason, note) => do
    match ← call (.getInvoiceReview id) with
    | none => pure false
    | some before =>
      if before.status = .confirmed then pure false
      else do
        let inv ← call (.rejectCryptoInvoice id (some reason) note)
        pure inv.isSome

/-! ## Verified wallets -/

/-- The deposits of `claim_wallet_deposits` in turn; the result is what was credited. -/
def claimEach (u : UserId) : List (TransferRef × CryptoDeposit) →
    Program Billing (List TransferRef)
  | [] => pure []
  | (ref, dep) :: rest => do
    let cents ← depositValueCents dep.info.currency dep.info.amount dep.info.usdPrice
    if cents < 1 then claimEach u rest
    else do
      match ← call (.creditDeposit ref u cents .walletLink) with
      | .credited .. => do
        let refs ← claimEach u rest
        pure (ref :: refs)
      | .raised => pure []
      | _ => claimEach u rest

/-- The currencies a chain's wallets can send. -/
def chainCurrencies : Chain → List Currency
  | .bittensor => [.tao, .alpha]
  | .evm => [.usdtEth, .usdcEth, .usdtBase, .usdcBase]

/-- `claim_wallet_deposits` -/
def claimWalletDeposits (u : UserId) (chain : Chain) (address : Text) :
    Program Billing (List TransferRef) := do
  let now ← call .now
  let deposits ← call (.unmatchedDepositsFrom address (chainCurrencies chain)
    (now - walletLinkLookback))
  claimEach u deposits

/-- The outcomes of `link_wallet`. -/
inductive LinkOutcome where
  | challengeExpired
  | badSignature
  | refused (r : LinkResult)
  | linked (credited : List TransferRef)

/-- `link_wallet`, for a canonical address. `verified` is whether the signature is the wallet's
signature of the challenge. -/
def linkWallet (u : UserId) (chain : Chain) (address : Text) (issuedAt : Time) (verified : Bool) :
    Program Billing LinkOutcome := do
  let now ← call .now
  let age := now - issuedAt
  if walletChallengeTtl < age ∨ age < -60 then pure .challengeExpired
  else if verified = false then pure .badSignature
  else do
    match ← call (.addVerifiedWallet u chain address) with
    | .linked _ => do
      let credited ← claimWalletDeposits u chain address
      pure (.linked credited)
    | r => pure (.refused r)

end BillingService

/-! ## Calls -/

/-- The calls anyone may make against the billing service, and what happens around it. -/
inductive BillingCall where
  | createCryptoInvoice (u : UserId) (currency : Currency) (amountUsd : ℚ)
      (draw : ℕ → InvoiceId × ℕ)
  | resolveDeposit (t : Transfer)
  | requestInvoiceReview (id : InvoiceId) (u : UserId) (txHash : Text) (note : Option Text)
  | resolveReview (id : InvoiceId) (action : BillingService.ReviewAction)
  | confirmCryptoDeposit (id : InvoiceId) (txHash : Text)
  | assignDeposit (ref : TransferRef) (u : UserId)
  | claimWalletDeposits (u : UserId) (chain : Chain) (address : Text)
  | linkWallet (u : UserId) (chain : Chain) (address : Text) (issuedAt : Time) (verified : Bool)
  | rejectInvoice (id : InvoiceId) (reason note : Option Text)
  | expireStalePendingInvoices (graceSeconds : Time)
  | ignoreDeposit (ref : TransferRef)
  | advance (seconds : Time)
  | setPrice (base : BaseCurrency) (price : ℚ)

/-- Run a method for its effect. -/
def Program.discard {I : Interface} {α : Type} (p : Program I α) : Program I Unit :=
  p >>= fun _ ↦ .done ()

open BillingService in
/-- The method each call runs. -/
def BillingCall.body : BillingCall → Program Billing Unit
  | createCryptoInvoice u c usd draw => (BillingService.createCryptoInvoice u c usd draw).discard
  | resolveDeposit t => (BillingService.resolveDeposit t).discard
  | requestInvoiceReview id u tx note => (call (.requestInvoiceReview id u tx note)).discard
  | resolveReview id action => (BillingService.resolveReview id action).discard
  | confirmCryptoDeposit id tx => (BillingService.confirmCryptoDeposit id tx).discard
  | assignDeposit ref u => (BillingService.assignDeposit ref u).discard
  | claimWalletDeposits u chain address =>
    (BillingService.claimWalletDeposits u chain address).discard
  | linkWallet u chain address issuedAt verified =>
    (BillingService.linkWallet u chain address issuedAt verified).discard
  | rejectInvoice id reason note => (BillingService.rejectInvoice id reason note).discard
  | expireStalePendingInvoices g => (call (.expireStalePendingInvoices g)).discard
  | ignoreDeposit ref => call (.ignoreDeposit ref)
  | advance seconds => call (.advance seconds)
  | setPrice base p => call (.setPrice base p)

/-- The billing service: the database, its transactions and the calls made against it. -/
def billing : Service Billing BillingCall Db where
  exec := BillingOp.exec
  body := BillingCall.body

/-- Nothing has been paid yet: no entry, no logged deposit, no confirmed invoice. Users, wallets
and open invoices are arbitrary. -/
structure Db.Fresh (db : Db) : Prop where
  ledger : db.ledger = []
  deposits : db.deposits.rows = []
  invoices : ∀ id inv, db.invoices.get? id = some inv → inv.status ≠ .confirmed

/-! ## Sample data

Two open invoices and a transfer that pays the first one exactly, for the runs that are exhibited
in the modules on payments. -/

/-- An open invoice of 20 USDT on Ethereum. -/
def openInvoice (u : UserId) (units : ℤ) : CryptoInvoice where
  userId := u
  currency := .usdtEth
  amountCrypto := 20
  amountUnits := some units
  amountUsd := 20
  bonusPct := 0
  totalCredits := 2000
  depositAddress := "0xd".toList
  status := .pending
  txHash := none
  expiresAt := 1800
  createdAt := 0
  reviewStatus := none
  reviewNote := none
  decisionReason := none
  decisionNote := none

/-- Two customers with an open invoice each. -/
def twoInvoices : World Billing BillingCall Db where
  store :=
    { users := .ofRows [(1, ⟨"ada".toList, none, none, none, none, [], 0⟩),
        (2, ⟨"bob".toList, none, none, none, none, [], 0⟩)]
      ledger := []
      invoices := .ofRows [(1, openInvoice 1 20000001), (2, openInvoice 2 20000002)]
      deposits := .empty
      wallets := .empty
      stripeSessions := .empty
      now := 0
      price := fun _ ↦ 0
      depositAddress := fun _ ↦ "0xd".toList }
  threads := []

theorem twoInvoices_fresh : twoInvoices.store.Fresh := by
  refine ⟨rfl, rfl, fun id inv h ↦ ?_⟩
  have hmem := Table.mem_rows_iff.mpr h
  simp only [twoInvoices, Table.ofRows, List.mem_cons, Prod.mk.injEq, List.not_mem_nil,
    or_false] at hmem
  rcases hmem with ⟨-, rfl⟩ | ⟨-, rfl⟩ <;> simp [openInvoice]

theorem trimmed_0xab : Text.Trimmed "0xab".toList := by
  decide

/-- A transfer that pays the first invoice exactly, as the first log of a transaction. -/
def exactTransfer (txHash : Text) (h : Text.Trimmed txHash := by decide) : Transfer where
  depositRef := .evm .usdtEth txHash 0
  info :=
    { currency := .usdtEth
      txHash := some txHash
      sender := "0xs".toList
      depositAddress := "0xd".toList
      amountRaw := 20000001
      decimals := 6
      usdPrice := some 1
      trimmed := by
        rintro tx ⟨⟩
        exact h }

end GreenCompute
