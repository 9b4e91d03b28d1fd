import GreenCompute.Billing.Tables
import GreenCompute.Foundations.Rounding
import GreenCompute.Foundations.Words
import Mathlib.Data.Finset.Card
import Mathlib.Data.List.MinMax

/-!
# The automated review of an application

A vision model reads each certificate that was uploaded, registries are asked about the best one
that is eligible, and the policy decides. The judgement of documents is the reviewer's; eligibility,
the choice of the certificate and the gates are computed here.

What the reviewer and the registries answer is given with the review, call by call, and no answer
means that the call raised, which leaves the application to a human. The functions of the language's
library that depend on its tables of characters, dates and numbers come with the review as well, and
so does the conformance check of the declared nodes.
-/

namespace GreenCompute

/-! ## What the review is built on -/

/-- Functions of the language's library: on characters, on dates, and the texts of values. -/
structure Library where
  lower : Text → Text
  lower_nil : lower [] = []
  isAlnum : Char → Bool
  /-- `datetime.strptime(text, format)`, in UTC. -/
  strptime : Text → Text → Option Time
  /-- `datetime.fromisoformat`, in UTC where the text names no offset. -/
  fromIsoFormat : Text → Option Time
  str : Json → Text
  /-- `repr` of a text or of `None`. -/
  repr : Option Text → Text
  /-- The text of a number or of `None`. -/
  number : Option ℚ → Text
  /-- The text of a number with two decimals. -/
  twoDecimals : ℚ → Text

/-- What the vision model extracted from one energy certificate. -/
structure CertAssessment where
  filename : Text := []
  isGenuine : Bool := false
  scheme : Option Text := none
  certificateNumber : Option Text := none
  holderName : Option Text := none
  identifiesHolderAsGenerator : Option Bool := none
  renewablePercent : Option ℚ := none
  issueDate : Option Text := none
  validUntil : Option Text := none
  authenticityConcerns : List Text := []
  confidence : ℚ := 0
  notes : Text := []

/-- What the vision model extracted from a certificate of accreditation. -/
structure AccreditationAssessment where
  filename : Text := []
  isGenuine : Bool := false
  kind : Option Text := none
  holderName : Option Text := none
  valid : Option Bool := none
  confidence : ℚ := 0
  notes : Text := []

structure RegistryResult where
  available : Bool := false
  matched : Option Bool := none
  detail : Text := []
  source : Text := []

/-- The registry exists, and contradicts the claim. -/
def RegistryResult.contradicts (r : RegistryResult) : Bool := r.available && r.matched = some false

structure CheckResult where
  name : Text
  passed : Bool
  reason : Text := []
  hardGate : Bool := true

/-- What the conformance check says of the declared nodes. -/
structure SpecAssessment where
  conformant : Option Bool
  flags : List Text

inductive Decision where
  | approve
  | reject
  deriving DecidableEq

structure ReviewDecision where
  decision : Decision
  confidence : ℚ
  reasons : List Text
  checks : List CheckResult
  winningCertificate : Option Text
  signatureVerified : Bool
  registry : RegistryResult
  specAssessment : SpecAssessment
  certAssessments : List CertAssessment
  accreditationAssessments : List AccreditationAssessment

inductive AttachmentKind where
  | energy
  | accreditation
  | other
  deriving DecidableEq

structure ReviewAttachment where
  filename : Text
  contentType : Text
  data : List UInt8

/-- `CertReviewer`: the answer of the `n`th call. -/
structure CertReviewer where
  reviewEnergyCertificate (n : ℕ) (attachment : ReviewAttachment) (declaredOrg : Text)
    (declaredSources : List Text) : Option CertAssessment
  reviewAccreditation (n : ℕ) (attachment : ReviewAttachment) (declaredOrg : Text) :
    Option AccreditationAssessment

structure RegistryVerifier where
  verifyCertificate (scheme certificateNumber holderName country : Option Text) :
    Option RegistryResult
  verifyCompany (name : Text) (registrationNumber country : Option Text) : Option RegistryResult

namespace Json

/-- `get(key)` of a dictionary. -/
def get (key : Text) : Json → Option Json
  | obj items => items.lookup key
  | _ => none

/-- The value itself if it is a dictionary, else an empty one. -/
def asDict : Json → Json
  | obj items => obj items
  | _ => obj []

/-- A key of a dictionary that holds a dictionary, else an empty one. -/
def dictAt (key : Text) (details : Json) : Json := ((details.get key).getD (obj [])).asDict

def isNonemptyList : Json → Bool
  | arr items => !items.isEmpty
  | _ => false

end Json

/-! ## Helpers -/

namespace Library

variable (lib : Library)

/-- `ReviewAttachment.kind` -/
def kind (att : ReviewAttachment) : AttachmentKind :=
  let name := lib.lower att.filename
  if "energy-".toList <+: name then .energy
  else if "accred-".toList <+: name then .accreditation
  else .other

/-- The characters of a scheme that are letters or digits, in lower case. -/
def schemeToken (scheme : Text) : Text := (lib.lower scheme).filter lib.isAlnum

/-- `_normalize_scheme` -/
def normalizeScheme : Option Text → Option Text
  | none => none
  | some scheme =>
    if scheme = [] then none
    else
      let s := lib.schemeToken scheme
      if s ∈ ["itrack".toList, "itracke".toList, "itrackeu".toList] then some "itrack".toList
      else if s ∈ ["guaranteeoforigin".toList, "guaranteesoforigin".toList] then some "goo".toList
      else if "rego".toList <+: s then some "rego".toList
      else if "rec".toList <+: s ∨
          s ∈ ["renewableenergycertificate".toList, "renewableenergycredits".toList] then
        some "rec".toList
      else some s

/-- `ACCEPTED_SCHEMES` -/
def acceptedSchemes : List Text := ["rego".toList, "goo".toList, "rec".toList, "itrack".toList]

/-- The words that a name is compared without. -/
def companySuffixes : List Text :=
  ["ltd", "limited", "llc", "inc", "incorporated", "gmbh", "plc", "co", "company", "corp",
    "corporation", "the", "bv", "sa", "ag", "srl"].map String.toList

/-- `replace("  ", " ")` -/
def replaceDoubleBlank : Text → Text
  | ' ' :: ' ' :: t => ' ' :: replaceDoubleBlank t
  | c :: t => c :: replaceDoubleBlank t
  | [] => []

/-- `replace(c, " ")` -/
def blankOut (c : Char) (t : Text) : Text := t.map fun d ↦ if d = c then ' ' else d

/-- The words of a name that count. -/
def significantWords (name : Option Text) : List Text :=
  let s := replaceDoubleBlank
    (blankOut '&' (blankOut '.' (blankOut ',' (lib.lower (name.getD [])))))
  (Text.words Text.isBlank s).filter fun w ↦ decide (w ∉ companySuffixes)

/-- `_norm_name` -/
def normName (name : Option Text) : Text :=
  if name.getD [] = [] then [] else Text.strip (Text.unwords (lib.significantWords name))

/-- `_names_match` -/
def namesMatch (a b : Option Text) : Bool :=
  let na := lib.normName a
  let nb := lib.normName b
  if na = [] ∨ nb = [] then false
  else if na = nb ∨ na <:+: nb ∨ nb <:+: na then true
  else
    let ta := (Text.words Text.isBlank na).toFinset
    let tb := (Text.words Text.isBlank nb).toFinset
    if ta = ∅ ∨ tb = ∅ then false
    else decide (max 1 (min ta.card tb.card) ≤ (ta ∩ tb).card)

/-- The formats that dates are tried in. -/
def dateFormats : List Text :=
  ["%Y-%m-%d", "%Y/%m/%d", "%d/%m/%Y", "%d-%m-%Y", "%Y-%m", "%Y"].map String.toList

/-- `_parse_date` -/
def parseDate : Option Text → Option Time
  | none => none
  | some value =>
    if value = [] then none
    else
      let raw := Text.strip value
      (dateFormats.findSome? fun fmt ↦ lib.strptime (raw.take (fmt.length + 4)) fmt).or
        (lib.fromIsoFormat (raw.flatMap fun c ↦ if c = 'Z' then "+00:00".toList else [c]))

/-- `MAX_CERTIFICATE_AGE_DAYS`, in seconds. -/
def maxCertificateAge : Time := 365 * 86400

/-- `MIN_RENEWABLE_PCT` -/
def minRenewablePct : ℚ := 995 / 10

/-- `sep.join` -/
def join (sep : String) (texts : List Text) : Text := List.intercalate sep.toList texts

/-- `_cert_eligibility` -/
def certEligibility (cert : CertAssessment) (now : Time) : List Text :=
  (if cert.isGenuine then []
    else ["certificate does not read as a genuine document".toList]) ++
  (if cert.authenticityConcerns = [] then []
    else ["authenticity concerns: ".toList ++ join "; " (cert.authenticityConcerns.take 3)]) ++
  (if ∃ s ∈ lib.normalizeScheme cert.scheme, s ∈ acceptedSchemes then []
    else ["scheme ".toList ++ lib.repr cert.scheme ++
      " is not one of REGO/GoO/REC/I-TRACK".toList]) ++
  (if ∃ p ∈ cert.renewablePercent, minRenewablePct ≤ p then []
    else ["does not evidence 100% renewable (got ".toList ++ lib.number cert.renewablePercent ++
      ")".toList]) ++
  (if cert.identifiesHolderAsGenerator = some true then []
    else ["does not identify the applicant as the on-site generator/self-supplier".toList]) ++
  (match lib.parseDate cert.issueDate with
    | none => ["issue date missing/unparseable".toList]
    | some issued =>
      if issued < now - maxCertificateAge then
        ["issued more than 12 months ago (".toList ++ cert.issueDate.getD [] ++ ")".toList]
      else if now + 86400 < issued then
        ["issue date is in the future (".toList ++ cert.issueDate.getD [] ++ ")".toList]
      else []) ++
  (match lib.parseDate cert.validUntil with
    | none => []
    | some validUntil =>
      if validUntil < now then
        ["certificate expired (".toList ++ cert.validUntil.getD [] ++ ")".toList]
      else [])

/-- `_LEASING_MARKERS` -/
def leasingMarkers : List Text :=
  ["leased", "leasing", "rented", "renting", "rental", "co-located", "colocated", "colocation",
    "on loan", "financed", "hire purchase"].map String.toList

/-- `_looks_leased`; no answer where the declared infrastructure is no dictionary. -/
def looksLeased (details : Json) (description : Text) : Option Bool :=
  let notes := lib.lower (lib.str ((details.get "notes".toList).getD (.str [])))
  let infra := (details.get "infrastructure".toList).getD .null
  let values : Option (List Json) :=
    if infra.truthy then
      match infra with
      | .obj items => some (items.map Prod.snd)
      | _ => none
    else some []
  values.map fun values ↦
    let texts := values.filterMap fun v ↦
      match v with
      | .str _ | .num _ | .bool _ => some (lib.lower (lib.str v))
      | _ => none
    let blob := lib.lower description ++ ' ' :: notes ++ ' ' :: Text.unwords texts
    leasingMarkers.any fun marker ↦ decide (marker <:+: blob)

/-- A key of a dictionary as a text without blanks at its ends, empty if the key is missing. -/
def strippedAt (key : Text) (dict : Json) : Text :=
  Text.strip (lib.str ((dict.get key).getD (.str [])))

/-- `_completeness_reasons` -/
def completenessReasons (details : Json) (organization : Text) (energyCount : ℕ) : List Text :=
  let business := details.dictAt "business".toList
  let energy := details.dictAt "energy".toList
  let truthyAt (key : String) (dict : Json) : Bool := (dict.get key.toList).any Json.truthy
  (if Text.strip organization = [] ∧ lib.strippedAt "name".toList business = [] then
    ["business name missing".toList] else []) ++
  (if lib.strippedAt "registration_number".toList business = [] then
    ["business registration number missing".toList] else []) ++
  (if truthyAt "address" business then [] else ["business address missing".toList]) ++
  (if truthyAt "data_center_address" details then []
    else ["data-centre address missing".toList]) ++
  (if truthyAt "sources" energy then [] else ["no renewable energy source declared".toList]) ++
  (if energyCount < 1 then ["no renewable-energy certificate attached".toList] else []) ++
  (if (details.get "nodes".toList).any Json.isNonemptyList then []
    else ["no node specifications declared".toList])

end Library

/-! ## The decision -/

/-- A submission, with what it is reviewed by. -/
structure Review where
  lib : Library
  evaluateProviderSpecs : Json → Option SpecAssessment
  details : Json
  organization : Text
  description : Text
  country : Option Text
  signatureVerified : Bool
  attachments : List ReviewAttachment
  reviewer : CertReviewer
  registry : RegistryVerifier
  confidenceThreshold : ℚ
  now : Time

/-- `round(x, 4)` -/
def roundTo4 (x : ℚ) : ℚ := roundHalfEven (x * 10 ^ 4) / 10 ^ 4

/-- `_merge_registry` -/
def mergeRegistry (cert company : RegistryResult) : RegistryResult where
  available := cert.available || company.available
  matched :=
    if cert.matched = some false ∨ company.matched = some false then some false
    else if cert.matched = some true ∨ company.matched = some true then some true
    else none
  detail := Library.join " | " ([cert.detail, company.detail].filter fun d ↦ decide (d ≠ []))
  source := Library.join ", " ([cert.source, company.source].dedup.filter fun s ↦ decide (s ≠ []))

/-- `_fold_registry_confidence` -/
def foldRegistryConfidence (base : ℚ) (registry : RegistryResult) : ℚ :=
  if registry.available = true ∧ registry.matched = some true then max base (9 / 10)
  else if registry.available = true ∧ registry.matched = some false then 0
  else roundTo4 (base * (95 / 100))

namespace Review

variable (x : Review)

/-- The details as a dictionary. -/
def form : Json := x.details.asDict

/-- The gates of `evaluate_application`, in their order; no answer where one of them raises. -/
def checks (energyCount : ℕ) (registry : RegistryResult) (winningCertificate : Option Text)
    (winningCertFails : List Text) (confidence : ℚ) :
    Option (SpecAssessment × List CheckResult) := do
  let completenessFails := x.lib.completenessReasons x.form x.organization energyCount
  let leased ← x.lib.looksLeased x.form x.description
  let spec ← x.evaluateProviderSpecs x.form
  let specOk : Bool := spec.conformant = some true
  let registryOk : Bool := !registry.contradicts
  let confOk : Bool := x.confidenceThreshold ≤ confidence
  return (spec,
    [{ name := "signature".toList
       passed := x.signatureVerified
       reason := if x.signatureVerified then []
         else "hotkey ownership not proven (web UI cannot sign yet)".toList
       hardGate := false },
     { name := "completeness".toList
       passed := completenessFails.isEmpty
       reason := Library.join "; " completenessFails },
     { name := "hardware_ownership".toList
       passed := !leased
       reason := if leased then "hardware appears leased/rented/colocated".toList else [] },
     { name := "node_specs".toList
       passed := specOk
       reason := if specOk then []
         else "node specs not confirmed in-spec: ".toList ++
           Library.join "; " (spec.flags.take 4) },
     { name := "green_energy".toList
       passed := winningCertificate.isSome
       reason := if winningCertificate.isSome then []
         else "no eligible renewable certificate: ".toList ++
           Library.join "; " (winningCertFails.take 4) },
     { name := "registry_cross_check".toList
       passed := registryOk
       reason := if registryOk then []
         else "registry contradicts the claim: ".toList ++ registry.detail },
     { name := "confidence".toList
       passed := confOk
       reason := if confOk then []
         else "eligibility confidence ".toList ++ x.lib.twoDecimals confidence ++
           " below threshold ".toList ++ x.lib.twoDecimals x.confidenceThreshold }])

/-- `evaluate_application` -/
def evaluateApplication (energyAssessments : List CertAssessment)
    (accreditationAssessments : List AccreditationAssessment) (registry : RegistryResult)
    (winningCertificate : Option Text) (winningCertFails : List Text) (confidence : ℚ) :
    Option ReviewDecision := do
  let (spec, checks) ← x.checks energyAssessments.length registry winningCertificate
    winningCertFails confidence
  let hardFails := checks.filter fun c ↦ c.hardGate && !c.passed
  return {
    decision := if hardFails.isEmpty then .approve else .reject
    confidence := roundTo4 confidence
    reasons := (hardFails.filter fun c ↦ decide (c.reason ≠ [])).map fun c ↦
      c.name ++ ": ".toList ++ c.reason
    checks
    winningCertificate
    signatureVerified := x.signatureVerified
    registry
    specAssessment := spec
    certAssessments := energyAssessments
    accreditationAssessments }

/-! ## The review -/

/-- The energy sources that the applicant declares. -/
def declaredSources : List Text :=
  match (x.form.dictAt "energy".toList).get "sources".toList with
  | some (.arr items) => items.map x.lib.str
  | _ => []

/-- The reviewer reads an energy certificate; the assessment names the file that was uploaded, if it
names none. -/
def readCertificate (n : ℕ) (att : ReviewAttachment) : Option CertAssessment :=
  (x.reviewer.reviewEnergyCertificate n att x.organization x.declaredSources).map fun a ↦
    { a with filename := if a.filename = [] then att.filename else a.filename }

def readAccreditation (n : ℕ) (att : ReviewAttachment) : Option AccreditationAssessment :=
  (x.reviewer.reviewAccreditation n att x.organization).map fun a ↦
    { a with filename := if a.filename = [] then att.filename else a.filename }

/-- The loop over the attachments, from the `n`th one on. -/
def readEach (n : ℕ) : List ReviewAttachment →
    Option (List CertAssessment × List AccreditationAssessment)
  | [] => some ([], [])
  | att :: atts =>
    match x.lib.kind att with
    | .energy => do
      let a ← x.readCertificate n att
      let (certs, accreditations) ← readEach (n + 1) atts
      return (a :: certs, accreditations)
    | .accreditation => do
      let a ← x.readAccreditation n att
      let (certs, accreditations) ← readEach (n + 1) atts
      return (certs, a :: accreditations)
    | .other => readEach (n + 1) atts

/-- Why a certificate is not one to approve the applicant on. -/
def certFails (cert : CertAssessment) : List Text :=
  let fails := x.lib.certEligibility cert x.now
  if x.lib.namesMatch cert.holderName (some x.organization) then fails
  else fails ++ ["certificate holder ".toList ++ x.lib.repr cert.holderName ++
    " does not match applicant ".toList ++ x.lib.repr (some x.organization)]

/-- The eligible certificate that the model is surest of, the first of several. -/
def winner (certs : List CertAssessment) : Option CertAssessment :=
  (certs.filter fun c ↦ (x.certFails c).isEmpty).argmax CertAssessment.confidence

/-- The reasons against the certificate that is closest to passing. -/
def closestFails (certs : List CertAssessment) : List Text :=
  ((certs.argmin fun c ↦ (x.certFails c).length).map x.certFails).getD []

/-- What the registries say of a certificate and of the business. -/
def askRegistries (cert : CertAssessment) : Option (RegistryResult × RegistryResult) := do
  let certReg ← x.registry.verifyCertificate (x.lib.normalizeScheme cert.scheme)
    cert.certificateNumber cert.holderName x.country
  let business := x.form.dictAt "business".toList
  let text (key : String) : Text := x.lib.str ((business.get key.toList).getD (.str []))
  let number := text "registration_number"
  let companyReg ← x.registry.verifyCompany
    (if x.organization = [] then text "name" else x.organization)
    (if number = [] then none else some number) x.country
  return (certReg, companyReg)

/-- `run_review` -/
def runReview : Option ReviewDecision := do
  let (certs, accreditations) ← x.readEach 0 x.attachments
  match x.winner certs with
  | none => x.evaluateApplication certs accreditations {} none (x.closestFails certs) 0
  | some cert =>
    let (certReg, companyReg) ← x.askRegistries cert
    let registry := mergeRegistry certReg companyReg
    x.evaluateApplication certs accreditations registry (some cert.filename) []
      (foldRegistryConfidence cert.confidence registry)

end Review

end GreenCompute
