import GreenCompute.Billing.RateTexts
import GreenCompute.Foundations.Regex
import GreenCompute.Validator.Reviews

/-!
# The check of the declared nodes

An applicant declares nodes and the line they are on, in free text. Each of six checks reads one
field with a few patterns and says pass, fail or unclear; a dimension fails if it fails for a node.
The details are JSON that the applicant sent.

The check promises to raise nothing. `spec_check_iff` says for which details that is so: the line
must be described by an object, if at all, and a quantity of digits must be a number.
-/

namespace GreenCompute

open Pattern

/-- Functions of the language's library: on characters, and the texts of values. -/
structure SpecLibrary where
  lower : Text → Text
  upper : Text → Text
  isAlnum : Char → Bool
  /-- `str.isdigit`, of one character: decimals and others, such as superscripts. -/
  isDigit : Char → Bool
  str : Json → Text
  /-- A number as the format `g` prints it. -/
  general : ℚ → Text

inductive Verdict where
  | pass
  | fail
  | unclear
  deriving DecidableEq

/-- What the check raises. -/
inductive SpecError where
  | attributeError
  | valueError
  deriving DecidableEq

/-- A verdict, and the reason for it. -/
abbrev SpecVerdict := Verdict × Option Text

/-- The five dimensions of a node. -/
inductive NodeDimension where
  | gpu
  | cpu
  | ram
  | storage
  | pcie
  deriving DecidableEq

/-- What `evaluate_provider_specs` returns. -/
structure ProviderAssessment where
  conformant : Option Bool
  nodeChecks : NodeDimension → Verdict
  network : Verdict
  flags : List Text
  spec : Text

namespace SpecCheck

variable (lib : SpecLibrary)

/-! ## Constants -/

def requiredGpuModels : List Text := ["4090".toList, "5090".toList]

def requiredGpusPerNode : ℕ := 8

def requiredRamGb : ℚ := 512

def requiredStorageTb : ℚ := 8

def requiredStorageGb : ℚ := requiredStorageTb * 1000

def requiredNetGbps : ℚ := 10

def requiredPcieGen : ℕ := 4

def specSummary : Text :=
  ("8x RTX 4090 or 8x RTX 5090 per node, dual enterprise CPUs, PCIe Gen 4+, " ++
    ">=512GB RAM, >=8TB storage/node, 10Gb symmetric commercial connectivity").toList

/-! ## Patterns -/

/-- A character of a word. -/
def isWord (c : Char) : Bool := lib.isAlnum c || c = '_'

/-- `\d` -/
def digit : Regex := .char isDecimal

/-- `\s*` -/
def spaces : Regex := .many Text.isBlank

/-- `[x×]` -/
def times : Regex := .char fun c ↦ c = 'x' || c = '×'

/-- Texts as alternatives. -/
def anyOf (t : String) (ts : List String) : Regex :=
  Regex.choice (.lit t.toList) (ts.map fun u ↦ .lit u.toList)

/-- An expression between the edges of a word. -/
def word (r : Regex) : Regex := .seq .boundary (.seq r .boundary)

/-- `_DISALLOWED_GPU` -/
def disallowedGpu : Regex :=
  word (.group (Regex.choice
    (anyOf "3090" ["3080", "3070", "2080", "1080", "a100", "h100", "v100", "a40", "a6000"])
    [.seq (.lit "l40".toList) (.opt (.lit ['s'])), .lit "t4".toList, .lit "p100".toList,
      .lit "titan".toList]))

/-- `\b[rg]tx\b` -/
def tx : Regex := word (.seq (.char fun c ↦ c = 'r' || c = 'g') (.lit "tx".toList))

/-- `(\d{1,3})` -/
def threeDigits : Regex := .group (.seq digit (.opt (.seq digit (.opt digit))))

/-- `(\d{1,3})\s*[x×]` -/
def countBefore : Regex := .seq threeDigits (.seq spaces times)

/-- `[x×]\s*(\d{1,3})` -/
def countAfter : Regex := .seq times (.seq spaces threeDigits)

/-- `dual[- ]?socket`, and the same for `single`. -/
def socketed (t : String) : Regex :=
  .seq (.lit t.toList) (.seq (.opt (.char fun c ↦ c = '-' || c = ' ')) (.lit "socket".toList))

/-- `2\s*socket`, and the same for `1`. -/
def sockets (c : Char) : Regex := .seq (.lit [c]) (.seq spaces (.lit "socket".toList))

/-- `\b2\s*[x×]\b`, and the same for `1`. -/
def multiple (c : Char) : Regex :=
  .seq .boundary (.seq (.lit [c]) (.seq spaces (.seq times .boundary)))

/-- The expression that says two CPUs. -/
def dualCpu : Regex :=
  Regex.choice (word (.lit "dual".toList))
    [multiple '2', .seq times (.seq spaces (.seq (.lit ['2']) .boundary)),
      word (.lit "two".toList), sockets '2', socketed "dual"]

/-- The expression that says one CPU. -/
def singleCpu : Regex :=
  Regex.choice (word (.lit "single".toList)) [multiple '1', socketed "single", sockets '1']

/-- `([3-6])` -/
def generation : Regex := .group (.seq (.char fun c ↦ '3' ≤ c && c ≤ '6') .empty)

/-- `gen(?:eration)?\s*([3-6])\b` -/
def genWord : Regex :=
  .seq (.lit "gen".toList) (.seq (.opt (.lit "eration".toList))
    (.seq spaces (.seq generation .boundary)))

/-- `pcie\s*(?:gen\s*)?([3-6])(?:\.0)?\b` -/
def pcieWord : Regex :=
  .seq (.lit "pcie".toList) (.seq spaces (.seq (.opt (.seq (.lit "gen".toList) spaces))
    (.seq generation (.seq (.opt (.lit ".0".toList)) .boundary))))

/-- `\b([3-6])\.0\b` -/
def bareVersion : Regex :=
  .seq .boundary (.seq generation (.seq (.lit ".0".toList) .boundary))

/-! ## Numbers -/

/-- `int`, of a text that may be no number. -/
def int? (t : Text) : Option ℕ := if t ≠ [] ∧ t.all isDecimal = true then some (intOf t) else none

/-- `int` -/
def int (t : Text) : Except SpecError ℕ :=
  match int? t with
  | some n => .ok n
  | none => .error .valueError

/-- `_first_number` -/
def firstNumber (t : Text) : Option ℚ :=
  ((group amount).search isDecimal t).map fun groups ↦ floatOf (groups.getD 0 [])

/-- `sub in text` -/
def contains (u : String) (t : Text) : Bool := u.toList <:+: t

/-- `_to_gb` -/
def toGb (t : Text) : Option ℚ :=
  if t = [] then none
  else
    let t := lib.lower t
    (firstNumber t).map fun n ↦ if contains "tb" t ∨ contains "tib" t then n * 1024 else n

/-- `_to_gbps` -/
def toGbps (t : Text) : Option ℚ :=
  if t = [] then none
  else
    let t := lib.lower t
    (firstNumber t).bind fun n ↦
      if contains "gb" t ∨ contains "gbps" t ∨ contains "gbit" t ∨ contains "gig" t then some n
      else if contains "mb" t ∨ contains "mbps" t ∨ contains "mbit" t then some (n / 1000)
      else none

/-! ## The checks -/

/-- `str(node.get(key, ""))` -/
def field (node : Metadata) (key : String) : Text :=
  lib.str ((node.lookup key.toList).getD (.str []))

/-- `text.replace(old, new)`, after some characters that are replaced. -/
def replaceFrom (old new : Text) : ℕ → Text → Text
  | _, [] => []
  | n + 1, _ :: s => replaceFrom old new n s
  | 0, c :: s =>
    if old <+: c :: s then new ++ replaceFrom old new (old.length - 1) s
    else c :: replaceFrom old new 0 s

/-- What `_gpu_count` looks for a count in. -/
def countText (gpuText model : Text) : Text :=
  tx.sub (isWord lib) [' '] (replaceFrom model [' '] 0 gpuText)

/-- The digits of a multiplier. -/
def multiplier (text : Text) : Option Text :=
  (countBefore.captured (isWord lib) text).or (countAfter.captured (isWord lib) text)

/-- The `quantity` of a node, without blanks at its ends. -/
def quantity (node : Metadata) : Text := Text.strip (field lib node "quantity")

/-- `q.isdigit() and len(q) <= 4` -/
def isCount (q : Text) : Bool := q ≠ [] ∧ q.all lib.isDigit = true ∧ q.length ≤ 4

/-- `_gpu_count` -/
def gpuCount (gpuText model : Text) (node : Metadata) : Except SpecError (Option ℕ) :=
  match multiplier lib (countText lib gpuText model) with
  | some digits => (int digits).map some
  | none =>
    if isCount lib (quantity lib node) then (int (quantity lib node)).map some else .ok none

/-- The first required model that a text names. -/
def requiredModel (gpuText : Text) : Option Text :=
  requiredGpuModels.find? fun model ↦ (word (.lit model)).found (isWord lib) gpuText

/-- `_gpu_check` -/
def gpuCheck (node : Metadata) : Except SpecError SpecVerdict :=
  let gpuText := lib.lower (field lib node "gpu")
  match disallowedGpu.captured (isWord lib) gpuText with
  | some gpu => .ok (.fail, some ("GPU ".toList ++ lib.upper gpu ++ " is not an RTX 4090/5090".toList))
  | none =>
    match requiredModel lib gpuText with
    | none => .ok (.unclear, some "GPU model not recognized".toList)
    | some model =>
      (gpuCount lib gpuText model node).map fun count ↦
        match count with
        | some n =>
          if n ≠ requiredGpusPerNode then
            (.fail, some ("declares ".toList ++ numberText n ++ " GPUs/node, need ".toList ++
              numberText requiredGpusPerNode))
          else (.pass, none)
        | none => (.unclear, some ("RTX ".toList ++ model ++ " found but GPU count/node unclear".toList))

/-- `_cpu_check` -/
def cpuCheck (node : Metadata) : SpecVerdict :=
  let t := lib.lower (field lib node "cpu")
  if Text.strip t = [] then (.unclear, some "CPU not described".toList)
  else if dualCpu.found (isWord lib) t then (.pass, none)
  else if singleCpu.found (isWord lib) t then
    (.fail, some "single-CPU node, need dual enterprise CPUs".toList)
  else (.unclear, some "CPU count unclear (need dual)".toList)

/-- `_ram_check` -/
def ramCheck (node : Metadata) : SpecVerdict :=
  match toGb lib (field lib node "ram") with
  | none => (.unclear, some "RAM not parseable".toList)
  | some gb =>
    if requiredRamGb ≤ gb then (.pass, none)
    else (.fail, some (lib.general gb ++ "GB RAM < 512GB".toList))

/-- `_storage_check` -/
def storageCheck (node : Metadata) : SpecVerdict :=
  match toGb lib (field lib node "storage") with
  | none => (.unclear, some "storage not parseable".toList)
  | some gb =>
    if requiredStorageGb ≤ gb then (.pass, none)
    else (.fail, some (lib.general (gb / 1000) ++ "TB storage < 8TB".toList))

/-- `_pcie_gen` -/
def pcieGen (text : Text) : Except SpecError (Option ℕ) :=
  let t := lib.lower text
  match ((genWord.captured (isWord lib) t).or (pcieWord.captured (isWord lib) t)).or
      (bareVersion.captured (isWord lib) t) with
  | some digits => (int digits).map some
  | none => .ok none

/-- `_pcie_check` -/
def pcieCheck (node : Metadata) : Except SpecError SpecVerdict :=
  let raw := Text.strip (field lib node "pcie")
  if raw = [] then .ok (.unclear, some "PCIe generation not described".toList)
  else
    (pcieGen lib raw).map fun gen ↦
      match gen with
      | none => (.unclear, some "PCIe generation unclear".toList)
      | some n =>
        if requiredPcieGen ≤ n then (.pass, none)
        else (.fail, some ("PCIe Gen ".toList ++ numberText n ++ " < Gen ".toList ++
          numberText requiredPcieGen))

/-- Lines that are not commercial. -/
def residentialLines : List Text := ["residential", "home", "consumer"].map String.toList

/-- The verdict on a line. -/
def lineCheck (infra : Metadata) : SpecVerdict :=
  match toGbps lib (field lib infra "upload_speed"),
    toGbps lib (field lib infra "download_speed") with
  | some up, some down =>
    if up < requiredNetGbps ∨ down < requiredNetGbps then
      (.fail, some (lib.general up ++ ['/'] ++ lib.general down ++ " Gbps < ".toList ++
        lib.general requiredNetGbps ++ " Gbps symmetric".toList))
    else
      let itype := lib.lower (Text.strip (field lib infra "internet_type"))
      if itype ∈ residentialLines then
        (.fail, some "residential line, need a commercial connection".toList)
      else if itype ≠ "commercial".toList then
        (.unclear, some "commercial line type not confirmed".toList)
      else (.pass, none)
  | _, _ => (.unclear, some "up/down link speed not parseable".toList)

/-- The items of a dictionary; of anything else, none. -/
def items : Json → Metadata
  | .obj items => items
  | _ => []

/-- `_network_check` -/
def networkCheck (details : Metadata) : Except SpecError SpecVerdict :=
  let infra := (details.lookup "infrastructure".toList).getD .null
  if infra.truthy then
    match infra with
    | .obj items => .ok (lineCheck lib items)
    | _ => .error .attributeError
  else .ok (lineCheck lib [])

/-! ## The assessment -/

/-- The check of one dimension. -/
def checkOf : NodeDimension → Metadata → Except SpecError SpecVerdict
  | .gpu, node => gpuCheck lib node
  | .cpu, node => .ok (cpuCheck lib node)
  | .ram, node => .ok (ramCheck lib node)
  | .storage, node => .ok (storageCheck lib node)
  | .pcie, node => pcieCheck lib node

/-- A verdict over several. -/
def aggregate (verdicts : List Verdict) : Verdict :=
  if .fail ∈ verdicts then .fail else if .unclear ∈ verdicts then .unclear else .pass

/-- What is flagged of a node's check. -/
def flagOf (i : ℕ) : SpecVerdict → Option Text
  | (.fail, some reason) => some ("node ".toList ++ numberText (i + 1) ++ ": ".toList ++ reason)
  | (.unclear, some reason) =>
    some ("node ".toList ++ numberText (i + 1) ++ ": ".toList ++ reason ++ " (unclear)".toList)
  | _ => none

/-- One turn of the loop over the dimensions: the verdict, and the flags. -/
def checkNodes (nodes : List Json) (dim : NodeDimension) :
    Except SpecError (Verdict × List Text) := do
  let results ← nodes.mapM fun node ↦ checkOf lib dim (items node)
  pure (aggregate (results.map Prod.fst), results.zipIdx.filterMap fun r ↦ flagOf r.2 r.1)

/-- The nodes' verdicts. -/
def nodesCheck (nodes : List Json) : Except SpecError ((NodeDimension → Verdict) × List Text) :=
  if nodes = [] then .ok (fun _ ↦ .unclear, ["no node specs declared".toList])
  else do
    let gpu ← checkNodes lib nodes .gpu
    let cpu ← checkNodes lib nodes .cpu
    let ram ← checkNodes lib nodes .ram
    let storage ← checkNodes lib nodes .storage
    let pcie ← checkNodes lib nodes .pcie
    let verdicts : NodeDimension → Verdict
      | .gpu => gpu.1
      | .cpu => cpu.1
      | .ram => ram.1
      | .storage => storage.1
      | .pcie => pcie.1
    pure (verdicts, gpu.2 ++ cpu.2 ++ ram.2 ++ storage.2 ++ pcie.2)

/-- The declared nodes; what is no list counts as none. -/
def nodesOf (details : Json) : List Json :=
  match (items details).lookup "nodes".toList with
  | some (.arr nodes) => nodes
  | _ => []

def dimensions : List NodeDimension := [.gpu, .cpu, .ram, .storage, .pcie]

/-- What is flagged of the line. -/
def networkFlag : SpecVerdict → List Text
  | (.fail, some reason) => ["network: ".toList ++ reason]
  | (_, some reason) => ["network: ".toList ++ reason ++ " (unclear)".toList]
  | (_, none) => []

/-- `conformant`, of the verdicts. -/
def conformantOf (values : List Verdict) : Option Bool :=
  if .fail ∈ values then some false else if .unclear ∈ values then none else some true

/-- The assessment, from the verdicts. -/
def assessment (nodes : (NodeDimension → Verdict) × List Text) (network : SpecVerdict) :
    ProviderAssessment :=
  { conformant := conformantOf (dimensions.map nodes.1 ++ [network.1])
    nodeChecks := nodes.1
    network := network.1
    flags := nodes.2 ++ networkFlag network
    spec := specSummary }

/-- `evaluate_provider_specs` -/
def evaluateProviderSpecs (details : Json) : Except SpecError ProviderAssessment := do
  let nodes ← nodesCheck lib (nodesOf details)
  let network ← networkCheck lib (items details)
  pure (assessment nodes network)

/-! ## What the assessment says -/

/-- The verdict of a check on a node. -/
def VerdictOn (dim : NodeDimension) (node : Json) (verdict : Verdict) : Prop :=
  ∃ reason, checkOf lib dim (items node) = .ok (verdict, reason)

/-- The assessment says of the dimensions what the checks say of the nodes, and sums them up. -/
structure Faithful (details : Json) (a : ProviderAssessment) : Prop where
  rejects : a.conformant = some false ↔ a.network = .fail ∨ ∃ dim, a.nodeChecks dim = .fail
  unclear : a.conformant = none ↔
    (a.network ≠ .fail ∧ ∀ dim, a.nodeChecks dim ≠ .fail) ∧
      (a.network = .unclear ∨ ∃ dim, a.nodeChecks dim = .unclear)
  accepts : a.conformant = some true ↔ a.network = .pass ∧ ∀ dim, a.nodeChecks dim = .pass
  fails : nodesOf details ≠ [] → ∀ dim, a.nodeChecks dim = .fail ↔
    ∃ node ∈ nodesOf details, VerdictOn lib dim node .fail
  passes : nodesOf details ≠ [] → ∀ dim, a.nodeChecks dim = .pass ↔
    ∀ node ∈ nodesOf details, VerdictOn lib dim node .pass
  undeclared : nodesOf details = [] → ∀ dim, a.nodeChecks dim = .unclear

/-- The GPUs of a node are counted by its `quantity`: its text names a required model, no other one,
and no multiplier, and the quantity is a few digits. -/
def CountedByQuantity (node : Metadata) : Prop :=
  let gpuText := lib.lower (field lib node "gpu")
  disallowedGpu.captured (isWord lib) gpuText = none ∧
    (∃ model, requiredModel lib gpuText = some model ∧
      multiplier lib (countText lib gpuText model) = none) ∧
    isCount lib (quantity lib node) = true

/-- The details describe the line by an object, if at all, and count GPUs in decimal digits. -/
structure Legible (details : Json) : Prop where
  line : ∀ infra, (items details).lookup "infrastructure".toList = some infra →
    infra.truthy = true → ∃ items, infra = .obj items
  quantities : ∀ node ∈ nodesOf details, CountedByQuantity lib (items node) →
    (quantity lib (items node)).all isDecimal = true

/-! ### Which checks raise -/

variable {lib} {details : Json} {node : Metadata}

/-- Decimal digits, one at least. -/
def Digits (t : Text) : Prop := t ≠ [] ∧ ∀ c ∈ t, isDecimal c = true

theorem isOk_int_iff {t : Text} (hne : t ≠ []) :
    (∃ n, int t = .ok n) ↔ t.all isDecimal = true := by
  rw [int, int?]
  by_cases h : t.all isDecimal = true
  · rw [if_pos ⟨hne, h⟩]
    exact iff_of_true ⟨_, rfl⟩ h
  · rw [if_neg fun h' ↦ h h'.2]
    exact iff_of_false (fun ⟨_, hn⟩ ↦ nomatch hn) h

theorem isOk_int_of_digits {t : Text} (h : Digits t) : ∃ n, int t = .ok n :=
  (isOk_int_iff h.1).mpr (List.all_eq_true.mpr h.2)

theorem isOk_map_iff {α β : Type} {r : Except SpecError α} {f : α → β} :
    (∃ b, r.map f = .ok b) ↔ ∃ a, r = .ok a := by
  cases r with
  | error e => exact iff_of_false (fun ⟨_, h⟩ ↦ nomatch h) fun ⟨_, h⟩ ↦ nomatch h
  | ok a => exact iff_of_true ⟨f a, rfl⟩ ⟨a, rfl⟩

theorem captures_threeDigits : threeDigits.Captures (isWord lib) Digits :=
  Regex.captures_group (fun _ h ↦ h) ⟨⟨fun _ h ↦ h, ⟨fun _ h ↦ h, trivial⟩⟩, trivial⟩

theorem digits_of_multiplier {t digits : Text} (h : multiplier lib t = some digits) :
    Digits digits := by
  rcases Option.or_eq_some_iff.mp h with h | ⟨-, h⟩
  · have hcaptures : countBefore.Captures (isWord lib) Digits :=
      ⟨captures_threeDigits, trivial, trivial⟩
    exact Regex.captured_of_search hcaptures h
  · have hcaptures : countAfter.Captures (isWord lib) Digits :=
      ⟨trivial, trivial, captures_threeDigits⟩
    exact Regex.captured_of_search hcaptures h

/-- Counting the GPUs raises exactly where the quantity is taken and is no number. -/
theorem isOk_gpuCount_iff {gpuText model : Text} :
    (∃ count, gpuCount lib gpuText model node = .ok count) ↔
      (multiplier lib (countText lib gpuText model) = none → isCount lib (quantity lib node) = true →
        (quantity lib node).all isDecimal = true) := by
  rw [gpuCount]
  cases hmultiplier : multiplier lib (countText lib gpuText model) with
  | some digits =>
    exact iff_of_true (isOk_map_iff.mpr (isOk_int_of_digits (digits_of_multiplier hmultiplier)))
      nofun
  | none =>
    dsimp only
    by_cases hcount : isCount lib (quantity lib node) = true
    · have hne : quantity lib node ≠ [] := (of_decide_eq_true hcount).1
      rw [if_pos hcount, isOk_map_iff, isOk_int_iff hne]
      exact ⟨fun h _ _ ↦ h, fun h ↦ h rfl hcount⟩
    · rw [if_neg hcount]
      exact iff_of_true ⟨none, rfl⟩ fun _ h ↦ absurd h hcount

theorem isOk_gpuCheck_iff :
    (∃ c, gpuCheck lib node = .ok c) ↔
      (CountedByQuantity lib node → (quantity lib node).all isDecimal = true) := by
  rw [gpuCheck, CountedByQuantity]
  cases disallowedGpu.captured (isWord lib) (lib.lower (field lib node "gpu")) with
  | some gpu => exact iff_of_true ⟨_, rfl⟩ fun h ↦ nomatch h.1
  | none =>
    cases requiredModel lib (lib.lower (field lib node "gpu")) with
    | none => exact iff_of_true ⟨_, rfl⟩ fun ⟨_, ⟨_, h, _⟩, _⟩ ↦ nomatch h
    | some model =>
      dsimp only
      rw [isOk_map_iff, isOk_gpuCount_iff]
      refine ⟨?_, fun h hmultiplier hcount ↦ h ⟨rfl, ⟨model, rfl, hmultiplier⟩, hcount⟩⟩
      rintro h ⟨-, ⟨_, ⟨⟩, hmultiplier⟩, hcount⟩
      exact h hmultiplier hcount

theorem captures_generation : generation.Captures (isWord lib) Digits := by
  refine Regex.captures_group (fun c hc ↦ ?_) trivial
  have hzero : 0x30 ≤ c.toNat ∧ c.toNat ≤ 0x30 + 9 := by
    rw [Bool.and_eq_true, decide_eq_true_iff, decide_eq_true_iff] at hc
    have hlow : ('3'.toNat : ℕ) ≤ c.toNat := hc.1
    have hhigh : c.toNat ≤ ('6'.toNat : ℕ) := hc.2
    have h3 : '3'.toNat = 0x33 := rfl
    have h6 : '6'.toNat = 0x36 := rfl
    omega
  rw [isDecimal, digitValue, Option.isSome_map, List.find?_isSome]
  exact ⟨0x30, by decide, decide_eq_true hzero⟩

/-- The generation that is found is a digit. -/
theorem isOk_pcieGen (text : Text) : ∃ gen, pcieGen lib text = .ok gen := by
  have hgen : genWord.Captures (isWord lib) Digits :=
    ⟨Regex.captures_lit _, ⟨Regex.captures_lit _, trivial⟩, trivial, captures_generation, trivial⟩
  have hpcie : pcieWord.Captures (isWord lib) Digits :=
    ⟨Regex.captures_lit _, trivial, ⟨⟨Regex.captures_lit _, trivial⟩, trivial⟩, captures_generation,
      ⟨Regex.captures_lit _, trivial⟩, trivial⟩
  have hbare : bareVersion.Captures (isWord lib) Digits :=
    ⟨trivial, captures_generation, Regex.captures_lit _, trivial⟩
  rw [pcieGen]
  split
  · next digits h =>
    refine isOk_map_iff.mpr (isOk_int_of_digits ?_)
    rcases Option.or_eq_some_iff.mp h with h | ⟨-, h⟩
    · rcases Option.or_eq_some_iff.mp h with h | ⟨-, h⟩
      · exact Regex.captured_of_search hgen h
      · exact Regex.captured_of_search hpcie h
    · exact Regex.captured_of_search hbare h
  · exact ⟨none, rfl⟩

theorem isOk_pcieCheck (node : Metadata) : ∃ c, pcieCheck lib node = .ok c := by
  rw [pcieCheck]
  split
  · exact ⟨_, rfl⟩
  · exact isOk_map_iff.mpr (isOk_pcieGen _)

theorem isOk_bind_iff {α β : Type} {r : Except SpecError α} {f : α → Except SpecError β} :
    (∃ b, r >>= f = .ok b) ↔ ∃ a, r = .ok a ∧ ∃ b, f a = .ok b := by
  cases r with
  | error e => exact iff_of_false (fun ⟨_, h⟩ ↦ nomatch h) fun ⟨_, h, _⟩ ↦ nomatch h
  | ok a => exact ⟨fun h ↦ ⟨a, rfl, h⟩, fun ⟨_, ha, h⟩ ↦ Except.ok.inj ha ▸ h⟩

theorem exists_of_bind_eq_ok {α β : Type} {r : Except SpecError α} {f : α → Except SpecError β}
    {b : β} (h : r >>= f = .ok b) : ∃ a, r = .ok a ∧ f a = .ok b := by
  cases r with
  | error e => cases h
  | ok a => exact ⟨a, rfl, h⟩

/-- A check raises on the count of GPUs only. -/
theorem isOk_checkOf_iff {dim : NodeDimension} :
    (∃ c, checkOf lib dim node = .ok c) ↔
      (dim = .gpu → CountedByQuantity lib node → (quantity lib node).all isDecimal = true) := by
  cases dim with
  | gpu => exact isOk_gpuCheck_iff.trans ⟨fun h _ ↦ h, fun h ↦ h rfl⟩
  | pcie => exact iff_of_true (isOk_pcieCheck node) nofun
  | cpu | ram | storage => exact iff_of_true ⟨_, rfl⟩ nofun

theorem isOk_networkCheck_iff {details : Metadata} :
    (∃ c, networkCheck lib details = .ok c) ↔
      ∀ infra, details.lookup "infrastructure".toList = some infra → infra.truthy = true →
        ∃ items, infra = .obj items := by
  rw [networkCheck]
  cases hinfra : details.lookup "infrastructure".toList with
  | none => exact iff_of_true ⟨_, rfl⟩ nofun
  | some infra =>
    have hsome : (∀ infra', some infra = some infra' → infra'.truthy = true →
        ∃ items, infra' = Json.obj items) ↔ (infra.truthy = true → ∃ items, infra = .obj items) :=
      ⟨fun h ↦ h infra rfl, fun h _ heq ↦ Option.some.inj heq ▸ h⟩
    rw [hsome, Option.getD_some]
    by_cases htruthy : infra.truthy = true
    · rw [if_pos htruthy]
      cases infra with
      | obj items => exact iff_of_true ⟨_, rfl⟩ fun _ ↦ ⟨items, rfl⟩
      | null | bool _ | num _ | str _ | arr _ =>
        exact iff_of_false (fun ⟨_, h⟩ ↦ nomatch h) fun h ↦ by
          obtain ⟨items, hitems⟩ := h htruthy
          cases hitems
    · rw [if_neg htruthy]
      exact iff_of_true ⟨_, rfl⟩ fun h ↦ absurd h htruthy

/-! ### The loops -/

section

variable {α β : Type} {f : α → Except SpecError β} {l : List α}

theorem isOk_mapM_iff : (∃ rs, l.mapM f = .ok rs) ↔ ∀ a ∈ l, ∃ r, f a = .ok r := by
  induction l with
  | nil => exact iff_of_true ⟨[], rfl⟩ nofun
  | cons a l ih =>
    rw [List.forall_mem_cons, ← ih, List.mapM_cons]
    cases ha : f a with
    | error e => exact iff_of_false (fun ⟨_, h⟩ ↦ nomatch h) fun ⟨⟨_, h⟩, _⟩ ↦ nomatch h
    | ok r =>
      cases hl : l.mapM f with
      | error e => exact iff_of_false (fun ⟨_, h⟩ ↦ nomatch h) fun ⟨_, _, h⟩ ↦ nomatch h
      | ok rs => exact iff_of_true ⟨r :: rs, rfl⟩ ⟨⟨r, rfl⟩, rs, rfl⟩

/-- The results are those of the elements. -/
theorem mem_of_mapM {rs : List β} (h : l.mapM f = .ok rs) {r : β} :
    r ∈ rs ↔ ∃ a ∈ l, f a = .ok r := by
  induction l generalizing rs with
  | nil =>
    obtain rfl := Except.ok.inj h
    simp
  | cons a l ih =>
    rw [List.mapM_cons] at h
    cases ha : f a with
    | error e =>
      rw [ha] at h
      cases h
    | ok r' =>
      cases hl : l.mapM f with
      | error e =>
        rw [ha, hl] at h
        cases h
      | ok rs' =>
        rw [ha, hl] at h
        obtain rfl := Except.ok.inj h
        rw [List.mem_cons, ih hl, List.exists_mem_cons_iff, ha, Except.ok.injEq, eq_comm]

end

theorem aggregate_eq_fail {verdicts : List Verdict} :
    aggregate verdicts = .fail ↔ .fail ∈ verdicts := by
  rw [aggregate]
  split
  · next h => exact iff_of_true rfl h
  · next h =>
    refine iff_of_false (fun hfail ↦ ?_) h
    split at hfail <;> cases hfail

theorem aggregate_eq_pass {verdicts : List Verdict} :
    aggregate verdicts = .pass ↔ ∀ verdict ∈ verdicts, verdict = .pass := by
  rw [aggregate]
  by_cases hfail : .fail ∈ verdicts
  · rw [if_pos hfail]
    exact iff_of_false nofun fun h ↦ nomatch h _ hfail
  · rw [if_neg hfail]
    by_cases hunclear : .unclear ∈ verdicts
    · rw [if_pos hunclear]
      exact iff_of_false nofun fun h ↦ nomatch h _ hunclear
    · rw [if_neg hunclear]
      refine iff_of_true rfl fun verdict hmem ↦ ?_
      cases verdict with
      | pass => rfl
      | fail => exact absurd hmem hfail
      | unclear => exact absurd hmem hunclear

theorem conformantOf_iff (values : List Verdict) :
    (conformantOf values = some false ↔ .fail ∈ values) ∧
      (conformantOf values = none ↔ .fail ∉ values ∧ .unclear ∈ values) ∧
      (conformantOf values = some true ↔ .fail ∉ values ∧ .unclear ∉ values) := by
  rw [conformantOf]
  by_cases hfail : .fail ∈ values
  · simp [hfail]
  · by_cases hunclear : .unclear ∈ values
    · simp [hfail, hunclear]
    · simp [hfail, hunclear]

/-- A turn of the loop says of a dimension what the checks say of the nodes. -/
theorem verdict_of_checkNodes {nodes : List Json} {dim : NodeDimension}
    {result : Verdict × List Text} (h : checkNodes lib nodes dim = .ok result) :
    (result.1 = .fail ↔ ∃ node ∈ nodes, VerdictOn lib dim node .fail) ∧
      (result.1 = .pass ↔ ∀ node ∈ nodes, VerdictOn lib dim node .pass) := by
  rw [checkNodes] at h
  cases hresults : nodes.mapM fun node ↦ checkOf lib dim (items node) with
  | error e =>
    rw [hresults] at h
    cases h
  | ok results =>
    rw [hresults] at h
    obtain rfl := Except.ok.inj h
    have hmem (verdict : Verdict) : verdict ∈ results.map Prod.fst ↔
        ∃ node ∈ nodes, VerdictOn lib dim node verdict := by
      simp only [List.mem_map, mem_of_mapM hresults, VerdictOn]
      constructor
      · rintro ⟨⟨_, reason⟩, ⟨node, hnode, hcheck⟩, rfl⟩
        exact ⟨node, hnode, reason, hcheck⟩
      · rintro ⟨node, hnode, reason, hcheck⟩
        exact ⟨(verdict, reason), ⟨node, hnode, hcheck⟩, rfl⟩
    refine ⟨aggregate_eq_fail.trans (hmem .fail), aggregate_eq_pass.trans ⟨fun hall node hnode ↦ ?_,
      fun hall verdict hverdict ↦ ?_⟩⟩
    · obtain ⟨⟨verdict, reason⟩, hcheck⟩ := isOk_mapM_iff.mp ⟨results, hresults⟩ node hnode
      obtain rfl : verdict = .pass := hall verdict ((hmem verdict).mpr ⟨node, hnode, reason, hcheck⟩)
      exact ⟨reason, hcheck⟩
    · obtain ⟨node, hnode, reason, hcheck⟩ := (hmem verdict).mp hverdict
      obtain ⟨reason', hcheck'⟩ := hall node hnode
      exact congrArg Prod.fst (Except.ok.inj (hcheck.symm.trans hcheck'))

theorem isOk_checkNodes_iff {nodes : List Json} {dim : NodeDimension} :
    (∃ result, checkNodes lib nodes dim = .ok result) ↔
      ∀ node ∈ nodes, dim = .gpu → CountedByQuantity lib (items node) →
        (quantity lib (items node)).all isDecimal = true := by
  have hmap : (∃ result, checkNodes lib nodes dim = .ok result) ↔
      ∃ rs, (nodes.mapM fun node ↦ checkOf lib dim (items node)) = .ok rs := by
    rw [checkNodes]
    cases nodes.mapM fun node ↦ checkOf lib dim (items node) with
    | error e => exact iff_of_false (fun ⟨_, h⟩ ↦ nomatch h) fun ⟨_, h⟩ ↦ nomatch h
    | ok results => exact iff_of_true ⟨_, rfl⟩ ⟨results, rfl⟩
  rw [hmap, isOk_mapM_iff]
  exact forall₂_congr fun node _ ↦ isOk_checkOf_iff

/-- The loop over the dimensions, where there is a node. -/
theorem nodesCheck_eq_ok {nodes : List Json} (hne : nodes ≠ [])
    {result : (NodeDimension → Verdict) × List Text} (h : nodesCheck lib nodes = .ok result)
    (dim : NodeDimension) : ∃ r, checkNodes lib nodes dim = .ok r ∧ result.1 dim = r.1 := by
  rw [nodesCheck, if_neg hne] at h
  obtain ⟨gpu, hgpu, h⟩ := exists_of_bind_eq_ok h
  obtain ⟨cpu, hcpu, h⟩ := exists_of_bind_eq_ok h
  obtain ⟨ram, hram, h⟩ := exists_of_bind_eq_ok h
  obtain ⟨storage, hstorage, h⟩ := exists_of_bind_eq_ok h
  obtain ⟨pcie, hpcie, h⟩ := exists_of_bind_eq_ok h
  obtain rfl := Except.ok.inj h
  cases dim with
  | gpu => exact ⟨gpu, hgpu, rfl⟩
  | cpu => exact ⟨cpu, hcpu, rfl⟩
  | ram => exact ⟨ram, hram, rfl⟩
  | storage => exact ⟨storage, hstorage, rfl⟩
  | pcie => exact ⟨pcie, hpcie, rfl⟩

theorem isOk_nodesCheck_iff {nodes : List Json} :
    (∃ result, nodesCheck lib nodes = .ok result) ↔
      ∀ node ∈ nodes, CountedByQuantity lib (items node) →
        (quantity lib (items node)).all isDecimal = true := by
  rw [nodesCheck]
  by_cases hnil : nodes = []
  · rw [if_pos hnil]
    exact iff_of_true ⟨_, rfl⟩ (by simp [hnil])
  · have hother (dim : NodeDimension) (hdim : dim ≠ .gpu) :
        ∃ result, checkNodes lib nodes dim = .ok result :=
      isOk_checkNodes_iff.mpr fun _ _ h ↦ absurd h hdim
    obtain ⟨cpu, hcpu⟩ := hother .cpu nofun
    obtain ⟨ram, hram⟩ := hother .ram nofun
    obtain ⟨storage, hstorage⟩ := hother .storage nofun
    obtain ⟨pcie, hpcie⟩ := hother .pcie nofun
    rw [if_neg hnil, isOk_bind_iff, hcpu, hram, hstorage, hpcie]
    refine Iff.trans ⟨fun ⟨gpu, h, _⟩ ↦ ⟨gpu, h⟩, fun ⟨gpu, h⟩ ↦ ⟨gpu, h, _, rfl⟩⟩
      (isOk_checkNodes_iff.trans ?_)
    exact forall₂_congr fun node _ ↦ ⟨fun h ↦ h rfl, fun h _ ↦ h⟩

/-- An assessment sums up the five verdicts and the line's. -/
theorem faithful_assessment {nodes : (NodeDimension → Verdict) × List Text} (network : SpecVerdict)
    (hnodes : nodesCheck lib (nodesOf details) = .ok nodes) :
    Faithful lib details (assessment nodes network) := by
  obtain ⟨verdicts, flags⟩ := nodes
  have hmem (verdict : Verdict) : verdict ∈ dimensions.map verdicts ++ [network.1] ↔
      network.1 = verdict ∨ ∃ dim, verdicts dim = verdict := by
    rw [List.mem_append, List.mem_singleton, List.mem_map, or_comm, eq_comm]
    refine or_congr_right ⟨fun ⟨dim, _, h⟩ ↦ ⟨dim, h⟩, fun ⟨dim, h⟩ ↦ ⟨dim, ?_, h⟩⟩
    cases dim <;> decide
  have hpass : network.1 = .pass ∧ (∀ dim, verdicts dim = .pass) ↔
      .fail ∉ dimensions.map verdicts ++ [network.1] ∧
        .unclear ∉ dimensions.map verdicts ++ [network.1] := by
    constructor
    · rintro ⟨hnetwork, hverdicts⟩
      rw [hmem, hmem]
      simp [hnetwork, hverdicts]
    · rintro ⟨hfail, hunclear⟩
      have hverdict {verdict : Verdict} (h : verdict ∈ dimensions.map verdicts ++ [network.1]) :
          verdict = .pass := by
        cases verdict with
        | pass => rfl
        | fail => exact absurd h hfail
        | unclear => exact absurd h hunclear
      exact ⟨hverdict ((hmem _).mpr (.inl rfl)),
        fun dim ↦ hverdict ((hmem _).mpr (.inr ⟨dim, rfl⟩))⟩
  have hnone : (network.1 ≠ .fail ∧ ∀ dim, verdicts dim ≠ .fail) ↔
      .fail ∉ dimensions.map verdicts ++ [network.1] := by
    rw [hmem, not_or, not_exists]
  obtain ⟨hrejects, hunclear, haccepts⟩ := conformantOf_iff (dimensions.map verdicts ++ [network.1])
  refine ⟨hrejects.trans (hmem .fail), hunclear.trans (and_congr hnone.symm (hmem .unclear)),
    haccepts.trans hpass.symm, ?_, ?_, ?_⟩
  · intro hne dim
    obtain ⟨r, hr, hdim⟩ := nodesCheck_eq_ok hne hnodes dim
    obtain ⟨hfail, -⟩ := verdict_of_checkNodes hr
    rwa [← hdim] at hfail
  · intro hne dim
    obtain ⟨r, hr, hdim⟩ := nodesCheck_eq_ok hne hnodes dim
    obtain ⟨-, hpass⟩ := verdict_of_checkNodes hr
    rwa [← hdim] at hpass
  · intro hnil dim
    rw [nodesCheck, if_pos hnil] at hnodes
    obtain ⟨rfl, -⟩ := Prod.ext_iff.mp (Except.ok.inj hnodes)
    rfl

/-- The check returns, and says what the checks of the nodes and of the line say, exactly where the
line is described by an object, if at all, and GPUs are counted in decimal digits. -/
theorem spec_check_iff (lib : SpecLibrary) (details : Json) :
    (∃ a, evaluateProviderSpecs lib details = .ok a ∧ Faithful lib details a) ↔
      Legible lib details := by
  have hfaithful : (∃ a, evaluateProviderSpecs lib details = .ok a ∧ Faithful lib details a) ↔
      ∃ a, evaluateProviderSpecs lib details = .ok a := by
    refine ⟨fun ⟨a, ha, _⟩ ↦ ⟨a, ha⟩, fun ⟨a, ha⟩ ↦ ⟨a, ha, ?_⟩⟩
    obtain ⟨nodes, hnodes, ha⟩ := exists_of_bind_eq_ok ha
    obtain ⟨network, -, ha⟩ := exists_of_bind_eq_ok ha
    obtain rfl := Except.ok.inj ha
    exact faithful_assessment network hnodes
  have hnetwork (nodes : (NodeDimension → Verdict) × List Text) :
      (∃ a, (networkCheck lib (items details) >>= fun network ↦ pure (assessment nodes network)) =
          .ok a) ↔ ∃ c, networkCheck lib (items details) = .ok c := by
    rw [isOk_bind_iff]
    exact ⟨fun ⟨c, hc, _⟩ ↦ ⟨c, hc⟩, fun ⟨c, hc⟩ ↦ ⟨c, hc, _, rfl⟩⟩
  rw [hfaithful, evaluateProviderSpecs, isOk_bind_iff]
  constructor
  · rintro ⟨nodes, hnodes, hrest⟩
    exact ⟨isOk_networkCheck_iff.mp ((hnetwork nodes).mp hrest), isOk_nodesCheck_iff.mp ⟨_, hnodes⟩⟩
  · rintro ⟨hline, hquantities⟩
    obtain ⟨nodes, hnodes⟩ := isOk_nodesCheck_iff.mpr hquantities
    exact ⟨nodes, hnodes, (hnetwork nodes).mpr (isOk_networkCheck_iff.mpr hline)⟩

/-- A library of ASCII characters, and of the digits two and three as superscripts. -/
def asciiLibrary : SpecLibrary where
  lower := Text.lower
  upper := fun t ↦ t.map Char.toUpper
  isAlnum := Char.isAlphanum
  isDigit := fun c ↦ isDecimal c || c = '²' || c = '³'
  str
    | .str t => t
    | _ => []
  general := fun _ ↦ []

/-- A line described by a word raises `AttributeError`, a quantity in superscripts `ValueError`. -/
theorem spec_check_raises :
    evaluateProviderSpecs asciiLibrary (.obj [("infrastructure".toList, .str "fibre".toList)]) =
        .error .attributeError ∧
      evaluateProviderSpecs asciiLibrary (.obj [("nodes".toList, .arr [.obj
        [("gpu".toList, .str "RTX 4090".toList), ("quantity".toList, .str "²".toList)]])]) =
        .error .valueError :=
  ⟨rfl, rfl⟩

end SpecCheck

end GreenCompute
