import GreenCompute.Foundations.JsonText

/-!
# Reading the certificate model's answer

The body of the answer is decoded, its envelope is loaded, and the content of the first choice is
one string or parts with texts. The object in it is read as it stands; where that fails, from the
first brace to the last one.

A caller expects `OpenRouterError` of every failure. `certificate_reader_iff` says for which bodies
that is so, and for which prose around an object the object is what is read.
-/

namespace GreenCompute

open CodePoints JsonText

/-- How a review fails: `OpenRouterError`, without what another exception adds to its text;
`UnicodeDecodeError`; `TypeError`; an exception of `json.loads` that is no `JSONDecodeError`. -/
inductive ReviewFailure where
  | openRouter (text : String)
  | unicodeDecode
  | typeError
  | json (e : JsonError)
  deriving DecidableEq

/-- What a request to the model ends with: `HTTPError`, another failure of the request, a body. -/
inductive OpenRouterResponse where
  | httpError
  | unreachable
  | body (bytes : List UInt8)

namespace CertificateReader

variable (limits : JsonLimits)

/-- `json.loads`, where `JSONDecodeError` is caught. -/
def loadsOr (text : String) (s : CodePoints) : Except ReviewFailure JsonValue :=
  match loads limits s with
  | .ok value => .ok value
  | .error .decode => .error (.openRouter text)
  | .error e => .error (.json e)

/-- `part.get("text", "")`, where it is joined. -/
def partText (part : List (CodePoints × JsonValue)) : Except ReviewFailure CodePoints :=
  match (part.lookup (of "text")).getD (.str []) with
  | .str text => .ok text
  | _ => .error .typeError

/-- `"".join(part.get("text", "") for part in content if isinstance(part, dict))` -/
def joinParts : List JsonValue → Except ReviewFailure CodePoints
  | [] => .ok []
  | .obj part :: parts => do
    let text ← partText part
    let rest ← joinParts parts
    pure (text ++ rest)
  | _ :: parts => joinParts parts

/-- The text of a content. -/
def contentText : JsonValue → Except ReviewFailure CodePoints
  | .arr parts => joinParts parts
  | .str text => .ok text
  | _ => .error (.openRouter "model content is not text")

/-- The text is fenced. -/
def Fenced (text : CodePoints) : Prop := of "```" <+: text

instance (text : CodePoints) : Decidable (Fenced text) := inferInstanceAs (Decidable (_ <+: _))

/-- The text without a code fence. -/
def unfenced (text : CodePoints) : CodePoints :=
  if Fenced text then
    let text := stripOf (· = '`'.toNat) text
    -- A brace that is not there is at -1: the part begins at the last character, or ends at 0.
    slice ((find '{'.toNat text).getD (text.length - 1))
      (((rfind '}'.toNat text).map (· + 1)).getD 0) text
  else text

/-- The value in a text, read from the first brace to the last one where it is no JSON. -/
def loadsWithin (text : CodePoints) : Except ReviewFailure JsonValue :=
  match loads limits text with
  | .ok value => .ok value
  | .error .decode =>
    match find '{'.toNat text, rfind '}'.toNat text with
    | some start, some stop =>
      loadsOr limits "invalid JSON in model response: " (slice start (stop + 1) text)
    | _, _ => .error (.openRouter "no JSON object in model response")
  | .error e => .error (.json e)

/-- `_parse_json_content` -/
def parseJsonContent (content : JsonValue) :
    Except ReviewFailure (List (CodePoints × JsonValue)) := do
  let text ← contentText content
  let value ← loadsWithin limits (unfenced (stripOf isBlank text))
  match value with
  | .obj items => .ok items
  | _ => .error (.openRouter "model response JSON is not an object")

/-- `value[key]`; none is a `KeyError` or a `TypeError`. -/
def getItem (key : String) : JsonValue → Option JsonValue
  | .obj items => items.lookup (of key)
  | _ => none

/-- `value[0]`; none is an `IndexError`, a `KeyError` or a `TypeError`. -/
def getFirst : JsonValue → Option JsonValue
  | .arr items => items.head?
  | .str text => text.head?.map fun c ↦ .str [c]
  | _ => none

/-- `envelope["choices"][0]["message"]["content"]` -/
def contentOf (envelope : JsonValue) : Option JsonValue := do
  let choices ← getItem "choices" envelope
  let choice ← getFirst choices
  let message ← getItem "message" choice
  getItem "content" message

/-- The text of an answer. -/
def readBody : OpenRouterResponse → Except ReviewFailure CodePoints
  | .httpError => .error (.openRouter "OpenRouter HTTP ")
  | .unreachable => .error (.openRouter "OpenRouter request failed: ")
  | .body bytes =>
    match decodeUtf8 bytes with
    | some raw => .ok raw
    | none => .error .unicodeDecode

/-- The content in an envelope. -/
def readEnvelope (raw : CodePoints) : Except ReviewFailure JsonValue := do
  let envelope ← loadsOr limits "unexpected OpenRouter envelope: " raw
  match contentOf envelope with
  | some content => .ok content
  | none => .error (.openRouter "unexpected OpenRouter envelope: ")

/-- `_chat`, of the answer to its request. -/
def chat (apiKey : CodePoints) (response : OpenRouterResponse) :
    Except ReviewFailure (List (CodePoints × JsonValue)) :=
  if apiKey = [] then .error (.openRouter "OpenRouter API key not configured")
  else do
    let raw ← readBody response
    let content ← readEnvelope limits raw
    parseJsonContent limits content

section

variable {α : Type} (modelValidate : List (CodePoints × JsonValue) → Option α)
  (apiKey filename : CodePoints) (response : OpenRouterResponse)

/-- A review of a certificate, the assessment of which `modelValidate` checks. -/
def review (text : String) : Except ReviewFailure α := do
  let payload ← chat limits apiKey response
  match modelValidate (JsonValue.setItem payload (of "filename") (.str filename)) with
  | some assessment => .ok assessment
  | none => .error (.openRouter text)

/-- `review_energy_certificate` -/
def reviewEnergyCertificate : Except ReviewFailure α :=
  review limits modelValidate apiKey filename response "could not parse energy assessment: "

/-- `review_accreditation` -/
def reviewAccreditation : Except ReviewFailure α :=
  review limits modelValidate apiKey filename response "could not parse accreditation assessment: "

end

/-! ## Failing as `OpenRouterError` only -/

/-- A value, or `OpenRouterError`. -/
def Settled {α : Type} (r : Except ReviewFailure α) : Prop :=
  ∀ e, r = .error e → ∃ text, e = .openRouter text

/-- JSON that is nested too deep, or holds an integer that is too long, for its parser. -/
def Overflows (s : CodePoints) : Prop :=
  loads limits s = .error .recursion ∨ loads limits s = .error .digits

/-- The parts of a content that are objects have no `text` but a string. -/
def TextParts : JsonValue → Prop
  | .arr parts => ∀ items, .obj items ∈ parts → ∀ value, items.lookup (of "text") = some value →
      ∃ text, value = .str text
  | _ => True

/-- A text is not beyond the parser: as it stands, or where it is no JSON, from the first brace to
the last one. -/
def Readable (text : CodePoints) : Prop :=
  ¬Overflows limits text ∧ (loads limits text = .error .decode → ∀ start stop,
    find '{'.toNat text = some start → rfind '}'.toNat text = some stop →
      ¬Overflows limits (slice start (stop + 1) text))

/-- A content that can be read, or is seen not to be one. -/
def LegibleContent (content : JsonValue) : Prop :=
  TextParts content ∧
    ∀ text, contentText content = .ok text → Readable limits (unfenced (stripOf isBlank text))

/-- A body that can be read, or is seen not to be one. -/
def Legible (bytes : List UInt8) : Prop :=
  ∃ raw, decodeUtf8 bytes = some raw ∧ ¬Overflows limits raw ∧
    ∀ envelope content, loads limits raw = .ok envelope → contentOf envelope = some content →
      LegibleContent limits content

variable {limits} {α β : Type}

theorem settled_ok (a : α) : Settled (.ok a) := nofun

theorem settled_openRouter (text : String) : Settled (.error (.openRouter text) : Except _ α) :=
  fun _ h ↦ ⟨text, (Except.error.inj h).symm⟩

/-- What follows a value settles it; a failure is settled already. -/
theorem settled_bind {r : Except ReviewFailure α} {f : α → Except ReviewFailure β} :
    Settled (r >>= f) ↔ Settled r ∧ ∀ a, r = .ok a → Settled (f a) := by
  cases r with
  | error e =>
    refine ⟨fun h ↦ ⟨fun e' he' ↦ h e' (congrArg Except.error (Except.error.inj he')), nofun⟩, ?_⟩
    exact fun h e' he' ↦ h.1 e' (congrArg Except.error (Except.error.inj he'))
  | ok a =>
    refine ⟨fun h ↦ ⟨settled_ok a, fun a' ha' ↦ Except.ok.inj ha' ▸ h⟩, fun h ↦ h.2 a rfl⟩

theorem not_settled_json (e : JsonError) : ¬Settled (.error (.json e) : Except _ α) :=
  fun h ↦ by
    obtain ⟨text, htext⟩ := h _ rfl
    cases htext

theorem settled_loadsOr {text : String} {s : CodePoints} :
    Settled (loadsOr limits text s) ↔ ¬Overflows limits s := by
  have hexhausted := loads_ne_exhausted limits s
  rw [loadsOr, Overflows]
  cases hloads : loads limits s with
  | ok value => exact iff_of_true (settled_ok value) nofun
  | error e =>
    cases e with
    | decode => exact iff_of_true (settled_openRouter text) nofun
    | recursion => exact iff_of_false (not_settled_json _) fun h ↦ h (.inl rfl)
    | digits => exact iff_of_false (not_settled_json _) fun h ↦ h (.inr rfl)
    | exhausted => exact absurd hloads hexhausted

theorem settled_partText {items : List (CodePoints × JsonValue)} :
    Settled (partText items) ↔
      ∀ value, items.lookup (of "text") = some value → ∃ text, value = .str text := by
  have hother : ¬Settled (.error .typeError : Except ReviewFailure CodePoints) := fun h ↦ by
    obtain ⟨text, htext⟩ := h _ rfl
    cases htext
  rw [partText]
  cases items.lookup (of "text") with
  | none => exact iff_of_true (settled_ok _) nofun
  | some value =>
    cases value with
    | str text => exact iff_of_true (settled_ok _) fun _ h ↦ ⟨text, (Option.some.inj h).symm⟩
    | null | bool _ | int _ | float _ | arr _ | obj _ =>
      refine iff_of_false hother fun h ↦ ?_
      obtain ⟨text, htext⟩ := h _ rfl
      cases htext

theorem settled_joinParts {parts : List JsonValue} :
    Settled (joinParts parts) ↔ TextParts (.arr parts) := by
  induction parts with
  | nil => exact iff_of_true (settled_ok _) nofun
  | cons part parts ih =>
    have hskip (h : ∀ items, part ≠ .obj items) :
        TextParts (.arr parts) ↔ TextParts (.arr (part :: parts)) := by
      refine ⟨fun hparts items hmem ↦ ?_, fun hparts items hmem ↦
        hparts items (List.mem_cons_of_mem _ hmem)⟩
      exact hparts items ((List.mem_cons.mp hmem).resolve_left fun heq ↦ h items heq.symm)
    cases part with
    | obj items =>
      have hcons : TextParts (.arr (.obj items :: parts)) ↔
          (∀ value, items.lookup (of "text") = some value → ∃ text, value = .str text) ∧
            TextParts (.arr parts) := by
        refine ⟨fun h ↦ ⟨h items List.mem_cons_self, fun items' hmem ↦
          h items' (List.mem_cons_of_mem _ hmem)⟩, fun h items' hmem ↦ ?_⟩
        rcases List.mem_cons.mp hmem with heq | hmem
        · exact JsonValue.obj.inj heq ▸ h.1
        · exact h.2 items' hmem
      rw [hcons, joinParts, settled_bind, settled_partText]
      refine and_congr_right fun htext ↦ ?_
      obtain ⟨text, hok⟩ : ∃ text, partText items = .ok text := by
        cases hpart : partText items with
        | ok text => exact ⟨text, rfl⟩
        | error e =>
          obtain ⟨text, rfl⟩ := settled_partText.mpr htext e hpart
          rw [partText] at hpart
          split at hpart <;> cases hpart
      rw [hok, ← ih]
      refine ⟨fun h ↦ (settled_bind.mp (h text rfl)).1, fun h text' _ ↦ settled_bind.mpr ⟨h, ?_⟩⟩
      exact fun rest _ ↦ settled_ok _
    | null | bool _ | int _ | float _ | str _ | arr _ => exact ih.trans (hskip nofun)

theorem settled_contentText {content : JsonValue} :
    Settled (contentText content) ↔ TextParts content := by
  cases content with
  | arr parts => exact settled_joinParts
  | str text => exact iff_of_true (settled_ok _) trivial
  | null | bool _ | int _ | float _ | obj _ => exact iff_of_true (settled_openRouter _) trivial

theorem settled_loadsWithin {text : CodePoints} :
    Settled (loadsWithin limits text) ↔ Readable limits text := by
  have hexhausted := loads_ne_exhausted limits text
  rw [loadsWithin, Readable]
  cases hloads : loads limits text with
  | ok value =>
    refine iff_of_true (settled_ok value) ⟨fun h ↦ ?_, nofun⟩
    rcases h with h | h <;> exact absurd (hloads.symm.trans h) nofun
  | error e =>
    cases e with
    | decode =>
      have hnot : ¬Overflows limits text := by
        rintro (h | h) <;> exact absurd (hloads.symm.trans h) nofun
      rw [and_iff_right hnot]
      dsimp only
      cases find '{'.toNat text with
      | none => exact iff_of_true (settled_openRouter _) nofun
      | some start =>
        cases rfind '}'.toNat text with
        | none => exact iff_of_true (settled_openRouter _) nofun
        | some stop =>
          dsimp only
          rw [settled_loadsOr]
          refine ⟨?_, fun h ↦ h rfl start stop rfl rfl⟩
          rintro h - _ _ ⟨⟩ ⟨⟩
          exact h
    | recursion => exact iff_of_false (not_settled_json _) fun h ↦ h.1 (.inl hloads)
    | digits => exact iff_of_false (not_settled_json _) fun h ↦ h.1 (.inr hloads)
    | exhausted => exact absurd hloads hexhausted

theorem settled_parseJsonContent {content : JsonValue} :
    Settled (parseJsonContent limits content) ↔ LegibleContent limits content := by
  have hobject (value : JsonValue) : Settled (α := List (CodePoints × JsonValue))
      (match value with
        | .obj items => .ok items
        | _ => .error (.openRouter "model response JSON is not an object")) := by
    cases value with
    | obj items => exact settled_ok items
    | null | bool _ | int _ | float _ | str _ | arr _ => exact settled_openRouter _
  rw [parseJsonContent, settled_bind, settled_contentText, LegibleContent]
  refine and_congr_right fun _ ↦ forall₂_congr fun text _ ↦ ?_
  rw [settled_bind, settled_loadsWithin]
  exact and_iff_left fun value _ ↦ hobject value

theorem settled_readEnvelope {raw : CodePoints} :
    Settled (readEnvelope limits raw) ↔ ¬Overflows limits raw := by
  rw [readEnvelope, settled_bind, settled_loadsOr]
  refine and_iff_left fun envelope _ ↦ ?_
  cases contentOf envelope with
  | none => exact settled_openRouter _
  | some content => exact settled_ok content

theorem readEnvelope_eq_ok {raw : CodePoints} {content : JsonValue} :
    readEnvelope limits raw = .ok content ↔
      ∃ envelope, loads limits raw = .ok envelope ∧ contentOf envelope = some content := by
  rw [readEnvelope, loadsOr]
  cases loads limits raw with
  | error e =>
    refine iff_of_false (fun h ↦ ?_) fun ⟨_, h, _⟩ ↦ nomatch h
    cases e <;> cases h
  | ok envelope =>
    have hcontent : (match contentOf envelope with
        | some content => (.ok content : Except ReviewFailure JsonValue)
        | none => .error (.openRouter "unexpected OpenRouter envelope: ")) = .ok content ↔
        contentOf envelope = some content := by
      cases contentOf envelope with
      | none => exact iff_of_false nofun nofun
      | some content' => exact ⟨fun h ↦ congrArg some (Except.ok.inj h), fun h ↦ by cases h; rfl⟩
    refine hcontent.trans ⟨fun h ↦ ⟨envelope, rfl, h⟩, ?_⟩
    rintro ⟨_, ⟨⟩, h⟩
    exact h

theorem settled_chat {apiKey : CodePoints} {bytes : List UInt8} (hkey : apiKey ≠ []) :
    Settled (chat limits apiKey (.body bytes)) ↔ Legible limits bytes := by
  rw [chat, if_neg hkey, settled_bind, readBody, Legible]
  cases decodeUtf8 bytes with
  | none =>
    refine iff_of_false (fun h ↦ ?_) fun ⟨_, h, _⟩ ↦ nomatch h
    obtain ⟨text, htext⟩ := h.1 _ rfl
    cases htext
  | some raw =>
    have hread : Settled (do
        let content ← readEnvelope limits raw
        parseJsonContent limits content) ↔
        ¬Overflows limits raw ∧ ∀ envelope content, loads limits raw = .ok envelope →
          contentOf envelope = some content → LegibleContent limits content := by
      rw [settled_bind, settled_readEnvelope]
      refine and_congr_right fun _ ↦ ⟨fun h envelope content hloads hcontent ↦ ?_,
        fun h content hcontent ↦ ?_⟩
      · exact settled_parseJsonContent.mp
          (h content (readEnvelope_eq_ok.mpr ⟨envelope, hloads, hcontent⟩))
      · obtain ⟨envelope, hloads, hcontent⟩ := readEnvelope_eq_ok.mp hcontent
        exact settled_parseJsonContent.mpr (h envelope content hloads hcontent)
    refine ⟨fun h ↦ ⟨raw, rfl, hread.mp (h.2 raw rfl)⟩, ?_⟩
    rintro ⟨_, ⟨⟩, h⟩
    exact ⟨settled_ok raw, fun _ hraw ↦ Except.ok.inj hraw ▸ hread.mpr h⟩

/-- A review is settled exactly where the body is legible, whatever its assessment must be. -/
theorem settled_review {modelValidate : List (CodePoints × JsonValue) → Option α}
    {apiKey filename : CodePoints} {bytes : List UInt8} (text : String) (hkey : apiKey ≠ []) :
    Settled (review limits modelValidate apiKey filename (.body bytes) text) ↔
      Legible limits bytes := by
  rw [review, settled_bind, settled_chat hkey]
  refine and_iff_left fun payload _ ↦ ?_
  cases modelValidate (JsonValue.setItem payload (of "filename") (.str filename)) with
  | none => exact settled_openRouter text
  | some assessment => exact settled_ok assessment

/-! ## The object in a content -/

/-- A content that has the text as one string, or in the parts that have a text. -/
def HasText (content : JsonValue) (text : CodePoints) : Prop :=
  content = .str text ∨ ∃ (parts : List (List (CodePoints × JsonValue))) (pieces : List CodePoints),
    content = .arr (parts.map .obj) ∧
      parts.map (List.lookup (of "text")) = pieces.map (fun piece ↦ some (.str piece)) ∧
      pieces.flatten = text

/-- Prose without a brace. -/
def Braceless (s : CodePoints) : Prop := ∀ c ∈ s, c ≠ '{'.toNat ∧ c ≠ '}'.toNat

instance (s : CodePoints) : Decidable (Braceless s) :=
  inferInstanceAs (Decidable (∀ c ∈ s, c ≠ '{'.toNat ∧ c ≠ '}'.toNat))

/-- Nothing but white space. -/
def Blank (s : CodePoints) : Prop := ∀ c ∈ s, isBlank c = true

theorem Braceless.dropWhile {s : CodePoints} (h : Braceless s) (p : ℕ → Bool) :
    Braceless (s.dropWhile p) := fun c hc ↦ h c ((List.dropWhile_sublist p).mem hc)

theorem Braceless.rdropWhile {s : CodePoints} (h : Braceless s) (p : ℕ → Bool) :
    Braceless (s.rdropWhile p) := fun c hc ↦ h c ((List.rdropWhile_prefix p s).mem hc)

theorem HasText.contentText {content : JsonValue} {text : CodePoints} (h : HasText content text) :
    contentText content = .ok text := by
  rcases h with rfl | ⟨parts, pieces, rfl, hpieces, rfl⟩
  · rfl
  · change joinParts (parts.map .obj) = .ok pieces.flatten
    induction parts generalizing pieces with
    | nil =>
      obtain rfl := List.map_eq_nil_iff.mp hpieces.symm
      rfl
    | cons part parts ih =>
      obtain ⟨piece, pieces, rfl, hpart, hparts⟩ := List.map_eq_cons_iff.mp hpieces.symm
      have hrest := ih pieces hparts.symm
      have htext : partText part = .ok piece := by
        rw [partText, ← hpart]
        rfl
      rw [List.map_cons, joinParts, htext, List.flatten_cons]
      change (joinParts (parts.map .obj) >>= fun rest ↦ pure (piece ++ rest)) = _
      rw [hrest]
      rfl

section

variable {before m after : CodePoints} {items : List (CodePoints × JsonValue)}

/-- From the first brace to the last one there is the object. -/
theorem slice_of_braceless (hbefore : Braceless before) (hafter : Braceless after)
    {text : CodePoints} (htext : text = before ++ ('{'.toNat :: m ++ ['}'.toNat]) ++ after) :
    find '{'.toNat text = some before.length ∧
      rfind '}'.toNat text = some (before.length + m.length + 1) ∧
      slice before.length (before.length + m.length + 2) text = '{'.toNat :: m ++ ['}'.toNat] :=
  slice_between (fun c hc ↦ (hbefore c hc).1) (fun c hc ↦ (hafter c hc).2) text htext

/-- In a fence, the object is all that is left. -/
theorem unfenced_of_fenced (hbefore : Braceless before) (hafter : Braceless after)
    {text : CodePoints} (htext : text = before ++ ('{'.toNat :: m ++ ['}'.toNat]) ++ after)
    (hfenced : Fenced text) : unfenced text = '{'.toNat :: m ++ ['}'.toNat] := by
  have hstrip := stripOf_between (p := (· = '`'.toNat)) (a := '{'.toNat) (b := '}'.toNat)
    (by decide) (by decide) before m after
  obtain ⟨hfind, hrfind, hslice⟩ :=
    slice_of_braceless (hbefore.dropWhile _) (hafter.rdropWhile _) hstrip
  rw [unfenced, if_pos hfenced, htext]
  dsimp only
  rw [hfind, hrfind]
  exact hslice

/-- A text that is read as it stands where it loads to an object holds nothing else. -/
theorem blank_of_loads {text : CodePoints} (hbefore : Braceless before) (hafter : Braceless after)
    (htext : text = before.dropWhile isBlank ++ ('{'.toNat :: m ++ ['}'.toNat]) ++
      after.rdropWhile isBlank)
    (h : loads limits text = .ok (.obj items)) : Blank before ∧ Blank after := by
  have hblank : ∀ c ∈ of " \t\n\r", isBlank c = true ∧ c ≠ '{'.toNat ∧ c ≠ '}'.toNat := by decide
  obtain ⟨before', m', after', htext', hbefore', hafter'⟩ := braces_of_loads h
  obtain ⟨hfirst, hlast⟩ := eq_of_between
    (fun c hc ↦ (hbefore.dropWhile isBlank c hc).1)
    (fun c hc ↦ (hblank c (hbefore' c hc)).2.1)
    (fun c hc ↦ (hafter.rdropWhile isBlank c hc).2)
    (fun c hc ↦ (hblank c (hafter' c hc)).2.2) (htext.symm.trans htext')
  have hnil := eq_nil_of_dropWhile fun c hc ↦ (hblank c (hbefore' c (hfirst ▸ hc))).1
  have hnil' := eq_nil_of_rdropWhile fun c hc ↦ (hblank c (hafter' c (hlast ▸ hc))).1
  exact ⟨List.dropWhile_eq_nil_iff.mp hnil, List.rdropWhile_eq_nil_iff.mp hnil'⟩

/-- Which prose around an object leaves the object to be read. -/
theorem parseJsonContent_eq_ok_iff {content : JsonValue} (hbefore : Braceless before)
    (hafter : Braceless after)
    (hloads : loads limits ('{'.toNat :: m ++ ['}'.toNat]) = .ok (.obj items))
    (hcontent : HasText content (before ++ ('{'.toNat :: m ++ ['}'.toNat]) ++ after)) :
    parseJsonContent limits content = .ok items ↔
      Fenced (stripOf isBlank (before ++ ('{'.toNat :: m ++ ['}'.toNat]) ++ after)) ∨
      loads limits (stripOf isBlank (before ++ ('{'.toNat :: m ++ ['}'.toNat]) ++ after)) =
        .error .decode ∨ Blank before ∧ Blank after := by
  have hstrip := stripOf_between (p := isBlank) (a := '{'.toNat) (b := '}'.toNat)
    (by decide) (by decide) before m after
  have hbefore' := hbefore.dropWhile isBlank
  have hafter' := hafter.rdropWhile isBlank
  have hparse : parseJsonContent limits content = (do
      let value ← loadsWithin limits
        (unfenced (stripOf isBlank (before ++ ('{'.toNat :: m ++ ['}'.toNat]) ++ after)))
      match value with
      | .obj items => .ok items
      | _ => .error (.openRouter "model response JSON is not an object")) := by
    rw [parseJsonContent, hcontent.contentText]
    rfl
  generalize stripOf isBlank (before ++ ('{'.toNat :: m ++ ['}'.toNat]) ++ after) = text
    at hstrip hparse ⊢
  rw [hparse]
  by_cases hfenced : Fenced text
  · rw [unfenced_of_fenced hbefore' hafter' hstrip hfenced, loadsWithin, hloads]
    exact iff_of_true rfl (.inl hfenced)
  · rw [unfenced, if_neg hfenced, or_iff_right hfenced, loadsWithin]
    have halone : Blank before ∧ Blank after → loads limits text = .ok (.obj items) := by
      rintro ⟨hblank, hblank'⟩
      rw [hstrip, List.dropWhile_eq_nil_iff.mpr hblank, List.rdropWhile_eq_nil_iff.mpr hblank',
        List.nil_append, List.append_nil, hloads]
    cases htext : loads limits text with
    | ok value =>
      refine ⟨fun h ↦ .inr ?_, fun h ↦ ?_⟩
      · cases value with
        | obj items' => exact blank_of_loads hbefore hafter hstrip htext
        | null | bool _ | int _ | float _ | str _ | arr _ => cases h
      · obtain hblank := h.resolve_left nofun
        obtain rfl := Except.ok.inj (htext.symm.trans (halone hblank))
        rfl
    | error e =>
      have hnot : ¬(Blank before ∧ Blank after) := fun h ↦
        absurd (htext.symm.trans (halone h)) nofun
      cases e with
      | decode =>
        obtain ⟨hfind, hrfind, hslice⟩ := slice_of_braceless hbefore' hafter' hstrip
        dsimp only
        rw [hfind, hrfind]
        dsimp only
        rw [hslice, loadsOr, hloads]
        exact iff_of_true rfl (.inl rfl)
      | recursion | digits | exhausted =>
        refine iff_of_false nofun ?_
        rintro (h | h)
        · cases h
        · exact hnot h

end

/-- A review fails as `OpenRouterError` only, exactly where the body is legible. Of an object between
braceless prose a content has the object read exactly where the text is fenced, or is no JSON as a
whole, or is nothing but the object. -/
theorem certificate_reader_iff (limits : JsonLimits) :
    (∀ {α β : Type} (energy : List (CodePoints × JsonValue) → Option α)
      (accreditation : List (CodePoints × JsonValue) → Option β) (apiKey filename : CodePoints)
      (bytes : List UInt8),
      Settled (reviewEnergyCertificate limits energy apiKey filename (.body bytes)) ∧
          Settled (reviewAccreditation limits accreditation apiKey filename (.body bytes)) ↔
        apiKey = [] ∨ Legible limits bytes) ∧
    ∀ (content : JsonValue) (before m after : CodePoints) (items : List (CodePoints × JsonValue)),
      Braceless before → Braceless after →
      loads limits ('{'.toNat :: m ++ ['}'.toNat]) = .ok (.obj items) →
      HasText content (before ++ ('{'.toNat :: m ++ ['}'.toNat]) ++ after) →
      let text := stripOf isBlank (before ++ ('{'.toNat :: m ++ ['}'.toNat]) ++ after)
      parseJsonContent limits content = .ok items ↔
        Fenced text ∨ loads limits text = .error .decode ∨ Blank before ∧ Blank after := by
  refine ⟨fun energy accreditation apiKey filename bytes ↦ ?_, fun _ _ _ _ _ hbefore hafter ↦
    parseJsonContent_eq_ok_iff hbefore hafter⟩
  by_cases hkey : apiKey = []
  · subst hkey
    exact iff_of_true ⟨settled_openRouter _, settled_openRouter _⟩ (.inl rfl)
  · rw [or_iff_right hkey, reviewEnergyCertificate, reviewAccreditation, settled_review _ hkey,
      settled_review _ hkey, and_self]

/-- The limits of the interpreter, as they usually are. -/
def usualLimits : JsonLimits := ⟨1000, 4300⟩

/-- Bytes of a text in ASCII. -/
def ascii (s : String) : List UInt8 := (of s).map UInt8.ofNat

/-- An answer in parts, one of which has no text. -/
def nullPart : String :=
  "\x7b\"choices\": [\x7b\"message\": \x7b\"content\": [\x7b\"text\": null\x7d]\x7d\x7d]\x7d"

/-- A part whose text is null ends a review with a `TypeError`, a byte that is not UTF-8 with a
`UnicodeDecodeError`; and an object between brackets is not read. -/
theorem review_raises_typeError :
    reviewEnergyCertificate usualLimits (fun _ ↦ some ()) (of "key") (of "rego.pdf")
        (.body (ascii nullPart)) = .error .typeError ∧
    reviewAccreditation usualLimits (fun _ ↦ some ()) (of "key") (of "iso.pdf") (.body [0xff]) =
      .error .unicodeDecode ∧
    loads usualLimits (of "\x7b\x7d") = .ok (.obj []) ∧ Braceless (of "[") ∧ Braceless (of "]") ∧
    parseJsonContent usualLimits (.str (of "[" ++ of "\x7b\x7d" ++ of "]")) =
      .error (.openRouter "model response JSON is not an object") :=
  ⟨by decide +kernel, by decide +kernel, rfl, by decide, by decide, rfl⟩

/-- An object after a word of prose is read. -/
theorem object_after_prose :
    parseJsonContent usualLimits (.str (of "Answer: \x7b\"valid\": true\x7d")) =
      .ok [(of "valid", .bool true)] :=
  ((certificate_reader_iff usualLimits).2 (.str (of "Answer: \x7b\"valid\": true\x7d"))
    (of "Answer: ") (of "\"valid\": true") [] [(of "valid", .bool true)] (by decide) nofun rfl
    (.inl rfl)).mpr (.inr (.inl rfl))

end CertificateReader

end GreenCompute
