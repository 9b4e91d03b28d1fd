import GreenCompute.Validator.Reviews

/-!
# What an automated approval rests on

An approval is to rest on an uploaded certificate of the applicant: genuine, undisputed, renewable,
recent, of one of the four schemes and in the applicant's name. The policy checks all of it, but two
of its tests are wider than what they stand for. A scheme is taken for REGO or REC when its letters
begin with those, and a name for another when its letters occur in the other's. So an application
that passes every gate is approved rightly exactly if some certificate that the policy finds
eligible meets the two conditions by whole words.
-/

namespace GreenCompute

/-! ## What a certificate is to say -/

namespace Library

variable (lib : Library)

/-- The spellings of the four schemes. -/
def schemeSpellings : List Text :=
  acceptedSchemes ++ ["itracke", "itrackeu", "guaranteeoforigin", "guaranteesoforigin",
    "renewableenergycertificate", "renewableenergycredits"].map String.toList

/-- The words of a scheme. -/
def schemeWords (scheme : Text) : List Text :=
  Text.words (fun c ↦ !lib.isAlnum c) (lib.lower scheme)

/-- A scheme that is one of the four: it spells one, or its first word is REGO or REC. -/
def NamesScheme (scheme : Option Text) : Prop :=
  ∃ s ∈ scheme, lib.schemeToken s ∈ schemeSpellings ∨
    ∃ w ∈ (lib.schemeWords s).head?, w = "rego".toList ∨ w = "rec".toList

/-- Names whose significant words are all among the other's, for one of the two. -/
def SameHolder (a b : Option Text) : Prop :=
  lib.significantWords a ≠ [] ∧ lib.significantWords b ≠ [] ∧
    (lib.significantWords a ⊆ lib.significantWords b ∨
      lib.significantWords b ⊆ lib.significantWords a)

/-- What the policy asks of a certificate and computes as it is meant. -/
structure Substantiates (now : Time) (cert : CertAssessment) : Prop where
  genuine : cert.isGenuine = true
  undisputed : cert.authenticityConcerns = []
  renewable : ∃ p ∈ cert.renewablePercent, minRenewablePct ≤ p
  generator : cert.identifiesHolderAsGenerator = some true
  recent : ∃ issued ∈ lib.parseDate cert.issueDate,
    now - maxCertificateAge ≤ issued ∧ issued ≤ now + 86400
  unexpired : ∀ validUntil ∈ lib.parseDate cert.validUntil, now ≤ validUntil

/-- A certificate that an approval of this applicant may rest on. -/
structure Evidences (now : Time) (organization : Text) (cert : CertAssessment) : Prop where
  substantiates : lib.Substantiates now cert
  scheme : lib.NamesScheme cert.scheme
  holder : lib.SameHolder cert.holderName (some organization)

/-- The certificate states no expiry, or one that can be read. -/
def ReadableExpiry (cert : CertAssessment) : Prop :=
  Text.strip (cert.validUntil.getD []) = [] ∨ (lib.parseDate cert.validUntil).isSome = true

/-! ### Schemes -/

variable {lib}

/-- The first word of a scheme begins its token. -/
theorem head_schemeWords {scheme w : Text} (h : w ∈ (lib.schemeWords scheme).head?) :
    w <+: lib.schemeToken scheme := by
  have htoken : lib.schemeToken scheme = (lib.schemeWords scheme).flatten := by
    rw [schemeWords, Text.flatten_words, schemeToken]
    simp only [Bool.not_not]
  rw [htoken]
  cases hwords : lib.schemeWords scheme with
  | nil => simp [hwords] at h
  | cons v ws =>
    obtain rfl : v = w := by simpa [hwords] using h
    exact List.prefix_append _ _

/-- The policy takes a scheme for one of the four if it spells one, and also if its letters begin
with those of REGO or REC. -/
theorem accepted_iff {s : Text} (hs : s ≠ []) :
    (∃ t ∈ lib.normalizeScheme (some s), t ∈ acceptedSchemes) ↔
      lib.schemeToken s ∈ schemeSpellings ∨ "rego".toList <+: lib.schemeToken s ∨
        "rec".toList <+: lib.schemeToken s := by
  rw [normalizeScheme, if_neg hs]
  dsimp only
  generalize lib.schemeToken s = t
  split
  · next h =>
    have hspelled : ∀ t ∈ ["itrack".toList, "itracke".toList, "itrackeu".toList],
        t ∈ schemeSpellings := by decide
    exact iff_of_true ⟨_, rfl, by decide⟩ (.inl (hspelled t h))
  · split
    · next h =>
      have hspelled : ∀ t ∈ ["guaranteeoforigin".toList, "guaranteesoforigin".toList],
          t ∈ schemeSpellings := by decide
      exact iff_of_true ⟨_, rfl, by decide⟩ (.inl (hspelled t h))
    · split
      · next h => exact iff_of_true ⟨_, rfl, by decide⟩ (.inr (.inl h))
      · split
        · next h =>
          refine iff_of_true ⟨_, rfl, by decide⟩ ?_
          rcases h with h | h
          · exact .inr (.inr h)
          · have hspelled : ∀ t ∈ ["renewableenergycertificate".toList,
                "renewableenergycredits".toList], t ∈ schemeSpellings := by decide
            exact .inl (hspelled t h)
        · next hitrack hgoo hrego hrec =>
          -- What is left is compared as it is.
          constructor
          · rintro ⟨u, hu, h⟩
            obtain rfl := Option.some.inj hu
            exact .inl (List.mem_append_left _ h)
          · rintro (h | h | h)
            · have hother : ∀ t ∈ schemeSpellings, t ∈ acceptedSchemes ∨
                  t ∈ ["itrack".toList, "itracke".toList, "itrackeu".toList] ∨
                  t ∈ ["guaranteeoforigin".toList, "guaranteesoforigin".toList] ∨
                  t ∈ ["renewableenergycertificate".toList, "renewableenergycredits".toList] := by
                decide
              rcases hother t h with h | h | h | h
              · exact ⟨t, rfl, h⟩
              · exact (hitrack h).elim
              · exact (hgoo h).elim
              · exact (hrec (.inr h)).elim
            · exact (hrego h).elim
            · exact (hrec (.inl h)).elim

theorem NamesScheme.accepted {scheme : Option Text} (h : lib.NamesScheme scheme) :
    ∃ t ∈ lib.normalizeScheme scheme, t ∈ acceptedSchemes := by
  obtain ⟨s, rfl, hs⟩ := h
  have hne : s ≠ [] := by
    rintro rfl
    rcases hs with hs | ⟨w, hw, -⟩
    · rw [schemeToken, lib.lower_nil, List.filter_nil] at hs
      revert hs
      decide
    · rw [schemeWords, lib.lower_nil] at hw
      cases hw
  refine (accepted_iff hne).mpr (hs.imp_right ?_)
  rintro ⟨w, hw, rfl | rfl⟩
  · exact .inl (head_schemeWords hw)
  · exact .inr (head_schemeWords hw)

/-! ### Names -/

theorem word_significantWords {name : Option Text} {w : Text}
    (h : w ∈ lib.significantWords name) : w ≠ [] ∧ ∀ c ∈ w, Text.isBlank c = false :=
  Text.word_of_mem_words (List.mem_filter.mp h).1

theorem significantWords_of_empty {name : Option Text} (h : name.getD [] = []) :
    lib.significantWords name = [] := by
  rw [significantWords, h, lib.lower_nil]
  rfl

/-- A normalized name is one of its significant words. -/
theorem words_normName (name : Option Text) :
    Text.words Text.isBlank (lib.normName name) = lib.significantWords name := by
  rw [normName]
  split
  · next h => rw [significantWords_of_empty h, Text.words_nil]
  · rw [Text.words_strip, Text.words_unwords (by decide) fun w ↦ word_significantWords]

theorem normName_eq_nil {name : Option Text} :
    lib.normName name = [] ↔ lib.significantWords name = [] := by
  constructor
  · intro h
    rw [← words_normName, h, Text.words_nil]
  · intro h
    rw [normName, h]
    split <;> rfl

/-- Names match by whole words, or because one of them is a part of the other. -/
theorem SameHolder.namesMatch {a b : Option Text} (h : lib.SameHolder a b) :
    lib.namesMatch a b = true := by
  obtain ⟨ha, hb, hwords⟩ := h
  have hna : lib.normName a ≠ [] := normName_eq_nil.not.mpr ha
  have hnb : lib.normName b ≠ [] := normName_eq_nil.not.mpr hb
  rw [Library.namesMatch]
  dsimp only
  rw [if_neg (not_or.mpr ⟨hna, hnb⟩), words_normName, words_normName]
  split
  · rfl
  · have hta : (lib.significantWords a).toFinset ≠ ∅ := by
      rwa [ne_eq, List.toFinset_eq_empty_iff]
    have htb : (lib.significantWords b).toFinset ≠ ∅ := by
      rwa [ne_eq, List.toFinset_eq_empty_iff]
    rw [if_neg (not_or.mpr ⟨hta, htb⟩), decide_eq_true_eq]
    have hcard : ∀ {s t : Finset Text}, s ≠ ∅ → t ≠ ∅ → s ⊆ t →
        max 1 (min s.card t.card) ≤ (s ∩ t).card := by
      intro s t hs _ hst
      rw [Finset.inter_eq_left.mpr hst]
      exact max_le (Finset.card_pos.mpr (Finset.nonempty_iff_ne_empty.mpr hs)) (min_le_left _ _)
    rcases hwords with hsub | hsub
    · exact hcard hta htb fun w hw ↦ List.mem_toFinset.mpr (hsub (List.mem_toFinset.mp hw))
    · rw [Finset.inter_comm, min_comm]
      exact hcard htb hta fun w hw ↦ List.mem_toFinset.mpr (hsub (List.mem_toFinset.mp hw))

/-! ### Eligibility -/

/-- A check adds nothing to the reasons exactly if it passes. -/
theorem unless_eq_nil {p : Prop} [Decidable p] {reason : Text} :
    (if p then [] else [reason]) = [] ↔ p := by
  by_cases hp : p
  · rw [if_pos hp]
    exact iff_of_true rfl hp
  · rw [if_neg hp]
    exact iff_of_false (List.cons_ne_nil _ _) hp

theorem when_eq_nil {p : Prop} [Decidable p] {reason : Text} {rest : List Text} :
    (if p then [reason] else rest) = [] ↔ ¬p ∧ rest = [] := by
  by_cases hp : p
  · rw [if_pos hp]
    exact iff_of_false (List.cons_ne_nil _ _) fun h ↦ h.1 hp
  · rw [if_neg hp]
    exact (and_iff_right hp).symm

theorem issued_eq_nil {cert : CertAssessment} {now : Time} :
    (match lib.parseDate cert.issueDate with
      | none => ["issue date missing/unparseable".toList]
      | some issued =>
        if issued < now - maxCertificateAge then
          ["issued more than 12 months ago (".toList ++ cert.issueDate.getD [] ++ ")".toList]
        else if now + 86400 < issued then
          ["issue date is in the future (".toList ++ cert.issueDate.getD [] ++ ")".toList]
        else []) = [] ↔ ∃ issued ∈ lib.parseDate cert.issueDate,
          now - maxCertificateAge ≤ issued ∧ issued ≤ now + 86400 := by
  cases lib.parseDate cert.issueDate with
  | none => exact iff_of_false (List.cons_ne_nil _ _) (by rintro ⟨_, ⟨⟩, _⟩)
  | some issued =>
    dsimp only
    rw [when_eq_nil, when_eq_nil, not_lt, not_lt, and_iff_left rfl]
    constructor
    · exact fun h ↦ ⟨issued, rfl, h⟩
    · rintro ⟨_, h, hwithin⟩
      exact Option.some.inj h ▸ hwithin

theorem expiry_eq_nil {cert : CertAssessment} {now : Time} :
    (match lib.parseDate cert.validUntil with
      | none => []
      | some validUntil =>
        if validUntil < now then
          ["certificate expired (".toList ++ cert.validUntil.getD [] ++ ")".toList]
        else []) = [] ↔ ∀ validUntil ∈ lib.parseDate cert.validUntil, now ≤ validUntil := by
  cases lib.parseDate cert.validUntil with
  | none => exact iff_of_true rfl (by rintro _ ⟨⟩)
  | some validUntil =>
    dsimp only
    rw [when_eq_nil, not_lt, and_iff_left rfl]
    exact ⟨fun h _ hvalid ↦ Option.some.inj hvalid ▸ h, fun h ↦ h _ rfl⟩

theorem certEligibility_eq_nil {cert : CertAssessment} {now : Time} :
    lib.certEligibility cert now = [] ↔ lib.Substantiates now cert ∧
      ∃ s ∈ lib.normalizeScheme cert.scheme, s ∈ acceptedSchemes := by
  rw [certEligibility, List.append_eq_nil_iff, List.append_eq_nil_iff, List.append_eq_nil_iff,
    List.append_eq_nil_iff, List.append_eq_nil_iff, List.append_eq_nil_iff, unless_eq_nil,
    unless_eq_nil, unless_eq_nil, unless_eq_nil, unless_eq_nil]
  constructor
  · rintro ⟨⟨⟨⟨⟨⟨h₁, h₂⟩, h₃⟩, h₄⟩, h₅⟩, h₆⟩, h₇⟩
    exact ⟨⟨h₁, h₂, h₄, h₅, issued_eq_nil.mp h₆, expiry_eq_nil.mp h₇⟩, h₃⟩
  · rintro ⟨⟨h₁, h₂, h₄, h₅, h₆, h₇⟩, h₃⟩
    exact ⟨⟨⟨⟨⟨⟨h₁, h₂⟩, h₃⟩, h₄⟩, h₅⟩, issued_eq_nil.mpr h₆⟩, expiry_eq_nil.mpr h₇⟩

end Library

/-! ## What an approval is to rest on -/

namespace Review

variable (x : Review)

/-- An assessment of an uploaded energy certificate. -/
def Assessed (cert : CertAssessment) : Prop :=
  ∃ n att, x.attachments[n]? = some att ∧ x.lib.kind att = .energy ∧
    x.readCertificate n att = some cert

/-- The certificate that is relied on, and what the registries say about it and the business. -/
structure Judged (cert : CertAssessment) (certReg companyReg : RegistryResult) : Prop where
  chosen : ∃ certs accreditations,
    x.readEach 0 x.attachments = some (certs, accreditations) ∧ x.winner certs = some cert
  asked : x.askRegistries cert = some (certReg, companyReg)

/-- The declared nodes are confirmed conformant. -/
def Conformant : Prop := ∃ spec ∈ x.evaluateProviderSpecs x.form, spec.conformant = some true

/-- What an approval is to rest on, with a condition more on the certificate. -/
structure Founded (also : CertAssessment → Prop) : Prop where
  certificate : ∃ cert, x.Assessed cert ∧ x.lib.Evidences x.now x.organization cert ∧ also cert
  specs : x.Conformant
  confirmed : ∃ cert certReg companyReg, x.Judged cert certReg companyReg ∧
    certReg.contradicts = false ∧ companyReg.contradicts = false ∧
      x.confidenceThreshold ≤
        foldRegistryConfidence cert.confidence (mergeRegistry certReg companyReg)

/-- The review approves the application. -/
def Approves : Prop := ∃ d ∈ x.runReview, d.decision = .approve

/-- The submission is complete, its hardware is not leased, its nodes conform, and the certificate
relied on passes the registries and the threshold. -/
structure PassesGates (certs : List CertAssessment) : Prop where
  complete : x.lib.completenessReasons x.form x.organization certs.length = []
  owned : x.lib.looksLeased x.form x.description = some false
  specs : x.Conformant
  confirmed : ∃ cert certReg companyReg, x.winner certs = some cert ∧
    x.askRegistries cert = some (certReg, companyReg) ∧
      (mergeRegistry certReg companyReg).contradicts = false ∧
        x.confidenceThreshold ≤
          foldRegistryConfidence cert.confidence (mergeRegistry certReg companyReg)

variable {x}

/-! ### The attachments -/

theorem mem_readEach {n : ℕ} {atts : List ReviewAttachment} {certs : List CertAssessment}
    {accreditations : List AccreditationAssessment}
    (h : x.readEach n atts = some (certs, accreditations)) (cert : CertAssessment) :
    cert ∈ certs ↔ ∃ i att, atts[i]? = some att ∧ x.lib.kind att = .energy ∧
      x.readCertificate (n + i) att = some cert := by
  induction atts generalizing n certs accreditations with
  | nil =>
    obtain ⟨rfl, -⟩ := Prod.mk.inj (Option.some.inj h)
    simp
  | cons att atts ih =>
    -- The first attachment apart, the others are read one call later.
    have hlater : ∀ {certs accreditations}, x.readEach (n + 1) atts = some (certs, accreditations) →
        (cert ∈ certs ↔ ∃ i att', (att :: atts)[i + 1]? = some att' ∧ x.lib.kind att' = .energy ∧
          x.readCertificate (n + (i + 1)) att' = some cert) := by
      intro certs accreditations hrest
      rw [ih hrest]
      simp only [List.getElem?_cons_succ, Nat.add_assoc, Nat.add_comm 1]
    have hsplit : (∃ i att', (att :: atts)[i]? = some att' ∧ x.lib.kind att' = .energy ∧
        x.readCertificate (n + i) att' = some cert) ↔
        (x.lib.kind att = .energy ∧ x.readCertificate n att = some cert) ∨
          ∃ i att', (att :: atts)[i + 1]? = some att' ∧ x.lib.kind att' = .energy ∧
            x.readCertificate (n + (i + 1)) att' = some cert := by
      constructor
      · rintro ⟨i, att', hatt, hkind, hread⟩
        cases i with
        | zero =>
          obtain rfl := Option.some.inj hatt
          exact .inl ⟨hkind, hread⟩
        | succ i => exact .inr ⟨i, att', hatt, hkind, hread⟩
      · rintro (⟨hkind, hread⟩ | ⟨i, att', hatt, hkind, hread⟩)
        · exact ⟨0, att, rfl, hkind, hread⟩
        · exact ⟨i + 1, att', hatt, hkind, hread⟩
    rw [hsplit]
    rw [readEach] at h
    split at h
    · next hkind =>
      obtain ⟨a, ha, h⟩ := Option.bind_eq_some_iff.mp h
      obtain ⟨⟨certs', accreditations'⟩, hrest, h⟩ := Option.bind_eq_some_iff.mp h
      obtain ⟨rfl, -⟩ := Prod.mk.inj (Option.some.inj h)
      rw [List.mem_cons, hlater hrest, ha, and_iff_right hkind, Option.some_inj, eq_comm]
    · next hkind =>
      obtain ⟨a, ha, h⟩ := Option.bind_eq_some_iff.mp h
      obtain ⟨⟨certs', accreditations'⟩, hrest, h⟩ := Option.bind_eq_some_iff.mp h
      obtain ⟨rfl, -⟩ := Prod.mk.inj (Option.some.inj h)
      rw [hlater hrest, hkind]
      simp
    · next hkind =>
      rw [hlater h, hkind]
      simp

/-! ### The certificate that is relied on -/

theorem winner_eligible {certs : List CertAssessment} {cert : CertAssessment}
    (h : x.winner certs = some cert) : cert ∈ certs ∧ x.certFails cert = [] := by
  obtain ⟨hmem, hfails⟩ := List.mem_filter.mp (List.argmax_mem h)
  exact ⟨hmem, List.isEmpty_iff.mp hfails⟩

theorem exists_winner {certs : List CertAssessment} {cert : CertAssessment} (hmem : cert ∈ certs)
    (hfails : x.certFails cert = []) : ∃ w, x.winner certs = some w := by
  rw [← Option.ne_none_iff_exists', winner, ne_eq, List.argmax_eq_none]
  intro hnil
  have hfilter : cert ∈ certs.filter fun c ↦ (x.certFails c).isEmpty :=
    List.mem_filter.mpr ⟨hmem, List.isEmpty_iff.mpr hfails⟩
  rw [hnil] at hfilter
  cases hfilter

theorem certFails_eq_nil {cert : CertAssessment} :
    x.certFails cert = [] ↔ x.lib.certEligibility cert x.now = [] ∧
      x.lib.namesMatch cert.holderName (some x.organization) = true := by
  rw [certFails]
  split
  · next h => exact (and_iff_left h).symm
  · next h =>
    exact iff_of_false (List.append_ne_nil_of_right_ne_nil _ (List.cons_ne_nil _ _))
      fun hboth ↦ h hboth.2

/-- What the policy finds eligible, and meets its two wide tests by whole words, is evidence; and
evidence is eligible. -/
theorem evidences_iff {cert : CertAssessment} :
    x.lib.Evidences x.now x.organization cert ↔ x.certFails cert = [] ∧
      x.lib.NamesScheme cert.scheme ∧ x.lib.SameHolder cert.holderName (some x.organization) := by
  rw [certFails_eq_nil, Library.certEligibility_eq_nil]
  constructor
  · rintro ⟨hsubstantiates, hscheme, hholder⟩
    exact ⟨⟨⟨hsubstantiates, hscheme.accepted⟩, hholder.namesMatch⟩, hscheme, hholder⟩
  · rintro ⟨⟨⟨hsubstantiates, -⟩, -⟩, hscheme, hholder⟩
    exact ⟨hsubstantiates, hscheme, hholder⟩

/-! ### The gates -/

/-- Where one lookup contradicts the claim, so does their merger. -/
theorem mergeRegistry_contradicts {certReg companyReg : RegistryResult}
    (h : (mergeRegistry certReg companyReg).contradicts = false) :
    certReg.contradicts = false ∧ companyReg.contradicts = false := by
  constructor
  · by_contra hne
    obtain ⟨havailable, hmatched⟩ : certReg.available = true ∧ certReg.matched = some false := by
      simpa [RegistryResult.contradicts] using hne
    simp [RegistryResult.contradicts, mergeRegistry, havailable, hmatched] at h
  · by_contra hne
    obtain ⟨havailable, hmatched⟩ :
        companyReg.available = true ∧ companyReg.matched = some false := by
      simpa [RegistryResult.contradicts] using hne
    simp [RegistryResult.contradicts, mergeRegistry, havailable, hmatched] at h

/-- No hard gate has failed. -/
def Clears (checks : List CheckResult) : Prop :=
  ∀ c ∈ checks, c.hardGate = true → c.passed = true

theorem clears_checks {energyCount : ℕ} {registry : RegistryResult}
    {winningCertificate : Option Text} {fails : List Text} {confidence : ℚ} :
    (∃ r ∈ x.checks energyCount registry winningCertificate fails confidence, Clears r.2) ↔
      x.lib.completenessReasons x.form x.organization energyCount = [] ∧
        x.lib.looksLeased x.form x.description = some false ∧ x.Conformant ∧
          winningCertificate.isSome = true ∧ registry.contradicts = false ∧
            x.confidenceThreshold ≤ confidence := by
  constructor
  · rintro ⟨r, hr, hclears⟩
    obtain ⟨leased, hleased, hr⟩ := Option.bind_eq_some_iff.mp hr
    obtain ⟨spec, hspec, hr⟩ := Option.bind_eq_some_iff.mp hr
    obtain rfl := Option.some.inj hr
    simp only [Clears, List.forall_mem_cons] at hclears
    obtain ⟨-, hcomplete, howned, hspecs, henergy, hregistry, hconfidence, -⟩ := hclears
    have howned' : leased = false := Bool.not_eq_true' _ ▸ howned trivial
    refine ⟨List.isEmpty_iff.mp (hcomplete trivial), howned' ▸ hleased, ⟨spec, hspec, ?_⟩,
      henergy trivial, ?_, of_decide_eq_true (hconfidence trivial)⟩
    · exact of_decide_eq_true (hspecs trivial)
    · exact Bool.not_eq_true' _ ▸ hregistry trivial
  · rintro ⟨hcomplete, howned, ⟨spec, hspec, hconformant⟩, henergy, hregistry, hconfidence⟩
    refine ⟨_, Option.bind_eq_some_iff.mpr ⟨false, howned,
      Option.bind_eq_some_iff.mpr ⟨spec, hspec, rfl⟩⟩, ?_⟩
    simp only [Clears, List.forall_mem_cons]
    refine ⟨nofun, fun _ ↦ List.isEmpty_iff.mpr hcomplete, fun _ ↦ rfl,
      fun _ ↦ decide_eq_true hconformant, fun _ ↦ henergy, fun _ ↦ ?_,
      fun _ ↦ decide_eq_true hconfidence, nofun⟩
    rw [hregistry]
    rfl

theorem approve_iff {certs : List CertAssessment} {accreditations : List AccreditationAssessment}
    {registry : RegistryResult} {winningCertificate : Option Text} {fails : List Text}
    {confidence : ℚ} :
    (∃ d ∈ x.evaluateApplication certs accreditations registry winningCertificate fails confidence,
        d.decision = .approve) ↔
      ∃ r ∈ x.checks certs.length registry winningCertificate fails confidence, Clears r.2 := by
  have hdecision : ∀ checks : List CheckResult,
      (if (checks.filter fun c ↦ c.hardGate && !c.passed).isEmpty then Decision.approve
        else .reject) = .approve ↔ Clears checks := by
    intro checks
    have hempty : (checks.filter fun c ↦ c.hardGate && !c.passed).isEmpty = true ↔
        Clears checks := by
      simp [Clears, List.filter_eq_nil_iff]
    rw [← hempty]
    split
    · next h => exact iff_of_true rfl h
    · next h => exact iff_of_false nofun h
  constructor
  · rintro ⟨d, hd, happrove⟩
    obtain ⟨r, hr, hd⟩ := Option.bind_eq_some_iff.mp hd
    obtain rfl := Option.some.inj hd
    exact ⟨r, hr, (hdecision r.2).mp happrove⟩
  · rintro ⟨r, hr, hclears⟩
    exact ⟨_, Option.bind_eq_some_iff.mpr ⟨r, hr, rfl⟩, (hdecision r.2).mpr hclears⟩

/-! ### Approvals -/

/-- The review approves exactly if the certificates can be read and the gates are passed. -/
theorem approves_iff : x.Approves ↔ ∃ certs accreditations,
    x.readEach 0 x.attachments = some (certs, accreditations) ∧ x.PassesGates certs := by
  rw [Approves, runReview]
  constructor
  · rintro ⟨d, hd, happrove⟩
    obtain ⟨⟨certs, accreditations⟩, hread, hd⟩ := Option.bind_eq_some_iff.mp hd
    refine ⟨certs, accreditations, hread, ?_⟩
    dsimp only at hd
    split at hd
    · -- Without a certificate to rely on there is no approval.
      have hgates := clears_checks.mp (approve_iff.mp ⟨d, hd, happrove⟩)
      exact nomatch hgates.2.2.2.1
    · next cert hwinner =>
      obtain ⟨⟨certReg, companyReg⟩, hasked, hd⟩ := Option.bind_eq_some_iff.mp hd
      obtain ⟨hcomplete, howned, hspecs, -, hregistry, hconfidence⟩ :=
        clears_checks.mp (approve_iff.mp ⟨d, hd, happrove⟩)
      exact ⟨hcomplete, howned, hspecs,
        cert, certReg, companyReg, hwinner, hasked, hregistry, hconfidence⟩
  · rintro ⟨certs, accreditations, hread, hcomplete, howned, hspecs,
      cert, certReg, companyReg, hwinner, hasked, hregistry, hconfidence⟩
    obtain ⟨d, hd, happrove⟩ : ∃ d ∈ x.evaluateApplication certs accreditations
        (mergeRegistry certReg companyReg) (some cert.filename) []
        (foldRegistryConfidence cert.confidence (mergeRegistry certReg companyReg)),
        d.decision = .approve :=
      approve_iff.mpr (clears_checks.mpr
        ⟨hcomplete, howned, hspecs, rfl, hregistry, hconfidence⟩)
    refine ⟨d, Option.bind_eq_some_iff.mpr ⟨(certs, accreditations), hread, ?_⟩, happrove⟩
    dsimp only
    rw [hwinner]
    exact Option.bind_eq_some_iff.mpr ⟨(certReg, companyReg), hasked, hd⟩

/-- Whatever is approved passes the policy's own checks, so it is founded if a certificate is. -/
theorem founded_iff {also : CertAssessment → Prop} {certs : List CertAssessment}
    {accreditations : List AccreditationAssessment}
    (hread : x.readEach 0 x.attachments = some (certs, accreditations)) (h : x.PassesGates certs) :
    x.Founded also ↔ ∃ cert ∈ certs, x.certFails cert = [] ∧ x.lib.NamesScheme cert.scheme ∧
      x.lib.SameHolder cert.holderName (some x.organization) ∧ also cert := by
  have hassessed : ∀ cert, x.Assessed cert ↔ cert ∈ certs := by
    intro cert
    rw [mem_readEach hread, Assessed]
    simp only [Nat.zero_add]
  constructor
  · rintro ⟨⟨cert, hcert, hevidence, halso⟩, -, -⟩
    obtain ⟨hfails, hscheme, hholder⟩ := evidences_iff.mp hevidence
    exact ⟨cert, (hassessed cert).mp hcert, hfails, hscheme, hholder, halso⟩
  · rintro ⟨cert, hcert, hfails, hscheme, hholder, halso⟩
    obtain ⟨w, certReg, companyReg, hwinner, hasked, hregistry, hconfidence⟩ := h.confirmed
    obtain ⟨hcert', hcompany⟩ := mergeRegistry_contradicts hregistry
    exact ⟨⟨cert, (hassessed cert).mpr hcert, evidences_iff.mpr ⟨hfails, hscheme, hholder⟩, halso⟩,
      h.specs, w, certReg, companyReg, ⟨⟨certs, accreditations, hread, hwinner⟩, hasked⟩,
      hcert', hcompany, hconfidence⟩

variable (x) in
/-- If the submission passes the gates, some certificate that the policy finds eligible names its
scheme and its holder by whole words, and meets a condition more. -/
def WholeWords (also : CertAssessment → Prop) : Prop :=
  ∀ certs accreditations, x.readEach 0 x.attachments = some (certs, accreditations) →
    x.PassesGates certs → ∃ cert ∈ certs, x.certFails cert = [] ∧
      x.lib.NamesScheme cert.scheme ∧ x.lib.SameHolder cert.holderName (some x.organization) ∧
        also cert

theorem founded_of_approves_iff {also : CertAssessment → Prop} :
    (x.Approves → x.Founded also) ↔ x.WholeWords also := by
  constructor
  · intro h certs accreditations hread hgates
    have happroves : x.Approves := approves_iff.mpr ⟨certs, accreditations, hread, hgates⟩
    exact (founded_iff hread hgates).mp (h happroves)
  · intro h happroves
    obtain ⟨certs, accreditations, hread, hgates⟩ := approves_iff.mp happroves
    exact (founded_iff hread hgates).mpr (h certs accreditations hread hgates)

end Review

/-- The days from the epoch to a date, and a format that is read. -/
def isoDate (raw format : Text) : Option Time :=
  match raw with
  | [y₁, y₂, y₃, y₄, '-', m₁, m₂, '-', d₁, d₂] =>
    if format = "%Y-%m-%d".toList ∧ [y₁, y₂, y₃, y₄, m₁, m₂, d₁, d₂].all Char.isDigit then
      let number (digits : Text) : ℕ := digits.foldl (fun n c ↦ 10 * n + (c.toNat - 48)) 0
      let month := number [m₁, m₂]
      -- Years are counted from March, which puts the leap day at their end.
      let year := number [y₁, y₂, y₃, y₄] - if month ≤ 2 then 1 else 0
      let day : ℤ := 365 * year + year / 4 - year / 100 + year / 400 +
        (153 * ((month + 9) % 12) + 2) / 5 + number [d₁, d₂] - 1 - 719468
      some (86400 * day)
    else none
  | _ => none

/-- The library on plain texts and dates. -/
def plainLibrary : Library where
  lower := Text.lower
  lower_nil := rfl
  isAlnum := Char.isAlphanum
  strptime := isoDate
  fromIsoFormat := fun _ ↦ none
  str
    | .str s => s
    | .bool b => if b then "True".toList else "False".toList
    | .num n => (toString n).toList
    | _ => "None".toList
  repr t := Char.ofNat 39 :: t.getD [] ++ [Char.ofNat 39]
  number n := (toString (n.getD 0)).toList
  twoDecimals x := (toString (roundHalfEven (x * 100))).toList

/-- A certificate that is in order but for its scheme. -/
def recyclingCertificate : CertAssessment where
  isGenuine := true
  scheme := some "Recycled heat voucher".toList
  certificateNumber := some "R-123456".toList
  holderName := some "Green Data Ltd".toList
  identifiesHolderAsGenerator := some true
  renewablePercent := some 100
  issueDate := some "2026-03-01".toList
  confidence := 9 / 10

/-- The application that the certificate is uploaded with. -/
def recyclingReview : Review where
  lib := plainLibrary
  evaluateProviderSpecs := fun _ ↦ some ⟨some true, []⟩
  details :=
    let text (s : String) : Json := .str s.toList
    let place : Json := .obj [("country".toList, text "United Kingdom")]
    .obj [("business".toList, .obj [("name".toList, text "Green Data Ltd"),
        ("registration_number".toList, text "12345678"), ("address".toList, place)]),
      ("data_center_address".toList, place),
      ("energy".toList, .obj [("sources".toList, .arr [text "Solar"])]),
      ("infrastructure".toList, .obj [("upload_speed".toList, text "10 Gbps"),
        ("download_speed".toList, text "10 Gbps"), ("internet_type".toList, text "commercial")]),
      ("nodes".toList, .arr [.obj [("gpu".toList, text "8x RTX 4090"),
        ("cpu".toList, text "Dual Xeon"), ("ram".toList, text "512GB"),
        ("storage".toList, text "8TB"), ("pcie".toList, text "PCIe Gen 4")]])]
  organization := "Green Data Ltd".toList
  description := []
  country := some "United Kingdom".toList
  signatureVerified := true
  attachments := [⟨"energy-0.pdf".toList, "application/pdf".toList, []⟩]
  reviewer := ⟨fun _ _ _ _ ↦ some recyclingCertificate, fun _ _ _ ↦ some {}⟩
  registry := ⟨fun _ _ _ _ ↦ some {}, fun _ _ _ ↦ some {}⟩
  confidenceThreshold := 3 / 4
  now := 86400 * 20647

end GreenCompute
