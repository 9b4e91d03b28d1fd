import GreenCompute.Validator.Approvals

/-!
# The order of the documents

A review reads every document by itself, and is decided on the eligible certificate that the model is
surest of. Only that one is looked up in the registries. So the decision depends neither on the
order of the documents nor on any that could not be chosen, with one exception: of several eligible
certificates with the same highest confidence the first is looked up, and the registries may say
other things of the others.
-/

namespace GreenCompute

/-- The reviewer answers by the document alone, not by how many it has read before. -/
structure CertReviewer.Functional (r : CertReviewer) : Prop where
  energy : ∀ n att org sources,
    r.reviewEnergyCertificate n att org sources = r.reviewEnergyCertificate 0 att org sources
  accreditation : ∀ n att org, r.reviewAccreditation n att org = r.reviewAccreditation 0 att org

namespace Review

variable (x : Review)

/-- The decision of the review. -/
def decision : Option Decision := x.runReview.map ReviewDecision.decision

/-- The same application with other documents. -/
def withAttachments (attachments : List ReviewAttachment) : Review :=
  { x with attachments := attachments }

/-- A document that the decision cannot rest on: an accreditation, an energy certificate that fails
the policy, or none of the two. -/
def Immaterial (att : ReviewAttachment) : Prop :=
  match x.lib.kind att with
  | .energy => ∃ cert ∈ x.readCertificate 0 att, x.certFails cert ≠ []
  | .accreditation => ∃ a, x.readAccreditation 0 att = some a
  | .other => True

/-- An eligible certificate than which the model is surer of no other. -/
structure Surest (cert : CertAssessment) : Prop where
  assessed : x.Assessed cert
  eligible : x.certFails cert = []
  surest : ∀ other, x.Assessed other → x.certFails other = [] → other.confidence ≤ cert.confidence

/-- What counts of the registries' answers about a certificate and the business. -/
def verdictOn (cert : CertAssessment) : Option (Bool × Option Bool) :=
  (x.askRegistries cert).map fun r ↦
    ((mergeRegistry r.1 r.2).available, (mergeRegistry r.1 r.2).matched)

/-- The registries say the same of all the certificates that the model is surest of. -/
def TiesAgree : Prop :=
  ∀ cert other, x.Surest cert → x.Surest other → x.verdictOn cert = x.verdictOn other

variable {x}

/-! ## Reading the documents -/

theorem readCertificate_zero (h : x.reviewer.Functional) (n : ℕ) (att : ReviewAttachment) :
    x.readCertificate n att = x.readCertificate 0 att := by
  rw [readCertificate, readCertificate, h.energy]

theorem readAccreditation_zero (h : x.reviewer.Functional) (n : ℕ) (att : ReviewAttachment) :
    x.readAccreditation n att = x.readAccreditation 0 att := by
  rw [readAccreditation, readAccreditation, h.accreditation]

/-- What is read off one document. -/
def readOne (x : Review) (att : ReviewAttachment) :
    Option (List CertAssessment × List AccreditationAssessment) :=
  match x.lib.kind att with
  | .energy => (x.readCertificate 0 att).map fun a ↦ ([a], [])
  | .accreditation => (x.readAccreditation 0 att).map fun a ↦ ([], [a])
  | .other => some ([], [])

/-- The documents are read one by one. -/
theorem readEach_cons (h : x.reviewer.Functional) (n : ℕ) (att : ReviewAttachment)
    (atts : List ReviewAttachment) :
    x.readEach n (att :: atts) = (x.readOne att).bind fun r ↦
      (x.readEach (n + 1) atts).map fun rest ↦ (r.1 ++ rest.1, r.2 ++ rest.2) := by
  rw [readEach, readOne]
  cases x.lib.kind att with
  | energy =>
    dsimp only
    rw [readCertificate_zero h]
    cases x.readCertificate 0 att with
    | none => rfl
    | some a => cases x.readEach (n + 1) atts <;> rfl
  | accreditation =>
    dsimp only
    rw [readAccreditation_zero h]
    cases x.readAccreditation 0 att with
    | none => rfl
    | some a => cases x.readEach (n + 1) atts <;> rfl
  | other =>
    dsimp only
    cases x.readEach (n + 1) atts <;> rfl

theorem readEach_zero (h : x.reviewer.Functional) (n : ℕ) (atts : List ReviewAttachment) :
    x.readEach n atts = x.readEach 0 atts := by
  induction atts generalizing n with
  | nil => rfl
  | cons att atts ih => rw [readEach_cons h, readEach_cons h, ih (n + 1), ih (0 + 1)]

/-- Two readings of which one has the certificates of the other in another order, or which both
raise. -/
def Alike (r r' : Option (List CertAssessment × List AccreditationAssessment)) : Prop :=
  Option.Rel (fun r r' ↦ r.1.Perm r'.1) r r'

/-- The second reading has all of the first, and further certificates that fail the policy. -/
def Extends (x : Review) (r r' : Option (List CertAssessment × List AccreditationAssessment)) :
    Prop :=
  Option.Rel (fun r r' ↦ ∃ failing, r'.1 = r.1 ++ failing ∧
    ∀ cert ∈ failing, x.certFails cert ≠ []) r r'

private theorem rel_map {α β : Type} {R S : α → β → Prop} {f : α → α} {g : β → β} {o : Option α}
    {o' : Option β} (h : Option.Rel R o o') (hrel : ∀ a b, R a b → S (f a) (g b)) :
    Option.Rel S (o.map f) (o'.map g) := by
  cases h with
  | none => exact .none
  | some hab => exact .some (hrel _ _ hab)

theorem Alike.trans {r r' r'' : Option (List CertAssessment × List AccreditationAssessment)}
    (h : Alike r r') (h' : Alike r' r'') : Alike r r'' := by
  cases h with
  | none =>
    cases h'
    exact .none
  | some hperm =>
    cases h' with
    | some hperm' => exact .some (hperm.trans hperm')

/-- The order of the documents changes only the order of what is read off them. -/
theorem readEach_perm (h : x.reviewer.Functional) {atts atts' : List ReviewAttachment}
    (hperm : atts.Perm atts') : Alike (x.readEach 0 atts) (x.readEach 0 atts') := by
  induction hperm with
  | nil => exact .some (.refl _)
  | @cons att l l' _ ih =>
    rw [readEach_cons h, readEach_cons h, readEach_zero h, readEach_zero h _ l']
    cases x.readOne att with
    | none => exact .none
    | some r => exact rel_map ih fun _ _ hrest ↦ hrest.append_left r.1
  | swap att att' atts =>
    rw [readEach_cons h, readEach_cons h, readEach_cons h, readEach_cons h, readEach_zero h _ atts]
    cases x.readOne att with
    | none =>
      cases x.readOne att' with
      | none => exact .none
      | some r' => exact .none
    | some r =>
      cases x.readOne att' with
      | none => exact .none
      | some r' =>
        cases x.readEach 0 atts with
        | none => exact .none
        | some rest =>
          have hswap : (r'.1 ++ (r.1 ++ rest.1)).Perm (r.1 ++ (r'.1 ++ rest.1)) := by
            rw [← List.append_assoc, ← List.append_assoc]
            exact List.perm_append_comm.append_right rest.1
          exact .some hswap
  | trans _ _ ih ih' => exact ih.trans ih'

/-- What is read off a document that the decision cannot rest on: no certificate that is
eligible. -/
def Failing (x : Review) (r : List CertAssessment × List AccreditationAssessment) : Prop :=
  ∀ cert ∈ r.1, x.certFails cert ≠ []

theorem Immaterial.readOne {att : ReviewAttachment} (h : x.Immaterial att) :
    ∃ r, x.readOne att = some r ∧ x.Failing r := by
  cases hkind : x.lib.kind att with
  | energy =>
    obtain ⟨cert, hcert, hfail⟩ : ∃ cert ∈ x.readCertificate 0 att, x.certFails cert ≠ [] := by
      simpa only [Immaterial, hkind] using h
    have hread : x.readOne att = some ([cert], []) := by
      rw [Review.readOne, hkind, Option.mem_def.mp hcert, Option.map_some]
    refine ⟨_, hread, fun other hother ↦ ?_⟩
    obtain rfl := List.mem_singleton.mp hother
    exact hfail
  | accreditation =>
    obtain ⟨a, ha⟩ : ∃ a, x.readAccreditation 0 att = some a := by
      simpa only [Immaterial, hkind] using h
    have hread : x.readOne att = some ([], [a]) := by
      rw [Review.readOne, hkind, ha, Option.map_some]
    exact ⟨_, hread, fun _ hnone ↦ absurd hnone List.not_mem_nil⟩
  | other =>
    have hread : x.readOne att = some ([], []) := by
      rw [Review.readOne, hkind]
    exact ⟨_, hread, fun _ hnone ↦ absurd hnone List.not_mem_nil⟩

theorem readEach_immaterial (h : x.reviewer.Functional) {extra : List ReviewAttachment}
    (hextra : ∀ att ∈ extra, x.Immaterial att) :
    ∃ r, x.readEach 0 extra = some r ∧ x.Failing r := by
  induction extra with
  | nil => exact ⟨_, rfl, fun _ hnone ↦ absurd hnone List.not_mem_nil⟩
  | cons att extra ih =>
    obtain ⟨rest, hrest, hfails⟩ := ih fun att' hatt' ↦ hextra att' (.tail _ hatt')
    obtain ⟨r, hr, hfailsOne⟩ := (hextra att List.mem_cons_self).readOne
    have hread : x.readEach 0 (att :: extra) = some (r.1 ++ rest.1, r.2 ++ rest.2) := by
      rw [readEach_cons h, readEach_zero h, hr, hrest, Option.bind_some, Option.map_some]
    refine ⟨_, hread, fun cert hcert ↦ ?_⟩
    exact (List.mem_append.mp hcert).elim (hfailsOne cert) (hfails cert)

theorem readEach_append_immaterial (h : x.reviewer.Functional) (atts : List ReviewAttachment)
    {extra : List ReviewAttachment} (hextra : ∀ att ∈ extra, x.Immaterial att) :
    x.Extends (x.readEach 0 atts) (x.readEach 0 (atts ++ extra)) := by
  induction atts with
  | nil =>
    obtain ⟨r, hr, hfails⟩ := readEach_immaterial h hextra
    rw [List.nil_append, hr]
    exact .some ⟨r.1, rfl, hfails⟩
  | cons att atts ih =>
    rw [List.cons_append, readEach_cons h, readEach_cons h, readEach_zero h,
      readEach_zero h _ (atts ++ extra)]
    cases x.readOne att with
    | none => exact .none
    | some r =>
      refine rel_map ih fun rest rest' hrest ↦ ?_
      obtain ⟨failing, hfailing, hfails⟩ := hrest
      refine ⟨failing, ?_, hfails⟩
      rw [hfailing, List.append_assoc]

/-! ## The choice of the certificate -/

/-- Lists that have the same eligible certificates, but for their order. -/
theorem eligible_perm {certs certs' failing : List CertAssessment}
    (hperm : (certs ++ failing).Perm certs') (hfails : ∀ cert ∈ failing, x.certFails cert ≠ []) :
    (certs.filter fun c ↦ (x.certFails c).isEmpty).Perm
      (certs'.filter fun c ↦ (x.certFails c).isEmpty) := by
  have hnone : (failing.filter fun c ↦ (x.certFails c).isEmpty) = [] := by
    refine List.filter_eq_nil_iff.mpr fun cert hcert hempty ↦ ?_
    exact hfails cert hcert (List.isEmpty_iff.mp hempty)
  have hfilter := hperm.filter fun c ↦ (x.certFails c).isEmpty
  rwa [List.filter_append, hnone, List.append_nil] at hfilter

theorem surest_of_winner {certs : List CertAssessment}
    {accreditations : List AccreditationAssessment}
    (hread : x.readEach 0 x.attachments = some (certs, accreditations)) {cert : CertAssessment}
    (h : cert ∈ certs) (hfails : x.certFails cert = [])
    (hbest : ∀ other ∈ certs, x.certFails other = [] → other.confidence ≤ cert.confidence) :
    x.Surest cert := by
  have hassessed : ∀ other, x.Assessed other ↔ other ∈ certs := by
    intro other
    rw [mem_readEach hread, Assessed]
    simp only [zero_add]
  refine ⟨(hassessed cert).mpr h, hfails, fun other hother ↦ ?_⟩
  exact hbest other ((hassessed other).mp hother)

/-! ## The decision -/

/-- A review decides, unless it raises; and it decides to approve or to reject. -/
theorem map_decision_eq {d d' : Option ReviewDecision} (hsome : d.isSome = d'.isSome)
    (happrove : (∃ r ∈ d, r.decision = .approve) ↔ ∃ r ∈ d', r.decision = .approve) :
    d.map ReviewDecision.decision = d'.map ReviewDecision.decision := by
  cases d with
  | none =>
    cases d' with
    | none => rfl
    | some r' => cases hsome
  | some r =>
    cases d' with
    | none => cases hsome
    | some r' =>
      have happrove' : r.decision = .approve ↔ r'.decision = .approve := by
        simpa using happrove
      rw [Option.map_some, Option.map_some]
      cases hr : r.decision <;> cases hr' : r'.decision <;> simp_all

theorem isSome_evaluateApplication {certs : List CertAssessment}
    {accreditations : List AccreditationAssessment} {registry : RegistryResult}
    {winningCertificate : Option Text} {fails : List Text} {confidence : ℚ} :
    (x.evaluateApplication certs accreditations registry winningCertificate fails
      confidence).isSome =
      ((x.lib.looksLeased x.form x.description).isSome &&
        (x.evaluateProviderSpecs x.form).isSome) := by
  rw [evaluateApplication, checks]
  cases x.lib.looksLeased x.form x.description with
  | none => rfl
  | some leased => cases x.evaluateProviderSpecs x.form <;> rfl

/-- The decision depends on whether there are energy certificates, on whether one is relied on, and
on the registries and the confidence. -/
theorem decision_evaluateApplication {certs certs' : List CertAssessment}
    {accreditations accreditations' : List AccreditationAssessment}
    {registry registry' : RegistryResult} {winner winner' : Option Text} {fails fails' : List Text}
    {confidence confidence' : ℚ} (hwinner : winner.isSome = winner'.isSome)
    (hcount : winner.isSome = true → certs ≠ [] ∧ certs' ≠ [])
    (hregistry : registry.contradicts = registry'.contradicts)
    (hconfidence : confidence = confidence') :
    (x.evaluateApplication certs accreditations registry winner fails confidence).map
        ReviewDecision.decision =
      (x.evaluateApplication certs' accreditations' registry' winner' fails' confidence').map
        ReviewDecision.decision := by
  refine map_decision_eq ?_ ?_
  · rw [isSome_evaluateApplication, isSome_evaluateApplication]
  · rw [approve_iff, approve_iff, clears_checks, clears_checks, ← hwinner, hregistry, hconfidence]
    refine and_congr_left fun hrest ↦ ?_
    obtain ⟨-, -, hrelied, -⟩ := hrest
    obtain ⟨hcerts, hcerts'⟩ := hcount hrelied
    have hlength : ¬certs.length < 1 := by
      have := List.length_pos_iff.mpr hcerts
      omega
    have hlength' : ¬certs'.length < 1 := by
      have := List.length_pos_iff.mpr hcerts'
      omega
    rw [Library.completenessReasons, Library.completenessReasons, if_neg hlength, if_neg hlength']

/-- Where the registries say the same of two certificates of the same confidence, so does the review
decide on either. -/
theorem decision_on {certs certs' : List CertAssessment}
    {accreditations accreditations' : List AccreditationAssessment} {cert cert' : CertAssessment}
    (hmem : cert ∈ certs) (hmem' : cert' ∈ certs') (hverdict : x.verdictOn cert = x.verdictOn cert')
    (hconfidence : cert.confidence = cert'.confidence) :
    ((x.askRegistries cert).bind fun r ↦
      x.evaluateApplication certs accreditations (mergeRegistry r.1 r.2) (some cert.filename) []
        (foldRegistryConfidence cert.confidence (mergeRegistry r.1 r.2))).map
          ReviewDecision.decision =
      ((x.askRegistries cert').bind fun r ↦
        x.evaluateApplication certs' accreditations' (mergeRegistry r.1 r.2) (some cert'.filename)
          [] (foldRegistryConfidence cert'.confidence (mergeRegistry r.1 r.2))).map
            ReviewDecision.decision := by
  rw [verdictOn, verdictOn] at hverdict
  cases hasked : x.askRegistries cert with
  | none =>
    rw [hasked] at hverdict
    rw [Option.map_eq_none_iff.mp hverdict.symm]
    simp only [Option.bind_none, Option.map_none]
  | some r =>
    rw [hasked] at hverdict
    obtain ⟨r', hr', hsame⟩ := Option.map_eq_some_iff.mp hverdict.symm
    obtain ⟨havailable, hmatched⟩ := Prod.mk.inj hsame
    rw [hr', Option.bind_some, Option.bind_some]
    refine decision_evaluateApplication rfl
      (fun _ ↦ ⟨List.ne_nil_of_mem hmem, List.ne_nil_of_mem hmem'⟩) ?_ ?_
    · rw [RegistryResult.contradicts, RegistryResult.contradicts, havailable, hmatched]
    · rw [foldRegistryConfidence, foldRegistryConfidence, havailable, hmatched, hconfidence]

/-- What the review makes of the assessments. -/
def judge (x : Review) : List CertAssessment × List AccreditationAssessment → Option ReviewDecision
  | (certs, accreditations) =>
    match x.winner certs with
    | none => x.evaluateApplication certs accreditations {} none (x.closestFails certs) 0
    | some cert => (x.askRegistries cert).bind fun r ↦
      x.evaluateApplication certs accreditations (mergeRegistry r.1 r.2) (some cert.filename) []
        (foldRegistryConfidence cert.confidence (mergeRegistry r.1 r.2))

theorem readEach_withAttachments (x : Review) (attachments : List ReviewAttachment) (n : ℕ)
    (atts : List ReviewAttachment) :
    (x.withAttachments attachments).readEach n atts = x.readEach n atts := by
  induction atts generalizing n with
  | nil => rfl
  | cons att atts ih =>
    rw [readEach, readEach, ih]
    rfl

theorem decision_eq (x : Review) (attachments : List ReviewAttachment) :
    (x.withAttachments attachments).decision =
      (x.readEach 0 attachments).bind fun r ↦ (x.judge r).map ReviewDecision.decision := by
  have hrun : (x.withAttachments attachments).runReview =
      (x.readEach 0 attachments).bind x.judge := by
    rw [runReview]
    change ((x.withAttachments attachments).readEach 0 attachments).bind _ = _
    rw [readEach_withAttachments]
    cases x.readEach 0 attachments with
    | none => rfl
    | some r =>
      have hwinner : (x.withAttachments attachments).winner r.1 = x.winner r.1 := rfl
      simp only [Option.bind_some, hwinner, judge]
      cases x.winner r.1 <;> rfl
  rw [decision, hrun, Option.map_bind]
  rfl

/-- The choice falls on the same certificate, or on another one of the same confidence. -/
theorem judge_eq (hties : x.TiesAgree)
    {r r' : List CertAssessment × List AccreditationAssessment}
    (hread : x.readEach 0 x.attachments = some r)
    (hperm : (r.1.filter fun c ↦ (x.certFails c).isEmpty).Perm
      (r'.1.filter fun c ↦ (x.certFails c).isEmpty)) :
    (x.judge r).map ReviewDecision.decision = (x.judge r').map ReviewDecision.decision := by
  obtain ⟨certs, accreditations⟩ := r
  obtain ⟨certs', accreditations'⟩ := r'
  have hsame (cert : CertAssessment) (hfails : x.certFails cert = []) :
      cert ∈ certs' → cert ∈ certs := by
    intro hcert
    have hfilter := hperm.mem_iff.mpr
      (List.mem_filter.mpr ⟨hcert, List.isEmpty_iff.mpr hfails⟩)
    exact (List.mem_filter.mp hfilter).1
  have hback (cert : CertAssessment) (hfails : x.certFails cert = []) :
      cert ∈ certs → cert ∈ certs' := by
    intro hcert
    have hfilter := hperm.mem_iff.mp
      (List.mem_filter.mpr ⟨hcert, List.isEmpty_iff.mpr hfails⟩)
    exact (List.mem_filter.mp hfilter).1
  have hbest {l : List CertAssessment} {cert : CertAssessment} (h : x.winner l = some cert) :
      ∀ other ∈ l, x.certFails other = [] → other.confidence ≤ cert.confidence := by
    intro other hother hfails
    exact List.le_of_mem_argmax (List.mem_filter.mpr ⟨hother, List.isEmpty_iff.mpr hfails⟩) h
  rw [judge, judge]
  cases hwinner : x.winner certs with
  | none =>
    have hnone : x.winner certs' = none := by
      rw [winner, List.argmax_eq_none] at hwinner ⊢
      rw [hwinner] at hperm
      exact hperm.symm.eq_nil
    rw [hnone]
    exact decision_evaluateApplication rfl (by rintro ⟨⟩) rfl rfl
  | some cert =>
    obtain ⟨hmem, hfails⟩ := winner_eligible hwinner
    obtain ⟨cert', hwinner'⟩ := exists_winner (hback cert hfails hmem) hfails
    obtain ⟨hmem', hfails'⟩ := winner_eligible hwinner'
    rw [hwinner']
    have hconfidence : cert.confidence = cert'.confidence := by
      refine le_antisymm ?_ ?_
      · exact hbest hwinner' cert (hback cert hfails hmem) hfails
      · exact hbest hwinner cert' (hsame cert' hfails' hmem') hfails'
    have hsurest := surest_of_winner hread hmem hfails (hbest hwinner)
    have hsurest' := surest_of_winner hread (hsame cert' hfails' hmem') hfails'
      fun other hother hother' ↦ (hbest hwinner other hother hother').trans hconfidence.le
    exact decision_on hmem hmem' (hties cert cert' hsurest hsurest') hconfidence

/-- The documents in another order, with others that the decision cannot rest on: the decision is
the same, if the registries say the same of the certificates that the model is surest of. -/
theorem decision_depends_on_evidence (x : Review) (hreviewer : x.reviewer.Functional)
    {extra attachments : List ReviewAttachment} (hextra : ∀ att ∈ extra, x.Immaterial att)
    (hperm : (x.attachments ++ extra).Perm attachments) (hties : x.TiesAgree) :
    (x.withAttachments attachments).decision = x.decision := by
  have hfirst : x.decision = (x.withAttachments x.attachments).decision := rfl
  rw [hfirst, decision_eq, decision_eq]
  have hextends := readEach_append_immaterial hreviewer x.attachments hextra
  have horder := readEach_perm hreviewer hperm
  generalize hread : x.readEach 0 x.attachments = o at hextends ⊢
  generalize x.readEach 0 (x.attachments ++ extra) = o' at hextends horder
  generalize x.readEach 0 attachments = o'' at horder ⊢
  cases hextends with
  | none =>
    cases horder
    rfl
  | some hfailing =>
    cases horder with
    | some hsame =>
      obtain ⟨failing, happend, hfails⟩ := hfailing
      rw [happend] at hsame
      exact (judge_eq hties hread (eligible_perm hsame hfails)).symm

/-! Two certificates of the same confidence, of which the registry knows one. -/

/-- An application with two energy certificates in order, numbered by their files. -/
def tiedReview : Review :=
  let file (name : String) : ReviewAttachment := ⟨name.toList, "application/pdf".toList, []⟩
  { recyclingReview with
    attachments := [file "energy-1.pdf", file "energy-2.pdf"]
    reviewer := ⟨fun _ att _ _ ↦ some { recyclingCertificate with
      certificateNumber := some att.filename }, fun _ _ _ ↦ some {}⟩
    registry := ⟨fun _ number _ _ ↦
      some { available := true, matched := some (number = some "energy-1.pdf".toList) },
      fun _ _ _ ↦ some {}⟩ }

/-- An accreditation is added and the certificates change places, where there is one. -/
theorem decision_depends_on_evidence_recycling :
    (recyclingReview.withAttachments
      [⟨"accred-0.pdf".toList, "application/pdf".toList, []⟩,
        ⟨"energy-0.pdf".toList, "application/pdf".toList, []⟩]).decision =
      recyclingReview.decision := by
  have hassessed : ∀ cert, recyclingReview.Assessed cert →
      cert = { recyclingCertificate with filename := "energy-0.pdf".toList } := by
    rintro cert ⟨n, att, hatt, -, hread⟩
    cases n with
    | zero =>
      obtain rfl := Option.some.inj hatt
      exact (Option.some.inj hread).symm
    | succ n => cases hatt
  have hextra : ∀ att ∈ ([⟨"accred-0.pdf".toList, "application/pdf".toList, []⟩] :
      List ReviewAttachment), recyclingReview.Immaterial att := by
    intro att hatt
    obtain rfl := List.mem_singleton.mp hatt
    exact ⟨{ filename := "accred-0.pdf".toList }, rfl⟩
  have hties : recyclingReview.TiesAgree := by
    intro cert other hcert hother
    rw [hassessed cert hcert.assessed, hassessed other hother.assessed]
  exact decision_depends_on_evidence recyclingReview ⟨fun _ _ _ _ ↦ rfl, fun _ _ _ ↦ rfl⟩ hextra
    (List.Perm.swap _ _ _) hties

/-- The certificates change places, and the application is turned down. -/
theorem order_decides :
    ¬∀ (x : Review) (attachments : List ReviewAttachment), x.reviewer.Functional →
      x.attachments.Perm attachments → (x.withAttachments attachments).decision = x.decision := by
  intro h
  have hswapped := h tiedReview tiedReview.attachments.reverse
    ⟨fun _ _ _ _ ↦ rfl, fun _ _ _ ↦ rfl⟩ (List.reverse_perm _).symm
  revert hswapped
  decide +kernel

end Review

end GreenCompute
