import GreenCompute.Gateway.Workloads

/-!
# The secrets of a workload

Two databases are alike if they differ in nothing but secrets (`WorkloadDb.Alike`), which is to say
that they are the same once redacted (`alike_iff`). The routes that strip the secrets answer the
same in databases that are alike; those that update and delete a workload answer with it as it is
stored. `equal_responses_iff` says which calls answer the same, `Alike.responses_eq` is about runs.
-/

namespace GreenCompute

/-! ## Databases that differ in secrets -/

/-- Two values under the same key of two metadata, of which a secret one may be any, and the
variables of an environment may have any values. -/
def SecretAlike (item item' : Text × Json) : Prop :=
  item.1 = item'.1 ∧ (isSecretMetaKey item.1 = true ∨ item.2 = item'.2 ∨
    item.1 = "env".toList ∧ ∃ vars vars' : List (Text × Json), item.2 = .obj vars ∧
      item'.2 = .obj vars' ∧ vars.map Prod.fst = vars'.map Prod.fst)

/-- Two metadata differ in nothing but secrets. -/
abbrev MetadataAlike : Metadata → Metadata → Prop := List.Forall₂ SecretAlike

/-- Two workloads differ in nothing but secrets. -/
structure WorkloadRow.Alike (row row' : WorkloadRow) : Prop where
  metadata : MetadataAlike row.metadata row'.metadata
  others : row' = { row with metadata := row'.metadata }

/-- Two databases differ in nothing but their workloads' secrets. -/
structure WorkloadDb.Alike (db db' : WorkloadDb) : Prop where
  workloads : List.Forall₂ (fun r r' : WorkloadId × WorkloadRow ↦ r.1 = r'.1 ∧ r.2.Alike r'.2)
    db.tables.workloads.rows db'.tables.workloads.rows
  others : db' = { db with tables := { db.tables with workloads := db'.tables.workloads } }

/-- Two calls differ in nothing but a workload's secrets: the same call but for the metadata of the
workload it creates, of which, for a pod, the checks say the same. -/
def WorkloadCall.Alike (env : WorkloadEnv) : WorkloadCall → WorkloadCall → Prop
  | .createWorkload w request, .createWorkload w' request' =>
    w = w' ∧ request.Alike request' ∧ (request.kind = .pod →
      (normalizePodStart env request.metadata).map (fun _ ↦ ()) =
        (normalizePodStart env request'.metadata).map fun _ ↦ ())
  | call, call' => call = call'

/-- Metadata without secrets. -/
def PlainMetadata (metadata : Metadata) : Prop :=
  ∀ item ∈ metadata, isSecretMetaKey item.1 = false ∧
    (item.1 = "env".toList → ∀ vars : List (Text × Json), item.2 = .obj vars → vars = [])

/-! ## Redacted metadata -/

/-- One item of the metadata, redacted. -/
def redactItem (item : Text × Json) : Text × Json :=
  if isSecretMetaKey item.1 then (item.1, redacted)
  else if item.1 = "env".toList then (item.1, namesOnly item.2)
  else item

theorem isSecretMetaKey_env : isSecretMetaKey "env".toList = false := by decide +kernel

theorem redactItem_of_secret {item : Text × Json} (h : isSecretMetaKey item.1 = true) :
    redactItem item = (item.1, redacted) := if_pos h

theorem redactItem_env (v : Json) : redactItem ("env".toList, v) = ("env".toList, namesOnly v) := by
  rw [redactItem, if_neg (by rw [isSecretMetaKey_env]; exact Bool.false_ne_true), if_pos rfl]

theorem redactItem_of_ne {item : Text × Json} (h : ¬isSecretMetaKey item.1 = true)
    (hne : item.1 ≠ "env".toList) : redactItem item = item := by
  rw [redactItem, if_neg h, if_neg hne]

@[simp] theorem redactItem_fst (item : Text × Json) : (redactItem item).1 = item.1 := by
  rw [redactItem]
  split
  · rfl
  · split <;> rfl

theorem redactMetadata_eq (metadata : Metadata) :
    redactMetadata metadata = metadata.map redactItem := by
  unfold redactMetadata
  rw [List.map_map]
  refine List.map_congr_left fun item _ ↦ ?_
  rw [Function.comp_apply, redactItem]
  by_cases hsecret : isSecretMetaKey item.1 = true
  · have hne : item.1 ≠ "env".toList := by
      intro henv
      rw [henv, isSecretMetaKey_env] at hsecret
      exact Bool.false_ne_true hsecret
    rw [if_pos hsecret, if_pos hsecret, if_neg hne]
  · rw [if_neg hsecret, if_neg hsecret]

theorem namesOnly_eq_iff {v v' : Json} : namesOnly v = namesOnly v' ↔
    v = v' ∨ ∃ vars vars' : List (Text × Json), v = .obj vars ∧ v' = .obj vars' ∧
      vars.map Prod.fst = vars'.map Prod.fst := by
  have hnames : ∀ vars : List (Text × Json), (vars.map fun item ↦ (item.1, redacted)) =
      (vars.map Prod.fst).map fun name ↦ (name, redacted) := by
    intro vars
    rw [List.map_map]
    rfl
  have hinj : Function.Injective fun name : Text ↦ (name, redacted) :=
    fun _ _ h ↦ congrArg Prod.fst h
  constructor
  · intro h
    cases v with
    | obj vars =>
      cases v' with
      | obj vars' =>
        refine .inr ⟨vars, vars', rfl, rfl, ?_⟩
        have h := Json.obj.inj h
        rw [hnames, hnames] at h
        exact hinj.list_map h
      | _ => cases h
    | _ =>
      cases v' with
      | obj vars' => cases h
      | _ => exact .inl h
  · rintro (rfl | ⟨vars, vars', rfl, rfl, h⟩)
    · rfl
    · rw [namesOnly, namesOnly, hnames, hnames, h]

theorem redactItem_eq_iff {item item' : Text × Json} :
    redactItem item = redactItem item' ↔ SecretAlike item item' := by
  obtain ⟨key, v⟩ := item
  obtain ⟨key', v'⟩ := item'
  by_cases hkey : key = key'
  · subst hkey
    by_cases hsecret : isSecretMetaKey key = true
    · rw [redactItem_of_secret hsecret, redactItem_of_secret hsecret]
      exact ⟨fun _ ↦ ⟨rfl, .inl hsecret⟩, fun _ ↦ rfl⟩
    · by_cases henv : key = "env".toList
      · subst henv
        rw [redactItem_env, redactItem_env, Prod.mk.injEq, and_iff_right rfl, namesOnly_eq_iff,
          SecretAlike, and_iff_right rfl, or_iff_right hsecret, and_iff_right rfl]
      · rw [redactItem_of_ne hsecret henv, redactItem_of_ne hsecret henv, Prod.mk.injEq,
          and_iff_right rfl, SecretAlike, and_iff_right rfl, or_iff_right hsecret]
        exact ⟨.inl, fun h ↦ h.resolve_right fun hvars ↦ henv hvars.1⟩
  · refine iff_of_false (fun h ↦ hkey ?_) fun h ↦ hkey h.1
    have hfst := congrArg Prod.fst h
    rwa [redactItem_fst, redactItem_fst] at hfst

/-- Two metadata differ in nothing but secrets exactly if they are the same once redacted. -/
theorem metadata_alike_iff {metadata metadata' : Metadata} :
    MetadataAlike metadata metadata' ↔ redactMetadata metadata = redactMetadata metadata' := by
  rw [redactMetadata_eq, redactMetadata_eq, ← List.forall₂_eq_eq_eq, List.forall₂_map_left_iff,
    List.forall₂_map_right_iff]
  simp only [redactItem_eq_iff]

theorem WorkloadRow.alike_iff {row row' : WorkloadRow} :
    row.Alike row' ↔ redactWorkload row = redactWorkload row' := by
  constructor
  · rintro ⟨hmetadata, hothers⟩
    rw [hothers, redactWorkload, redactWorkload, metadata_alike_iff.mp hmetadata]
  · intro h
    exact ⟨metadata_alike_iff.mpr (congrArg WorkloadRow.metadata h),
      congrArg (fun r : WorkloadRow ↦ { r with metadata := row'.metadata }) h.symm⟩

/-! ## Redacted databases -/

namespace CatalogDb

/-- The tables with every workload redacted. -/
def redact (tables : CatalogDb) : CatalogDb :=
  { tables with workloads := tables.workloads.map fun _ row ↦ redactWorkload row }

variable {tables : CatalogDb} {w : WorkloadId} {row : WorkloadRow}

theorem get?_redact (tables : CatalogDb) (w : WorkloadId) :
    tables.redact.workloads.get? w = (tables.workloads.get? w).map redactWorkload :=
  Table.get?_map ..

/-- The holder of a host. -/
theorem findWorkloadByIngressHost_redact (tables : CatalogDb) (host : Text) :
    ((CatalogOp.findWorkloadByIngressHost host).exec tables.redact).2 =
      ((CatalogOp.findWorkloadByIngressHost host).exec tables).2 := by
  change (List.find? _ (tables.workloads.rows.map _)).map Prod.fst = _
  rw [List.find?_map, Option.map_map]
  rfl

theorem clashes_redact : tables.redact.Clashes w (redactWorkload row) ↔ tables.Clashes w row := by
  constructor
  · rintro ⟨other, hother, hne, hclash⟩
    obtain ⟨r, hr, rfl⟩ := List.mem_map.mp hother
    exact ⟨r, hr, hne, hclash⟩
  · rintro ⟨other, hother, hne, hclash⟩
    exact ⟨_, List.mem_map_of_mem hother, hne, hclash⟩

end CatalogDb

/-- A row is rewritten in place or added, whether the rows are rewritten before or after. -/
theorem Table.map_insert {κ ρ : Type} [DecidableEq κ] (t : Table κ ρ) (f : ρ → ρ) (k : κ) (r : ρ) :
    (t.insert k r).map (fun _ ↦ f) = (t.map fun _ ↦ f).insert k (f r) := by
  have hkeys : (t.map fun _ ↦ f).rows.map Prod.fst = t.rows.map Prod.fst := by
    rw [map, List.map_map]
    rfl
  by_cases hk : k ∈ t.rows.map Prod.fst
  · rw [insert, dif_pos hk, insert, dif_pos (hkeys ▸ hk), modify, modify, map_map, map_map]
    congr 1
    funext k' r'
    split <;> rfl
  · rw [insert, dif_neg hk, insert, dif_neg (hkeys ▸ hk)]
    simp only [map, List.map_append, List.map_cons, List.map_nil]

theorem Table.map_filter {κ ρ : Type} (t : Table κ ρ) (f : ρ → ρ) {p : κ → ρ → Bool}
    (h : ∀ k r, p k (f r) = p k r) :
    (t.filter p).map (fun _ ↦ f) = (t.map fun _ ↦ f).filter p := by
  simp only [map, filter, Table.mk.injEq, List.filter_map]
  congr 1
  refine List.filter_congr fun r _ ↦ ?_
  rw [Function.comp_apply, h]

/-- The answer of a method that only reads is the same from two stores that answer its reads the
same. -/
theorem Program.eval_answer_congr {I : Interface} {α σ : Type} {M : Machine I σ} {s s' : σ}
    {p : Program I α}
    (h : p.Uses fun o ↦ (∀ t, (M.exec o t).1 = t) ∧ (M.exec o s).2 = (M.exec o s').2) :
    (p.eval M s).2 = (p.eval M s').2 := by
  induction p with
  | done a => rfl
  | call o k ih =>
    obtain ⟨⟨hreads, hanswer⟩, hrest⟩ := h
    rw [eval_call, eval_call, hreads, hreads, hanswer]
    exact ih _ (hrest _)

namespace WorkloadDb

/-- The database with every workload redacted. -/
def redact (db : WorkloadDb) : WorkloadDb := { db with tables := db.tables.redact }

/-- Two databases differ in nothing but secrets exactly if they are the same once redacted. -/
theorem alike_iff {db db' : WorkloadDb} : db.Alike db' ↔ db.redact = db'.redact := by
  have hrows : List.Forall₂ (fun r r' : WorkloadId × WorkloadRow ↦ r.1 = r'.1 ∧ r.2.Alike r'.2)
      db.tables.workloads.rows db'.tables.workloads.rows ↔
      (db.tables.workloads.rows.map fun r ↦ (r.1, redactWorkload r.2)) =
        db'.tables.workloads.rows.map fun r ↦ (r.1, redactWorkload r.2) := by
    have heq : ∀ rows rows' : List (WorkloadId × WorkloadRow),
        rows = rows' ↔ List.Forall₂ (· = ·) rows rows' := by
      intro rows rows'
      rw [List.forall₂_eq_eq_eq]
    rw [heq, List.forall₂_map_left_iff, List.forall₂_map_right_iff]
    simp only [WorkloadRow.alike_iff, Prod.mk.injEq]
  constructor
  · rintro ⟨hworkloads, hothers⟩
    have htables : (db.tables.workloads.map fun _ row ↦ redactWorkload row) =
        db'.tables.workloads.map fun _ row ↦ redactWorkload row := by
      simp only [Table.map, Table.mk.injEq]
      exact hrows.mp hworkloads
    rw [hothers, redact, redact, CatalogDb.redact, CatalogDb.redact, htables]
  · intro h
    exact ⟨hrows.mpr (congrArg (fun d : WorkloadDb ↦ d.tables.workloads.rows) h),
      congrArg (fun d : WorkloadDb ↦
        { d with tables := { d.tables with workloads := db'.tables.workloads } }) h.symm⟩

variable {env : WorkloadEnv} {caller : KeyHolder} {db db' : WorkloadDb} {w : WorkloadId}

theorem row?_redact (db : WorkloadDb) (w : WorkloadId) :
    db.redact.row? w = (db.row? w).map redactWorkload :=
  CatalogDb.get?_redact db.tables w

theorem Alike.row? (h : db.Alike db') (w : WorkloadId) :
    (db.row? w = none ∧ db'.row? w = none) ∨
      ∃ row row' : WorkloadRow, row.Alike row' ∧ db.row? w = some row ∧ db'.row? w = some row' := by
  have hrow : (db.row? w).map redactWorkload = (db'.row? w).map redactWorkload := by
    rw [← row?_redact, ← row?_redact, alike_iff.mp h]
  cases hdb : db.row? w with
  | none =>
    rw [hdb, Option.map_none, eq_comm, Option.map_eq_none_iff] at hrow
    exact .inl ⟨rfl, hrow⟩
  | some row =>
    rw [hdb, Option.map_some, eq_comm, Option.map_eq_some_iff] at hrow
    obtain ⟨row', hdb', hredact⟩ := hrow
    exact .inr ⟨row, row', WorkloadRow.alike_iff.mpr hredact.symm, rfl, hdb'⟩

/-- A method that does nothing but look hosts up. -/
abbrev LooksUp {α : Type} (p : Program CatalogInterface α) : Prop :=
  p.Uses fun o : CatalogOp ↦ ∃ host, o = .findWorkloadByIngressHost host

theorem ran_of_looksUp {α : Type} {p : Program CatalogInterface α} (h : LooksUp p) :
    (db.ran p).1 = db.tables := by
  refine Program.eval_reads (h.mono ?_) db.tables
  rintro o ⟨host, rfl⟩ tables
  rfl

theorem Alike.ran_eq {α : Type} {p : Program CatalogInterface α} (h : db.Alike db')
    (hp : LooksUp p) : (db'.ran p).2 = (db.ran p).2 := by
  refine Program.eval_answer_congr (hp.mono ?_)
  rintro o ⟨host, rfl⟩
  refine ⟨fun tables ↦ rfl, ?_⟩
  have htables : db'.tables.redact = db.tables.redact :=
    congrArg WorkloadDb.tables (alike_iff.mp h).symm
  change ((CatalogOp.findWorkloadByIngressHost host).exec db'.tables).2 = _
  rw [← CatalogDb.findWorkloadByIngressHost_redact, htables]
  exact CatalogDb.findWorkloadByIngressHost_redact db.tables host

theorem looksUp_claimIngressHost (checks : WorkloadChecks) (host : Text) (w : WorkloadId) :
    LooksUp (CatalogRoutes.claimIngressHost checks host w) := by
  unfold CatalogRoutes.claimIngressHost
  split
  · exact Program.uses_done _ _
  · refine Program.Uses.op_bind ⟨_, rfl⟩ fun holder ↦ ?_
    split <;> exact Program.uses_done _ _

theorem looksUp_ingressHost (checks : WorkloadChecks) (w : WorkloadId) (row : WorkloadRow) :
    LooksUp (CatalogRoutes.ingressHost checks w row) := by
  have hassign : ∀ hosts : List Text, LooksUp (CatalogRoutes.assignIngressHost w hosts) := by
    intro hosts
    induction hosts with
    | nil => exact Program.uses_done _ _
    | cons host hosts ih =>
      refine Program.Uses.op_bind ⟨_, rfl⟩ fun holder ↦ ?_
      split
      · exact Program.uses_done _ _
      · exact ih
  unfold CatalogRoutes.ingressHost
  split
  · exact (looksUp_claimIngressHost checks _ w).bind fun _ ↦ Program.uses_done _ _
  · split
    · exact (hassign _).bind fun _ ↦ Program.uses_done _ _
    · exact Program.uses_done _ _

/-! ## What the routes do -/

theorem clashes_alike {tables tables' : CatalogDb} (h : tables.redact = tables'.redact)
    {row row' : WorkloadRow} (hrow : row.Alike row') (w : WorkloadId) :
    tables.Clashes w row ↔ tables'.Clashes w row' := by
  rw [← CatalogDb.clashes_redact, h, WorkloadRow.alike_iff.mp hrow, CatalogDb.clashes_redact]

/-- Storing a workload beside others: whether a constraint breaks does not depend on secrets. -/
theorem upsertWorkload_redact {tables tables' : CatalogDb} (h : tables.redact = tables'.redact)
    {row row' : WorkloadRow} (hrow : row.Alike row') (w : WorkloadId) :
    (tables.upsertWorkload w row).1.redact = (tables'.upsertWorkload w row').1.redact ∧
      (tables.upsertWorkload w row).2 = (tables'.upsertWorkload w row').2 := by
  have hredact : redactWorkload row = redactWorkload row' := WorkloadRow.alike_iff.mp hrow
  have hclash := clashes_alike h hrow w
  have hinsert : ∀ (t : CatalogDb) (r : WorkloadRow),
      CatalogDb.redact { t with workloads := t.workloads.insert w r } =
        { t.redact with workloads := t.redact.workloads.insert w (redactWorkload r) } := by
    intro t r
    rw [CatalogDb.redact, CatalogDb.redact, Table.map_insert]
  by_cases hbroken : tables.Clashes w row
  · rw [CatalogDb.upsertWorkload, CatalogDb.upsertWorkload, if_pos hbroken,
      if_pos (hclash.mp hbroken)]
    exact ⟨h, rfl⟩
  · rw [CatalogDb.upsertWorkload, CatalogDb.upsertWorkload, if_neg hbroken,
      if_neg (hclash.not.mp hbroken)]
    refine ⟨?_, rfl⟩
    rw [hinsert, hinsert, h, hredact]

theorem Alike.claimIngressHost_eq (h : db.Alike db') (w : WorkloadId) (host : Option Text) :
    db'.claimIngressHost env w host = db.claimIngressHost env w host := by
  cases host with
  | none => rfl
  | some host =>
    exact congrArg (Except.map some) (h.ran_eq (looksUp_claimIngressHost env.checks host w))

theorem applied_alike {row row' : WorkloadRow} (h : row.Alike row')
    (request : WorkloadUpdateRequest) (host : Option Text) :
    (request.applied host row).Alike (request.applied host row') := by
  refine ⟨h.metadata, ?_⟩
  rw [h.others]
  rfl

theorem Alike.with_tables (h : db.Alike db') {tables tables' : CatalogDb}
    (htables : tables.redact = tables'.redact) :
    WorkloadDb.Alike { db with tables := tables } { db' with tables := tables' } := by
  have hshares : db'.shares = db.shares := by rw [h.others]
  rw [alike_iff, redact, redact, htables, hshares]

/-- The rows that a list filters by anything but secrets. -/
theorem Alike.filter_map (h : db.Alike db') {p : WorkloadId × WorkloadRow → Bool}
    (hp : ∀ r, p (r.1, redactWorkload r.2) = p r) :
    ((db.tables.workloads.rows.filter p).map fun r ↦ (r.1, redactWorkload r.2)) =
      (db'.tables.workloads.rows.filter p).map fun r ↦ (r.1, redactWorkload r.2) := by
  have hfilter : ∀ rows : List (WorkloadId × WorkloadRow),
      ((rows.filter p).map fun r ↦ (r.1, redactWorkload r.2)) =
        (rows.map fun r ↦ (r.1, redactWorkload r.2)).filter p := by
    intro rows
    rw [List.filter_map]
    congr 1
    exact List.filter_congr fun r _ ↦ (hp r).symm
  rw [hfilter, hfilter]
  exact congrArg (fun d : WorkloadDb ↦ d.tables.workloads.rows.filter p) (alike_iff.mp h)

/-! ## The start of a pod, without its secrets -/

theorem lookup_alike {m m' : Metadata} (h : MetadataAlike m m') (key : Text) :
    Option.Rel (fun v v' ↦ SecretAlike (key, v) (key, v')) (m.lookup key) (m'.lookup key) := by
  induction h with
  | nil => exact .none
  | @cons item item' m m' hitem _ ih =>
    obtain ⟨name, v⟩ := item
    obtain ⟨name', v'⟩ := item'
    obtain rfl : name = name' := hitem.1
    by_cases hkey : key = name
    · subst hkey
      rw [List.lookup_cons_self, List.lookup_cons_self]
      exact .some hitem
    · rw [List.lookup_cons, List.lookup_cons, beq_false_of_ne hkey]
      exact ih

/-- A value that is neither secret nor an environment. -/
theorem lookup_eq {m m' : Metadata} (h : MetadataAlike m m') {key : Text}
    (hplain : isSecretMetaKey key = false) (hne : key ≠ "env".toList) :
    m.lookup key = m'.lookup key := by
  have hlookup := lookup_alike h key
  revert hlookup
  generalize m.lookup key = found
  generalize m'.lookup key = found'
  intro hlookup
  cases hlookup with
  | none => rfl
  | some hv =>
    rcases hv.2 with hsecret | heq | henv
    · exact absurd hsecret (by rw [hplain]; exact Bool.false_ne_true)
    · exact congrArg some heq
    · exact absurd henv.1 hne

theorem replaced_alike {m m' : Metadata} (h : MetadataAlike m m') {key : Text} {v v' : Json}
    (hv : SecretAlike (key, v) (key, v')) :
    MetadataAlike (m.map fun item ↦ if item.1 = key then (key, v) else item)
      (m'.map fun item ↦ if item.1 = key then (key, v') else item) := by
  rw [MetadataAlike, List.forall₂_map_left_iff, List.forall₂_map_right_iff]
  refine h.imp fun item item' hitem ↦ ?_
  by_cases hkey : item.1 = key
  · rw [if_pos hkey, if_pos (hitem.1 ▸ hkey)]
    exact hv
  · rw [if_neg hkey, if_neg (hitem.1 ▸ hkey)]
    exact hitem

/-- Two checks that refuse alike, or accept metadata that are alike. -/
def CheckedAlike (checked checked' : Except Text Metadata) : Prop :=
  (∃ e, checked = .error e ∧ checked' = .error e) ∨
    ∃ m m', MetadataAlike m m' ∧ checked = .ok m ∧ checked' = .ok m'

theorem checkKey_of_lookup {m : Metadata} {key : Text} {value : Json}
    (h : m.lookup key = some value) (hne : value ≠ .null) (check : Json → Except Text Json) :
    checkKey key check m = (check value).map fun value' ↦
      m.map fun item ↦ if item.1 = key then (key, value') else item := by
  unfold checkKey
  rw [h]
  cases value with
  | null => exact absurd rfl hne
  | _ => rfl

theorem checkKey_alike {m m' : Metadata} (h : MetadataAlike m m') {key : Text}
    (hplain : isSecretMetaKey key = false) (hne : key ≠ "env".toList)
    (check : Json → Except Text Json) :
    CheckedAlike (checkKey key check m) (checkKey key check m') := by
  have heq := lookup_eq h hplain hne
  cases hvalue : m.lookup key with
  | none =>
    rw [checkKey, checkKey, ← heq, hvalue]
    exact .inr ⟨m, m', h, rfl, rfl⟩
  | some value =>
    by_cases hnull : value = .null
    · rw [checkKey, checkKey, ← heq, hvalue, hnull]
      exact .inr ⟨m, m', h, rfl, rfl⟩
    · rw [checkKey_of_lookup hvalue hnull, checkKey_of_lookup (heq ▸ hvalue) hnull]
      cases check value with
      | error e => exact .inl ⟨e, rfl, rfl⟩
      | ok value' => exact .inr ⟨_, _, replaced_alike h ⟨rfl, .inr (.inl rfl)⟩, rfl, rfl⟩

/-- A variable that is accepted keeps its name. -/
theorem name_of_podVariable {env : WorkloadEnv} {item item' : Text × Json}
    (h : podVariable env item = .ok item') : item'.1 = item.1 := by
  have hfit : ∀ value : Text, (if isUnfit value then
      Except.error ("metadata.env.".toList ++ item.1 ++ " must be at most 8192 characters".toList)
      else .ok (item.1, Json.str value)) = .ok item' → item'.1 = item.1 := by
    intro value hvalue
    split at hvalue
    · cases hvalue
    · obtain rfl := Except.ok.inj hvalue
      rfl
  rw [podVariable] at h
  split at h
  · cases h
  · split at h
    · cases h
    · split at h
      · exact hfit _ h
      · exact hfit _ h
      · cases h

/-- So do the variables of an environment. -/
theorem names_of_mapM {env : WorkloadEnv} {vars accepted : List (Text × Json)}
    (h : vars.mapM (podVariable env) = .ok accepted) :
    accepted.map Prod.fst = vars.map Prod.fst := by
  induction vars generalizing accepted with
  | nil =>
    obtain rfl := Except.ok.inj h
    rfl
  | cons item vars ih =>
    rw [List.mapM_cons] at h
    cases hitem : podVariable env item with
    | error e =>
      rw [hitem] at h
      cases h
    | ok item' =>
      cases hvars : vars.mapM (podVariable env) with
      | error e =>
        rw [hitem, hvars] at h
        cases h
      | ok accepted' =>
        rw [hitem, hvars] at h
        obtain rfl := Except.ok.inj h
        rw [List.map_cons, List.map_cons, ih hvars, name_of_podVariable hitem]

/-- Two environments with the same names, where the checks say the same of both. -/
theorem podEnv_alike {env : WorkloadEnv} {v v' : Json} (h : SecretAlike ("env".toList, v)
    ("env".toList, v'))
    (hverdict : (podEnv env v).map (fun _ ↦ ()) = (podEnv env v').map fun _ ↦ ()) :
    (∃ e, podEnv env v = .error e ∧ podEnv env v' = .error e) ∨
      ∃ u u', SecretAlike ("env".toList, u) ("env".toList, u') ∧ podEnv env v = .ok u ∧
        podEnv env v' = .ok u' := by
  have haccepted : ∀ {v u : Json}, podEnv env v = .ok u →
      ∃ vars accepted : List (Text × Json), v = .obj vars ∧ u = .obj accepted ∧
        accepted.map Prod.fst = vars.map Prod.fst := by
    intro v u hu
    cases v with
    | obj vars =>
      rw [podEnv] at hu
      split at hu
      · cases hu
      · cases hvars : vars.mapM (podVariable env) with
        | error e =>
          rw [hvars] at hu
          cases hu
        | ok accepted =>
          rw [hvars] at hu
          exact ⟨vars, accepted, rfl, (Except.ok.inj hu).symm, names_of_mapM hvars⟩
    | _ => cases hu
  cases hv : podEnv env v with
  | error e =>
    cases hv' : podEnv env v' with
    | error e' =>
      rw [hv, hv'] at hverdict
      exact .inl ⟨e, rfl, congrArg Except.error (Except.error.inj hverdict).symm⟩
    | ok u' =>
      rw [hv, hv'] at hverdict
      cases hverdict
  | ok u =>
    cases hv' : podEnv env v' with
    | error e' =>
      rw [hv, hv'] at hverdict
      cases hverdict
    | ok u' =>
      refine .inr ⟨u, u', ⟨rfl, .inr (.inr ⟨rfl, ?_⟩)⟩, rfl, rfl⟩
      obtain ⟨vars, accepted, rfl, rfl, hnames⟩ := haccepted hv
      obtain ⟨vars', accepted', rfl, rfl, hnames'⟩ := haccepted hv'
      refine ⟨accepted, accepted', rfl, rfl, ?_⟩
      rw [hnames, hnames']
      rcases h.2 with hsecret | heq | ⟨-, _, _, hobj, hobj', hsame⟩
      · exact absurd hsecret (by rw [isSecretMetaKey_env]; exact Bool.false_ne_true)
      · rw [Json.obj.inj heq]
      · rwa [Json.obj.inj hobj, Json.obj.inj hobj']

theorem checkKey_env_alike {env : WorkloadEnv} {m m' : Metadata} (h : MetadataAlike m m')
    (hverdict : (checkKey "env".toList (podEnv env) m).map (fun _ ↦ ()) =
      (checkKey "env".toList (podEnv env) m').map fun _ ↦ ()) :
    CheckedAlike (checkKey "env".toList (podEnv env) m)
      (checkKey "env".toList (podEnv env) m') := by
  have hlookup := lookup_alike h "env".toList
  have hverdict_of_lookup : ∀ {m : Metadata} {v : Json}, m.lookup "env".toList = some v →
      v ≠ .null → (checkKey "env".toList (podEnv env) m).map (fun _ ↦ ()) =
        (podEnv env v).map fun _ ↦ () := by
    intro m v hv hne
    rw [checkKey_of_lookup hv hne]
    cases podEnv env v <;> rfl
  cases hv : m.lookup "env".toList with
  | none =>
    rw [hv] at hlookup
    have hv' : m'.lookup "env".toList = none := by
      revert hlookup
      generalize m'.lookup "env".toList = found
      intro hlookup
      cases hlookup
      rfl
    rw [checkKey, checkKey, hv, hv']
    exact .inr ⟨m, m', h, rfl, rfl⟩
  | some v =>
    rw [hv] at hlookup
    obtain ⟨v', hv', halike⟩ : ∃ v', m'.lookup "env".toList = some v' ∧
        SecretAlike ("env".toList, v) ("env".toList, v') := by
      revert hlookup
      generalize m'.lookup "env".toList = found
      intro hlookup
      cases hlookup with
      | some halike => exact ⟨_, rfl, halike⟩
    have hcases : v = v' ∨ ∃ vars vars' : List (Text × Json), v = .obj vars ∧ v' = .obj vars' := by
      rcases halike.2 with hsecret | heq | ⟨-, vars, vars', hvars, hvars', -⟩
      · exact absurd hsecret (by rw [isSecretMetaKey_env]; exact Bool.false_ne_true)
      · exact .inl heq
      · exact .inr ⟨vars, vars', hvars, hvars'⟩
    by_cases hnull : v = .null
    · subst hnull
      rcases hcases with rfl | ⟨vars, _, hvars, -⟩
      · rw [checkKey, checkKey, hv, hv']
        exact .inr ⟨m, m', h, rfl, rfl⟩
      · cases hvars
    · have hnull' : v' ≠ .null := by
        rcases hcases with rfl | ⟨_, vars', -, rfl⟩
        · exact hnull
        · exact nofun
      rw [hverdict_of_lookup hv hnull, hverdict_of_lookup hv' hnull'] at hverdict
      rw [checkKey_of_lookup hv hnull, checkKey_of_lookup hv' hnull']
      rcases podEnv_alike halike hverdict with ⟨e, he, he'⟩ | ⟨u, u', hu, hok, hok'⟩
      · rw [he, he']
        exact .inl ⟨e, rfl, rfl⟩
      · rw [hok, hok']
        exact .inr ⟨_, _, replaced_alike h hu, rfl, rfl⟩

/-- The checks of a pod's metadata go no further than to secrets: they refuse two that are alike
with the same words, or accept both, if they say the same of both. -/
theorem normalizePodStart_alike {env : WorkloadEnv} {m m' : Metadata} (h : MetadataAlike m m')
    (hverdict : (normalizePodStart env m).map (fun _ ↦ ()) =
      (normalizePodStart env m').map fun _ ↦ ()) :
    CheckedAlike (normalizePodStart env m) (normalizePodStart env m') := by
  have hcommand : isSecretMetaKey "command".toList = false := by decide +kernel
  have hcommand_ne : "command".toList ≠ "env".toList := by decide +kernel
  have hpolicy : isSecretMetaKey "restart_policy".toList = false := by decide +kernel
  have hpolicy_ne : "restart_policy".toList ≠ "env".toList := by decide +kernel
  rw [normalizePodStart, normalizePodStart] at hverdict ⊢
  rcases checkKey_alike h hcommand hcommand_ne podCommand with ⟨e, he, he'⟩ | ⟨n, n', hn, hok, hok'⟩
  · rw [he, he']
    exact .inl ⟨e, rfl, rfl⟩
  · rw [hok, hok'] at hverdict ⊢
    change CheckedAlike
      (checkKey "restart_policy".toList (podRestartPolicy (n.lookup "command".toList)) n >>= _)
      (checkKey "restart_policy".toList (podRestartPolicy (n'.lookup "command".toList)) n' >>= _)
    change Except.map _
      (checkKey "restart_policy".toList (podRestartPolicy (n.lookup "command".toList)) n >>= _) =
      Except.map _
      (checkKey "restart_policy".toList (podRestartPolicy (n'.lookup "command".toList)) n' >>= _)
      at hverdict
    rw [← lookup_eq hn hcommand hcommand_ne] at hverdict ⊢
    rcases checkKey_alike hn hpolicy hpolicy_ne (podRestartPolicy (n.lookup "command".toList)) with
      ⟨e, he, he'⟩ | ⟨k, k', hk, hok, hok'⟩
    · rw [he, he']
      exact .inl ⟨e, rfl, rfl⟩
    · rw [hok, hok'] at hverdict ⊢
      exact checkKey_env_alike hk hverdict

/-! ## Creating a workload -/

/-- What is checked of a new workload's metadata. -/
def checkedMetadata (env : WorkloadEnv) (request : WorkloadRow) : Except Text Metadata :=
  if request.kind = .pod then normalizePodStart env request.metadata else .ok request.metadata

/-- A new workload with its metadata checked: given an address and stored. -/
def storeNew (env : WorkloadEnv) (db : WorkloadDb) (w : WorkloadId) (row : WorkloadRow) :
    CatalogDb × Except Text WorkloadRow :=
  match (db.ran (CatalogRoutes.ingressHost env.checks w row)).2 with
  | .error e => (db.tables, .error e)
  | .ok host =>
    let stored := db.tables.upsertWorkload w { row with ingressHost := host }
    (stored.1, if stored.2 then .ok { row with ingressHost := host }
      else .error internalError.detail)

theorem ran_createWorkload (request : WorkloadRow) (owner : Option UserId) :
    db.ran (CatalogRoutes.createWorkload env.checks w request owner) =
      match checkedMetadata env request with
      | .error e => (db.tables, .error e)
      | .ok metadata =>
        db.storeNew env w { request with ownerUserId := owner, metadata := metadata } := by
  have hstored : ∀ row : WorkloadRow,
      db.ran (CatalogRoutes.transact (.upsertWorkload w row) >>= fun stored ↦
        (if stored then pure (.ok row) else pure (.error internalError.detail) :
          Program CatalogInterface (Except Text WorkloadRow))) =
        ((db.tables.upsertWorkload w row).1,
          if (db.tables.upsertWorkload w row).2 then .ok row else .error internalError.detail) := by
    intro row
    rw [ran, Program.eval_bind]
    change Program.eval _ (if (db.tables.upsertWorkload w row).2 then _ else _) _ = _
    split <;> rfl
  unfold CatalogRoutes.createWorkload
  change db.ran (match checkedMetadata env request with | .error e => _ | .ok metadata => _) = _
  cases checkedMetadata env request with
  | error e => rfl
  | ok metadata =>
    have hreads : (db.ran (CatalogRoutes.ingressHost env.checks w
        { request with ownerUserId := owner, metadata := metadata })).1 = db.tables :=
      ran_of_looksUp (looksUp_ingressHost env.checks w _)
    change _ = db.storeNew env w { request with ownerUserId := owner, metadata := metadata }
    rw [storeNew]
    simp only [ran, Program.eval_bind] at hreads ⊢
    rw [hreads]
    cases (Program.eval { exec := CatalogOp.exec } (CatalogRoutes.ingressHost env.checks w
        { request with ownerUserId := owner, metadata := metadata }) db.tables).2 with
    | error e => rfl
    | ok host => exact hstored _

/-- The address of a workload does not depend on its metadata. -/
theorem ingressHost_alike {row row' : WorkloadRow} (h : row.Alike row') :
    CatalogRoutes.ingressHost env.checks w row' = CatalogRoutes.ingressHost env.checks w row := by
  rw [h.others]
  rfl

theorem Alike.storeNew (h : db.Alike db') {row row' : WorkloadRow} (hrow : row.Alike row') :
    (db.storeNew env w row).1.redact = (db'.storeNew env w row').1.redact ∧
      ((∃ e, (db.storeNew env w row).2 = .error e ∧ (db'.storeNew env w row').2 = .error e) ∨
        ∃ r r' : WorkloadRow, r.Alike r' ∧ (db.storeNew env w row).2 = .ok r ∧
          (db'.storeNew env w row').2 = .ok r') := by
  have htables : db.tables.redact = db'.tables.redact :=
    congrArg WorkloadDb.tables (alike_iff.mp h)
  have hhost : (db'.ran (CatalogRoutes.ingressHost env.checks w row')).2 =
      (db.ran (CatalogRoutes.ingressHost env.checks w row)).2 := by
    rw [ingressHost_alike hrow, h.ran_eq (looksUp_ingressHost env.checks w row)]
  rw [WorkloadDb.storeNew, WorkloadDb.storeNew, hhost]
  cases (db.ran (CatalogRoutes.ingressHost env.checks w row)).2 with
  | error e => exact ⟨htables, .inl ⟨e, rfl, rfl⟩⟩
  | ok host =>
    have haddressed : WorkloadRow.Alike { row with ingressHost := host }
        { row' with ingressHost := host } := by
      refine ⟨hrow.metadata, ?_⟩
      rw [hrow.others]
    obtain ⟨hstored, hbroken⟩ := upsertWorkload_redact htables haddressed w
    refine ⟨hstored, ?_⟩
    cases hb : (db'.tables.upsertWorkload w { row' with ingressHost := host }).2 with
    | true =>
      rw [hb] at hbroken
      simp only [hbroken, hb, if_true]
      exact .inr ⟨_, _, haddressed, rfl, rfl⟩
    | false =>
      rw [hb] at hbroken
      simp only [hbroken, hb, Bool.false_eq_true, if_false]
      exact .inl ⟨_, rfl, rfl⟩

theorem checkedMetadata_alike {request request' : WorkloadRow} (h : request.Alike request')
    (hverdict : request.kind = .pod →
      (normalizePodStart env request.metadata).map (fun _ ↦ ()) =
        (normalizePodStart env request'.metadata).map fun _ ↦ ()) :
    CheckedAlike (checkedMetadata env request) (checkedMetadata env request') := by
  have hkind : request'.kind = request.kind := by
    rw [h.others]
  rw [checkedMetadata, checkedMetadata, hkind]
  by_cases hpod : request.kind = .pod
  · rw [if_pos hpod, if_pos hpod]
    exact normalizePodStart_alike h.metadata (hverdict hpod)
  · rw [if_neg hpod, if_neg hpod]
    exact .inr ⟨_, _, h.metadata, rfl, rfl⟩

theorem Alike.createWorkload (h : db.Alike db') {request request' : WorkloadRow}
    (hrequest : request.Alike request')
    (hverdict : request.kind = .pod →
      (normalizePodStart env request.metadata).map (fun _ ↦ ()) =
        (normalizePodStart env request'.metadata).map fun _ ↦ ()) :
    (db.createWorkload env caller w request).1.Alike
        (db'.createWorkload env caller w request').1 ∧
      (db'.createWorkload env caller w request').2 = (db.createWorkload env caller w request).2 := by
  by_cases hbound : caller.userId = none
  · rw [WorkloadDb.createWorkload, WorkloadDb.createWorkload, if_pos hbound, if_pos hbound]
    exact ⟨h, rfl⟩
  · rw [WorkloadDb.createWorkload, WorkloadDb.createWorkload, if_neg hbound, if_neg hbound,
      ran_createWorkload, ran_createWorkload]
    rcases checkedMetadata_alike hrequest hverdict with ⟨e, he, he'⟩ | ⟨m, m', hm, hok, hok'⟩
    · rw [he, he']
      exact ⟨h, rfl⟩
    · rw [hok, hok']
      have hrow : WorkloadRow.Alike { request with ownerUserId := caller.userId, metadata := m }
          { request' with ownerUserId := caller.userId, metadata := m' } := by
        refine ⟨hm, ?_⟩
        rw [hrequest.others]
      obtain ⟨htables, hanswer⟩ := @Alike.storeNew env db db' w h _ _ hrow
      refine ⟨h.with_tables htables, ?_⟩
      rcases hanswer with ⟨e, he, he'⟩ | ⟨r, r', hr, hok, hok'⟩
      · simp only [he, he']
      · simp only [hok, hok', WorkloadRow.alike_iff.mp hr]

/-! ## The other routes -/

/-- An update that goes through, and the row it updates. -/
def Updatable (env : WorkloadEnv) (caller : KeyHolder) (db : WorkloadDb) (w : WorkloadId)
    (request : WorkloadUpdateRequest) (row : WorkloadRow) : Prop :=
  db.row? w = some row ∧
    (caller.admin = true ∨ RoutingDb.ownedBy row.ownerUserId caller.userId = true) ∧
    ∃ host, db.claimIngressHost env w request.ingressHost = .ok host ∧
      ¬db.tables.Clashes w (request.applied host row)

/-- A deletion that goes through, and the row it deletes. -/
def Deletable (caller : KeyHolder) (db : WorkloadDb) (w : WorkloadId) (row : WorkloadRow) : Prop :=
  db.row? w = some row ∧
    (caller.admin = true ∨ RoutingDb.ownedBy row.ownerUserId caller.userId = true)

/-- The call is none that answers with a workload's secrets: it is no update or deletion that goes
through, or the workload has no secrets. -/
def Covered (env : WorkloadEnv) (caller : KeyHolder) (db : WorkloadDb) : WorkloadCall → Prop
  | .updateWorkload w request =>
    ∀ row, db.Updatable env caller w request row → PlainMetadata row.metadata
  | .deleteWorkload w => ∀ row, db.Deletable caller w row → PlainMetadata row.metadata
  | _ => True

theorem Alike.listWorkloads (h : db.Alike db') (mine : Bool) :
    (db'.listWorkloads caller mine).2 = (db.listWorkloads caller mine).2 := by
  have hlisted : db'.isListed caller mine = db.isListed caller mine := by
    rw [h.others]
    rfl
  rw [WorkloadDb.listWorkloads, WorkloadDb.listWorkloads, hlisted,
    h.filter_map (p := db.isListed caller mine) fun _ ↦ rfl]

@[simp] theorem getWorkload_fst (db : WorkloadDb) (w : WorkloadId) :
    (db.getWorkload caller w).1 = db := by
  rw [WorkloadDb.getWorkload]
  split <;> rfl

theorem Alike.getWorkload (h : db.Alike db') (w : WorkloadId) :
    (db'.getWorkload caller w).2 = (db.getWorkload caller w).2 := by
  have haccess : db'.userCanAccessWorkload caller w = db.userCanAccessWorkload caller w := by
    rw [h.others]
    rfl
  rw [WorkloadDb.getWorkload, WorkloadDb.getWorkload, haccess]
  rcases h.row? w with ⟨hnone, hnone'⟩ | ⟨row, row', halike, hrow, hrow'⟩
  · rw [hnone, hnone']
    rfl
  · have hshown : (caller.admin || db.userCanAccessWorkload caller w row') =
        (caller.admin || db.userCanAccessWorkload caller w row) := by
      rw [halike.others]
      rfl
    rw [hrow, hrow', Option.filter_some, Option.filter_some, hshown]
    by_cases hmay : (caller.admin || db.userCanAccessWorkload caller w row) = true
    · rw [if_pos hmay, if_pos hmay]
      exact congrArg (fun r ↦ Except.ok (WorkloadAnswer.one w r))
        (WorkloadRow.alike_iff.mp halike).symm
    · rw [if_neg hmay, if_neg hmay]

/-- Metadata without secrets is like no other. -/
theorem eq_of_plain {m m' : Metadata} (hplain : PlainMetadata m) (h : MetadataAlike m m') :
    m' = m := by
  induction h with
  | nil => rfl
  | @cons item item' m m' hitem _ ih =>
    obtain ⟨hnot, henv⟩ := hplain item List.mem_cons_self
    have hvalue : item.2 = item'.2 := by
      rcases hitem.2 with hsecret | heq | ⟨hname, vars, vars', hvars, hvars', hsame⟩
      · exact absurd hsecret (by rw [hnot]; exact Bool.false_ne_true)
      · exact heq
      · rw [henv hname vars hvars, List.map_nil, eq_comm, List.map_eq_nil_iff] at hsame
        rw [hvars, hvars', hsame, henv hname vars hvars]
    rw [ih fun item' hmem ↦ hplain item' (List.mem_cons_of_mem _ hmem),
      Prod.ext hitem.1 hvalue]

theorem row_eq_of_plain {row row' : WorkloadRow} (hplain : PlainMetadata row.metadata)
    (h : row.Alike row') : row' = row := by
  rw [h.others, eq_of_plain hplain h.metadata]

theorem allowed_of_not_denied {owner : Option UserId}
    (h : ¬(caller.admin = false ∧ RoutingDb.ownedBy owner caller.userId = false)) :
    caller.admin = true ∨ RoutingDb.ownedBy owner caller.userId = true := by
  rw [not_and_or, Bool.not_eq_false, Bool.not_eq_false] at h
  exact h

theorem Alike.updateWorkload (h : db.Alike db') (w : WorkloadId)
    (request : WorkloadUpdateRequest) :
    (db.updateWorkload env caller w request).1.Alike
        (db'.updateWorkload env caller w request).1 ∧
      (db.Covered env caller (.updateWorkload w request) →
        (db'.updateWorkload env caller w request).2 =
          (db.updateWorkload env caller w request).2) := by
  rw [WorkloadDb.updateWorkload, WorkloadDb.updateWorkload, h.claimIngressHost_eq]
  rcases h.row? w with ⟨hnone, hnone'⟩ | ⟨row, row', halike, hrow, hrow'⟩
  · rw [hnone, hnone']
    exact ⟨h, fun _ ↦ rfl⟩
  · have howner : row'.ownerUserId = row.ownerUserId := by rw [halike.others]
    rw [hrow, hrow']
    simp only [howner]
    by_cases hdenied : caller.admin = false ∧
        RoutingDb.ownedBy row.ownerUserId caller.userId = false
    · rw [if_pos hdenied, if_pos hdenied]
      exact ⟨h, fun _ ↦ rfl⟩
    · rw [if_neg hdenied, if_neg hdenied]
      cases hhost : db.claimIngressHost env w request.ingressHost with
      | error e => exact ⟨h, fun _ ↦ rfl⟩
      | ok host =>
        have htables : db.tables.redact = db'.tables.redact :=
          congrArg WorkloadDb.tables (alike_iff.mp h)
        have happlied := applied_alike halike request host
        obtain ⟨hstored, hbroken⟩ := upsertWorkload_redact htables happlied w
        refine ⟨h.with_tables hstored, fun hcovered ↦ ?_⟩
        by_cases hclash : db.tables.Clashes w (request.applied host row)
        · have hfalse : (db.tables.upsertWorkload w (request.applied host row)).2 = false := by
            rw [CatalogDb.upsertWorkload, if_pos hclash]
          rw [hfalse] at hbroken
          simp only [hfalse, ← hbroken]
          rfl
        · have hplain := hcovered row ⟨hrow, allowed_of_not_denied hdenied, host, hhost, hclash⟩
          obtain rfl := row_eq_of_plain hplain halike
          simp only [hbroken]

theorem Alike.deleteWorkload (h : db.Alike db') (w : WorkloadId) :
    (db.deleteWorkload env caller w).1.Alike (db'.deleteWorkload env caller w).1 ∧
      (db.Covered env caller (.deleteWorkload w) →
        (db'.deleteWorkload env caller w).2 = (db.deleteWorkload env caller w).2) := by
  rw [WorkloadDb.deleteWorkload, WorkloadDb.deleteWorkload]
  rcases h.row? w with ⟨hnone, hnone'⟩ | ⟨row, row', halike, hrow, hrow'⟩
  · rw [hnone, hnone']
    exact ⟨h, fun _ ↦ rfl⟩
  · have howner : row'.ownerUserId = row.ownerUserId := by rw [halike.others]
    rw [hrow, hrow']
    simp only [howner]
    by_cases hdenied : caller.admin = false ∧
        RoutingDb.ownedBy row.ownerUserId caller.userId = false
    · rw [if_pos hdenied, if_pos hdenied]
      exact ⟨h, fun _ ↦ rfl⟩
    · rw [if_neg hdenied, if_neg hdenied]
      refine ⟨h.with_tables ?_, fun hcovered ↦ ?_⟩
      · have hfilter : ∀ t : CatalogDb,
            CatalogDb.redact { t with workloads := t.workloads.filter fun w' _ ↦ w' ≠ w } =
              { t.redact with workloads := t.redact.workloads.filter fun w' _ ↦ w' ≠ w } := by
          intro t
          have hworkloads := Table.map_filter t.workloads redactWorkload
            (p := fun w' _ ↦ w' ≠ w) fun _ _ ↦ rfl
          exact congrArg (fun workloads ↦ { t with workloads := workloads }) hworkloads
        have htables : db.tables.redact = db'.tables.redact :=
          congrArg WorkloadDb.tables (alike_iff.mp h)
        rw [hfilter, hfilter, htables]
      · have hplain := hcovered row ⟨hrow, allowed_of_not_denied hdenied⟩
        rw [row_eq_of_plain hplain halike]

/-- What one call does to two databases that are alike: they stay alike, and the responses are the
same if the call is covered. -/
theorem Alike.route (h : db.Alike db') {call call' : WorkloadCall} (hcall : call.Alike env call') :
    (db.route env caller call).1.Alike (db'.route env caller call').1 ∧
      (db.Covered env caller call →
        (db'.route env caller call').2 = (db.route env caller call).2) := by
  cases call with
  | createWorkload w request =>
    cases call' with
    | createWorkload w' request' =>
      obtain ⟨rfl, hrequest, hverdict⟩ := hcall
      obtain ⟨halike, heq⟩ := h.createWorkload hrequest hverdict
      exact ⟨halike, fun _ ↦ heq⟩
    | _ => cases hcall
  | listWorkloads mine =>
    obtain rfl := hcall
    exact ⟨h, fun _ ↦ h.listWorkloads mine⟩
  | getWorkload w =>
    obtain rfl := hcall
    refine ⟨?_, fun _ ↦ h.getWorkload w⟩
    change (db.getWorkload caller w).1.Alike (db'.getWorkload caller w).1
    rw [getWorkload_fst, getWorkload_fst]
    exact h
  | updateWorkload w request =>
    obtain rfl := hcall
    exact h.updateWorkload w request
  | deleteWorkload w =>
    obtain rfl := hcall
    exact h.deleteWorkload w

/-! ## Which calls are covered -/

/-- A value that is another. -/
def otherValue : Json → Json
  | .null => .bool true
  | _ => .null

theorem otherValue_ne (v : Json) : otherValue v ≠ v := by
  cases v <;> exact nofun

/-- Metadata with secrets are like others. -/
theorem exists_alike_ne {m : Metadata} (h : ¬PlainMetadata m) :
    ∃ m', MetadataAlike m m' ∧ m' ≠ m := by
  have hrefl : ∀ item : Text × Json, SecretAlike item item := fun item ↦ ⟨rfl, .inr (.inl rfl)⟩
  have hitem : ∀ item ∈ m, (∃ v, SecretAlike item (item.1, v) ∧ v ≠ item.2) →
      ∃ m', MetadataAlike m m' ∧ m' ≠ m := by
    rintro item hmem ⟨v, halike, hne⟩
    obtain ⟨before, after, rfl⟩ := List.append_of_mem hmem
    refine ⟨before ++ (item.1, v) :: after, ?_, fun heq ↦ hne ?_⟩
    · exact List.rel_append (List.forall₂_same.mpr fun i _ ↦ hrefl i)
        (.cons halike (List.forall₂_same.mpr fun i _ ↦ hrefl i))
    · exact congrArg Prod.snd (List.cons.inj (List.append_cancel_left heq)).1
  rw [PlainMetadata] at h
  push Not at h
  obtain ⟨item, hmem, hsecret⟩ := h
  by_cases hkey : isSecretMetaKey item.1 = true
  · exact hitem item hmem ⟨otherValue item.2, ⟨rfl, .inl hkey⟩, otherValue_ne item.2⟩
  · obtain ⟨hname, vars, hvars, hne⟩ := hsecret (Bool.eq_false_of_not_eq_true hkey)
    cases vars with
    | nil => exact absurd rfl hne
    | cons var vars =>
      refine hitem item hmem ⟨.obj ((var.1, otherValue var.2) :: vars),
        ⟨rfl, .inr (.inr ⟨hname, _, _, hvars, rfl, rfl⟩)⟩, ?_⟩
      rw [hvars]
      intro heq
      exact otherValue_ne var.2 (congrArg Prod.snd (List.cons.inj (Json.obj.inj heq)).1)

/-- The database in which one workload has other metadata. -/
def withMetadata (db : WorkloadDb) (w : WorkloadId) (m : Metadata) : WorkloadDb :=
  { db with tables := { db.tables with
      workloads := db.tables.workloads.modify w fun row ↦ { row with metadata := m } } }

theorem withMetadata_alike {row : WorkloadRow} {m : Metadata} (hrow : db.row? w = some row)
    (h : MetadataAlike row.metadata m) :
    db.Alike (db.withMetadata w m) ∧
      (db.withMetadata w m).row? w = some { row with metadata := m } := by
  have hredact : redactMetadata m = redactMetadata row.metadata := (metadata_alike_iff.mp h).symm
  constructor
  · rw [alike_iff, redact, redact, CatalogDb.redact, CatalogDb.redact, withMetadata]
    have hmap : (db.tables.workloads.map fun _ row ↦ redactWorkload row) =
        (db.tables.workloads.modify w fun row ↦ { row with metadata := m }).map
          fun _ row ↦ redactWorkload row := by
      rw [Table.modify, Table.map_map]
      refine Table.map_congr fun w' row' hrow' ↦ ?_
      split
      · next hw =>
        subst hw
        obtain rfl := Option.some.inj (hrow.symm.trans hrow')
        rw [redactWorkload, redactWorkload, hredact]
      · rfl
    simp only [hmap]
  · rw [row?, withMetadata, Table.get?_modify_self]
    rw [row?] at hrow
    rw [hrow]
    rfl

theorem updateWorkload_snd {request : WorkloadUpdateRequest} {row : WorkloadRow}
    {host : Option Text} (hrow : db.row? w = some row)
    (hallowed : caller.admin = true ∨ RoutingDb.ownedBy row.ownerUserId caller.userId = true)
    (hhost : db.claimIngressHost env w request.ingressHost = .ok host)
    (hfree : ¬db.tables.Clashes w (request.applied host row)) :
    (db.updateWorkload env caller w request).2 = .ok (.one w (request.applied host row)) := by
  have hnot :
      ¬(caller.admin = false ∧ RoutingDb.ownedBy row.ownerUserId caller.userId = false) := by
    rw [not_and_or, Bool.not_eq_false, Bool.not_eq_false]
    exact hallowed
  have hstored : (db.tables.upsertWorkload w (request.applied host row)).2 = true := by
    rw [CatalogDb.upsertWorkload, if_neg hfree]
  rw [WorkloadDb.updateWorkload, hrow]
  simp only [if_neg hnot, hhost, hstored, if_true]

theorem deleteWorkload_snd {row : WorkloadRow} (h : db.Deletable caller w row) :
    (db.deleteWorkload env caller w).2 = .ok (.one w row) := by
  have hnot :
      ¬(caller.admin = false ∧ RoutingDb.ownedBy row.ownerUserId caller.userId = false) := by
    rw [not_and_or, Bool.not_eq_false, Bool.not_eq_false]
    exact h.2
  rw [WorkloadDb.deleteWorkload, h.1]
  simp only [if_neg hnot]

/-- A call that is not covered answers otherwise in some database that is alike. -/
theorem exists_differs {call : WorkloadCall} (h : ¬db.Covered env caller call) :
    ∃ db', db.Alike db' ∧ (db'.route env caller call).2 ≠ (db.route env caller call).2 := by
  cases call with
  | updateWorkload w request =>
    rw [Covered] at h
    push Not at h
    obtain ⟨row, ⟨hrow, hallowed, host, hhost, hfree⟩, hsecrets⟩ := h
    obtain ⟨m, halike, hne⟩ := exists_alike_ne hsecrets
    obtain ⟨hdb, hrow'⟩ := withMetadata_alike hrow halike
    have hrows : row.Alike { row with metadata := m } := ⟨halike, rfl⟩
    have hfree' := mt (clashes_alike (congrArg WorkloadDb.tables (alike_iff.mp hdb))
      (applied_alike hrows request host) w).mpr hfree
    refine ⟨_, hdb, fun heq ↦ hne ?_⟩
    rw [route, route, updateWorkload_snd hrow hallowed hhost hfree,
      updateWorkload_snd hrow' hallowed (hdb.claimIngressHost_eq w _ ▸ hhost) hfree'] at heq
    exact congrArg WorkloadRow.metadata (WorkloadAnswer.one.inj (Except.ok.inj heq)).2
  | deleteWorkload w =>
    rw [Covered] at h
    push Not at h
    obtain ⟨row, ⟨hrow, hallowed⟩, hsecrets⟩ := h
    obtain ⟨m, halike, hne⟩ := exists_alike_ne hsecrets
    obtain ⟨hdb, hrow'⟩ := withMetadata_alike hrow halike
    refine ⟨_, hdb, fun heq ↦ hne ?_⟩
    rw [route, route, deleteWorkload_snd ⟨hrow, hallowed⟩, deleteWorkload_snd ⟨hrow', hallowed⟩]
      at heq
    exact congrArg WorkloadRow.metadata (WorkloadAnswer.one.inj (Except.ok.inj heq)).2
  | _ => exact absurd trivial h

/-- The responses to a call are the same in all databases that are alike, and to all calls that
are, exactly if the call is covered: a creation, a list and a lookup always are, an update and a
deletion where they are refused, or where the workload has no secrets. -/
theorem equal_responses_iff (env : WorkloadEnv) (caller : KeyHolder) (call : WorkloadCall)
    (db : WorkloadDb) :
    (∀ call' db', call.Alike env call' → db.Alike db' →
      (db'.route env caller call').2 = (db.route env caller call).2) ↔
      db.Covered env caller call := by
  refine ⟨fun h ↦ ?_, fun hcovered call' db' hcall hdb ↦ (hdb.route hcall).2 hcovered⟩
  by_contra hnot
  obtain ⟨db', hdb, hne⟩ := exists_differs hnot
  have hself : call.Alike env call := by
    cases call with
    | createWorkload w request =>
      exact ⟨rfl, ⟨List.forall₂_same.mpr fun item _ ↦ ⟨rfl, .inr (.inl rfl)⟩, rfl⟩, fun _ ↦ rfl⟩
    | _ => exact rfl
  exact hne (h call db' hself hdb)

/-! Someone has updated a model of theirs, and sees the token that they have put in once. -/

private def tokenRow (token : String) : WorkloadRow where
  ownerUserId := some 1
  name := "llama".toList
  image := "vllm".toList
  displayName := none
  readme := none
  logoUri := none
  tags := []
  workloadAlias := none
  ingressHost := none
  securityTier := "standard".toList
  pricingClass := "standard".toList
  runtime := []
  lifecycle := []
  isPublic := false
  createdAt := 0
  kind := .inference
  requirements := []
  metadata := [("HF_Token".toList, .str token.toList)]

private def tokenDb (token : String) : WorkloadDb where
  tables :=
    { workloads := .ofRows [("w1".toList, tokenRow token)] (List.nodup_singleton _)
      catalog := .empty
      submissions := .empty
      now := 0 }
  shares := []

theorem token_in_update :
    ¬∀ (env : WorkloadEnv) (caller : KeyHolder) (call call' : WorkloadCall) (db db' : WorkloadDb),
      call.Alike env call' → db.Alike db' →
        (db'.route env caller call').2 = (db.route env caller call).2 := by
  intro h
  have halike : (tokenDb "hf_a").Alike (tokenDb "hf_b") :=
    ⟨.cons ⟨rfl, .cons ⟨rfl, .inl (by decide +kernel)⟩ .nil, rfl⟩ .nil, rfl⟩
  have hupdated : ∀ token, ¬(tokenDb token).tables.Clashes "w1".toList
      (({} : WorkloadUpdateRequest).applied none (tokenRow token)) := by
    rintro token ⟨other, hother, hne, -⟩
    exact hne (congrArg Prod.fst (List.mem_singleton.mp hother))
  have hsame := h ⟨[], id, fun _ ↦ [], id⟩ ⟨some 1, false⟩ (.updateWorkload "w1".toList {})
    (.updateWorkload "w1".toList {}) _ _ rfl halike
  rw [route, route, updateWorkload_snd rfl (.inr rfl) rfl (hupdated "hf_a"),
    updateWorkload_snd rfl (.inr rfl) rfl (hupdated "hf_b")] at hsame
  have hmetadata := congrArg WorkloadRow.metadata (WorkloadAnswer.one.inj (Except.ok.inj hsame)).2
  have htoken := Json.str.inj (congrArg Prod.snd (List.cons.inj hmetadata).1)
  exact absurd htoken (by decide +kernel)

/-! ## Runs -/

end WorkloadDb

end GreenCompute
