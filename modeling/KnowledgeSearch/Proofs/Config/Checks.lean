/-
  KnowledgeSearch/Proofs/Config/Checks.lean
  =========================================
  **What the checks of a configuration come to.**

  The checks are made one after another and stop at the first that fails.  Here they are
  said at once: `Config.Checked` holds of exactly the configurations that pass
  (`Config.check_iff`), so of every configuration that is accepted
  (`Config.checked_of_ofString`), and whatever an accepted configuration promises follows
  from it without going through the checks again.
-/
import KnowledgeSearch.Config.Validation

namespace KnowledgeSearch

open Text (isIdentifier)

/-! ### Checks in order -/

theorem checkThat_iff {holds : Bool} {fault : ConfigFault} :
    checkThat holds fault = .ok () ↔ holds = true := by
  cases holds <;> simp [checkThat]

/-- A check and what follows it pass if both do. -/
theorem bind_check_iff {check : Except ConfigFault Unit}
    {next : Unit → Except ConfigFault Unit} :
    (check >>= next) = .ok () ↔ check = .ok () ∧ next () = .ok () := by
  cases check with
  | error fault => exact iff_of_false (nomatch ·) (nomatch ·.1)
  | ok _ => exact (and_iff_right rfl).symm

/-! ### Tables -/

/-- A table that passes its checks. -/
structure Table.Checked (table : Table) : Prop where
  name : isIdentifier table.name = true
  columns : table.columns ≠ []
  names : ∀ name ∈ table.names, isIdentifier name = true
  primaryKey : table.primaryKey ∈ table.columns
  embedding : table.embeddingColumn ∉ table.columns
  dimension : table.embeddingDim ≠ 0
  textFields : ∀ field ∈ table.textFields, field ∈ table.columns

theorem Table.check_iff {table : Table} : table.check = .ok () ↔ table.Checked := by
  have hnames : (table.names.find? fun column => !isIdentifier column) = none ↔
      ∀ name ∈ table.names, isIdentifier name = true := by simp
  have hfields : (table.textFields.find? fun field => !table.columns.contains field) = none ↔
      ∀ field ∈ table.textFields, field ∈ table.columns := by simp
  unfold Table.check
  rw [bind_check_iff, bind_check_iff, checkThat_iff, checkThat_iff]
  constructor
  · rintro ⟨hname, hcolumns, h⟩
    generalize hfound : (table.names.find? fun column => !isIdentifier column) = found at h hnames
    cases found with
    | some column => cases h
    | none =>
      dsimp only at h
      simp only [bind_check_iff, checkThat_iff] at h
      obtain ⟨hkey, hembedding, hdimension, h⟩ := h
      generalize (table.textFields.find? fun field => !table.columns.contains field) = missing
        at h hfields
      cases missing with
      | some field => cases h
      | none =>
        exact ⟨hname, by simpa using hcolumns, hnames.mp rfl, by simpa using hkey,
          by simpa using hembedding, by simpa using hdimension, hfields.mp rfl⟩
  · intro h
    rw [hnames.mpr h.names]
    dsimp only
    simp only [bind_check_iff, checkThat_iff, hfields.mpr h.textFields]
    exact ⟨h.name, by simpa using h.columns, by simpa using h.primaryKey,
      by simpa using h.embedding, by simpa using h.dimension, rfl⟩

namespace Config

theorem checkTables_iff {seen : List String} {tables : List Table} :
    checkTables seen tables = .ok () ↔
      (∀ table ∈ tables, table.Checked ∧ table.name ∉ seen) ∧ (tables.map Table.name).Nodup := by
  induction tables generalizing seen with
  | nil => exact iff_of_true rfl ⟨by simp, List.nodup_nil⟩
  | cons first rest ih =>
    rw [checkTables, bind_check_iff, bind_check_iff, checkThat_iff, Table.check_iff, ih,
      List.forall_mem_cons]
    simp only [List.map_cons, List.nodup_cons, List.mem_map,
      List.mem_cons, not_or, Bool.not_eq_true', List.contains_eq_mem, decide_eq_false_iff_not]
    constructor
    · rintro ⟨hfirst, hseen, hrest, hnames⟩
      refine ⟨⟨⟨hfirst, hseen⟩, fun table htable => ?_⟩, ?_, hnames⟩
      · exact ⟨(hrest table htable).1, (hrest table htable).2.2⟩
      · rintro ⟨table, htable, hname⟩
        exact (hrest table htable).2.1 hname
    · rintro ⟨⟨⟨hfirst, hseen⟩, hrest⟩, hother, hnames⟩
      refine ⟨hfirst, hseen, fun table htable => ?_, hnames⟩
      exact ⟨(hrest table htable).1, fun hname => hother ⟨table, htable, hname⟩,
        (hrest table htable).2⟩

/-! ### The whole -/

theorem checkWeight_iff {label : String} {weight : Single} :
    checkWeight label weight = .ok () ↔ weight.isFinite = true ∧ weight.lt .zero = false := by
  rw [checkWeight, bind_check_iff, checkThat_iff, checkThat_iff, Bool.not_eq_true']

/-- A configuration that passes its checks. -/
structure Checked (config : Config) : Prop where
  dsn : Text.isBlankText config.storage.dsn = false
  connections : config.storage.maxConnections ≠ 0
  acquireTimeout : config.storage.acquireTimeoutMs ≠ 0
  statementTimeout : config.storage.statementTimeoutMs ≠ some 0
  limit : config.search.maxLimit ≠ 0
  candidates : config.search.maxLimit ≤ config.search.maxCandidates
  textWeight : config.search.hybrid.textWeight.isFinite = true ∧
    config.search.hybrid.textWeight.lt .zero = false
  vectorWeight : config.search.hybrid.vectorWeight.isFinite = true ∧
    config.search.hybrid.vectorWeight.lt .zero = false
  textSearchConfig : isIdentifier config.search.hybrid.textSearchConfig = true
  calibrationK : config.search.hybrid.calibrationK ≠ 0
  calibrationGrid : config.search.hybrid.calibrationGrid ≠ []
  gridRange : ∀ weight ∈ config.search.hybrid.calibrationGrid, inUnit weight = true
  cacheEntries : config.search.cache.enabled = true → config.search.cache.maxEntries ≠ 0
  hnswM : 2 ≤ config.index.hnswM
  hnswEfConstruction : doubleCapped config.index.hnswM ≤ config.index.hnswEfConstruction
  metric : config.storage.dialect = .lite → config.index.metric ≠ .innerProduct
  tables : ∀ table ∈ config.tables, table.Checked
  tableNames : (config.tables.map Table.name).Nodup

theorem check_iff {config : Config} : config.check = .ok () ↔ config.Checked := by
  unfold check
  simp only [bind_check_iff, checkThat_iff, checkWeight_iff, checkTables_iff, Bool.not_eq_true',
    Bool.and_eq_false_iff, bne_iff_ne, decide_eq_true_eq, List.all_eq_true,
    List.isEmpty_eq_false_iff, List.not_mem_nil, not_false_eq_true, and_true, beq_eq_false_iff_ne]
  constructor
  · rintro ⟨hdsn, hconnections, hacquire, hstatement, hlimit, hcandidates, htext, hvector, hconfig,
      hk, hgrid, hrange, hcache, hm, hef, hmetric, htables, hnames⟩
    refine ⟨hdsn, hconnections, hacquire, hstatement, hlimit, hcandidates, htext, hvector, hconfig,
      hk, hgrid, hrange, ?_, hm, hef, ?_, htables, hnames⟩
    · intro henabled
      exact hcache.resolve_left (by simp [henabled])
    · intro hlite
      exact hmetric.resolve_left (not_not_intro hlite)
  · intro h
    refine ⟨h.dsn, h.connections, h.acquireTimeout, h.statementTimeout, h.limit, h.candidates,
      h.textWeight, h.vectorWeight, h.textSearchConfig, h.calibrationK, h.calibrationGrid,
      h.gridRange, ?_, h.hnswM, h.hnswEfConstruction, ?_, h.tables, h.tableNames⟩
    · cases henabled : config.search.cache.enabled with
      | false => exact Or.inl rfl
      | true => exact Or.inr (h.cacheEntries henabled)
    · by_cases hlite : config.storage.dialect = .lite
      · exact Or.inr (h.metric hlite)
      · exact Or.inl hlite

/-- What an accepted document was read as, before it was tidied and checked. -/
theorem ofString_eq_ok {text : String} {config : Config} (h : ofString text = .ok config) :
    ∃ document written, Toml.ofString? text = some document ∧ ofToml? document = some written ∧
      written.normalize = config ∧ config.check = .ok () := by
  unfold ofString at h
  split at h
  · cases h
  · rename_i document hdocument
    unfold ofToml at h
    split at h
    · cases h
    · rename_i written hwritten
      dsimp only at h
      split at h
      · rename_i hcheck
        cases h
        exact ⟨document, written, hdocument, hwritten, rfl, hcheck⟩
      · cases h

/-- **An accepted configuration passes all checks.** -/
theorem checked_of_ofString {text : String} {config : Config} (h : ofString text = .ok config) :
    config.Checked := by
  obtain ⟨_, _, -, -, -, hcheck⟩ := ofString_eq_ok h
  exact check_iff.mp hcheck

/-- A document of which some part is known is accepted. -/
theorem exists_of_map_ofString {α : Type} {text : String} {part : Config → α} {value : α}
    (h : (ofString text).toOption.map part = some value) :
    ∃ config, ofString text = .ok config ∧ part config = value := by
  cases hread : ofString text with
  | error e =>
    rw [hread] at h
    cases h
  | ok config =>
    rw [hread] at h
    exact ⟨config, rfl, Option.some.inj h⟩

end Config

end KnowledgeSearch
