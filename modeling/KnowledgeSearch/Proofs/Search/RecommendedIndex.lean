/-
  KnowledgeSearch/Proofs/Search/RecommendedIndex.lean
  ===================================================
  **What is recommended is what is created.**

  A recommendation is made from the configuration and the catalog's table, and its kind is the
  kind of its parameters.  Creating its index looks the table up again by the recommended
  name, and writes the statements anew from what it finds.  In an accepted configuration that
  is the same table, so the recommendation passes all checks and the statements that are
  sent are those that it carries (`Service.recommendIndex_applies`).
-/
import KnowledgeSearch.Proofs.Search.Accepted
import KnowledgeSearch.Proofs.Search.AppliedIndex

namespace KnowledgeSearch

/-! ### Recommendations -/

theorem IndexParameters.kind_choose (settings : IndexSettings) (rows : Nat) (kind : IndexKind) :
    (choose settings rows kind).kind = kind := by
  cases kind <;> rfl

namespace Service

variable {s : Service} {table : Table}

/-- A table that is found is counted, and an index is recommended for the count. -/
theorem run_recommendIndex {σ : Type} {m : Machine σ} {output : QueryOutput}
    (htable : s.catalog.table table.name = .ok table) (preference : Option IndexPreference)
    (hcount : (m.backend.execute (.countEmbedded table) .first m.database).1 = .ok output) :
    ((s.recommendIndex table.name preference).run.run m).1 =
      .ok (.make s.config.index table (preference.getD s.config.index.kind)
        (countOfRows output.toRows)) := by
  -- the only action is the one that counts
  have hprogram : ∃ next, (s.recommendIndex table.name preference).run =
      .act (.execute (.countEmbedded table) .first) next ∧
      ∀ output, next (.ok output) = .done (.ok (.make s.config.index table
        (preference.getD s.config.index.kind) (countOfRows output.toRows))) := by
    unfold recommendIndex
    rw [htable]
    exact ⟨_, rfl, fun _ => rfl⟩
  obtain ⟨next, hprogram, hnext⟩ := hprogram
  rw [hprogram]
  change ((next (m.backend.execute _ _ _).1).run _).1 = _
  rw [hcount, hnext]
  rfl

/-- A recommendation that was made for a table of the catalog fits. -/
theorem fits_make (hsupported : s.dialect.supportsIndex = true)
    (htable : s.catalog.table table.name = .ok table) (preference : IndexPreference)
    (rows : UInt64) :
    (IndexRecommendation.make s.config.index table preference rows).Fits s table :=
  ⟨hsupported, htable, rfl, rfl⟩

/-- **What is recommended is what is created.**  With an accepted configuration, a recommendation
    for one of its tables passes all checks when it is applied, whatever was preferred and
    whatever count the database has told.  Applied on any machine, it sends one transaction:
    the recommended statements in their order, without parameters, which put an index of the
    recommended kind in its place.  The outcome tells the recommended name if the transaction
    succeeds, and its error if not. -/
theorem recommendIndex_applies {text : String} {config : Config}
    (h : Config.ofString text = .ok config) {table : Table} (htable : table ∈ config.tables)
    (preference : Option IndexPreference) {σ : Type} {m : Machine σ} {output : QueryOutput}
    (hcount : (m.backend.execute (.countEmbedded table) .first m.database).1 = .ok output) :
    ∃ r, ((recommendIndex ⟨config, .postgres⟩ table.name preference).run.run m).1 = .ok r ∧
      r = .make config.index table (preference.getD config.index.kind)
        (countOfRows output.toRows) ∧
      r.Fits ⟨config, .postgres⟩ table ∧
      ∃ index batch, checkRecommendation ⟨config, .postgres⟩ r = .ok index ∧
        batch.map (TableStatement.toQuery .postgres) =
          r.statements.map (fun statement => ⟨statement, []⟩) ∧
        table.IndexedBy config.index.metric r.kind.accessMethod r.kind.accessMethod
          (batch.map (TableStatement.toQuery .postgres)) ∧
        ∀ (τ : Type) (later : Machine τ),
          (applyIndex ⟨config, .postgres⟩ r).trace later =
            [⟨.executeBatch batch, (later.backend.executeBatch batch later.database).1⟩] ∧
          ((applyIndex ⟨config, .postgres⟩ r).run later).1 =
            .ofAnswer r.indexName (later.backend.executeBatch batch later.database).1 := by
  have hnames := (Config.checked_of_ofString h).tableNames
  have hfound : (Service.catalog ⟨config, .postgres⟩).table table.name = .ok table := by
    rw [catalog, Config.catalog_table hnames, Config.table?, Config.find?_of_mem hnames htable]
  let r := IndexRecommendation.make config.index table (preference.getD config.index.kind)
    (countOfRows output.toRows)
  have hfits : r.Fits ⟨config, .postgres⟩ table := fits_make rfl hfound _ _
  have hkind : r.parameters.kind = r.kind := IndexParameters.kind_choose ..
  have hcheck := checkRecommendation_of_fits hfits
  have hindexed := indexedBy_replacing table r.metric r.kind r.parameters .postgres
  rw [hkind] at hindexed
  refine ⟨r, run_recommendIndex hfound preference hcount, rfl, hfits, _, _, hcheck, ?_, hindexed,
    fun τ later => ?_⟩
  · simp only [replacing, List.map_cons, List.map_nil, toQuery_dropIndex, toQuery_createIndex]
    rfl
  · rw [applyIndex_eq hcheck]
    exact ⟨rfl, rfl⟩

/-- A configuration with a table of notes, and all settings of indexes left to their defaults. -/
def servedText : String :=
  "service = ['info']\nstorage = ['postgres', 'postgres://db/kb', 1]\n" ++
    "tables = [['notes', 'id', ['id', 'title'], 'vec', 2, ['title']]]\n" ++
    "[search]\nmax_limit = 10\nhybrid = [0, 1]\n"

def servedNotes : Table := ⟨"notes", "id", ["id", "title"], "vec", 2, ["title"], []⟩

/-- A machine that counts some rows wherever it is asked, and carries out every transaction. -/
def countingMachine (rows : Nat) : Machine Unit :=
  .start ⟨fun _ _ d => (.ok (.rows [[("n", .ofNat rows)]]), d),
    fun statements d => (.ok statements.length, d)⟩ () id ⟨none, ⟨.half, .half⟩⟩

/-- A graph is recommended for a million notes, and it is what is created. -/
theorem recommendIndex_applies_million :
    ∃ config r batch answer, Config.ofString servedText = .ok config ∧
      ((recommendIndex ⟨config, .postgres⟩ "notes" none).run.run (countingMachine 1000000)).1 =
        .ok r ∧
      r.statements = ["DROP INDEX IF EXISTS notes_vec_hnsw_idx",
        "CREATE INDEX notes_vec_hnsw_idx ON notes USING hnsw (vec vector_cosine_ops) " ++
          "WITH (m = 16, ef_construction = 64)"] ∧
      (applyIndex ⟨config, .postgres⟩ r).trace (countingMachine 1000000) =
        [⟨.executeBatch batch, answer⟩] ∧
      (batch.map (TableStatement.toQuery .postgres)) =
        r.statements.map (fun statement => ⟨statement, []⟩) ∧
      ((applyIndex ⟨config, .postgres⟩ r).run (countingMachine 1000000)).1 =
        .applied "notes_vec_hnsw_idx" := by
  have hparts : (Config.ofString servedText).toOption.map (fun config =>
      (config.tables, config.index)) = some ([servedNotes], .default) := by decide +kernel
  obtain ⟨config, hread, hpair⟩ := Config.exists_of_map_ofString hparts
  obtain ⟨htables, hindex⟩ := Prod.mk.inj hpair
  have hmem : servedNotes ∈ config.tables := by
    rw [htables]
    exact List.mem_singleton_self _
  obtain ⟨r, hrun, hmade, -, index, batch, -, hbatch, -, hlater⟩ :=
    recommendIndex_applies hread hmem none (m := countingMachine 1000000) rfl
  obtain ⟨htrace, houtcome⟩ := hlater Unit (countingMachine 1000000)
  rw [hindex] at hmade
  have hname : r.indexName = "notes_vec_hnsw_idx" := by
    rw [hmade]
    decide +kernel
  refine ⟨config, r, batch, _, hread, hrun, ?_, htrace, hbatch, houtcome.trans ?_⟩
  · rw [hmade]
    decide +kernel
  · rw [hname]
    rfl

end Service

end KnowledgeSearch
