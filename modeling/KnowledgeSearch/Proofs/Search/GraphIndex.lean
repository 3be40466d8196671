/-
  KnowledgeSearch/Proofs/Search/GraphIndex.lean
  =============================================
  **The parameters of recommended graph indexes.**

  A graph index has a number of neighbours a node and a length of the candidate list while
  it is built; the second has to be at least twice the first.  Both are configured, and a
  configuration is checked before anything is recommended from it.

  The check doubles the number of neighbours in a word and cuts the product at the largest
  word (`Config.doubleCapped`).  Below half of the words that is the product
  (`doubleCapped_le_iff`), and from there on it is not: the largest word passes as the
  length for every number of neighbours.  So the law holds of what is recommended exactly
  if the number of neighbours is below 2 ^ 31 (`Service.recommendIndex_graph`).
-/
import KnowledgeSearch.Proofs.Search.OperationRun
import KnowledgeSearch.Proofs.Search.RecommendedIndex

namespace KnowledgeSearch

/-! ### Doubling up to the largest word -/

theorem toNat_doubleCapped (n : UInt32) :
    (doubleCapped n).toNat = min (2 * n.toNat) (2 ^ 32 - 1) := by
  have hsize : UInt32.size = 2 ^ 32 := rfl
  unfold doubleCapped
  split
  · rw [UInt32.toNat_mul]
    change n.toNat * 2 % 2 ^ 32 = _
    omega
  · change 2 ^ 32 - 1 = _
    omega

/-- The check of a configuration: below half of the words it is the law, and from there on
    only the largest word passes. -/
theorem doubleCapped_le_iff {m ef : UInt32} :
    doubleCapped m ≤ ef ↔
      if m.toNat < 2 ^ 31 then 2 * m.toNat ≤ ef.toNat else ef.toNat = 2 ^ 32 - 1 := by
  rw [UInt32.le_iff_toNat_le, toNat_doubleCapped]
  have hef := ef.toNat_lt
  split <;> omega

/-! ### Statements for graphs -/

theorem IndexParameters.clause_graph (m ef : UInt32) :
    (hnsw m ef).clause =
      "m = " ++ toString m.toNat ++ ", ef_construction = " ++ toString ef.toNat := by
  dsimp only [clause]
  with_reducible_and_instances rfl

/-- The statements for a graph have its parameters in decimal. -/
theorem VectorIndex.statements_graph (name table column : String) (metric : Metric)
    (m ef : UInt32) :
    statements ⟨name, table, column, metric, .hnsw m ef⟩ =
      ["DROP INDEX IF EXISTS " ++ name,
        "CREATE INDEX " ++ name ++ " ON " ++ table ++ " USING hnsw (" ++ column ++ " " ++
          metric.operatorClass ++ ") WITH (m = " ++ toString m.toNat ++
          ", ef_construction = " ++ toString ef.toNat ++ ")"] := by
  dsimp only [statements, dropText, createText, IndexParameters.kind, IndexKind.accessMethod]
  rw [IndexParameters.clause_graph]
  -- the numbers are not to be computed
  generalize toString m.toNat = neighbours
  generalize toString ef.toNat = candidates
  simp [← String.toList_inj]

/-! ### Recommendations -/

namespace Service

variable {s : Service} {σ : Type} {machine : Machine σ} {name : String}
  {preference : Option IndexPreference} {r : IndexRecommendation}

/-- What is recommended is made from the settings, for a table of the catalog. -/
theorem exists_make_of_run
    (hrun : ((s.recommendIndex name preference).run.run machine).1 = .ok r) :
    ∃ table rows, s.catalog.table name = .ok table ∧
      r = .make s.config.index table (preference.getD s.config.index.kind) rows := by
  rcases recommendIndex_runs (Search.runs_trace (s.recommendIndex name preference) machine) with
    ⟨fault, -, -, houtcome⟩ | ⟨table, inner, htable, -, houtcome⟩
  · cases hrun.symm.trans houtcome
  · rw [hrun] at houtcome
    cases inner with
    | error e => cases houtcome
    | ok rows =>
      simp only [inContext, Except.map, Except.ok.injEq] at houtcome
      exact ⟨table, rows, htable, houtcome⟩

/-- A recommended graph has the parameters of the settings, and so have its statements. -/
theorem graph_of_make {settings : IndexSettings} {table : Table} {wanted : IndexPreference}
    {rows : UInt64} {m ef : UInt32} (hmade : r = .make settings table wanted rows)
    (hgraph : r.parameters = .hnsw m ef) :
    m = settings.hnswM ∧ ef = settings.hnswEfConstruction ∧
      r.statements =
        VectorIndex.statements ⟨r.indexName, r.table, r.column, r.metric, .hnsw m ef⟩ := by
  have hparameters : r.parameters = .choose settings rows.toNat r.kind := by
    simp only [hmade, IndexRecommendation.make]
  have hstatements : r.statements = VectorIndex.statements
      ⟨r.indexName, r.table, r.column, r.metric, r.parameters⟩ := by
    simp only [hmade, IndexRecommendation.make]
  have hkind : r.kind = .hnsw := by
    rw [← IndexParameters.kind_choose settings rows.toNat r.kind, ← hparameters, hgraph]
    rfl
  rw [hgraph, hkind, IndexParameters.choose] at hparameters
  obtain ⟨hm, hef⟩ := IndexParameters.hnsw.inj hparameters
  exact ⟨hm, hef, by rw [hstatements, hgraph]⟩

/-- **Recommended graphs obey the law of their parameters, below half of the words.**  With an
    accepted configuration, in either dialect, for every table name, every preference and
    every machine that counts the rows: where a graph is recommended, its parameters are the
    configured ones, the number of neighbours is at least 2, and the length of the candidate
    list is at least twice that number exactly if the number is below 2 ^ 31.  From there on
    the length is the largest word.  The statement that creates the index has the same two
    numbers, in decimal. -/
theorem recommendIndex_graph {text : String} {config : Config}
    (h : Config.ofString text = .ok config) {d : Dialect}
    (hrun : ((recommendIndex ⟨config, d⟩ name preference).run.run machine).1 = .ok r)
    {m ef : UInt32} (hgraph : r.parameters = .hnsw m ef) :
    m = config.index.hnswM ∧ ef = config.index.hnswEfConstruction ∧ 2 ≤ m.toNat ∧
      (2 * m.toNat ≤ ef.toNat ↔ m.toNat < 2 ^ 31) ∧
      (2 ^ 31 ≤ m.toNat → ef.toNat = 2 ^ 32 - 1) ∧
      r.statements =
        ["DROP INDEX IF EXISTS " ++ r.indexName,
          "CREATE INDEX " ++ r.indexName ++ " ON " ++ r.table ++ " USING hnsw (" ++ r.column ++
            " " ++ r.metric.operatorClass ++ ") WITH (m = " ++ toString m.toNat ++
            ", ef_construction = " ++ toString ef.toNat ++ ")"] := by
  obtain ⟨table, rows, -, hmade⟩ := exists_make_of_run hrun
  obtain ⟨hm, hef, hstatements⟩ := graph_of_make hmade hgraph
  have hchecked := Config.checked_of_ofString h
  have hleast : 2 ≤ m := hm ▸ hchecked.hnswM
  have hlaw : doubleCapped m ≤ ef := hm ▸ hef ▸ hchecked.hnswEfConstruction
  rw [doubleCapped_le_iff] at hlaw
  have hword := ef.toNat_lt
  refine ⟨hm, hef, hleast, ?_, ?_, hstatements.trans (VectorIndex.statements_graph ..)⟩
  · split at hlaw <;> omega
  · intro hlarge
    rwa [if_neg (by omega)] at hlaw

/-- The configuration of the notes, with the given parameters of graphs. -/
def graphText (m ef : Nat) : String :=
  servedText ++ "[index]\nhnsw_m = " ++ toString m ++ "\nhnsw_ef_construction = " ++
    toString ef ++ "\n"

/-- A graph that is asked for is recommended with what the text configures. -/
theorem exists_graph (text : String) (m ef : UInt32)
    (h : (Config.ofString text).toOption.map (fun config =>
      (config.tables, config.index.hnswM, config.index.hnswEfConstruction)) =
        some ([servedNotes], m, ef)) :
    ∃ config r, Config.ofString text = .ok config ∧
      ((recommendIndex ⟨config, .postgres⟩ "notes" (some .hnsw)).run.run (countingMachine 3)).1 =
        .ok r ∧
      r.parameters = .hnsw m ef := by
  obtain ⟨config, hread, hparts⟩ := Config.exists_of_map_ofString h
  obtain ⟨htables, hsettings⟩ := Prod.mk.inj hparts
  obtain ⟨rfl, rfl⟩ := Prod.mk.inj hsettings
  have hfound : (Service.catalog ⟨config, .postgres⟩).table servedNotes.name = .ok servedNotes := by
    rw [catalog, Config.catalog_table (Config.checked_of_ofString hread).tableNames, Config.table?,
      htables]
    rfl
  exact ⟨config, _, hread,
    run_recommendIndex hfound (some .hnsw) (m := countingMachine 3) rfl, rfl⟩

/-- The largest number of neighbours for which the law holds, with the least length. -/
theorem recommendIndex_graph_largest :
    ∃ config r, Config.ofString (graphText 2147483647 4294967294) = .ok config ∧
      ((recommendIndex ⟨config, .postgres⟩ "notes" (some .hnsw)).run.run (countingMachine 3)).1 =
        .ok r ∧
      r.parameters = .hnsw 2147483647 4294967294 ∧
      2 * (2147483647 : UInt32).toNat ≤ (4294967294 : UInt32).toNat ∧
      r.statements =
        ["DROP INDEX IF EXISTS " ++ r.indexName,
          "CREATE INDEX " ++ r.indexName ++ " ON " ++ r.table ++ " USING hnsw (" ++ r.column ++
            " " ++ r.metric.operatorClass ++
            ") WITH (m = 2147483647, ef_construction = 4294967294)"] := by
  obtain ⟨config, r, hread, hrun, hgraph⟩ :=
    exists_graph (graphText 2147483647 4294967294) 2147483647 4294967294 (by decide +kernel)
  obtain ⟨-, -, -, hlaw, -, hstatements⟩ := recommendIndex_graph hread hrun hgraph
  refine ⟨config, r, hread, hrun, hgraph, hlaw.mpr (by decide), ?_⟩
  have hneighbours : toString (2147483647 : UInt32).toNat = "2147483647" := by decide +kernel
  have hcandidates : toString (4294967294 : UInt32).toNat = "4294967294" := by decide +kernel
  rw [hstatements, hneighbours, hcandidates]
  simp [← String.toList_inj]

/-- One neighbour more, and the largest word passes as the length, which is less than twice
    the number of neighbours. -/
theorem recommendIndex_graph_overflows :
    ∃ config r, Config.ofString (graphText 2147483648 4294967295) = .ok config ∧
      ((recommendIndex ⟨config, .postgres⟩ "notes" (some .hnsw)).run.run (countingMachine 3)).1 =
        .ok r ∧
      r.parameters = .hnsw 2147483648 4294967295 ∧
      ¬2 * (2147483648 : UInt32).toNat ≤ (4294967295 : UInt32).toNat := by
  obtain ⟨config, r, hread, hrun, hgraph⟩ :=
    exists_graph (graphText 2147483648 4294967295) 2147483648 4294967295 (by decide +kernel)
  exact ⟨config, r, hread, hrun, hgraph, by decide⟩

end Service

end KnowledgeSearch
