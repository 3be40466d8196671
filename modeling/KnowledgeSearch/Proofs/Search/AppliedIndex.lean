/-
  KnowledgeSearch/Proofs/Search/AppliedIndex.lean
  ===============================================
  **Indexes that are created on a recommendation.**

  A recommendation comes from outside, and says much of itself twice: its table and column
  also stand in the name of the index, and its kind also shows in its parameters.  What is
  sent for one is a single transaction, written anew from the catalog.  The name of
  the index is held against the stated kind, but the access method is that of the
  parameters, and nothing holds these two against each other.  So an index that is created is
  what its name says exactly if they agree (`Service.applyIndex_sends`).
-/
import KnowledgeSearch.Proofs.Search.Run
import KnowledgeSearch.Proofs.Search.Staleness

namespace KnowledgeSearch

/-! ### What an index is -/

/-- The options that an access method takes. -/
inductive TakesOptions : String → String → Prop where
  | lists (n : UInt32) : TakesOptions "ivfflat" s!"lists = {n}"
  | graph (m efConstruction : UInt32) :
    TakesOptions "hnsw" s!"m = {m}, ef_construction = {efConstruction}"

namespace Table

/-- The name of an index on the embeddings of a table that tells an access method. -/
def indexName (table : Table) (method : String) : String :=
  table.name ++ "_" ++ table.embeddingColumn ++ "_" ++ method ++ "_idx"

/-- The queries put an index on the embeddings of a table in the place of an earlier one of its
    name.  The name tells one access method; what creates the index is the other. -/
def IndexedBy (table : Table) (metric : Metric) (named method : String)
    (queries : List Query) : Prop :=
  ∃ options, TakesOptions method options ∧
    queries = [⟨"DROP INDEX IF EXISTS " ++ table.indexName named, []⟩,
      ⟨"CREATE INDEX " ++ table.indexName named ++ " ON " ++ table.name ++ " USING " ++ method ++
        " (" ++ table.embeddingColumn ++ " " ++ metric.operatorClass ++ ") WITH (" ++ options ++
        ")", []⟩]

variable {table : Table}

theorem indexName_inj {method method' : String}
    (h : table.indexName method = table.indexName method') : method = method' := by
  have hlists := congrArg String.toList h
  simp only [indexName, String.toList_append, List.append_cancel_right_eq,
    List.append_cancel_left_eq] at hlists
  exact String.toList_inj.mp hlists

end Table

/-- Each of the two access methods is told from the other by its first letter. -/
theorem TakesOptions.method_eq {method method' options options' : String} {rest rest' : List Char}
    (h : TakesOptions method options) (h' : TakesOptions method' options')
    (hsame : method.toList ++ rest = method'.toList ++ rest') : method = method' := by
  have hheads := congrArg List.head? hsame
  cases h <;> cases h' <;> first | rfl | exact absurd hheads (by simp)

theorem IndexParameters.takesOptions (parameters : IndexParameters) :
    TakesOptions parameters.kind.accessMethod parameters.clause := by
  cases parameters with
  | ivf n searchLists => exact .lists n
  | hnsw m efConstruction => exact .graph m efConstruction

theorem IndexKind.accessMethod_inj {kind kind' : IndexKind}
    (h : kind.accessMethod = kind'.accessMethod) : kind = kind' := by
  cases kind <;> cases kind' <;> first | rfl | exact absurd h (by decide)

/-- Queries whose name tells a method are those of one method only if the two are the same. -/
theorem Table.IndexedBy.named_eq {table : Table} {metric metric' : Metric}
    {named method other : String} {queries : List Query}
    (h : table.IndexedBy metric named method queries)
    (hother : table.IndexedBy metric' other other queries) : named = method := by
  obtain ⟨options, htakes, hqueries⟩ := h
  obtain ⟨options', htakes', hqueries'⟩ := hother
  rw [hqueries] at hqueries'
  simp only [List.cons.injEq, Query.mk.injEq, and_true] at hqueries'
  obtain ⟨hdrop, hcreate⟩ := hqueries'
  have hname : table.indexName named = table.indexName other := by
    have hlists := congrArg String.toList hdrop
    simp only [String.toList_append, List.append_cancel_left_eq] at hlists
    exact String.toList_inj.mp hlists
  rw [hname] at hcreate
  have hlists := congrArg String.toList hcreate
  simp only [String.toList_append, List.append_assoc, List.append_cancel_left_eq] at hlists
  rw [Table.indexName_inj hname]
  exact (htakes.method_eq htakes' hlists).symm

/-! ### Creating -/

/-- A recommendation that agrees with the catalog about its table and its column, and the name
    of whose index tells its kind. -/
structure IndexRecommendation.Fits (r : IndexRecommendation) (s : Service) (table : Table) :
    Prop where
  supported : s.dialect.supportsIndex = true
  found : s.catalog.table r.table = .ok table
  column : r.column = table.embeddingColumn
  name : r.indexName = table.indexName r.kind.accessMethod

/-- How the creation of an index ends, by what its transaction was answered. -/
def IndexOutcome.ofAnswer (indexName : String) : Except StorageError Nat → IndexOutcome
  | .ok _ => .applied indexName
  | .error e => .failed (SearchFault.storage e : SearchError).report

namespace Service

variable (s : Service) (r : IndexRecommendation)

theorem checkRecommendation_cases :
    (∃ table, r.Fits s table ∧ s.checkRecommendation r =
        .ok ⟨table.indexName r.kind.accessMethod, table.name, table.embeddingColumn, r.metric,
          r.parameters⟩) ∨
      (∀ table, ¬r.Fits s table) ∧ ∃ fault, s.checkRecommendation r = .error fault := by
  unfold checkRecommendation
  split
  · rename_i hunsupported
    refine .inr ⟨fun table hfits => ?_, .indexesUnsupported s.dialect, rfl⟩
    simp [hfits.supported] at hunsupported
  rename_i hsupported
  cases htable : s.catalog.table r.table with
  | error fault =>
    exact .inr ⟨fun _ hfits => (nomatch htable.symm.trans hfits.found), fault, rfl⟩
  | ok table =>
    dsimp only [bind, Except.bind]
    split
    · rename_i hcolumn
      refine .inr ⟨fun table' hfits => ?_, _, rfl⟩
      cases htable.symm.trans hfits.found
      exact hcolumn hfits.column
    rename_i hcolumn
    split
    · rename_i hname
      refine .inr ⟨fun table' hfits => ?_, _, rfl⟩
      cases htable.symm.trans hfits.found
      exact hname hfits.name
    · rename_i hname
      exact .inl ⟨table, ⟨by simpa using hsupported, htable, not_not.mp hcolumn,
        not_not.mp hname⟩, rfl⟩

/-- What is sent to create an index: a transaction that drops an earlier one first. -/
def replacing (index : VectorIndex) : List TableStatement :=
  [.dropIndex index.name, .createIndex index]

section Checked

variable {s r}

theorem checkRecommendation_of_fits {table : Table} (h : r.Fits s table) :
    s.checkRecommendation r = .ok ⟨table.indexName r.kind.accessMethod, table.name,
      table.embeddingColumn, r.metric, r.parameters⟩ := by
  rcases s.checkRecommendation_cases r with ⟨other, hfits, hcheck⟩ | ⟨hunfit, -⟩
  · cases h.found.symm.trans hfits.found
    exact hcheck
  · exact absurd h (hunfit table)

theorem applyIndex_refused {fault : SearchFault} (h : s.checkRecommendation r = .error fault) :
    s.applyIndex r = .done (.failed (fault : SearchError).report) := by
  unfold applyIndex createIndex
  rw [h]
  rfl

/-- The creation of an index that passes the checks is one transaction, and what it is answered
    is the outcome. -/
theorem applyIndex_eq {index : VectorIndex} (h : s.checkRecommendation r = .ok index) :
    s.applyIndex r = .act (.executeBatch (replacing index)) fun answer =>
      .done (.ofAnswer r.indexName answer) := by
  unfold applyIndex createIndex
  rw [h]
  change Program.act _ _ = Program.act _ _
  congr 1
  funext answer
  cases answer <;> rfl

end Checked

/-- A recommendation is refused, or one transaction is sent for it. -/
theorem applyIndex_runs {trace : List Exchange} {outcome : IndexOutcome}
    (h : (s.applyIndex r).Runs trace outcome) :
    (∃ fault : SearchFault, s.checkRecommendation r = .error fault ∧ trace = [] ∧
        outcome = .failed (fault : SearchError).report) ∨
      ∃ index answer, s.checkRecommendation r = .ok index ∧
        trace = [⟨.executeBatch (replacing index), answer⟩] := by
  cases hcheck : s.checkRecommendation r with
  | error fault =>
    rw [applyIndex_refused hcheck] at h
    cases h
    exact .inl ⟨fault, rfl, rfl, rfl⟩
  | ok index =>
    rw [applyIndex_eq hcheck] at h
    cases h with
    | @act _ _ answer rest _ hdone =>
      cases hdone
      exact .inr ⟨index, answer, rfl, rfl⟩

theorem toQuery_dropIndex (d : Dialect) (name : String) :
    (TableStatement.dropIndex name).toQuery d = ⟨VectorIndex.dropText name, []⟩ := by
  simp [TableStatement.toQuery, TableStatement.toFragment, Fragment.toQuery, Fragment.render,
    Fragment.params]

theorem toQuery_createIndex (d : Dialect) (index : VectorIndex) :
    (TableStatement.createIndex index).toQuery d = ⟨index.createText, []⟩ := by
  simp [TableStatement.toQuery, TableStatement.toFragment, Fragment.toQuery, Fragment.render,
    Fragment.params]

theorem indexedBy_replacing (table : Table) (metric : Metric) (kind : IndexKind)
    (parameters : IndexParameters) (d : Dialect) :
    table.IndexedBy metric kind.accessMethod parameters.kind.accessMethod
      ((replacing ⟨table.indexName kind.accessMethod, table.name, table.embeddingColumn, metric,
        parameters⟩).map (TableStatement.toQuery d)) := by
  refine ⟨parameters.clause, parameters.takesOptions, ?_⟩
  unfold replacing
  rw [List.map_cons, List.map_cons, List.map_nil, toQuery_dropIndex, toQuery_createIndex]
  rfl

/-- **An index is created from the catalog alone, and is what its name says if the stated kind
    is that of the parameters.**  On any machine, a recommendation that does not fit sends nothing
    and fails; for one that fits, one transaction is sent.  It drops the index of the name that
    tells the stated kind and creates one of this name on the catalog's table and column, with
    the access method and the options of the parameters, so the method is the one of the
    name exactly if the two kinds agree.  The texts, the number of rows and the settings that
    the recommendation carries are not looked at. -/
theorem applyIndex_sends :
    (∀ (σ : Type) (m : Machine σ),
      ((s.applyIndex r).trace m = [] ∧ (∀ table, ¬r.Fits s table) ∧
          ∃ reason, ((s.applyIndex r).run m).1 = .failed reason) ∨
        ∃ table batch answer, r.Fits s table ∧
          (s.applyIndex r).trace m = [⟨.executeBatch batch, answer⟩] ∧
          table.IndexedBy r.metric r.kind.accessMethod r.parameters.kind.accessMethod
            (batch.map (TableStatement.toQuery s.dialect)) ∧
          ((∃ method, table.IndexedBy r.metric method method
            (batch.map (TableStatement.toQuery s.dialect))) ↔ r.kind = r.parameters.kind)) ∧
      ∀ (rows : UInt64) (statements settings : List String),
        s.applyIndex { r with estimatedRows := rows, statements, querySettings := settings } =
          s.applyIndex r := by
  refine ⟨fun σ m => ?_, fun _ _ _ => rfl⟩
  rcases s.applyIndex_runs r (Program.runs_trace _ m) with
    ⟨fault, hrefused, htrace, houtcome⟩ | ⟨index, answer, hmade, htrace⟩ <;>
    rcases s.checkRecommendation_cases r with ⟨table, hfits, hcheck⟩ | ⟨hunfit, _, hcheck⟩
  · cases hcheck.symm.trans hrefused
  · exact .inl ⟨htrace, hunfit, _, houtcome⟩
  · cases hcheck.symm.trans hmade
    have hindexed := indexedBy_replacing table r.metric r.kind r.parameters s.dialect
    refine .inr ⟨table, _, answer, hfits, htrace, hindexed, ?_, ?_⟩
    · rintro ⟨method, hother⟩
      exact IndexKind.accessMethod_inj (hindexed.named_eq hother)
    · intro hkind
      rw [hkind] at hindexed ⊢
      exact ⟨_, hindexed⟩
  · cases hcheck.symm.trans hmade

/-- A recommendation of a graph whose parameters are those of lists. -/
def mismatched : IndexRecommendation :=
  ⟨"notes", "vec", .hnsw, "notes_vec_hnsw_idx", .cosine, .ivf 4 2, 0, [], []⟩

/-- **The name of an index can tell a graph where lists are created.** -/
theorem applyIndex_misnamed :
    ∃ batch answer,
      (notesService.applyIndex mismatched).trace notesMachine =
        [⟨.executeBatch batch, answer⟩] ∧
      (batch.map (TableStatement.toQuery .postgres)).map Query.sql =
        ["DROP INDEX IF EXISTS notes_vec_hnsw_idx",
          "CREATE INDEX notes_vec_hnsw_idx ON notes USING ivfflat (vec vector_cosine_ops) " ++
            "WITH (lists = 4)"] ∧
      ∀ metric method, ¬notes.IndexedBy metric method method
        (batch.map (TableStatement.toQuery .postgres)) := by
  have hmade : notesService.checkRecommendation mismatched =
      .ok ⟨notes.indexName "hnsw", "notes", "vec", .cosine, .ivf 4 2⟩ := by
    rfl
  have htrace : ∃ answer, (notesService.applyIndex mismatched).trace notesMachine =
      [⟨.executeBatch (replacing ⟨notes.indexName "hnsw", "notes", "vec", .cosine, .ivf 4 2⟩),
        answer⟩] := by
    rcases notesService.applyIndex_runs mismatched (Program.runs_trace _ notesMachine) with
      ⟨fault, hrefused, -, -⟩ | ⟨index, answer, hmade', htrace⟩
    · cases hmade.symm.trans hrefused
    · cases hmade.symm.trans hmade'
      exact ⟨answer, htrace⟩
  obtain ⟨answer, htrace⟩ := htrace
  refine ⟨_, answer, htrace, by decide, ?_⟩
  intro metric method hother
  have hindexed := indexedBy_replacing notes .cosine .hnsw (.ivf 4 2) .postgres
  exact absurd (hindexed.named_eq hother) (by decide)

end Service

end KnowledgeSearch
