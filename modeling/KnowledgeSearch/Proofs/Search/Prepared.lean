/-
  KnowledgeSearch/Proofs/Search/Prepared.lean
  ===========================================
  **What a request that is in order was made of.**

  Searches and writes check their requests before they reach the database.  A check that
  succeeds is taken apart here once, so that whatever is proved of an operation rests on
  what the check has found and not on how it goes about it.
-/
import KnowledgeSearch.Proofs.Config.Names
import KnowledgeSearch.Proofs.Keyed
import KnowledgeSearch.Proofs.Steps
import KnowledgeSearch.Search.Hybrid
import KnowledgeSearch.Search.Vector

namespace KnowledgeSearch

/-! ### Tables -/

/-- A table that is found is one of the tables, of the name that was asked for. -/
theorem Catalog.table_eq_ok {tables : List Table} {name : String} {table : Table}
    (h : (Catalog.ofTables tables).table name = .ok table) :
    table ∈ tables ∧ table.name = name := by
  unfold Catalog.table at h
  split at h
  · rename_i found hfound
    cases h
    obtain ⟨table, htable, hentry⟩ :=
      List.mem_map.mp (Keyed.mem_ofList (Keyed.mem_of_get? hfound))
    cases hentry
    exact ⟨htable, rfl⟩
  · cases h

namespace Service

variable {s : Service}

/-- A table that is found is found by its own name. -/
theorem table_own_name {name : String} {table : Table} (h : s.catalog.table name = .ok table) :
    s.catalog.table table.name = .ok table := by
  rw [(Catalog.table_eq_ok h).2]
  exact h

/-! ### Vector searches -/

theorem prepareVector_table {r : VectorSearchRequest} {p : PreparedVector}
    (hp : s.prepareVector r = .ok p) : s.catalog.table r.table = .ok p.table := by
  unfold prepareVector at hp
  obtain ⟨table, htable, hp⟩ := bind_eq_ok hp
  obtain ⟨_, -, hp⟩ := bind_eq_ok hp
  obtain ⟨_, -, hp⟩ := bind_eq_ok hp
  cases hp
  exact htable

/-! ### Hybrid searches -/

/-- What a hybrid search was made of, which searches for a text or an embedding. -/
structure PreparedHybrid.MadeFrom (p : PreparedHybrid) (s : Service) (tableName query : String)
    (embedding : Option Json) (textFields : Option (List String)) (filter : Option Json) :
    Prop where
  table : s.catalog.table tableName = .ok p.table
  query : p.query = Text.trim query
  embedding : readOptionalEmbedding p.table embedding = .ok p.embedding
  textFields : chooseTextFields p.table textFields = .ok p.textFields
  searches : p.embedding.isSome = true ∨ (p.query.isEmpty || p.textFields.isEmpty) = false
  filter : readFilter p.table filter = .ok p.filter

theorem prepareHybrid_eq_ok {tableName query : String} {embedding : Option Json}
    {textFields : Option (List String)} {filter : Option Json} {p : PreparedHybrid}
    (hp : s.prepareHybrid tableName query embedding textFields filter = .ok p) :
    p.MadeFrom s tableName query embedding textFields filter := by
  unfold prepareHybrid at hp
  obtain ⟨table, htable, hp⟩ := bind_eq_ok hp
  obtain ⟨found, hembedding, hp⟩ := bind_eq_ok hp
  obtain ⟨fields, hfields, hp⟩ := bind_eq_ok hp
  split at hp
  · cases hp
  · rename_i hsearch
    obtain ⟨predicate, hfilter, hp⟩ := bind_eq_ok hp
    cases hp
    refine ⟨htable, rfl, hembedding, hfields, ?_, hfilter⟩
    cases found with
    | some e => exact Or.inl rfl
    | none => exact Or.inr (by simpa using hsearch)

theorem chooseTextFields_subset {table : Table} {wanted : Option (List String)}
    {fields : List String} (h : chooseTextFields table wanted = .ok fields) :
    ∀ field ∈ fields, field ∈ table.textFields := by
  cases wanted with
  | none =>
    injection h with h
    subst h
    exact fun _ hfield => hfield
  | some wanted =>
    unfold chooseTextFields at h
    dsimp only at h
    split at h
    · cases h
    · rename_i hfind
      injection h with h
      subst h
      intro field hfield
      have := List.find?_eq_none.mp hfind field hfield
      simpa using this

/-! ### Statements of searches -/

theorem nearest_eq_ok {p : PreparedVector} {filter : Option Json} {statement : TableStatement}
    (h : s.nearest p filter = .ok statement) :
    ∃ predicate distance, readFilter p.table filter = .ok predicate ∧
      s.distance p.table p.embedding = .ok distance ∧
      statement = .nearest
        { table := p.table, distance, filter := predicate, limit := p.limit } := by
  unfold nearest at h
  obtain ⟨predicate, hfilter, h⟩ := bind_eq_ok h
  obtain ⟨distance, hdistance, h⟩ := bind_eq_ok h
  cases h
  exact ⟨predicate, distance, hfilter, hdistance, rfl⟩

theorem candidates_eq_ok {p : PreparedHybrid} {statement : TableStatement}
    (h : s.candidates p = .ok statement) :
    ∃ distance, p.embedding.mapM (s.distance p.table) = .ok distance ∧
      statement = .candidates
        { table := p.table
          query := p.query
          textFields := p.textFields
          textSearchConfig := s.config.search.hybrid.textSearchConfig
          distance
          filter := p.filter
          cap := s.config.search.maxCandidates } := by
  unfold candidates at h
  obtain ⟨distance, hdistance, h⟩ := bind_eq_ok h
  cases h
  exact ⟨distance, hdistance, rfl⟩

/-! ### Items -/

theorem storeItem_eq_ok {table : Table} {item : EmbeddingItem} {statement : TableStatement}
    (h : storeItem table item = .ok statement) :
    ∃ key embedding, statement = .storeEmbedding table key embedding := by
  unfold storeItem at h
  obtain ⟨embedding, -, h⟩ := bind_eq_ok h
  split at h
  · cases h
    exact ⟨_, embedding, rfl⟩
  · cases h

/-- Every statement that items come to writes an embedding into the table. -/
theorem storeItems_eq_ok {table : Table} {position : Nat} {items : List EmbeddingItem}
    {statements : List TableStatement} (h : storeItems table position items = .ok statements) :
    ∀ statement ∈ statements, ∃ key embedding,
      statement = .storeEmbedding table key embedding := by
  induction items generalizing position statements with
  | nil =>
    cases h
    intro statement hmem
    cases hmem
  | cons item items ih =>
    unfold storeItems at h
    cases hitem : storeItem table item with
    | error fault =>
      rw [hitem] at h
      cases h
    | ok first =>
      rw [hitem] at h
      obtain ⟨rest, hrest, h⟩ := bind_eq_ok h
      cases h
      intro statement hmem
      rcases List.mem_cons.mp hmem with rfl | hmem
      · exact storeItem_eq_ok hitem
      · exact ih hrest statement hmem

end Service

end KnowledgeSearch
