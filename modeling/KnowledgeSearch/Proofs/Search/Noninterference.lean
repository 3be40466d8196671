/-
  KnowledgeSearch/Proofs/Search/Noninterference.lean
  ==================================================
  **Requests that differ in values send the same texts.**

  A property of two runs: take two requests that differ in their embeddings, in the text
  that is searched for, in limits, keys or the values of their filters, and let any two
  machines answer them.  A run can end early, since a request is refused or its result is
  found in the cache; if both reach the database, they send the same texts in the same
  order (`Service.texts_alike`).  So no text depends on a value.
-/
import KnowledgeSearch.Proofs.Search.Prepared
import KnowledgeSearch.Proofs.Search.Trace
import KnowledgeSearch.Proofs.Sql.Noninterference

namespace KnowledgeSearch

def TableStatement.text (d : Dialect) (statement : TableStatement) : String :=
  (statement.toQuery d).sql

/-- Two runs that send the same texts, if both send anything. -/
def SameTexts (d : Dialect) (sent sent' : List TableStatement) : Prop :=
  sent ≠ [] → sent' ≠ [] →
    sent.map (TableStatement.text d) = sent'.map (TableStatement.text d)

/-! ### Alike requests -/

/-- Whether there is an embedding to compare with. -/
def isGiven : Option Json → Bool
  | none | some .null => false
  | some _ => true

namespace Service

variable (s : Service)

/-- Two filters that a table takes as alike predicates, if it takes both. -/
def FiltersAlike (tableName : String) (filter filter' : Option Json) : Prop :=
  ∀ table, s.catalog.table tableName = .ok table → ∀ p q, readFilter table filter = .ok p →
    readFilter table filter' = .ok q → Option.Rel Predicate.Alike p q

/-- Two vector searches that differ in the embedding, the limit and the values of the filter
    at most. -/
structure VectorAlike (r r' : VectorSearchRequest) : Prop where
  table : r.table = r'.table
  filter : s.FiltersAlike r.table r.filter r'.filter

/-- Two hybrid searches that differ in the embedding, the text, the weights, the limit and
    the values of the filter at most, and search for a text or an embedding both or
    neither. -/
structure HybridAlike (r r' : HybridSearchRequest) : Prop where
  table : r.table = r'.table
  textFields : r.textFields = r'.textFields
  query : (Text.trim r.query).isEmpty = (Text.trim r'.query).isEmpty
  embedding : isGiven r.embedding = isGiven r'.embedding
  filter : s.FiltersAlike r.table r.filter r'.filter

end Service

/-! ### Alike statements -/

theorem Dialect.distance?_alike (d : Dialect) (metric : Metric) (column : String)
    (e e' : Embedding) :
    Option.Rel Fragment.Alike (d.distance? metric column (.bind (.vector e)))
      (d.distance? metric column (.bind (.vector e'))) := by
  have hbind : Fragment.Alike (.bind (.vector e)) (.bind (.vector e')) :=
    Fragment.Alike.bind rfl .nil
  cases d with
  | lite =>
    cases metric with
    | innerProduct => exact .none
    | _ => exact .some (hbind.between _ _)
  | postgres => cases metric <;> exact .some (hbind.between _ _)

theorem TableStatement.text_eq {d : Dialect} {a b : TableStatement}
    (h : Fragment.Alike (a.toFragment d) (b.toFragment d)) : a.text d = b.text d :=
  h.render_eq d 1

namespace Service

variable {s : Service}

theorem distance_alike {table : Table} {e e' : Embedding} {f f' : Fragment}
    (h : s.distance table e = .ok f) (h' : s.distance table e' = .ok f') : Fragment.Alike f f' := by
  have hdistance := s.dialect.distance?_alike s.config.index.metric table.embeddingColumn e e'
  unfold Service.distance at h h'
  dsimp only at h h'
  generalize s.dialect.distance? _ _ (.bind (.vector e)) = g at h hdistance
  generalize s.dialect.distance? _ _ (.bind (.vector e')) = g' at h' hdistance
  cases hdistance with
  | none => cases h
  | some hdistance =>
    cases h
    cases h'
    exact hdistance

theorem nearest_alike {r r' : VectorSearchRequest} (h : s.VectorAlike r r') {p p' : PreparedVector}
    (hp : s.prepareVector r = .ok p) (hp' : s.prepareVector r' = .ok p')
    {statement statement' : TableStatement} (hst : s.nearest p r.filter = .ok statement)
    (hst' : s.nearest p' r'.filter = .ok statement') :
    statement.text s.dialect = statement'.text s.dialect := by
  have htable := prepareVector_table hp
  have htable' := prepareVector_table hp'
  have hsame : p.table = p'.table := by
    rw [← h.table, htable] at htable'
    exact Except.ok.inj htable'
  obtain ⟨filter, distance, hfilter, hdistance, rfl⟩ := nearest_eq_ok hst
  obtain ⟨filter', distance', hfilter', hdistance', rfl⟩ := nearest_eq_ok hst'
  rw [← hsame] at hfilter' hdistance'
  exact TableStatement.text_eq (NearestRows.alike s.dialect hsame
    (distance_alike hdistance hdistance') (h.filter p.table htable filter filter' hfilter hfilter'))

theorem isSome_readOptionalEmbedding {table : Table} {value : Option Json}
    {embedding : Option Embedding} (h : readOptionalEmbedding table value = .ok embedding) :
    embedding.isSome = isGiven value := by
  unfold readOptionalEmbedding at h
  split at h
  · cases h
    rfl
  · cases h
    rfl
  · rename_i value hnull
    cases hread : readEmbedding table value with
    | error e =>
      rw [hread] at h
      cases h
    | ok e =>
      rw [hread] at h
      cases h
      cases value with
      | null => exact absurd rfl hnull
      | _ => rfl

theorem distances_alike {table : Table} {e e' : Option Embedding} {f f' : Option Fragment}
    (he : e.isSome = e'.isSome) (h : e.mapM (s.distance table) = .ok f)
    (h' : e'.mapM (s.distance table) = .ok f') : Option.Rel Fragment.Alike f f' := by
  cases e with
  | none =>
    cases e' with
    | none =>
      cases h
      cases h'
      exact .none
    | some e' => cases he
  | some e =>
    cases e' with
    | none => cases he
    | some e' =>
      obtain ⟨found, hfound, h⟩ := bind_eq_ok (ε := SearchFault) h
      obtain ⟨found', hfound', h'⟩ := bind_eq_ok (ε := SearchFault) h'
      cases h
      cases h'
      exact .some (distance_alike hfound hfound')

theorem candidates_alike {r r' : HybridSearchRequest} (h : s.HybridAlike r r')
    {p p' : PreparedHybrid}
    (hp : s.prepareHybrid r.table r.query r.embedding r.textFields r.filter = .ok p)
    (hp' : s.prepareHybrid r'.table r'.query r'.embedding r'.textFields r'.filter = .ok p')
    {statement statement' : TableStatement} (hst : s.candidates p = .ok statement)
    (hst' : s.candidates p' = .ok statement') :
    statement.text s.dialect = statement'.text s.dialect := by
  obtain ⟨htable, hquery, hembedding, hfields, -, hfilter⟩ := prepareHybrid_eq_ok hp
  obtain ⟨htable', hquery', hembedding', hfields', -, hfilter'⟩ := prepareHybrid_eq_ok hp'
  have hgiven := isSome_readOptionalEmbedding hembedding
  have hgiven' := isSome_readOptionalEmbedding hembedding'
  have hsame : p.table = p'.table := by
    rw [← h.table, htable] at htable'
    exact Except.ok.inj htable'
  have hsameFields : p.textFields = p'.textFields := by
    rw [← hsame, ← h.textFields, hfields] at hfields'
    exact Except.ok.inj hfields'
  obtain ⟨distance, hdistance, rfl⟩ := candidates_eq_ok hst
  obtain ⟨distance', hdistance', rfl⟩ := candidates_eq_ok hst'
  rw [← hsame] at hfilter' hdistance'
  apply TableStatement.text_eq
  apply CandidateRows.Alike.toFragment
  exact
    { table := hsame
      query := by rw [hquery, hquery', h.query]
      textFields := hsameFields
      config := rfl
      distance := distances_alike (by rw [hgiven, hgiven', h.embedding]) hdistance hdistance'
      filter := h.filter p.table htable p.filter p'.filter hfilter hfilter' }

/-- Items are written by one text, whatever their keys and embeddings are. -/
theorem storeItem_alike (d : Dialect) {table : Table} {item item' : EmbeddingItem}
    {statement statement' : TableStatement} (h : storeItem table item = .ok statement)
    (h' : storeItem table item' = .ok statement') : statement.text d = statement'.text d := by
  obtain ⟨key, embedding, rfl⟩ := storeItem_eq_ok h
  obtain ⟨key', embedding', rfl⟩ := storeItem_eq_ok h'
  have hkey : key.toParameter.castText = key'.toParameter.castText := by
    cases key <;> cases key' <;> rfl
  apply TableStatement.text_eq
  exact Fragment.Alike.text _ (Fragment.Alike.bind rfl (Fragment.Alike.text _
    (Fragment.Alike.bind hkey .nil)))

theorem storeItems_alike (d : Dialect) {table : Table} {items items' : List EmbeddingItem}
    (hlength : items.length = items'.length) {position position' : Nat}
    {statements statements' : List TableStatement}
    (h : storeItems table position items = .ok statements)
    (h' : storeItems table position' items' = .ok statements') :
    statements.map (TableStatement.text d) = statements'.map (TableStatement.text d) := by
  induction items generalizing items' position position' statements statements' with
  | nil =>
    cases items' with
    | nil =>
      cases h
      cases h'
      rfl
    | cons item' items' => cases hlength
  | cons item items ih =>
    cases items' with
    | nil => cases hlength
    | cons item' items' =>
      unfold storeItems at h h'
      cases hitem : storeItem table item with
      | error fault =>
        rw [hitem] at h
        cases h
      | ok statement =>
        rw [hitem] at h
        cases hitem' : storeItem table item' with
        | error fault =>
          rw [hitem'] at h'
          cases h'
        | ok statement' =>
          rw [hitem'] at h'
          obtain ⟨rest, hrest, h⟩ := bind_eq_ok h
          obtain ⟨rest', hrest', h'⟩ := bind_eq_ok h'
          cases h
          cases h'
          rw [List.map_cons, List.map_cons, storeItem_alike d hitem hitem',
            ih (Nat.succ.inj hlength) hrest hrest']

end Service

/-- **No value is part of a statement's text.**  Predicates that differ in their values only
    are compiled to one text, in either dialect.  Vector searches, hybrid searches and writes
    that differ in embeddings, in the text that is searched for, in limits, in keys and in
    the values of the filters that their tables let through send the same texts, whatever
    answers them. -/
theorem Service.texts_alike (s : Service) :
    (∀ d p q, Option.Rel Predicate.Alike p q →
      (Predicate.compile d p).sql = (Predicate.compile d q).sql) ∧
    (∀ r r', s.VectorAlike r r' → ∀ (σ σ' : Type) (m : Machine σ) (m' : Machine σ'),
      SameTexts s.dialect ((s.vectorSearch r).run.sent m) ((s.vectorSearch r').run.sent m')) ∧
    (∀ r r', s.HybridAlike r r' → ∀ (σ σ' : Type) (m : Machine σ) (m' : Machine σ'),
      SameTexts s.dialect ((s.hybridSearch r).run.sent m) ((s.hybridSearch r').run.sent m')) ∧
    ∀ tableName items items', items.length = items'.length →
      ∀ (σ σ' : Type) (m : Machine σ) (m' : Machine σ'),
        SameTexts s.dialect ((s.storeEmbeddings tableName items).run.sent m)
          ((s.storeEmbeddings tableName items').run.sent m') := by
  refine ⟨fun d p q => Predicate.compile_alike d, ?_, ?_, ?_⟩
  · intro r r' halike σ σ' m m' hsent hsent'
    have hstatement (r : VectorSearchRequest) := s.vectorSearch_sends r
      (P := fun sent => ∃ p, s.prepareVector r = .ok p ∧
        ∃ statement, s.nearest p r.filter = .ok statement ∧ sent = [statement])
      fun p hp statement hst => ⟨p, hp, statement, hst, rfl⟩
    obtain ⟨p, hp, statement, hst, hone⟩ := (hstatement r σ m).resolve_left hsent
    obtain ⟨p', hp', statement', hst', hone'⟩ := (hstatement r' σ' m').resolve_left hsent'
    rw [hone, hone', List.map_singleton, List.map_singleton, nearest_alike halike hp hp' hst hst']
  · intro r r' halike σ σ' m m' hsent hsent'
    have hstatement (r : HybridSearchRequest) := s.hybridSearch_sends r
      (P := fun sent => ∃ p,
        s.prepareHybrid r.table r.query r.embedding r.textFields r.filter = .ok p ∧
          ∃ statement, s.candidates p = .ok statement ∧ sent = [statement])
      fun p hp statement hst => ⟨p, hp, statement, hst, rfl⟩
    obtain ⟨p, hp, statement, hst, hone⟩ := (hstatement r σ m).resolve_left hsent
    obtain ⟨p', hp', statement', hst', hone'⟩ := (hstatement r' σ' m').resolve_left hsent'
    rw [hone, hone', List.map_singleton, List.map_singleton,
      candidates_alike halike hp hp' hst hst']
  · intro tableName items items' hlength σ σ' m m' hsent hsent'
    have hstatements (items : List EmbeddingItem) := s.storeEmbeddings_sends tableName items
      (P := fun sent => ∃ table, s.catalog.table tableName = .ok table ∧
        storeItems table 0 items = .ok sent)
      fun table htable statements hst => ⟨table, htable, hst⟩
    obtain ⟨table, htable, hst⟩ := (hstatements items σ m).resolve_left hsent
    obtain ⟨table', htable', hst'⟩ := (hstatements items' σ' m').resolve_left hsent'
    rw [htable] at htable'
    cases htable'
    exact storeItems_alike s.dialect hlength hst hst'

/-- A table of notes of which filters may use the title. -/
def notes : Table := ⟨"notes", "id", ["id", "title"], "vec", 1, ["title"], [("title", .text)]⟩

/-- A service that searches notes. -/
def notesService : Service :=
  { config :=
      { logLevel := "info"
        storage := ⟨.postgres, "postgres://localhost/notes", 1, 1000, none, none⟩
        search := ⟨10, 100, ⟨.one, .one, "simple", 10, []⟩, .default⟩
        index := .default
        tables := [notes] }
    dialect := .postgres }

/-- Two searches for notes, one of them for a title that would mean something if it were
    part of a text. -/
theorem Service.texts_alike_notes :
    ∃ (r r' : VectorSearchRequest) (m : Machine Unit),
      r.filter = some (.object [("title", .string "sea")]) ∧
      r'.filter = some (.object [("title", .string "' OR 1 = 1 --")]) ∧
      notesService.VectorAlike r r' ∧
      (notesService.vectorSearch r).run.sent m ≠ [] ∧
      (notesService.vectorSearch r').run.sent m ≠ [] ∧
      ((notesService.vectorSearch r).run.sent m).map (TableStatement.text .postgres) =
        ((notesService.vectorSearch r').run.sent m).map (TableStatement.text .postgres) := by
  let request (value : Nat) (title : String) (limit : Int64) : VectorSearchRequest :=
    ⟨"notes", .array [.ofNat value], some (.object [("title", .string title)]), some limit⟩
  let m : Machine Unit :=
    ⟨⟨fun _ _ d => (.error (.config ""), d), fun _ d => (.ok 0, d)⟩, (), ⟨none, ⟨.one, .zero⟩⟩,
      fun _ => 0, 0⟩
  have htable : notesService.catalog.table "notes" = .ok notes := rfl
  let title : FieldPath := ⟨"title", [], by decide +kernel⟩
  have hread : Service.readFilter notes (request 1 "sea" 1).filter =
      .ok (some (.leaf ⟨title, .compare .eq (.text "sea")⟩)) := by rfl
  have hread' : Service.readFilter notes (request 2 "' OR 1 = 1 --" 5).filter =
      .ok (some (.leaf ⟨title, .compare .eq (.text "' OR 1 = 1 --")⟩)) := by rfl
  have halike : notesService.VectorAlike (request 1 "sea" 1) (request 2 "' OR 1 = 1 --" 5) := by
    refine ⟨rfl, ?_⟩
    intro table htable' p q hp hq
    rw [← Except.ok.inj (htable.symm.trans htable')] at hp hq
    rw [hread] at hp
    rw [hread'] at hq
    cases hp
    cases hq
    exact .some (.leaf ⟨rfl, .compare .eq ⟨rfl, rfl⟩⟩)
  have hsent : (notesService.vectorSearch (request 1 "sea" 1)).run.sent m ≠ [] := by
    apply List.isEmpty_eq_false_iff.mp
    decide +kernel
  have hsent' : (notesService.vectorSearch (request 2 "' OR 1 = 1 --" 5)).run.sent m ≠ [] := by
    apply List.isEmpty_eq_false_iff.mp
    decide +kernel
  exact ⟨request 1 "sea" 1, request 2 "' OR 1 = 1 --" 5, m, rfl, rfl, halike, hsent, hsent',
    (Service.texts_alike notesService).2.1 _ _ halike _ _ m m hsent hsent'⟩

end KnowledgeSearch
