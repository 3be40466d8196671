/-
  KnowledgeSearch/Proofs/Search/Defect.lean
  =========================================
  **What can be wrong with a request.**

  Defects are said of a request and the configuration, without the checks that look for them:
  a table that is not configured, a limit out of range, a value that is no embedding of the
  table's dimension, and so on.  The checks find exactly these, in an order of their own: a
  request with a defect is turned down, and one without is prepared
  (`Service.prepareVector_of_valid`, `Service.prepareHybrid_of_valid`,
  `Service.storeItems_of_valid`).

  A filter that is null is rejected like any other that is no filter, but a vector search may
  take it for a missing one, so there it does not count as a defect.  Callers that read requests
  from JSON cannot give it.
-/
import KnowledgeSearch.Proofs.Search.Prepared
import KnowledgeSearch.Proofs.Search.Validation
import KnowledgeSearch.Proofs.Search.Weights

namespace KnowledgeSearch

/-! ### Defects -/

inductive LimitDefect (max : UInt32) : Option Int64 → Prop where
  | missing : LimitDefect max none
  | notPositive {n : Int64} (h : n.toInt ≤ 0) : LimitDefect max (some n)
  | tooLarge {n : Int64} (h : (max.toNat : Int) < n.toInt) : LimitDefect max (some n)

/-- A value that is malformed as an embedding, not finite, or of another dimension. -/
def EmbeddingDefect (table : Table) (value : Json) : Prop :=
  ∀ embedding, Embedding.ofJson value = .ok embedding → embedding.dim ≠ table.embeddingDim.toNat

/-- A weight that is given and is not finite or negative. -/
def WeightDefect (weight : Option Single) : Prop :=
  ∃ x, weight = some x ∧ (x.isFinite = false ∨ x.lt .zero = true)

/-- A filter that is given and rejected. -/
def FilterDefect (filter : Option Json) : Prop :=
  ∃ given e, filter = some given ∧ Predicate.ofJson given = .error e

namespace Service

variable (s : Service)

def UnknownTable (name : String) : Prop := ∀ table ∈ s.config.tables, table.name ≠ name

inductive VectorDefect (r : VectorSearchRequest) : Prop where
  | table (h : s.UnknownTable r.table)
  | limit (h : LimitDefect s.config.search.maxLimit r.limit)
  | embedding {table : Table} (found : s.catalog.table r.table = .ok table)
      (h : EmbeddingDefect table r.embedding)
  | filter (notNull : r.filter ≠ some .null) (h : FilterDefect r.filter)

/-- What can be wrong with what a hybrid search looks for. -/
inductive SubjectDefect (tableName query : String) (embedding : Option Json)
    (textFields : Option (List String)) (filter : Option Json) : Prop where
  | table (h : s.UnknownTable tableName)
  | embedding {table : Table} {value : Json} (found : s.catalog.table tableName = .ok table)
      (given : embedding = some value) (notNull : value ≠ .null) (h : EmbeddingDefect table value)
  | textField {table : Table} {fields : List String} {field : String}
      (found : s.catalog.table tableName = .ok table) (given : textFields = some fields)
      (mem : field ∈ fields) (h : field ∉ table.textFields)
  | nothing {table : Table} (found : s.catalog.table tableName = .ok table)
      (given : embedding = none ∨ embedding = some .null)
      (h : Text.trim query = "" ∨ textFields.getD table.textFields = [])
  | filter (h : FilterDefect filter)

inductive HybridDefect (r : HybridSearchRequest) : Prop where
  | limit (h : LimitDefect s.config.search.maxLimit r.limit)
  | textWeight (h : WeightDefect r.textWeight)
  | vectorWeight (h : WeightDefect r.vectorWeight)
  | subject (h : s.SubjectDefect r.table r.query r.embedding r.textFields r.filter)

inductive StoreDefect (tableName : String) (items : List EmbeddingItem) : Prop where
  | table (h : s.UnknownTable tableName)
  | embedding {table : Table} {item : EmbeddingItem}
      (found : s.catalog.table tableName = .ok table) (mem : item ∈ items)
      (h : EmbeddingDefect table item.embedding)
  | key {item : EmbeddingItem} (mem : item ∈ items) (h : RowKey.ofJson? item.key = none)

end Service

/-! ### Single checks -/

theorem checkLimit_ok_iff {s : Service} {limit : Option Int64} :
    (∃ n, s.checkLimit limit = .ok n) ↔ ¬LimitDefect s.config.search.maxLimit limit := by
  cases limit with
  | none =>
    refine ⟨fun ⟨_, h⟩ => ?_, fun h => absurd .missing h⟩
    cases h
  | some n =>
    unfold Service.checkLimit
    dsimp only
    split
    · rename_i hpositive
      refine ⟨fun ⟨_, h⟩ => ?_, fun h => absurd (.notPositive hpositive) h⟩
      cases h
    split
    · rename_i hmax
      refine ⟨fun ⟨_, h⟩ => ?_, fun h => absurd (.tooLarge hmax) h⟩
      cases h
    · rename_i hpositive hmax
      refine ⟨fun _ hdefect => ?_, fun _ => ⟨_, rfl⟩⟩
      cases hdefect with
      | notPositive h => exact hpositive h
      | tooLarge h => exact hmax h

theorem readEmbedding_ok_iff {table : Table} {value : Json} :
    (∃ e, Service.readEmbedding table value = .ok e) ↔ ¬EmbeddingDefect table value := by
  unfold Service.readEmbedding EmbeddingDefect Embedding.ensureDim
  cases hread : Embedding.ofJson value with
  | error e => simp [Except.bind]
  | ok e => by_cases hdim : e.dim = table.embeddingDim.toNat <;> simp [Except.bind, hdim]

theorem readFilter_ok_iff {table : Table} {filter : Option Json} :
    (∃ p, Service.readFilter table filter = .ok p) ↔ ¬FilterDefect filter := by
  cases filter with
  | none =>
    refine ⟨fun _ ⟨_, _, h, _⟩ => ?_, fun _ => ⟨none, rfl⟩⟩
    cases h
  | some given =>
    cases hread : Predicate.ofJson given with
    | error e =>
      have hrejected : Service.readFilter table (some given) = .error (.filter e) :=
        Service.readFilter_rejects hread
      have hdefect : FilterDefect (some given) := ⟨given, e, rfl, hread⟩
      simp [hrejected, hdefect]
    | ok p =>
      have haccepted : ¬FilterDefect (some given) := by
        rintro ⟨_, e, ⟨⟩, h⟩
        rw [hread] at h
        cases h
      simp [Service.readFilter, Predicate.ofFilter, hread, haccepted]

theorem not_weightDefect_iff {x : Single} :
    ¬WeightDefect (some x) ↔ HybridWeights.IsWeight x := by
  constructor
  · intro h
    exact ⟨by_contra fun hx => h ⟨x, rfl, .inl (Bool.eq_false_iff.mpr hx)⟩,
      Bool.eq_false_iff.mpr fun hx => h ⟨x, rfl, .inr hx⟩⟩
  · rintro ⟨hfinite, hnonneg⟩ ⟨_, ⟨⟩, h | h⟩
    · simp [hfinite] at h
    · simp [hnonneg] at h

theorem normalized_rejects {text vector : Single}
    (h : WeightDefect (some text) ∨ WeightDefect (some vector)) :
    ∃ fault, HybridWeights.normalized text vector = .error fault := by
  rw [HybridWeights.normalized_error_iff, ← not_weightDefect_iff, ← not_weightDefect_iff]
  tauto

theorem normalized_of_valid {text vector : Single} (htext : ¬WeightDefect (some text))
    (hvector : ¬WeightDefect (some vector)) :
    ∃ weights, HybridWeights.normalized text vector = .ok weights :=
  ⟨_, HybridWeights.normalized_eq (not_weightDefect_iff.mp htext) (not_weightDefect_iff.mp hvector)⟩

namespace Service

variable {s : Service}

theorem found_iff {name : String} :
    (∃ table, s.catalog.table name = .ok table) ↔ ¬s.UnknownTable name := by
  constructor
  · rintro ⟨table, htable⟩ hunknown
    obtain ⟨hmem, hname⟩ := Catalog.table_eq_ok htable
    exact hunknown table hmem hname
  · intro hknown
    simp only [UnknownTable, not_forall, not_not] at hknown
    obtain ⟨table, hmem, rfl⟩ := hknown
    have hentry : (table.name, table) ∈ s.config.tables.map fun table => (table.name, table) :=
      List.mem_map_of_mem hmem
    obtain ⟨found, hfound⟩ := Keyed.get?_ofList_of_mem hentry
    exact ⟨found, by simp only [catalog, Catalog.table, Catalog.ofTables, hfound]⟩

theorem combineWeights_rejects {r : HybridSearchRequest}
    (h : WeightDefect r.textWeight ∨ WeightDefect r.vectorWeight) (defaults : HybridWeights) :
    ∃ fault, combineWeights defaults r.textWeight r.vectorWeight = .error fault := by
  unfold combineWeights
  split
  · rename_i htext hvector
    rw [htext, hvector] at h
    obtain ⟨_, h, -⟩ | ⟨_, h, -⟩ := h <;> cases h
  · apply normalized_rejects
    rcases h with h | h
    · obtain ⟨x, hx, -⟩ := id h
      rw [hx] at h ⊢
      exact .inl h
    · obtain ⟨x, hx, -⟩ := id h
      rw [hx] at h ⊢
      exact .inr h

/-- Weights that could be given are combined with default weights that could be. -/
theorem combineWeights_of_valid {text vector : Option Single} {defaults : HybridWeights}
    (htext : ¬WeightDefect text) (hvector : ¬WeightDefect vector)
    (hdefaultText : ¬WeightDefect (some defaults.text))
    (hdefaultVector : ¬WeightDefect (some defaults.vector)) :
    ∃ weights, combineWeights defaults text vector = .ok weights := by
  have hgiven {given : Option Single} {default : Single} (hgiven : ¬WeightDefect given)
      (hdefault : ¬WeightDefect (some default)) : ¬WeightDefect (some (given.getD default)) := by
    cases given with
    | none => exact hdefault
    | some x => exact hgiven
  unfold combineWeights
  split
  · exact ⟨defaults, rfl⟩
  · exact normalized_of_valid (hgiven htext hdefaultText) (hgiven hvector hdefaultVector)

/-! ### Requests -/

theorem prepareVector_eq_ok {r : VectorSearchRequest} {p : PreparedVector}
    (h : s.prepareVector r = .ok p) : s.catalog.table r.table = .ok p.table ∧
      s.checkLimit r.limit = .ok p.limit ∧ readEmbedding p.table r.embedding = .ok p.embedding := by
  unfold prepareVector at h
  obtain ⟨table, htable, h⟩ := bind_eq_ok h
  obtain ⟨limit, hlimit, h⟩ := bind_eq_ok h
  obtain ⟨embedding, hembedding, h⟩ := bind_eq_ok h
  cases h
  exact ⟨htable, hlimit, hembedding⟩

/-- A vector search with a defect is turned down, though for its filter only when the filter is
    read. -/
theorem VectorDefect.rejects {r : VectorSearchRequest} (h : s.VectorDefect r) {p : PreparedVector}
    (hp : s.prepareVector r = .ok p) : r.filter ≠ some .null ∧ FilterDefect r.filter := by
  obtain ⟨htable, hlimit, hembedding⟩ := prepareVector_eq_ok hp
  cases h with
  | table h => exact absurd h (found_iff.mp ⟨_, htable⟩)
  | limit h => exact absurd h (checkLimit_ok_iff.mp ⟨_, hlimit⟩)
  | embedding found h =>
    cases found.symm.trans htable
    exact absurd h (readEmbedding_ok_iff.mp ⟨_, hembedding⟩)
  | filter notNull h => exact ⟨notNull, h⟩

theorem prepareVector_of_valid {r : VectorSearchRequest} (h : ¬s.VectorDefect r) :
    ∃ p, s.prepareVector r = .ok p := by
  obtain ⟨table, htable⟩ := found_iff.mpr fun hdefect => h (.table hdefect)
  obtain ⟨limit, hlimit⟩ := checkLimit_ok_iff.mpr fun hdefect => h (.limit hdefect)
  obtain ⟨embedding, hembedding⟩ :=
    readEmbedding_ok_iff.mpr fun hdefect => h (.embedding htable hdefect)
  refine ⟨⟨table, limit, embedding⟩, ?_⟩
  unfold prepareVector
  rw [htable, hlimit]
  simp only [hembedding, bind, Except.bind]
  rfl

theorem readOptionalEmbedding_some {table : Table} {value : Json} (h : value ≠ .null) :
    readOptionalEmbedding table (some value) = (readEmbedding table value).map some := by
  cases value with
  | null => exact absurd rfl h
  | _ => rfl

theorem readOptionalEmbedding_of_valid {table : Table} {embedding : Option Json}
    (h : ∀ value, embedding = some value → value ≠ .null → ¬EmbeddingDefect table value) :
    ∃ read, readOptionalEmbedding table embedding = .ok read ∧
      (read = none → embedding = none ∨ embedding = some .null) := by
  cases embedding with
  | none => exact ⟨none, rfl, fun _ => .inl rfl⟩
  | some value =>
    by_cases hnull : value = .null
    · subst hnull
      exact ⟨none, rfl, fun _ => .inr rfl⟩
    · obtain ⟨read, hread⟩ := readEmbedding_ok_iff.mpr (h value rfl hnull)
      refine ⟨some read, ?_, nofun⟩
      rw [readOptionalEmbedding_some hnull, hread]
      rfl

theorem chooseTextFields_eq_ok {table : Table} {wanted : Option (List String)}
    {fields : List String} (h : chooseTextFields table wanted = .ok fields) :
    fields = wanted.getD table.textFields := by
  unfold chooseTextFields at h
  split at h
  · cases h
    rfl
  · split at h
    · cases h
    · cases h
      rfl

theorem chooseTextFields_of_valid {table : Table} {wanted : Option (List String)}
    (h : ∀ fields, wanted = some fields → ∀ field ∈ fields, field ∈ table.textFields) :
    chooseTextFields table wanted = .ok (wanted.getD table.textFields) := by
  cases wanted with
  | none => rfl
  | some fields =>
    have hlisted : fields.find? (fun field => !table.textFields.contains field) = none := by
      rw [List.find?_eq_none]
      intro field hfield
      simpa using h fields rfl field hfield
    simp only [chooseTextFields, hlisted, Option.getD_some]

section Subject

variable {tableName query : String} {embedding : Option Json} {textFields : Option (List String)}
  {filter : Option Json}

theorem SubjectDefect.rejects (h : s.SubjectDefect tableName query embedding textFields filter)
    (p : PreparedHybrid) : s.prepareHybrid tableName query embedding textFields filter ≠ .ok p := by
  intro hp
  have hmade := prepareHybrid_eq_ok hp
  have hfields := chooseTextFields_eq_ok hmade.textFields
  cases h with
  | table h => exact found_iff.mp ⟨_, hmade.table⟩ h
  | @embedding table value found given notNull h =>
    cases found.symm.trans hmade.table
    have hread := hmade.embedding
    rw [given, readOptionalEmbedding_some notNull] at hread
    cases hvalue : readEmbedding p.table value with
    | error fault =>
      rw [hvalue] at hread
      cases hread
    | ok e => exact readEmbedding_ok_iff.mp ⟨e, hvalue⟩ h
  | @textField table fields field found given mem h =>
    cases found.symm.trans hmade.table
    have hlisted := chooseTextFields_subset hmade.textFields field
    rw [hfields, given] at hlisted
    exact h (hlisted mem)
  | nothing found given h =>
    cases found.symm.trans hmade.table
    have hnone : p.embedding = none := by
      have hread := hmade.embedding
      rcases given with given | given <;>
        · rw [given] at hread
          exact (Except.ok.inj hread).symm
    rcases hmade.searches with hsearches | hsearches
    · simp [hnone] at hsearches
    · rw [hmade.query, hfields] at hsearches
      rcases h with h | h <;> simp [h] at hsearches
  | filter h =>
    obtain ⟨given, e, rfl, hrejected⟩ := h
    have hread := hmade.filter
    rw [readFilter_rejects hrejected] at hread
    cases hread

theorem prepareHybrid_of_valid
    (h : ¬s.SubjectDefect tableName query embedding textFields filter) :
    ∃ p, s.prepareHybrid tableName query embedding textFields filter = .ok p := by
  obtain ⟨table, htable⟩ := found_iff.mpr fun hdefect => h (.table hdefect)
  have hembedding (value : Json) (given : embedding = some value) (notNull : value ≠ .null) :
      ¬EmbeddingDefect table value :=
    fun hdefect => h (.embedding htable given notNull hdefect)
  obtain ⟨read, hread, hnone⟩ := readOptionalEmbedding_of_valid hembedding
  have hlisted (fields : List String) (given : textFields = some fields) :
      ∀ field ∈ fields, field ∈ table.textFields := by
    intro field hmem
    by_contra hunlisted
    exact h (.textField htable given hmem hunlisted)
  have hfields := chooseTextFields_of_valid hlisted
  have haccepted : ∃ predicate, readFilter table filter = .ok predicate :=
    readFilter_ok_iff.mpr fun hdefect => h (.filter hdefect)
  obtain ⟨predicate, hfilter⟩ := haccepted
  have hsearches : (read.isNone && ((Text.trim query).isEmpty ||
      (textFields.getD table.textFields).isEmpty)) = false := by
    cases read with
    | some e => rfl
    | none =>
      by_contra hnothing
      apply h
      refine .nothing htable (hnone rfl) ?_
      simpa [or_iff_not_imp_left] using hnothing
  refine ⟨⟨table, Text.trim query, read, textFields.getD table.textFields, predicate⟩, ?_⟩
  unfold prepareHybrid
  rw [htable]
  simp only [hread, hfields, bind, Except.bind, hsearches, hfilter]
  rfl

end Subject

/-! ### Items -/

/-- A statement that writes the embedding of an item under the item's key. -/
def Writes (table : Table) (item : EmbeddingItem) (statement : TableStatement) : Prop :=
  ∃ key embedding, RowKey.ofJson? item.key = some key ∧
    Embedding.ofJson item.embedding = .ok embedding ∧
    embedding.dim = table.embeddingDim.toNat ∧ statement = .storeEmbedding table key embedding

theorem readEmbedding_eq_ok {table : Table} {value : Json} {embedding : Embedding}
    (h : readEmbedding table value = .ok embedding) :
    Embedding.ofJson value = .ok embedding ∧ embedding.dim = table.embeddingDim.toNat := by
  unfold readEmbedding Embedding.ensureDim at h
  cases hread : Embedding.ofJson value with
  | error e =>
    rw [hread] at h
    cases h
  | ok e =>
    rw [hread] at h
    by_cases hdim : e.dim = table.embeddingDim.toNat
    · simp only [Except.bind, hdim, if_true] at h
      cases h
      exact ⟨rfl, hdim⟩
    · simp [Except.bind, hdim] at h

theorem storeItem_writes {table : Table} {item : EmbeddingItem} {statement : TableStatement}
    (h : storeItem table item = .ok statement) : Writes table item statement := by
  unfold storeItem at h
  obtain ⟨embedding, hembedding, h⟩ := bind_eq_ok h
  obtain ⟨hread, hdim⟩ := readEmbedding_eq_ok hembedding
  split at h
  · rename_i key hkey
    cases h
    exact ⟨key, embedding, hkey, hread, hdim, rfl⟩
  · cases h

theorem storeItem_of_valid {table : Table} {item : EmbeddingItem}
    (hembedding : ¬EmbeddingDefect table item.embedding) (hkey : RowKey.ofJson? item.key ≠ none) :
    ∃ statement, storeItem table item = .ok statement := by
  obtain ⟨embedding, hembedding⟩ := readEmbedding_ok_iff.mpr hembedding
  obtain ⟨key, hkey⟩ := Option.ne_none_iff_exists'.mp hkey
  unfold storeItem
  rw [hembedding]
  simp only [bind, Except.bind, hkey]
  exact ⟨_, rfl⟩

/-- Items come to one statement each, in their order. -/
theorem storeItems_forall₂ {table : Table} {position : Nat} {items : List EmbeddingItem}
    {statements : List TableStatement} (h : storeItems table position items = .ok statements) :
    List.Forall₂ (Writes table) items statements := by
  induction items generalizing position statements with
  | nil =>
    cases h
    exact .nil
  | cons item items ih =>
    unfold storeItems at h
    cases hitem : storeItem table item with
    | error fault =>
      rw [hitem] at h
      cases h
    | ok statement =>
      rw [hitem] at h
      obtain ⟨rest, hrest, h⟩ := bind_eq_ok h
      cases h
      exact .cons (storeItem_writes hitem) (ih hrest)

theorem storeItems_of_valid {tableName : String} {table : Table} {items : List EmbeddingItem}
    (h : ¬s.StoreDefect tableName items) (htable : s.catalog.table tableName = .ok table)
    (position : Nat) : ∃ statements, storeItems table position items = .ok statements := by
  have hitems : ∀ item ∈ items, ∃ statement, storeItem table item = .ok statement := by
    intro item hmem
    exact storeItem_of_valid (fun hdefect => h (.embedding htable hmem hdefect))
      fun hdefect => h (.key hmem hdefect)
  clear h
  induction items generalizing position with
  | nil => exact ⟨[], rfl⟩
  | cons item items ih =>
    obtain ⟨statement, hstatement⟩ := hitems item List.mem_cons_self
    obtain ⟨statements, hstatements⟩ :=
      ih (position + 1) fun other hmem => hitems other (List.mem_cons_of_mem _ hmem)
    refine ⟨statement :: statements, ?_⟩
    simp only [storeItems, hstatement, hstatements]
    rfl

theorem StoreDefect.rejects {tableName : String} {items : List EmbeddingItem}
    (h : s.StoreDefect tableName items) {table : Table}
    (htable : s.catalog.table tableName = .ok table) (position : Nat)
    (statements : List TableStatement) : storeItems table position items ≠ .ok statements := by
  intro hitems
  have hwrites {item : EmbeddingItem} (hmem : item ∈ items) :
      ∃ statement, Writes table item statement := by
    obtain ⟨n, rfl⟩ := List.get_of_mem hmem
    have hforall := storeItems_forall₂ hitems
    exact ⟨_, hforall.get n.isLt (hforall.length_eq ▸ n.isLt)⟩
  cases h with
  | table h => exact found_iff.mp ⟨_, htable⟩ h
  | embedding found mem h =>
    cases found.symm.trans htable
    obtain ⟨_, _, embedding, -, hread, hdim, -⟩ := hwrites mem
    exact h embedding hread hdim
  | key mem h =>
    obtain ⟨_, _, _, hkey, -⟩ := hwrites mem
    rw [h] at hkey
    cases hkey

end Service

end KnowledgeSearch
