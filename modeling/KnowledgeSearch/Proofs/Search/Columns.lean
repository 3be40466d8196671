/-
  KnowledgeSearch/Proofs/Search/Columns.lean
  ==========================================
  **The columns of a table in results.**

  A search selects the columns of a table, and beside them what it computes under a name of
  its own: a distance, and for candidates a text rank too.  A row is decoded by the names of
  what was selected, a later value of one name replacing an earlier one, and what was
  computed is then taken out of it by name.

  So a result has the columns of its table, each with its own value, exactly if all these
  names are distinct (`Service.columns_kept_iff`).  Of an accepted configuration it is known
  that the primary key is among the columns, but not that the columns differ from each other
  or from the names that searches use: a column of the name `distance` is accepted, and no
  result has it.
-/
import KnowledgeSearch.Proofs.Config.Checks
import KnowledgeSearch.Proofs.Search.Prepared
import KnowledgeSearch.Proofs.Search.Selection
import KnowledgeSearch.Proofs.Sql.Agreement

namespace KnowledgeSearch

/-! ### Select lists -/

/-- What a statement selects: a column as it stands, or an expression under a name. -/
inductive SelectItem where
  | column (name : String)
  | computed (expression : Fragment) (name : String)

namespace SelectItem

def name : SelectItem → String
  | .column name => name
  | .computed _ name => name

def toFragment : SelectItem → Fragment
  | .column name => [.text name]
  | .computed expression name => expression ++ [.text (" AS " ++ name)]

/-- Items with commas between them. -/
def list (items : List SelectItem) : Fragment := Fragment.join ", " (items.map toFragment)

end SelectItem

namespace Fragment

theorem symbols_join_texts (separator : String) (texts : List String) :
    (join separator (texts.map fun text => [.text text])).symbols =
      symbols [.text (String.intercalate separator texts)] := by
  induction texts with
  | nil => rfl
  | cons first rest ih =>
    cases rest with
    | nil =>
      rw [String.intercalate_singleton]
      rfl
    | cons second rest =>
      rw [String.intercalate_cons_cons]
      simp only [List.map_cons, join, symbols_append, symbols_text, symbols_nil,
        String.toList_append, List.map_append, List.append_nil, List.append_assoc] at ih ⊢
      rw [ih]

end Fragment

/-- The columns of a table, and other items after them. -/
theorem Table.symbols_list {table : Table} (hcolumns : table.columns ≠ [])
    {others : List SelectItem} (hothers : others ≠ []) :
    (SelectItem.list (table.columns.map .column ++ others)).symbols =
      Fragment.symbols (.text (table.columnList ++ ", ") :: SelectItem.list others) := by
  have hmap : (table.columns.map SelectItem.column).map SelectItem.toFragment =
      table.columns.map fun column => [.text column] := by
    rw [List.map_map]
    rfl
  rw [SelectItem.list, List.map_append, hmap, Fragment.join_append (by simpa using hcolumns)
    (by simpa using hothers), Fragment.symbols_append, Fragment.symbols_join_texts]
  simp [SelectItem.list, columnList]

namespace TableStatement

/-- What the rows of a search consist of. -/
def items (d : Dialect) : TableStatement → List SelectItem
  | .nearest rows =>
    rows.table.columns.map .column ++ [.computed rows.distance "distance"]
  | .candidates rows =>
    rows.table.columns.map .column ++
      [.computed ((rows.rank? d).getD [.text "0.0"]) "text_rank",
        .computed ((rows.guardedDistance? d).getD [.text "NULL"]) "distance"]
  | _ => []

/-- The names of the columns that a search gives. -/
def outputs (d : Dialect) (statement : TableStatement) : List String :=
  (statement.items d).map SelectItem.name

/-- Whether a search, as it is written out, selects its items.  A search for candidates
    selects them inside and gives all of them outside. -/
def SelectsItems (d : Dialect) : TableStatement → Prop
  | .nearest rows =>
    ∃ rest, (rows.toFragment d).toQuery d =
      Fragment.toQuery d (.text "SELECT " :: SelectItem.list ((nearest rows).items d) ++
        .text (" FROM " ++ rows.table.name ++ " ") :: rest)
  | .candidates rows =>
    ∃ source rest, (rows.toFragment d).toQuery d =
      Fragment.toQuery d (.text "WITH scored AS (SELECT " ::
        SelectItem.list ((candidates rows).items d) ++
          .text (" FROM " ++ rows.table.name) :: source ++
          .text ") SELECT * FROM scored WHERE " :: rest)
  | _ => False

theorem nearest_selects (d : Dialect) {rows : NearestRows} (h : rows.table.columns ≠ []) :
    (nearest rows).SelectsItems d := by
  refine ⟨.text ("WHERE " ++ rows.table.embeddingColumn ++ " IS NOT NULL") ::
    rows.furtherCondition d ++
      [.text (" ORDER BY distance ASC, " ++ rows.table.primaryKey ++ " ASC LIMIT "),
        .bind (.int (Int64.ofNat rows.limit.toNat))], ?_⟩
  apply Fragment.toQuery_congr
  rw [items, Fragment.symbols_append, Fragment.symbols_text,
    Table.symbols_list h (List.cons_ne_nil _ _)]
  simp [NearestRows.toFragment, SelectItem.list, SelectItem.toFragment, Fragment.join]

theorem candidates_selects (d : Dialect) {rows : CandidateRows} (h : rows.table.columns ≠ []) :
    (candidates rows).SelectsItems d := by
  refine ⟨rows.whereClause d, .text (rows.table.primaryKey ++ " IN (") ::
    Fragment.join " UNION " (rows.sides d) ++
      [.text (") ORDER BY " ++ rows.table.primaryKey ++ " ASC")], ?_⟩
  apply Fragment.toQuery_congr
  rw [items, Fragment.symbols_append, Fragment.symbols_append, Fragment.symbols_text,
    Table.symbols_list h (List.cons_ne_nil _ _)]
  simp [CandidateRows.toFragment, SelectItem.list, SelectItem.toFragment, Fragment.join]

end TableStatement

/-! ### Rows -/

theorem zip_append_drop {α β : Type} (left right : List α) (values : List β) :
    (left ++ right).zip values = left.zip values ++ right.zip (values.drop left.length) := by
  induction left generalizing values with
  | nil => simp
  | cons first left ih =>
    cases values with
    | nil => simp
    | cons value values => simp [ih]

theorem Keyed.foldl_erase {α : Type} (names : List String) (entries : Keyed α) :
    names.foldl Keyed.erase entries = entries.filter fun entry => !names.contains entry.1 := by
  induction names generalizing entries with
  | nil => exact (List.filter_eq_self.mpr (by simp)).symm
  | cons first rest ih =>
    rw [List.foldl_cons, ih, Keyed.erase, List.filter_filter]
    congr 1
    funext entry
    by_cases h : entry.1 = first <;> simp [h]

/-- A row, decoded by the names of its columns. -/
def decodeRow (names : List String) (values : List Json) : Row := Keyed.ofList (names.zip values)

/-- Whether what was read from a row is its primary key and the columns of its table, each
    with its own value.  The values of the columns come first. -/
structure Table.Keeps (table : Table) (values : List Json) (key : Json) (row : Row) : Prop where
  row : row.Perm (table.columns.zip values)
  key : (table.primaryKey, key) ∈ table.columns.zip values

section Read

variable {table : Table} {computed : List String} {values : List Json}

/-- What is left of a row without what was computed. -/
def Table.remainder (table : Table) (computed : List String) (values : List Json) : Row :=
  computed.foldl Keyed.erase (decodeRow (table.columns ++ computed) values)

theorem Table.remainder_eq :
    table.remainder computed values =
      (decodeRow (table.columns ++ computed) values).filter
        fun entry => !computed.contains entry.1 :=
  Keyed.foldl_erase _ _

/-- If all names are distinct, the columns are left. -/
theorem Table.remainder_perm (hvalues : (table.columns ++ computed).length ≤ values.length)
    (h : (table.columns ++ computed).Nodup) :
    (table.remainder computed values).Perm (table.columns.zip values) := by
  obtain ⟨-, -, hdistinct⟩ := List.nodup_append.mp h
  have hkeys : (Keyed.keys ((table.columns ++ computed).zip values)).Nodup := by
    rw [Keyed.keys, List.map_fst_zip hvalues]
    exact h
  -- the entries of columns stay, those of computed names go
  have hstay : (table.columns.zip values).filter (fun entry => !computed.contains entry.1) =
      table.columns.zip values := by
    rw [List.filter_eq_self]
    intro entry hentry
    have hcolumn := (List.of_mem_zip hentry).1
    simpa using fun hmem => hdistinct _ hcolumn _ hmem rfl
  have hgo : (computed.zip (values.drop table.columns.length)).filter
      (fun entry => !computed.contains entry.1) = [] := by
    rw [List.filter_eq_nil_iff]
    intro entry hentry
    simpa using (List.of_mem_zip hentry).1
  have hperm := (Keyed.ofList_perm hkeys).filter fun entry => !computed.contains entry.1
  rwa [← decodeRow, ← remainder_eq, zip_append_drop, List.filter_append, hstay, hgo,
    List.append_nil] at hperm

/-- If the columns are left, each with its own value, all names are distinct. -/
theorem Table.nodup_of_remainder_perm (hcomputed : computed.Nodup)
    (hvalues : (table.columns ++ computed).length ≤ values.length)
    (h : (table.remainder computed values).Perm (table.columns.zip values)) :
    (table.columns ++ computed).Nodup := by
  have hlength : table.columns.length ≤ values.length := by
    rw [List.length_append] at hvalues
    omega
  have hkeys : (Keyed.keys (table.remainder computed values)).Perm table.columns := by
    have hmap := h.map Prod.fst
    rwa [List.map_fst_zip hlength] at hmap
  rw [remainder_eq] at hkeys
  refine List.nodup_append.mpr ⟨?_, hcomputed, ?_⟩
  · have hdecoded := (Keyed.ascending_ofList ((table.columns ++ computed).zip values)).nodup_keys
    exact hkeys.nodup_iff.mp ((List.filter_sublist.map Prod.fst).nodup hdecoded)
  · rintro column hcolumn _ hname rfl
    obtain ⟨entry, hentry, rfl⟩ := List.mem_map.mp (hkeys.mem_iff.mpr hcolumn)
    have hgone := (List.mem_filter.mp hentry).2
    simp [hname] at hgone

theorem Table.keeps_remainder_iff (hkey : table.primaryKey ∈ table.columns)
    (hcomputed : computed.Nodup) (hvalues : (table.columns ++ computed).length ≤ values.length) :
    table.Keeps values (Service.rowKey table (table.remainder computed values))
        (table.remainder computed values) ↔
      (table.columns ++ computed).Nodup := by
  constructor
  · intro h
    exact nodup_of_remainder_perm hcomputed hvalues h.row
  · intro h
    have hperm := remainder_perm hvalues h
    have hlength : table.columns.length ≤ values.length := by
      rw [List.length_append] at hvalues
      omega
    have hmem : table.primaryKey ∈ Keyed.keys (table.remainder computed values) := by
      rw [Keyed.keys, (hperm.map Prod.fst).mem_iff, List.map_fst_zip hlength]
      exact hkey
    obtain ⟨key, hfound⟩ := Keyed.exists_of_mem_keys hmem
    refine ⟨hperm, ?_⟩
    rw [Service.rowKey, hfound, Option.getD_some]
    exact hperm.mem_iff.mp (Keyed.mem_of_get? hfound)

end Read

/-! ### Searches -/

/-- A search that gives the columns of a table and what it computes, and whose rows are read
    in some way as keys and as rows of results. -/
structure TableStatement.ReadFrom (d : Dialect) (table : Table) (computed : List String)
    (read : Row → Json × Row) (statement : TableStatement) : Prop where
  selects : statement.SelectsItems d
  outputs : statement.outputs d = table.columns ++ computed
  distinct : (statement.outputs d).Nodup ↔
    table.columns.Nodup ∧ ∀ name ∈ computed, name ∉ table.columns
  kept : ∀ values : List Json, values.length = (statement.outputs d).length →
    (table.Keeps values (read (decodeRow (statement.outputs d) values)).1
        (read (decodeRow (statement.outputs d) values)).2 ↔
      (statement.outputs d).Nodup)

/-- Rows are read without what was computed. -/
theorem TableStatement.readFrom_of_remainder {d : Dialect} {table : Table}
    {computed : List String} {read : Row → Json × Row} {statement : TableStatement}
    (hkey : table.primaryKey ∈ table.columns) (hcomputed : computed.Nodup)
    (hselects : statement.SelectsItems d)
    (houtputs : statement.outputs d = table.columns ++ computed)
    (hread : ∀ row, read row =
      (Service.rowKey table (computed.foldl Keyed.erase row), computed.foldl Keyed.erase row)) :
    statement.ReadFrom d table computed read := by
  refine ⟨hselects, houtputs, ?_, fun values hvalues => ?_⟩
  · rw [houtputs, List.nodup_append]
    constructor
    · rintro ⟨hcolumns, -, hdistinct⟩
      exact ⟨hcolumns, fun name hname hcolumn => hdistinct name hcolumn name hname rfl⟩
    · rintro ⟨hcolumns, hdistinct⟩
      refine ⟨hcolumns, hcomputed, ?_⟩
      rintro column hcolumn _ hname rfl
      exact hdistinct column hname hcolumn
  · rw [houtputs] at hvalues ⊢
    rw [hread]
    exact Table.keeps_remainder_iff hkey hcomputed (Nat.le_of_eq hvalues.symm)

namespace Service

variable {s : Service} {statement : TableStatement}

theorem nearest_readFrom {p : PreparedVector} {filter : Option Json}
    (hkey : p.table.primaryKey ∈ p.table.columns) (h : s.nearest p filter = .ok statement) :
    statement.ReadFrom s.dialect p.table ["distance"] fun row =>
      ((PreparedVector.result p.table row).key, (PreparedVector.result p.table row).row) := by
  obtain ⟨filter, distance, -, -, rfl⟩ := nearest_eq_ok h
  refine TableStatement.readFrom_of_remainder hkey (by decide)
    (TableStatement.nearest_selects _ (List.ne_nil_of_mem hkey)) ?_ fun row => rfl
  simp [TableStatement.outputs, TableStatement.items, SelectItem.name, Function.comp_def]

theorem candidates_readFrom {p : PreparedHybrid}
    (hkey : p.table.primaryKey ∈ p.table.columns) (h : s.candidates p = .ok statement) :
    statement.ReadFrom s.dialect p.table ["text_rank", "distance"] fun row =>
      ((PreparedHybrid.candidate p.table row).key, (PreparedHybrid.candidate p.table row).row) := by
  obtain ⟨distance, -, rfl⟩ := candidates_eq_ok h
  refine TableStatement.readFrom_of_remainder hkey (by decide)
    (TableStatement.candidates_selects _ (List.ne_nil_of_mem hkey)) ?_ fun row => rfl
  simp [TableStatement.outputs, TableStatement.items, SelectItem.name, Function.comp_def]

end Service

/-- Ranking changes neither keys nor rows. -/
theorem Candidate.exists_of_mem_rank {table : String} {weights : HybridWeights} {limit : Nat}
    {candidates : List Candidate} {result : SearchResult}
    (h : result ∈ rank table weights limit candidates) :
    ∃ c ∈ candidates, result.key = c.key ∧ result.row = c.row := by
  obtain ⟨c, hc, -, rfl⟩ := mem_rank h
  exact ⟨c, hc, rfl, rfl⟩

namespace Service

/-- **Results have the columns of their table if all names of what is selected are
    distinct.**  A search of a table of an accepted configuration gives the columns of the
    table, and after them a distance, or a text rank and a distance.  These names are distinct
    exactly if the columns are, and none of them has the name of what is computed.  Then
    every row that is decoded by them becomes a result with exactly the columns of the
    table, each with its own value, and with the value of the primary key as its key;
    otherwise none does. -/
theorem columns_kept_iff {text : String} {config : Config}
    (h : Config.ofString text = .ok config) {table : Table} (htable : table ∈ config.tables)
    (d : Dialect) :
    (∀ (p : PreparedVector) filter statement, p.table = table →
      Service.nearest ⟨config, d⟩ p filter = .ok statement →
      statement.ReadFrom d table ["distance"] fun row =>
        ((PreparedVector.result table row).key, (PreparedVector.result table row).row)) ∧
    ∀ (p : PreparedHybrid) statement, p.table = table →
      Service.candidates ⟨config, d⟩ p = .ok statement →
      statement.ReadFrom d table ["text_rank", "distance"] (fun row =>
        ((PreparedHybrid.candidate table row).key, (PreparedHybrid.candidate table row).row)) ∧
      ((statement.outputs d).Nodup → ∀ (answers : List (List Json)) weights limit,
        (∀ values ∈ answers, values.length = (statement.outputs d).length) →
        ∀ result ∈ Candidate.rank table.name weights limit (answers.map fun values =>
            PreparedHybrid.candidate table (decodeRow (statement.outputs d) values)),
          ∃ values ∈ answers, table.Keeps values result.key result.row) := by
  have hkey := ((Config.checked_of_ofString h).tables table htable).primaryKey
  constructor
  · rintro p filter statement rfl hstatement
    exact nearest_readFrom hkey hstatement
  · rintro p statement rfl hstatement
    have hread := candidates_readFrom hkey hstatement
    refine ⟨hread, fun hnodup answers weights limit hanswers result hresult => ?_⟩
    obtain ⟨c, hc, hresultKey, hresultRow⟩ := Candidate.exists_of_mem_rank hresult
    obtain ⟨values, hvalues, rfl⟩ := List.mem_map.mp hc
    refine ⟨values, hvalues, ?_⟩
    rw [hresultKey, hresultRow]
    exact (hread.kept values (hanswers values hvalues)).mpr hnodup

/-- A configuration with a table of notes that has some columns. -/
def columnsText (columns : String) : String :=
  "service = ['info']\nstorage = ['lite', 'kb.db', 1]\n" ++
    "tables = [['notes', 'id', [" ++ columns ++ "], 'vec', 2, ['title']]]\n" ++
    "[search]\nmax_limit = 10\nhybrid = [0, 1]\n"

def notesWith (columns : List String) : Table :=
  { name := "notes"
    primaryKey := "id"
    columns
    embeddingColumn := "vec"
    embeddingDim := 2
    textFields := ["title"]
    filters := [] }

/-- The tables and the metric that a document comes to. -/
def tables? (text : String) : Option (List Table × Metric) :=
  (Config.ofString text).toOption.map fun config => (config.tables, config.index.metric)

/-- A search of three notes. -/
def nearestNotes (columns : List String) : PreparedVector :=
  ⟨notesWith columns, 3, ⟨[.one, .zero], List.cons_ne_nil _ _, by decide⟩⟩

theorem exists_nearestNotes {text : String} {columns : List String}
    (h : tables? text = some ([notesWith columns], .cosine)) :
    ∃ config statement, Config.ofString text = .ok config ∧ notesWith columns ∈ config.tables ∧
      Service.nearest ⟨config, .lite⟩ (nearestNotes columns) none = .ok statement := by
  obtain ⟨config, hread, hpair⟩ := Config.exists_of_map_ofString h
  obtain ⟨htables, hmetric⟩ := Prod.mk.inj hpair
  have hdistance : ∃ distance, Service.distance ⟨config, .lite⟩ (notesWith columns)
      (nearestNotes columns).embedding = .ok distance := by
    unfold Service.distance
    dsimp only
    rw [hmetric]
    exact ⟨_, rfl⟩
  obtain ⟨distance, hdistance⟩ := hdistance
  refine ⟨config, .nearest ⟨notesWith columns, distance, none, 3⟩, hread, ?_, ?_⟩
  · rw [htables]
    exact List.mem_singleton_self _
  · change (Service.distance ⟨config, .lite⟩ (notesWith columns) _ >>= fun distance => _) = _
    rw [hdistance]
    rfl

/-- Notes with an identifier and a title are read as they are. -/
theorem columns_kept_notes :
    ∃ config statement, Config.ofString (columnsText "'id', 'title'") = .ok config ∧
      Service.nearest ⟨config, .lite⟩ (nearestNotes ["id", "title"]) none = .ok statement ∧
      (notesWith ["id", "title"]).Keeps [.ofNat 7, .string "sea", .ofNat 0]
        (PreparedVector.result (notesWith ["id", "title"])
          (decodeRow (statement.outputs .lite) [.ofNat 7, .string "sea", .ofNat 0])).key
        (PreparedVector.result (notesWith ["id", "title"])
          (decodeRow (statement.outputs .lite) [.ofNat 7, .string "sea", .ofNat 0])).row := by
  have htables : tables? (columnsText "'id', 'title'") =
      some ([notesWith ["id", "title"]], .cosine) := by decide +kernel
  obtain ⟨config, statement, hread, hmem, hstatement⟩ := exists_nearestNotes htables
  have hfrom := (columns_kept_iff hread hmem .lite).1 _ none statement rfl hstatement
  refine ⟨config, statement, hread, hstatement, (hfrom.kept _ ?_).mpr ?_⟩
  · rw [hfrom.outputs]
    rfl
  · rw [hfrom.distinct]
    decide

/-- A column of the name `distance` is not in any result. -/
theorem column_lost :
    ∃ config statement,
      Config.ofString (columnsText "'id', 'title', 'distance'") = .ok config ∧
      notesWith ["id", "title", "distance"] ∈ config.tables ∧
      Service.nearest ⟨config, .lite⟩ (nearestNotes ["id", "title", "distance"]) none =
        .ok statement ∧
      ¬ (statement.outputs .lite).Nodup ∧
      (PreparedVector.result (notesWith ["id", "title", "distance"])
        (decodeRow (statement.outputs .lite)
          [.ofNat 7, .string "sea", .ofNat 5, .ofNat 0])).row =
        [("id", .ofNat 7), ("title", .string "sea")] := by
  have htables : tables? (columnsText "'id', 'title', 'distance'") =
      some ([notesWith ["id", "title", "distance"]], .cosine) := by decide +kernel
  obtain ⟨config, statement, hread, hmem, hstatement⟩ := exists_nearestNotes htables
  have houtputs : statement.outputs .lite = ["id", "title", "distance", "distance"] :=
    (nearest_readFrom (s := ⟨config, .lite⟩) (List.mem_cons_self) hstatement).outputs
  refine ⟨config, statement, hread, hmem, hstatement, ?_, ?_⟩
  · rw [houtputs]
    decide
  · rw [houtputs]
    rfl

end Service

end KnowledgeSearch
