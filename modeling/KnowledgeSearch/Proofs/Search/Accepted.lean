/-
  KnowledgeSearch/Proofs/Search/Accepted.lean
  ===========================================
  **Accepted configurations and their catalog.**

  A document is tidied before it is checked, so the checks are made on what the rest of the
  library gets to see.  Tidying once is enough (`Config.normalize_normalize`), and an
  accepted configuration is one that tidying leaves as it is and that passes the checks.

  Tables are found in two ways: in the list of the configuration the first of a name counts,
  in the catalog the last.  The two agree because names are distinct
  (`Config.catalog_table`).
-/
import KnowledgeSearch.Proofs.Search.Prepared
import Mathlib.Data.List.Induction

namespace KnowledgeSearch

open Text (isIdentifier)

/-! ### What is listed once -/

section Dups

variable {α : Type} [BEq α] [LawfulBEq α]

theorem eraseDups_concat (items : List α) (last : α) :
    (items ++ [last]).eraseDups =
      if last ∈ items then items.eraseDups else items.eraseDups ++ [last] := by
  rw [List.eraseDups_append]
  by_cases h : last ∈ items
  · simp [List.removeAll, h]
  · simp [List.removeAll, h, List.eraseDups_cons]

/-- What is left stands in the order of first occurrences, so each item is left once. -/
theorem pairwise_idxOf_eraseDups (items : List α) :
    items.eraseDups.Pairwise fun a b => items.idxOf a < items.idxOf b := by
  induction items using List.reverseRecOn with
  | nil => exact List.Pairwise.nil
  | append_singleton items last ih =>
    -- an item of the first part is first found there
    have hfirst : ∀ a ∈ items.eraseDups, (items ++ [last]).idxOf a = items.idxOf a :=
      fun a ha => List.idxOf_append_of_mem (List.mem_eraseDups.mp ha)
    have hold : items.eraseDups.Pairwise fun a b =>
        (items ++ [last]).idxOf a < (items ++ [last]).idxOf b := by
      refine ih.imp_of_mem ?_
      intro a b ha hb hlt
      rwa [hfirst a ha, hfirst b hb]
    rw [eraseDups_concat]
    split
    · exact hold
    · rename_i hlast
      refine List.pairwise_append.mpr ⟨hold, List.pairwise_singleton _ _, ?_⟩
      intro a ha b hb
      obtain rfl := List.mem_singleton.mp hb
      rw [hfirst a ha, List.idxOf_append_of_notMem hlast]
      exact Nat.lt_add_right _ (List.idxOf_lt_length_of_mem (List.mem_eraseDups.mp ha))

theorem nodup_eraseDups (items : List α) : items.eraseDups.Nodup := by
  refine (pairwise_idxOf_eraseDups items).imp ?_
  rintro a _ hlt rfl
  exact Nat.lt_irrefl _ hlt

theorem eraseDups_of_nodup {items : List α} (h : items.Nodup) : items.eraseDups = items := by
  induction items using List.reverseRecOn with
  | nil => rfl
  | append_singleton items last ih =>
    obtain ⟨hitems, -, hdistinct⟩ := List.nodup_append.mp h
    have hlast : last ∉ items := fun hmem => hdistinct last hmem last (by simp) rfl
    rw [eraseDups_concat, if_neg hlast, ih hitems]

end Dups

/-! ### Tidied configurations -/

/-- A table as it was written, but for its text fields: each of them is listed once, in the
    order in which they first occurred. -/
structure Table.TidiedFrom (written table : Table) : Prop where
  others : table = { written with textFields := table.textFields }
  fields : ∀ field, field ∈ table.textFields ↔ field ∈ written.textFields
  order : table.textFields.Pairwise fun a b =>
    written.textFields.idxOf a < written.textFields.idxOf b

namespace Config

theorem normalize_tables (written : Config) :
    List.Forall₂ Table.TidiedFrom written.tables written.normalize.tables := by
  rw [normalize, List.forall₂_map_right_iff, List.forall₂_same]
  intro table _
  exact ⟨rfl, fun _ => List.mem_eraseDups, pairwise_idxOf_eraseDups _⟩

/-- **Tidying once is enough.** -/
theorem normalize_normalize (config : Config) : config.normalize.normalize = config.normalize := by
  have hlevel : Text.isBlankText config.normalize.logLevel = false := by
    by_cases h : Text.isBlankText config.logLevel = true
    · rw [normalize, if_pos h]
      change Text.isBlankText "info" = false
      decide
    · rw [normalize, if_neg h]
      exact Bool.not_eq_true _ ▸ h
  have hextension : config.normalize.storage.vectorExtension.filter
      (fun path => !Text.isBlankText path) = config.normalize.storage.vectorExtension := by
    simp [normalize]
  have htables : config.normalize.tables.map (fun table =>
      { table with textFields := table.textFields.eraseDups }) = config.normalize.tables := by
    simp [normalize, eraseDups_of_nodup (nodup_eraseDups _)]
  rw [normalize.eq_1 config.normalize, hextension, htables, hlevel]
  rfl

/-! ### Two ways to find a table -/

/-- Of entries of distinct names, each is the first of its name. -/
theorem find?_of_mem {tables : List Table} (hnames : (tables.map Table.name).Nodup)
    {table : Table} (htable : table ∈ tables) :
    tables.find? (fun other => other.name = table.name) = some table := by
  induction tables with
  | nil => cases htable
  | cons first rest ih =>
    obtain ⟨hfirst, hrest⟩ := List.nodup_cons.mp hnames
    rcases List.mem_cons.mp htable with rfl | htable
    · simp
    · have hne : first.name ≠ table.name := by
        intro heq
        exact hfirst (heq ▸ List.mem_map_of_mem htable)
      rw [List.find?_cons_of_neg (by simpa using hne)]
      exact ih hrest htable

/-- A catalog and a list of tables of distinct names find the same. -/
theorem catalog_table {config : Config} (hnames : (config.tables.map Table.name).Nodup)
    (name : String) :
    (Catalog.ofTables config.tables).table name =
      match config.table? name with
      | some table => .ok table
      | none => .error (.unknownTable name) := by
  cases hfound : config.table? name with
  | some table =>
    have htable : table ∈ config.tables := List.mem_of_find?_eq_some hfound
    have hname : table.name = name := by simpa using List.find?_some hfound
    -- the catalog finds a table of that name, and there is only one
    have hentry : (table.name, table) ∈ config.tables.map fun table => (table.name, table) :=
      List.mem_map_of_mem htable
    obtain ⟨other, hother⟩ := Keyed.get?_ofList_of_mem hentry
    have hcatalog : (Catalog.ofTables config.tables).table name = .ok other := by
      subst hname
      rw [Catalog.table, Catalog.ofTables, hother]
    obtain ⟨hmem, hsame⟩ := Catalog.table_eq_ok hcatalog
    have hfirst := find?_of_mem hnames hmem
    rw [hsame] at hfirst
    rw [hcatalog]
    exact congrArg Except.ok (Option.some.inj (hfirst.symm.trans hfound))
  | none =>
    have hmissing : ∀ table ∈ config.tables, table.name ≠ name := by
      simpa [table?] using hfound
    cases hcatalog : (Catalog.ofTables config.tables).table name with
    | ok table =>
      obtain ⟨hmem, hname⟩ := Catalog.table_eq_ok hcatalog
      exact absurd hname (hmissing table hmem)
    | error fault =>
      unfold Catalog.table at hcatalog
      split at hcatalog
      · cases hcatalog
      · exact hcatalog.symm

/-- **An accepted configuration is tidy and valid, and its catalog agrees with it.**  Tidying
    and checking it again changes nothing.  Its tables have distinct plain names; in each of
    them the primary key and the text fields are among the columns, the text fields are
    distinct and in the order in which the document first names them, and the embedding
    column is not among the columns and has a dimension.  By any name the catalog finds the
    table that the configuration has first, or neither has one. -/
theorem accepted_of_ofString {text : String} {config : Config} (h : ofString text = .ok config) :
    config.normalize = config ∧ config.check = .ok () ∧
      (config.tables.map Table.name).Nodup ∧
      (∀ table ∈ config.tables, isIdentifier table.name = true ∧
        table.primaryKey ∈ table.columns ∧ (∀ field ∈ table.textFields, field ∈ table.columns) ∧
        table.textFields.Nodup ∧ table.embeddingColumn ∉ table.columns ∧
        0 < table.embeddingDim) ∧
      (∃ document written, Toml.ofString? text = some document ∧
        ofToml? document = some written ∧
        List.Forall₂ Table.TidiedFrom written.tables config.tables) ∧
      ∀ name, (Catalog.ofTables config.tables).table name =
        match config.table? name with
        | some table => .ok table
        | none => .error (.unknownTable name) := by
  have hchecked := checked_of_ofString h
  obtain ⟨document, written, hdocument, hwritten, rfl, hcheck⟩ := ofString_eq_ok h
  refine ⟨normalize_normalize written, hcheck, hchecked.tableNames, fun table htable => ?_,
    ⟨document, written, hdocument, hwritten, normalize_tables written⟩,
    catalog_table hchecked.tableNames⟩
  have htableChecked := hchecked.tables table htable
  have hfields : table.textFields.Nodup := by
    obtain ⟨writtenTable, -, rfl⟩ := List.mem_map.mp htable
    exact nodup_eraseDups _
  exact ⟨htableChecked.name, htableChecked.primaryKey, htableChecked.textFields, hfields,
    htableChecked.embedding, Nat.pos_of_ne_zero fun hzero =>
      htableChecked.dimension (UInt32.toNat_inj.mp hzero)⟩

/-- A configuration with a blank level and with a text field that is listed twice. -/
def untidyText : String :=
  "service = [' ']\nstorage = ['lite', 'kb.db', 1]\n" ++
    "tables = [['notes', 'id', ['id', 'title', 'body'], 'vec', 2, ['title', 'body', 'title']]]\n" ++
    "[search]\nmax_limit = 10\nhybrid = [0, 1]\n"

/-- Notes are found in the catalog with either of their text fields listed once. -/
theorem accepted_untidyText :
    ∃ config, ofString untidyText = .ok config ∧ config.logLevel = "info" ∧
      config.normalize = config ∧ config.check = .ok () ∧
      ∃ table, (Catalog.ofTables config.tables).table "notes" = .ok table ∧
        table.textFields = ["title", "body"] := by
  have hparts : (ofString untidyText).toOption.map (fun config =>
      (config.logLevel, (config.table? "notes").map Table.textFields)) =
      some ("info", some ["title", "body"]) := by decide +kernel
  obtain ⟨config, hread, hpair⟩ := exists_of_map_ofString hparts
  obtain ⟨hlevel, hfields⟩ := Prod.mk.inj hpair
  obtain ⟨table, htable, htextFields⟩ := Option.map_eq_some_iff.mp hfields
  obtain ⟨htidy, hcheck, -, -, -, hcatalog⟩ := accepted_of_ofString hread
  refine ⟨config, hread, hlevel, htidy, hcheck, table, ?_, htextFields⟩
  rw [hcatalog, htable]

end Config

end KnowledgeSearch
