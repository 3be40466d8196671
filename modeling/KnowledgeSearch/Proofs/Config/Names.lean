/-
  KnowledgeSearch/Proofs/Config/Names.lean
  ========================================
  **The names of an accepted configuration.**

  Names of tables and columns become part of statements as they are written, so what is
  promised of statements rests on them: in a configuration that is accepted, every such
  name is a plain identifier, and so is the text search configuration (`Config.Named`).
-/
import KnowledgeSearch.Proofs.Config.Checks

namespace KnowledgeSearch

open Text (isIdentifier)

/-! ### Names -/

/-- A table all of whose names are plain identifiers. -/
structure Table.Named (table : Table) : Prop where
  name : isIdentifier table.name = true
  names : ∀ name ∈ table.names, isIdentifier name = true

/-- A configuration whose names are plain identifiers. -/
structure Config.Named (config : Config) : Prop where
  textSearchConfig : isIdentifier config.search.hybrid.textSearchConfig = true
  tables : ∀ table ∈ config.tables, table.Named

/-- **The names of an accepted configuration are plain identifiers.** -/
theorem Config.named_of_ofString {text : String} {config : Config}
    (h : ofString text = .ok config) : config.Named := by
  have hchecked := checked_of_ofString h
  refine ⟨hchecked.textSearchConfig, fun table htable => ?_⟩
  exact ⟨(hchecked.tables table htable).name, (hchecked.tables table htable).names⟩

end KnowledgeSearch
