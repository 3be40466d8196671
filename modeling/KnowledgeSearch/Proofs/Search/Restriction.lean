/-
  KnowledgeSearch/Proofs/Search/Restriction.lean
  ==============================================
  **What a table lets through of a predicate.**

  A table lists the columns that filters may use, each with the type of its values.
  `Leaf.Keepable` says which leaves it can be asked, without saying how they are found
  out, and `Leaf.KeptAs` what is left of such a leaf: the same question, with its values
  in the type of the column.  Restricting a predicate keeps exactly the keepable leaves,
  in their order, and empties no group, so a predicate goes away only if there is
  nothing in it to keep (`Predicate.restrict?_exact`).
-/
import KnowledgeSearch.Proofs.Sql.Word
import KnowledgeSearch.Proofs.Steps

namespace KnowledgeSearch

/-! ### Leaves that a table can be asked -/

/-- The values that a test compares with. -/
def Test.values : Test → List Scalar
  | .compare _ value => [value]
  | .membership _ values => values
  | _ => []

/-- Whether a value has the type of a column. -/
def Scalar.HasKind : FilterKind → Scalar → Prop
  | .integer, value => ∃ n, value = .int n
  | .float, value => ∃ x, value = .float x
  | .text, value => ∃ s, value = .text s
  | .boolean, value => ∃ b, value = .bool b
  | .json, _ => True

namespace Leaf

variable (table : Table)

/-- Whether a table can be asked a leaf: its column is listed, and either holds JSON or
    is asked for what a plain column of its type can be asked. -/
def Keepable (l : Leaf) : Prop :=
  ∃ kind ∈ table.filterKind? l.field.column,
    kind = .json ∨
      (l.field.path = [] ∧ l.test.operator.isJson = false ∧
        (l.test.operator = .like ∨ l.test.operator = .ilike → kind = .text) ∧
        ∀ value ∈ l.test.values, (kind.coerce? value).isSome)

instance : DecidablePred (Keepable table) := fun l =>
  inferInstanceAs (Decidable (∃ kind ∈ table.filterKind? l.field.column,
    kind = .json ∨
      (l.field.path = [] ∧ l.test.operator.isJson = false ∧
        (l.test.operator = .like ∨ l.test.operator = .ilike → kind = .text) ∧
        ∀ value ∈ l.test.values, (kind.coerce? value).isSome)))

/-- What a table makes of a leaf that it can be asked. -/
structure KeptAs (l k : Leaf) : Prop where
  field : k.field = l.field
  operator : k.test.operator = l.test.operator
  json : table.filterKind? l.field.column = some .json → k = l
  bare : l.test.values = [] → k = l
  coerced : ∀ kind ∈ table.filterKind? l.field.column,
    List.Forall₂ (fun value found => kind.coerce? value = some found) l.test.values k.test.values
  typed : ∀ kind ∈ table.filterKind? l.field.column, kind ≠ .json →
    ∀ found ∈ k.test.values, found.isNull = false → found.HasKind kind

end Leaf

/-! ### Values -/

namespace FilterKind

variable {value found : Scalar}

theorem hasKind_toInteger? (h : toInteger? value = some found) : found.HasKind .integer := by
  cases value with
  | int n =>
    cases h
    exact ⟨n, rfl⟩
  | float x =>
    obtain ⟨n, -, rfl⟩ := Option.map_eq_some_iff.mp h
    exact ⟨n, rfl⟩
  | text s =>
    obtain ⟨n, -, rfl⟩ := Option.map_eq_some_iff.mp h
    exact ⟨_, rfl⟩
  | _ => cases h

theorem hasKind_toFloat? (h : toFloat? value = some found) : found.HasKind .float := by
  unfold toFloat? at h
  split at h
  · cases h
    exact ⟨_, rfl⟩
  · cases h
    exact ⟨_, rfl⟩
  · split at h
    · obtain ⟨-, h⟩ := Option.ite_none_right_eq_some.mp h
      cases h
      exact ⟨_, rfl⟩
    · cases h
  · cases h

/-- Of two booleans and nothing, only the booleans are found. -/
theorem hasKind_boolean_of_ite {isTrue isFalse : Prop} [Decidable isTrue] [Decidable isFalse]
    {x y : Bool} (h : (if isTrue then some (Scalar.bool x) else
      if isFalse then some (.bool y) else none) = some found) : found.HasKind .boolean := by
  split at h
  · cases h
    exact ⟨x, rfl⟩
  · obtain ⟨-, h⟩ := Option.ite_none_right_eq_some.mp h
    cases h
    exact ⟨y, rfl⟩

theorem hasKind_toBoolean? (h : toBoolean? value = some found) : found.HasKind .boolean := by
  cases value with
  | bool b =>
    cases h
    exact ⟨b, rfl⟩
  | int n => exact hasKind_boolean_of_ite h
  | text s => exact hasKind_boolean_of_ite h
  | _ => cases h

/-- A value taken as the type of a column has that type, unless it is null. -/
theorem hasKind_coerce? {kind : FilterKind} (h : kind.coerce? value = some found)
    (hnull : found.isNull = false) : found.HasKind kind := by
  unfold coerce? at h
  split at h
  · rename_i hvalue
    injection h with h
    subst h
    rw [hnull] at hvalue
    cases hvalue
  · cases kind with
    | json => exact True.intro
    | text =>
      obtain ⟨text, -, rfl⟩ := Option.map_eq_some_iff.mp h
      exact ⟨text, rfl⟩
    | integer => exact hasKind_toInteger? h
    | float => exact hasKind_toFloat? h
    | boolean => exact hasKind_toBoolean? h

theorem coerce?_json (value : Scalar) : FilterKind.json.coerce? value = some value := by
  simp [coerce?]

end FilterKind

/-! ### Leaves -/

/-- Whether a plain column can be asked a test. -/
def Test.Askable (kind : FilterKind) (test : Test) : Prop :=
  (test.operator = .like ∨ test.operator = .ilike → kind = .text) ∧
    ∀ value ∈ test.values, (kind.coerce? value).isSome

theorem Comparison.isPattern_iff (comparison : Comparison) : comparison.isPattern = true ↔
    comparison.operator = .like ∨ comparison.operator = .ilike := by
  cases comparison <;> simp [Comparison.isPattern, Comparison.operator]

/-- What becomes of a test: the same question with its values in the type of the column. -/
structure Test.TakenAs (kind : FilterKind) (test found : Test) : Prop where
  operator : found.operator = test.operator
  bare : test.values = [] → found = test
  values : List.Forall₂ (fun value v => kind.coerce? value = some v) test.values found.values

namespace Test

variable {kind : FilterKind}

/-- A plain column is not asked what it has no value for. -/
theorem not_askable {test : Test} {value : Scalar} (hmem : value ∈ test.values)
    (hvalue : kind.coerce? value = none) : ¬ test.Askable kind := by
  intro h
  have hsome := h.2 value hmem
  rw [hvalue] at hsome
  cases hsome

theorem restrict?_compare (comparison : Comparison) (value : Scalar) :
    ((compare comparison value).Askable kind ∧ ∃ found,
      (compare comparison value).restrict? kind = some found ∧
        (compare comparison value).TakenAs kind found) ∨
    (¬ (compare comparison value).Askable kind ∧
      (compare comparison value).restrict? kind = none) := by
  by_cases hkind : comparison.isPattern = true ∧ kind ≠ .text
  · refine .inr ⟨fun h => hkind.2 (h.1 (comparison.isPattern_iff.mp hkind.1)), ?_⟩
    simp [restrict?, hkind]
  · have hrestrict : (compare comparison value).restrict? kind =
        (kind.coerce? value).map (.compare comparison) := by
      simp [restrict?, hkind]
    rw [hrestrict]
    cases hvalue : kind.coerce? value with
    | none => exact .inr ⟨not_askable List.mem_cons_self hvalue, rfl⟩
    | some found =>
      refine .inl ⟨⟨?_, ?_⟩, .compare comparison found, rfl, rfl, nofun, .cons hvalue .nil⟩
      · intro h
        by_contra hne
        exact hkind ⟨comparison.isPattern_iff.mpr h, hne⟩
      · intro v hv
        rw [List.mem_singleton.mp hv, hvalue]
        rfl

theorem restrict?_membership (negated : Bool) (values : List Scalar) :
    ((membership negated values).Askable kind ∧ ∃ found,
      (membership negated values).restrict? kind = some found ∧
        (membership negated values).TakenAs kind found) ∨
    (¬ (membership negated values).Askable kind ∧
      (membership negated values).restrict? kind = none) := by
  have hrestrict : (membership negated values).restrict? kind =
      (values.mapM kind.coerce?).map (.membership negated) := rfl
  rw [hrestrict]
  rcases mapM_cases kind.coerce? values with
    ⟨hsome, found, hfound, hall⟩ | ⟨⟨value, hmem, hvalue⟩, hnone⟩
  · rw [hfound]
    refine .inl ⟨⟨?_, hsome⟩, .membership negated found, rfl, ?_, ?_, hall⟩
    · rintro (h | h) <;> cases negated <;> cases h
    · cases negated <;> rfl
    · intro h
      change values = [] at h
      subst h
      cases hall
      rfl
  · rw [hnone]
    exact .inr ⟨not_askable hmem hvalue, rfl⟩

/-- A plain column is asked a test with its values in the type of the column, or not at
    all. -/
theorem restrict?_cases (kind : FilterKind) (test : Test) :
    (test.Askable kind ∧ ∃ found, test.restrict? kind = some found ∧ test.TakenAs kind found) ∨
    (¬ test.Askable kind ∧ test.restrict? kind = none) := by
  cases test with
  | compare comparison value => exact restrict?_compare comparison value
  | membership negated values => exact restrict?_membership negated values
  | _ =>
    refine .inl ⟨⟨?_, nofun⟩, _, rfl, rfl, fun _ => rfl, .nil⟩
    rintro (h | h) <;> cases h

end Test

namespace Leaf

variable {table : Table} {l : Leaf} {kind : FilterKind}

theorem restrict?_of_kind (hkind : table.filterKind? l.field.column = some kind)
    (hjson : kind ≠ .json) : l.restrict? table =
      if l.field.isJsonPath || l.test.operator.isJson then none
      else (l.test.restrict? kind).map (Leaf.mk l.field) := by
  unfold restrict?
  rw [hkind]
  cases kind with
  | json => exact absurd rfl hjson
  | _ => rfl

theorem keepable_iff_of_kind (hkind : table.filterKind? l.field.column = some kind)
    (hjson : kind ≠ .json) : l.Keepable table ↔
      (l.field.path = [] ∧ l.test.operator.isJson = false) ∧ l.test.Askable kind := by
  simp [Keepable, hkind, hjson, Test.Askable, and_assoc]

/-- A table keeps a leaf that it can be asked, as that leaf, and no other. -/
theorem restrict?_cases (table : Table) (l : Leaf) :
    (l.Keepable table ∧ ∃ k, l.restrict? table = some k ∧ l.KeptAs table k) ∨
    (¬ l.Keepable table ∧ l.restrict? table = none) := by
  cases hcolumn : table.filterKind? l.field.column with
  | none => exact Or.inr ⟨by simp [Keepable, hcolumn], by simp [restrict?, hcolumn]⟩
  | some kind =>
    have same {kind' : FilterKind} (h : kind' ∈ table.filterKind? l.field.column) :
        kind = kind' := by
      rw [hcolumn] at h
      exact Option.some.inj h
    by_cases hjson : kind = .json
    · subst hjson
      refine Or.inl ⟨⟨.json, hcolumn, Or.inl rfl⟩, l, by simp [restrict?, hcolumn], ?_⟩
      refine ⟨rfl, rfl, fun _ => rfl, fun _ => rfl, ?_, ?_⟩
      · intro kind hkind
        rw [← same hkind]
        exact List.forall₂_same.mpr fun value _ => FilterKind.coerce?_json value
      · intro kind hkind hne
        exact absurd (same hkind).symm hne
    · rw [keepable_iff_of_kind hcolumn hjson, restrict?_of_kind hcolumn hjson]
      by_cases hplain : l.field.path = [] ∧ l.test.operator.isJson = false
      · rw [if_neg (by simp [FieldPath.isJsonPath, hplain])]
        rcases l.test.restrict?_cases kind with ⟨hask, found, hfound, htaken⟩ | ⟨hask, hnone⟩
        · refine Or.inl ⟨⟨hplain, hask⟩, ⟨l.field, found⟩, by rw [hfound]; rfl, ?_⟩
          refine ⟨rfl, htaken.operator, ?_, ?_, ?_, ?_⟩
          · intro hkind
            exact absurd (same hkind) hjson
          · intro hvalues
            rw [htaken.bare hvalues]
          · intro kind' hkind
            rw [← same hkind]
            exact htaken.values
          · intro kind' hkind _ value hvalue hnull
            rw [← same hkind]
            obtain ⟨given, -, hgiven⟩ := exists_of_forall₂_of_mem htaken.values hvalue
            exact FilterKind.hasKind_coerce? hgiven hnull
        · exact Or.inr ⟨fun h => hask h.2, by rw [hnone]; rfl⟩
      · refine Or.inr ⟨fun h => hplain h.1, if_pos ?_⟩
        by_contra h
        simp [FieldPath.isJsonPath] at h
        exact hplain h

end Leaf

/-! ### Predicates -/

namespace Predicate

variable {table : Table}

mutual

/-- The groups of a predicate that are written empty, from left to right. -/
def emptyGroups : Predicate → List Predicate
  | .leaf _ => []
  | .all [] => [.all []]
  | .any [] => [.any []]
  | .all (child :: children) => emptyGroups child ++ emptyGroupsEach children
  | .any (child :: children) => emptyGroups child ++ emptyGroupsEach children
  | .not child => emptyGroups child

def emptyGroupsEach : List Predicate → List Predicate
  | [] => []
  | child :: children => emptyGroups child ++ emptyGroupsEach children

end

theorem emptyGroupsEach_eq_flatMap (children : List Predicate) :
    emptyGroupsEach children = children.flatMap emptyGroups := by
  induction children with
  | nil => rfl
  | cons child children ih => simp [emptyGroupsEach, ih]

theorem emptyGroups_all {children : List Predicate} (h : children ≠ []) :
    emptyGroups (.all children) = children.flatMap emptyGroups := by
  cases children with
  | nil => exact absurd rfl h
  | cons child children => simp [emptyGroups, emptyGroupsEach_eq_flatMap]

theorem emptyGroups_any {children : List Predicate} (h : children ≠ []) :
    emptyGroups (.any children) = children.flatMap emptyGroups := by
  cases children with
  | nil => exact absurd rfl h
  | cons child children => simp [emptyGroups, emptyGroupsEach_eq_flatMap]

/-- A predicate has a leaf or an empty group. -/
theorem leaves_or_emptyGroups (p : Predicate) : p.leaves ≠ [] ∨ p.emptyGroups ≠ [] := by
  induction p with
  | leaf l => simp [leaves]
  | all children ih =>
    cases children with
    | nil => simp [emptyGroups]
    | cons child children =>
      have hchild := ih child List.mem_cons_self
      simp only [leaves, leavesEach, emptyGroups, ne_eq, List.append_eq_nil_iff]
      tauto
  | any children ih =>
    cases children with
    | nil => simp [emptyGroups]
    | cons child children =>
      have hchild := ih child List.mem_cons_self
      simp only [leaves, leavesEach, emptyGroups, ne_eq, List.append_eq_nil_iff]
      tauto
  | not child ih => simpa [leaves, emptyGroups] using ih

/-- What is left of a predicate: its keepable leaves in order, and its empty groups. -/
structure Leaves (table : Table) (p : Predicate) (left : Option Predicate) : Prop where
  kept : List.Forall₂ (Leaf.KeptAs table) (p.leaves.filter (Leaf.Keepable table ·))
    (left.toList.flatMap leaves)
  groups : left.toList.flatMap emptyGroups = p.emptyGroups

theorem restrictAll_leaves {children : List Predicate}
    (ih : ∀ child ∈ children, Leaves table child (restrict? table child)) :
    List.Forall₂ (Leaf.KeptAs table)
      ((children.flatMap leaves).filter (Leaf.Keepable table ·))
      ((restrictAll table children).flatMap leaves) ∧
    (restrictAll table children).flatMap emptyGroups = children.flatMap emptyGroups := by
  induction children with
  | nil => exact ⟨.nil, rfl⟩
  | cons child children ihChildren =>
    have hchild := ih child List.mem_cons_self
    have hrest := ihChildren fun c hc => ih c (List.mem_cons_of_mem _ hc)
    have hsplit : restrictAll table (child :: children) =
        (restrict? table child).toList ++ restrictAll table children := by
      rw [restrictAll]
      cases restrict? table child <;> rfl
    rw [hsplit, List.flatMap_append, List.flatMap_append, List.flatMap_cons, List.flatMap_cons,
      List.filter_append]
    exact ⟨List.rel_append hchild.kept hrest.1, by rw [hchild.groups, hrest.2]⟩

/-- A group keeps what its children keep, and goes away if they all do. -/
theorem group_leaves {group : List Predicate → Predicate} {children : List Predicate}
    (hleaves : ∀ cs, leaves (group cs) = cs.flatMap leaves)
    (hempty : emptyGroups (group []) = [group []])
    (hgroups : ∀ cs, cs ≠ [] → emptyGroups (group cs) = cs.flatMap emptyGroups)
    (ih : ∀ child ∈ children, Leaves table child (restrict? table child)) :
    Leaves table (group children)
      ((leftOver? children (restrictAll table children)).map group) := by
  obtain ⟨hkept, hempties⟩ := restrictAll_leaves ih
  by_cases hchildren : children = []
  · subst hchildren
    have hleft : leftOver? [] (restrictAll table []) = some [] := rfl
    rw [hleft]
    constructor
    · simp [hleaves]
    · simp [hempty]
  · by_cases hnone : restrictAll table children = []
    · rw [hnone] at hkept hempties
      rw [hnone, leftOver?_eq_none hchildren]
      constructor
      · rw [hleaves]
        exact hkept
      · rw [hgroups children hchildren]
        exact hempties
    · rw [leftOver?_eq_some (Or.inr hnone)]
      constructor
      · simpa [hleaves] using hkept
      · simpa [hgroups _ hnone, hgroups _ hchildren] using hempties

theorem restrict?_leaves (p : Predicate) : Leaves table p (restrict? table p) := by
  induction p with
  | leaf l =>
    rw [restrict?]
    rcases l.restrict?_cases table with ⟨hkeep, k, hk, hkept⟩ | ⟨hkeep, hnone⟩
    · rw [hk]
      constructor
      · simpa [leaves, hkeep] using hkept
      · simp [emptyGroups]
    · rw [hnone]
      constructor
      · simp [leaves, hkeep]
      · simp [emptyGroups]
  | all children ih =>
    rw [restrict?]
    exact group_leaves (fun cs => by rw [leaves, leavesEach_eq_flatMap]) (by simp [emptyGroups])
      (fun _ => emptyGroups_all) ih
  | any children ih =>
    rw [restrict?]
    exact group_leaves (fun cs => by rw [leaves, leavesEach_eq_flatMap]) (by simp [emptyGroups])
      (fun _ => emptyGroups_any) ih
  | not child ih =>
    rw [restrict?]
    cases hchild : restrict? table child with
    | none =>
      rw [hchild] at ih
      exact ⟨by simpa [leaves] using ih.kept, by simpa [emptyGroups] using ih.groups⟩
    | some kept =>
      rw [hchild] at ih
      exact ⟨by simpa [leaves] using ih.kept, by simpa [emptyGroups] using ih.groups⟩

/-- Nothing is left exactly of a predicate with nothing to keep. -/
theorem Leaves.eq_none_iff {p : Predicate} {left : Option Predicate} (h : Leaves table p left) :
    left = none ↔ (∀ l ∈ p.leaves, ¬ l.Keepable table) ∧ p.emptyGroups = [] := by
  obtain ⟨hkept, hgroups⟩ := h
  cases left with
  | none =>
    have hnone : p.leaves.filter (Leaf.Keepable table ·) = [] := List.forall₂_nil_right_iff.mp hkept
    simpa [← hgroups] using hnone
  | some q =>
    simp only [reduceCtorEq, false_iff, not_and]
    intro hleaves hempty
    have hfilter : p.leaves.filter (Leaf.Keepable table ·) = [] := by simpa using hleaves
    rw [hfilter, List.forall₂_nil_left_iff] at hkept
    rw [hempty] at hgroups
    rcases q.leaves_or_emptyGroups with hne | hne
    · exact hne (by simpa using hkept)
    · exact hne (by simpa using hgroups)

theorem column_of_keepable {l : Leaf} (h : l.Keepable table) : l.field.column ∈ table.filters.keys := by
  obtain ⟨kind, hkind, -⟩ := h
  have hlookup : table.filters.lookup l.field.column = some kind := hkind
  obtain ⟨before, after, hsplit, -⟩ := List.lookup_eq_some_iff.mp hlookup
  rw [hsplit]
  simp [Keyed.keys]

/-- **A table is asked what its list of columns lets through, no more and no less.**  The
    leaves that are left are the keepable ones, in their order and each asking what it
    asked, with its values in the type of its column; the empty groups are those that
    were written empty.  So nothing is left exactly if there was nothing to keep, and a
    statement has no words but those of the language and listed columns. -/
theorem restrict?_exact (table : Table) (p : Predicate) :
    List.Forall₂ (Leaf.KeptAs table) (p.leaves.filter (Leaf.Keepable table ·))
        ((p.restrict? table).toList.flatMap leaves) ∧
      (p.restrict? table).toList.flatMap emptyGroups = p.emptyGroups ∧
      (p.restrict? table = none ↔
        (∀ l ∈ p.leaves, ¬ l.Keepable table) ∧ p.emptyGroups = []) ∧
      ∀ d letters, .word letters ∈ lex d (compile d (p.restrict? table)).sql.toList →
        String.ofList letters ∈ Fragment.vocabulary ∨
          String.ofList letters ∈ table.filters.keys := by
  have hleaves : Leaves table p (p.restrict? table) := p.restrict?_leaves
  refine ⟨hleaves.kept, hleaves.groups, hleaves.eq_none_iff, ?_⟩
  intro d
  refine (Predicate.compile_words ?_).words
  intro k hk
  obtain ⟨l, hl, hkept⟩ := exists_of_forall₂_of_mem hleaves.kept hk
  have hkeep : l.Keepable table := by simpa using (List.mem_filter.mp hl).2
  rw [hkept.field]
  exact column_of_keepable hkeep

end Predicate

end KnowledgeSearch
