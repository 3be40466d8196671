/-
  KnowledgeSearch/Proofs/Sql/Condition.lean
  =========================================
  **Written conditions and their placeholders.**

  Every condition that a predicate is written as is clean: names of columns and keys
  are identifiers, everything else is bound or fixed.  So its placeholders and its
  parameters agree wherever it is written (`pushPredicate_placeholders`).

  The texts of operands are taken apart here once, into names, quoted texts and signs,
  both for this file and for the one that reads conditions back.
-/
import KnowledgeSearch.Proofs.Filter.Predicate
import KnowledgeSearch.Proofs.Sql.Placeholder
import KnowledgeSearch.Sql.Statement

namespace KnowledgeSearch

open Text (isIdentifierPart isIdentifier)

/-! ### What all written conditions have in common -/

namespace Outcome

variable {α : Type} {c : Connectives α} {outcomes : List (Outcome α)} {a : α}

theorem condition?_eq_some {outcome : Outcome α} :
    outcome.condition? = some a ↔ outcome = .condition a := by
  cases outcome <;> simp [condition?]

/-- What a conjunction is, if it is a condition. -/
theorem conjoin_eq_condition (h : conjoin c outcomes = .condition a) :
    a = c.never ∨
      outcomes.filterMap condition? ≠ [] ∧ a = c.all (outcomes.filterMap condition?) := by
  unfold conjoin at h
  split at h
  · injection h with h
    exact Or.inl h.symm
  · split at h
    · split at h <;> cases h
    case _ hsome =>
      injection h with h
      exact Or.inr ⟨hsome, h.symm⟩

/-- What a disjunction is, if it is a condition. -/
theorem disjoin_eq_condition (h : disjoin c outcomes = .condition a) :
    a = c.never ∨
      outcomes.filterMap condition? ≠ [] ∧ a = c.any (outcomes.filterMap condition?) := by
  unfold disjoin at h
  split at h
  · injection h with h
    exact Or.inl h.symm
  · split at h
    · cases h
    · split at h
      · cases h
      case _ hsome =>
        injection h with h
        exact Or.inr ⟨hsome, h.symm⟩

end Outcome

/-- What holds of the conditions of leaves, and is kept by every connective, holds of
    every condition. -/
theorem Predicate.combine_condition {α : Type} {c : Connectives α}
    {leafOutcome : Leaf → Outcome α} {P : α → Prop} (never : P c.never)
    (negate : ∀ a, P a → P (c.negate a)) (all : ∀ l, (∀ a ∈ l, P a) → P (c.all l))
    (any : ∀ l, (∀ a ∈ l, P a) → P (c.any l))
    (p : Predicate) (leaf : ∀ l ∈ p.leaves, ∀ a, leafOutcome l = .condition a → P a) :
    ∀ a, combine c leafOutcome p = .condition a → P a := by
  -- the conditions among the outcomes of a group's children
  have children {ps : List Predicate}
      (leaf : ∀ l ∈ leavesEach ps, ∀ a, leafOutcome l = .condition a → P a)
      (ih : ∀ p ∈ ps, (∀ l ∈ p.leaves, ∀ a, leafOutcome l = .condition a → P a) →
        ∀ a, combine c leafOutcome p = .condition a → P a) :
      ∀ a ∈ (combineEach c leafOutcome ps).filterMap Outcome.condition?, P a := by
    intro a ha
    rw [combineEach_eq_map] at ha
    obtain ⟨outcome, houtcome, hcondition⟩ := List.mem_filterMap.mp ha
    obtain ⟨p, hp, rfl⟩ := List.mem_map.mp houtcome
    refine ih p hp (fun l hl => leaf l ?_) a (Outcome.condition?_eq_some.mp hcondition)
    rw [leavesEach_eq_flatMap]
    exact List.mem_flatMap.mpr ⟨p, hp, hl⟩
  induction p with
  | leaf l => intro a h; exact leaf l (by simp [leaves]) a h
  | all ps ih =>
    intro a h
    rcases Outcome.conjoin_eq_condition h with rfl | ⟨-, rfl⟩
    · exact never
    · exact all _ (children (by simpa [leaves] using leaf) ih)
  | any ps ih =>
    intro a h
    rcases Outcome.disjoin_eq_condition h with rfl | ⟨-, rfl⟩
    · exact never
    · exact any _ (children (by simpa [leaves] using leaf) ih)
  | not p ih =>
    have ih := ih (by simpa [leaves] using leaf)
    intro a h
    rw [combine] at h
    cases hp : combine c leafOutcome p with
    | ignored => rw [hp] at h; cases h
    | always => rw [hp] at h; injection h with h; subst h; exact never
    | condition inner =>
      rw [hp] at h
      injection h with h
      subst h
      exact negate inner (ih inner hp)

/-! ### Putting clean fragments together -/

instance (d : Dialect) (text : List Char) : Decidable (Plain d text) := by
  unfold Plain; infer_instance

theorem Plain.append_text {d : Dialect} {a b : String} (ha : Plain d a.toList)
    (hb : Plain d b.toList) : Plain d (a ++ b).toList := by
  rw [String.toList_append]
  exact ha.append hb

/-- A text that begins with a sign other than a colon can stand after a value. -/
theorem AfterValue.of_head {text : List Char} {c : Char} (h : text.head? = some c)
    (hpart : isIdentifierPart c = false) (hc : c ≠ ':') : AfterValue text := by
  cases text with
  | nil => cases h
  | cons first rest =>
    injection h with h
    subst h
    exact AfterValue.of_sign hpart hc

namespace Fragment

variable {d : Dialect} {a b : Fragment}

theorem Clean.append (ha : a.Clean d) (hb : b.Clean d) (hab : b.Follows) : (a ++ b).Clean d := by
  induction a with
  | nil => exact hb
  | cons piece a ih =>
    cases piece with
    | text text => exact ⟨ha.1, ih ha.2⟩
    | bind value =>
      refine ⟨?_, ih ha.2⟩
      cases a with
      | nil => exact hab
      | cons piece a => cases piece <;> exact ha.1

theorem Clean.bind (value : Parameter) : (Fragment.bind value).Clean d :=
  ⟨True.intro, True.intro⟩

theorem Clean.parens (ha : a.Clean d) : a.parens.Clean d := by
  have hopen : Plain d "(".toList := by cases d <;> decide
  have hclose : Plain d ")".toList := by cases d <;> decide
  have hafter : Follows [.text ")"] := AfterValue.of_head (c := ')') rfl rfl (by decide)
  exact ⟨hopen, ha.append ⟨hclose, True.intro⟩ hafter⟩

theorem Clean.join {separator : String} (hs : Plain d separator.toList)
    (hafter : AfterValue separator.toList) {parts : List Fragment}
    (h : ∀ part ∈ parts, part.Clean d) : (Fragment.join separator parts).Clean d := by
  induction parts with
  | nil => exact True.intro
  | cons first rest ih =>
    have hfirst : first.Clean d := h first List.mem_cons_self
    have hrest := ih fun part hpart => h part (List.mem_cons_of_mem _ hpart)
    cases rest with
    | nil => exact hfirst
    | cons second rest => exact hfirst.append ⟨hs, hrest⟩ hafter

theorem Clean.never : Fragment.never.Clean d := by
  have h : Plain d "1 = 0".toList := by cases d <;> decide
  exact ⟨h, True.intro⟩

end Fragment

/-! ### The texts of operands -/

namespace FieldPath

variable (field : FieldPath)

/-- A path as the `lite` dialect writes it between quotes. -/
def quotedPath : List Char := '$' :: '.' :: (String.intercalate "." field.path).toList

theorem isIdentifier_column : isIdentifier field.column = true := field.plain.1

theorem isIdentifier_key {key : String} (h : key ∈ field.path) : isIdentifier key = true :=
  List.all_eq_true.mp field.plain.2 key h

/-- Only the characters of identifiers, dots and a dollar sign stand in a quoted path. -/
theorem not_mem_quotedPath {c : Char} (hpart : isIdentifierPart c = false) (hdot : c ≠ '.')
    (hdollar : c ≠ '$') : c ∉ field.quotedPath := by
  have hkeys : ∀ keys : List String, (∀ key ∈ keys, isIdentifier key = true) →
      c ∉ (String.intercalate "." keys).toList := by
    intro keys hkeys
    rw [String.toList_intercalate]
    intro hmem
    induction keys with
    | nil => cases hmem
    | cons key keys ih =>
      have hkey := not_mem_of_isIdentifier (hkeys key List.mem_cons_self) hpart
      have hrest := ih fun k hk => hkeys k (List.mem_cons_of_mem _ hk)
      cases keys with
      | nil => exact hkey (by simpa [List.intercalate] using hmem)
      | cons second keys =>
        rw [List.map_cons, List.map_cons, List.intercalate_cons_cons, List.append_assoc] at hmem
        rcases List.mem_append.mp hmem with hmem | hmem
        · exact hkey hmem
        · rcases List.mem_append.mp hmem with hmem | hmem
          · exact hdot (by simpa using hmem)
          · exact hrest hmem
  intro hmem
  rcases List.mem_cons.mp hmem with rfl | hmem
  · exact hdollar rfl
  · rcases List.mem_cons.mp hmem with rfl | hmem
    · exact hdot rfl
    · exact hkeys field.path (fun key hkey => field.isIdentifier_key hkey) hmem

/-- A function of the `lite` dialect that takes a column and a quoted path. -/
theorem toList_pathCall (function : String) :
    (function ++ field.column ++ ", '$." ++ String.intercalate "." field.path ++ "')").toList =
      function.toList ++ (field.column.toList ++
        ([',', ' '] ++ (('\'' :: (field.quotedPath ++ ['\''])) ++ [')']))) := by
  have hopen : ", '$.".toList = [',', ' ', '\'', '$', '.'] := rfl
  have hclose : "')".toList = ['\'', ')'] := rfl
  simp only [String.toList_append, hopen, hclose, quotedPath, List.append_assoc,
    List.cons_append, List.nil_append]

end FieldPath

/-- The arrow before a key. -/
def Dialect.arrow (asText last : Bool) : String := if asText && last then "->>" else "->"

/-- A key behind its arrow, and the keys after it. -/
theorem Dialect.toList_arrows (asText : Bool) (key : String) (rest : List String) :
    (Dialect.arrows asText (key :: rest)).toList =
      (Dialect.arrow asText rest.isEmpty).toList ++
        (('\'' :: (key.toList ++ ['\''])) ++ (Dialect.arrows asText rest).toList) := by
  have hquote : "'".toList = ['\''] := rfl
  cases rest with
  | nil =>
    have hempty : "".toList = [] := rfl
    simp only [Dialect.arrows, Dialect.arrow, String.toList_append, hquote, hempty,
      List.isEmpty_nil, Bool.and_true, List.append_assoc, List.cons_append, List.nil_append]
  | cons second rest =>
    simp only [Dialect.arrows, Dialect.arrow, String.toList_append, hquote, List.isEmpty_cons,
      Bool.and_false, Bool.false_eq_true, if_false, List.append_assoc, List.cons_append,
      List.nil_append]

/-! ### Operands are plain -/

section Operands

variable (d : Dialect) (field : FieldPath)

theorem Plain.arrows (asText : Bool) {keys : List String}
    (h : ∀ key ∈ keys, isIdentifier key = true) : Plain d (Dialect.arrows asText keys).toList := by
  induction keys with
  | nil =>
    have hempty : Plain d [] := by cases d <;> decide
    exact hempty
  | cons key keys ih =>
    have hkey := h key List.mem_cons_self
    have hquoted := Plain.quoted (not_mem_of_isIdentifier hkey (isIdentifierPart_mark d))
      (not_mem_of_isIdentifier hkey rfl)
    have harrow : Plain d (Dialect.arrow asText keys.isEmpty).toList := by
      unfold Dialect.arrow
      split <;> cases d <;> decide
    rw [Dialect.toList_arrows]
    exact harrow.append (hquoted.append (ih fun k hk => h k (List.mem_cons_of_mem _ hk)))

/-- A function that takes a column and a quoted path; the dollar sign of the path marks
    no placeholder in the `lite` dialect. -/
theorem Plain.pathCall (function : String) (h : Plain .lite function.toList) :
    Plain .lite (function ++ field.column ++ ", '$." ++ String.intercalate "." field.path ++
      "')").toList := by
  have hquoted : Plain .lite ('\'' :: (field.quotedPath ++ ['\''])) :=
    Plain.quoted (field.not_mem_quotedPath rfl (by decide) (by decide))
      (field.not_mem_quotedPath rfl (by decide) (by decide))
  have hcomma : Plain .lite [',', ' '] := by decide
  have hclose : Plain .lite [')'] := by decide
  rw [FieldPath.toList_pathCall]
  exact h.append ((Plain.name field.isIdentifier_column).append
    (hcomma.append (hquoted.append hclose)))

theorem Plain.jsonExtract (asText : Bool) :
    Plain d (d.jsonExtract field.column field.path asText).toList := by
  cases d with
  | lite =>
    have hcall := Plain.pathCall field "json_extract(" (by decide)
    have hopen : Plain .lite "CAST(".toList := by decide
    have hclose : Plain .lite " AS TEXT)".toList := by decide
    unfold Dialect.jsonExtract
    cases asText with
    | false => exact hcall
    | true => exact (hopen.append_text hcall).append_text hclose
  | postgres =>
    have harrows := Plain.arrows .postgres asText fun key hkey => field.isIdentifier_key hkey
    exact (Plain.name field.isIdentifier_column).append_text harrows

theorem Plain.operand : Plain d (field.operand d).toList := by
  unfold FieldPath.operand
  split
  · exact Plain.jsonExtract d field true
  · exact Plain.name field.isIdentifier_column

theorem Plain.jsonOperand : Plain d (field.jsonOperand d).toList := by
  unfold FieldPath.jsonOperand
  split
  · exact Plain.jsonExtract d field false
  · exact Plain.name field.isIdentifier_column

theorem Plain.jsonKeyPresent : Plain d (d.jsonKeyPresent field.column field.path).toList := by
  cases d with
  | lite =>
    have hcall := Plain.pathCall field "json_type(" (by decide)
    unfold Dialect.jsonKeyPresent
    have hsplit : "') IS NOT NULL" = "')" ++ " IS NOT NULL" := rfl
    have htest : Plain .lite " IS NOT NULL".toList := by decide
    simp only [hsplit, ← String.append_assoc]
    exact hcall.append_text htest
  | postgres =>
    have htest : Plain .postgres " IS NOT NULL".toList := by decide
    exact (Plain.jsonExtract .postgres field false).append_text htest

end Operands

/-! ### Conditions of leaves are clean -/

namespace FieldPath

variable (field : FieldPath) (d : Dialect)

theorem clean_comparisonCondition (comparison : Comparison) (value : Scalar) :
    (field.comparisonCondition d comparison value).Clean d := by
  have hoperand := Plain.operand d field
  have hblank : Plain d " ".toList := by cases d <;> decide
  have hsign : Plain d comparison.sign.toList := by cases comparison <;> cases d <;> decide
  unfold comparisonCondition
  dsimp only
  split
  · have htest : Plain d (if comparison = .ne then " IS NOT NULL" else " IS NULL").toList := by
      split <;> cases d <;> decide
    exact ⟨hoperand.append_text htest, True.intro⟩
  · split
    · cases d with
      | lite =>
        have hopen : Plain .lite "LOWER(".toList := by decide
        have hmiddle : Plain .lite ") LIKE LOWER(".toList := by decide
        have hclose : Plain .lite ")".toList := by decide
        have hafter : Fragment.Follows [.text ")"] :=
          AfterValue.of_head (c := ')') rfl rfl (by decide)
        exact ⟨(hopen.append_text hoperand).append_text hmiddle, hafter, hclose, True.intro⟩
      | postgres =>
        have hilike : Plain .postgres " ILIKE ".toList := by decide
        exact ⟨hoperand.append_text hilike, Fragment.Clean.bind _⟩
    · split
      · have hnumeric : Plain d (d.numeric (field.operand d)).toList := by
          cases d with
          | lite =>
            have hopen : Plain .lite "CAST(".toList := by decide
            have hclose : Plain .lite " AS REAL)".toList := by decide
            exact (hopen.append_text hoperand).append_text hclose
          | postgres =>
            have hopen : Plain .postgres "(".toList := by decide
            have hclose : Plain .postgres ")::double precision".toList := by decide
            exact (hopen.append_text hoperand).append_text hclose
        exact ⟨((hnumeric.append_text hblank).append_text hsign).append_text hblank,
          Fragment.Clean.bind _⟩
      · exact ⟨((hoperand.append_text hblank).append_text hsign).append_text hblank,
          Fragment.Clean.bind _⟩

def nullTest (negated : Bool) : Fragment :=
  [.text (field.operand d ++ if negated then " IS NOT NULL" else " IS NULL")]

/-- Membership in a list of values that are not null. -/
def listed (negated : Bool) (present : List Scalar) : Fragment :=
  .text (field.operand d ++ if negated then " NOT IN (" else " IN (") ::
    (Fragment.join ", " (present.map fun value => .bind (field.parameter value)) ++ [.text ")"])

/-- A list is written as a condition that never holds, as values, as null, or as both. -/
theorem membershipOutcome_cases {motive : Fragment → Prop} {negated : Bool} {values : List Scalar}
    {f : Fragment} (h : field.membershipOutcome d negated values = .condition f)
    (never : motive Fragment.never) (listed : ∀ present, motive (field.listed d negated present))
    (null : motive (field.nullTest d negated))
    (both : ∀ present, motive (Fragment.parens (field.listed d negated present ++
      .text (if negated then " AND " else " OR ") :: field.nullTest d negated))) : motive f := by
  unfold membershipOutcome at h
  dsimp only at h
  split at h
  · cases negated with
    | true => cases h
    | false =>
      cases h
      exact never
  · split at h
    · cases h
      exact listed _
    · split at h
      · cases h
        exact null
      · cases h
        exact both _

theorem clean_membershipOutcome (negated : Bool) (values : List Scalar) (f : Fragment)
    (h : field.membershipOutcome d negated values = .condition f) : f.Clean d := by
  have hoperand := Plain.operand d field
  have hin : Plain d (if negated then " NOT IN (" else " IN (").toList := by
    split <;> cases d <;> decide
  have hnull : Plain d (if negated then " IS NOT NULL" else " IS NULL").toList := by
    split <;> cases d <;> decide
  have hor : Plain d (if negated then " AND " else " OR ").toList := by
    split <;> cases d <;> decide
  have hclose : Plain d ")".toList := by cases d <;> decide
  have hcomma : Plain d ", ".toList := by cases d <;> decide
  have hafterList : Fragment.Follows [.text ")"] :=
    AfterValue.of_head (c := ')') rfl rfl (by decide)
  have hafterTest : Fragment.Follows (.text (if negated then " AND " else " OR ") ::
      field.nullTest d negated) := by
    cases negated <;> exact AfterValue.of_head (c := ' ') rfl rfl (by decide)
  have hvalues (present : List Scalar) : (Fragment.join ", "
      (present.map fun value => Fragment.bind (field.parameter value))).Clean d := by
    apply Fragment.Clean.join hcomma (AfterValue.of_head (c := ',') rfl rfl (by decide))
    intro part hpart
    obtain ⟨value, -, rfl⟩ := List.mem_map.mp hpart
    exact Fragment.Clean.bind _
  have hlisted (present : List Scalar) : (field.listed d negated present).Clean d :=
    ⟨hoperand.append_text hin, (hvalues present).append ⟨hclose, True.intro⟩ hafterList⟩
  have htest : (field.nullTest d negated).Clean d := ⟨hoperand.append_text hnull, True.intro⟩
  exact field.membershipOutcome_cases d h Fragment.Clean.never hlisted htest fun present =>
    Fragment.Clean.parens ((hlisted present).append ⟨hor, htest⟩ hafterTest)

theorem clean_presenceCondition (expected : Bool) :
    (field.presenceCondition d expected).Clean d := by
  have hkey := Plain.jsonKeyPresent d field
  have hopen : Plain d "NOT (".toList := by cases d <;> decide
  have hclose : Plain d ")".toList := by cases d <;> decide
  have htest : Plain d (if expected then " IS NOT NULL" else " IS NULL").toList := by
    split <;> cases d <;> decide
  unfold presenceCondition
  dsimp only
  split
  · split
    · exact ⟨hkey, True.intro⟩
    · exact ⟨(hopen.append_text hkey).append_text hclose, True.intro⟩
  · exact ⟨(Plain.name field.isIdentifier_column).append_text htest, True.intro⟩

end FieldPath

theorem Test.clean_outcome (field : FieldPath) (d : Dialect) (test : Test) (f : Fragment)
    (h : test.outcome field d = .condition f) : f.Clean d := by
  have hoperand := Plain.jsonOperand d field
  have hcontains : Plain d " @> ".toList := by cases d <;> decide
  have hcontained : Plain d " <@ ".toList := by cases d <;> decide
  have hopen : Plain d "jsonb_path_exists(".toList := by cases d <;> decide
  have hcomma : Plain d ", ".toList := by cases d <;> decide
  have hcast : Plain d "::jsonpath)".toList := by cases d <;> decide
  have hafter : Fragment.Follows [.text "::jsonpath)"] := by
    refine ⟨by decide, rfl, ?_⟩
    intro more hprefix
    have hdistinct : "::jsonb".toList.isPrefixOf ("::jsonpath)".toList ++ more) = false := rfl
    rw [List.isPrefixOf_iff_prefix.mpr hprefix] at hdistinct
    cases hdistinct
  unfold Test.outcome at h
  split at h
  · cases h
  · cases test with
    | compare comparison value =>
      injection h with h
      subst h
      exact field.clean_comparisonCondition d comparison value
    | membership negated values => exact field.clean_membershipOutcome d negated values f h
    | presence expected =>
      injection h with h
      subst h
      exact field.clean_presenceCondition d expected
    | contains value =>
      injection h with h
      subst h
      exact ⟨hoperand.append_text hcontains, Fragment.Clean.bind _⟩
    | containedBy value =>
      injection h with h
      subst h
      exact ⟨hoperand.append_text hcontained, Fragment.Clean.bind _⟩
    | pathExists path =>
      injection h with h
      subst h
      exact ⟨(hopen.append_text hoperand).append_text hcomma, hafter, hcast, True.intro⟩

/-! ### Conditions of predicates -/

theorem Predicate.clean_outcome (d : Dialect) (p : Predicate) (f : Fragment)
    (h : p.outcome d = .condition f) : f.Clean d := by
  have hand : Plain d " AND ".toList := by cases d <;> decide
  have hor : Plain d " OR ".toList := by cases d <;> decide
  have hnot : Plain d "NOT (".toList := by cases d <;> decide
  have hclose : Plain d ")".toList := by cases d <;> decide
  have hafter : Fragment.Follows [.text ")"] :=
    AfterValue.of_head (c := ')') rfl rfl (by decide)
  have hparens (l : List Fragment) (hl : ∀ a ∈ l, a.Clean d) :
      ∀ part ∈ l.map Fragment.parens, part.Clean d := by
    intro part hpart
    obtain ⟨a, ha, rfl⟩ := List.mem_map.mp hpart
    exact (hl a ha).parens
  refine Predicate.combine_condition (P := Fragment.Clean d) Fragment.Clean.never ?_ ?_ ?_ p ?_ f h
  · intro a ha
    exact ⟨hnot, ha.append ⟨hclose, True.intro⟩ hafter⟩
  · intro l hl
    exact Fragment.Clean.join hand (AfterValue.of_head (c := ' ') rfl rfl (by decide))
      (hparens l hl)
  · intro l hl
    exact Fragment.Clean.join hor (AfterValue.of_head (c := ' ') rfl rfl (by decide))
      (hparens l hl)
  · intro l _ a ha
    exact Test.clean_outcome l.field d l.test a ha

theorem Predicate.clean_condition? {d : Dialect} {p : Option Predicate} {f : Fragment}
    (h : Predicate.condition? d p = some f) : f.Clean d := by
  obtain ⟨p, -, hp⟩ := Option.bind_eq_some_iff.mp h
  exact p.clean_outcome d f (Outcome.condition?_eq_some.mp hp)

/-- **Placeholders and parameters agree wherever a predicate is written.**  Whatever a
    statement holds already, writing a predicate appends a text and values such that
    the placeholders of the text are as many as the values and stand for them in turn.
    In the `lite` dialect they are question marks, and no other question mark is in the
    text; in the `postgres` dialect their numbers go on from those that the statement
    holds, a cast to JSON follows exactly those that stand for JSON values, and no other
    dollar sign with a number is in the text. -/
theorem Statement.pushPredicate_placeholders (s : Statement) (p : Predicate) :
    ∃ (text : String) (values : List Parameter),
      (s.pushPredicate p).2 =
        { s with sql := s.sql ++ text, params := s.params ++ values } ∧
      standFor (s.params ++ values) s.params.length (places (lex s.dialect text.toList)) =
        values.map some ∧
      match s.dialect with
      | .lite =>
        places (lex .lite text.toList) = List.replicate values.length none ∧
          text.toList.count '?' = values.length
      | .postgres =>
        places (lex .postgres text.toList) =
            (List.range' (s.params.length + 1) values.length).map some ∧
          numberedMarks text.toList =
            (values.zipIdx (s.params.length + 1)).map fun entry => (entry.2, entry.1.isJson) := by
  -- a predicate that comes to no condition is written as the empty fragment
  have key : ∃ f : Fragment, f.Clean s.dialect ∧ (s.pushPredicate p).2 = s.append f := by
    unfold Statement.pushPredicate
    cases h : (p.outcome s.dialect).condition? with
    | none =>
      refine ⟨[], True.intro, ?_⟩
      simp [Statement.append, Fragment.render, Fragment.params]
    | some f => exact ⟨f, p.clean_outcome s.dialect f (Outcome.condition?_eq_some.mp h), rfl⟩
  obtain ⟨f, hclean, hpush⟩ := key
  have hplaces := (hclean.spells s.params.length).2
  have hstand := standFor_ordinals s.dialect s.params f.params []
  rw [List.append_nil] at hstand
  refine ⟨f.render s.dialect (s.params.length + 1), f.params, hpush, ?_, ?_⟩
  · rw [hplaces, hstand]
  · cases hd : s.dialect with
    | lite =>
      rw [hd] at hclean hplaces
      exact ⟨hplaces.trans (Dialect.ordinals_lite _ _), hclean.count_mark _⟩
    | postgres =>
      rw [hd] at hclean hplaces
      exact ⟨hplaces.trans (Dialect.ordinals_postgres _ _), hclean.numberedMarks _⟩

end KnowledgeSearch
