/-
  KnowledgeSearch/Proofs/Sql/Word.lean
  ====================================
  **The words of written conditions.**

  Outside quotes, a condition has words of two kinds: the words of the language, of
  which there are few and always the same, and columns.  Keys of a path stand in
  quotes and values are bound, so a filter puts nothing else into a statement: every
  word of a condition is one of `Fragment.vocabulary` or the column of one of its
  leaves (`Predicate.compile_words`).
-/
import KnowledgeSearch.Proofs.Sql.Comparison

namespace KnowledgeSearch

open Text (isIdentifierPart isIdentifier)

/-- The words of the language that conditions use. -/
def Fragment.vocabulary : List String :=
  ["NOT", "AND", "OR", "IS", "NULL", "IN", "LIKE", "ILIKE", "LOWER", "CAST", "AS", "TEXT", "REAL",
    "double", "precision", "json_extract", "json_type", "jsonb", "jsonb_path_exists", "jsonpath",
    "0", "1"]

/-- Whether a token is no word or a word of the language. -/
def Token.isOfLanguage {α : Type} : Token α → Bool
  | .word letters => (Fragment.vocabulary.map String.toList).contains letters
  | _ => true

instance : DecidablePred Apart
  | [] => isTrue trivial
  | c :: _ => inferInstanceAs (Decidable (isIdentifierPart c = false))

/-- Whether a value is an embedding; no condition binds one. -/
def Parameter.isVector : Parameter → Bool
  | .vector _ => true
  | _ => false

/-! ### Texts -/

/-- A text that leaves no quotes open and whose words are the language's or among some
    names. -/
structure Says (d : Dialect) (names : List String) (text : List Char) : Prop where
  closed : (scan d .idle text).2.isQuoted = false
  words : ∀ letters, .word letters ∈ lex d text →
    String.ofList letters ∈ Fragment.vocabulary ∨ String.ofList letters ∈ names

/-- A text after which no word goes on. -/
def Over (d : Dialect) (text : List Char) : Prop := (scan d .idle text).2 = .idle

section Says

variable {d : Dialect} {names : List String} {a b : List Char} {tokens : List WrittenToken}

theorem Says.of_spells (h : Spells d a tokens) (hwords : ∀ letters, .word letters ∈ tokens →
    String.ofList letters ∈ Fragment.vocabulary ∨ String.ofList letters ∈ names) :
    Says d names a := by
  constructor
  · exact h.1
  · rw [h.2]
    exact hwords

theorem Over.completes (h : Over d a) : Completes d a (lex d a) := by
  have hidle : (scan d .idle a).2 = .idle := h
  simp [Completes, lex, Prod.ext_iff, hidle, Mode.flush]

/-- Two texts that meet apart say what both of them say. -/
theorem Says.append (ha : Says d names a) (hb : Says d names b) (hab : Over d a ∨ Apart b) :
    Says d names (a ++ b) := by
  have hread : Spells d (a ++ b) (lex d a ++ lex d b) := by
    rcases hab with hover | hapart
    · exact hover.completes.append_spells ⟨hb.closed, rfl⟩
    · exact Spells.append ⟨ha.closed, rfl⟩ ⟨hb.closed, rfl⟩ hapart
  refine Says.of_spells hread ?_
  intro letters hmem
  rcases List.mem_append.mp hmem with hmem | hmem
  · exact ha.words letters hmem
  · exact hb.words letters hmem

theorem Over.append (ha : Over d a) (hb : Over d b) : Over d (a ++ b) := by
  have hidle : (scan d .idle a).2 = .idle := ha
  simp only [Over, scan_append, hidle]
  exact hb

/-- A fixed text says words of the language. -/
theorem Says.fixed (hclosed : (scan d .idle a).2.isQuoted = false)
    (h : (lex d a).all Token.isOfLanguage = true) : Says d names a := by
  refine ⟨hclosed, ?_⟩
  intro letters hmem
  have hletters := List.all_eq_true.mp h _ hmem
  simp only [Token.isOfLanguage, List.contains_eq_mem, decide_eq_true_eq, List.mem_map] at hletters
  obtain ⟨word, hword, rfl⟩ := hletters
  rw [String.ofList_toList]
  exact Or.inl hword

theorem Says.name {name : String} (h : isIdentifier name = true) (hname : name ∈ names) :
    Says d names name.toList := by
  refine Says.of_spells (Spells.name h) ?_
  intro letters hmem
  simp only [List.mem_singleton, Token.word.injEq] at hmem
  rw [hmem, String.ofList_toList]
  exact Or.inr hname

/-- What stands in quotes is not said. -/
theorem Says.quoted {text : List Char} (h : '\'' ∉ text) :
    Says d names ('\'' :: (text ++ ['\''])) := by
  refine Says.of_spells (Completes.quoted h).spells ?_
  intro letters hmem
  simp at hmem

theorem Over.quoted {text : List Char} (h : '\'' ∉ text) : Over d ('\'' :: (text ++ ['\''])) := by
  have hread : scan d .idle ('\'' :: (text ++ ['\''])) = ([.quoted text], .idle) :=
    Completes.quoted h
  rw [Over, hread]

end Says

/-- A fixed text between two others that it keeps apart. -/
theorem Says.around {d : Dialect} {names : List String} {before inner after : String}
    (hbefore : Says d names before.toList) (hover : Over d before.toList)
    (h : Says d names inner.toList) (hafter : Says d names after.toList)
    (hapart : Apart after.toList) : Says d names (before ++ inner ++ after).toList := by
  rw [String.toList_append, String.toList_append]
  exact (hbefore.append h (Or.inl hover)).append hafter (Or.inr hapart)

theorem Says.behind {d : Dialect} {names : List String} {inner after : String}
    (h : Says d names inner.toList) (hafter : Says d names after.toList)
    (hapart : Apart after.toList) : Says d names (inner ++ after).toList := by
  rw [String.toList_append]
  exact h.append hafter (Or.inr hapart)

/-- A text of the language that keeps what stands before it apart from what stands
    behind it. -/
structure Glue (d : Dialect) (names : List String) (text : List Char) : Prop where
  spoken : Says d names text
  ended : Over d text
  apart : Apart text
  nonempty : text ≠ []

theorem Glue.over_behind {d : Dialect} {names : List String} {a b : List Char}
    (h : Glue d names b) (ha : Says d names a) : Over d (a ++ b) := by
  have hread : Completes d (a ++ b) (lex d a ++ lex d b) :=
    Spells.append_completes ⟨ha.closed, rfl⟩ h.ended.completes h.apart h.nonempty
  have hscan : scan d .idle (a ++ b) = (lex d a ++ lex d b, .idle) := hread
  rw [Over, hscan]

/-! ### Operands -/

section Operands

variable {d : Dialect} {names : List String} {field : FieldPath}

theorem Says.arrows (asText : Bool) {keys : List String}
    (h : ∀ key ∈ keys, isIdentifier key = true) :
    Says d names (Dialect.arrows asText keys).toList := by
  induction keys with
  | nil => exact Says.fixed rfl rfl
  | cons key keys ih =>
    have hkey := not_mem_of_isIdentifier (h key List.mem_cons_self) (c := '\'') rfl
    have harrow : Says d names (Dialect.arrow asText keys.isEmpty).toList ∧
        Over d (Dialect.arrow asText keys.isEmpty).toList := by
      unfold Dialect.arrow
      split <;> cases d <;> exact ⟨Says.fixed rfl rfl, rfl⟩
    rw [Dialect.toList_arrows]
    exact harrow.1.append ((Says.quoted hkey).append (ih fun k hk => h k (List.mem_cons_of_mem _ hk))
      (Or.inl (Over.quoted hkey))) (Or.inl harrow.2)

theorem Says.pathCall (function : String) (hcolumn : field.column ∈ names)
    (h : Says .lite names function.toList) (hover : Over .lite function.toList) :
    Says .lite names (function ++ field.column ++ ", '$." ++ String.intercalate "." field.path ++
      "')").toList := by
  have hpath : '\'' ∉ field.quotedPath := field.not_mem_quotedPath rfl (by decide) (by decide)
  have hcomma : Says .lite names [',', ' '] := Says.fixed rfl rfl
  have hclose : Says .lite names [')'] := Says.fixed rfl rfl
  have hquoted := (Says.quoted hpath).append hclose (Or.inl (Over.quoted hpath))
  have hname := Says.name (d := .lite) field.isIdentifier_column hcolumn
  rw [FieldPath.toList_pathCall]
  exact h.append (hname.append (hcomma.append hquoted (Or.inl rfl)) (Or.inr rfl)) (Or.inl hover)

theorem Says.jsonExtract (hcolumn : field.column ∈ names) (asText : Bool) :
    Says d names (d.jsonExtract field.column field.path asText).toList := by
  cases d with
  | lite =>
    have hcall := Says.pathCall "json_extract(" hcolumn (Says.fixed rfl rfl) rfl
    unfold Dialect.jsonExtract
    cases asText with
    | false => exact hcall
    | true => exact Says.around (Says.fixed rfl rfl) rfl hcall (Says.fixed rfl rfl) rfl
  | postgres =>
    have harrows : Says .postgres names (Dialect.arrows asText field.path).toList :=
      Says.arrows asText fun key hkey => field.isIdentifier_key hkey
    have hapart : Apart (Dialect.arrows asText field.path).toList := by
      rcases field.path with _ | ⟨key, keys⟩
      · trivial
      · rw [Dialect.toList_arrows]
        unfold Dialect.arrow
        split <;> rfl
    exact (Says.name field.isIdentifier_column hcolumn).behind harrows hapart

theorem Says.operand (hcolumn : field.column ∈ names) : Says d names (field.operand d).toList := by
  unfold FieldPath.operand
  split
  · exact Says.jsonExtract hcolumn true
  · exact Says.name field.isIdentifier_column hcolumn

theorem Says.jsonOperand (hcolumn : field.column ∈ names) :
    Says d names (field.jsonOperand d).toList := by
  unfold FieldPath.jsonOperand
  split
  · exact Says.jsonExtract hcolumn false
  · exact Says.name field.isIdentifier_column hcolumn

theorem Says.jsonKeyPresent (hcolumn : field.column ∈ names) :
    Says d names (d.jsonKeyPresent field.column field.path).toList := by
  cases d with
  | lite =>
    have hcall := Says.pathCall "json_type(" hcolumn (Says.fixed rfl rfl) rfl
    have hsplit : "') IS NOT NULL" = "')" ++ " IS NOT NULL" := rfl
    unfold Dialect.jsonKeyPresent
    simp only [hsplit, ← String.append_assoc]
    exact hcall.behind (Says.fixed rfl rfl) rfl
  | postgres =>
    exact (Says.jsonExtract (d := .postgres) hcolumn false).behind (Says.fixed rfl rfl) rfl

theorem Says.numeric {operand : String} (h : Says d names operand.toList) :
    Says d names (d.numeric operand).toList := by
  cases d with
  | lite =>
    have hclose : Says .lite names " AS REAL)".toList := Says.fixed rfl rfl
    exact Says.around (Says.fixed rfl rfl) rfl h hclose rfl
  | postgres =>
    have hclose : Says .postgres names ")::double precision".toList := Says.fixed rfl rfl
    have hapart : Apart ")::double precision".toList := by decide
    exact @Says.around .postgres names "(" operand ")::double precision" (Says.fixed rfl rfl) rfl h
      hclose hapart

end Operands

/-! ### Fragments -/

namespace Fragment

variable {d : Dialect} {names : List String} {a b : Fragment} {sql : String}

/-- A fragment whose text says no more than some names, from any ordinal on. -/
def Tells (d : Dialect) (names : List String) (fragment : Fragment) : Prop :=
  ∀ k, Says d names (fragment.render d (k + 1)).toList

theorem Tells.text (h : Says d names sql.toList) : Tells d names [.text sql] := by
  intro k
  simpa [render] using h

theorem Tells.append (ha : Tells d names a) (hb : Tells d names b) (hab : Separate d b) :
    Tells d names (a ++ b) := by
  intro k
  rw [render_append, String.toList_append, Nat.add_right_comm]
  exact (ha k).append (hb _) (Or.inr (hab _).1)

/-- A text with no word at its end does not go on with one of what follows. -/
theorem Tells.after (h : Says d names sql.toList) (hover : Over d sql.toList)
    (ha : Tells d names a) : Tells d names (.text sql :: a) := by
  intro k
  rw [render, String.toList_append]
  exact h.append (ha k) (Or.inl hover)

/-- A placeholder says nothing but the cast that its value needs. -/
theorem Tells.bind {value : Parameter} (h : value.isVector = false) :
    Tells d names [.bind value] := by
  intro k
  have hread := Spells.placeholder d k value
  have htext : Fragment.render d (k + 1) [.bind value] = d.placeholder (k + 1) value := by
    simp [render]
  rw [htext]
  refine Says.of_spells hread ?_
  have hcast : ∀ letters, .word letters ∈ (value.castTokens d : List WrittenToken) →
      letters = ['j', 's', 'o', 'n', 'b'] := by
    intro letters hmem
    cases d <;> cases value <;> simp_all [Parameter.castTokens, Parameter.isVector]
  intro letters hmem
  simp only [List.mem_cons, reduceCtorEq, false_or] at hmem
  rw [hcast letters hmem]
  exact Or.inl (by decide)

theorem Tells.parens (ha : Tells d names a) : Tells d names a.parens := by
  have hopen : Says d names "(".toList ∧ Over d "(".toList := by
    cases d <;> exact ⟨Says.fixed rfl rfl, rfl⟩
  have hclose : Tells d names [.text ")"] := by
    apply Tells.text
    cases d <;> exact Says.fixed rfl rfl
  exact Tells.after hopen.1 hopen.2 (ha.append hclose (Separate.of_head (c := ')') rfl rfl))

/-- An operand and a text of the language before the rest of a fragment. -/
theorem Tells.operand {operand : String} (h : Says d names operand.toList)
    (hsql : Glue d names sql.toList) (ha : Tells d names a) :
    Tells d names (.text (operand ++ sql) :: a) := by
  refine Tells.after (h.behind hsql.spoken hsql.apart) ?_ ha
  rw [String.toList_append]
  exact hsql.over_behind h

theorem Tells.glue (ha : Tells d names a) (hsql : Glue d names sql.toList)
    (hb : Tells d names b) : Tells d names (a ++ .text sql :: b) := by
  refine ha.append (Tells.after hsql.spoken hsql.ended hb) ?_
  intro k
  rw [render, String.toList_append]
  rcases hl : sql.toList with _ | ⟨c, rest⟩
  · exact absurd hl hsql.nonempty
  · have hapart := hsql.apart
    rw [hl] at hapart
    exact ⟨hapart, List.cons_ne_nil _ _⟩

theorem Tells.join {separator : String} (hseparator : Glue d names separator.toList)
    {parts : List Fragment} (h : ∀ part ∈ parts, Tells d names part) :
    Tells d names (Fragment.join separator parts) := by
  induction parts with
  | nil =>
    intro k
    exact Says.fixed rfl rfl
  | cons first rest ih =>
    have hfirst := h first List.mem_cons_self
    have hrest := ih fun part hpart => h part (List.mem_cons_of_mem _ hpart)
    cases rest with
    | nil => exact hfirst
    | cons second rest => exact hfirst.glue hseparator hrest

end Fragment

/-! ### Conditions of leaves -/

open Fragment (Tells)

namespace FieldPath

variable {d : Dialect} {names : List String} {field : FieldPath}

theorem isVector_parameter (field : FieldPath) (value : Scalar) :
    (field.parameter value).isVector = false := by
  unfold parameter
  split
  · split <;> rfl
  · cases value <;> rfl

theorem tells_null {operand : String} (h : Says d names operand.toList) (negated : Bool) :
    Tells d names [.text (operand ++ if negated then " IS NOT NULL" else " IS NULL")] := by
  apply Tells.text
  cases negated with
  | false => cases d <;> exact h.behind (Says.fixed rfl rfl) rfl
  | true => cases d <;> exact h.behind (Says.fixed rfl rfl) rfl

theorem tells_sign {operand : String} (h : Says d names operand.toList) (comparison : Comparison)
    {value : Parameter} (hvalue : value.isVector = false) :
    Tells d names [.text (operand ++ " " ++ comparison.sign ++ " "), .bind value] := by
  have hsign : Glue d names (" " ++ comparison.sign ++ " ").toList := by
    cases d <;> cases comparison <;> exact ⟨Says.fixed rfl rfl, rfl, rfl, by decide⟩
  have htext := Tells.operand h hsign (Tells.bind hvalue)
  rw [← String.append_assoc, ← String.append_assoc] at htext
  exact htext

theorem tells_comparison (hcolumn : field.column ∈ names) (comparison : Comparison)
    (value : Scalar) : Tells d names (field.comparisonCondition d comparison value) := by
  have hoperand := Says.operand (d := d) hcolumn
  have hvalue := field.isVector_parameter value
  unfold comparisonCondition
  dsimp only
  split
  · have hnull := tells_null hoperand (decide (comparison = .ne))
    simp only [decide_eq_true_eq] at hnull
    exact hnull
  · split
    · cases d with
      | lite =>
        have hopen : Says .lite names "LOWER(".toList := Says.fixed rfl rfl
        have hmiddle : Glue .lite names ") LIKE LOWER(".toList :=
          ⟨Says.fixed rfl rfl, rfl, rfl, by decide⟩
        have hclose : Glue .lite names ")".toList := ⟨Says.fixed rfl rfl, rfl, rfl, by decide⟩
        have hfirst : Says .lite names ("LOWER(" ++ field.operand .lite).toList := by
          rw [String.toList_append]
          exact hopen.append hoperand (Or.inl rfl)
        have hpattern : Tells .lite names [.bind (field.parameter value), .text ")"] :=
          (Tells.bind hvalue).glue hclose fun k => Says.fixed rfl rfl
        exact Tells.operand hfirst hmiddle hpattern
      | postgres =>
        have hilike : Glue .postgres names " ILIKE ".toList :=
          ⟨Says.fixed rfl rfl, rfl, rfl, by decide⟩
        exact Tells.operand hoperand hilike (Tells.bind hvalue)
    · split
      · exact tells_sign (Says.numeric hoperand) comparison (by cases value <;> rfl)
      · exact tells_sign hoperand comparison hvalue

theorem tells_listed (hcolumn : field.column ∈ names) (negated : Bool) (present : List Scalar) :
    Tells d names (field.listed d negated present) := by
  have hoperand := Says.operand (d := d) hcolumn
  have hin : Glue d names (if negated then " NOT IN (" else " IN (").toList := by
    cases negated <;> cases d <;> exact ⟨Says.fixed rfl rfl, rfl, rfl, by decide⟩
  have hcomma : Glue d names ", ".toList := by
    cases d <;> exact ⟨Says.fixed rfl rfl, rfl, rfl, by decide⟩
  have hclose : Glue d names ")".toList := by
    cases d <;> exact ⟨Says.fixed rfl rfl, rfl, rfl, by decide⟩
  have hvalues : Tells d names (Fragment.join ", "
      (present.map fun value => [.bind (field.parameter value)])) := by
    apply Tells.join hcomma
    intro part hpart
    obtain ⟨value, -, rfl⟩ := List.mem_map.mp hpart
    exact Tells.bind (field.isVector_parameter value)
  exact Tells.operand hoperand hin (hvalues.glue hclose fun k => Says.fixed rfl rfl)

theorem tells_membership (hcolumn : field.column ∈ names) (negated : Bool) (values : List Scalar)
    (f : Fragment) (h : field.membershipOutcome d negated values = .condition f) :
    Tells d names f := by
  have hlisted (present : List Scalar) := tells_listed (d := d) hcolumn negated present
  have hnull := tells_null (Says.operand (d := d) hcolumn) negated
  have hor : Glue d names (if negated then " AND " else " OR ").toList := by
    cases negated <;> cases d <;> exact ⟨Says.fixed rfl rfl, rfl, rfl, by decide⟩
  have hnever : Tells d names Fragment.never := by
    apply Tells.text
    cases d <;> exact Says.fixed rfl rfl
  exact field.membershipOutcome_cases d h hnever hlisted hnull fun present =>
    ((hlisted present).glue hor hnull).parens

theorem tells_presence (hcolumn : field.column ∈ names) (expected : Bool) :
    Tells d names (field.presenceCondition d expected) := by
  have hkey := Says.jsonKeyPresent (d := d) hcolumn
  unfold presenceCondition
  dsimp only
  split
  · cases expected with
    | true => exact Tells.text hkey
    | false =>
      have hopen : Says d names "NOT (".toList ∧ Over d "NOT (".toList := by
        cases d <;> exact ⟨Says.fixed rfl rfl, rfl⟩
      have hclose : Says d names ")".toList := by cases d <;> exact Says.fixed rfl rfl
      exact Tells.text (Says.around hopen.1 hopen.2 hkey hclose rfl)
  · have hname := Says.name (d := d) field.isIdentifier_column hcolumn
    have hnull := tells_null hname expected
    exact hnull

end FieldPath

theorem Test.tells_outcome {d : Dialect} {names : List String} {field : FieldPath}
    (hcolumn : field.column ∈ names) (test : Test) (f : Fragment)
    (h : test.outcome field d = .condition f) : Tells d names f := by
  have hoperand := Says.jsonOperand (d := d) hcolumn
  unfold Test.outcome at h
  split at h
  · cases h
  · cases test with
    | compare comparison value =>
      injection h with h
      subst h
      exact FieldPath.tells_comparison hcolumn comparison value
    | membership negated values => exact FieldPath.tells_membership hcolumn negated values f h
    | presence expected =>
      injection h with h
      subst h
      exact FieldPath.tells_presence hcolumn expected
    | contains value =>
      injection h with h
      subst h
      have hsign : Glue d names " @> ".toList := by
        cases d <;> exact ⟨Says.fixed rfl rfl, rfl, rfl, by decide⟩
      exact Tells.operand hoperand hsign (Tells.bind rfl)
    | containedBy value =>
      injection h with h
      subst h
      have hsign : Glue d names " <@ ".toList := by
        cases d <;> exact ⟨Says.fixed rfl rfl, rfl, rfl, by decide⟩
      exact Tells.operand hoperand hsign (Tells.bind rfl)
    | pathExists path =>
      injection h with h
      subst h
      have hopen : Says d names "jsonb_path_exists(".toList ∧ Over d "jsonb_path_exists(".toList := by
        cases d <;> exact ⟨Says.fixed rfl rfl, rfl⟩
      have hcomma : Glue d names ", ".toList := by
        cases d <;> exact ⟨Says.fixed rfl rfl, rfl, rfl, by decide⟩
      have hcast : Glue d names "::jsonpath)".toList := by
        cases d <;> exact ⟨Says.fixed rfl rfl, rfl, rfl, by decide⟩
      have hfirst : Says d names ("jsonb_path_exists(" ++ field.jsonOperand d).toList := by
        rw [String.toList_append]
        exact hopen.1.append hoperand (Or.inl hopen.2)
      have hvalue : Tells d names [.bind (.text path), .text "::jsonpath)"] :=
        (Tells.bind rfl).glue hcast fun k => Says.fixed rfl rfl
      exact Tells.operand hfirst hcomma hvalue

/-! ### Conditions of predicates -/

theorem Predicate.tells_outcome {d : Dialect} {names : List String} {p : Predicate}
    (hcolumns : ∀ l ∈ p.leaves, l.field.column ∈ names) (f : Fragment)
    (h : p.outcome d = .condition f) : Tells d names f := by
  have hand : Glue d names " AND ".toList := by
    cases d <;> exact ⟨Says.fixed rfl rfl, rfl, rfl, by decide⟩
  have hor : Glue d names " OR ".toList := by
    cases d <;> exact ⟨Says.fixed rfl rfl, rfl, rfl, by decide⟩
  have hnot : Says d names "NOT (".toList ∧ Over d "NOT (".toList := by
    cases d <;> exact ⟨Says.fixed rfl rfl, rfl⟩
  have hclose : Glue d names ")".toList := by
    cases d <;> exact ⟨Says.fixed rfl rfl, rfl, rfl, by decide⟩
  have hnever : Tells d names Fragment.never := by
    apply Tells.text
    cases d <;> exact Says.fixed rfl rfl
  have hparens (l : List Fragment) (hl : ∀ a ∈ l, Tells d names a) :
      ∀ part ∈ l.map Fragment.parens, Tells d names part := by
    intro part hpart
    obtain ⟨a, ha, rfl⟩ := List.mem_map.mp hpart
    exact (hl a ha).parens
  refine Predicate.combine_condition (P := Tells d names) hnever ?_ ?_ ?_ p ?_ f h
  · intro a ha
    exact Tells.after hnot.1 hnot.2 (ha.glue hclose fun k => Says.fixed rfl rfl)
  · intro l hl
    exact Tells.join hand (hparens l hl)
  · intro l hl
    exact Tells.join hor (hparens l hl)
  · intro l hl a ha
    exact Test.tells_outcome (hcolumns l hl) l.test a ha

/-- A condition says nothing but words of the language and columns of its leaves. -/
theorem Predicate.compile_words {d : Dialect} {names : List String} {p : Option Predicate}
    (hcolumns : ∀ l ∈ p.toList.flatMap leaves, l.field.column ∈ names) :
    Says d names (compile d p).sql.toList := by
  have htrivial : Tells d names Fragment.trivial := by
    apply Tells.text
    cases d <;> exact Says.fixed rfl rfl
  have htells : Tells d names ((condition? d p).getD Fragment.trivial) := by
    cases hcondition : condition? d p with
    | none => exact htrivial
    | some f =>
      obtain ⟨p, rfl, hp⟩ := Option.bind_eq_some_iff.mp hcondition
      refine Predicate.tells_outcome ?_ f (Outcome.condition?_eq_some.mp hp)
      simpa using hcolumns
  exact htells 0

end KnowledgeSearch
