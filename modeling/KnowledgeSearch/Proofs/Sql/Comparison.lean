/-
  KnowledgeSearch/Proofs/Sql/Comparison.lean
  ==========================================
  **Written comparisons are read as comparisons.**

  The texts of operands and of what is compared with them differ from dialect to dialect:
  names, arrows with quoted keys, functions, casts.  Whatever they are, where an operand
  can stand they are read as one comparison, and none of their words is taken for a
  connective (`Compares`).
-/
import KnowledgeSearch.Proofs.Sql.Condition
import KnowledgeSearch.Proofs.Sql.Spelling

namespace KnowledgeSearch

open Text (isIdentifierPart isIdentifierStart isIdentifier)

namespace Fragment

variable {d : Dialect}

/-! ### Comparisons -/

/-- A fragment that is read as a comparison, be it as its beginning. -/
def Compares (d : Dialect) (fragment : Fragment) : Prop :=
  ∃ tokens, Spelled d fragment tokens ∧ Opens tokens

section Compares

variable {a b : String} {ts : List BoundToken}

theorem Compares.text (h : Compares d [.text a]) (hb : Spelled d [.text b] ts)
    (hts : ∀ token ∈ ts, token.goesOn = true) (hsep : Separate d [.text b]) :
    Compares d [.text (a ++ b)] := by
  obtain ⟨tokens, hspelled, hopens⟩ := h
  exact ⟨tokens ++ ts, (hspelled.append hb hsep).merge, hopens.goesOn hts⟩

/-- A comparison goes on with a text and a value. -/
theorem Compares.value (h : Compares d [.text a]) (hb : Completed d [.text b] ts)
    (hts : ∀ token ∈ ts, token.goesOn = true) (hsep : Separate d [.text b])
    (value : Parameter) : Compares d [.text (a ++ b), .bind value] := by
  obtain ⟨tokens, hspelled, hopens⟩ := h
  have hread := (hspelled.append_completed hb hsep).append_spelled (Spelled.bind value)
  exact ⟨_, hread.merge, (hopens.goesOn hts).goesOn (goesOn_valueTokens d value)⟩

/-- A cast to the type that the text `b` names. -/
theorem Compares.cast {kind : List Char} (h : Compares .lite [.text a])
    (hb : Completed .lite [.text b] [.word ['A', 'S'], .word kind, .sign ')'])
    (hkind : (.word kind : BoundToken).goesOn = true) (hsep : Separate .lite [.text b]) :
    Compares .lite [.text ("CAST(" ++ a ++ b)] := by
  obtain ⟨tokens, hspelled, hopens⟩ := h
  have hopen : Completed .lite [.text "CAST("] [.word ['C', 'A', 'S', 'T'], .sign '('] :=
    Completed.text rfl rfl
  have hread := hopen.append (hspelled.append_completed hb hsep)
  have htokens : [.word ['C', 'A', 'S', 'T'], .sign '('] ++
      (tokens ++ [.word ['A', 'S'], .word kind, .sign ')']) =
      [.word ['C', 'A', 'S', 'T']] ++ bracket (tokens ++ [.word ['A', 'S'], .word kind]) := by
    simp [bracket]
  have hinside : Balanced (tokens ++ [.word ['A', 'S'], .word kind]) := by
    refine hopens.balanced.append (Balanced.of_goesOn ?_)
    intro token htoken
    simp only [List.mem_cons, List.not_mem_nil, or_false] at htoken
    rcases htoken with rfl | rfl
    · rfl
    · exact hkind
  refine ⟨_, hread.merge.merge.spelled, ?_⟩
  rw [htokens]
  exact (Opens.word rfl).bracket rfl hinside

end Compares

end Fragment

/-! ### Operands -/

open Fragment (Spelled Completed Separate Compares)

theorem isDigit_of_start {c : Char} (h : isIdentifierStart c = true) : c.isDigit = false := by
  simp only [isIdentifierStart, Bool.or_eq_true, decide_eq_true_eq] at h
  rcases h with h | rfl
  · cases hdigit : c.isDigit with
    | false => rfl
    | true =>
      have hletter : (decide (c.val ≥ 'A'.val ∧ c.val ≤ 'Z'.val) ||
          c.val ≥ 'a'.val && c.val ≤ 'z'.val) = true := h
      have hnumber : (c.val ≥ '0'.val && c.val ≤ '9'.val) = true := hdigit
      simp only [Bool.and_eq_true, Bool.or_eq_true, decide_eq_true_eq, ge_iff_le] at hletter hnumber
      grind
  · rfl

/-- A name is a word, and no number. -/
theorem Opens.name {name : String} (h : isIdentifier name = true) :
    Opens [(.word name.toList : BoundToken)] := by
  apply Opens.word
  unfold isIdentifier at h
  rcases hl : name.toList with _ | ⟨c, rest⟩
  · rw [hl] at h
    cases h
  · rw [hl] at h
    simp only [Bool.and_eq_true] at h
    simp [isDigit_of_start h.1]

theorem Fragment.Compares.name (d : Dialect) {name : String} (h : isIdentifier name = true) :
    Compares d [.text name] :=
  ⟨[.word name.toList], Spelled.text rfl (Spells.name h), Opens.name h⟩

/-- The tokens of the steps into a JSON column: arrows, each with its quoted key. -/
def Dialect.arrowTokens (asText : Bool) : List String → List BoundToken
  | [] => []
  | key :: keys =>
    (if asText && keys.isEmpty then [.sign '-', .sign '>', .sign '>']
      else [.sign '-', .sign '>']) ++ .quoted key.toList :: arrowTokens asText keys

section Arrows

variable (asText : Bool) (keys : List String)

theorem places_arrowTokens : places (Dialect.arrowTokens asText keys) = [] := by
  induction keys with
  | nil => rfl
  | cons key keys ih =>
    rw [Dialect.arrowTokens, places_append]
    split
    · exact ih
    · exact ih

/-- A comparison goes on with arrows and keys. -/
theorem goesOn_arrowTokens : ∀ token ∈ Dialect.arrowTokens asText keys, token.goesOn = true := by
  induction keys with
  | nil =>
    intro token htoken
    cases htoken
  | cons key keys ih =>
    intro token htoken
    rw [Dialect.arrowTokens, List.mem_append, List.mem_cons] at htoken
    rcases htoken with harrow | rfl | hrest
    · split at harrow
      · exact List.all_eq_true.mp rfl token harrow
      · exact List.all_eq_true.mp rfl token harrow
    · rfl
    · exact ih token hrest

theorem arrowTokens_ends : Dialect.arrowTokens asText keys = [] ∨
    ∃ before text, Dialect.arrowTokens asText keys = before ++ [.quoted text] := by
  induction keys with
  | nil => exact .inl rfl
  | cons key keys ih =>
    right
    rw [Dialect.arrowTokens]
    rcases ih with hnone | ⟨before, text, hlast⟩
    · rw [hnone]
      exact ⟨_, _, rfl⟩
    · rw [hlast, ← List.cons_append, ← List.append_assoc]
      exact ⟨_, _, rfl⟩

end Arrows

theorem Completes.arrows (d : Dialect) (asText : Bool) {keys : List String}
    (h : ∀ key ∈ keys, isIdentifier key = true) :
    Completes d (Dialect.arrows asText keys).toList
      (number d 0 (Dialect.arrowTokens asText keys)) := by
  induction keys with
  | nil => rfl
  | cons key keys ih =>
    have hread := ih fun k hk => h k (List.mem_cons_of_mem _ hk)
    have hkey := not_mem_of_isIdentifier (h key List.mem_cons_self) (c := '\'') rfl
    have hquoted : Completes d ('\'' :: (key.toList ++ ['\''])) [.quoted key.toList] :=
      Completes.quoted hkey
    rw [Dialect.toList_arrows, Dialect.arrowTokens, Dialect.arrow, number_append]
    split
    · have harrow : Completes d "->>".toList [.sign '-', .sign '>', .sign '>'] := by
        cases d <;> rfl
      exact harrow.append (hquoted.append hread)
    · have harrow : Completes d "->".toList [.sign '-', .sign '>'] := by
        cases d <;> rfl
      exact harrow.append (hquoted.append hread)

/-- A column is a word, and arrows follow it. -/
theorem FieldPath.spelled_arrows (field : FieldPath) (asText : Bool) :
    Spelled .postgres [.text (Dialect.postgres.jsonExtract field.column field.path asText)]
      (.word field.column.toList :: Dialect.arrowTokens asText field.path) := by
  have hread := Completes.arrows .postgres asText fun key hkey => field.isIdentifier_key hkey
  have hsep : Apart (Dialect.arrows asText field.path).toList := by
    rcases field.path with _ | ⟨key, keys⟩
    · trivial
    · rw [Dialect.toList_arrows]
      unfold Dialect.arrow
      split <;> rfl
  have hname : Spells .postgres field.column.toList [.word field.column.toList] :=
    Spells.name field.isIdentifier_column
  refine Spelled.text (places_arrowTokens asText field.path) ?_
  rw [Dialect.jsonExtract, String.toList_append]
  exact hname.append hread.spells hsep

/-- A function of a column and a quoted path is a word and brackets. -/
theorem FieldPath.completed_call (field : FieldPath) {function : String} {letters : List Char}
    (h : Completes .lite function.toList [.word letters, .sign '(']) :
    Completed .lite [.text (function ++ field.column ++ ", '$." ++
        String.intercalate "." field.path ++ "')")]
      ([.word letters] ++ bracket [.word field.column.toList, .sign ',',
        .quoted field.quotedPath]) := by
  have hcolumn : Spells .lite field.column.toList [.word field.column.toList] :=
    Spells.name field.isIdentifier_column
  have hcomma : Completes .lite [',', ' '] [.sign ','] := rfl
  have hpath : Completes .lite ('\'' :: (field.quotedPath ++ ['\''])) [.quoted field.quotedPath] :=
    Completes.quoted (field.not_mem_quotedPath rfl (by decide) (by decide))
  have hclose : Completes .lite [')'] [.sign ')'] := rfl
  refine Completed.text rfl ?_
  rw [FieldPath.toList_pathCall]
  exact h.append (hcolumn.append_completes (hcomma.append (hpath.append hclose)) rfl
    (List.cons_ne_nil _ _))

theorem Fragment.Compares.call (field : FieldPath) (function : String) {letters : List Char}
    (h : Completes .lite function.toList [.word letters, .sign '('])
    (hletters : letters.all Char.isDigit = false)
    (hnot : (Token.word letters : BoundToken).isWord ['n', 'o', 't'] = false) :
    Compares .lite [.text (function ++ field.column ++ ", '$." ++
      String.intercalate "." field.path ++ "')")] := by
  refine ⟨_, (field.completed_call h).spelled, (Opens.word hletters).bracket hnot ?_⟩
  exact Balanced.cons rfl rfl (Balanced.cons rfl rfl (Balanced.token rfl rfl))

section Operands

variable (d : Dialect) (field : FieldPath)

theorem Fragment.Compares.jsonExtract (asText : Bool) :
    Compares d [.text (d.jsonExtract field.column field.path asText)] := by
  cases d with
  | lite =>
    have hcall := Compares.call field "json_extract(" rfl rfl rfl
    cases asText with
    | false => exact hcall
    | true =>
      have hclose : Completed .lite [.text " AS TEXT)"]
          [.word ['A', 'S'], .word ['T', 'E', 'X', 'T'], .sign ')'] := Completed.text rfl rfl
      exact hcall.cast hclose rfl (Separate.of_head (c := ' ') rfl rfl)
  | postgres =>
    exact ⟨_, field.spelled_arrows asText,
      (Opens.name field.isIdentifier_column).goesOn (goesOn_arrowTokens asText field.path)⟩

theorem Fragment.Compares.operand : Compares d [.text (field.operand d)] := by
  unfold FieldPath.operand
  split
  · exact Compares.jsonExtract d field true
  · exact Compares.name d field.isIdentifier_column

theorem Fragment.Compares.jsonOperand : Compares d [.text (field.jsonOperand d)] := by
  unfold FieldPath.jsonOperand
  split
  · exact Compares.jsonExtract d field false
  · exact Compares.name d field.isIdentifier_column

theorem Fragment.Compares.jsonKeyPresent :
    Compares d [.text (d.jsonKeyPresent field.column field.path)] := by
  have htest (d : Dialect) : Spelled d [.text " IS NOT NULL"]
      [.word ['I', 'S'], .word ['N', 'O', 'T'], .word ['N', 'U', 'L', 'L']] := by
    cases d <;> exact Spelled.text rfl ⟨rfl, rfl⟩
  have hgo : ∀ token ∈ ([.word ['I', 'S'], .word ['N', 'O', 'T'], .word ['N', 'U', 'L', 'L']] :
      List BoundToken), token.goesOn = true := List.all_eq_true.mp rfl
  cases d with
  | lite =>
    have hcall := Compares.call field "json_type(" rfl rfl rfl
    have hsplit : "') IS NOT NULL" = "')" ++ " IS NOT NULL" := rfl
    simp only [Dialect.jsonKeyPresent, hsplit, ← String.append_assoc]
    exact hcall.text (htest .lite) hgo (Separate.of_head (c := ' ') rfl rfl)
  | postgres =>
    exact (Compares.jsonExtract .postgres field false).text (htest .postgres) hgo
      (Separate.of_head (c := ' ') rfl rfl)

end Operands

/-! ### Comparisons of leaves -/

def Comparison.signTokens : Comparison → List BoundToken
  | .eq => [.sign '=']
  | .ne => [.sign '<', .sign '>']
  | .gt => [.sign '>']
  | .gte => [.sign '>', .sign '=']
  | .lt => [.sign '<']
  | .lte => [.sign '<', .sign '=']
  | .like => [.word ['L', 'I', 'K', 'E']]
  | .ilike => [.word ['I', 'L', 'I', 'K', 'E']]

namespace FieldPath

variable (field : FieldPath) (d : Dialect)

theorem compares_null {operand : String} (h : Compares d [.text operand]) (negated : Bool) :
    Compares d [.text (operand ++ if negated then " IS NOT NULL" else " IS NULL")] := by
  cases negated with
  | false =>
    have htest : Spelled d [.text " IS NULL"] [.word ['I', 'S'], .word ['N', 'U', 'L', 'L']] := by
      cases d <;> exact Spelled.text rfl ⟨rfl, rfl⟩
    exact h.text htest (List.all_eq_true.mp rfl) (Separate.of_head (c := ' ') rfl rfl)
  | true =>
    have htest : Spelled d [.text " IS NOT NULL"]
        [.word ['I', 'S'], .word ['N', 'O', 'T'], .word ['N', 'U', 'L', 'L']] := by
      cases d <;> exact Spelled.text rfl ⟨rfl, rfl⟩
    exact h.text htest (List.all_eq_true.mp rfl) (Separate.of_head (c := ' ') rfl rfl)

theorem compares_sign {operand : String} (h : Compares d [.text operand])
    (comparison : Comparison) (value : Parameter) :
    Compares d [.text (operand ++ " " ++ comparison.sign ++ " "), .bind value] := by
  have hread : Completed d [.text (" " ++ comparison.sign ++ " ")] comparison.signTokens := by
    cases comparison <;> cases d <;> exact Completed.text rfl rfl
  have hgo : comparison.signTokens.all Token.goesOn = true := by cases comparison <;> rfl
  have hsep : Separate d [.text (" " ++ comparison.sign ++ " ")] := by
    cases comparison <;> exact Separate.of_head (c := ' ') rfl rfl
  have hvalue := h.value hread (List.all_eq_true.mp hgo) hsep value
  rw [← String.append_assoc, ← String.append_assoc] at hvalue
  exact hvalue

/-- The case of letters aside: both sides are made lower. -/
theorem compares_lower {operand : String} (h : Compares .lite [.text operand])
    (value : Parameter) :
    Compares .lite [.text ("LOWER(" ++ operand ++ ") LIKE LOWER("), .bind value, .text ")"] := by
  obtain ⟨tokens, hspelled, hopens⟩ := h
  have hopen : Completed .lite [.text "LOWER("] [.word ['L', 'O', 'W', 'E', 'R'], .sign '('] :=
    Completed.text rfl rfl
  have hmiddle : Completed .lite [.text ") LIKE LOWER("] ([.sign ')', .word ['L', 'I', 'K', 'E'],
      .word ['L', 'O', 'W', 'E', 'R']] ++ [.sign '(']) := Completed.text rfl rfl
  have hvalue := (Spelled.bind (d := .lite) value).inBrackets hmiddle
  have hread := hopen.append (hspelled.append_completed hvalue
    (Separate.of_head (c := ')') rfl rfl))
  have htokens : [.word ['L', 'O', 'W', 'E', 'R'], .sign '('] ++ (tokens ++ ([.sign ')',
        .word ['L', 'I', 'K', 'E'], .word ['L', 'O', 'W', 'E', 'R']] ++
          bracket (Fragment.valueTokens .lite value))) =
      [.word ['L', 'O', 'W', 'E', 'R']] ++ bracket tokens ++ [.word ['L', 'I', 'K', 'E'],
        .word ['L', 'O', 'W', 'E', 'R']] ++ bracket (Fragment.valueTokens .lite value) := by
    simp [bracket]
  rw [htokens] at hread
  refine ⟨_, hread.merge.merge.spelled, ?_⟩
  have hfirst : Opens ([.word ['L', 'O', 'W', 'E', 'R']] ++ bracket tokens) :=
    (Opens.word rfl).bracket rfl hopens.balanced
  refine (hfirst.goesOn (List.all_eq_true.mp rfl)).bracket ?_
    (Balanced.of_goesOn (Fragment.goesOn_valueTokens .lite value))
  exact ReadOperand.negates_of_length (by simp)

/-- A text taken as a number. -/
theorem compares_numeric (h : Compares d [.text (field.operand d)]) :
    Compares d [.text (d.numeric (field.operand d))] := by
  cases d with
  | lite =>
    have hclose : Completed .lite [.text " AS REAL)"]
        [.word ['A', 'S'], .word ['R', 'E', 'A', 'L'], .sign ')'] := Completed.text rfl rfl
    exact h.cast hclose rfl (Separate.of_head (c := ' ') rfl rfl)
  | postgres =>
    obtain ⟨tokens, hspelled, hopens⟩ := h
    have hopen : Completed .postgres [.text "("] [.sign '('] := Completed.text rfl rfl
    have hclose : Spelled .postgres [.text ")::double precision"] [.sign ')', .sign ':', .sign ':',
        .word ['d', 'o', 'u', 'b', 'l', 'e'],
        .word ['p', 'r', 'e', 'c', 'i', 's', 'i', 'o', 'n']] := Spelled.text rfl ⟨rfl, rfl⟩
    have hread := hopen.append_spelled (hspelled.append hclose
      (Separate.of_head (c := ')') rfl rfl))
    have htokens : [.sign '('] ++ (tokens ++ [.sign ')', .sign ':', .sign ':',
          .word ['d', 'o', 'u', 'b', 'l', 'e'],
          .word ['p', 'r', 'e', 'c', 'i', 's', 'i', 'o', 'n']]) =
        bracket tokens ++ [.sign ':'] ++ [.sign ':', .word ['d', 'o', 'u', 'b', 'l', 'e'],
          .word ['p', 'r', 'e', 'c', 'i', 's', 'i', 'o', 'n']] := by
      simp [bracket]
    rw [htokens] at hread
    exact ⟨_, hread.merge.merge,
      (Opens.of_bracket hopens.balanced rfl).goesOn (List.all_eq_true.mp rfl)⟩

/-- Every comparison of a field with a value is read as one. -/
theorem compares_comparison (comparison : Comparison) (value : Scalar) :
    Compares d (field.comparisonCondition d comparison value) := by
  have hoperand := Compares.operand d field
  unfold comparisonCondition
  dsimp only
  split
  · have hnull := compares_null d hoperand (decide (comparison = .ne))
    simp only [decide_eq_true_eq] at hnull
    exact hnull
  · split
    · cases d with
      | lite => exact compares_lower hoperand _
      | postgres =>
        have hilike : Completed .postgres [.text " ILIKE "] [.word ['I', 'L', 'I', 'K', 'E']] :=
          Completed.text rfl rfl
        exact hoperand.value hilike (List.all_eq_true.mp rfl) (Separate.of_head (c := ' ') rfl rfl) _
    · split
      · exact compares_sign d (field.compares_numeric d hoperand) comparison _
      · exact compares_sign d hoperand comparison _

/-- Bound values with commas between them. -/
theorem spelled_values (values : List Parameter) :
    ∃ ts, Spelled d (Fragment.join ", " (values.map Fragment.bind)) ts ∧
      ∀ token ∈ ts, token.goesOn = true := by
  have hcomma : Completed d [.text ", "] [.sign ','] := by
    cases d <;> exact Completed.text rfl rfl
  induction values with
  | nil =>
    refine ⟨[], ⟨rfl, fun k => ⟨rfl, rfl⟩⟩, ?_⟩
    intro token htoken
    cases htoken
  | cons value values ih =>
    obtain ⟨ts, hread, hgo⟩ := ih
    have hvalue := Spelled.bind (d := d) value
    have hfirst := Fragment.goesOn_valueTokens d value
    cases values with
    | nil => exact ⟨_, hvalue, hfirst⟩
    | cons second values =>
      refine ⟨_, hvalue.append (hcomma.append_spelled hread)
        (Separate.of_head (c := ',') rfl rfl), ?_⟩
      intro token htoken
      rcases List.mem_append.mp htoken with htoken | htoken
      · exact hfirst token htoken
      · rcases List.mem_append.mp htoken with htoken | htoken
        · rw [List.mem_singleton.mp htoken]
          rfl
        · exact hgo token htoken

theorem compares_listed (negated : Bool) (present : List Scalar) :
    Compares d (field.listed d negated present) := by
  obtain ⟨tokens, hspelled, hopens⟩ := Compares.operand d field
  obtain ⟨ts, hvalues, hgo⟩ := spelled_values d (present.map field.parameter)
  rw [List.map_map] at hvalues
  have hne : 0 < tokens.length := by
    cases tokens with
    | nil =>
      have h := hopens.read .empty [] rfl
      simp [readTokens, Frame.empty] at h
    | cons token tokens => simp
  obtain ⟨words, hin, hwords, hlength⟩ : ∃ words,
      Completed d [.text (if negated then " NOT IN (" else " IN (")] (words ++ [.sign '(']) ∧
      (∀ token ∈ words, token.goesOn = true) ∧ 0 < words.length := by
    cases negated with
    | false =>
      refine ⟨[.word ['I', 'N']], ?_, List.all_eq_true.mp rfl, by decide⟩
      cases d <;> exact Completed.text rfl rfl
    | true =>
      refine ⟨[.word ['N', 'O', 'T'], .word ['I', 'N']], ?_, List.all_eq_true.mp rfl, by decide⟩
      cases d <;> exact Completed.text rfl rfl
  have hsep : Separate d (.text (if negated then " NOT IN (" else " IN (") ::
      (Fragment.join ", " (present.map fun value => .bind (field.parameter value)) ++
        [.text ")"])) := by
    cases negated <;> exact Separate.of_head (c := ' ') rfl rfl
  have hread := hspelled.append_completed (hvalues.inBrackets hin) hsep
  refine ⟨_, hread.merge.spelled, ?_⟩
  rw [← List.append_assoc]
  refine (hopens.goesOn hwords).bracket ?_ (Balanced.of_goesOn hgo)
  exact ReadOperand.negates_of_length (by rw [List.length_append]; omega)

/-- A function of a JSON value and a bound path. -/
theorem compares_pathExists {operand : String} (h : Compares d [.text operand])
    (path : Parameter) :
    Compares d [.text ("jsonb_path_exists(" ++ operand ++ ", "), .bind path,
      .text "::jsonpath)"] := by
  let name : List Char :=
    ['j', 's', 'o', 'n', 'b', '_', 'p', 'a', 't', 'h', '_', 'e', 'x', 'i', 's', 't', 's']
  let kind : List BoundToken :=
    [.sign ':', .sign ':', .word ['j', 's', 'o', 'n', 'p', 'a', 't', 'h']]
  obtain ⟨tokens, hspelled, hopens⟩ := h
  have hopen : Completed d [.text "jsonb_path_exists("] ([.word name] ++ [.sign '(']) := by
    cases d <;> exact Completed.text rfl rfl
  have hcomma : Completed d [.text ", "] [.sign ','] := by
    cases d <;> exact Completed.text rfl rfl
  have hclose : Completed d [.text "::jsonpath)"] (kind ++ [.sign ')']) := by
    cases d <;> exact Completed.text rfl rfl
  have hvalue := (Spelled.bind path).append_completed hclose (Separate.of_head (c := ':') rfl rfl)
  have hread := hopen.append ((hspelled.append_completed hcomma
    (Separate.of_head (c := ',') rfl rfl)).append hvalue)
  have htokens : [.word name] ++ [.sign '('] ++ (tokens ++ [.sign ','] ++
        (Fragment.valueTokens d path ++ (kind ++ [.sign ')']))) =
      [.word name] ++ bracket (tokens ++ (.sign ',' :: (Fragment.valueTokens d path ++ kind))) := by
    simp [bracket]
  rw [htokens] at hread
  refine ⟨_, hread.merge.merge.spelled, (Opens.word rfl).bracket rfl ?_⟩
  have hvalues : Balanced (Fragment.valueTokens d path ++ kind) :=
    (Balanced.of_goesOn (Fragment.goesOn_valueTokens d path)).append
      (Balanced.of_goesOn (List.all_eq_true.mp rfl))
  exact hopens.balanced.append (Balanced.cons rfl rfl hvalues)

end FieldPath

end KnowledgeSearch
