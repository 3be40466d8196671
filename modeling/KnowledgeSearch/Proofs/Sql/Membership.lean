/-
  KnowledgeSearch/Proofs/Sql/Membership.lean
  ==========================================
  **Membership in a list is a disjunction of equalities.**

  Here a row gives the comparisons of a condition their truths (`RowValues`).  It knows the
  value of an operand, or that there is none, and which values are equal.  What a comparison
  asks of its operand is read from its tokens, from the last one back: a test for null, an
  equality or a list (`OperandQuestion.ofTokens?`).  Read backwards, because an operand may hold any
  of these words and signs, but never ends with one.

  A list is written as up to two comparisons, one for its values and one for null.  Each of
  its members, null or not, has a share in one of them, in an order that does not matter
  (`Truth.any_split`); the negated list asks for the negation of both.
-/
import KnowledgeSearch.Proofs.Sql.Meaning

namespace KnowledgeSearch

open Fragment (Spelled Completed Separate)

variable {V : Type}

/-! ### Questions -/

/-- What a comparison asks of the value of its operand. -/
inductive AskedValue where
  | null
  | equal (value : Parameter)
  | among (values : List Parameter)

/-- A comparison as a question about an operand, or the negation of one. -/
structure OperandQuestion where
  operand : List BoundToken
  negated : Bool
  asked : AskedValue

namespace Token

variable {α : Type}

/-- What is left of tokens that begin with a word, the case of its letters aside. -/
def dropWord? (lower : List Char) : List (Token α) → Option (List (Token α))
  | token :: tokens => if token.isWord lower then some tokens else none
  | [] => none

def dropSign? (c : Char) : List (Token α) → Option (List (Token α))
  | token :: tokens => if token.isSign c then some tokens else none
  | [] => none

end Token

open Token (dropWord? dropSign?)

/-- The values of placeholders with commas between them. -/
def listedValues? : List BoundToken → Option (List Parameter)
  | [.place value] => value.map fun value => [value]
  | .place (some value) :: .sign ',' :: tokens =>
    (listedValues? tokens).map fun values => value :: values
  | _ => none

namespace OperandQuestion

/-- A test for null, read backwards. -/
def ofNull? (back : List BoundToken) : Option OperandQuestion := do
  let back ← dropWord? ['n', 'u', 'l', 'l'] back
  match dropWord? ['n', 'o', 't'] back with
  | some back => (dropWord? ['i', 's'] back).map fun operand => ⟨operand.reverse, true, .null⟩
  | none => (dropWord? ['i', 's'] back).map fun operand => ⟨operand.reverse, false, .null⟩

/-- An equality, read backwards; a sign of order before the sign of equality makes it
    something else. -/
def ofEqual? : List BoundToken → Option OperandQuestion
  | .place (some value) :: .sign '=' :: .sign c :: back =>
    if c = '<' ∨ c = '>' then none else some ⟨(.sign c :: back).reverse, false, .equal value⟩
  | .place (some value) :: .sign '=' :: back => some ⟨back.reverse, false, .equal value⟩
  | .place (some value) :: .sign '>' :: .sign '<' :: back =>
    some ⟨back.reverse, true, .equal value⟩
  | _ => none

/-- A list, read backwards.  The word before it negates it, unless there is no operand
    before that word. -/
def ofList? (back : List BoundToken) : Option OperandQuestion := do
  let back ← dropSign? ')' back
  let values ← listedValues? (back.takeWhile fun token => !token.isSign '(').reverse
  let back ← dropSign? '(' (back.dropWhile fun token => !token.isSign '(')
  let back ← dropWord? ['i', 'n'] back
  match (dropWord? ['n', 'o', 't'] back).getD [] with
  | [] => some ⟨back.reverse, false, .among values⟩
  | first :: rest => some ⟨(first :: rest).reverse, true, .among values⟩

/-- What a comparison asks, if it asks about null, equality or a list. -/
def ofTokens? (tokens : List BoundToken) : Option OperandQuestion :=
  (ofNull? tokens.reverse).or ((ofEqual? tokens.reverse).or (ofList? tokens.reverse))

end OperandQuestion

/-! ### Rows -/

/-- A truth, or its negation. -/
def Truth.negateIf (negated : Bool) (truth : Truth) : Truth :=
  if negated then truth.negate else truth

/-- A row as comparisons see it: the values of operands, which values are equal, and the
    truths of all comparisons that ask something else. -/
structure RowValues (V : Type) where
  value? : List BoundToken → Option V
  equal : V → Parameter → Truth
  other : Assignment

namespace RowValues

/-- Nothing is known of the equality of a value that is null. -/
def equals (row : RowValues V) (operand : List BoundToken) (value : Parameter) : Truth :=
  match row.value? operand with
  | none => .unknown
  | some found => row.equal found value

/-- The answer to a question that is not negated; a list asks for one equality or another. -/
def answer (row : RowValues V) (operand : List BoundToken) : AskedValue → Truth
  | .null => .ofBool (row.value? operand).isNone
  | .equal value => row.equals operand value
  | .among values => .any (values.map (row.equals operand))

/-- The truths that a row gives to comparisons. -/
def assign (row : RowValues V) : Assignment := fun tokens =>
  match OperandQuestion.ofTokens? tokens with
  | none => row.other tokens
  | some question => (row.answer question.operand question.asked).negateIf question.negated

/-- The truth that the condition of a predicate has for a row, if its text is one. -/
def truth? (row : RowValues V) (d : Dialect) (p : Predicate) : Option Truth :=
  ((Predicate.compile d (some p)).condition? d).map (Condition.truth row.assign)

end RowValues

/-! ### What is written asks what it should -/

/-- The tokens of an operand: a name, or what ends with a quoted key or a bracket. -/
inductive IsOperand : List BoundToken → Prop where
  | name (letters : List Char) : IsOperand [.word letters]
  | key (before : List BoundToken) (text : List Char) : IsOperand (before ++ [.quoted text])
  | call (before : List BoundToken) : IsOperand (before ++ [.sign ')'])

/-- The words of a test for null. -/
def nullWords (negated : Bool) : List BoundToken :=
  if negated then [.word ['I', 'S'], .word ['N', 'O', 'T'], .word ['N', 'U', 'L', 'L']]
  else [.word ['I', 'S'], .word ['N', 'U', 'L', 'L']]

def equalSigns (negated : Bool) : List BoundToken :=
  if negated then [.sign '<', .sign '>'] else [.sign '=']

def listWords (negated : Bool) : List BoundToken :=
  if negated then [.word ['N', 'O', 'T'], .word ['I', 'N']] else [.word ['I', 'N']]

/-- Placeholders with commas between them. -/
def listedTokens : List Parameter → List BoundToken
  | [] => []
  | [value] => [.place (some value)]
  | value :: values => .place (some value) :: .sign ',' :: listedTokens values

theorem listedValues?_listedTokens {values : List Parameter} (hne : values ≠ []) :
    listedValues? (listedTokens values) = some values := by
  induction values with
  | nil => exact absurd rfl hne
  | cons value values ih =>
    cases values with
    | nil => rfl
    | cons second values =>
      rw [listedTokens, listedValues?, ih (List.cons_ne_nil _ _)]
      · rfl
      · simp

theorem isSign_listedTokens (values : List Parameter) :
    ∀ token ∈ listedTokens values, (!token.isSign '(') = true := by
  induction values with
  | nil => exact fun _ h => absurd h List.not_mem_nil
  | cons value values ih =>
    cases values with
    | nil => simp [listedTokens, Token.isSign]
    | cons second values =>
      simp only [listedTokens, List.forall_mem_cons]
      exact ⟨rfl, rfl, ih⟩

/-- Read backwards, the values of a list go as far as the bracket that opens it. -/
theorem parts_listedTokens (values : List Parameter) (back : List BoundToken) :
    ((listedTokens values).reverse ++ .sign '(' :: back).takeWhile
        (fun token => !token.isSign '(') = (listedTokens values).reverse ∧
      ((listedTokens values).reverse ++ .sign '(' :: back).dropWhile
        (fun token => !token.isSign '(') = .sign '(' :: back := by
  have hinside : ∀ token ∈ (listedTokens values).reverse, (!token.isSign '(') = true := by
    simpa using isSign_listedTokens values
  have hopen : (Token.sign '(' : BoundToken).isSign '(' = true := rfl
  rw [List.takeWhile_append_of_pos hinside, List.dropWhile_append_of_pos hinside]
  simp [hopen]

namespace OperandQuestion

variable {operand : List BoundToken}

theorem ofTokens?_null (operand : List BoundToken) (negated : Bool) :
    ofTokens? (operand ++ nullWords negated) = some ⟨operand, negated, .null⟩ := by
  cases negated <;> simp [ofTokens?, nullWords, ofNull?, dropWord?, Token.isWord]

theorem ofTokens?_equal (h : IsOperand operand) (negated : Bool) (value : Parameter) :
    ofTokens? (operand ++ equalSigns negated ++ [.place (some value)]) =
      some ⟨operand, negated, .equal value⟩ := by
  have hnull : ∀ back, ofNull? (.place (some value) :: back) = none := fun _ => rfl
  cases negated with
  | false => cases h <;> simp [ofTokens?, equalSigns, hnull, ofEqual?]
  | true => simp [ofTokens?, equalSigns, hnull, ofEqual?]

theorem ofTokens?_list (h : IsOperand operand) (negated : Bool) {values : List Parameter}
    (hne : values ≠ []) :
    ofTokens? (operand ++ listWords negated ++ bracket (listedTokens values)) =
      some ⟨operand, negated, .among values⟩ := by
  have hback : (operand ++ listWords negated ++ bracket (listedTokens values)).reverse =
      .sign ')' :: ((listedTokens values).reverse ++
        .sign '(' :: ((listWords negated).reverse ++ operand.reverse)) := by
    simp [bracket]
  have hother (back : List BoundToken) :
      ofNull? (.sign ')' :: back) = none ∧ ofEqual? (.sign ')' :: back) = none := ⟨rfl, rfl⟩
  have hsign (c : Char) (back : List BoundToken) : dropSign? c (.sign c :: back) = some back :=
    if_pos (decide_eq_true rfl)
  rw [ofTokens?, hback, (hother _).1, (hother _).2, Option.none_or, Option.none_or, ofList?]
  simp only [hsign, Option.bind_eq_bind, Option.bind_some, (parts_listedTokens values _).1,
    (parts_listedTokens values _).2, List.reverse_reverse, listedValues?_listedTokens hne]
  cases negated with
  | true => cases h <;> simp [listWords, dropWord?, Token.isWord]
  | false =>
    cases h with
    | name letters =>
      -- the word before the list is the operand, even if it is the one that negates
      by_cases hnot : letters.map Char.toLower = ['n', 'o', 't'] <;>
        simp [listWords, dropWord?, Token.isWord, hnot]
    | key before text => simp [listWords, dropWord?, Token.isWord]
    | call before => simp [listWords, dropWord?, Token.isWord]

end OperandQuestion

/-! ### The tokens of what is written -/

/-- The tokens of a field as an operand: its column, or what leads into the JSON value there. -/
def FieldPath.operandTokens (field : FieldPath) (d : Dialect) : List BoundToken :=
  if field.isJsonPath then
    match d with
    | .lite =>
      .word "CAST".toList :: bracket (.word "json_extract".toList ::
        (bracket [.word field.column.toList, .sign ',', .quoted field.quotedPath] ++
          [.word "AS".toList, .word "TEXT".toList]))
    | .postgres => .word field.column.toList :: Dialect.arrowTokens true field.path
  else [.word field.column.toList]

theorem FieldPath.spelled_operandTokens (d : Dialect) (field : FieldPath) :
    Spelled d [.text (field.operand d)] (field.operandTokens d) := by
  unfold operand operandTokens
  split
  · cases d with
    | lite =>
      have hopen : Completed .lite [.text "CAST("] [.word "CAST".toList, .sign '('] :=
        Completed.text rfl rfl
      have hfunction : Completes .lite "json_extract(".toList
          [.word "json_extract".toList, .sign '('] := rfl
      have hcall := (field.completed_call hfunction).spelled
      have hclose : Completed .lite [.text " AS TEXT)"]
          [.word "AS".toList, .word "TEXT".toList, .sign ')'] := Completed.text rfl rfl
      have hread := hopen.append
        (hcall.append_completed hclose (Separate.of_head (c := ' ') rfl rfl))
      exact hread.merge.merge.spelled
    | postgres => exact field.spelled_arrows true
  · exact Spelled.text rfl (Spells.name field.isIdentifier_column)

theorem FieldPath.isOperand_operandTokens (d : Dialect) (field : FieldPath) :
    IsOperand (field.operandTokens d) := by
  unfold operandTokens
  split
  · cases d with
    | lite => exact .call (.word "CAST".toList :: .sign '(' :: (.word "json_extract".toList ::
        (bracket [.word field.column.toList, .sign ',', .quoted field.quotedPath] ++
          [.word "AS".toList, .word "TEXT".toList])))
    | postgres =>
      rcases arrowTokens_ends true field.path with hnone | ⟨before, text, hlast⟩
      · dsimp only
        rw [hnone]
        exact .name _
      · dsimp only
        rw [hlast]
        exact .key (.word field.column.toList :: before) text
  · exact .name _

theorem FieldPath.spelled_operand (d : Dialect) (field : FieldPath) :
    ∃ tokens, Spelled d [.text (field.operand d)] tokens ∧ IsOperand tokens :=
  ⟨_, field.spelled_operandTokens d, field.isOperand_operandTokens d⟩

section Tokens

variable {d : Dialect} {field : FieldPath} {tokens : List BoundToken}

theorem FieldPath.tokens_nullTest (h : Spelled d [.text (field.operand d)] tokens)
    (negated : Bool) : (field.nullTest d negated).tokens d = tokens ++ nullWords negated := by
  have hwords : Spelled d [.text (if negated then " IS NOT NULL" else " IS NULL")]
      (nullWords negated) := by
    cases negated <;> cases d <;> exact Spelled.text rfl ⟨rfl, rfl⟩
  have hsep : Separate d [.text (if negated then " IS NOT NULL" else " IS NULL")] := by
    cases negated <;> exact Separate.of_head (c := ' ') rfl rfl
  exact (h.append hwords hsep).merge.tokens_eq

/-- The comparison that asks for equality, or the one that asks for the opposite. -/
def equality (negated : Bool) : Comparison := if negated then .ne else .eq

/-- What a field is compared with needs no cast. -/
theorem FieldPath.castTokens_parameter (d : Dialect) (field : FieldPath) (value : Scalar) :
    (field.parameter value).castTokens (α := Option Parameter) d = [] := by
  unfold parameter
  split
  · split <;> cases d <;> rfl
  · cases d <;> cases value <;> rfl

theorem FieldPath.tokens_equality (h : Spelled d [.text (field.operand d)] tokens)
    (negated : Bool) {value : Scalar} (hvalue : value.isNull = false) :
    (field.comparisonCondition d (equality negated) value).tokens d =
      tokens ++ equalSigns negated ++ [.place (some (field.parameter value))] := by
  have hwritten : field.comparisonCondition d (equality negated) value =
      [.text (field.operand d ++ (" " ++ (equality negated).sign ++ " ")),
        .bind (field.parameter value)] := by
    rw [← String.append_assoc, ← String.append_assoc]
    cases negated <;> simp [comparisonCondition, equality, hvalue, Comparison.isRange]
  have hsign : Completed d [.text (" " ++ (equality negated).sign ++ " ")]
      (equalSigns negated) := by
    cases negated <;> cases d <;> exact Completed.text rfl rfl
  have hsep : Separate d [.text (" " ++ (equality negated).sign ++ " ")] := by
    cases negated <;> exact Separate.of_head (c := ' ') rfl rfl
  have hread := (h.append_completed hsign hsep).append_spelled
    (Spelled.bind (field.parameter value))
  rw [Fragment.valueTokens, castTokens_parameter] at hread
  rw [hwritten]
  exact hread.merge.tokens_eq

theorem FieldPath.spelled_listedTokens (d : Dialect) (field : FieldPath) (values : List Scalar) :
    Spelled d (Fragment.join ", " (values.map fun value => .bind (field.parameter value)))
      (listedTokens (values.map field.parameter)) := by
  have hcomma : Completed d [.text ", "] [.sign ','] := by
    cases d <;> exact Completed.text rfl rfl
  have hvalue (value : Scalar) : Spelled d (.bind (field.parameter value))
      [.place (some (field.parameter value))] := by
    have hread := Spelled.bind (d := d) (field.parameter value)
    rwa [Fragment.valueTokens, castTokens_parameter] at hread
  induction values with
  | nil => exact ⟨rfl, fun k => ⟨rfl, rfl⟩⟩
  | cons value values ih =>
    cases values with
    | nil => exact hvalue value
    | cons second values =>
      exact (hvalue value).append (hcomma.append_spelled ih) (Separate.of_head (c := ',') rfl rfl)

theorem FieldPath.tokens_listed (h : Spelled d [.text (field.operand d)] tokens) (negated : Bool)
    (values : List Scalar) : (field.listed d negated values).tokens d =
      tokens ++ listWords negated ++ bracket (listedTokens (values.map field.parameter)) := by
  have hwords : Completed d [.text (if negated then " NOT IN (" else " IN (")]
      (listWords negated ++ [.sign '(']) := by
    cases negated <;> cases d <;> exact Completed.text rfl rfl
  have hsep : Separate d (.text (if negated then " NOT IN (" else " IN (") ::
      (Fragment.join ", " (values.map fun value => .bind (field.parameter value)) ++
        [.text ")"])) := by
    cases negated <;> exact Separate.of_head (c := ' ') rfl rfl
  have hread := h.append_completed ((field.spelled_listedTokens d values).inBrackets hwords) hsep
  rw [← List.append_assoc] at hread
  exact hread.merge.spelled.tokens_eq

end Tokens

/-! ### Members and lists -/

namespace Truth

theorem any_append (truths more : List Truth) :
    any (truths ++ more) = (any truths).or (any more) := by
  induction truths with
  | nil => rfl
  | cons truth truths ih =>
    show truth.or (any (truths ++ more)) = (truth.or (any truths)).or (any more)
    rw [ih, or_assoc]

theorem negate_any (truths : List Truth) : (any truths).negate = all (truths.map negate) := by
  induction truths with
  | nil => rfl
  | cons truth truths ih =>
    show (truth.or (any truths)).negate = truth.negate.and (all (truths.map negate))
    rw [negate_or, ih]

/-- Any of some truths, or all of their negations. -/
theorem join_negateIf (negated : Bool) (truths : List Truth) :
    (if negated then all else any) (truths.map (negateIf negated)) =
      (any truths).negateIf negated := by
  cases negated with
  | true => exact (negate_any truths).symm
  | false =>
    have hid : negateIf false = id := rfl
    simp [hid]

/-- Null has one share in any of some members, however often it is one of them. -/
theorem any_split (values : List Scalar) (member : Scalar → Truth) :
    any (values.map member) =
      (any ((values.filter fun value => !value.isNull).map member)).or
        (if values.any Scalar.isNull then member .null else no) := by
  induction values with
  | nil => rfl
  | cons value values ih =>
    have hcons : any ((value :: values).map member) =
        (member value).or (any (values.map member)) := rfl
    rw [hcons, ih]
    cases hvalue : value.isNull with
    | false =>
      have hpresent : ((value :: values).filter fun value => !value.isNull) =
          value :: values.filter fun value => !value.isNull :=
        List.filter_cons_of_pos (by simp [hvalue])
      rw [hpresent, List.any_cons, hvalue, Bool.false_or]
      exact (or_assoc _ _ _).symm
    | true =>
      have hnull : value = .null := by
        cases value with
        | null => rfl
        | _ => cases hvalue
      have hpresent : ((value :: values).filter fun value => !value.isNull) =
          values.filter fun value => !value.isNull :=
        List.filter_cons_of_neg (by simp [hvalue])
      rw [hpresent, List.any_cons, hvalue, Bool.true_or, if_pos rfl, hnull]
      generalize any ((values.filter fun value => !value.isNull).map member) = rest
      cases values.any Scalar.isNull <;> cases member .null <;> cases rest <;> rfl

end Truth

namespace RowValues

variable {d : Dialect} {field : FieldPath} {tokens : List BoundToken} (row : RowValues V)

/-- What a row says of a field's equality with a value, or with null. -/
def member (field : FieldPath) (operand : List BoundToken) (value : Scalar) : Truth :=
  row.answer operand (if value.isNull then .null else .equal (field.parameter value))

theorem truth_compare (h : Spelled d [.text (field.operand d)] tokens) (hop : IsOperand tokens)
    (negated : Bool) (value : Scalar) :
    Leaf.truth d row.assign ⟨field, .compare (equality negated) value⟩ =
      (row.member field tokens value).negateIf negated := by
  cases hvalue : value.isNull with
  | true =>
    have hwritten : field.comparisonCondition d (equality negated) value =
        field.nullTest d negated := by
      cases negated <;> simp [FieldPath.comparisonCondition, FieldPath.nullTest, equality, hvalue]
    simp only [Leaf.truth, hwritten, FieldPath.tokens_nullTest h, assign,
      OperandQuestion.ofTokens?_null, member, hvalue, if_true]
  | false =>
    simp only [Leaf.truth, FieldPath.tokens_equality h negated hvalue, assign,
      OperandQuestion.ofTokens?_equal hop, member, hvalue, if_false, Bool.false_eq_true]

theorem assign_nullTest (h : Spelled d [.text (field.operand d)] tokens) (negated : Bool) :
    row.assign ((field.nullTest d negated).tokens d) =
      (row.member field tokens .null).negateIf negated := by
  rw [FieldPath.tokens_nullTest h, assign, OperandQuestion.ofTokens?_null]
  rfl

theorem assign_listed (h : Spelled d [.text (field.operand d)] tokens) (hop : IsOperand tokens)
    (negated : Bool) {values : List Scalar} (hne : values ≠ [])
    (hpresent : ∀ value ∈ values, value.isNull = false) :
    row.assign ((field.listed d negated values).tokens d) =
      (Truth.any (values.map (row.member field tokens))).negateIf negated := by
  have hmember : values.map (row.member field tokens) =
      (values.map field.parameter).map (row.equals tokens) := by
    rw [List.map_map]
    apply List.map_congr_left
    intro value hvalue
    simp only [member, hpresent value hvalue, if_false, Bool.false_eq_true]
    rfl
  rw [FieldPath.tokens_listed h, assign, OperandQuestion.ofTokens?_list hop negated (by simpa),
    hmember]
  rfl

/-- The share of a list's values in its truth, if it has any. -/
def listedShare (field : FieldPath) (operand : List BoundToken) (values : List Scalar) :
    List Truth :=
  let present := values.filter fun value => !value.isNull
  if present.isEmpty then [] else [.any (present.map (row.member field operand))]

/-- The share of null in the truth of a list. -/
def nullShare (field : FieldPath) (operand : List BoundToken) (values : List Scalar) :
    List Truth :=
  if values.any Scalar.isNull then [row.member field operand .null] else []

/-- Both shares together are those of all members. -/
theorem any_shares (values : List Scalar) :
    Truth.any (row.listedShare field tokens values ++ row.nullShare field tokens values) =
      Truth.any (values.map (row.member field tokens)) := by
  have hlisted : Truth.any (row.listedShare field tokens values) =
      Truth.any ((values.filter fun value => !value.isNull).map (row.member field tokens)) := by
    simp only [listedShare]
    split
    · rename_i hempty
      rw [List.isEmpty_iff.mp hempty]
      rfl
    · exact Truth.or_no _
  have hnull : Truth.any (row.nullShare field tokens values) =
      if values.any Scalar.isNull then row.member field tokens .null else .no := by
    rw [nullShare]
    split
    · exact Truth.or_no _
    · rfl
  rw [Truth.any_append, Truth.any_split, hlisted, hnull]

/-- What the comparison with the values of a list says, if it is written. -/
theorem assign_listedShare (h : Spelled d [.text (field.operand d)] tokens)
    (hop : IsOperand tokens) (negated : Bool) (values : List Scalar) :
    (if (values.filter fun value => !value.isNull).isEmpty then []
      else [row.assign
        ((field.listed d negated (values.filter fun value => !value.isNull)).tokens d)]) =
      (row.listedShare field tokens values).map (.negateIf negated) := by
  simp only [listedShare]
  split
  · rfl
  · rename_i hempty
    have hpresent : ∀ value ∈ values.filter fun value => !value.isNull, value.isNull = false :=
      fun value hvalue => by simpa using (List.mem_filter.mp hvalue).2
    rw [row.assign_listed h hop negated (mt List.isEmpty_iff.mpr hempty) hpresent]
    rfl

/-- What the test for null says, if it is written. -/
theorem assign_nullShare (h : Spelled d [.text (field.operand d)] tokens) (negated : Bool)
    (values : List Scalar) :
    (if values.any Scalar.isNull then [row.assign ((field.nullTest d negated).tokens d)] else []) =
      (row.nullShare field tokens values).map (.negateIf negated) := by
  rw [row.assign_nullTest h, nullShare]
  split <;> rfl

/-- **A list has the truth of its members**: any of them, or not any of them. -/
theorem truth_membership (h : Spelled d [.text (field.operand d)] tokens)
    (hop : IsOperand tokens) (negated : Bool) (values : List Scalar) :
    Leaf.truth d row.assign ⟨field, .membership negated values⟩ =
      (Truth.any (values.map (row.member field tokens))).negateIf negated := by
  have htruth : Leaf.truth d row.assign ⟨field, .membership negated values⟩ =
      (if negated then Truth.all else Truth.any)
        ((row.listedShare field tokens values ++ row.nullShare field tokens values).map
          (.negateIf negated)) := by
    rw [List.map_append, ← row.assign_listedShare h hop, ← row.assign_nullShare h]
    cases negated <;> rfl
  rw [htruth, Truth.join_negateIf, row.any_shares]

end RowValues

/-! ### Conditions -/

/-- What says the truth of a predicate is read back as a condition that has it. -/
theorem Outcome.Says.condition? {d : Dialect} {outcome : Outcome Fragment}
    {truth : Assignment → Truth} (h : outcome.Says d (some truth)) :
    ∃ c, ((outcome.condition?.getD Fragment.trivial).toQuery d).condition? d = some c ∧
      ∀ assign, c.truth assign = truth assign := by
  cases outcome with
  | ignored => exact h.elim
  | always =>
    have hyes : ∀ assign, truth assign = .yes := h
    exact (Fragment.Writes.trivial.congr d fun assign => (hyes assign).symm).condition?
  | condition fragment => exact Fragment.Writes.condition? h

namespace RowValues

variable {d : Dialect} (row : RowValues V)

theorem truth?_eq_some {p : Predicate} {truth : Assignment → Truth}
    (h : (p.outcome d).Says d (some truth)) : row.truth? d p = some (truth row.assign) := by
  obtain ⟨c, hcondition, htruth⟩ := h.condition?
  have hcompile : Predicate.compile d (some p) =
      (((p.outcome d).condition?).getD Fragment.trivial).toQuery d := rfl
  rw [truth?, hcompile, hcondition, Option.map_some, htruth]

theorem says_leaf (l : Leaf) (h : d.supports l.test.operator = true) :
    ((Predicate.leaf l).outcome d).Says d (some fun assign => l.truth d assign) := by
  have hsays := Test.says_outcome d l.field l.test
  rwa [if_pos h] at hsays

theorem truth?_leaf (l : Leaf) (h : d.supports l.test.operator = true) :
    row.truth? d (.leaf l) = some (l.truth d row.assign) :=
  row.truth?_eq_some (says_leaf l h)

theorem truth?_not (l : Leaf) (h : d.supports l.test.operator = true) :
    row.truth? d (.not (.leaf l)) = some (l.truth d row.assign).negate := by
  have hsays : ((Predicate.not (.leaf l)).outcome d).Says d
      (some fun assign => (l.truth d assign).negate) := (says_leaf l h).negate
  exact row.truth?_eq_some hsays

end RowValues

/-- **Membership in a list is a disjunction of equalities.**  In every row the condition that
    a list is compiled to is any of those that the equalities with its members are compiled
    to, null or not; the condition of the negated list is all of those of the inequalities,
    and so is the negation of the condition of the list. -/
theorem Predicate.compile_membership (d : Dialect) (field : FieldPath) (values : List Scalar)
    (row : RowValues V) :
    (∃ truths, (values.mapM fun value =>
        row.truth? d (.leaf ⟨field, .compare .eq value⟩)) = some truths ∧
      row.truth? d (.leaf ⟨field, .membership false values⟩) = some (.any truths)) ∧
    ∃ truths, (values.mapM fun value =>
        row.truth? d (.leaf ⟨field, .compare .ne value⟩)) = some truths ∧
      row.truth? d (.leaf ⟨field, .membership true values⟩) = some (.all truths) ∧
      row.truth? d (.not (.leaf ⟨field, .membership false values⟩)) = some (.all truths) := by
  obtain ⟨tokens, h, hop⟩ := field.spelled_operand d
  have hsupported (test : Test) (htest : test.operator.isJson = false) :
      d.supports test.operator = true := by
    cases d <;> simp [Dialect.supports, htest]
  have hcompare (negated : Bool) : (values.mapM fun value =>
      row.truth? d (.leaf ⟨field, .compare (equality negated) value⟩)) =
        some ((values.map (row.member field tokens)).map (.negateIf negated)) := by
    have hvalue (value : Scalar) :
        row.truth? d (.leaf ⟨field, .compare (equality negated) value⟩) =
          pure ((row.member field tokens value).negateIf negated) := by
      rw [row.truth?_leaf _ (hsupported _ (by cases negated <;> rfl)), row.truth_compare h hop]
      rfl
    simp only [hvalue, List.mapM_pure, List.map_map]
    rfl
  have hlist (negated : Bool) : row.truth? d (.leaf ⟨field, .membership negated values⟩) =
      some ((Truth.any (values.map (row.member field tokens))).negateIf negated) := by
    rw [row.truth?_leaf _ (hsupported _ (by cases negated <;> rfl)), row.truth_membership h hop]
  refine ⟨⟨_, hcompare false, ?_⟩, _, hcompare true, ?_, ?_⟩
  · rw [hlist, ← Truth.join_negateIf]
    rfl
  · rw [hlist, ← Truth.join_negateIf]
    rfl
  · rw [row.truth?_not _ (hsupported _ rfl), row.truth_membership h hop]
    exact congrArg some (Truth.negate_any _)

end KnowledgeSearch
