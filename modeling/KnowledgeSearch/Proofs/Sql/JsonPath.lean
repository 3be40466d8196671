/-
  KnowledgeSearch/Proofs/Sql/JsonPath.lean
  ========================================
  **Equality with a value inside a JSON column.**

  A field inside a JSON column is compared by texts: what the database extracts there, and what
  is bound for the value of the filter.  Which place is asked for is read back from the tokens of
  the operand (`Extraction.ofTokens?`), and a row that has a value there answers with the text
  that its database makes of it (`StoredScalar.text`).

  The two texts of one value are written by different programs, and they agree for strings and
  integers only.  One database extracts truth values as digits, and both keep a zero at the end
  of a decimal that the bound text has lost (`StoredScalar.IsFound`).
-/
import KnowledgeSearch.Proofs.Filter.Grammar
import KnowledgeSearch.Proofs.Json.WrittenDecimal
import KnowledgeSearch.Proofs.Sql.Membership

namespace KnowledgeSearch

/-! ### The place that is asked for -/

/-- A place inside the JSON value of a column. -/
structure Extraction where
  column : List Char
  keys : List (List Char)

namespace Extraction

/-- The keys behind arrows, the last of which gives text. -/
def keys? : List BoundToken → Option (List (List Char))
  | [.sign '-', .sign '>', .sign '>', .quoted key] => some [key]
  | .sign '-' :: .sign '>' :: .quoted key :: tokens =>
    (keys? tokens).map fun keys => key :: keys
  | _ => none

/-- The tokens before the column of an extraction as text. -/
def opening : List BoundToken :=
  [.word "CAST".toList, .sign '(', .word "json_extract".toList, .sign '(']

/-- The tokens behind its path. -/
def ending : List BoundToken :=
  [.sign ')', .word "AS".toList, .word "TEXT".toList, .sign ')']

def ofTokens? (d : Dialect) (tokens : List BoundToken) : Option Extraction :=
  match d with
  | .lite =>
    match dropTokens? opening tokens with
    | some (.word column :: .sign ',' :: .quoted ('$' :: '.' :: path) :: tokens) =>
      match dropTokens? ending tokens with
      | some [] => some ⟨column, Text.splitAt '.' path⟩
      | _ => none
    | _ => none
  | .postgres =>
    match tokens with
    | .word column :: tokens => (keys? tokens).map fun keys => ⟨column, keys⟩
    | _ => none

theorem keys?_arrowTokens {keys : List String} (hne : keys ≠ []) :
    keys? (Dialect.arrowTokens true keys) = some (keys.map String.toList) := by
  induction keys with
  | nil => exact absurd rfl hne
  | cons key keys ih =>
    cases keys with
    | nil => rfl
    | cons second keys =>
      have hrest := ih (List.cons_ne_nil _ _)
      rw [Dialect.arrowTokens]
      simp only [List.isEmpty_cons, Bool.and_false, Bool.false_eq_true, if_false,
        List.cons_append, List.nil_append, keys?, hrest]
      rfl

/-- **An operand asks for the field that it was written for.** -/
theorem ofTokens?_operandTokens (d : Dialect) {field : FieldPath} (hpath : field.path ≠ []) :
    ofTokens? d (field.operandTokens d) =
      some ⟨field.column.toList, field.path.map String.toList⟩ := by
  have hjson : field.isJsonPath = true := by simp [FieldPath.isJsonPath, hpath]
  rw [FieldPath.operandTokens.eq_def, if_pos hjson]
  cases d with
  | lite =>
    have hkeys : ∀ key ∈ field.path.map String.toList, '.' ∉ key := by
      intro key hkey
      obtain ⟨name, hname, rfl⟩ := List.mem_map.mp hkey
      exact not_mem_of_isIdentifier (field.isIdentifier_key hname) rfl
    have hsplit : Text.splitAt '.' (String.intercalate "." field.path).toList =
        field.path.map String.toList := by
      rw [String.toList_intercalate]
      exact Text.splitAt_intercalate (by simpa using hpath) hkeys
    have htokens : (.word "CAST".toList :: bracket (.word "json_extract".toList ::
        (bracket [.word field.column.toList, .sign ',', .quoted field.quotedPath] ++
          [.word "AS".toList, .word "TEXT".toList])) : List BoundToken) =
        opening ++ .word field.column.toList :: .sign ',' ::
          .quoted ('$' :: '.' :: (String.intercalate "." field.path).toList) ::
            (ending ++ []) := by
      simp [bracket, opening, ending, FieldPath.quotedPath]
    have hending : places ending = [] := rfl
    rw [htokens, ofTokens?, dropTokens?_append rfl]
    simp only [dropTokens?_append hending, hsplit]
  | postgres =>
    dsimp only [ofTokens?]
    rw [keys?_arrowTokens hpath, Option.map_some]

end Extraction

/-! ### Values and their texts -/

/-- The text that the `lite` database makes of a number that is no integer: up to fifteen digits,
    at least one of them behind the point; an exponent below `10 ^ -4` and from `10 ^ 15` on. -/
def Decimal.liteText (d : Decimal) : List Char :=
  let digits := Nat.toDigits 10 d.digits
  let first := d.exponent + digits.length - 1
  if -4 ≤ first ∧ first < 15 then jsonStyle.layPositional digits d.exponent
  else
    let mantissa := match digits with
      | [c] => [c, '.', '0']
      | c :: rest => c :: '.' :: rest
      | [] => []
    let power := Nat.toDigits 10 first.natAbs
    mantissa ++ 'e' :: (if first < 0 then '-' else '+') ::
      (List.replicate (2 - power.length) '0' ++ power)

/-- A value inside a JSON column, null apart. -/
inductive StoredScalar where
  | string (text : String)
  | integer (value : Int64)
  | boolean (value : Bool)
  | decimal (value : WrittenDecimal)

namespace StoredScalar

/-- The same value in a filter document. -/
def toJson : StoredScalar → Json
  | string text => .string text
  | integer n => .ofInt n.toInt
  | boolean b => .bool b
  | decimal p => .number (.float p.double p.isFinite_double)

/-- The text that a database extracts: a truth value in its own notation, and a decimal as it was
    written or as the double that was read. -/
def text (d : Dialect) : StoredScalar → String
  | string text => text
  | integer n => toString n.toInt
  | boolean b =>
    match d with
    | .lite => if b then "1" else "0"
    | .postgres => if b then "true" else "false"
  | decimal p =>
    match d with
    | .lite => String.ofList (p.sign ++ p.shown.liteText)
    | .postgres => String.ofList p.text

/-- Whether a value is small enough for a filter. -/
def Fits : StoredScalar → Prop
  | string text => text.utf8ByteSize ≤ Filter.maxStringBytes
  | _ => True

/-- Whether the text that is bound for a value is the one that a database extracts. -/
def IsFound (d : Dialect) : StoredScalar → Prop
  | string _ | integer _ => True
  | boolean _ => d = .postgres
  | decimal p =>
    match d with
    | .lite => (∃ c ∈ p.fraction, c ≠ '0') ∧
      10 ^ p.fraction.length ≤ 10 ^ 4 * p.decimal.digits
    | .postgres => p.fraction.getLast p.nonempty ≠ '0'

/-- The value as a filter compares with it. -/
def scalar : StoredScalar → Scalar
  | string text => .text text
  | integer n => .int n
  | boolean b => .bool b
  | decimal p => .float p.double

end StoredScalar

/-! ### Decimals -/

/-- A number that is not zero is printed with digits and points only. -/
theorem not_mem_plain_lay {d : Decimal} (hd : d.digits ≠ 0) {c : Char} (hdigit : c.isDigit = false)
    (hpoint : c ≠ '.') : c ∉ plainStyle.lay d := by
  obtain ⟨parts, -, hliteral⟩ := Decimal.exists_writes hd
  have hno {digits : List Char} (h : ∀ c ∈ digits, c.isDigit = true) : c ∉ digits := by
    intro hc
    rw [h c hc] at hdigit
    cases hdigit
  generalize plainStyle.lay d = text at hliteral
  cases hliteral with
  | whole hwhole => exact hno hwhole.digits
  | fraction hwhole hdigits =>
    simp only [List.mem_append, List.mem_cons, hno hwhole.digits, hno hdigits, hpoint, or_self,
      not_false_eq_true]

/-- **The database keeps what the bound text has lost** if the number is whole or small: then one
    of them has a fraction digit more, or an exponent. -/
theorem WrittenDecimal.liteText_shown_eq_iff (p : WrittenDecimal) :
    p.shown.liteText = plainStyle.lay p.shown ↔
      (∃ c ∈ p.fraction, c ≠ '0') ∧ 10 ^ p.fraction.length ≤ 10 ^ 4 * p.decimal.digits := by
  rw [← p.exponent_shown_neg_iff]
  by_cases hzero : p.decimal.digits = 0
  · have hshown : p.shown = ⟨0, 0⟩ := if_pos hzero
    rw [hshown]
    exact iff_of_false (by decide) fun h => absurd h.1 (lt_irrefl 0)
  · obtain ⟨hmost, hleast⟩ := p.first_bounds hzero
    have hdigits : p.shown.digits ≠ 0 := by
      rw [p.shown_eq_significant hzero]
      exact (Decimal.isTrimmed_significant hzero).digits_ne_zero
    have hlay : plainStyle.lay p.shown =
        plainStyle.layPositional (Nat.toDigits 10 p.shown.digits) p.shown.exponent := rfl
    rw [← hleast, Decimal.liteText]
    dsimp only
    split
    · rename_i hfirst
      rw [and_iff_left hfirst.1, hlay, NumberStyle.layPositional, NumberStyle.layPositional]
      by_cases hexponent : p.shown.exponent < 0
      · rw [if_neg (not_le.mpr hexponent), if_neg (not_le.mpr hexponent)]
        exact iff_of_true rfl hexponent
      · rw [if_pos (not_lt.mp hexponent), if_pos (not_lt.mp hexponent)]
        refine iff_of_false ?_ hexponent
        intro h
        have htail := List.append_cancel_left h
        cases htail
    · rename_i hsmall
      refine iff_of_false ?_ fun h => hsmall ⟨h.2, hmost⟩
      intro h
      have hexponent : 'e' ∈ plainStyle.lay p.shown := by
        rw [← h]
        simp
      exact not_mem_plain_lay hdigits rfl (by decide) hexponent

/-! ### What is bound for a value -/

namespace StoredScalar

variable (d : Dialect) (v : StoredScalar)

theorem isNull_scalar : v.scalar.isNull = false := by
  cases v <;> rfl

/-- **The text that is bound for a value is the extracted one exactly if the value is found.** -/
theorem exists_toText? : ∃ bound, v.scalar.toText? = some bound ∧
    (v.text d = bound ↔ v.IsFound d) := by
  cases v with
  | string text => exact ⟨_, rfl, iff_of_true rfl True.intro⟩
  | integer n => exact ⟨_, rfl, iff_of_true rfl True.intro⟩
  | boolean b =>
    have hno : Dialect.lite ≠ .postgres := by decide
    cases b with
    | true =>
      refine ⟨"true", rfl, ?_⟩
      cases d with
      | lite => exact iff_of_false (by decide) hno
      | postgres => exact iff_of_true rfl rfl
    | false =>
      refine ⟨"false", rfl, ?_⟩
      cases d with
      | lite => exact iff_of_false (by decide) hno
      | postgres => exact iff_of_true rfl rfl
  | decimal p =>
    refine ⟨plainStyle.format p.double, rfl, ?_⟩
    cases d with
    | lite =>
      rw [text, IsFound, ← String.toList_inj, String.toList_ofList, p.toList_format_double,
        List.append_cancel_left_eq]
      exact p.liteText_shown_eq_iff
    | postgres =>
      rw [text, IsFound, ← String.toList_inj, String.toList_ofList, p.toList_format_double,
        WrittenDecimal.text, List.append_cancel_left_eq, eq_comm]
      exact p.lay_shown_eq_iff

/-- A 64-bit integer is a number of a document. -/
theorem toJson_integer (n : Int64) :
    ∃ hfits, (integer n).toJson = .number (.int n.toInt hfits) := by
  have hleast := n.le_toInt
  have hmost := n.toInt_lt
  have hfits : -0x8000000000000000 ≤ n.toInt ∧ n.toInt < 0x10000000000000000 := by omega
  exact ⟨hfits, dif_pos hfits⟩

theorem readScalar_toJson {v : StoredScalar} (h : v.Fits) (path : List Step) :
    Filter.readScalar path v.toJson = .ok v.scalar := by
  cases v with
  | string text =>
    have hsize : ¬ Filter.maxStringBytes < text.utf8ByteSize := not_lt.mpr h
    simp only [toJson, Filter.readScalar, Filter.readString, if_neg hsize]
    rfl
  | integer n =>
    obtain ⟨hfits, hnumber⟩ := toJson_integer n
    have hword : n.toInt < 0x8000000000000000 := n.toInt_lt
    rw [hnumber]
    simp only [Filter.readScalar, Number.toInt64?, if_pos hword, Int64.ofInt_toInt]
    rfl
  | boolean b => rfl
  | decimal p => rfl

end StoredScalar

namespace Filter

/-- A field with a scalar is read as one equality. -/
theorem readField_toJson {name : String} {field : FieldPath}
    (hfield : FieldPath.ofString? name = some field) {v : StoredScalar} (hv : v.Fits)
    (path : List Step) (depth nodes : Nat) (hdepth : depth < maxDepth) (hnodes : nodes < maxNodes) :
    readField name path depth v.toJson nodes =
      .ok ([.leaf ⟨field, .compare .eq v.scalar⟩], nodes + 1) := by
  have hvisit : visit path (depth + 1) nodes = .ok ((), nodes + 1) := by
    rw [visit_eq, if_neg (by omega), if_neg (by omega)]
  have hscalar : readField name path depth v.toJson = (do
      visit path (depth + 1)
      let value ← readScalar path v.toJson
      pure [.leaf ⟨field, .compare .eq value⟩]) := by
    rw [readField, hfield]
    cases v with
    | integer n =>
      obtain ⟨hfits, hnumber⟩ := StoredScalar.toJson_integer n
      rw [hnumber]
    | string text => rfl
    | boolean b => rfl
    | decimal p => rfl
  rw [hscalar, StoredScalar.readScalar_toJson hv, bind_eq_of_ok hvisit]
  rfl

end Filter

/-- **A document with one field is the equality with its value.** -/
theorem Predicate.ofJson_equality {name : String} {field : FieldPath}
    (hfield : FieldPath.ofString? name = some field) {v : StoredScalar} (hv : v.Fits) :
    ofJson (.object [(name, v.toJson)]) = .ok (some (.leaf ⟨field, .compare .eq v.scalar⟩)) :=
  ofJson_field hfield (Filter.readField_toJson hfield hv [.member name] 1 1 (by decide) (by decide))

/-! ### Rows -/

/-- The values inside the JSON columns of a row, null and missing ones apart. -/
abbrev JsonRow := List Char → List (List Char) → Option StoredScalar

namespace JsonRow

/-- A row as the comparisons of a condition see it: what is extracted is a text, which is equal
    to the same text only. -/
def values (row : JsonRow) (d : Dialect) (other : Assignment) : RowValues String where
  value? tokens := (Extraction.ofTokens? d tokens).bind fun place =>
    (row place.column place.keys).map fun v => v.text d
  equal extracted bound :=
    match bound with
    | .text text => .ofBool (extracted == text)
    | _ => .unknown
  other := other

/-- Whether a row has a value at the place of a field. -/
def Holds (row : JsonRow) (field : FieldPath) (v : StoredScalar) : Prop :=
  row field.column.toList (field.path.map String.toList) = some v

variable {row : JsonRow} {field : FieldPath} {v : StoredScalar}

/-- A row that has the value answers whether the extracted text is the bound one. -/
theorem truth?_equality (hpath : field.path ≠ []) (hrow : row.Holds field v) (d : Dialect)
    (other : Assignment) : ∃ found : Bool,
      (row.values d other).truth? d (.leaf ⟨field, .compare .eq v.scalar⟩) =
        some (.ofBool found) ∧ (found = true ↔ v.IsFound d) := by
  obtain ⟨bound, hbound, hfound⟩ := v.exists_toText? d
  have hsupported : d.supports Operator.eq = true := by cases d <;> rfl
  have hjson : field.isJsonPath = true := by simp [FieldPath.isJsonPath, hpath]
  have hparameter : field.parameter v.scalar = .text bound := by
    rw [FieldPath.parameter, hjson, v.isNull_scalar, hbound]
    rfl
  have hvalue : (row.values d other).value? (field.operandTokens d) = some (v.text d) := by
    change (Extraction.ofTokens? d (field.operandTokens d)).bind _ = _
    rw [Extraction.ofTokens?_operandTokens d hpath, Option.bind_some, hrow, Option.map_some]
  have hcompare := (row.values d other).truth_compare (field.spelled_operandTokens d)
    (field.isOperand_operandTokens d) false v.scalar
  refine ⟨v.text d == bound, ?_, beq_iff_eq.trans hfound⟩
  rw [(row.values d other).truth?_leaf _ hsupported]
  refine congrArg some (hcompare.trans ?_)
  rw [RowValues.member, v.isNull_scalar, hparameter]
  change (row.values d other).equals (field.operandTokens d) (.text bound) = _
  rw [RowValues.equals, hvalue]
  rfl

end JsonRow

/-- **Which values are found inside a JSON column.**  A document with one field that leads into a
    JSON column is a filter, and in a row that has the value of the document at this place its
    condition holds or does not, by what the value is: strings and integers are found, truth
    values are found where they are extracted as words, and a decimal where neither of its texts
    has more digits than the other. -/
theorem Predicate.compile_jsonEquality {name : String} {field : FieldPath}
    (hfield : FieldPath.ofString? name = some field) (hpath : field.path ≠ [])
    {v : StoredScalar} (hv : v.Fits) (d : Dialect) (other : Assignment) :
    ∃ p, ofJson (.object [(name, v.toJson)]) = .ok (some p) ∧
      ∀ row : JsonRow, row.Holds field v → ∃ found : Bool,
        (row.values d other).truth? d p = some (.ofBool found) ∧
          (found = true ↔ v.IsFound d) := by
  refine ⟨_, ofJson_equality hfield hv, ?_⟩
  intro row hrow
  exact JsonRow.truth?_equality hpath hrow d other

/-- The field `data.size`. -/
def FieldPath.size : FieldPath := ⟨"data", ["size"], by decide⟩

theorem FieldPath.ofString?_size : ofString? "data.size" = some size := by decide

/-- A number from one on has a double with a full significand. -/
theorem WrittenDecimal.normal_of_one_le {n places : Nat} (h : 10 ^ places ≤ n) (e : Nat) :
    n = 0 ∨ 10 ^ places ≤ n * 2 ^ e :=
  .inr (h.trans (Nat.le_mul_of_pos_right n (Nat.two_pow_pos e)))

/-- The number 2.5. -/
def WrittenDecimal.twoAndHalf : WrittenDecimal where
  negative := false
  whole := ['2']
  fraction := ['5']
  isWhole := ⟨List.forall_mem_singleton.mpr rfl, by decide, fun _ => rfl⟩
  isFraction := List.forall_mem_singleton.mpr rfl
  nonempty := by decide
  short := by decide
  normal := normal_of_one_le (by decide) _

/-- The number 2.0, its zero being written. -/
def WrittenDecimal.two : WrittenDecimal :=
  { twoAndHalf with
    fraction := ['0']
    isFraction := List.forall_mem_singleton.mpr rfl
    nonempty := by decide
    short := by decide
    normal := normal_of_one_le (by decide) _ }

/-- A number with a fraction is found in both dialects. -/
theorem Predicate.compile_jsonEquality_twoAndHalf :
    FieldPath.ofString? "data.size" = some .size ∧ FieldPath.size.path ≠ [] ∧
      ∀ d, ∃ p, ofJson (.object [("data.size", (StoredScalar.decimal .twoAndHalf).toJson)]) =
        .ok (some p) ∧ ∀ row : JsonRow, row.Holds .size (.decimal .twoAndHalf) →
          ∃ found : Bool, (row.values d fun _ => .unknown).truth? d p = some (.ofBool found) ∧
            (found = true ↔ StoredScalar.IsFound d (.decimal .twoAndHalf)) := by
  have hpath : FieldPath.size.path ≠ [] := List.cons_ne_nil _ _
  refine ⟨FieldPath.ofString?_size, hpath, ?_⟩
  intro d
  have hfits : (StoredScalar.decimal .twoAndHalf).Fits := True.intro
  exact compile_jsonEquality FieldPath.ofString?_size hpath hfits d _

/-- A truth value is not found where it is extracted as a digit, and a number that is written
    with a zero at its end is found nowhere. -/
theorem Predicate.jsonEquality_misses :
    (∃ p, ofJson (.object [("data.size", .bool true)]) = .ok (some p) ∧
      ∃ row : JsonRow, row.Holds .size (.boolean true) ∧
        (row.values .lite fun _ => .unknown).truth? .lite p = some .no) ∧
    ∀ d, ∃ p, ofJson (.object [("data.size", (StoredScalar.decimal .two).toJson)]) =
        .ok (some p) ∧
      ∃ row : JsonRow, row.Holds .size (.decimal .two) ∧
        (row.values d fun _ => .unknown).truth? d p = some .no := by
  have hpath : FieldPath.size.path ≠ [] := List.cons_ne_nil _ _
  have hmissed {v : StoredScalar} (hv : v.Fits) {d : Dialect} (h : ¬ v.IsFound d) :
      ∃ p, ofJson (.object [("data.size", v.toJson)]) = .ok (some p) ∧
        ∃ row : JsonRow, row.Holds .size v ∧
          (row.values d fun _ => .unknown).truth? d p = some .no := by
    let row : JsonRow := fun _ _ => some v
    have hrow : row.Holds .size v := rfl
    obtain ⟨found, htruth, hfound⟩ := JsonRow.truth?_equality hpath hrow d fun _ => .unknown
    cases found with
    | true => exact absurd (hfound.mp rfl) h
    | false => exact ⟨_, ofJson_equality FieldPath.ofString?_size hv, row, hrow, htruth⟩
  constructor
  · have hlite : ¬ StoredScalar.IsFound .lite (.boolean true) := by
      intro h
      cases h
    exact hmissed (v := .boolean true) True.intro hlite
  · intro d
    apply hmissed (v := .decimal .two) True.intro
    cases d with
    | lite =>
      rintro ⟨⟨c, hc, hne⟩, -⟩
      have hzero : c ∈ ['0'] := hc
      exact hne (List.mem_singleton.mp hzero)
    | postgres =>
      intro h
      exact h rfl

end KnowledgeSearch
