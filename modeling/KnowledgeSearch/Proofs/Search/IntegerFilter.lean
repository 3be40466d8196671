/-
  KnowledgeSearch/Proofs/Search/IntegerFilter.lean
  ================================================
  **Filters on columns of integers.**

  A number of a filter document passes through a 64-bit integer or a double before a column
  of integers takes it, and a text is read as an integer only then.  What the document
  writes is a rational number all the same (`Json.writtenNumber?`), and what is bound is
  held against it.

  They are equal but for one double: a number that is rounded to `2 ^ 63` is bound as the
  largest 64-bit integer, although it is greater (`Json.PassesLargest`).  With this
  exception a leaf is kept exactly if its numbers are 64-bit integers, and then these are
  what every dialect binds (`Predicate.restrict?_integers`).
-/
import KnowledgeSearch.Proofs.Numeric.Integer
import KnowledgeSearch.Proofs.Search.Binding

namespace KnowledgeSearch

/-! ### Numbers as a document writes them -/

/-- The rational that a number denotes. -/
def Number.toRat : Number → ℚ
  | .int n _ => n
  | .float x _ => x.toRat

namespace Json

/-- The number that a value writes: a number, or a text that is a decimal integer. -/
def writtenNumber? : Json → Option ℚ
  | .number n => some n.toRat
  | .string text => (Decimal.integerOfChars? (Text.trim text).toList).map Int.cast
  | _ => none

/-- A number that is not below `2 ^ 63` and is rounded to it. -/
def PassesLargest (raw : Json) : Prop :=
  ∃ n, raw = .number n ∧ 2 ^ 63 ≤ n.toRat ∧ n.toDouble.toRat = 2 ^ 63

/-- The integer that a column of integers is compared with for a value. -/
def BindsInteger (raw : Json) (i : Int64) : Prop :=
  raw.writtenNumber? = some (i.toInt : ℚ) ∨ raw.PassesLargest ∧ i = Int64.maxValue

end Json

theorem bindsInteger_number {n : Number} {i : Int64} :
    (Json.number n).BindsInteger i ↔ n.toRat = i.toInt ∨
      (2 ^ 63 ≤ n.toRat ∧ n.toDouble.toRat = 2 ^ 63) ∧ i = Int64.maxValue := by
  simp [Json.BindsInteger, Json.writtenNumber?, Json.PassesLargest]

/-! ### Values as integers -/

namespace FilterKind

variable {found : Scalar}

/-- A number that is taken as a double is bound as the document writes it, but for
    `2 ^ 63`. -/
theorem integerOfFloat?_toDouble {n : Number} (hfinite : n.toDouble.isFinite = true)
    (hexact : n.toDouble.toRat = n.toRat ∨ 2 ^ 63 ≤ n.toRat ∧ 2 ^ 63 ≤ n.toDouble.toRat)
    {i : Int64} : integerOfFloat? n.toDouble = some i ↔ (Json.number n).BindsInteger i := by
  have hmost : (i.toInt : ℚ) < 2 ^ 63 := by exact_mod_cast i.toInt_lt
  rw [integerOfFloat?_eq_some_iff hfinite, bindsInteger_number]
  rcases hexact with hexact | ⟨hwritten, hrounded⟩
  · rw [hexact]
    constructor
    · rintro (h | ⟨hlarge, hi⟩)
      · exact Or.inl h
      · exact Or.inr ⟨⟨hlarge.ge, hlarge⟩, hi⟩
    · rintro (h | ⟨⟨-, hlarge⟩, hi⟩)
      · exact Or.inl h
      · exact Or.inr ⟨hlarge, hi⟩
  · constructor
    · rintro (h | ⟨hlarge, hi⟩)
      · exact absurd (h ▸ hmost) hrounded.not_gt
      · exact Or.inr ⟨⟨hwritten, hlarge⟩, hi⟩
    · rintro (h | ⟨⟨-, hlarge⟩, hi⟩)
      · exact absurd (h ▸ hmost) hwritten.not_gt
      · exact Or.inr ⟨hlarge, hi⟩

theorem coerce?_float {x : Double} :
    FilterKind.integer.coerce? (.float x) = some found ↔
      ∃ i, found = .int i ∧ integerOfFloat? x = some i := by
  change (integerOfFloat? x).map Scalar.int = some found ↔ _
  rw [Option.map_eq_some_iff]
  constructor
  · rintro ⟨i, hi, rfl⟩
    exact ⟨i, rfl, hi⟩
  · rintro ⟨i, rfl, hi⟩
    exact ⟨i, hi, rfl⟩

/-- The scalar that an integer is read as. -/
theorem scalar?_int {n : Int} {hn : -0x8000000000000000 ≤ n ∧ n < 0x10000000000000000} :
    (Json.number (.int n hn)).scalar? =
      some (if n < 2 ^ 63 then .int (Int64.ofInt n) else .float (Binary.ofInt n)) := by
  by_cases h : n < 0x8000000000000000
  · simp [Json.scalar?, Number.toInt64?, h]
  · simp [Json.scalar?, Number.toInt64?, h, Number.toDouble]

theorem coerce?_number {n : Number} {value : Scalar}
    (h : (Json.number n).scalar? = some value) :
    FilterKind.integer.coerce? value = some found ↔
      ∃ i, found = .int i ∧ (Json.number n).BindsInteger i := by
  cases n with
  | float x hx =>
    have hvalue : Scalar.float x = value := Option.some.inj h
    rw [← hvalue, coerce?_float]
    simp only [← integerOfFloat?_toDouble (n := .float x hx) hx (Or.inl rfl)]
    rfl
  | int n hn =>
    rw [scalar?_int, Option.some_inj] at h
    by_cases hsmall : n < 2 ^ 63
    · rw [if_pos hsmall] at h
      have hnot : ¬ (2 ^ 63 : ℚ) ≤ n := by exact_mod_cast not_le.mpr hsmall
      have hcoerce : FilterKind.integer.coerce? (.int (Int64.ofInt n)) =
          some (.int (Int64.ofInt n)) := rfl
      simp only [← h, hcoerce, bindsInteger_number, Number.toRat, hnot, false_and, or_false,
        Int.cast_inj, Option.some_inj]
      constructor
      · rintro rfl
        exact ⟨_, rfl, (ofInt_eq_iff (by omega) hsmall).mp rfl⟩
      · rintro ⟨i, rfl, hi⟩
        rw [(ofInt_eq_iff (by omega) hsmall).mpr hi]
    · rw [if_neg hsmall] at h
      have hlarge : 2 ^ 63 ≤ n := not_lt.mp hsmall
      have hwritten : (2 ^ 63 : ℚ) ≤ n := by exact_mod_cast hlarge
      rw [← h, coerce?_float]
      simp only [← integerOfFloat?_toDouble (n := .int n hn)
        (Binary.isFinite_ofInt (by omega)) (Or.inr ⟨hwritten, Binary.le_toRat_ofInt hlarge⟩)]
      rfl

theorem coerce?_string {text : String} :
    FilterKind.integer.coerce? (.text text) = some found ↔
      ∃ i, found = .int i ∧ (Json.string text).BindsInteger i := by
  have hbinds {i : Int64} : (Json.string text).BindsInteger i ↔
      Decimal.integerOfChars? (Text.trim text).toList = some i.toInt := by
    simp [Json.BindsInteger, Json.writtenNumber?, Json.PassesLargest]
  change (int64OfString? (Text.trim text)).map (fun n => Scalar.int (Int64.ofInt n)) =
    some found ↔ _
  simp only [hbinds, int64OfString?, Option.map_eq_some_iff, Option.filter_eq_some_iff]
  constructor
  · rintro ⟨n, ⟨hread, hfits⟩, rfl⟩
    have hfits : -2 ^ 63 ≤ n ∧ n < 2 ^ 63 := by simpa [fitsInt64] using hfits
    exact ⟨_, rfl, hread.trans (congrArg some ((ofInt_eq_iff hfits.1 hfits.2).mp rfl))⟩
  · rintro ⟨i, rfl, hread⟩
    have hleast := i.le_toInt
    have hmost := i.toInt_lt
    refine ⟨i.toInt, ⟨hread, ?_⟩, ?_⟩
    · simp [fitsInt64]
      omega
    · rw [(ofInt_eq_iff hleast hmost).mpr rfl]

/-- What a column of integers makes of a value: null stays null, and any other value is an
    integer or is refused. -/
theorem coerce?_integer {raw : Json} {value : Scalar} (h : raw.scalar? = some value) :
    FilterKind.integer.coerce? value = some found ↔
      raw = .null ∧ found = .null ∨ ∃ i, found = .int i ∧ raw.BindsInteger i := by
  cases raw with
  | null =>
    cases h
    have hcoerce : FilterKind.integer.coerce? .null = some .null := rfl
    simp [hcoerce, Json.BindsInteger, Json.writtenNumber?, Json.PassesLargest, eq_comm]
  | bool b =>
    cases h
    have hcoerce : FilterKind.integer.coerce? (.bool b) = none := rfl
    simp [hcoerce, Json.BindsInteger, Json.writtenNumber?, Json.PassesLargest]
  | number n => simpa using coerce?_number h
  | string text =>
    cases h
    simpa using coerce?_string
  | array items => cases h
  | object members => cases h

end FilterKind

/-! ### Questions about columns of integers -/

/-- What a table makes of a question about a column of integers. -/
structure Question.IntegerExact (table : Table) (q : Question) (l : Leaf) : Prop where
  /-- The leaf is kept if a plain column can be asked it and all its values are integers. -/
  kept_iff : (∃ k, l.restrict? table = some k) ↔
    l.field.path = [] ∧ l.test.operator.isJson = false ∧ l.test.operator ≠ .like ∧
      l.test.operator ≠ .ilike ∧ ∀ raw ∈ q.operands, raw = .null ∨ ∃ i, raw.BindsInteger i
  same : ∀ k, l.restrict? table = some k →
    k.field = l.field ∧ k.test.operator = l.test.operator
  /-- What is bound are the integers of its values, in their order. -/
  bound : ∀ k, l.restrict? table = some k → ∀ d,
    List.Forall₂ (fun raw parameter => ∃ i, parameter = .int i ∧ raw.BindsInteger i)
      (q.operands.filter fun raw => !raw.isNull) (k.params d)

theorem Json.not_bindsInteger_null {i : Int64} : ¬ Json.null.BindsInteger i := by
  simp [BindsInteger, writtenNumber?, PassesLargest]

theorem FilterKind.isSome_coerce?_integer {raw : Json} {value : Scalar}
    (h : raw.scalar? = some value) :
    (FilterKind.integer.coerce? value).isSome ↔ raw = .null ∨ ∃ i, raw.BindsInteger i := by
  rw [Option.isSome_iff_exists]
  simp only [coerce?_integer h]
  constructor
  · rintro ⟨found, ⟨hnull, -⟩ | ⟨i, -, hi⟩⟩
    · exact Or.inl hnull
    · exact Or.inr ⟨i, hi⟩
  · rintro (hnull | ⟨i, hi⟩)
    · exact ⟨.null, Or.inl ⟨hnull, rfl⟩⟩
    · exact ⟨.int i, Or.inr ⟨i, rfl, hi⟩⟩

/-- The values of a column of integers, null apart, are bound as integers. -/
theorem FilterKind.bound_of_coerced {raws : List Json} {values found : List Scalar}
    (hvalues : List.Forall₂ (fun raw value => raw.scalar? = some value) raws values)
    (hfound : List.Forall₂ (fun value v => FilterKind.integer.coerce? value = some v)
      values found) :
    List.Forall₂ (fun raw parameter => ∃ i, parameter = .int i ∧ raw.BindsInteger i)
      (raws.filter fun raw => !raw.isNull)
      ((found.filter fun v => !v.isNull).map Parameter.ofScalar) := by
  induction hvalues generalizing found with
  | nil =>
    cases hfound
    exact .nil
  | @cons raw value raws values hscalar _ ih =>
    cases hfound with
    | @cons _ v _ found hv hfound =>
      rcases (coerce?_integer hscalar).mp hv with ⟨rfl, rfl⟩ | ⟨i, rfl, hi⟩
      · simpa [Json.isNull, Scalar.isNull] using ih hfound
      · have hraw : raw.isNull = false := by
          cases raw with
          | null => exact absurd hi Json.not_bindsInteger_null
          | _ => rfl
        rw [List.filter_cons_of_pos (by simp [hraw])]
        exact .cons ⟨i, rfl, hi⟩ (ih hfound)

theorem Question.Asks.integerExact {table : Table} {q : Question} {l : Leaf} (h : q.Asks l)
    (hkind : table.filterKind? l.field.column = some .integer) : q.IntegerExact table l := by
  have hkeepable : l.Keepable table ↔ l.field.path = [] ∧ l.test.operator.isJson = false ∧
      l.test.operator ≠ .like ∧ l.test.operator ≠ .ilike ∧
        ∀ raw ∈ q.operands, raw = .null ∨ ∃ i, raw.BindsInteger i := by
    rw [Leaf.keepable_iff_of_kind hkind (by decide), Test.Askable,
      forall_mem_iff h.values fun raw value hvalue =>
        (FilterKind.isSome_coerce?_integer hvalue).symm]
    simp [and_assoc]
  rcases l.restrict?_cases table with ⟨hkeep, found, hfound, hkept⟩ | ⟨hkeep, hnone⟩
  · have hsame {k : Leaf} (hk : l.restrict? table = some k) : k = found :=
      Option.some.inj (hk.symm.trans hfound)
    refine ⟨iff_of_true ⟨found, hfound⟩ (hkeepable.mp hkeep), ?_, ?_⟩
    · intro k hk
      rw [hsame hk]
      exact ⟨hkept.field, hkept.operator⟩
    · intro k hk d
      obtain ⟨hpath, hjson, -⟩ := hkeepable.mp hkeep
      rw [hsame hk, Leaf.params_of_plain (by rw [hkept.field, hpath])
        (by rw [hkept.operator, hjson])]
      exact FilterKind.bound_of_coerced h.values (hkept.coerced _ hkind)
  · refine ⟨iff_of_false (by simp [hnone]) (mt hkeepable.mpr hkeep), ?_, ?_⟩
    · intro k hk
      rw [hnone] at hk
      cases hk
    · intro k hk
      rw [hnone] at hk
      cases hk

/-! ### Filters -/

namespace Predicate

variable {table : Table}

/-- The leaves of a group that is left are those of the children that are left. -/
theorem leaves_leftOver? {group : List Predicate → Predicate} {children kept : List Predicate}
    (hgroup : ∀ cs, leaves (group cs) = cs.flatMap leaves) :
    ((leftOver? children kept).map group).toList.flatMap leaves = kept.flatMap leaves := by
  unfold leftOver?
  split
  · rename_i h
    rw [Bool.and_eq_true, List.isEmpty_iff] at h
    rw [h.1]
    rfl
  · simp [hgroup]

theorem leaves_restrictAll {children : List Predicate}
    (ih : ∀ child ∈ children, (child.restrict? table).toList.flatMap leaves =
      child.leaves.filterMap (Leaf.restrict? table)) :
    (restrictAll table children).flatMap leaves =
      (children.flatMap leaves).filterMap (Leaf.restrict? table) := by
  induction children with
  | nil => rfl
  | cons child children ihChildren =>
    have hrest := ihChildren fun c hc => ih c (List.mem_cons_of_mem _ hc)
    rw [List.flatMap_cons, List.filterMap_append, ← ih child List.mem_cons_self, ← hrest,
      restrictAll]
    cases restrict? table child <;> simp

/-- The leaves that are left of a predicate are what the table makes of its leaves. -/
theorem leaves_restrict? (p : Predicate) :
    (p.restrict? table).toList.flatMap leaves = p.leaves.filterMap (Leaf.restrict? table) := by
  induction p with
  | leaf l =>
    rw [restrict?]
    cases h : l.restrict? table <;> simp [leaves, h]
  | all children ih =>
    have hleaves (cs : List Predicate) : leaves (.all cs) = cs.flatMap leaves := by
      rw [leaves, leavesEach_eq_flatMap]
    rw [restrict?, leaves_leftOver? hleaves, leaves_restrictAll ih, hleaves]
  | any children ih =>
    have hleaves (cs : List Predicate) : leaves (.any cs) = cs.flatMap leaves := by
      rw [leaves, leavesEach_eq_flatMap]
    rw [restrict?, leaves_leftOver? hleaves, leaves_restrictAll ih, hleaves]
  | not child ih =>
    rw [restrict?, leaves, ← ih]
    cases restrict? table child <;> simp [leaves]

/-- **A column of integers is compared with the numbers that the document writes.**  The
    leaves of a filter put the questions of its document, and a table is left with those of
    them that it keeps.  On a column of integers a leaf is kept exactly if all its values
    are 64-bit integers or null, and the integers are what it binds, whatever the dialect;
    only a number that is rounded to `2 ^ 63` is taken as the largest of them.  A statement
    binds nothing else. -/
theorem restrict?_integers {document : Json} {p : Option Predicate}
    (h : ofJson document = .ok p) (table : Table) :
    let left := p.bind (restrict? table)
    ofFilter (some table) document = .ok left ∧
    left.toList.flatMap leaves = (p.toList.flatMap leaves).filterMap (Leaf.restrict? table) ∧
    List.Forall₂ (fun q l => q.Asks l ∧
        (table.filterKind? l.field.column = some .integer → q.IntegerExact table l))
      document.filterQuestions (p.toList.flatMap leaves) ∧
    ∀ d, (compile d left).params.Sublist
      ((left.toList.flatMap leaves).flatMap (Leaf.params d)) := by
  refine ⟨by simp [ofFilter, h], ?_, ?_, fun d => params_compile d _⟩
  · cases p with
    | none => rfl
    | some p => simpa using p.leaves_restrict?
  · exact (asks_of_ofJson h).imp fun q l hasks => ⟨hasks, hasks.integerExact⟩

/-- A table with a column of integers. -/
def levels : Table := ⟨"levels", "id", ["id", "level"], "vec", 1, [], [("level", .integer)]⟩

def level : FieldPath := ⟨"level", [], by decide⟩

theorem level_integer (test : Test) :
    levels.filterKind? (Leaf.mk level test).field.column = some .integer := rfl

/-- A text and a double that are integers are bound as these; null is asked for apart. -/
theorem restrict?_integers_levels :
    ∃ k, (Leaf.mk level (.membership false [.text " 7 ", .float (Binary.ofNat 3), .null])).restrict?
        levels = some k ∧
      ∀ d, List.Forall₂ (fun (raw : Json) parameter => ∃ i, parameter = .int i ∧ raw.BindsInteger i)
        [.string " 7 ", .number (.float (Binary.ofNat 3) (by decide +kernel))] (k.params d) := by
  let three : Json := .number (.float (Binary.ofNat 3) (by decide +kernel))
  let document : Json := .object [("level", .array [.string " 7 ", three, .null])]
  let l : Leaf := ⟨level, .membership false [.text " 7 ", .float (Binary.ofNat 3), .null]⟩
  let k : Leaf := ⟨level, .membership false [.int 7, .int 3, .null]⟩
  have hread : ofJson document = .ok (some (.leaf l)) := rfl
  have hvalues : [Scalar.text " 7 ", .float (Binary.ofNat 3), .null].mapM
      FilterKind.integer.coerce? = some [.int 7, .int 3, .null] := by decide +kernel
  have hkept : l.restrict? levels = some k := by
    rw [Leaf.restrict?_of_kind (level_integer _) (by decide), if_neg (by decide), Test.restrict?,
      hvalues]
    rfl
  obtain ⟨-, -, hasked, -⟩ := restrict?_integers hread levels
  cases hasked with
  | cons hexact _ => exact ⟨k, hkept, (hexact.2 rfl).bound k hkept⟩

/-- The number `2 ^ 63` is bound as the integer before it. -/
theorem restrict?_past_largest :
    ∃ p k, ofJson (.object [("level", .number (.int (2 ^ 63) (by decide)))]) = .ok (some p) ∧
      p.restrict? levels = some (.leaf k) ∧
      (∀ d, k.params d = [.int Int64.maxValue]) ∧
      (Json.number (.int (2 ^ 63) (by decide))).writtenNumber? ≠
        some (Int64.maxValue.toInt : ℚ) := by
  refine ⟨.leaf ⟨level, .compare .eq (.float (Binary.ofInt (2 ^ 63)))⟩,
    ⟨level, .compare .eq (.int Int64.maxValue)⟩, rfl, ?_, ?_, ?_⟩
  · have hvalue : FilterKind.integer.coerce? (.float (Binary.ofInt (2 ^ 63))) =
        some (.int Int64.maxValue) := by decide +kernel
    rw [restrict?, Leaf.restrict?_of_kind (level_integer _) (by decide), if_neg (by decide),
      Test.restrict?, if_neg (by decide), hvalue]
    rfl
  · intro d
    rw [Leaf.params_of_plain rfl rfl]
    rfl
  · rw [Int64.toInt_maxValue]
    simp only [Json.writtenNumber?, Number.toRat]
    norm_num

end Predicate

end KnowledgeSearch
