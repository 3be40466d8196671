/-
  KnowledgeSearch/Proofs/Search/FloatFilter.lean
  ==============================================
  **Integers that a column of floats is compared with.**

  A column of floats takes every integer and binds the double nearest to it, also where that
  is another number.  What becomes of the comparison then is said by `FilterKind.BoundAs`: no
  double lies between the two, so only the rows that hold the bound double itself can be taken
  or left by mistake.
-/
import KnowledgeSearch.Proofs.Numeric.Closest
import KnowledgeSearch.Proofs.Search.Binding

namespace KnowledgeSearch

open Format (binary64)

/-- What a column of floats binds for an integer. -/
structure FilterKind.BoundAs (n : Int64) (x : Double) : Prop where
  coerced : FilterKind.float.coerce? (.int n) = some (.float x)
  isFinite : x.isFinite = true
  closest : x.Closest n.toInt
  /-- It is the integer if 53 bits are enough for that, apart from the zeros behind them. -/
  exact_iff : x.toRat = n.toInt ↔ ∃ (m : Int) (e : Nat), m.natAbs ≤ 2 ^ 53 ∧ n.toInt = m * 2 ^ e
  /-- Another integer is bound as the same double if no middle separates the two. -/
  shared_iff : ∀ m : Int64, FilterKind.float.coerce? (.int m) = some (.float x) ↔
    (m.toInt < 0 ↔ n.toInt < 0) ∧ binary64.NoMiddleBetween |m.toInt| |n.toInt|
  /-- Any other double is on the same side of both. -/
  lt_iff : ∀ y : Double, y.isFinite = true → y.toRat ≠ x.toRat →
    (y.toRat < n.toInt ↔ y.toRat < x.toRat)

theorem FilterKind.coerce?_float_int (n : Int64) :
    FilterKind.float.coerce? (.int n) = some (.float (Binary.ofInt n.toInt)) := rfl

theorem FilterKind.boundAs_ofInt (n : Int64) : BoundAs n (Binary.ofInt n.toInt) := by
  have hleast := n.le_toInt
  have hmost := n.toInt_lt
  have hfinite : (Binary.ofInt n.toInt : Double).isFinite = true := Binary.isFinite_ofInt (by omega)
  have hclosest := Binary.closest_ofInt hfinite
  have hbits : 2 * 2 ^ binary64.fractionBits = 2 ^ 53 := rfl
  constructor
  · exact coerce?_float_int n
  · exact hfinite
  · exact hclosest
  · rw [← hbits]
    exact Binary.toRat_ofInt_eq_iff hfinite
  · intro m
    rw [coerce?_float_int, Option.some_inj, Scalar.float.injEq, Binary.ofInt_eq_ofInt_iff]
  · intro y hy hne
    exact hclosest.lt_iff hy hne

theorem FilterKind.eq_of_coerced_ints {ns : List Int64} {found : List Scalar}
    (h : List.Forall₂ (fun value v => FilterKind.float.coerce? value = some v)
      (ns.map .int) found) : found = (ns.map fun n => Binary.ofInt n.toInt).map .float := by
  rw [List.forall₂_map_left_iff] at h
  induction h with
  | nil => rfl
  | @cons n v ns found hv _ ih =>
    rw [coerce?_float_int, Option.some_inj] at hv
    rw [← hv, ih, List.map_cons, List.map_cons]

/-- **A column of floats is compared with the doubles nearest to the integers of a filter.**  A
    leaf whose values are integers is kept, and it binds one double for each of them, whatever
    the dialect.  The double is the integer exactly if 53 bits are enough for that; an integer
    beyond them is bound like its neighbours. -/
theorem Leaf.restrict?_floats {table : Table} {l : Leaf} {ns : List Int64}
    (hkind : table.filterKind? l.field.column = some .float) (hpath : l.field.path = [])
    (hoperator : l.test.operator ≠ .like ∧ l.test.operator ≠ .ilike ∧
      l.test.operator.isJson = false) (hvalues : l.test.values = ns.map .int) :
    ∃ k xs, l.restrict? table = some k ∧ k.field = l.field ∧ k.test.operator = l.test.operator ∧
      (∀ d, k.params d = xs.map .float) ∧ List.Forall₂ FilterKind.BoundAs ns xs := by
  obtain ⟨hlike, hilike, hjson⟩ := hoperator
  have haskable : l.test.Askable .float := by
    refine ⟨fun h => absurd h (not_or.mpr ⟨hlike, hilike⟩), ?_⟩
    intro value hvalue
    rw [hvalues] at hvalue
    obtain ⟨n, -, rfl⟩ := List.mem_map.mp hvalue
    rfl
  have hkeepable : l.Keepable table :=
    (Leaf.keepable_iff_of_kind hkind (by decide)).mpr ⟨⟨hpath, hjson⟩, haskable⟩
  rcases l.restrict?_cases table with ⟨-, k, hk, hkept⟩ | ⟨hnot, -⟩
  · refine ⟨k, ns.map fun n => Binary.ofInt n.toInt, hk, hkept.field, hkept.operator, ?_, ?_⟩
    · intro d
      have hcoerced := hkept.coerced _ hkind
      rw [hvalues] at hcoerced
      rw [Leaf.params_of_plain (hkept.field ▸ hpath) (hkept.operator ▸ hjson),
        FilterKind.eq_of_coerced_ints hcoerced]
      simp [List.filter_map, Function.comp_def, Scalar.isNull, Parameter.ofScalar]
    · rw [List.forall₂_map_right_iff, List.forall₂_same]
      intro n _
      exact FilterKind.boundAs_ofInt n
  · exact absurd hkeepable hnot

/-- A table with a column of floats. -/
def ratings : Table := ⟨"ratings", "id", ["id", "rating"], "vec", 1, [], [("rating", .float)]⟩

def rating : FieldPath := ⟨"rating", [], by decide⟩

/-- An integer with 53 bits, and one behind the powers of two. -/
theorem Leaf.restrict?_floats_ratings :
    ∃ k xs, (Leaf.mk rating (.membership false [.int 7, .int (2 ^ 53 + 1)])).restrict? ratings =
        some k ∧ k.field = rating ∧ k.test.operator = .isIn ∧
      (∀ d, k.params d = xs.map .float) ∧
      List.Forall₂ FilterKind.BoundAs [7, 2 ^ 53 + 1] xs :=
  Leaf.restrict?_floats (l := ⟨rating, .membership false [.int 7, .int (2 ^ 53 + 1)]⟩) rfl rfl
    ⟨by decide, by decide, rfl⟩ rfl

/-- The first integer that needs 54 bits is bound like the one before it. -/
theorem FilterKind.coerce?_float_collides :
    ∃ x : Double, FilterKind.float.coerce? (.int (2 ^ 53 + 1)) = some (.float x) ∧
      FilterKind.float.coerce? (.int (2 ^ 53)) = some (.float x) ∧
      x.toRat ≠ (2 ^ 53 + 1 : Int64).toInt := by
  have hmoved : (Binary.ofInt (2 ^ 53 + 1) : Double) = .ofOrdinal false (1076 * 2 ^ 52) := by
    decide +kernel
  have hexact : (Binary.ofInt (2 ^ 53) : Double) = .ofOrdinal false (1076 * 2 ^ 52) := by
    decide +kernel
  refine ⟨.ofOrdinal false (1076 * 2 ^ 52), ?_, ?_, ?_⟩
  · rw [← hmoved]
    rfl
  · rw [← hexact]
    rfl
  · have hvalue : (Binary.ofInt (2 ^ 53) : Double).toRat = 2 ^ 53 := by decide +kernel
    have hinteger : (2 ^ 53 + 1 : Int64).toInt = 2 ^ 53 + 1 := by decide
    rw [← hexact, hvalue, hinteger]
    norm_num

end KnowledgeSearch
