/-
  KnowledgeSearch/Proofs/Numeric/Integer.lean
  ===========================================
  **The integers among binary numbers.**

  A finite number stands for a rational (`Binary.toRat`), and it is an integer exactly if
  that rational is one (`Binary.isInteger_iff`).  So a double is taken as the 64-bit integer
  that it equals, and as nothing if there is none, with one exception: `2 ^ 63` is one more
  than the largest of these integers and is taken as that one
  (`FilterKind.integerOfFloat?_eq_some_iff`).  An integer that is too large for 64 bits is
  not rounded below `2 ^ 63` either (`Binary.le_toRat_ofInt`).
-/
import KnowledgeSearch.Proofs.Numeric.Grid
import KnowledgeSearch.Search.Coercion
import Mathlib.Algebra.Order.Field.Rat
import Mathlib.Tactic.FieldSimp
import Mathlib.Tactic.NormNum

namespace KnowledgeSearch

open Format (binary64)

namespace Binary

variable {F : Format}

/-- The rational number that a finite number stands for. -/
def toRat (x : Binary F) : ℚ := (x.signedUnits : ℚ) / 2 ^ F.scale

/-! ### Integers -/

theorem toRat_eq_int_iff {x : Binary F} {n : Int} :
    x.toRat = n ↔ x.signedUnits = n * 2 ^ F.scale := by
  have hpos : (2 : ℚ) ^ F.scale ≠ 0 := by positivity
  rw [toRat, div_eq_iff hpos]
  exact_mod_cast Iff.rfl

/-- What `isInteger` and `truncate?` see of a finite number are its units. -/
theorem units_of_isInteger {x : Binary F} (h : x.isInteger = true) :
    ∃ n, x.truncate? = some n ∧ x.toRat = n := by
  cases x with
  | nan => cases h
  | signed negative k =>
    simp only [isInteger, Bool.and_eq_true, bne_iff_ne, beq_iff_eq, Nat.pow_eq] at h
    obtain ⟨hfinite, hmod⟩ := h
    have hwhole : F.units k = F.units k / 2 ^ F.scale * 2 ^ F.scale :=
      (Nat.div_mul_cancel (Nat.dvd_of_mod_eq_zero hmod)).symm
    refine ⟨_, if_neg hfinite, ?_⟩
    rw [toRat_eq_int_iff, Nat.shiftRight_eq_div_pow]
    cases negative with
    | false =>
      change (F.units k : Int) = (F.units k / 2 ^ F.scale : Nat) * _
      exact_mod_cast hwhole
    | true =>
      change -(F.units k : Int) = -((F.units k / 2 ^ F.scale : Nat) : Int) * _
      rw [Int.neg_mul]
      exact congrArg Neg.neg (by exact_mod_cast hwhole)

theorem isInteger_iff {x : Binary F} (hx : x.isFinite = true) :
    x.isInteger = true ↔ ∃ n : Int, x.toRat = n := by
  constructor
  · intro h
    obtain ⟨n, -, hn⟩ := units_of_isInteger h
    exact ⟨n, hn⟩
  · rintro ⟨n, hn⟩
    rw [toRat_eq_int_iff] at hn
    cases x with
    | nan => cases hx
    | signed negative k =>
      have hdvd : 2 ^ F.scale ∣ F.units k := by
        rw [← Int.natCast_dvd_natCast]
        push_cast
        cases negative with
        | false => exact ⟨n, by rw [mul_comm]; exact hn⟩
        | true =>
          change -(F.units k : Int) = n * 2 ^ F.scale at hn
          exact ⟨-n, by rw [mul_neg, mul_comm, ← hn, neg_neg]⟩
      simp only [isInteger, Bool.and_eq_true, beq_iff_eq, Nat.pow_eq]
      exact ⟨hx, Nat.mod_eq_zero_of_dvd hdvd⟩

/-! ### Integers beyond 64 bits -/

/-- The ordinal of `2 ^ 63`. -/
def largeOrdinal : Nat := 1086 * 2 ^ 52

theorem units_largeOrdinal : binary64.units largeOrdinal = 2 ^ 63 * 2 ^ binary64.scale := by
  decide +kernel

/-- An integer that is not below `2 ^ 63` is not rounded below it. -/
theorem le_toRat_ofInt {n : Int} (h : 2 ^ 63 ≤ n) : 2 ^ 63 ≤ (ofInt n : Double).toRat := by
  have hpositive : decide (n < 0) = false := by simp; omega
  have hreach : largeOrdinal ≤ binary64.nearest (n.natAbs <<< binary64.scale) 1 := by
    apply Format.le_nearest Nat.one_pos
    rw [units_largeOrdinal, Nat.mul_one, Nat.shiftLeft_eq]
    exact Nat.mul_le_mul_right _ (by omega)
  have hinfinity : largeOrdinal ≤ binary64.infinity := by decide
  have hunits : 2 ^ 63 * 2 ^ binary64.scale ≤ (ofInt n : Double).signedUnits := by
    rw [ofInt, hpositive]
    change (2 ^ 63 * 2 ^ binary64.scale : Int) ≤ (binary64.units _ : Int)
    have hunits := binary64.units_le_iff.mpr (Nat.le_min.mpr ⟨hreach, hinfinity⟩)
    rw [units_largeOrdinal] at hunits
    exact_mod_cast hunits
  rw [toRat, le_div_iff₀ (by positivity)]
  exact_mod_cast hunits

/-- An integer below `2 ^ 64` is not rounded to infinity. -/
theorem isFinite_ofInt {n : Int} (h : n.natAbs ≤ 2 ^ 64) : (ofInt n : Double).isFinite = true := by
  have hunits : binary64.units (largeOrdinal + 2 ^ 52) = 2 ^ 64 * 2 ^ binary64.scale := by
    decide +kernel
  have hreach : binary64.nearest (n.natAbs <<< binary64.scale) 1 ≤ largeOrdinal + 2 ^ 52 := by
    apply Format.nearest_le Nat.one_pos
    rw [hunits, Nat.mul_one, Nat.shiftLeft_eq]
    gcongr
  have hinfinity : largeOrdinal + 2 ^ 52 < binary64.infinity := by decide
  apply bne_iff_ne.mpr
  exact ((Nat.min_le_left _ _).trans_lt (hreach.trans_lt hinfinity)).ne

end Binary

/-! ### Doubles as 64-bit integers -/

theorem ofInt_eq_iff {n : Int} (hleast : -2 ^ 63 ≤ n) (hmost : n < 2 ^ 63) {i : Int64} :
    Int64.ofInt n = i ↔ n = i.toInt := by
  rw [← Int64.toInt_inj, Int64.toInt_ofInt_of_le hleast hmost]

/-- A double is taken as the 64-bit integer that it equals, except that `2 ^ 63` is taken as
    the largest of them. -/
theorem FilterKind.integerOfFloat?_eq_some_iff {x : Double} (hx : x.isFinite = true) {i : Int64} :
    integerOfFloat? x = some i ↔
      x.toRat = (i.toInt : ℚ) ∨ x.toRat = 2 ^ 63 ∧ i = Int64.maxValue := by
  have hleast := i.le_toInt
  have hmost := i.toInt_lt
  have hlargest : i = Int64.maxValue ↔ i.toInt = 2 ^ 63 - 1 := by
    rw [← Int64.toInt_maxValue, Int64.toInt_inj]
  unfold integerOfFloat?
  split
  · rename_i hinteger
    obtain ⟨n, htruncate, hn⟩ := Binary.units_of_isInteger hinteger
    have hpower : (n : ℚ) = 2 ^ 63 ↔ n = 2 ^ 63 := by exact_mod_cast Iff.rfl
    rw [htruncate, hn, hpower, hlargest, Int.cast_inj]
    dsimp only
    split
    · rename_i hrange
      rw [Option.some_inj, ofInt_eq_iff (by omega) (by omega)]
      omega
    · rename_i hrange
      simp only [reduceCtorEq, false_iff]
      omega
  · rename_i hinteger
    rw [Binary.isInteger_iff hx, not_exists] at hinteger
    simp only [reduceCtorEq, false_iff, not_or]
    refine ⟨hinteger _, fun h => hinteger (2 ^ 63) ?_⟩
    rw [h.1]
    norm_num

end KnowledgeSearch
