/-
  KnowledgeSearch/Proofs/Numeric/Middle.lean
  ==========================================
  **Short decimals and the middles between single precision numbers.**

  Lengths are counted in halves of the unit of single precision, so that the middle of two
  numbers next to each other is a whole number of them.  Half the step between the two is
  `2 ^ shift` of these halves and the middle a multiple of it, with a factor below `2 ^ 25`.

  A decimal on a grid that is not finer than this half step either is the middle, or misses it
  by more than `17 / 2 ^ 56` of itself, with three exceptions (`Decimal.near_middle`).  For
  each of the 254 steps this is a property of one fraction, the grid's distance as a part of the
  half step, and two others that enclose it (`IsTight`); they are found by computation and
  checked.
-/
import KnowledgeSearch.Proofs.Numeric.Neighbour
import KnowledgeSearch.Proofs.Numeric.Error
import Mathlib.Algebra.Order.Field.Power
import Mathlib.Algebra.Order.Ring.Abs

namespace KnowledgeSearch

/-! ### Grids and steps -/

/-- The least exponent of ten whose grid is not finer than a half step. -/
def coarseExponent (shift : Nat) : Int := -((150 - shift) * 30103 / 100000)

/-- The distance of that grid as a part of the half step: this is its numerator. -/
def gridNum (shift : Nat) : Nat := 10 ^ (coarseExponent shift).toNat * 2 ^ 150

/-- The denominator of the grid's distance as a part of the half step. -/
def gridDen (shift : Nat) : Nat := 10 ^ (-coarseExponent shift).toNat * 2 ^ shift

/-- The half steps and factors of the middles to which a decimal comes nearer. -/
def nearMiddles : List (Nat × Nat) :=
  [(42, 22841339), (43, 22841339), (100, 28874659)]

/-- Whether grid points at a multiple of `d` are the same multiple of `m` half steps, or miss it
    by enough, or only the first of them is at issue and known. -/
def IsFar (shift gap d m : Nat) : Prop :=
  gap = 0 ∨ 17 * (d * gridNum shift) < 2 ^ 56 * gap ∨
    (shift, m) ∈ nearMiddles ∧ 2 ^ 25 * gridDen shift < 2 * d * gridNum shift

instance (shift gap d m : Nat) : Decidable (IsFar shift gap d m) :=
  inferInstanceAs (Decidable (_ ∨ _ ∨ _))

/-- Whether two fractions enclose the grid's distance so tightly that no grid point between zero
    and `2 ^ 25` half steps is near a multiple of the half step but at theirs. -/
structure IsTight (shift : Nat) (b : Bracket) : Prop where
  encloses : b.Encloses (gridNum shift) (gridDen shift)
  lowDen_le : b.lowDen ≤ 2 ^ 26
  highDen_le : b.highDen ≤ 2 ^ 26
  reaches : 2 ^ 25 * gridDen shift < (b.lowDen + b.highDen) * gridNum shift
  low : IsFar shift (b.lowGap (gridNum shift) (gridDen shift)) b.lowDen b.lowNum
  high : IsFar shift (b.highGap (gridNum shift) (gridDen shift)) b.highDen b.highNum

instance (shift : Nat) (b : Bracket) : Decidable (IsTight shift b) :=
  decidable_of_iff (b.Encloses (gridNum shift) (gridDen shift) ∧ b.lowDen ≤ 2 ^ 26 ∧
      b.highDen ≤ 2 ^ 26 ∧
      2 ^ 25 * gridDen shift < (b.lowDen + b.highDen) * gridNum shift ∧
      IsFar shift (b.lowGap (gridNum shift) (gridDen shift)) b.lowDen b.lowNum ∧
      IsFar shift (b.highGap (gridNum shift) (gridDen shift)) b.highDen b.highNum)
    ⟨fun ⟨h₁, h₂, h₃, h₄, h₅, h₆⟩ => ⟨h₁, h₂, h₃, h₄, h₅, h₆⟩,
      fun ⟨h₁, h₂, h₃, h₄, h₅, h₆⟩ => ⟨h₁, h₂, h₃, h₄, h₅, h₆⟩⟩

/-- The fractions that enclose the grid's distance. -/
def gridBracket (shift : Nat) : Bracket :=
  .around (gridNum shift) (gridDen shift) (2 ^ 25 * gridDen shift / gridNum shift)

theorem isTight_gridBracket : ∀ shift < 254, IsTight shift (gridBracket shift) := by
  decide +kernel

/-- The grid is not finer than the half step, and the next finer one is. -/
theorem gridDen_le : ∀ shift < 254,
    gridDen shift ≤ gridNum shift ∧ gridNum shift < 10 * gridDen shift := by
  decide +kernel

theorem gridDen_pos (shift : Nat) : 0 < gridDen shift := by
  unfold gridDen
  positivity

/-! ### Grid points near a multiple of the half step -/

/-- Whether a grid point is a multiple of the half step, or misses it by more than a small part
    of itself, or is one of the exceptions. -/
def KeepsClear (shift d m : Nat) : Prop :=
  (d * gridNum shift : Int) = m * gridDen shift ∨
    (17 * (d * gridNum shift) : Int) < 2 ^ 56 * |(d * gridNum shift - m * gridDen shift : Int)| ∨
      (shift, m) ∈ nearMiddles

variable {shift : Nat}

theorem IsFar.multiple {gap d m : Nat} (h : IsFar shift gap d m)
    (hgap : |(d * gridNum shift - m * gridDen shift : Int)| = gap) {i : Nat}
    (hi : i * d * gridNum shift ≤ 2 ^ 25 * gridDen shift) :
    KeepsClear shift (i * d) (i * m) := by
  have hdiff : |((i * d : Nat) * gridNum shift - (i * m : Nat) * gridDen shift : Int)| =
      i * gap := by
    rw [← hgap, ← Nat.abs_cast i, ← abs_mul]
    congr 1
    push_cast
    ring
  rcases Nat.eq_zero_or_pos i with rfl | hpos
  · left
    simp
  rcases h with rfl | hfar | ⟨hmem, hfirst⟩
  · left
    rw [Nat.cast_zero, mul_zero, abs_eq_zero] at hdiff
    exact sub_eq_zero.mp hdiff
  · right; left
    rw [hdiff]
    have hscaled := Nat.mul_lt_mul_of_pos_left hfar hpos
    calc (17 * ((i * d : Nat) * gridNum shift) : Int)
        = (i * (17 * (d * gridNum shift)) : Nat) := by push_cast; ring
      _ < (i * (2 ^ 56 * gap) : Nat) := mod_cast hscaled
      _ = 2 ^ 56 * (i * gap) := by push_cast; ring
  · right; right
    have hone : i = 1 := by
      by_contra hne
      have htwo : 2 * d * gridNum shift ≤ i * d * gridNum shift := by
        apply Nat.mul_le_mul_right
        apply Nat.mul_le_mul_right
        omega
      omega
    rwa [hone, Nat.one_mul]

/-- **Grid points up to `2 ^ 25` half steps keep clear of the multiples of the half step.** -/
theorem IsTight.keepsClear {b : Bracket} (h : IsTight shift b) {d m : Nat}
    (hd : d * gridNum shift ≤ 2 ^ 25 * gridDen shift) : KeepsClear shift d m := by
  have hsmall : d < b.lowDen + b.highDen := by
    by_contra hlarge
    have hmul := Nat.mul_le_mul_right (gridNum shift) (not_lt.mp hlarge)
    exact absurd h.reaches (by omega)
  rcases h.encloses.approximation (m := m) hsmall with ⟨i, rfl, rfl⟩ | ⟨j, rfl, rfl⟩ | haway
  · refine h.low.multiple ?_ hd
    rw [← abs_of_nonneg (Int.natCast_nonneg (b.lowGap _ _)), h.encloses.cast_lowGap]
    ring_nf
  · refine h.high.multiple ?_ hd
    rw [← abs_of_nonneg (Int.natCast_nonneg (b.highGap _ _)), h.encloses.cast_highGap, abs_sub_comm]
    ring_nf
  · right; left
    have hgaps := h.encloses.den_le_mul_gaps h.lowDen_le h.highDen_le
    have hpos := gridDen_pos shift
    zify at hd hgaps hpos
    linarith

/-! ### Decimals near a middle -/

/-- A power of ten as a quotient of two powers with natural exponents. -/
theorem zpow_mul_pow_toNat (e : Int) : (10 : ℚ) ^ e * 10 ^ (-e).toNat = 10 ^ e.toNat := by
  rw [← zpow_natCast, ← zpow_natCast, ← zpow_add₀ (by norm_num)]
  congr 1
  omega

/-- The grid's distance, in halves of a unit. -/
theorem zpow_coarseExponent (shift : Nat) :
    (10 : ℚ) ^ coarseExponent shift * 2 ^ 150 * gridDen shift = gridNum shift * 2 ^ shift := by
  rw [gridDen, gridNum]
  push_cast
  linear_combination (2 ^ 150 * 2 ^ shift : ℚ) * zpow_mul_pow_toNat (coarseExponent shift)

/-- A grid below the coarse one is finer than the half step. -/
theorem zpow_lt_of_lt_coarse {e : Int} (hshift : shift < 254) (he : e < coarseExponent shift) :
    (10 : ℚ) ^ e * 2 ^ 150 < 2 ^ shift := by
  have hden : (0 : ℚ) < gridDen shift := mod_cast gridDen_pos shift
  have hgrid : (gridNum shift : ℚ) < 10 * gridDen shift := mod_cast (gridDen_le shift hshift).2
  have hnext : (10 : ℚ) ^ e * 10 ≤ 10 ^ coarseExponent shift := by
    rw [← zpow_add_one₀ (by norm_num)]
    exact zpow_le_zpow_right₀ (by norm_num) (by omega)
  have hstep : (0 : ℚ) < 2 ^ shift := by positivity
  apply lt_of_mul_lt_mul_right _ hden.le
  calc (10 : ℚ) ^ e * 2 ^ 150 * gridDen shift
      = (10 : ℚ) ^ e * 10 * 2 ^ 150 * gridDen shift / 10 := by ring
    _ ≤ (10 : ℚ) ^ coarseExponent shift * 2 ^ 150 * gridDen shift / 10 := by gcongr
    _ = gridNum shift * 2 ^ shift / 10 := by rw [zpow_coarseExponent]
    _ < 10 * gridDen shift * 2 ^ shift / 10 := by gcongr
    _ = 2 ^ shift * gridDen shift := by ring

/-- The coarse grid and those above it are not finer than the half step. -/
theorem le_zpow_of_coarse_le {e : Int} (hshift : shift < 254) (he : coarseExponent shift ≤ e) :
    (2 : ℚ) ^ shift ≤ 10 ^ e * 2 ^ 150 := by
  have hden : (0 : ℚ) < gridDen shift := mod_cast gridDen_pos shift
  have hgrid : (gridDen shift : ℚ) ≤ gridNum shift := mod_cast (gridDen_le shift hshift).1
  have hcoarse : (10 : ℚ) ^ coarseExponent shift ≤ 10 ^ e :=
    zpow_le_zpow_right₀ (by norm_num) he
  apply le_of_mul_le_mul_right _ hden
  calc (2 : ℚ) ^ shift * gridDen shift ≤ gridNum shift * 2 ^ shift := by
        rw [mul_comm]
        gcongr
    _ = (10 : ℚ) ^ coarseExponent shift * 2 ^ 150 * gridDen shift := (zpow_coarseExponent shift).symm
    _ ≤ (10 : ℚ) ^ e * 2 ^ 150 * gridDen shift := by gcongr

namespace Decimal

/-- The number that a decimal stands for. -/
def toRat (d : Decimal) : ℚ := d.digits * 10 ^ d.exponent

/-- The same in halves of the unit of single precision. -/
def halves (d : Decimal) : ℚ := d.toRat * 2 ^ 150

variable {d : Decimal}

/-- A quotient of whole numbers that keeps clear of another one does so at any scale. -/
theorem clear_of_scaled {num den m : Nat} {P : Prop} {x step : ℚ} (hden : 0 < den)
    (hstep : 0 < step) (hx : x * den = num * step)
    (h : (num : Int) = m * den ∨ (17 * num : Int) < 2 ^ 56 * |(num - m * den : Int)| ∨ P) :
    x = m * step ∨ 17 * x < 2 ^ 56 * |x - m * step| ∨ P := by
  have hpos : (0 : ℚ) < den := mod_cast hden
  have hmissed : |x - m * step| * den = |(num - m * den : ℚ)| * step := by
    rw [← abs_of_pos hpos, ← abs_mul, sub_mul, abs_of_pos hpos, hx, mul_right_comm, ← sub_mul,
      abs_mul, abs_of_pos hstep]
  rcases h with heq | hclear | hP
  · left
    have heq' : (num : ℚ) = m * den := mod_cast heq
    apply mul_right_cancel₀ hpos.ne'
    rw [hx, heq']
    ring
  · right; left
    have hclear' : (17 * num : ℚ) < 2 ^ 56 * |(num - m * den : ℚ)| := mod_cast hclear
    apply lt_of_mul_lt_mul_right _ hpos.le
    calc 17 * x * den = 17 * num * step := by rw [mul_assoc, hx, mul_assoc]
      _ < 2 ^ 56 * |(num - m * den : ℚ)| * step := mul_lt_mul_of_pos_right hclear' hstep
      _ = 2 ^ 56 * |x - m * step| * den := by rw [mul_assoc, mul_assoc, hmissed]
  · exact .inr (.inr hP)

/-- **A decimal that is not too fine is a middle, or misses it by more than a small part of
    itself.** -/
theorem near_middle (hshift : shift < 254) (hcoarse : coarseExponent shift ≤ d.exponent)
    (hmost : d.halves ≤ 2 ^ 25 * 2 ^ shift) (m : Nat) :
    d.halves = m * 2 ^ shift ∨ 17 * d.halves < 2 ^ 56 * |d.halves - m * 2 ^ shift| ∨
      (shift, m) ∈ nearMiddles := by
  obtain ⟨i, hi⟩ := Int.eq_ofNat_of_zero_le (Int.sub_nonneg.mpr hcoarse)
  have hexponent : d.exponent = coarseExponent shift + i := by omega
  have hstep : (0 : ℚ) < 2 ^ shift := by positivity
  -- the decimal is a point of the grid
  have hpoint : d.halves * gridDen shift =
      (d.digits * 10 ^ i * gridNum shift : Nat) * 2 ^ shift := by
    rw [halves, toRat, hexponent, zpow_add₀ (by norm_num), zpow_natCast]
    push_cast
    linear_combination (d.digits * 10 ^ i : ℚ) * zpow_coarseExponent shift
  have hpoints : d.digits * 10 ^ i * gridNum shift ≤ 2 ^ 25 * gridDen shift := by
    have hscaled := mul_le_mul_of_nonneg_right hmost (Nat.cast_nonneg (gridDen shift))
    rw [hpoint, mul_right_comm (2 ^ 25 : ℚ)] at hscaled
    exact_mod_cast le_of_mul_le_mul_right hscaled hstep
  have hclear := (isTight_gridBracket shift hshift).keepsClear (m := m) hpoints
  apply clear_of_scaled (gridDen_pos shift) hstep hpoint
  rw [Nat.cast_mul]
  exact hclear

end Decimal

end KnowledgeSearch
