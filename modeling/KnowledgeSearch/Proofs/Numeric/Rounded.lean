/-
  KnowledgeSearch/Proofs/Numeric/Rounded.lean
  ===========================================
  **Numbers that are rational ones, rounded.**

  In the range where a format has its full precision, one rounding moves a number by a small part
  of itself and keeps what is on the grid (`Binary.IsRounded`).  Products, quotients, integers and
  decimals are the exact ones, rounded.  Nothing else is said of them where several roundings are
  put together.
-/
import KnowledgeSearch.Proofs.Numeric.Middle
import KnowledgeSearch.Proofs.Numeric.Ordinal

namespace KnowledgeSearch

open Format (binary64)

/-! ### Rounding once -/

/-- Whether a number is in the range where a format has its full precision. -/
structure Format.Covers (F : Format) (r : ℚ) : Prop where
  normal : 2 ^ F.fractionBits ≤ r * 2 ^ F.scale
  finite : ∃ k < F.infinity, r * 2 ^ F.scale ≤ F.units k

/-- The range of single precision and some more is far inside that of double precision. -/
theorem Format.covers_of_le {r : ℚ} (hleast : 1 / 2 ^ 200 ≤ r) (hmost : r ≤ 2 ^ 200) :
    binary64.Covers r := by
  constructor
  · have hpower : (2 : ℚ) ^ binary64.fractionBits * 2 ^ 200 ≤ 2 ^ binary64.scale := by
      rw [← pow_add]
      exact pow_le_pow_right₀ (by norm_num) (by decide)
    calc (2 : ℚ) ^ binary64.fractionBits
        = 1 / 2 ^ 200 * (2 ^ binary64.fractionBits * 2 ^ 200) := by ring
      _ ≤ r * 2 ^ binary64.scale := by gcongr
  · obtain ⟨k, hk⟩ := binary64.exists_units_mul_pow (n := 1) (by decide) (200 + binary64.scale)
    refine ⟨k, ?_, ?_⟩
    · have hsteps := @units_steps binary64 2046 (2 ^ binary64.fractionBits) (by omega) (.inr le_rfl)
      have hinfinity : binary64.infinity = 2046 * 2 ^ binary64.fractionBits +
          2 ^ binary64.fractionBits := by decide
      rw [← binary64.units_lt_iff, hk, hinfinity, hsteps, one_mul, ← pow_add]
      exact Nat.pow_lt_pow_right Nat.one_lt_two (by decide)
    · rw [hk, one_mul, pow_add, Nat.cast_mul, Nat.cast_pow, Nat.cast_pow, Nat.cast_ofNat]
      gcongr

namespace Binary

/-- Whether a number is a rational one, rounded: near it, and the same if that is on the grid. -/
structure IsRounded {F : Format} (x : Binary F) (r : ℚ) : Prop where
  finite : ∃ j < F.infinity, x.AtOrdinal j
  near : 2 * 2 ^ F.fractionBits * |x.toRat - r| ≤ r
  exact : ∀ k, (F.units k : ℚ) = r * 2 ^ F.scale → x.toRat = r

section Rounding

variable {F : Format} {x y : Binary F} {a b : Nat} {r : ℚ}

theorem AtOrdinal.isRounded {num den : Nat} (hx : x.AtOrdinal (F.nearest num den))
    (hden : 0 < den) (hnum : (num : ℚ) = r * 2 ^ F.scale * den) (hr : F.Covers r) :
    x.IsRounded r := by
  have hpos : (0 : ℚ) < 2 ^ F.scale := by positivity
  have hdenRat : (0 : ℚ) < den := mod_cast hden
  have hquotient : (num / den : ℚ) = r * 2 ^ F.scale := by
    rw [hnum, mul_div_cancel_right₀ _ hdenRat.ne']
  obtain ⟨k, hk, hle⟩ := hr.finite
  have hfinite : F.nearest num den < F.infinity := by
    refine (Format.nearest_le hden ?_).trans_lt hk
    have hscaled := mul_le_mul_of_nonneg_right hle hdenRat.le
    rw [← hnum] at hscaled
    exact_mod_cast hscaled
  have hvalue : x.toRat * 2 ^ F.scale = F.units (F.nearest num den) := by
    rw [hx.toRat hfinite.le, div_mul_cancel₀ _ hpos.ne']
  refine ⟨⟨_, hfinite, hx⟩, ?_, ?_⟩
  · have hnormal : 2 ^ F.fractionBits * den ≤ num := by
      have hscaled := mul_le_mul_of_nonneg_right hr.normal hdenRat.le
      rw [← hnum] at hscaled
      exact_mod_cast hscaled
    have hmoved := Format.abs_units_nearest_sub_le hden hnormal
    rw [hquotient, ← hvalue, ← sub_mul, abs_mul, abs_of_pos hpos, ← mul_assoc] at hmoved
    exact le_of_mul_le_mul_right hmoved hpos
  · intro k hk
    have hnearest : F.nearest num den = k := by
      apply Format.nearest_eq hden
      rw [← hk] at hnum
      exact_mod_cast hnum
    apply mul_right_cancel₀ hpos.ne'
    rw [hvalue, hnearest, hk]

/-- A product is the exact one, rounded. -/
theorem AtOrdinal.isRounded_mul (hx : x.AtOrdinal a) (hy : y.AtOrdinal b) (ha : a < F.infinity)
    (hb : b < F.infinity) (hr : F.Covers (x.toRat * y.toRat)) :
    (x * y).IsRounded (x.toRat * y.toRat) := by
  have hpos : (2 : ℚ) ^ F.scale ≠ 0 := by positivity
  refine (hx.mul hy ha hb).isRounded (Nat.two_pow_pos _) ?_ hr
  rw [hx.toRat ha.le, hy.toRat hb.le]
  push_cast
  field_simp

/-- A quotient is the exact one, rounded. -/
theorem AtOrdinal.isRounded_div (hx : x.AtOrdinal a) (hy : y.AtOrdinal b) (ha : a < F.infinity)
    (hb : b < F.infinity) (hpositive : 0 < y.toRat) (hr : F.Covers (x.toRat / y.toRat)) :
    (x / y).IsRounded (x.toRat / y.toRat) := by
  have hpos : (2 : ℚ) ^ F.scale ≠ 0 := by positivity
  have hunits : 0 < F.units b := by
    rw [Nat.pos_iff_ne_zero]
    intro hzero
    rw [hy.toRat hb.le, hzero, Nat.cast_zero, zero_div] at hpositive
    exact hpositive.false
  have hunitsRat : (F.units b : ℚ) ≠ 0 := mod_cast hunits.ne'
  refine (hx.div hy ha hb (F.units_pos_iff.mp hunits)).isRounded hunits ?_ hr
  rw [hx.toRat ha.le, hy.toRat hb.le]
  push_cast
  field_simp

end Rounding

/-! ### Double precision -/

/-- A number with few bits is kept. -/
theorem IsRounded.eq_of_lt {x : Double} {r : ℚ} (h : x.IsRounded r) {n e : Nat} (hn : n < 2 ^ 53)
    (hr : r * 2 ^ 150 = n * 2 ^ e) : x.toRat = r := by
  obtain ⟨k, hk⟩ := binary64.exists_units_mul_pow (n := n) hn (e + (binary64.scale - 150))
  apply h.exact k
  have hscale : binary64.scale = 150 + (binary64.scale - 150) := by decide
  rw [hk, hscale, pow_add 2 150, ← mul_assoc, hr, Nat.add_sub_cancel_left]
  push_cast
  ring

/-- An integer is the exact one, rounded. -/
theorem isRounded_ofNat {n : Nat} (hpos : 0 < n) (hmost : n ≤ 2 ^ 200) :
    (ofNat n : Double).IsRounded n := by
  have hordinal : (ofNat n : Double).AtOrdinal (binary64.nearest (n * 2 ^ binary64.scale) 1) := by
    have hpositive : decide ((n : Int) < 0) = false := by simp
    rw [ofNat, ofInt, hpositive, Int.natAbs_natCast, Nat.shiftLeft_eq]
    exact atOrdinal_positive
  apply hordinal.isRounded Nat.one_pos
  · push_cast
    ring
  · apply Format.covers_of_le
    · exact (by norm_num : (1 / 2 ^ 200 : ℚ) ≤ 1).trans (mod_cast hpos)
    · exact_mod_cast hmost

/-- What is rounded is moved by a small part. -/
theorem IsRounded.near_double {x : Double} {r : ℚ} (h : x.IsRounded r) :
    2 ^ 53 * |x.toRat - r| ≤ r := by
  have hbits : binary64.fractionBits = 52 := rfl
  have hnear := h.near
  rw [hbits] at hnear
  linarith

/-- What is rounded stays of its size. -/
theorem IsRounded.bounds {x : Double} {r : ℚ} (h : x.IsRounded r) :
    r / 2 ≤ x.toRat ∧ x.toRat ≤ 2 * r := by
  have hnear := h.near_double
  obtain ⟨hbelow, habove⟩ := abs_le.mp (le_refl |x.toRat - r|)
  have hnonneg := abs_nonneg (x.toRat - r)
  constructor <;> linarith

/-- A decimal is the exact one, rounded. -/
theorem isRounded_ofDecimal {d : Decimal} (hdigits : 0 < d.digits) (hmost : d.digits < 10 ^ 20)
    (hexponent : -60 ≤ d.exponent ∧ d.exponent ≤ 60) (hr : binary64.Covers d.toRat) :
    (ofDecimal false d.digits d.exponent : Double).IsRounded d.toRat := by
  have hlength : (Nat.toDigits 10 d.digits).length ≤ 20 :=
    (Nat.length_toDigits_le_iff (by decide) (by decide)).mpr hmost
  have hordinal : (ofDecimal false d.digits d.exponent : Double).AtOrdinal
      (binary64.nearest (d.digits * 10 ^ d.exponent.toNat * 2 ^ binary64.scale)
        (10 ^ (-d.exponent).toNat)) := by
    have hbits : binary64.exponentBits = 11 := rfl
    have hscale : binary64.scale = 1074 := by decide
    rw [ofDecimal, if_neg hdigits.ne', hbits, Nat.pow_eq, if_neg (by omega),
      if_neg (by rw [hscale]; omega), Nat.shiftLeft_eq]
    exact atOrdinal_positive
  apply hordinal.isRounded (Nat.pow_pos (by decide)) _ hr
  rw [Decimal.toRat]
  push_cast
  linear_combination (-d.digits * 2 ^ binary64.scale : ℚ) * zpow_mul_pow_toNat d.exponent

end Binary

end KnowledgeSearch
