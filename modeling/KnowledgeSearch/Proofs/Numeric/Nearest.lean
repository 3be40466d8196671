/-
  KnowledgeSearch/Proofs/Numeric/Nearest.lean
  ===========================================
  **Which number is the nearest.**

  To what a number is rounded is decided by the middles between neighbouring values: by those
  that it lies below and those that it lies above (`Format.Below`).  So two numbers are rounded to
  the same value exactly if no middle separates them (`Binary.IsNearest.eq_iff`), whatever else
  lies between them.

  Decimals are rounded this way in one step (`Binary.isNearest_ofDecimal`), and doubles are
  (`Binary.isNearest_toSingle`).  A decimal that becomes a double first may be moved onto a
  middle or over it, and is rounded to another single precision number then.
-/
import KnowledgeSearch.Proofs.Numeric.Error
import KnowledgeSearch.Proofs.Numeric.Middle
import KnowledgeSearch.Proofs.Numeric.Ordinal
import Mathlib.Algebra.Order.Field.Basic

namespace KnowledgeSearch

open Format (binary32 binary64)

namespace Format

variable {F : Format} {num den j k : Nat} {q r : ℚ}

/-! ### Middles -/

/-- The point halfway between the value at an ordinal and the next one. -/
def middle (F : Format) (k : Nat) : ℚ := (F.units k + F.units (k + 1) : Nat) / 2 ^ (F.scale + 1)

/-- Whether a number lies below the middle behind an ordinal.  The middle itself is taken to lie
    below it if the ordinal is even. -/
def Below (F : Format) (r : ℚ) (k : Nat) : Prop := r < F.middle k ∨ r = F.middle k ∧ k % 2 = 0

/-- Whether none of the middles of a format lies between two numbers.  The last one is halfway
    between the largest finite value and what would be the next. -/
def NoMiddleBetween (F : Format) (q r : ℚ) : Prop := ∀ k < F.infinity, F.Below q k ↔ F.Below r k

theorem middle_mono (h : j ≤ k) : F.middle j ≤ F.middle k := by
  have hfirst := F.units_le_iff.mpr h
  have hsecond := F.units_le_iff.mpr (Nat.succ_le_succ h)
  unfold middle
  gcongr

theorem middle_pos : 0 < F.middle k := by
  have hnext : 0 < F.units (k + 1) := F.units_pos_iff.mpr k.succ_pos
  have hsum : 0 < F.units k + F.units (k + 1) := by omega
  exact div_pos (mod_cast hsum) (by positivity)

/-- **A number is not rounded above an ordinal exactly if it lies below the middle behind it.** -/
theorem nearest_le_iff (hden : 0 < den) (hnum : (num : ℚ) = r * 2 ^ F.scale * den) :
    F.nearest num den ≤ k ↔ F.Below r k := by
  have hpos : (0 : ℚ) < 2 ^ (F.scale + 1) := by positivity
  have hdenRat : (0 : ℚ) < den := mod_cast hden
  have hdouble : r * 2 ^ (F.scale + 1) * den = (2 * num : Nat) := by
    rw [Nat.cast_mul, hnum]
    push_cast
    ring
  have hlt : r < F.middle k ↔ 2 * num < (F.units k + F.units (k + 1)) * den := by
    rw [middle, lt_div_iff₀ hpos, ← mul_lt_mul_iff_left₀ hdenRat, hdouble]
    exact_mod_cast Iff.rfl
  have heq : r = F.middle k ↔ 2 * num = (F.units k + F.units (k + 1)) * den := by
    rw [middle, eq_div_iff hpos.ne', ← mul_left_inj' hdenRat.ne', hdouble]
    exact_mod_cast Iff.rfl
  rw [Below, hlt, heq]
  constructor
  · intro h
    rcases (le_middle hden h).lt_or_eq with hlt | heq
    · exact .inl hlt
    · refine .inr ⟨heq, ?_⟩
      rw [nearest_middle hden heq] at h
      by_contra hodd
      rw [if_neg hodd] at h
      omega
  · rintro (hlt | ⟨heq, heven⟩)
    · exact nearest_le_of_lt_middle hden hlt
    · rw [nearest_middle hden heq, if_pos heven]

end Format

namespace Binary

variable {F : Format} {x y : Binary F} {negative : Bool} {q r : ℚ}

/-! ### Rounded numbers -/

/-- Whether a number is the rational one with the given sign and magnitude, rounded: none of the
    middles lies between them. -/
def IsNearest (x : Binary F) (negative : Bool) (r : ℚ) : Prop :=
  ∃ a, x = ofOrdinal negative a ∧ ∀ k < F.infinity, a ≤ k ↔ F.Below r k

theorem ofOrdinal_eq_iff {a b : Nat} :
    (ofOrdinal negative a : Binary F) = ofOrdinal negative b ↔
      ∀ k < F.infinity, a ≤ k ↔ b ≤ k := by
  rw [ofOrdinal, ofOrdinal, Binary.signed.injEq, Fin.mk.injEq]
  constructor
  · rintro ⟨-, hmin⟩ k hk
    omega
  · intro h
    refine ⟨rfl, ?_⟩
    by_contra hne
    rcases lt_or_gt_of_ne hne with hlt | hgt
    · have hiff := h a (by omega)
      omega
    · have hiff := h b (by omega)
      omega

/-- **Numbers are rounded alike exactly if no middle separates them.** -/
theorem IsNearest.eq_iff (hx : x.IsNearest negative q) (hy : y.IsNearest negative r) :
    x = y ↔ F.NoMiddleBetween q r := by
  obtain ⟨a, rfl, ha⟩ := hx
  obtain ⟨b, rfl, hb⟩ := hy
  rw [ofOrdinal_eq_iff]
  exact forall₂_congr fun k hk => iff_congr (ha k hk) (hb k hk)

theorem isNearest_round {num den : Nat} (hden : 0 < den)
    (hnum : (num : ℚ) = r * 2 ^ F.scale * den) :
    (round negative num den : Binary F).IsNearest negative r :=
  ⟨_, rfl, fun _ _ => Format.nearest_le_iff hden hnum⟩

/-! ### Single precision -/

theorem middle_last : binary32.middle (binary32.infinity - 1) = overflow := by
  have hscale : binary32.scale = 149 := by decide
  have hnext : binary32.infinity - 1 + 1 = binary32.infinity := by decide
  rw [Format.middle, hnext, middle_infinity, hscale]
  norm_num [overflow, overflowUnits]

/-- A number is rounded to infinity exactly if it reaches the bound. -/
theorem IsNearest.isFinite_iff {x : Single} (hx : x.IsNearest negative r) :
    x.isFinite = true ↔ r < overflow := by
  obtain ⟨a, rfl, ha⟩ := hx
  have hlast : binary32.infinity - 1 < binary32.infinity := by decide
  have hodd : ¬ (binary32.infinity - 1) % 2 = 0 := by decide
  have hbelow := ha _ hlast
  rw [Format.Below, middle_last] at hbelow
  rw [ofOrdinal, isFinite_signed_iff]
  constructor
  · intro h
    exact (hbelow.mp (by dsimp only at h; omega)).resolve_right fun h => hodd h.2
  · intro h
    have hle := hbelow.mpr (.inl h)
    dsimp only
    omega

theorem IsNearest.isFinite_eq_false_iff {x : Single} (hx : x.IsNearest negative r) :
    x.isFinite = false ↔ overflow ≤ r := by
  rw [← Bool.not_eq_true, hx.isFinite_iff, not_lt]

/-- A double is narrowed in one rounding. -/
theorem isNearest_toSingle {y : Double} {j : Fin (binary64.infinity + 1)}
    (hy : y = .signed negative j) (hfinite : y.isFinite = true) :
    y.toSingle.IsNearest negative |y.toRat| := by
  subst hy
  have hj := isFinite_signed_iff.mp hfinite
  have hpos : (0 : ℚ) < 2 ^ binary64.scale := by positivity
  have hvalue : |(.signed negative j : Double).toRat| = binary64.units j / 2 ^ binary64.scale := by
    rw [toRat, abs_div, abs_of_pos hpos, ← Int.cast_abs]
    cases negative with
    | false => simp [signedUnits]
    | true => simp [signedUnits]
  rw [hvalue, toSingle, convert, if_neg hj.ne]
  apply isNearest_round (Nat.two_pow_pos _)
  rw [Nat.shiftLeft_eq]
  push_cast
  field_simp

section Magnitude

variable {d : Decimal} (hd : d.digits ≠ 0)

include hd

/-- A decimal lies between the powers of ten around its first digit. -/
theorem zpow_le_toRat_lt :
    (10 : ℚ) ^ (d.exponent + (Nat.toDigits 10 d.digits).length - 1) ≤ d.toRat ∧
      d.toRat < 10 ^ (d.exponent + (Nat.toDigits 10 d.digits).length) := by
  have hten : (10 : ℚ) ≠ 0 := by norm_num
  have hscale : (0 : ℚ) < 10 ^ d.exponent := by positivity
  obtain ⟨length, hlength⟩ : ∃ length, (Nat.toDigits 10 d.digits).length = length + 1 :=
    Nat.exists_eq_succ_of_ne_zero (mt List.length_eq_zero_iff.mp Nat.toDigits_ne_nil)
  have hmost : d.digits < 10 ^ (length + 1) :=
    (Nat.length_toDigits_le_iff (by decide) length.succ_pos).mp hlength.le
  have hleast : 10 ^ length ≤ d.digits := by
    rcases Nat.eq_zero_or_pos length with rfl | hpos
    · exact Nat.pos_of_ne_zero hd
    · have hlonger : ¬ (Nat.toDigits 10 d.digits).length ≤ length := by omega
      rw [Nat.length_toDigits_le_iff (by decide) hpos] at hlonger
      exact not_lt.mp hlonger
  have hpower (n : Nat) : (10 : ℚ) ^ (d.exponent + n) = (10 ^ n : Nat) * 10 ^ d.exponent := by
    rw [zpow_add₀ hten, zpow_natCast, mul_comm, Nat.cast_pow, Nat.cast_ofNat]
  have hfirst : d.exponent + (length + 1 : Nat) - 1 = d.exponent + length := by omega
  rw [hlength, hfirst, hpower, hpower, Decimal.toRat]
  exact ⟨mul_le_mul_of_nonneg_right (mod_cast hleast) hscale.le,
    mul_lt_mul_of_pos_right (mod_cast hmost) hscale⟩

/-- A decimal with many digits before the point is beyond all finite numbers. -/
theorem overflow_lt_toRat (h : 128 < d.exponent + (Nat.toDigits 10 d.digits).length) :
    overflow < d.toRat := by
  calc overflow < 10 ^ (128 : Int) := by norm_num [overflow]
    _ ≤ 10 ^ (d.exponent + (Nat.toDigits 10 d.digits).length - 1) :=
      zpow_le_zpow_right₀ (by norm_num) (by omega)
    _ ≤ d.toRat := (zpow_le_toRat_lt hd).1

/-- A decimal with many zeros behind the point is before all middles. -/
theorem toRat_lt_middle (h : d.exponent + (Nat.toDigits 10 d.digits).length < -149) :
    d.toRat < binary32.middle 0 := by
  calc d.toRat < 10 ^ (d.exponent + (Nat.toDigits 10 d.digits).length) := (zpow_le_toRat_lt hd).2
    _ ≤ 10 ^ (-150 : Int) := zpow_le_zpow_right₀ (by norm_num) (by omega)
    _ ≤ binary32.middle 0 := by
      have hscale : binary32.scale = 149 := by decide
      have hunits : binary32.units 0 + binary32.units (0 + 1) = 1 := by decide
      rw [Format.middle, hscale, hunits]
      norm_num

end Magnitude

/-- **A decimal is rounded once.**  The exponents that are settled without a power are those of
    numbers beyond all middles. -/
theorem isNearest_ofDecimal (d : Decimal) :
    (ofDecimal negative d.digits d.exponent : Single).IsNearest negative d.toRat := by
  have hbits : binary32.exponentBits = 8 := rfl
  have hscale : binary32.scale = 149 := by decide
  rw [ofDecimal, hbits, hscale]
  split
  · rename_i hzero
    refine ⟨0, rfl, fun k _ => iff_of_true k.zero_le (.inl ?_)⟩
    rw [Decimal.toRat, hzero, Nat.cast_zero, zero_mul]
    exact Format.middle_pos
  split
  · rename_i hd hlarge
    refine ⟨_, rfl, fun k hk => iff_of_false hk.not_ge ?_⟩
    have hlast : k ≤ binary32.infinity - 1 := Nat.le_sub_one_of_lt hk
    have hbound := overflow_lt_toRat hd hlarge
    have hmiddle := binary32.middle_mono hlast
    rw [middle_last] at hmiddle
    rintro (hlt | ⟨heq, -⟩) <;> linarith
  split
  · rename_i hd _ hsmall
    refine ⟨0, rfl, fun k _ => iff_of_true k.zero_le (.inl ?_)⟩
    exact (toRat_lt_middle hd hsmall).trans_le (Format.middle_mono k.zero_le)
  · apply isNearest_round (Nat.pow_pos (by decide))
    rw [Nat.shiftLeft_eq, Nat.pow_eq, hscale, Decimal.toRat]
    push_cast
    linear_combination (-d.digits * 2 ^ 149 : ℚ) * zpow_mul_pow_toNat d.exponent

end Binary

end KnowledgeSearch
