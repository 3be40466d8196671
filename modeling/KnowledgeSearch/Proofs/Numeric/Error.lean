/-
  KnowledgeSearch/Proofs/Numeric/Error.lean
  =========================================
  **How far rounding moves an amount.**

  An amount is moved by at most half the step between two values of the grid.  Near the value
  that it is rounded to, such a step is one unit or a small part of the value
  (`Format.units_succ_cases`), so a whole number of units is kept or moved by a small part of
  it (`Format.le_units_nearest`, `Format.units_nearest_le`), however small it is.

  Rounding gives infinity from the middle of the largest finite value and the next one on
  (`Binary.infinity_le_nearest_iff`): this middle is halfway between an odd ordinal and
  infinity, whose ordinal is even.

  A part of a sum comes from two roundings, that of the sum and that of the quotient, and is
  still near its share (`Binary.part_near`).
-/
import KnowledgeSearch.Proofs.Numeric.Integer
import KnowledgeSearch.Proofs.Numeric.Order
import Mathlib.Tactic.Linarith

namespace KnowledgeSearch

namespace Format

variable {F : Format}

/-- A value is one unit behind the next one, or by a small part of itself. -/
theorem units_succ_cases (k : Nat) :
    F.units (k + 1) = F.units k + 1 ∨
      2 ^ F.fractionBits * F.units (k + 1) ≤ (2 ^ F.fractionBits + 1) * F.units k := by
  obtain ⟨shift, steps, rfl, hsteps, hnormal⟩ := F.exists_steps k
  rw [Nat.add_assoc, F.units_steps hsteps (hnormal.imp_right fun h => by omega),
    F.units_steps hsteps.le hnormal]
  rcases hnormal with rfl | hnormal
  · left
    simp
  · right
    calc 2 ^ F.fractionBits * ((steps + 1) * 2 ^ shift)
        = 2 ^ F.fractionBits * (steps * 2 ^ shift) + 2 ^ F.fractionBits * 2 ^ shift := by ring
      _ ≤ 2 ^ F.fractionBits * (steps * 2 ^ shift) + steps * 2 ^ shift :=
        Nat.add_le_add_left (Nat.mul_le_mul_right _ hnormal) _
      _ = (2 ^ F.fractionBits + 1) * (steps * 2 ^ shift) := by ring

/-- A whole number of units does not pass the value that it is rounded to by more than a small
    part of the value. -/
theorem le_units_nearest (n : Nat) :
    2 * 2 ^ F.fractionBits * n ≤ (2 * 2 ^ F.fractionBits + 1) * F.units (F.nearest n 1) := by
  have hmiddle := F.le_middle Nat.one_pos (Nat.le_refl (F.nearest n 1))
  rcases F.units_succ_cases (F.nearest n 1) with hunit | hpart
  · have hn : n ≤ F.units (F.nearest n 1) := by omega
    exact Nat.mul_le_mul (Nat.le_succ _) hn
  · calc 2 * 2 ^ F.fractionBits * n
        = 2 ^ F.fractionBits * (2 * n) := by ring
      _ ≤ 2 ^ F.fractionBits * ((F.units (F.nearest n 1) + F.units (F.nearest n 1 + 1)) * 1) :=
        Nat.mul_le_mul_left _ hmiddle
      _ = 2 ^ F.fractionBits * F.units (F.nearest n 1) +
            2 ^ F.fractionBits * F.units (F.nearest n 1 + 1) := by ring
      _ ≤ 2 ^ F.fractionBits * F.units (F.nearest n 1) +
            (2 ^ F.fractionBits + 1) * F.units (F.nearest n 1) := Nat.add_le_add_left hpart _
      _ = (2 * 2 ^ F.fractionBits + 1) * F.units (F.nearest n 1) := by ring

/-- The value that a whole number of units is rounded to does not pass the number by more than a
    small part of the value. -/
theorem units_nearest_le (n : Nat) :
    2 * 2 ^ F.fractionBits * F.units (F.nearest n 1) ≤
      2 * 2 ^ F.fractionBits * n + F.units (F.nearest n 1) := by
  cases hk : F.nearest n 1 with
  | zero =>
    rw [F.units_zero, Nat.mul_zero]
    exact Nat.zero_le _
  | succ k =>
    have hmiddle := F.middle_le Nat.one_pos ((Nat.lt_succ_self k).trans_eq hk.symm)
    rcases F.units_succ_cases k with hunit | hpart
    · have hn : F.units (k + 1) ≤ n := by omega
      exact (Nat.mul_le_mul_left _ hn).trans (Nat.le_add_right _ _)
    · have hgrows : F.units k ≤ F.units (k + 1) := F.units_le_iff.mpr (Nat.le_succ k)
      calc 2 * 2 ^ F.fractionBits * F.units (k + 1)
          = 2 ^ F.fractionBits * F.units (k + 1) + 2 ^ F.fractionBits * F.units (k + 1) := by ring
        _ ≤ (2 ^ F.fractionBits + 1) * F.units k + 2 ^ F.fractionBits * F.units (k + 1) :=
          Nat.add_le_add_right hpart _
        _ = 2 ^ F.fractionBits * ((F.units k + F.units (k + 1)) * 1) + F.units k := by ring
        _ ≤ 2 ^ F.fractionBits * (2 * n) + F.units (k + 1) :=
          Nat.add_le_add (Nat.mul_le_mul_left _ hmiddle) hgrows
        _ = 2 * 2 ^ F.fractionBits * n + F.units (k + 1) := by ring

/-- The least number with a full significand. -/
theorem units_normal : F.units (2 ^ F.fractionBits) = 2 ^ F.fractionBits := by
  simpa using @units_steps F 0 (2 ^ F.fractionBits) (by omega) (.inl rfl)

/-- From the least number with a full significand on, a value is behind the next one by a small
    part of itself. -/
theorem units_succ_le_of_normal {k : Nat} (hk : 2 ^ F.fractionBits ≤ k) :
    2 ^ F.fractionBits * F.units (k + 1) ≤ (2 ^ F.fractionBits + 1) * F.units k := by
  have hunits : 2 ^ F.fractionBits ≤ F.units k := units_normal ▸ F.units_le_iff.mpr hk
  rcases F.units_succ_cases k with hunit | hpart
  · rw [hunit]
    linarith
  · exact hpart

/-- **Rounding moves a quotient by a small part of itself**, unless it is too small for a full
    significand. -/
theorem abs_units_nearest_sub_le {num den : Nat} (hden : 0 < den)
    (h : 2 ^ F.fractionBits * den ≤ num) :
    2 * 2 ^ F.fractionBits * |(F.units (F.nearest num den) : ℚ) - num / den| ≤ num / den := by
  have hpos : (0 : ℚ) < den := mod_cast hden
  have hnormal : 2 ^ F.fractionBits ≤ F.nearest num den :=
    le_nearest hden (by rwa [units_normal])
  have habove := F.le_middle hden (Nat.le_refl (F.nearest num den))
  have hbelow {k : Nat} (hk : k < F.nearest num den) := F.middle_le hden hk
  generalize F.nearest num den = k at *
  have haboveRat : 2 * (num / den : ℚ) ≤ F.units k + F.units (k + 1) := by
    rw [← mul_div_assoc, div_le_iff₀ hpos]
    exact_mod_cast habove
  have hnext : (2 ^ F.fractionBits * F.units (k + 1) : ℚ) ≤
      (2 ^ F.fractionBits + 1) * F.units k := mod_cast units_succ_le_of_normal hnormal
  have hbits : (0 : ℚ) < 2 ^ F.fractionBits := by positivity
  rcases le_or_gt (F.units k : ℚ) (num / den) with hle | hlt
  · have hscaled := mul_le_mul_of_nonneg_left haboveRat hbits.le
    rw [abs_of_nonpos (by linarith)]
    linarith
  · -- then the value is not the least one with a full significand
    have hgreater : 2 ^ F.fractionBits < k := by
      rcases hnormal.lt_or_eq with hlt | heq
      · exact hlt
      · have hreached : (2 ^ F.fractionBits : ℚ) ≤ num / den := by
          rw [le_div_iff₀ hpos]
          exact_mod_cast h
        rw [← heq, units_normal] at hlt
        push_cast at hlt
        exact absurd hreached hlt.not_ge
    obtain ⟨j, rfl⟩ := Nat.exists_eq_succ_of_ne_zero (Nat.ne_zero_of_lt hgreater)
    rw [Nat.succ_eq_add_one] at *
    have hbelowRat : (F.units j + F.units (j + 1) : ℚ) ≤ 2 * (num / den) := by
      rw [← mul_div_assoc, le_div_iff₀ hpos]
      exact_mod_cast hbelow (Nat.lt_succ_self j)
    have hpart : (2 ^ F.fractionBits * F.units (j + 1) : ℚ) ≤
        (2 ^ F.fractionBits + 1) * F.units j :=
      mod_cast units_succ_le_of_normal (Nat.le_of_lt_succ hgreater)
    have hgrows : (F.units j : ℚ) ≤ F.units (j + 1) := mod_cast F.units_le_iff.mpr (Nat.le_succ j)
    have hscaled := mul_le_mul_of_nonneg_left hbelowRat hbits.le
    rw [abs_of_pos (by linarith)]
    linarith

end Format

namespace Binary

open Format (binary32)

/-! ### Overflow -/

/-- The least whole number of units that is rounded to infinity. -/
def overflowUnits : Nat := (2 ^ 25 - 1) * 2 ^ 252

theorem middle_infinity :
    binary32.units (binary32.infinity - 1) + binary32.units binary32.infinity =
      2 * overflowUnits := by
  decide

theorem infinity_le_nearest_iff {n : Nat} :
    binary32.infinity ≤ binary32.nearest n 1 ↔ overflowUnits ≤ n := by
  have hnext : binary32.infinity - 1 + 1 = binary32.infinity := by decide
  have hmiddle := middle_infinity
  constructor
  · intro h
    by_contra hlt
    have hbelow : binary32.nearest n 1 ≤ binary32.infinity - 1 := by
      apply Format.nearest_le_of_lt_middle Nat.one_pos
      rw [hnext]
      omega
    omega
  · intro h
    rcases h.lt_or_eq with hlt | heq
    · have habove : binary32.infinity - 1 < binary32.nearest n 1 := by
        apply Format.lt_nearest_of_middle_lt Nat.one_pos
        rw [hnext]
        omega
      omega
    · -- halfway, where the even ordinal is taken
      rw [← heq]
      decide

/-- The least number that is rounded to infinity: halfway between the largest finite number and
    the power of two after it. -/
def overflow : ℚ := 2 ^ 128 - 2 ^ 103

theorem overflow_le_iff {n : Int} :
    overflow ≤ n / 2 ^ binary32.scale ↔ (overflowUnits : Int) ≤ n := by
  have hscale : binary32.scale = 149 := by decide
  have hpos : (0 : ℚ) < 2 ^ 149 := by positivity
  have hunits : overflow * 2 ^ 149 = ((overflowUnits : Int) : ℚ) := by
    norm_num [overflow, overflowUnits]
  rw [hscale, le_div_iff₀ hpos, hunits, Int.cast_le]

/-- A sum is rounded to infinity exactly if it reaches the bound. -/
theorem overflow_le_add_iff {x y : Single} :
    overflow ≤ x.toRat + y.toRat ↔ (overflowUnits : Int) ≤ x.signedUnits + y.signedUnits := by
  rw [← overflow_le_iff, Int.cast_add, add_div, toRat, toRat]

theorem overflow_le_sub_iff {x y : Single} :
    overflow ≤ x.toRat - y.toRat ↔ (overflowUnits : Int) ≤ x.signedUnits - y.signedUnits := by
  rw [← overflow_le_iff, Int.cast_sub, sub_div, toRat, toRat]

/-! ### Parts of a sum -/

/-- The ordinal of a sum. -/
def sumOrdinal (a b : Nat) : Nat := binary32.nearest (binary32.units a + binary32.units b) 1

/-- The ordinal of a part of a sum. -/
def partOrdinal (a sum : Nat) : Nat :=
  binary32.nearest (binary32.units a * 2 ^ binary32.scale) (binary32.units sum)

section Parts

variable {a b : Nat}

theorem sumOrdinal_comm (a b : Nat) : sumOrdinal a b = sumOrdinal b a := by
  rw [sumOrdinal, Nat.add_comm, ← sumOrdinal]

theorem le_sumOrdinal (a b : Nat) : a ≤ sumOrdinal a b := by
  apply Format.le_nearest Nat.one_pos
  omega

theorem le_sumOrdinal_right (a b : Nat) : b ≤ sumOrdinal a b :=
  sumOrdinal_comm b a ▸ le_sumOrdinal b a

theorem sumOrdinal_eq_zero (h : sumOrdinal a b = 0) : a = 0 ∧ b = 0 :=
  ⟨Nat.le_zero.mp (h ▸ le_sumOrdinal a b), Nat.le_zero.mp (h ▸ le_sumOrdinal_right a b)⟩

/-- A part of a sum is one at most, and off by little. -/
theorem part_bounds {sum : Nat} (hsum : 0 < sum) (h : a ≤ sum) :
    partOrdinal a sum ≤ oneOrdinal ∧
      2 * (binary32.units a * 2 ^ binary32.scale) ≤
        (2 * binary32.units (partOrdinal a sum) + 2 ^ 125) * binary32.units sum ∧
      2 * binary32.units (partOrdinal a sum) * binary32.units sum ≤
        2 * (binary32.units a * 2 ^ binary32.scale) + 2 ^ 125 * binary32.units sum := by
  have hpositive : 0 < binary32.units sum := binary32.units_pos_iff.mpr hsum
  have hone : binary32.units a * 2 ^ binary32.scale ≤ 2 ^ binary32.scale * binary32.units sum := by
    rw [Nat.mul_comm]
    exact Nat.mul_le_mul_left _ (binary32.units_le_iff.mpr h)
  refine ⟨?_, error_below_one hpositive hone⟩
  apply Format.nearest_le hpositive
  rwa [units_oneOrdinal]

theorem parts_le (hsum : 0 < sumOrdinal a b) :
    partOrdinal a (sumOrdinal a b) ≤ oneOrdinal ∧ partOrdinal b (sumOrdinal a b) ≤ oneOrdinal :=
  ⟨(part_bounds hsum (le_sumOrdinal a b)).1, (part_bounds hsum (le_sumOrdinal_right a b)).1⟩

/-- A part of a sum is near the quotient of the two, although the sum is rounded as well. -/
theorem part_near (hsum : 0 < sumOrdinal a b) :
    binary32.units (partOrdinal a (sumOrdinal a b)) * (binary32.units a + binary32.units b) ≤
        binary32.units a * 2 ^ binary32.scale +
          2 ^ 126 * (binary32.units a + binary32.units b) ∧
      binary32.units a * 2 ^ binary32.scale ≤
        binary32.units (partOrdinal a (sumOrdinal a b)) * (binary32.units a + binary32.units b) +
          2 ^ 126 * (binary32.units a + binary32.units b) := by
  obtain ⟨hone, hbelow, habove⟩ := part_bounds hsum (le_sumOrdinal a b)
  have hpart := binary32.units_le_iff.mpr hone
  have hsumBelow := binary32.le_units_nearest (binary32.units a + binary32.units b)
  have hsumAbove := binary32.units_nearest_le (binary32.units a + binary32.units b)
  have hscale : binary32.scale = 149 := by decide
  have hbits : binary32.fractionBits = 23 := rfl
  rw [units_oneOrdinal, hscale] at hpart
  rw [← sumOrdinal, hbits] at hsumBelow hsumAbove
  rw [hscale] at hbelow habove ⊢
  generalize binary32.units (partOrdinal a (sumOrdinal a b)) = part at *
  generalize binary32.units (sumOrdinal a b) = sum at *
  generalize binary32.units a + binary32.units b = total at *
  -- the sum is off by little, and the part is one at most
  have hmoved : 2 ^ 24 * (total - sum) ≤ sum ∧ 2 ^ 24 * (sum - total) ≤ sum := by omega
  have htimes (x y : Nat) : part * x ≤ part * y + 2 ^ 149 * (x - y) := by
    calc part * x ≤ part * (y + (x - y)) := Nat.mul_le_mul_left _ (by omega)
      _ = part * y + part * (x - y) := Nat.mul_add ..
      _ ≤ part * y + 2 ^ 149 * (x - y) := Nat.add_le_add_left (Nat.mul_le_mul_right _ hpart) _
  have hover := htimes total sum
  have hunder := htimes sum total
  constructor
  · linarith
  · linarith

end Parts

end Binary

end KnowledgeSearch
