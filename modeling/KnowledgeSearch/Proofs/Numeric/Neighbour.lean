/-
  KnowledgeSearch/Proofs/Numeric/Neighbour.lean
  =============================================
  **How near a fraction comes to others with small denominators.**

  Two fractions `p / q ≤ P / Q` with `P * q = p * Q + 1` enclose no fraction whose denominator
  is below `q + Q`.  So what lies between them is at least as far from all such fractions as
  from the nearer one of the two, and from those that are neither of the two by a part of
  their denominators (`Bracket.Encloses.approximation`).  The two are found by moving each as far
  toward the other as it goes without passing what is enclosed (`Bracket.around`); how they were found
  does not matter once they are checked.
-/
import Mathlib.Algebra.Order.Ring.Int
import Mathlib.Tactic.Linarith
import Mathlib.Tactic.LinearCombination
import Mathlib.Tactic.Ring

namespace KnowledgeSearch

/-- Two fractions, the lower one first. -/
structure Bracket where
  lowNum : Nat
  lowDen : Nat
  highNum : Nat
  highDen : Nat

namespace Bracket

/-- Whether two fractions enclose another one and are next to each other. -/
structure Encloses (b : Bracket) (num den : Nat) : Prop where
  low : b.lowNum * den ≤ num * b.lowDen
  high : num * b.highDen ≤ b.highNum * den
  adjacent : b.highNum * b.lowDen = b.lowNum * b.highDen + 1
  lowDen_pos : 0 < b.lowDen
  highDen_pos : 0 < b.highDen

instance (b : Bracket) (num den : Nat) : Decidable (b.Encloses num den) :=
  decidable_of_iff (b.lowNum * den ≤ num * b.lowDen ∧ num * b.highDen ≤ b.highNum * den ∧
      b.highNum * b.lowDen = b.lowNum * b.highDen + 1 ∧ 0 < b.lowDen ∧ 0 < b.highDen)
    ⟨fun ⟨h₁, h₂, h₃, h₄, h₅⟩ => ⟨h₁, h₂, h₃, h₄, h₅⟩,
      fun ⟨h₁, h₂, h₃, h₄, h₅⟩ => ⟨h₁, h₂, h₃, h₄, h₅⟩⟩

/-- By how much the lower fraction falls short, in parts of both denominators. -/
def lowGap (b : Bracket) (num den : Nat) : Nat := num * b.lowDen - b.lowNum * den

/-- By how much the higher fraction is too large, in parts of both denominators. -/
def highGap (b : Bracket) (num den : Nat) : Nat := b.highNum * den - num * b.highDen

namespace Encloses

variable {b : Bracket} {num den : Nat} (h : b.Encloses num den)

include h

theorem cast_lowGap : (b.lowGap num den : Int) = num * b.lowDen - b.lowNum * den := by
  rw [lowGap, Nat.cast_sub h.low]
  push_cast
  ring

theorem cast_highGap : (b.highGap num den : Int) = b.highNum * den - num * b.highDen := by
  rw [highGap, Nat.cast_sub h.high]
  push_cast
  ring

theorem cast_adjacent : (b.highNum : Int) * b.lowDen = b.lowNum * b.highDen + 1 :=
  mod_cast h.adjacent

/-- The two gaps share the denominator out. -/
theorem gaps : b.lowGap num den * b.highDen + b.highGap num den * b.lowDen = den := by
  have hgaps : (b.lowGap num den * b.highDen + b.highGap num den * b.lowDen : Int) = den := by
    rw [h.cast_lowGap, h.cast_highGap]
    linear_combination (den : Int) * h.cast_adjacent
  exact_mod_cast hgaps

theorem den_le_mul_gaps {bound : Nat} (hlow : b.lowDen ≤ bound) (hhigh : b.highDen ≤ bound) :
    den ≤ bound * (b.lowGap num den + b.highGap num den) := by
  calc den = b.lowGap num den * b.highDen + b.highGap num den * b.lowDen := h.gaps.symm
    _ ≤ b.lowGap num den * bound + b.highGap num den * bound :=
      Nat.add_le_add (Nat.mul_le_mul_left _ hhigh) (Nat.mul_le_mul_left _ hlow)
    _ = bound * (b.lowGap num den + b.highGap num den) := by ring

/-- **A fraction with a small denominator is one of the two, or both gaps away.**  Numerator and
    denominator are whole parts of those of the two.  Parts of one sign would make the
    denominator too large; parts of both signs put the fraction outside of the two. -/
theorem approximation {d m : Nat} (hd : d < b.lowDen + b.highDen) :
    (∃ i, d = i * b.lowDen ∧ m = i * b.lowNum) ∨
      (∃ j, d = j * b.highDen ∧ m = j * b.highNum) ∨
        (b.lowGap num den + b.highGap num den : Int) ≤ |(d * num - m * den : Int)| := by
  obtain ⟨i, hi⟩ : ∃ i : Int, i = d * b.highNum - m * b.highDen := ⟨_, rfl⟩
  obtain ⟨j, hj⟩ : ∃ j : Int, j = m * b.lowDen - d * b.lowNum := ⟨_, rfl⟩
  have hdParts : (d : Int) = i * b.lowDen + j * b.highDen := by
    rw [hi, hj]
    linear_combination -(d : Int) * h.cast_adjacent
  have hmParts : (m : Int) = i * b.lowNum + j * b.highNum := by
    rw [hi, hj]
    linear_combination -(m : Int) * h.cast_adjacent
  have hdiff : (d * num - m * den : Int) =
      i * b.lowGap num den - j * b.highGap num den := by
    rw [h.cast_lowGap, h.cast_highGap, hdParts, hmParts]
    ring
  have hlowDen : (0 : Int) < b.lowDen := mod_cast h.lowDen_pos
  have hhighDen : (0 : Int) < b.highDen := mod_cast h.highDen_pos
  have hlowGap : (0 : Int) ≤ b.lowGap num den := Int.natCast_nonneg _
  have hhighGap : (0 : Int) ≤ b.highGap num den := Int.natCast_nonneg _
  have hdInt : (d : Int) < b.lowDen + b.highDen := mod_cast hd
  have hnonneg : (0 : Int) ≤ d := Int.natCast_nonneg _
  rcases lt_trichotomy j 0 with hjneg | rfl | hjpos
  · -- then the part of the lower fraction is positive
    have hipos : 0 < i := by nlinarith
    right; right
    rw [hdiff]
    exact le_trans (by nlinarith) (le_abs_self _)
  · left
    have hinonneg : 0 ≤ i := by nlinarith
    lift i to Nat using hinonneg
    rw [zero_mul, add_zero] at hdParts hmParts
    exact ⟨i, by exact_mod_cast hdParts, by exact_mod_cast hmParts⟩
  · rcases lt_trichotomy i 0 with hineg | rfl | hipos
    · right; right
      rw [hdiff]
      exact le_trans (by nlinarith) (neg_le_abs _)
    · right; left
      lift j to Nat using hjpos.le
      rw [zero_mul, zero_add] at hdParts hmParts
      exact ⟨j, by exact_mod_cast hdParts, by exact_mod_cast hmParts⟩
    · exact absurd hdInt (not_lt.mpr (by nlinarith))

end Encloses

end Bracket

/-- Moves the bounds of a fraction toward each other as long as one of the denominators stays
    within the limit. -/
def Bracket.narrow (num den limit : Nat) : Nat → Bracket → Bracket
  | 0, b => b
  | fuel + 1, b =>
    if limit < b.lowDen + b.highDen then b
    else
      let most := (limit - b.lowDen) / b.highDen
      let steps := if b.highGap num den = 0 then most
        else min most (b.lowGap num den / b.highGap num den)
      let low : Bracket :=
        ⟨b.lowNum + steps * b.highNum, b.lowDen + steps * b.highDen, b.highNum, b.highDen⟩
      let most := (limit - low.highDen) / low.lowDen
      let steps := if low.lowGap num den = 0 then most
        else min most (low.highGap num den / low.lowGap num den)
      narrow num den limit fuel
        ⟨low.lowNum, low.lowDen, low.highNum + steps * low.lowNum,
          low.highDen + steps * low.lowDen⟩

/-- Two fractions around another one that are next to each other, with denominators as large as
    the limit allows. -/
def Bracket.around (num den limit : Nat) : Bracket :=
  narrow num den limit 64 ⟨num / den, 1, num / den + 1, 1⟩

end KnowledgeSearch
