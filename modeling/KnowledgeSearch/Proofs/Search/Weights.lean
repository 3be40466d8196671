/-
  KnowledgeSearch/Proofs/Search/Weights.lean
  ==========================================
  **Rescaled weights, and when they sum to one.**

  Two weights are divided by their sum.  Neither quotient passes one, and both are off by
  little, as is the sum itself, however small the weights are.  So the rescaled weights are
  near the shares of the weights and sum to one up to rounding, with one exception: the sum
  of two large weights is infinite, and then nothing is left of either of them
  (`HybridWeights.normalized_convex`).
-/
import KnowledgeSearch.Proofs.Numeric.Ordinal
import KnowledgeSearch.Search.Calibration

namespace KnowledgeSearch

open Format (binary32)
open Binary (AtOrdinal oneOrdinal partOrdinal sumOrdinal overflow overflowUnits)

namespace Service

variable {x : Single}

theorem isUnit_iff : isUnit x = true ↔ ∃ k ≤ oneOrdinal, x.AtOrdinal k := by
  rw [isUnit, Bool.and_eq_true, Binary.between_iff]

theorem isFinite_of_isUnit (h : isUnit x = true) : x.isFinite = true := by
  obtain ⟨k, hk, hx⟩ := isUnit_iff.mp h
  exact hx.isFinite (hk.trans_lt Binary.oneOrdinal_lt_infinity)

theorem isUnit_clamp (hx : x.isNaN = false) : isUnit (x.clamp .zero .one) = true := by
  rw [isUnit, Bool.and_eq_true]
  exact Binary.between_clamp hx

end Service

namespace HybridWeights

/-! ### Numbers that can be weights -/

structure IsWeight (x : Single) : Prop where
  finite : x.isFinite = true
  nonneg : x.lt .zero = false

variable {x text vector : Single}

theorem isWeight_iff : IsWeight x ↔ ∃ k < binary32.infinity, x.AtOrdinal k := by
  constructor
  · rintro ⟨hfinite, hsign⟩
    exact Binary.exists_atOrdinal hfinite
      ((Binary.signedUnits_nonneg_iff (Binary.isNaN_of_isFinite hfinite)).mpr hsign)
  · rintro ⟨k, hk, hx⟩
    refine ⟨hx.isFinite hk, ?_⟩
    rw [← Bool.not_eq_true, hx.lt_iff Binary.atOrdinal_zero hk.le (Nat.zero_le _)]
    exact Nat.not_lt_zero k

theorem check_ok_iff {name : WeightName} : check name x = .ok () ↔ IsWeight x := by
  unfold check
  split
  · rename_i hfinite
    exact ⟨nofun, fun h => by simp [h.finite] at hfinite⟩
  · rename_i hfinite
    split
    · rename_i hsign
      exact ⟨nofun, fun h => absurd hsign (Bool.eq_false_iff.mp h.nonneg)⟩
    · rename_i hsign
      exact ⟨fun _ => ⟨by simpa using hfinite, Bool.eq_false_iff.mpr hsign⟩, fun _ => rfl⟩

/-- Rescaling two numbers fails exactly if one of them cannot be a weight. -/
theorem normalized_error_iff :
    (∃ fault, normalized text vector = .error fault) ↔ ¬(IsWeight text ∧ IsWeight vector) := by
  rw [← @check_ok_iff text .text, ← @check_ok_iff vector .vector]
  unfold normalized
  cases check .text text with
  | error fault => simp [bind, Except.bind]
  | ok _ =>
    cases check .vector vector with
    | error fault => simp [bind, Except.bind]
    | ok _ =>
      simp only [bind, Except.bind]
      split <;> simp [pure, Except.pure]

theorem normalized_eq (htext : IsWeight text) (hvector : IsWeight vector) :
    normalized text vector = .ok (if (text + vector).le .zero then ⟨.half, .half⟩
      else ⟨text / (text + vector), vector / (text + vector)⟩) := by
  unfold normalized
  rw [check_ok_iff.mpr htext, check_ok_iff.mpr hvector]
  exact (apply_ite Except.ok ..).symm

/-! ### Rescaling -/

/-- The ordinal of a part of a sum is near the share of the part, although the sum is rounded. -/
theorem near_share {a b : Nat} (hx : x.AtOrdinal (partOrdinal a (sumOrdinal a b)))
    (hsum : 0 < sumOrdinal a b) :
    |x.toRat - binary32.units a / (binary32.units a + binary32.units b)| ≤ 1 / 2 ^ 23 := by
  obtain ⟨hbelow, habove⟩ := Binary.part_near hsum
  obtain ⟨hone, -⟩ := Binary.parts_le hsum
  have htotal : 0 < binary32.units a + binary32.units b := by
    by_contra hzero
    have hnothing : sumOrdinal a b = 0 := by
      rw [sumOrdinal, Nat.eq_zero_of_not_pos hzero, Format.nearest_zero Nat.one_pos]
    omega
  have hscale : binary32.scale = 149 := by decide
  rw [hx.toRat (hone.trans Binary.oneOrdinal_lt_infinity.le), hscale]
  rw [hscale] at hbelow habove
  have hbelow' := (Nat.cast_le (α := ℚ)).mpr hbelow
  have habove' := (Nat.cast_le (α := ℚ)).mpr habove
  have htotal' := (Nat.cast_pos (α := ℚ)).mpr htotal
  push_cast at hbelow' habove' htotal'
  have hpos : (0 : ℚ) < 2 ^ 149 := by positivity
  have hdenominator := mul_pos hpos htotal'
  rw [div_sub_div _ _ hpos.ne' htotal'.ne', abs_le, le_div_iff₀ hdenominator,
    div_le_iff₀ hdenominator]
  constructor <;> linarith only [hbelow', habove']

/-- How two weights at the given ordinals are rescaled. -/
inductive Rescaled (a b : Nat) : HybridWeights → Prop where
  | even (ha : a = 0) (hb : b = 0) : Rescaled a b ⟨.half, .half⟩
  | parts {w : HybridWeights} (hpositive : 0 < sumOrdinal a b)
      (hfinite : sumOrdinal a b < binary32.infinity)
      (htext : w.text.AtOrdinal (partOrdinal a (sumOrdinal a b)))
      (hvector : w.vector.AtOrdinal (partOrdinal b (sumOrdinal a b))) : Rescaled a b w
  | lost {w : HybridWeights} (hinfinite : binary32.infinity ≤ sumOrdinal a b)
      (htext : w.text.AtOrdinal 0) (hvector : w.vector.AtOrdinal 0) : Rescaled a b w

theorem exists_rescaled {a b : Nat} (htext : text.AtOrdinal a) (hvector : vector.AtOrdinal b)
    (ha : a < binary32.infinity) (hb : b < binary32.infinity) :
    ∃ w, normalized text vector = .ok w ∧ Rescaled a b w := by
  have hsum : (text + vector).AtOrdinal (sumOrdinal a b) := htext.add hvector ha hb
  have hpositive : 0 < binary32.infinity := by decide
  have hle : (text + vector).le .zero = true ↔ sumOrdinal a b = 0 := by
    rw [hsum.capped.le_iff Binary.atOrdinal_zero (Nat.min_le_right ..) (Nat.zero_le _)]
    omega
  refine ⟨_, normalized_eq (isWeight_iff.mpr ⟨a, ha, htext⟩)
    (isWeight_iff.mpr ⟨b, hb, hvector⟩), ?_⟩
  split
  · rename_i hzero
    obtain ⟨hzeroText, hzeroVector⟩ := Binary.sumOrdinal_eq_zero (hle.mp hzero)
    exact .even hzeroText hzeroVector
  · rename_i hnonzero
    have hsumPositive : 0 < sumOrdinal a b := Nat.pos_of_ne_zero fun h => hnonzero (hle.mpr h)
    rcases Nat.lt_or_ge (sumOrdinal a b) binary32.infinity with hfinite | hinfinite
    · exact .parts hsumPositive hfinite (htext.div hsum ha hfinite hsumPositive)
        (hvector.div hsum hb hfinite hsumPositive)
    · rw [hsum.eq_infinity hpositive hinfinite]
      exact .lost hinfinite (htext.div_infinity ha) (hvector.div_infinity hb)

namespace Rescaled

variable {a b : Nat} {w : HybridWeights}

theorem eq_half (h : Rescaled 0 0 w) : w = ⟨.half, .half⟩ := by
  cases h with
  | even => rfl
  | parts hpositive => exact absurd hpositive (by decide)
  | lost hinfinite => exact absurd hinfinite (by decide)

theorem isUnit (h : Rescaled a b w) :
    Service.isUnit w.text = true ∧ Service.isUnit w.vector = true := by
  cases h with
  | even => exact ⟨by decide, by decide⟩
  | parts hpositive _ htext hvector =>
    obtain ⟨hleText, hleVector⟩ := Binary.parts_le hpositive
    exact ⟨Service.isUnit_iff.mpr ⟨_, hleText, htext⟩,
      Service.isUnit_iff.mpr ⟨_, hleVector, hvector⟩⟩
  | lost _ htext hvector =>
    exact ⟨Service.isUnit_iff.mpr ⟨0, Nat.zero_le _, htext⟩,
      Service.isUnit_iff.mpr ⟨0, Nat.zero_le _, hvector⟩⟩

/-- Where the sum of two weights is finite, each of the rescaled weights is near the share of
    the one that it comes from. -/
theorem near_shares (h : Rescaled a b w) (hpositive : 0 < binary32.units a + binary32.units b)
    (hunits : binary32.units a + binary32.units b < overflowUnits) :
    |w.text.toRat - binary32.units a / (binary32.units a + binary32.units b)| ≤ 1 / 2 ^ 23 ∧
      |w.vector.toRat - binary32.units b / (binary32.units a + binary32.units b)| ≤
        1 / 2 ^ 23 := by
  cases h with
  | even ha hb =>
    rw [ha, hb, binary32.units_zero] at hpositive
    exact absurd hpositive (Nat.lt_irrefl _)
  | parts hsum _ htext hvector =>
    rw [Binary.sumOrdinal_comm] at hvector
    have hnear := near_share hvector (Binary.sumOrdinal_comm a b ▸ hsum)
    rw [add_comm] at hnear
    exact ⟨near_share htext hsum, hnear⟩
  | lost hinfinite => exact absurd (Binary.infinity_le_nearest_iff.mp hinfinite) (by omega)

/-- Where the sum of two weights is finite, the rescaled weights sum to one, up to rounding. -/
theorem sum_near_one (h : Rescaled a b w)
    (hunits : binary32.units a + binary32.units b < overflowUnits) :
    |w.text.toRat + w.vector.toRat - 1| ≤ 1 / 2 ^ 22 := by
  rcases Nat.eq_zero_or_pos (binary32.units a + binary32.units b) with hzero | hpositive
  · have hnothing (k : Nat) (hk : binary32.units k = 0) : k = 0 :=
      Nat.eq_zero_of_not_pos fun hpos => (binary32.units_pos_iff.mpr hpos).ne' hk
    obtain rfl := hnothing a (by omega)
    obtain rfl := hnothing b (by omega)
    have hhalf : (Binary.half : Single).signedUnits = 2 ^ 148 := by decide
    have hscale : binary32.scale = 149 := by decide
    rw [h.eq_half]
    norm_num [Binary.toRat, hhalf, hscale]
  · obtain ⟨htext, hvector⟩ := h.near_shares hpositive hunits
    have htotal := (Nat.cast_pos (α := ℚ)).mpr hpositive
    push_cast at htotal
    have hshares : (binary32.units a / (binary32.units a + binary32.units b) +
        binary32.units b / (binary32.units a + binary32.units b) : ℚ) = 1 := by
      rw [← add_div, div_self htotal.ne']
    calc |w.text.toRat + w.vector.toRat - 1|
        = |(w.text.toRat - binary32.units a / (binary32.units a + binary32.units b)) +
            (w.vector.toRat - binary32.units b / (binary32.units a + binary32.units b))| := by
          rw [← hshares]
          congr 1
          ring
      _ ≤ 1 / 2 ^ 23 + 1 / 2 ^ 23 := (abs_add_le _ _).trans (add_le_add htext hvector)
      _ = 1 / 2 ^ 22 := by norm_num

/-- Where the sum of two weights is infinite, nothing is left of them. -/
theorem isZero (h : Rescaled a b w) (hunits : overflowUnits ≤ binary32.units a + binary32.units b) :
    w.text.isZero = true ∧ w.vector.isZero = true := by
  have hinfinite : binary32.infinity ≤ sumOrdinal a b := Binary.infinity_le_nearest_iff.mpr hunits
  cases h with
  | even ha hb =>
    subst ha hb
    exact absurd hinfinite (by decide)
  | parts _ hfinite => exact absurd hfinite (Nat.not_lt.mpr hinfinite)
  | lost _ htext hvector => exact ⟨Binary.isZero_iff.mpr htext, Binary.isZero_iff.mpr hvector⟩

end Rescaled

/-- Rescaled weights are in the unit interval. -/
theorem isUnit_of_normalized {w : HybridWeights} (h : normalized text vector = .ok w) :
    Service.isUnit w.text = true ∧ Service.isUnit w.vector = true := by
  have hweights : IsWeight text ∧ IsWeight vector := by
    by_contra hnot
    obtain ⟨fault, hfault⟩ := normalized_error_iff.mpr hnot
    cases h.symm.trans hfault
  obtain ⟨a, ha, htext⟩ := isWeight_iff.mp hweights.1
  obtain ⟨b, hb, hvector⟩ := isWeight_iff.mp hweights.2
  obtain ⟨w', hw', hrescaled⟩ := exists_rescaled htext hvector ha hb
  cases h.symm.trans hw'
  exact hrescaled.isUnit

/-! ### The pair as a whole -/

/-- **Two weights are rescaled to their shares, which sum to one, if their sum is finite.**
    Numbers that cannot be weights are an error, and two zeros are an even split.  Two weights
    give two numbers of the unit interval.  If the sum of the weights is finite these sum to
    one, up to rounding, and are near the shares of the weights in it; if it is infinite both of
    them are zero. -/
theorem normalized_convex (text vector : Single) :
    ((∃ fault, normalized text vector = .error fault) ↔ ¬(IsWeight text ∧ IsWeight vector)) ∧
    (text.isZero = true → vector.isZero = true → normalized text vector = .ok ⟨.half, .half⟩) ∧
    (IsWeight text → IsWeight vector → ∃ w, normalized text vector = .ok w ∧
      Service.isUnit w.text = true ∧ Service.isUnit w.vector = true ∧
      (text.toRat + vector.toRat < overflow →
        |w.text.toRat + w.vector.toRat - 1| ≤ 1 / 2 ^ 22 ∧
        (0 < text.toRat + vector.toRat →
          |w.text.toRat - text.toRat / (text.toRat + vector.toRat)| ≤ 1 / 2 ^ 23 ∧
          |w.vector.toRat - vector.toRat / (text.toRat + vector.toRat)| ≤ 1 / 2 ^ 23)) ∧
      (overflow ≤ text.toRat + vector.toRat → w.text.isZero = true ∧ w.vector.isZero = true)) := by
  refine ⟨normalized_error_iff, ?_, ?_⟩
  · intro htext hvector
    have hzero : 0 < binary32.infinity := by decide
    obtain ⟨w, hw, hrescaled⟩ := exists_rescaled (Binary.isZero_iff.mp htext)
      (Binary.isZero_iff.mp hvector) hzero hzero
    rw [hw, hrescaled.eq_half]
  · intro htext hvector
    obtain ⟨a, ha, htext⟩ := isWeight_iff.mp htext
    obtain ⟨b, hb, hvector⟩ := isWeight_iff.mp hvector
    obtain ⟨w, hw, hrescaled⟩ := exists_rescaled htext hvector ha hb
    have hoverflow : overflow ≤ text.toRat + vector.toRat ↔
        overflowUnits ≤ binary32.units a + binary32.units b := by
      rw [Binary.overflow_le_add_iff, htext.signedUnits ha.le, hvector.signedUnits hb.le]
      exact Int.ofNat_le
    obtain ⟨hunitText, hunitVector⟩ := hrescaled.isUnit
    refine ⟨w, hw, hunitText, hunitVector, fun hfinite => ?_, fun hinfinite => ?_⟩
    · have hunits := Nat.lt_of_not_le fun h => hfinite.not_ge (hoverflow.mpr h)
      have hscale : (0 : ℚ) < 2 ^ binary32.scale := by positivity
      refine ⟨hrescaled.sum_near_one hunits, fun hpositive => ?_⟩
      rw [htext.toRat ha.le, hvector.toRat hb.le, ← add_div] at hpositive ⊢
      rw [div_div_div_cancel_right₀ hscale.ne', div_div_div_cancel_right₀ hscale.ne']
      rw [lt_div_iff₀ hscale, zero_mul] at hpositive
      exact hrescaled.near_shares (by exact_mod_cast hpositive) hunits
    · exact hrescaled.isZero (hoverflow.mp hinfinite)

/-- The theorem at the least positive weight and its double. -/
theorem normalized_convex_least :
    ∃ w, normalized (.ofOrdinal false 1) (.ofOrdinal false 2) = .ok w ∧
      Service.isUnit w.text = true ∧ Service.isUnit w.vector = true ∧
      |w.text.toRat + w.vector.toRat - 1| ≤ 1 / 2 ^ 22 := by
  obtain ⟨-, -, hpair⟩ := normalized_convex (.ofOrdinal false 1) (.ofOrdinal false 2)
  obtain ⟨w, hw, htext, hvector, hsum, -⟩ :=
    hpair ⟨by decide, by decide⟩ ⟨by decide, by decide⟩
  have hleast : (Binary.ofOrdinal false 1 : Single).signedUnits = 1 := by decide
  have hdouble : (Binary.ofOrdinal false 2 : Single).signedUnits = 2 := by decide
  have hscale : binary32.scale = 149 := by decide
  refine ⟨w, hw, htext, hvector, (hsum ?_).1⟩
  norm_num [Binary.toRat, hleast, hdouble, hscale, overflow]

/-- Nothing is left of two weights of 3e38, whose sum is infinite. -/
theorem normalized_overflow :
    IsWeight (.ofDecimal false 3 38) ∧
    normalized (.ofDecimal false 3 38) (.ofDecimal false 3 38) = .ok ⟨.zero, .zero⟩ ∧
    ¬ |(Binary.zero : Single).toRat + (Binary.zero : Single).toRat - 1| ≤ 1 / 2 ^ 22 := by
  have hweight : IsWeight (.ofDecimal false 3 38) := ⟨by decide, by decide⟩
  refine ⟨hweight, ?_, ?_⟩
  · rw [normalized_eq hweight hweight]
    exact congrArg Except.ok (by decide)
  · norm_num [Binary.toRat, Binary.signedUnits_zero]

end HybridWeights

end KnowledgeSearch
