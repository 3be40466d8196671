/-
  KnowledgeSearch/Proofs/Numeric/Order.lean
  =========================================
  **Rounding keeps the order.**

  A quotient lies between the middles around the value that it is rounded to
  (`Format.le_middle`, `Format.middle_le`).  So a greater quotient is never rounded to a
  smaller value (`Format.nearest_mono`), and two that are rounded to one value are no
  further apart than those middles.  Up to one the middles are close together
  (`Binary.near_of_nearest_eq`), which is how far apart numbers have to be to be told
  apart after a subtraction from one.
-/
import KnowledgeSearch.Proofs.Numeric.Bound

namespace KnowledgeSearch

namespace Format

variable {F : Format} {num den k : Nat}

/-- The ordinal below a quotient between a value and the next. -/
theorem ordinalBelow_eq (hden : 0 < den) (hleast : F.units k * den ≤ num)
    (hmost : num < F.units (k + 1) * den) : F.ordinalBelow (num / den) = k := by
  apply Nat.le_antisymm
  · apply Nat.lt_succ_iff.mp
    apply F.units_lt_iff.mp
    apply (F.units_ordinalBelow_le _).trans_lt
    rwa [Nat.div_lt_iff_lt_mul hden]
  · have hk : F.units k ≤ num / den := (Nat.le_div_iff_mul_le hden).mpr hleast
    exact Nat.lt_succ_iff.mp
      (F.units_lt_iff.mp (hk.trans_lt (F.lt_units_succ_ordinalBelow _)))

/-- A quotient above the middle of a value and the next is rounded above the value. -/
theorem lt_nearest_of_middle_lt (hden : 0 < den)
    (h : (F.units k + F.units (k + 1)) * den < 2 * num) : k < F.nearest num den := by
  by_cases hnext : F.units (k + 1) * den ≤ num
  · exact le_nearest hden hnext
  · rw [not_le] at hnext
    rw [Nat.add_mul] at h
    have hlow : F.ordinalBelow (num / den) = k := ordinalBelow_eq hden (by omega) hnext
    have hgreater : compare (2 * num) ((F.units k + F.units (k + 1)) * den) = .gt := by
      rw [Nat.compare_eq_gt, Nat.add_mul]
      exact h
    simp only [nearest, nearestBy, hlow, hgreater]
    exact Nat.lt_succ_self k

/-- A quotient in the middle of a value and the next is rounded to the even one. -/
theorem nearest_middle (hden : 0 < den) (h : 2 * num = (F.units k + F.units (k + 1)) * den) :
    F.nearest num den = if k % 2 = 0 then k else k + 1 := by
  have hnext : F.units k * den < F.units (k + 1) * den :=
    Nat.mul_lt_mul_of_pos_right (F.units_strictMono k.lt_succ_self) hden
  have hsum := h
  rw [Nat.add_mul] at hsum
  have hlow : F.ordinalBelow (num / den) = k := ordinalBelow_eq hden (by omega) (by omega)
  simp only [nearest, nearestBy, hlow, Nat.compare_eq_eq.mpr h]

/-- A quotient does not pass the middle of the value that it is rounded to and the next. -/
theorem le_middle (hden : 0 < den) (hk : F.nearest num den ≤ k) :
    2 * num ≤ (F.units k + F.units (k + 1)) * den := by
  by_contra h
  exact absurd (lt_nearest_of_middle_lt hden (not_le.mp h)) (Nat.not_lt.mpr hk)

/-- A quotient reaches the middle of the value that it is rounded to and the one before. -/
theorem middle_le (hden : 0 < den) (hk : k < F.nearest num den) :
    (F.units k + F.units (k + 1)) * den ≤ 2 * num := by
  by_contra h
  exact absurd (nearest_le_of_lt_middle hden (not_le.mp h)) (Nat.not_le.mpr hk)

/-- What is not rounded above an even ordinal is what does not pass the middle behind it. -/
theorem nearest_le_iff_of_even (hden : 0 < den) (hk : k % 2 = 0) :
    F.nearest num den ≤ k ↔ 2 * num ≤ (F.units k + F.units (k + 1)) * den := by
  constructor
  · exact le_middle hden
  · intro h
    rcases h.lt_or_eq with hlt | heq
    · exact nearest_le_of_lt_middle hden hlt
    · rw [nearest_middle hden heq, if_pos hk]

/-- A quotient between the middles around a value is rounded to it, and so is one that is such a
    middle if the ordinal is even. -/
theorem nearest_eq_of_between (hden : 0 < den) (hk : 0 < k)
    (hleast : (F.units (k - 1) + F.units k) * den ≤ 2 * num)
    (hmost : 2 * num ≤ (F.units k + F.units (k + 1)) * den)
    (hodd : k % 2 = 1 → (F.units (k - 1) + F.units k) * den < 2 * num ∧
      2 * num < (F.units k + F.units (k + 1)) * den) : F.nearest num den = k := by
  have hpred : k - 1 + 1 = k := Nat.sub_add_cancel hk
  rcases Nat.mod_two_eq_zero_or_one k with heven | hone
  · apply Nat.le_antisymm ((nearest_le_iff_of_even hden heven).mpr hmost)
    rcases hleast.lt_or_eq with hlt | heq
    · have habove : k - 1 < F.nearest num den := lt_nearest_of_middle_lt hden (by rwa [hpred])
      omega
    · rw [nearest_middle hden (by rw [hpred]; exact heq.symm), if_neg (by omega), hpred]
  · obtain ⟨hgreater, hless⟩ := hodd hone
    have habove : k - 1 < F.nearest num den := lt_nearest_of_middle_lt hden (by rwa [hpred])
    have hbelow := nearest_le_of_lt_middle hden hless
    omega

/-- A greater quotient is not rounded to a smaller value. -/
theorem nearest_mono (hden : 0 < den) {a b : Nat} (h : a ≤ b) :
    F.nearest a den ≤ F.nearest b den := by
  by_contra hlt
  have habove := middle_le hden (not_le.mp hlt)
  have hbelow := F.le_middle hden (Nat.le_refl (F.nearest b den))
  have heq : a = b := by omega
  exact hlt (by rw [heq])

end Format

namespace Binary

open Format (binary32)

/-! ### Units keep the order -/

theorem signedUnits_lt_iff {F : Format} {x y : Binary F} (hx : x.isNaN = false)
    (hy : y.isNaN = false) : x.signedUnits < y.signedUnits ↔ x.lt y = true := by
  cases x with
  | nan => cases hx
  | signed negative a =>
    cases y with
    | nan => cases hy
    | signed negative' b =>
      have hlt : (signed negative a).lt (signed negative' b) = true ↔
          (if negative then -(a.val : Int) else a.val) <
            (if negative' then -(b.val : Int) else b.val) := by
        rw [lt_iff]
        simp [rank?]
      have hab := F.units_lt_iff (a := a.val) (b := b.val)
      have hba := F.units_lt_iff (a := b.val) (b := a.val)
      have ha := F.units_lt_iff (a := 0) (b := a.val)
      have hb := F.units_lt_iff (a := 0) (b := b.val)
      rw [F.units_zero] at ha hb
      rw [hlt, signedUnits, signedUnits]
      cases negative <;> cases negative' <;> simp only [if_true, if_false, Bool.false_eq_true] <;>
        omega

theorem compare_eq_of_lt_iff {a b c d : Int} (hlt : a < b ↔ c < d) (hgt : b < a ↔ d < c) :
    compare a b = compare c d := by
  rcases Int.lt_trichotomy a b with h | h | h
  · rw [Int.compare_eq_lt.mpr h, Int.compare_eq_lt.mpr (hlt.mp h)]
  · rw [Int.compare_eq_eq.mpr h, Int.compare_eq_eq.mpr (by omega)]
  · rw [Int.compare_eq_gt.mpr h, Int.compare_eq_gt.mpr (hgt.mp h)]

/-- Numbers are compared by their values. -/
theorem compare?_eq {F : Format} {x y : Binary F} (hx : x.isNaN = false)
    (hy : y.isNaN = false) : x.compare? y = some (compare x.signedUnits y.signedUnits) := by
  have hxy := signedUnits_lt_iff hx hy
  have hyx := signedUnits_lt_iff hy hx
  cases x with
  | nan => cases hx
  | signed s a =>
    cases y with
    | nan => cases hy
    | signed t b =>
      rw [lt_iff] at hxy hyx
      simp only [rank?, Option.some.injEq, exists_and_left, exists_eq_left'] at hxy hyx
      exact congrArg some (compare_eq_of_lt_iff hxy.symm hyx.symm)

/-! ### Numbers up to one -/

/-- The numbers below one are close together. -/
theorem units_succ_le {k : Nat} (h : k < oneOrdinal) :
    binary32.units (k + 1) ≤ binary32.units k + 2 ^ 125 := by
  obtain ⟨shift, steps, rfl, hsteps, hnormal⟩ := binary32.exists_steps k
  have hshift : shift ≤ 125 := by
    simp only [oneOrdinal, binary32] at h hsteps hnormal
    omega
  rw [Nat.add_assoc, binary32.units_steps hsteps (hnormal.imp_right fun h => by omega),
    binary32.units_steps hsteps.le hnormal, Nat.succ_mul]
  exact Nat.add_le_add_left (Nat.pow_le_pow_right (by decide) hshift) _

theorem units_oneOrdinal : binary32.units oneOrdinal = 2 ^ binary32.scale := by decide

/-- An amount up to one is moved by at most `2 ^ -25`. -/
theorem error_below_one {num den : Nat} (hden : 0 < den) (h : num ≤ 2 ^ binary32.scale * den) :
    2 * num ≤ (2 * binary32.units (binary32.nearest num den) + 2 ^ 125) * den ∧
      2 * binary32.units (binary32.nearest num den) * den ≤ 2 * num + 2 ^ 125 * den := by
  have hone : binary32.nearest num den ≤ oneOrdinal :=
    Format.nearest_le hden (units_oneOrdinal ▸ h)
  constructor
  · rcases hone.lt_or_eq with hlt | heq
    · calc 2 * num
          ≤ (binary32.units (binary32.nearest num den) +
              binary32.units (binary32.nearest num den + 1)) * den :=
            binary32.le_middle hden le_rfl
        _ ≤ (2 * binary32.units (binary32.nearest num den) + 2 ^ 125) * den := by
            have hstep := units_succ_le hlt
            apply Nat.mul_le_mul_right
            omega
    · rw [heq, units_oneOrdinal, Nat.add_mul, Nat.mul_assoc]
      exact (Nat.mul_le_mul_left 2 h).trans (Nat.le_add_right _ _)
  · cases hk : binary32.nearest num den with
    | zero =>
      rw [binary32.units_zero, Nat.mul_zero, Nat.zero_mul]
      exact Nat.zero_le _
    | succ k =>
      have hmiddle := binary32.middle_le hden ((Nat.lt_succ_self k).trans_eq hk.symm)
      have hstep := units_succ_le (k := k) (by omega)
      calc 2 * binary32.units (k + 1) * den
          ≤ (binary32.units k + binary32.units (k + 1) + 2 ^ 125) * den := by
            apply Nat.mul_le_mul_right
            omega
        _ = (binary32.units k + binary32.units (k + 1)) * den + 2 ^ 125 * den := by ring
        _ ≤ 2 * num + 2 ^ 125 * den := Nat.add_le_add_right hmiddle _

/-- Amounts up to one that are rounded to the same value are close to each other. -/
theorem near_of_nearest_eq {a b : Nat} (hb : b ≤ 2 ^ binary32.scale)
    (h : binary32.nearest a 1 = binary32.nearest b 1) : b ≤ a + 2 ^ 125 := by
  rcases Nat.le_total b a with hba | hab
  · exact hba.trans (Nat.le_add_right _ _)
  · have hone : b ≤ 2 ^ binary32.scale * 1 := by rwa [Nat.mul_one]
    have hbelow := (error_below_one Nat.one_pos hone).1
    have habove := (error_below_one Nat.one_pos (hab.trans hone)).2
    rw [h] at habove
    omega

/-! ### What is left of one -/

theorem one_eq : (one : Single) = .signed false ⟨oneOrdinal, by decide⟩ := by decide

theorem clamp_positive (k : Fin (binary32.infinity + 1)) :
    (signed false k : Single).clamp zero one =
      .signed false ⟨min k.val oneOrdinal, (Nat.min_le_left _ _).trans_lt k.isLt⟩ := by
  have hzero : (signed false k : Single).lt zero = false := by
    rw [Bool.eq_false_iff, Ne, lt_iff]
    rintro ⟨a, b, ha, hb, hlt⟩
    cases ha
    cases hb
    exact absurd hlt (by simp)
  have hone : one.lt (signed false k : Single) = true ↔ oneOrdinal < k.val := by
    rw [one_eq, lt_iff]
    simp [rank?]
  unfold clamp
  rw [hzero, if_neg Bool.false_ne_true]
  by_cases hk : oneOrdinal < k.val
  · rw [if_pos (hone.mpr hk), one_eq]
    congr
    exact (Nat.min_eq_right hk.le).symm
  · rw [if_neg (mt hone.mp hk)]
    congr
    exact Fin.ext (Nat.min_eq_left (not_lt.mp hk)).symm

theorem clamp_negative {k : Fin (binary32.infinity + 1)} (hk : 0 < k.val) :
    (signed true k : Single).clamp zero one = zero := by
  have hzero : (signed true k : Single).lt zero = true :=
    lt_iff.mpr ⟨-k, 0, rfl, rfl, by omega⟩
  rw [clamp, if_pos hzero]

/-- The ordinal of what a number leaves of one, kept between zero and one. -/
def complementOrdinal (x : Single) : Nat :=
  min (binary32.nearest (2 ^ binary32.scale - x.signedUnits).toNat 1) oneOrdinal

theorem complementOrdinal_le (x : Single) : x.complementOrdinal ≤ oneOrdinal :=
  Nat.min_le_right _ _

/-- What a number leaves of one, kept between zero and one. -/
def complement (x : Single) : Single :=
  .signed false ⟨x.complementOrdinal, x.complementOrdinal_le.trans_lt (by decide)⟩

theorem one_sub_eq {x : Single} (hx : x.isFinite = true) {total : Int}
    (htotal : 2 ^ binary32.scale - x.signedUnits = total) :
    one - x = if total = 0 then ofOrdinal false 0 else round (total < 0) total.natAbs 1 := by
  cases x with
  | nan => cases hx
  | signed negative k =>
    have hk : ¬ k.val = binary32.infinity := by simpa [isFinite] using hx
    have hunits : signedUnits (.signed false ⟨oneOrdinal, by decide⟩ : Single) +
        signedUnits (.signed (!negative) k : Single) = total := by
      have hflip : signedUnits (.signed (!negative) k : Single) =
          -signedUnits (.signed negative k : Single) := by
        cases negative <;> simp [signedUnits]
      rw [hflip, ← htotal, Int.sub_eq_add_neg, signedUnits, units_oneOrdinal]
      simp
    have hone : ¬ oneOrdinal = binary32.infinity := by decide
    rw [one_eq]
    change add (.signed false ⟨oneOrdinal, _⟩) (.signed (!negative) k) = _
    simp only [add, if_neg hone, if_neg hk, hunits, Bool.false_and]

theorem clamp_one_sub {x : Single} (hx : x.isFinite = true) :
    (one - x).clamp zero one = x.complement := by
  have hinfinity : oneOrdinal < binary32.infinity := by decide
  have hnothing : binary32.nearest 0 1 = 0 := Format.nearest_eq Nat.one_pos rfl
  obtain ⟨total, htotal⟩ : ∃ total, 2 ^ binary32.scale - x.signedUnits = total := ⟨_, rfl⟩
  have hcomplement : x.complementOrdinal = min (binary32.nearest total.toNat 1) oneOrdinal := by
    rw [complementOrdinal, htotal]
  have complement_eq {k : Nat} {hk : k < binary32.infinity + 1} (h : x.complementOrdinal = k) :
      x.complement = .signed false ⟨k, hk⟩ := by
    subst h
    rfl
  rw [one_sub_eq hx htotal]
  rcases lt_trichotomy total 0 with hneg | rfl | hpos
  · -- at least one unit is left over, so the difference is not rounded to zero
    have hleast : 1 ≤ binary32.nearest total.natAbs 1 := by
      apply Format.le_nearest Nat.one_pos
      have hunit : binary32.units 1 = 1 := by decide
      omega
    have hsign : decide (total < 0) = true := decide_eq_true hneg
    rw [if_neg hneg.ne, hsign, round, ofOrdinal, clamp_negative (Nat.lt_min.mpr ⟨hleast, by omega⟩)]
    rw [Int.toNat_of_nonpos hneg.le, hnothing] at hcomplement
    exact (complement_eq hcomplement).symm
  · rw [Int.toNat_zero, hnothing] at hcomplement
    rw [if_pos rfl, ofOrdinal, clamp_positive, complement_eq hcomplement]
    rfl
  · have hsign : decide (total < 0) = false := decide_eq_false hpos.not_gt
    have habs : total.natAbs = total.toNat := by omega
    rw [if_neg hpos.ne', hsign, round, ofOrdinal, clamp_positive, habs]
    refine (complement_eq (hcomplement.trans ?_)).symm
    rw [min_assoc, Nat.min_eq_right hinfinity.le]

/-- The greater number leaves no more of one. -/
theorem complementOrdinal_anti {x y : Single} (h : x.signedUnits ≤ y.signedUnits) :
    y.complementOrdinal ≤ x.complementOrdinal := by
  apply min_le_min_right
  apply Format.nearest_mono Nat.one_pos
  exact Int.toNat_le_toNat (Int.sub_le_sub_left h _)

/-- Numbers between zero and one that leave the same of one are close to each other. -/
theorem near_of_complementOrdinal_eq {x y : Single} (hx : 0 ≤ x.signedUnits)
    (hy : y.signedUnits ≤ 2 ^ binary32.scale) (hxy : x.signedUnits ≤ y.signedUnits)
    (h : x.complementOrdinal = y.complementOrdinal) : y.signedUnits ≤ x.signedUnits + 2 ^ 125 := by
  have hone {n : Nat} (hn : n ≤ 2 ^ binary32.scale) : binary32.nearest n 1 ≤ oneOrdinal := by
    apply Format.nearest_le Nat.one_pos
    rwa [units_oneOrdinal, Nat.mul_one]
  generalize hunit : (2 ^ binary32.scale : Nat) = unit at hone
  have hunit' : (2 ^ binary32.scale : Int) = unit := by rw [← hunit]; norm_cast
  rw [hunit'] at hy
  simp only [complementOrdinal, hunit'] at h
  rw [Nat.min_eq_left (hone (by omega)), Nat.min_eq_left (hone (by omega))] at h
  have hnear := near_of_nearest_eq (by omega) h.symm
  omega

/-! ### Sums that are exact -/

/-- A quotient that is a value is that value. -/
theorem round_eq_signed {negative : Bool} {num den : Nat} {k : Fin (binary32.infinity + 1)}
    (hden : 0 < den) (h : num = binary32.units k * den) :
    (round negative num den : Single) = .signed negative k := by
  have hk : min k.val binary32.infinity = k.val := Nat.min_eq_left (Nat.lt_succ_iff.mp k.isLt)
  rw [round, Format.nearest_eq hden h, ofOrdinal]
  congr

/-- A number in single precision is kept by double precision. -/
theorem toSingle_toDouble {x : Single} (hx : x.isFinite = true) : x.toDouble.toSingle = x := by
  cases x with
  | nan => cases hx
  | signed negative k =>
    obtain ⟨j, hj, hdouble, hunits⟩ := toDouble_signed negative (bne_iff_ne.mp hx)
    rw [hdouble]
    change convert binary32 (.signed negative j : Double) = _
    rw [convert, if_neg hj]
    apply round_eq_signed (Nat.two_pow_pos _)
    rw [hunits, Nat.shiftLeft_eq, Nat.mul_assoc, ← Nat.pow_add, Nat.sub_add_cancel (by decide)]

/-- One times a number up to one, and nothing times nothing, is that number. -/
theorem clamp_weighed {k : Fin (binary32.infinity + 1)} (hk : k.val ≤ oneOrdinal) :
    (one * .signed false k + zero * zero : Single).clamp zero one = .signed false k := by
  have hinfinity : oneOrdinal < binary32.infinity := by decide
  have hproduct : one * (.signed false k : Single) = .signed false k := by
    rw [one_eq]
    change mul (.signed false ⟨oneOrdinal, _⟩) (.signed false k) = _
    rw [mul, if_neg (by rw [not_or]; exact ⟨hinfinity.ne, (hk.trans_lt hinfinity).ne⟩)]
    apply round_eq_signed (Nat.two_pow_pos _)
    rw [units_oneOrdinal, Nat.mul_comm]
  have hnothing : (zero * zero : Single) = zero := by decide
  have hsum : (.signed false k + zero : Single) = .signed false k := by
    rw [zero, ofOrdinal, add_eq_round (hk.trans_lt hinfinity) (by decide)]
    exact round_eq_signed Nat.one_pos (Nat.mul_one _).symm
  have hmin : min k.val oneOrdinal = k.val := Nat.min_eq_left hk
  rw [hproduct, hnothing, hsum, clamp_positive]
  congr

end Binary

end KnowledgeSearch
