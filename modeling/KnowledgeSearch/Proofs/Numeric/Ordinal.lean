/-
  KnowledgeSearch/Proofs/Numeric/Ordinal.lean
  ===========================================
  **Arithmetic on numbers that are not negative.**

  A number that is not negative is known by its ordinal, but for the sign of a zero, which
  no comparison sees.  So arithmetic is said of ordinals (`Binary.AtOrdinal`): the ordinal of a
  sum, a product or a quotient is that of the exact result, rounded, and infinity is any
  ordinal that the grid has no finite value for.  What lies between zero and one are the
  ordinals up to that of one (`Binary.between_iff`).
-/
import KnowledgeSearch.Proofs.Numeric.Error

namespace KnowledgeSearch

namespace Binary

open Format (binary32)

section Signs

variable {F : Format} {x y : Binary F}

theorem isNaN_convert {G : Format} (hx : x.isNaN = false) : (x.convert G).isNaN = false := by
  cases x with
  | nan => cases hx
  | signed negative k =>
    simp only [convert]
    split <;> rfl

theorem isFinite_neg : (-x).isFinite = x.isFinite := by
  cases x <;> rfl

theorem signedUnits_neg : (-x).signedUnits = -x.signedUnits := by
  cases x with
  | nan => rfl
  | signed negative k =>
    change (if !negative then _ else _) = -(if negative then _ else _)
    cases negative <;> simp

/-- The opposite of an integer. -/
theorem ofInt_neg {n : Nat} (hn : 0 < n) : (ofInt (-n) : Binary F) = -ofNat n := by
  have hnegative : decide (-(n : Int) < 0) = true := by simpa using hn
  have hpositive : decide ((n : Int) < 0) = false := by simp
  rw [ofNat, ofInt, ofInt, hnegative, hpositive, Int.natAbs_neg]
  rfl

theorem isFinite_signed_iff {negative : Bool} {k : Fin (F.infinity + 1)} :
    (signed negative k : Binary F).isFinite = true ↔ k.val < F.infinity := by
  rw [isFinite, bne_iff_ne]
  omega

theorem lt_infinity (hx : x.isFinite = true) : x.lt infinity = true := by
  cases x with
  | nan => cases hx
  | signed negative k =>
    have hk := isFinite_signed_iff.mp hx
    refine lt_iff.mpr ⟨_, F.infinity, rfl, ?_, ?_⟩
    · simp [infinity, ofOrdinal, rank?]
    · split <;> omega

theorem neg_infinity_lt (hx : x.isFinite = true) : (-infinity).lt x = true := by
  cases x with
  | nan => cases hx
  | signed negative k =>
    have hk := isFinite_signed_iff.mp hx
    refine lt_iff.mpr ⟨-F.infinity, _, ?_, rfl, ?_⟩
    · change (Binary.neg (ofOrdinal false F.infinity)).rank? = _
      simp [Binary.neg, ofOrdinal, rank?]
    · split <;> omega

theorem signedUnits_zero : (zero : Binary F).signedUnits = 0 := by
  simp [zero, ofOrdinal, signedUnits, F.units_zero]

theorem signedUnits_nonneg_iff (hx : x.isNaN = false) :
    0 ≤ x.signedUnits ↔ x.lt zero = false := by
  rw [← Bool.not_eq_true, ← signedUnits_lt_iff hx rfl, signedUnits_zero, not_lt]

/-! ### Ordinals -/

/-- A number that is not negative, at an ordinal of the unbounded grid.  Zero may have either
    sign. -/
def AtOrdinal (x : Binary F) (k : Nat) : Prop :=
  ∃ negative j, x = .signed negative j ∧ j.val = min k F.infinity ∧ (negative = true → k = 0)

variable {a b : Nat}

theorem atOrdinal_ofOrdinal {negative : Bool} (h : negative = true → a = 0) :
    (ofOrdinal negative a : Binary F).AtOrdinal a := ⟨_, _, rfl, rfl, h⟩

theorem isZero_iff : x.isZero = true ↔ x.AtOrdinal 0 := by
  constructor
  · intro hx
    cases x with
    | nan => cases hx
    | signed negative j => exact ⟨negative, j, rfl, by simpa [isZero] using hx, fun _ => rfl⟩
  · rintro ⟨negative, j, rfl, hj, -⟩
    exact beq_iff_eq.mpr (by omega)

theorem atOrdinal_positive : (ofOrdinal false a : Binary F).AtOrdinal a :=
  atOrdinal_ofOrdinal fun h => absurd h Bool.false_ne_true

/-- A finite number that is not negative has an ordinal. -/
theorem exists_atOrdinal (hx : x.isFinite = true) (h : 0 ≤ x.signedUnits) :
    ∃ k < F.infinity, x.AtOrdinal k := by
  cases x with
  | nan => cases hx
  | signed negative j =>
    have hj := isFinite_signed_iff.mp hx
    refine ⟨j, hj, negative, j, rfl, (Nat.min_eq_left hj.le).symm, ?_⟩
    rintro rfl
    have hunits : F.units j ≤ F.units 0 := by
      rw [F.units_zero]
      change 0 ≤ -(F.units j : Int) at h
      omega
    exact Nat.le_zero.mp (F.units_le_iff.mp hunits)

namespace AtOrdinal

theorem isNaN_eq_false (hx : x.AtOrdinal a) : x.isNaN = false := by
  obtain ⟨negative, j, rfl, -, -⟩ := hx
  rfl

theorem isFinite (hx : x.AtOrdinal a) (ha : a < F.infinity) : x.isFinite = true := by
  obtain ⟨negative, j, rfl, hj, -⟩ := hx
  exact isFinite_signed_iff.mpr (by omega)

theorem signedUnits (hx : x.AtOrdinal a) (ha : a ≤ F.infinity) : x.signedUnits = F.units a := by
  obtain ⟨negative, j, rfl, hj, hsign⟩ := hx
  rw [Nat.min_eq_left ha] at hj
  cases negative with
  | false => rw [← hj]; rfl
  | true =>
    obtain rfl := hsign rfl
    change -(F.units j : Int) = _
    rw [hj, F.units_zero]
    rfl

theorem toRat (hx : x.AtOrdinal a) (ha : a ≤ F.infinity) :
    x.toRat = F.units a / 2 ^ F.scale := by
  rw [Binary.toRat, hx.signedUnits ha, Int.cast_natCast]

/-- Beyond the finite values there is only infinity. -/
theorem eq_infinity (hx : x.AtOrdinal a) (hpositive : 0 < F.infinity) (ha : F.infinity ≤ a) :
    x = infinity := by
  obtain ⟨negative, j, rfl, hj, hsign⟩ := hx
  cases negative with
  | true => exact absurd (hsign rfl) (by omega)
  | false =>
    rw [infinity, ofOrdinal]
    congr
    apply Fin.ext
    rw [hj, Nat.min_eq_right ha]
    exact (Nat.min_self _).symm

theorem lt_iff (hx : x.AtOrdinal a) (hy : y.AtOrdinal b) (ha : a ≤ F.infinity)
    (hb : b ≤ F.infinity) : x.lt y = true ↔ a < b := by
  rw [← signedUnits_lt_iff hx.isNaN_eq_false hy.isNaN_eq_false, hx.signedUnits ha,
    hy.signedUnits hb, Int.ofNat_lt, F.units_lt_iff]

theorem le_iff (hx : x.AtOrdinal a) (hy : y.AtOrdinal b) (ha : a ≤ F.infinity)
    (hb : b ≤ F.infinity) : x.le y = true ↔ a ≤ b := by
  rw [← not_lt_iff hy.isNaN_eq_false hx.isNaN_eq_false, ← Bool.not_eq_true, hy.lt_iff hx hb ha,
    not_lt]

theorem capped (hx : x.AtOrdinal a) : x.AtOrdinal (min a F.infinity) := by
  obtain ⟨negative, j, rfl, hj, hsign⟩ := hx
  refine ⟨negative, j, rfl, by omega, fun hnegative => ?_⟩
  rw [hsign hnegative, Nat.zero_min]

end AtOrdinal

/-! ### Sums and differences -/

/-- A sum that is not negative is the exact sum, rounded. -/
theorem atOrdinal_add (hx : x.isFinite = true) (hy : y.isFinite = true) {n : Nat}
    (h : x.signedUnits + y.signedUnits = n) : (x + y).AtOrdinal (F.nearest n 1) := by
  cases x with
  | nan => cases hx
  | signed s j =>
    cases y with
    | nan => cases hy
    | signed t k =>
      change (add (.signed s j) (.signed t k)).AtOrdinal _
      simp only [add, if_neg (bne_iff_ne.mp hx), if_neg (bne_iff_ne.mp hy), h]
      split
      · rename_i hzero
        rw [Int.natCast_eq_zero.mp hzero, Format.nearest_zero Nat.one_pos]
        exact atOrdinal_ofOrdinal fun _ => rfl
      · have hpositive : decide ((n : Int) < 0) = false := by simp
        rw [hpositive, Int.natAbs_natCast]
        exact atOrdinal_positive

theorem atOrdinal_sub (hx : x.isFinite = true) (hy : y.isFinite = true) {n : Nat}
    (h : x.signedUnits - y.signedUnits = n) : (x - y).AtOrdinal (F.nearest n 1) := by
  apply atOrdinal_add hx (isFinite_neg.trans hy)
  rwa [signedUnits_neg, ← Int.sub_eq_add_neg]

theorem AtOrdinal.add (hx : x.AtOrdinal a) (hy : y.AtOrdinal b) (ha : a < F.infinity)
    (hb : b < F.infinity) : (x + y).AtOrdinal (F.nearest (F.units a + F.units b) 1) := by
  apply atOrdinal_add (hx.isFinite ha) (hy.isFinite hb)
  rw [hx.signedUnits ha.le, hy.signedUnits hb.le]
  rfl

/-- The sum of a finite number and any other is a number. -/
theorem isNaN_add (hx : x.isFinite = true) (hy : y.isNaN = false) : (x + y).isNaN = false := by
  cases x with
  | nan => cases hx
  | signed s j =>
    cases y with
    | nan => cases hy
    | signed t k =>
      change (add (.signed s j) (.signed t k)).isNaN = false
      simp only [add, if_neg (bne_iff_ne.mp hx)]
      split
      · rfl
      · split <;> rfl

/-! ### Products and quotients -/

theorem AtOrdinal.mul (hx : x.AtOrdinal a) (hy : y.AtOrdinal b) (ha : a < F.infinity)
    (hb : b < F.infinity) :
    (x * y).AtOrdinal (F.nearest (F.units a * F.units b) (2 ^ F.scale)) := by
  obtain ⟨s, j, rfl, hj, hs⟩ := hx
  obtain ⟨t, k, rfl, hk, ht⟩ := hy
  rw [Nat.min_eq_left ha.le] at hj
  rw [Nat.min_eq_left hb.le] at hk
  change (mul (.signed s j) (.signed t k)).AtOrdinal _
  simp only [mul, hj, hk, Nat.pow_eq]
  rw [if_neg (by omega)]
  apply atOrdinal_ofOrdinal
  intro hsign
  have hzero : a = 0 ∨ b = 0 := by
    cases s with
    | true => exact .inl (hs rfl)
    | false => exact .inr (ht (by simpa using hsign))
  have hproduct : F.units a * F.units b = 0 := by
    rcases hzero with rfl | rfl <;> simp [F.units_zero]
  rw [hproduct, Format.nearest_zero (Nat.two_pow_pos _)]

theorem AtOrdinal.div (hx : x.AtOrdinal a) (hy : y.AtOrdinal b) (ha : a < F.infinity)
    (hb : b < F.infinity) (hpositive : 0 < b) :
    (x / y).AtOrdinal (F.nearest (F.units a * 2 ^ F.scale) (F.units b)) := by
  obtain ⟨s, j, rfl, hj, hs⟩ := hx
  obtain ⟨t, k, rfl, hk, ht⟩ := hy
  rw [Nat.min_eq_left ha.le] at hj
  rw [Nat.min_eq_left hb.le] at hk
  have hdivisor : t = false := by
    cases t with
    | false => rfl
    | true => exact absurd (ht rfl) hpositive.ne'
  change (Binary.div (.signed s j) (.signed t k)).AtOrdinal _
  simp only [Binary.div, hj, hk, if_neg ha.ne, if_neg hb.ne, if_neg hpositive.ne',
    Nat.shiftLeft_eq, hdivisor, Bool.bne_false]
  apply atOrdinal_ofOrdinal
  intro hsign
  rw [hs hsign, F.units_zero, Nat.zero_mul, Format.nearest_zero (F.units_pos_iff.mpr hpositive)]

/-- A finite part of infinity is nothing. -/
theorem AtOrdinal.div_infinity (hx : x.AtOrdinal a) (ha : a < F.infinity) :
    (x / infinity).AtOrdinal 0 := by
  obtain ⟨s, j, rfl, hj, -⟩ := hx
  rw [Nat.min_eq_left ha.le] at hj
  change (Binary.div (.signed s j) (ofOrdinal false F.infinity)).AtOrdinal _
  simp only [Binary.div, ofOrdinal, Nat.min_self, if_neg (hj.trans_ne ha.ne), if_true]
  exact atOrdinal_ofOrdinal fun _ => rfl

/-- The quotient of a finite number and one that is not zero is a number. -/
theorem AtOrdinal.isNaN_div (hx : x.AtOrdinal a) (hy : y.AtOrdinal b) (ha : a < F.infinity)
    (hpositive : 0 < b) : (x / y).isNaN = false := by
  rcases Nat.lt_or_ge b F.infinity with hb | hb
  · exact (hx.div hy ha hb hpositive).isNaN_eq_false
  · rw [hy.eq_infinity (Nat.zero_lt_of_lt ha) hb]
    exact (hx.div_infinity ha).isNaN_eq_false

end Signs

variable {x y : Single}

theorem signedUnits_lt_overflowUnits (hx : x.isFinite = true) : x.signedUnits < overflowUnits := by
  cases x with
  | nan => cases hx
  | signed negative k =>
    have hk := isFinite_signed_iff.mp hx
    have hmost : binary32.units k ≤ binary32.units (binary32.infinity - 1) :=
      binary32.units_le_iff.mpr (by omega)
    have hnext : binary32.units (binary32.infinity - 1) < binary32.units binary32.infinity :=
      binary32.units_lt_iff.mpr (by decide)
    have hmiddle := middle_infinity
    simp only [signedUnits]
    split <;> omega

/-! ### Between zero and one -/

theorem atOrdinal_zero : (zero : Single).AtOrdinal 0 := atOrdinal_positive

theorem atOrdinal_one : (one : Single).AtOrdinal oneOrdinal := by
  rw [one_eq]
  exact ⟨_, _, rfl, by decide, nofun⟩

theorem oneOrdinal_lt_infinity : oneOrdinal < binary32.infinity := by decide

/-- The numbers between zero and one. -/
theorem between_iff :
    zero.le x = true ∧ x.le one = true ↔ ∃ k ≤ oneOrdinal, x.AtOrdinal k := by
  constructor
  · rintro ⟨hleast, hmost⟩
    rw [one_eq] at hmost
    rcases cases_of_between hleast hmost with ⟨k, rfl, hk⟩ | rfl
    · refine ⟨k, hk, false, k, rfl, ?_, nofun⟩
      exact (Nat.min_eq_left (hk.trans oneOrdinal_lt_infinity.le)).symm
    · exact ⟨0, Nat.zero_le _, true, 0, rfl, rfl, fun _ => rfl⟩
  · rintro ⟨k, hk, hx⟩
    have hfinite := hk.trans oneOrdinal_lt_infinity.le
    exact ⟨(atOrdinal_zero.le_iff hx (Nat.zero_le _) hfinite).mpr (Nat.zero_le k),
      (hx.le_iff atOrdinal_one hfinite oneOrdinal_lt_infinity.le).mpr hk⟩

/-- A number that is brought between zero and one is there. -/
theorem between_clamp (hx : x.isNaN = false) :
    zero.le (x.clamp zero one) = true ∧ (x.clamp zero one).le one = true := by
  have hzero : (zero : Single).isNaN = false := rfl
  have hone : (one : Single).isNaN = false := atOrdinal_one.isNaN_eq_false
  unfold clamp
  split
  · exact between_iff.mpr ⟨0, Nat.zero_le _, atOrdinal_zero⟩
  · rename_i hleast
    split
    · exact between_iff.mpr ⟨oneOrdinal, le_rfl, atOrdinal_one⟩
    · rename_i hmost
      exact ⟨(not_lt_iff hx hzero).mp (Bool.eq_false_iff.mpr hleast),
        (not_lt_iff hone hx).mp (Bool.eq_false_iff.mpr hmost)⟩

/-- Numbers between zero and one are multiplied without leaving them. -/
theorem AtOrdinal.mul_le {a b : Nat} (hx : x.AtOrdinal a) (hy : y.AtOrdinal b)
    (ha : a ≤ oneOrdinal) (hb : b ≤ oneOrdinal) : ∃ k ≤ oneOrdinal, (x * y).AtOrdinal k := by
  refine ⟨_, ?_, hx.mul hy (ha.trans_lt oneOrdinal_lt_infinity)
    (hb.trans_lt oneOrdinal_lt_infinity)⟩
  apply Format.nearest_le (Nat.two_pow_pos _)
  rw [units_oneOrdinal]
  exact Nat.mul_le_mul (units_oneOrdinal ▸ binary32.units_le_iff.mpr ha)
    (units_oneOrdinal ▸ binary32.units_le_iff.mpr hb)

end Binary

end KnowledgeSearch
