/-
  KnowledgeSearch/Proofs/Numeric/Closest.lean
  ===========================================
  **Integers that are rounded.**

  No value of a format is nearer to an integer than the one that it is rounded to
  (`Binary.closest_ofInt`), so none lies between the two (`Binary.Closest.lt_iff`).  They are the
  same only if the significand has bits enough for the integer, whatever zeros follow them
  (`Binary.toRat_ofInt_eq_iff`); other integers are moved, and several of them to one value
  (`Binary.ofInt_eq_ofInt_iff`).
-/
import KnowledgeSearch.Proofs.Numeric.Nearest

namespace KnowledgeSearch

/-! ### The nearest values -/

/-- No value is nearer to an amount than the one that it is rounded to. -/
theorem Format.abs_units_nearest_sub_le_abs {F : Format} (n j : Nat) :
    |(F.units (F.nearest n 1) : Int) - n| ≤ |(F.units j : Int) - n| := by
  rcases lt_trichotomy j (F.nearest n 1) with hlt | rfl | hgt
  · have hmiddle := F.middle_le Nat.one_pos (Nat.sub_one_lt_of_lt hlt)
    have hbelow := F.units_le_iff.mpr (Nat.le_sub_one_of_lt hlt)
    have hless := F.units_lt_iff.mpr hlt
    rw [Nat.sub_add_cancel (by omega)] at hmiddle
    rw [abs_of_nonpos (a := (F.units j : Int) - n) (by omega)]
    exact abs_le.mpr ⟨by omega, by omega⟩
  · exact le_rfl
  · have hmiddle := F.le_middle Nat.one_pos (Nat.le_refl (F.nearest n 1))
    have habove : F.units (F.nearest n 1 + 1) ≤ F.units j := F.units_le_iff.mpr hgt
    have hmore := F.units_lt_iff.mpr hgt
    rw [abs_of_nonneg (a := (F.units j : Int) - n) (by omega)]
    exact abs_le.mpr ⟨by omega, by omega⟩

namespace Binary

variable {F : Format} {x y : Binary F} {r : ℚ} {n : Int}

/-- Whether no number is nearer to a rational one. -/
def Closest (x : Binary F) (r : ℚ) : Prop :=
  ∀ y : Binary F, y.isFinite = true → |x.toRat - r| ≤ |y.toRat - r|

/-- A number that is nearest to another leaves no room for a third between them. -/
theorem Closest.lt_iff (h : x.Closest r) (hy : y.isFinite = true) (hne : y.toRat ≠ x.toRat) :
    y.toRat < r ↔ y.toRat < x.toRat := by
  have hnearer := h y hy
  constructor
  · intro hlt
    by_contra hnot
    have hbetween : x.toRat < y.toRat := lt_of_le_of_ne (not_lt.mp hnot) hne.symm
    rw [abs_of_neg (by linarith), abs_of_neg (by linarith)] at hnearer
    linarith
  · intro hlt
    by_contra hnot
    have hle := not_lt.mp hnot
    rw [abs_of_pos (by linarith), abs_of_nonneg (by linarith)] at hnearer
    linarith

theorem toRat_neg (x : Binary F) : (-x).toRat = -x.toRat := by
  rw [toRat, signedUnits_neg, Int.cast_neg, neg_div, toRat]

theorem Closest.neg (h : x.Closest r) : (-x).Closest (-r) := by
  intro y hy
  have hnearer := h (-y) (isFinite_neg.trans hy)
  rw [toRat_neg, ← abs_neg, ← abs_neg (y.toRat - -r)]
  rw [toRat_neg] at hnearer
  convert hnearer using 2 <;> ring

/-! ### Integers as numbers of a format -/

/-- What holds of the counting numbers and of the opposites of those that it holds of holds of
    all integers that are not rounded to infinity. -/
theorem ofInt_induction {P : Binary F → Int → Prop}
    (hcount : ∀ a : Nat, (ofInt a : Binary F).isFinite = true → P (ofInt a) a)
    (hneg : ∀ x n, P x n → P (-x) (-n)) (hfinite : (ofInt n : Binary F).isFinite = true) :
    P (ofInt n) n := by
  obtain ⟨a, rfl | rfl⟩ := n.eq_nat_or_neg
  · exact hcount a hfinite
  · rcases Nat.eq_zero_or_pos a with rfl | hpos
    · exact hcount 0 hfinite
    · rw [ofInt_neg hpos] at hfinite ⊢
      exact hneg _ _ (hcount a (isFinite_neg.symm.trans hfinite))

section Count

variable {a : Nat} (hfinite : (ofInt a : Binary F).isFinite = true)

include hfinite

theorem toRat_ofInt_natCast :
    (ofInt a : Binary F).toRat = F.units (F.nearest (a * 2 ^ F.scale) 1) / 2 ^ F.scale := by
  have hpositive : decide ((a : Int) < 0) = false := by simp
  rw [ofInt, hpositive, Int.natAbs_natCast, Nat.shiftLeft_eq] at hfinite ⊢
  have hlt := isFinite_signed_iff.mp hfinite
  dsimp only at hlt
  exact atOrdinal_positive.toRat (by omega)

theorem closest_ofInt_natCast : (ofInt a : Binary F).Closest a := by
  intro y hy
  have hpos : (0 : ℚ) < 2 ^ F.scale := by positivity
  have hscaled (units : Int) : |(units : ℚ) / 2 ^ F.scale - a| =
      (|units - (a * 2 ^ F.scale : Nat)| : Int) / 2 ^ F.scale := by
    have hshare : (units : ℚ) / 2 ^ F.scale - a = (units - a * 2 ^ F.scale) / 2 ^ F.scale := by
      field_simp
    rw [hshare, abs_div, abs_of_pos hpos, Int.cast_abs]
    push_cast
    rfl
  rw [toRat_ofInt_natCast hfinite, toRat, ← Int.cast_natCast (F.units _), hscaled, hscaled]
  refine div_le_div_of_nonneg_right (Int.cast_le.mpr ?_) hpos.le
  cases y with
  | nan => cases hy
  | signed negative j =>
    have hnearer := F.abs_units_nearest_sub_le_abs (a * 2 ^ F.scale)
    cases negative with
    | false => exact hnearer j
    | true =>
      -- a number on the other side of zero is not nearer than zero
      change _ ≤ |-(F.units j : Int) - _|
      refine (hnearer 0).trans ?_
      rw [F.units_zero, abs_of_nonpos (by omega), abs_of_nonpos (by omega)]
      omega

/-- A count is on the grid exactly if no more bits are needed for it than a significand has,
    apart from the zeros that follow them. -/
theorem toRat_ofInt_natCast_eq_iff : (ofInt a : Binary F).toRat = a ↔
    ∃ m e : Nat, m ≤ 2 * 2 ^ F.fractionBits ∧ a = m * 2 ^ e := by
  have hpos : (0 : ℚ) < 2 ^ F.scale := by positivity
  have hunits : (ofInt a : Binary F).toRat = a ↔
      F.units (F.nearest (a * 2 ^ F.scale) 1) = a * 2 ^ F.scale := by
    rw [toRat_ofInt_natCast hfinite, div_eq_iff hpos.ne']
    exact_mod_cast Iff.rfl
  rw [hunits]
  constructor
  · intro h
    obtain ⟨steps, hsteps, hvalue, -⟩ := F.units_eq_steps (F.nearest (a * 2 ^ F.scale) 1)
    rw [h] at hvalue
    generalize F.stepShift _ = shift at hvalue
    rcases Nat.le_total F.scale shift with hle | hle
    · refine ⟨steps, shift - F.scale, hsteps.le, ?_⟩
      have hsplit : 2 ^ shift = 2 ^ (shift - F.scale) * 2 ^ F.scale := by
        rw [← pow_add, Nat.sub_add_cancel hle]
      rw [hsplit, ← Nat.mul_assoc] at hvalue
      exact Nat.eq_of_mul_eq_mul_right (Nat.two_pow_pos _) hvalue
    · have hsplit : 2 ^ F.scale = 2 ^ (F.scale - shift) * 2 ^ shift := by
        rw [← pow_add, Nat.sub_add_cancel hle]
      rw [hsplit, ← Nat.mul_assoc] at hvalue
      have hcount := Nat.eq_of_mul_eq_mul_right (Nat.two_pow_pos _) hvalue
      refine ⟨a, 0, ?_, by omega⟩
      calc a ≤ a * 2 ^ (F.scale - shift) := Nat.le_mul_of_pos_right _ (Nat.two_pow_pos _)
        _ = steps := hcount
        _ ≤ 2 * 2 ^ F.fractionBits := hsteps.le
  · rintro ⟨m, e, hm, rfl⟩
    -- a full significand is a power of two, which needs one bit
    obtain ⟨m, e, hm, heq⟩ : ∃ m' e', m' < 2 * 2 ^ F.fractionBits ∧ m * 2 ^ e = m' * 2 ^ e' := by
      rcases hm.lt_or_eq with hlt | rfl
      · exact ⟨m, e, hlt, rfl⟩
      · refine ⟨1, F.fractionBits + 1 + e, by have := Nat.two_pow_pos F.fractionBits; omega, ?_⟩
        ring
    obtain ⟨j, hj⟩ := F.exists_units_mul_pow hm (e + F.scale)
    rw [heq, Nat.mul_assoc, ← pow_add, ← hj, F.nearest_eq Nat.one_pos (k := j) (by ring)]

end Count

/-- No number is nearer to an integer than the one that it is rounded to. -/
theorem closest_ofInt (hfinite : (ofInt n : Binary F).isFinite = true) :
    (ofInt n : Binary F).Closest n := by
  refine ofInt_induction (P := fun x n => x.Closest n) ?_ ?_ hfinite
  · intro a ha
    exact closest_ofInt_natCast ha
  · intro x n h
    rw [Int.cast_neg]
    exact h.neg

/-- **An integer is a number of the format exactly if its significand has bits enough for it.** -/
theorem toRat_ofInt_eq_iff (hfinite : (ofInt n : Binary F).isFinite = true) :
    (ofInt n : Binary F).toRat = n ↔
      ∃ (m : Int) (e : Nat), m.natAbs ≤ 2 * 2 ^ F.fractionBits ∧ n = m * 2 ^ e := by
  refine ofInt_induction (P := fun x n => x.toRat = n ↔
    ∃ (m : Int) (e : Nat), m.natAbs ≤ 2 * 2 ^ F.fractionBits ∧ n = m * 2 ^ e) ?_ ?_ hfinite
  · intro a ha
    rw [Int.cast_natCast, toRat_ofInt_natCast_eq_iff ha]
    constructor
    · rintro ⟨m, e, hm, rfl⟩
      exact ⟨m, e, hm, by push_cast; rfl⟩
    · rintro ⟨m, e, hm, h⟩
      refine ⟨m.natAbs, e, hm, ?_⟩
      have habs := congrArg Int.natAbs h
      rwa [Int.natAbs_natCast, Int.natAbs_mul, Int.natAbs_pow] at habs
  · intro x n h
    rw [toRat_neg, Int.cast_neg, neg_inj, h]
    constructor
    · rintro ⟨m, e, hm, rfl⟩
      exact ⟨-m, e, by rwa [Int.natAbs_neg], by ring⟩
    · rintro ⟨m, e, hm, hn⟩
      exact ⟨-m, e, by rwa [Int.natAbs_neg], by rw [neg_mul, ← hn, neg_neg]⟩

/-- **Integers are rounded alike exactly if they have one sign and no middle separates them.** -/
theorem ofInt_eq_ofInt_iff {m : Int} : (ofInt m : Binary F) = ofInt n ↔
    (m < 0 ↔ n < 0) ∧ F.NoMiddleBetween |m| |n| := by
  have hnearest (n : Int) : (ofInt n : Binary F).IsNearest (n < 0) |n| := by
    apply isNearest_round Nat.one_pos
    rw [Nat.shiftLeft_eq, Nat.cast_mul, Nat.cast_natAbs]
    push_cast
    ring
  by_cases hsign : m < 0 ↔ n < 0
  · have hm := hnearest m
    rw [decide_eq_decide.mpr hsign] at hm
    rw [hm.eq_iff (hnearest n)]
    simp [hsign]
  · simp only [hsign, false_and, iff_false]
    intro h
    rw [ofInt, ofInt, round, round, ofOrdinal, ofOrdinal, Binary.signed.injEq] at h
    exact hsign (decide_eq_decide.mp h.1)

end Binary

end KnowledgeSearch
