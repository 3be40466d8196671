/-
  KnowledgeSearch/Proofs/Numeric/Grid.lean
  ========================================
  **The grid of a format, and rounding to it.**

  Every ordinal is a number of steps of some size: `shift * 2 ^ p + steps`, where `p` is
  the number of fraction bits, stands for `steps * 2 ^ shift` units
  (`Format.units_steps`).  With that form the value grows with the ordinal, and the
  ordinal below an amount is what its name promises.  Rounding is then known by two
  bounds alone, which also say that it leaves the values of the grid as they are
  (`Format.nearest_units`).
-/
import KnowledgeSearch.Numeric.Binary
import Mathlib.Order.Monotone.Basic
import Mathlib.Tactic.Ring

namespace KnowledgeSearch.Format

variable (F : Format)

/-! ### Ordinals as steps -/

/-- What an ordinal of some steps stands for.  The first steps above a size are the last
    ones of the size below it, so that both ways to count them agree. -/
theorem units_steps {shift steps : Nat} (hsteps : steps ≤ 2 * 2 ^ F.fractionBits)
    (hnormal : shift = 0 ∨ 2 ^ F.fractionBits ≤ steps) :
    F.units (shift * 2 ^ F.fractionBits + steps) = steps * 2 ^ shift := by
  have hpos : 0 < 2 ^ F.fractionBits := Nat.two_pow_pos _
  -- within one exponent
  have inside {shift fraction : Nat} (hfraction : fraction < 2 ^ F.fractionBits) :
      F.units (shift * 2 ^ F.fractionBits + (2 ^ F.fractionBits + fraction)) =
        (2 ^ F.fractionBits + fraction) * 2 ^ shift := by
    have hordinal : shift * 2 ^ F.fractionBits + (2 ^ F.fractionBits + fraction) =
        2 ^ F.fractionBits * (shift + 1) + fraction := by ring
    have hexponent :
        (2 ^ F.fractionBits * (shift + 1) + fraction) >>> F.fractionBits = shift + 1 := by
      rw [Nat.shiftRight_eq_div_pow, Nat.mul_add_div hpos, Nat.div_eq_of_lt hfraction, Nat.add_zero]
    rw [hordinal]
    simp only [units, hexponent, Nat.pow_eq, Nat.mul_add_mod, Nat.mod_eq_of_lt hfraction]
    rw [if_neg (Nat.succ_ne_zero _), Nat.shiftLeft_eq, Nat.add_sub_cancel]
  by_cases hsmall : steps < 2 ^ F.fractionBits
  · have hshift : shift = 0 := hnormal.resolve_right (Nat.not_le.mpr hsmall)
    subst hshift
    have hexponent : steps >>> F.fractionBits = 0 := by
      rw [Nat.shiftRight_eq_div_pow, Nat.div_eq_of_lt hsmall]
    simp [units, hexponent, Nat.mod_eq_of_lt hsmall]
  · by_cases hlast : steps = 2 * 2 ^ F.fractionBits
    · have hnext := @inside (shift + 1) 0 hpos
      subst hlast
      have hordinal : shift * 2 ^ F.fractionBits + 2 * 2 ^ F.fractionBits =
          (shift + 1) * 2 ^ F.fractionBits + (2 ^ F.fractionBits + 0) := by ring
      rw [hordinal, hnext]
      ring
    · have hfraction : steps - 2 ^ F.fractionBits < 2 ^ F.fractionBits := by omega
      have hsplit : steps = 2 ^ F.fractionBits + (steps - 2 ^ F.fractionBits) := by omega
      rw [hsplit]
      exact inside hfraction

/-- Every ordinal is some steps. -/
theorem exists_steps (ordinal : Nat) : ∃ shift steps,
    ordinal = shift * 2 ^ F.fractionBits + steps ∧ steps < 2 * 2 ^ F.fractionBits ∧
      (shift = 0 ∨ 2 ^ F.fractionBits ≤ steps) := by
  have hfraction := Nat.mod_lt ordinal (Nat.two_pow_pos F.fractionBits)
  have hsplit := Nat.div_add_mod' ordinal (2 ^ F.fractionBits)
  generalize ordinal % 2 ^ F.fractionBits = fraction at hfraction hsplit
  cases hexponent : ordinal / 2 ^ F.fractionBits with
  | zero =>
    rw [hexponent] at hsplit
    exact ⟨0, fraction, by omega, by omega, Or.inl rfl⟩
  | succ shift =>
    rw [hexponent, Nat.succ_mul] at hsplit
    exact ⟨shift, 2 ^ F.fractionBits + fraction, by omega, by omega, Or.inr (Nat.le_add_right _ _)⟩

/-- The step behind an ordinal is this power of two. -/
def stepShift (ordinal : Nat) : Nat := ordinal / 2 ^ F.fractionBits - 1

/-- What the step behind an ordinal leads to. -/
theorem units_eq_steps (ordinal : Nat) : ∃ steps < 2 * 2 ^ F.fractionBits,
    F.units ordinal = steps * 2 ^ F.stepShift ordinal ∧
      F.units (ordinal + 1) = (steps + 1) * 2 ^ F.stepShift ordinal := by
  have hpos : 0 < 2 ^ F.fractionBits := Nat.two_pow_pos _
  obtain ⟨shift, steps, rfl, hsteps, hnormal⟩ := F.exists_steps ordinal
  have hshift : F.stepShift (shift * 2 ^ F.fractionBits + steps) = shift := by
    rw [stepShift, Nat.add_comm, Nat.add_mul_div_right _ _ hpos]
    have hquotient : steps / 2 ^ F.fractionBits < 2 := Nat.div_lt_of_lt_mul (by omega)
    rcases hnormal with rfl | hnormal
    · omega
    · have hreached : 1 ≤ steps / 2 ^ F.fractionBits := (Nat.one_le_div_iff hpos).mpr hnormal
      omega
  rw [hshift, Nat.add_assoc, F.units_steps hsteps (hnormal.imp_right fun h => by omega),
    F.units_steps hsteps.le hnormal]
  exact ⟨steps, hsteps, rfl, rfl⟩

theorem units_succ (ordinal : Nat) :
    F.units (ordinal + 1) = F.units ordinal + 2 ^ F.stepShift ordinal := by
  obtain ⟨steps, -, hunits, hnext⟩ := F.units_eq_steps ordinal
  rw [hnext, hunits, Nat.add_one_mul]

theorem stepShift_mono {a b : Nat} (h : a ≤ b) : F.stepShift a ≤ F.stepShift b :=
  Nat.sub_le_sub_right (Nat.div_le_div_right h) 1

theorem stepShift_succ_le (ordinal : Nat) :
    F.stepShift (ordinal + 1) ≤ F.stepShift ordinal + 1 := by
  have hpos : 0 < 2 ^ F.fractionBits := Nat.two_pow_pos _
  have hquotient : (ordinal + 1) / 2 ^ F.fractionBits ≤ ordinal / 2 ^ F.fractionBits + 1 := by
    rw [← Nat.add_div_right _ hpos]
    exact Nat.div_le_div_right (Nat.add_le_add_left hpos _)
  unfold stepShift
  omega

/-- The value grows with the ordinal. -/
theorem units_strictMono : StrictMono F.units := by
  apply strictMono_nat_of_lt_succ
  intro ordinal
  rw [units_succ]
  exact Nat.lt_add_of_pos_right (Nat.two_pow_pos _)

/-! ### The ordinal below an amount -/

/-- The ordinal below an amount stands for as many steps as fit into it. -/
theorem units_ordinalBelow (amount : Nat) :
    let step := 2 ^ (amount.log2 - F.fractionBits)
    F.units (F.ordinalBelow amount) = amount / step * step ∧
      F.units (F.ordinalBelow amount + 1) = (amount / step + 1) * step := by
  have hordinal : F.ordinalBelow amount =
      (amount.log2 - F.fractionBits) * 2 ^ F.fractionBits +
        amount / 2 ^ (amount.log2 - F.fractionBits) := by
    simp only [ordinalBelow, Nat.shiftRight_eq_div_pow, Nat.pow_eq]
  have hsteps : amount / 2 ^ (amount.log2 - F.fractionBits) < 2 * 2 ^ F.fractionBits := by
    apply Nat.div_lt_of_lt_mul
    have hlog : amount < 2 ^ (amount.log2 + 1) := Nat.lt_log2_self
    have hsplit : amount.log2 + 1 ≤ amount.log2 - F.fractionBits + (F.fractionBits + 1) := by omega
    calc amount < 2 ^ (amount.log2 + 1) := hlog
      _ ≤ 2 ^ (amount.log2 - F.fractionBits + (F.fractionBits + 1)) :=
        Nat.pow_le_pow_right Nat.two_pos hsplit
      _ = 2 ^ (amount.log2 - F.fractionBits) * (2 * 2 ^ F.fractionBits) := by ring
  have hnormal : amount.log2 - F.fractionBits = 0 ∨
      2 ^ F.fractionBits ≤ amount / 2 ^ (amount.log2 - F.fractionBits) := by
    by_cases hsmall : amount.log2 ≤ F.fractionBits
    · exact Or.inl (Nat.sub_eq_zero_of_le hsmall)
    · right
      have hamount : amount ≠ 0 := by
        rintro rfl
        simp at hsmall
      rw [Nat.le_div_iff_mul_le (Nat.two_pow_pos _), ← pow_add]
      have hsplit : F.fractionBits + (amount.log2 - F.fractionBits) = amount.log2 := by omega
      rw [hsplit]
      exact Nat.log2_self_le hamount
  rw [hordinal]
  refine ⟨F.units_steps hsteps.le hnormal, ?_⟩
  rw [Nat.add_assoc]
  exact F.units_steps hsteps (hnormal.imp_right fun h => by omega)

theorem units_ordinalBelow_le (amount : Nat) : F.units (F.ordinalBelow amount) ≤ amount := by
  rw [(F.units_ordinalBelow amount).1]
  exact Nat.div_mul_le_self _ _

theorem lt_units_succ_ordinalBelow (amount : Nat) :
    amount < F.units (F.ordinalBelow amount + 1) := by
  rw [(F.units_ordinalBelow amount).2, Nat.mul_comm]
  exact Nat.lt_mul_div_succ _ (Nat.two_pow_pos _)

theorem units_le_iff {a b : Nat} : F.units a ≤ F.units b ↔ a ≤ b := F.units_strictMono.le_iff_le

theorem units_lt_iff {a b : Nat} : F.units a < F.units b ↔ a < b := F.units_strictMono.lt_iff_lt

theorem units_zero : F.units 0 = 0 := by simp [units]

theorem units_pos_iff {a : Nat} : 0 < F.units a ↔ 0 < a := by
  rw [← F.units_zero, F.units_lt_iff, F.units_zero]

/-! ### Rounding -/

variable {F} {num den k : Nat}

/-- A quotient that reaches a value is not rounded below it. -/
theorem le_nearest (hden : 0 < den) (h : F.units k * den ≤ num) : k ≤ F.nearest num den := by
  have hk : F.units k ≤ num / den := (Nat.le_div_iff_mul_le hden).mpr h
  have hbelow : k ≤ F.ordinalBelow (num / den) :=
    Nat.lt_succ_iff.mp (F.units_lt_iff.mp (hk.trans_lt (F.lt_units_succ_ordinalBelow _)))
  simp only [nearest, nearestBy]
  split
  · exact hbelow
  · omega
  · split <;> omega

/-- A quotient below the middle of a value and the next is not rounded above the value. -/
theorem nearest_le_of_lt_middle (hden : 0 < den)
    (h : 2 * num < (F.units k + F.units (k + 1)) * den) : F.nearest num den ≤ k := by
  have hnext : F.units k * den < F.units (k + 1) * den :=
    Nat.mul_lt_mul_of_pos_right (F.units_strictMono k.lt_succ_self) hden
  rw [Nat.add_mul] at h
  have hlow : F.ordinalBelow (num / den) < k + 1 := by
    apply F.units_lt_iff.mp
    apply (F.units_ordinalBelow_le _).trans_lt
    rw [Nat.div_lt_iff_lt_mul hden]
    omega
  simp only [nearest, nearestBy]
  rcases (Nat.lt_succ_iff.mp hlow).lt_or_eq with hlt | heq
  · split
    · exact hlt.le
    · exact hlt
    · split
      · exact hlt.le
      · exact hlt
  · rw [heq, Nat.compare_eq_lt.mpr (by rw [Nat.add_mul]; exact h)]

/-- A quotient that does not pass a value is not rounded above it. -/
theorem nearest_le (hden : 0 < den) (h : num ≤ F.units k * den) : F.nearest num den ≤ k := by
  apply nearest_le_of_lt_middle hden
  have hnext : F.units k * den < F.units (k + 1) * den :=
    Nat.mul_lt_mul_of_pos_right (F.units_strictMono k.lt_succ_self) hden
  rw [Nat.add_mul]
  omega

/-- A quotient that is a value is rounded to it. -/
theorem nearest_eq (hden : 0 < den) (h : num = F.units k * den) : F.nearest num den = k :=
  Nat.le_antisymm (nearest_le hden h.le) (le_nearest hden h.ge)

theorem nearest_zero (hden : 0 < den) : F.nearest 0 den = 0 :=
  nearest_eq hden (by rw [F.units_zero, Nat.zero_mul])

/-! ### A wider format -/

theorem exists_units_eq {amount : Nat} (h : 2 ^ (amount.log2 - F.fractionBits) ∣ amount) :
    ∃ j, F.units j = amount :=
  ⟨F.ordinalBelow amount, by rw [(F.units_ordinalBelow amount).1, Nat.div_mul_cancel h]⟩

/-- A number that has no more bits than a significand is on the grid at every scale. -/
theorem exists_units_mul_pow {n : Nat} (hn : n < 2 * 2 ^ F.fractionBits) (e : Nat) :
    ∃ j, F.units j = n * 2 ^ e := by
  apply exists_units_eq
  by_cases hzero : n = 0
  · rw [hzero, Nat.zero_mul]
    exact Nat.dvd_zero _
  · have hlog : (n * 2 ^ e).log2 < F.fractionBits + 1 + e := by
      rw [Nat.log2_lt (Nat.mul_ne_zero hzero (Nat.two_pow_pos _).ne'), pow_add 2 (_ + 1)]
      apply Nat.mul_lt_mul_of_pos_right _ (Nat.two_pow_pos _)
      rwa [pow_succ']
    exact (pow_dvd_pow 2 (by omega)).mul_left n

/-- A value stays on the grid of a format with more fraction bits, in finer units. -/
theorem exists_units_finer {G : Format} (hbits : F.fractionBits ≤ G.fractionBits) (k finer : Nat) :
    ∃ j, G.units j = F.units k * 2 ^ finer := by
  obtain ⟨steps, hsteps, hunits, -⟩ := F.units_eq_steps k
  rw [hunits, Nat.mul_assoc, ← pow_add]
  apply exists_units_mul_pow
  exact hsteps.trans_le (Nat.mul_le_mul_left 2 (Nat.pow_le_pow_right Nat.two_pos hbits))

end KnowledgeSearch.Format

namespace KnowledgeSearch.Binary

open Format (binary32 binary64)

/-- A finite single precision number in double precision: the same value on a finer grid. -/
theorem toDouble_signed (negative : Bool) {k : Fin (binary32.infinity + 1)}
    (hk : k ≠ binary32.infinity) :
    ∃ j : Fin (binary64.infinity + 1), j ≠ binary64.infinity ∧
      toDouble (.signed negative k) = .signed negative j ∧
      binary64.units j = binary32.units k * 2 ^ (binary64.scale - binary32.scale) := by
  obtain ⟨j, hj⟩ := Format.exists_units_finer (F := binary32) (G := binary64) (by decide) k
    (binary64.scale - binary32.scale)
  have hfinite : j < binary64.infinity := by
    rw [← Format.units_lt_iff, hj]
    have hlt : k.val < binary32.infinity := by omega
    calc binary32.units k * 2 ^ (binary64.scale - binary32.scale)
        < binary32.units binary32.infinity * 2 ^ (binary64.scale - binary32.scale) :=
          Nat.mul_lt_mul_of_pos_right (binary32.units_strictMono hlt) (Nat.two_pow_pos _)
      _ < binary64.units binary64.infinity := by decide +kernel
  have hround : binary64.nearest (binary32.units k <<< binary64.scale)
      (2 ^ binary32.scale) = j := by
    apply Format.nearest_eq (Nat.two_pow_pos _)
    have hscale : binary64.scale - binary32.scale + binary32.scale = binary64.scale := by decide
    rw [hj, Nat.shiftLeft_eq, Nat.mul_assoc, ← pow_add, hscale]
  refine ⟨⟨j, by omega⟩, hfinite.ne, ?_, hj⟩
  simp only [toDouble, convert, if_neg hk, round, Nat.pow_eq, hround, ofOrdinal,
    Nat.min_eq_left hfinite.le]

theorem isFinite_toDouble {x : Single} (hx : x.isFinite = true) : x.toDouble.isFinite = true := by
  cases x with
  | nan => cases hx
  | signed negative k =>
    obtain ⟨j, hj, hdouble, -⟩ := toDouble_signed negative (bne_iff_ne.mp hx)
    rw [hdouble]
    exact bne_iff_ne.mpr hj

/-- Finite numbers stay apart in double precision. -/
theorem toDouble_inj {x y : Single} (hx : x.isFinite = true) (hy : y.isFinite = true)
    (h : x.toDouble = y.toDouble) : x = y := by
  cases x with
  | nan => cases hx
  | signed negative k =>
    cases y with
    | nan => cases hy
    | signed negative' k' =>
      obtain ⟨j, -, hj, hunits⟩ := toDouble_signed negative (bne_iff_ne.mp hx)
      obtain ⟨j', -, hj', hunits'⟩ := toDouble_signed negative' (bne_iff_ne.mp hy)
      rw [hj, hj'] at h
      cases h
      rw [hunits] at hunits'
      have hval := Nat.eq_of_mul_eq_mul_right (Nat.two_pow_pos _) hunits'
      rw [Fin.ext (binary32.units_strictMono.injective hval)]

/-! ### One -/

/-- The ordinal of 1. -/
def oneOrdinal : Nat := 127 * 2 ^ 23

end KnowledgeSearch.Binary
