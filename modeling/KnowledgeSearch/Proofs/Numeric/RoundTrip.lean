/-
  KnowledgeSearch/Proofs/Numeric/RoundTrip.lean
  =============================================
  **Short decimals survive double precision.**

  What rounds to a double lies between the middles to the doubles beside it, and the distance of
  those two is a small part of the double.  So of all decimals with one exponent at most one lies
  there, if it has few digits (`Format.shortest_eq`); a decimal on a coarser grid would be one of
  them as well.  The search for the fewest digits therefore ends with the decimal that was read,
  its trailing zeros left out: fifteen digits survive as long as the number has a full
  significand (`Decimal.shortest_ordinal`).
-/
import KnowledgeSearch.Proofs.Numeric.Nearest
import KnowledgeSearch.Proofs.Numeric.Shortest

namespace KnowledgeSearch

open Format (binary64)

namespace Decimal

/-! ### Decimals without trailing zeros -/

section Trimmed

variable {a b d : Decimal}

/-- The decimal without its trailing zeros. -/
def significant (d : Decimal) : Decimal := d.trimZeros (d.digits.log2 + 1)

/-- Whether no trailing zero is left. -/
def IsTrimmed (d : Decimal) : Prop := d.digits % 10 ≠ 0

theorem IsTrimmed.digits_ne_zero (h : d.IsTrimmed) : d.digits ≠ 0 := by
  intro hzero
  rw [IsTrimmed, hzero] at h
  exact h rfl

/-- A decimal on a finer grid. -/
theorem toRat_eq_mul_zpow {exponent : Int} (h : exponent ≤ d.exponent) :
    d.toRat = (d.digits * 10 ^ (d.exponent - exponent).toNat : Nat) * 10 ^ exponent := by
  have hsplit : d.exponent = (d.exponent - exponent).toNat + exponent := by omega
  have hpower : (10 : ℚ) ^ d.exponent = 10 ^ (d.exponent - exponent).toNat * 10 ^ exponent := by
    conv_lhs => rw [hsplit]
    rw [zpow_add₀ (by norm_num), zpow_natCast]
  rw [toRat, hpower]
  push_cast
  ring

/-- The same number on a coarser grid has fewer digits, by a power of ten. -/
theorem digits_eq_mul_pow (h : a.toRat = b.toRat) (hle : a.exponent ≤ b.exponent) :
    a.digits = b.digits * 10 ^ (b.exponent - a.exponent).toNat := by
  have hscale : (10 : ℚ) ^ a.exponent ≠ 0 := zpow_ne_zero _ (by norm_num)
  rw [toRat_eq_mul_zpow hle, toRat] at h
  exact_mod_cast mul_right_cancel₀ hscale h

/-- Without trailing zeros there is one way to write a number. -/
theorem IsTrimmed.eq (ha : a.IsTrimmed) (hb : b.IsTrimmed) (h : a.toRat = b.toRat) : a = b := by
  wlog hle : a.exponent ≤ b.exponent generalizing a b
  · exact (this hb ha h.symm (le_of_not_ge hle)).symm
  have hdigits := digits_eq_mul_pow h hle
  cases hdistance : (b.exponent - a.exponent).toNat with
  | zero =>
    rw [hdistance, pow_zero, Nat.mul_one] at hdigits
    cases a
    cases b
    rw [Decimal.mk.injEq]
    dsimp only at hdigits hdistance hle
    exact ⟨hdigits, by omega⟩
  | succ n =>
    rw [hdistance, pow_succ, ← Nat.mul_assoc] at hdigits
    rw [IsTrimmed, hdigits, Nat.mul_mod_left] at ha
    exact absurd rfl ha

/-- On one grid numbers are the same or at least a step apart. -/
theorem toRat_eq_of_near (hle : b.exponent ≤ a.exponent)
    (h : |a.toRat - b.toRat| < 10 ^ b.exponent) : a.toRat = b.toRat := by
  have hstep : (0 : ℚ) < 10 ^ b.exponent := by positivity
  rw [toRat_eq_mul_zpow hle, b.toRat_eq_mul_zpow le_rfl, ← sub_mul, abs_mul, abs_of_pos hstep,
    mul_lt_iff_lt_one_left hstep] at h
  rw [toRat_eq_mul_zpow hle, b.toRat_eq_mul_zpow le_rfl]
  congr 1
  generalize a.digits * 10 ^ (a.exponent - b.exponent).toNat = m at *
  generalize b.digits * 10 ^ (b.exponent - b.exponent).toNat = n at *
  have hint : |(m : Int) - n| < 1 := mod_cast h
  have hzero := Int.abs_lt_one_iff.mp hint
  have heq : m = n := by omega
  rw [heq]

theorem isTrimmed_trimZeros {steps : Nat} (hd : d.digits ≠ 0) (h : d.digits < 2 ^ steps) :
    (d.trimZeros steps).IsTrimmed := by
  induction steps generalizing d with
  | zero => omega
  | succ steps ih =>
    rw [trimZeros]
    split
    · apply ih
      · dsimp only
        omega
      · dsimp only
        omega
    · rename_i hzero
      intro hmod
      exact hzero ⟨hd, hmod⟩

theorem isTrimmed_significant (hd : d.digits ≠ 0) : d.significant.IsTrimmed :=
  isTrimmed_trimZeros hd Nat.lt_log2_self

theorem toRat_significant (d : Decimal) : d.significant.toRat = d.toRat := by
  have hhalves := (d.trimZeros_spec (d.digits.log2 + 1)).1
  exact mul_right_cancel₀ (by positivity) hhalves

theorem exponent_le_significant (d : Decimal) : d.exponent ≤ d.significant.exponent :=
  (d.trimZeros_spec _).2.1

theorem significant_eq (h : d.IsTrimmed) : d.significant = d :=
  (isTrimmed_significant h.digits_ne_zero).eq h d.toRat_significant

/-- Fewer digits are left, if any are left out. -/
theorem digits_significant_le (d : Decimal) : d.significant.digits ≤ d.digits := by
  rw [digits_eq_mul_pow d.toRat_significant.symm d.exponent_le_significant]
  exact Nat.le_mul_of_pos_right _ (Nat.pow_pos (by decide))

/-- Nothing is left behind the point of a whole number. -/
theorem exponent_significant_nonneg_iff (hd : d.digits ≠ 0) (hexponent : d.exponent ≤ 0) :
    0 ≤ d.significant.exponent ↔ 10 ^ (-d.exponent).toNat ∣ d.digits := by
  constructor
  · intro h
    rw [digits_eq_mul_pow d.toRat_significant.symm d.exponent_le_significant]
    exact (pow_dvd_pow 10 (by omega)).mul_left _
  · rintro ⟨n, hn⟩
    let whole : Decimal := ⟨n, 0⟩
    have hwhole : whole.digits ≠ 0 := by
      intro hzero
      have hnothing : n = 0 := hzero
      rw [hn, hnothing] at hd
      exact hd rfl
    have hsame : d.toRat = whole.toRat := by
      rw [whole.toRat_eq_mul_zpow hexponent, toRat, hn]
      simp [whole, Nat.mul_comm]
    have htrimmed : d.significant = whole.significant := by
      apply (isTrimmed_significant hd).eq (isTrimmed_significant hwhole)
      rw [toRat_significant, toRat_significant, hsame]
    rw [htrimmed]
    exact whole.exponent_le_significant

end Trimmed

/-! ### Grid points between two middles -/

/-- Between two bounds, which belong to what lies between them if it is closed. -/
def Between (low high : ℚ) (closed : Bool) (x : ℚ) : Prop :=
  if closed then low ≤ x ∧ x ≤ high else low < x ∧ x < high

theorem Between.bounds {low high x : ℚ} {closed : Bool} (h : Between low high closed x) :
    low ≤ x ∧ x ≤ high := by
  cases closed with
  | true => exact h
  | false => exact ⟨h.1.le, h.2.le⟩

section Search

variable {low value high scale : Nat} {closed : Bool} {exponent : Int}

/-- The bounds of a search, as bounds of the number that a grid point stands for. -/
theorem inside_iff (low high scale : Nat) (closed : Bool) (d : Decimal) :
    Inside low high (10 ^ d.exponent.toNat * 2 ^ scale) (10 ^ (-d.exponent).toNat) closed
      d.digits ↔ Between low high closed (d.toRat * 2 ^ (scale + 1)) := by
  have hpoint : d.toRat * 2 ^ (scale + 1) = d.digits * (10 ^ d.exponent * 2 ^ (scale + 1)) := by
    rw [toRat, mul_assoc]
  rw [hpoint]
  unfold Inside Between
  cases closed with
  | true => exact and_congr (le_grid_iff ..) (grid_le_iff ..)
  | false => exact and_congr (lt_grid_iff ..) (grid_lt_iff ..)

/-- Points above one that is inside are inside as long as they keep below the upper bound. -/
theorem Inside.up {unit part n m : Nat} (h : Inside low high unit part closed n) (hle : n ≤ m)
    (hm : 2 * m * unit < high * part) : Inside low high unit part closed m := by
  have hpoint : 2 * n * unit ≤ 2 * m * unit := by gcongr
  cases closed with
  | true => exact ⟨h.1.trans hpoint, hm.le⟩
  | false => exact ⟨h.1.trans_le hpoint, hm⟩

theorem Inside.down {unit part n m : Nat} (h : Inside low high unit part closed n) (hle : m ≤ n)
    (hm : low * part < 2 * m * unit) : Inside low high unit part closed m := by
  have hpoint : 2 * m * unit ≤ 2 * n * unit := by gcongr
  cases closed with
  | true => exact ⟨hm.le, hpoint.trans h.2⟩
  | false => exact ⟨hm, hpoint.trans_lt h.2⟩

/-- A grid that has a point between the bounds offers one: the point next to the value on the
    same side is between them as well. -/
theorem isSome_candidate?_of_inside (tie : TieRule) (hscale : 0 < scale) (hlow : low < 2 * value)
    (hhigh : 2 * value < high) {n : Nat} (hn : n ≠ 0)
    (h : Inside low high (10 ^ exponent.toNat * scale) (10 ^ (-exponent).toNat) closed n) :
    (candidate? tie low value high scale closed exponent).isSome = true := by
  have hunit : 0 < 10 ^ exponent.toNat * scale := by positivity
  have hpart : 0 < 10 ^ (-exponent).toNat := by positivity
  have hlowPart := Nat.mul_lt_mul_of_pos_right hlow hpart
  have hhighPart := Nat.mul_lt_mul_of_pos_right hhigh hpart
  rw [isSome_candidate?_iff]
  dsimp only
  generalize 10 ^ exponent.toNat * scale = unit at *
  generalize 10 ^ (-exponent).toNat = part at *
  have hbelow := Nat.div_mul_le_self (value * part) unit
  have habove := Nat.lt_div_mul_add (a := value * part) hunit
  generalize value * part / unit = below at *
  rw [Nat.mul_assoc] at hlowPart hhighPart
  rcases Nat.lt_or_ge below n with hlt | hge
  · right
    apply h.down hlt
    rw [Nat.mul_assoc, Nat.add_one_mul below]
    omega
  · left
    refine ⟨by omega, h.up hge ?_⟩
    rw [Nat.mul_assoc]
    omega

end Search

end Decimal

/-! ### Where the search begins -/

/-- The logarithms of ten and two, compared: `93 / 28` and `196 / 59` are on the two sides of
    their quotient. -/
theorem lt_of_zpow_ten_lt {g m : Int} (h : (10 : ℚ) ^ g < 2 ^ m) :
    (0 ≤ g → 93 * g < 28 * m) ∧ (g ≤ 0 → 196 * g < 59 * m) := by
  have htwo : (1 : ℚ) < 2 := by norm_num
  have hpower (n : Nat) (hn : n ≠ 0) : (10 : ℚ) ^ (n * g) < 2 ^ (n * m) := by
    rw [mul_comm, mul_comm (n : Int) m, zpow_mul, zpow_mul, zpow_natCast, zpow_natCast]
    exact pow_lt_pow_left₀ h (by positivity) hn
  constructor
  · intro hg
    have hstep : (2 : ℚ) ^ (93 * g) ≤ 10 ^ (28 * g) := by
      rw [zpow_mul, zpow_mul]
      exact zpow_le_zpow_left₀ hg (by positivity) (by norm_num)
    exact (zpow_lt_zpow_iff_right₀ htwo).mp (hstep.trans_lt (hpower 28 (by decide)))
  · intro hg
    have hstep : (2 : ℚ) ^ (196 * g) ≤ 10 ^ (59 * g) := by
      obtain ⟨n, hn⟩ := Int.eq_ofNat_of_zero_le (Int.neg_nonneg_of_nonpos hg)
      obtain rfl : g = -n := by omega
      rw [zpow_mul, zpow_mul, zpow_neg, zpow_neg, zpow_natCast, zpow_natCast]
      gcongr
      norm_num
    exact (zpow_lt_zpow_iff_right₀ htwo).mp (hstep.trans_lt (hpower 59 (by decide)))

/-- The grid that the search begins with is not finer than one that has a point up to twice the
    value. -/
theorem le_searchStart {value scale : Nat} {g : Int} (hleast : -2000 ≤ g) (hmost : g ≤ 2000)
    (h : (10 : ℚ) ^ g * 2 ^ scale ≤ 2 * value) :
    g ≤ Int.fdiv (((value.log2 : Int) - scale + 1) * 30103) 100000 + 1 := by
  have hscale : (0 : ℚ) < 2 ^ scale := by positivity
  have hlog : (value : ℚ) < 2 ^ (value.log2 + 1) := mod_cast Nat.lt_log2_self
  have hpower : (10 : ℚ) ^ g < 2 ^ ((value.log2 : Int) + 2 - scale) := by
    rw [zpow_sub₀ (by norm_num), lt_div_iff₀ (by positivity), zpow_natCast]
    have hsplit : (2 : ℚ) ^ ((value.log2 : Int) + 2) = 2 * 2 ^ (value.log2 + 1) := by
      rw [← zpow_natCast, ← zpow_one_add₀ (by norm_num)]
      congr 1
      push_cast
      ring
    rw [hsplit]
    linarith
  obtain ⟨hup, hdown⟩ := lt_of_zpow_ten_lt hpower
  rw [Int.fdiv_eq_ediv_of_nonneg _ (by norm_num)]
  omega

namespace Format

variable {F : Format} {k : Nat} {d : Decimal}

/-- **At most one short decimal rounds to a value.**  A decimal without trailing zeros that lies
    between the middles beside a value is what the value is printed as, if the middles are
    nearer to each other than two points of its grid. -/
theorem shortest_eq (tie : TieRule) (hk : 0 < k) (hd : d.IsTrimmed)
    (hbetween : Decimal.Between (F.units (k - 1) + F.units k : Nat)
      (F.units k + F.units (k + 1) : Nat) (k % 2 = 0) (d.toRat * 2 ^ (F.scale + 1)))
    (hwidth : (F.units (k + 1) : ℚ) < F.units (k - 1) + 10 ^ d.exponent * 2 ^ (F.scale + 1))
    (hleast : -(F.scale : Int) < d.exponent)
    (hstart : d.exponent ≤
      Int.fdiv ((((F.units k).log2 : Int) - F.scale + 1) * 30103) 100000 + 1) :
    F.shortest tie k = d := by
  have hpred : F.units (k - 1) < F.units k := F.units_lt_iff.mpr (Nat.sub_one_lt_of_lt hk)
  have hnext : F.units k < F.units (k + 1) := F.units_lt_iff.mpr k.lt_succ_self
  have hlowest : F.units (k - 1) + F.units k < 2 * F.units k := by omega
  have hhighest : 2 * F.units k < F.units k + F.units (k + 1) := by omega
  have hoffers := Decimal.isSome_candidate?_of_inside tie (Nat.two_pow_pos F.scale) hlowest
    hhighest hd.digits_ne_zero ((Decimal.inside_iff _ _ _ _ d).mpr hbetween)
  obtain ⟨exponent, hexponent, hfound⟩ := Decimal.search_finds hoffers
    (Int.fdiv ((((F.units k).log2 : Int) - F.scale + 1) * 30103) 100000 + 1 + F.scale).toNat
    hstart (by omega)
  have hshortest : F.shortest tie k = (Decimal.search tie (F.units (k - 1) + F.units k)
      (F.units k) (F.units k + F.units (k + 1)) (2 ^ F.scale) (k % 2 = 0)
      (Int.fdiv ((((F.units k).log2 : Int) - F.scale + 1) * 30103) 100000 + 1 + F.scale).toNat
      (Int.fdiv ((((F.units k).log2 : Int) - F.scale + 1) * 30103) 100000 + 1)).significant := rfl
  rw [hshortest]
  generalize Decimal.search _ _ _ _ _ _ _ _ = found at *
  obtain ⟨rfl, hinside, -⟩ := Decimal.candidate?_eq_some hfound
  obtain ⟨hlow, hhigh⟩ := ((Decimal.inside_iff _ _ _ _ found).mp hinside).bounds
  obtain ⟨hlow', hhigh'⟩ := hbetween.bounds
  have hvalue : found.toRat = d.toRat := by
    apply Decimal.toRat_eq_of_near hexponent
    have hscale : (0 : ℚ) < 2 ^ (F.scale + 1) := by positivity
    rw [← mul_lt_mul_iff_left₀ hscale, ← abs_of_pos hscale, ← abs_mul, abs_of_pos hscale, sub_mul,
      abs_lt]
    push_cast at hlow hhigh hlow' hhigh'
    constructor <;> linarith
  have hfoundDigits : found.digits ≠ 0 := by
    intro hzero
    have hnothing : d.toRat = 0 := by
      rw [← hvalue, Decimal.toRat, hzero, Nat.cast_zero, zero_mul]
    have hten : (10 : ℚ) ^ d.exponent ≠ 0 := zpow_ne_zero _ (by norm_num)
    have hdigits := (mul_eq_zero.mp hnothing).resolve_right hten
    exact hd.digits_ne_zero (mod_cast hdigits)
  exact (Decimal.isTrimmed_significant hfoundDigits).eq hd (found.toRat_significant.trans hvalue)

/-- What is rounded to a value lies between the middles beside it. -/
theorem between_nearest {num den : Nat} {r : ℚ} (hden : 0 < den)
    (hnum : (num : ℚ) = r * 2 ^ F.scale * den) (hk : F.nearest num den = k) (hpos : 0 < k) :
    Decimal.Between (F.units (k - 1) + F.units k : Nat) (F.units k + F.units (k + 1) : Nat)
      (k % 2 = 0) (r * 2 ^ (F.scale + 1)) := by
  have hscale : (0 : ℚ) < 2 ^ (F.scale + 1) := by positivity
  have hpred : k - 1 + 1 = k := Nat.sub_add_cancel hpos
  have habove : F.Below r k := (nearest_le_iff hden hnum).mp hk.le
  have hbelow : ¬ F.Below r (k - 1) := by
    rw [← nearest_le_iff hden hnum, hk]
    omega
  simp only [Below, middle, hpred, lt_div_iff₀ hscale, eq_div_iff hscale.ne', not_or, not_lt,
    not_and] at habove hbelow
  obtain ⟨hleast, hodd⟩ := hbelow
  unfold Decimal.Between
  split
  · refine ⟨hleast, ?_⟩
    rcases habove with hlt | ⟨heq, -⟩
    · exact hlt.le
    · exact heq.le
  · rename_i hparity
    rw [decide_eq_true_eq] at hparity
    constructor
    · refine lt_of_le_of_ne hleast fun heq => hodd heq.symm ?_
      omega
    · exact habove.resolve_right fun h => hparity h.2

end Format

/-- Infinity continues the grid with a power of two. -/
theorem Format.units_infinity {F : Format} (hbits : 1 < F.exponentBits) :
    F.units F.infinity = 2 ^ 2 ^ (F.exponentBits - 1) * 2 ^ F.scale := by
  have hexponents : 2 ^ F.exponentBits = 2 * 2 ^ (F.exponentBits - 1) := by
    rw [← pow_succ', Nat.sub_add_cancel hbits.le]
  have hpos : 2 ^ 1 ≤ 2 ^ (F.exponentBits - 1) :=
    Nat.pow_le_pow_right Nat.two_pos (Nat.le_sub_one_of_lt hbits)
  have hordinal : F.infinity =
      (2 * 2 ^ (F.exponentBits - 1) - 2) * 2 ^ F.fractionBits + 2 ^ F.fractionBits := by
    rw [infinity, Nat.pow_eq, Nat.pow_eq, hexponents, ← Nat.succ_mul]
    congr 1
    omega
  rw [hordinal, F.units_steps (by omega) (.inr le_rfl), ← pow_add, ← pow_add, scale, Nat.pow_eq]
  congr 1
  omega

namespace Decimal

variable {F : Format} {d : Decimal} {k : Nat}

/-! ### The ordinal of a decimal -/

/-- The ordinal that a decimal is rounded to. -/
def ordinal (F : Format) (d : Decimal) : Nat :=
  F.nearest (d.digits * 10 ^ d.exponent.toNat * 2 ^ F.scale) (10 ^ (-d.exponent).toNat)

theorem ordinal_of_zero (h : d.digits = 0) : d.ordinal F = 0 := by
  rw [ordinal, h, Nat.zero_mul, Nat.zero_mul]
  exact Format.nearest_zero (Nat.pow_pos (by decide))

/-- What is rounded stands for the decimal. -/
theorem toRat_mul_den (F : Format) (d : Decimal) :
    ((d.digits * 10 ^ d.exponent.toNat * 2 ^ F.scale : Nat) : ℚ) =
      d.toRat * 2 ^ F.scale * (10 ^ (-d.exponent).toNat : Nat) := by
  rw [toRat]
  push_cast
  linear_combination (-d.digits * 2 ^ F.scale : ℚ) * zpow_mul_pow_toNat d.exponent

theorem le_ordinal (h : (F.units k : ℚ) ≤ d.toRat * 2 ^ F.scale) : k ≤ d.ordinal F := by
  apply Format.le_nearest (Nat.pow_pos (by decide))
  have hscaled := mul_le_mul_of_nonneg_right h
    (Nat.cast_nonneg (α := ℚ) (10 ^ (-d.exponent).toNat))
  rw [← toRat_mul_den] at hscaled
  exact_mod_cast hscaled

theorem ordinal_le (h : d.toRat * 2 ^ F.scale ≤ F.units k) : d.ordinal F ≤ k := by
  apply Format.nearest_le (Nat.pow_pos (by decide))
  have hscaled := mul_le_mul_of_nonneg_right h
    (Nat.cast_nonneg (α := ℚ) (10 ^ (-d.exponent).toNat))
  rw [← toRat_mul_den] at hscaled
  exact_mod_cast hscaled

/-- Whether a decimal is in the range where the numbers of a format have a full significand. -/
structure IsNormal (F : Format) (d : Decimal) : Prop where
  least : (2 : ℚ) ^ F.fractionBits ≤ d.toRat * 2 ^ F.scale
  most : d.toRat * 2 ^ F.scale < F.units F.infinity

namespace IsNormal

variable (h : d.IsNormal F)

include h

theorem toRat_pos : 0 < d.toRat := by
  have hpos : (0 : ℚ) < 2 ^ F.fractionBits := by positivity
  exact pos_of_mul_pos_left (hpos.trans_le h.least) (by positivity)

theorem digits_ne_zero : d.digits ≠ 0 := by
  intro hzero
  have hpos := h.toRat_pos
  rw [toRat, hzero, Nat.cast_zero, zero_mul] at hpos
  exact absurd hpos (lt_irrefl 0)

theorem le_ordinal : 2 ^ F.fractionBits ≤ d.ordinal F := by
  apply Decimal.le_ordinal
  rw [F.units_normal]
  exact_mod_cast h.least

/-- A number that is not too large is above some power of ten. -/
theorem zpow_neg_le : (10 : ℚ) ^ (-F.scale : Int) ≤ d.toRat := by
  have hscale : (0 : ℚ) < 2 ^ F.scale := by positivity
  have hone : (1 : ℚ) ≤ d.toRat * 2 ^ F.scale := (one_le_pow₀ (by norm_num)).trans h.least
  rw [zpow_neg, zpow_natCast]
  calc ((10 : ℚ) ^ F.scale)⁻¹ ≤ (2 ^ F.scale)⁻¹ := by gcongr; norm_num
    _ ≤ d.toRat := by rwa [inv_le_iff_one_le_mul₀ hscale]

theorem lt_zpow (hbits : 1 < F.exponentBits) :
    d.toRat < (10 : ℚ) ^ ((2 ^ (F.exponentBits - 1) : Nat) : Int) := by
  have hscale : (0 : ℚ) < 2 ^ F.scale := by positivity
  have hmost := h.most
  rw [Format.units_infinity hbits, Nat.cast_mul, Nat.cast_pow 2 F.scale, Nat.cast_ofNat,
    mul_lt_mul_iff_left₀ hscale] at hmost
  rw [zpow_natCast]
  refine hmost.trans_le ?_
  push_cast
  gcongr
  norm_num

end IsNormal

end Decimal

namespace Binary

variable {F : Format} {d : Decimal}

/-- A decimal in this range is rounded, without a shortcut. -/
theorem ofDecimal_eq_ofOrdinal (h : d.IsNormal F) (hbits : 1 < F.exponentBits) (negative : Bool) :
    (ofDecimal negative d.digits d.exponent : Binary F) = ofOrdinal negative (d.ordinal F) := by
  have hten : (1 : ℚ) < 10 := by norm_num
  obtain ⟨hfirst, hbeyond⟩ := zpow_le_toRat_lt h.digits_ne_zero
  have hsmall := h.zpow_neg_le.trans_lt hbeyond
  have hlarge := hfirst.trans_lt (h.lt_zpow hbits)
  rw [zpow_lt_zpow_iff_right₀ hten] at hsmall hlarge
  rw [ofDecimal, if_neg h.digits_ne_zero, Nat.pow_eq, if_neg (by omega), if_neg (by omega), round,
    Nat.shiftLeft_eq]
  rfl

end Binary

/-! ### Short decimals -/

namespace Format

variable {F : Format} {d : Decimal}

/-- Two middles with a value between them are nearer to each other than two decimals that have
    fewer digits than a significand. -/
theorem units_succ_lt_of_short {k : Nat} (hk : 2 ^ F.fractionBits ≤ k)
    (hdigits : d.digits < 2 ^ F.fractionBits)
    (hlow : (F.units (k - 1) + F.units k : Nat) ≤ d.toRat * 2 ^ (F.scale + 1)) :
    (F.units (k + 1) : ℚ) < F.units (k - 1) + 10 ^ d.exponent * 2 ^ (F.scale + 1) := by
  have hpred : k - 1 + 1 = k := Nat.sub_add_cancel ((Nat.two_pow_pos _).trans_le hk)
  have hbelow := F.units_succ (k - 1)
  have habove := F.units_succ k
  have hnormal := units_succ_le_of_normal hk
  have hshift : 2 ^ F.stepShift (k - 1) ≤ 2 ^ F.stepShift k :=
    Nat.pow_le_pow_right Nat.two_pos (F.stepShift_mono (Nat.sub_le k 1))
  have hstep : 0 < 2 ^ F.stepShift k := Nat.two_pow_pos _
  have hstepBelow : 0 < 2 ^ F.stepShift (k - 1) := Nat.two_pow_pos _
  rw [hpred] at hbelow
  rw [habove, Nat.mul_add, Nat.add_mul] at hnormal
  generalize 2 ^ F.stepShift k = step at *
  generalize 2 ^ F.stepShift (k - 1) = stepBelow at *
  have hgrid : (d.toRat * 2 ^ (F.scale + 1) : ℚ) =
      d.digits * (10 ^ d.exponent * 2 ^ (F.scale + 1)) := by
    rw [Decimal.toRat]
    ring
  rw [hgrid] at hlow
  have hpos : (0 : ℚ) < 10 ^ d.exponent * 2 ^ (F.scale + 1) := by positivity
  generalize (10 : ℚ) ^ d.exponent * 2 ^ (F.scale + 1) = grid at *
  by_contra hnot
  -- as many points as there are digits would not reach the value
  have hwide : grid ≤ 2 * step := by
    have hsum : (F.units (k + 1) : ℚ) ≤ F.units (k - 1) + 2 * step := by
      exact_mod_cast (by omega : F.units (k + 1) ≤ F.units (k - 1) + 2 * step)
    linarith
  have hreach : (d.digits * grid : ℚ) ≤ ((2 ^ F.fractionBits - 1 : Nat) : ℚ) * (2 * step) := by
    gcongr
    omega
  have hvalue : F.units (k - 1) + F.units k ≤ (2 ^ F.fractionBits - 1) * (2 * step) :=
    mod_cast hlow.trans hreach
  rw [Nat.sub_mul, Nat.one_mul] at hvalue
  have hdouble : 2 ^ F.fractionBits * (2 * step) = 2 * (2 ^ F.fractionBits * step) := by ring
  omega

/-- What is not beyond the middle behind a value with a full significand is at most twice the
    value. -/
theorem le_double {k : Nat} {r : ℚ} (hk : 2 ^ F.fractionBits ≤ k)
    (hhigh : r * 2 ^ (F.scale + 1) ≤ (F.units k + F.units (k + 1) : Nat)) :
    r * 2 ^ F.scale ≤ 2 * F.units k := by
  have hnext := units_succ_le_of_normal hk
  have hdouble : F.units (k + 1) ≤ 2 * F.units k := by
    apply Nat.le_of_mul_le_mul_left _ (Nat.two_pow_pos F.fractionBits)
    refine hnext.trans ?_
    rw [← Nat.mul_assoc]
    have hpos : 0 < 2 ^ F.fractionBits := Nat.two_pow_pos _
    gcongr
    omega
  have hdoubleRat : (F.units (k + 1) : ℚ) ≤ 2 * F.units k := mod_cast hdouble
  have hvalue : (0 : ℚ) ≤ F.units k := by positivity
  rw [pow_succ] at hhigh
  push_cast at hhigh
  linarith

end Format

namespace Decimal

variable {d : Decimal}

/-- A normal decimal with few digits is not on a much finer grid than its format. -/
theorem IsNormal.neg_scale_lt {F : Format} (h : d.IsNormal F)
    (hdigits : d.digits < 2 ^ F.fractionBits) : -(F.scale : Int) < d.exponent := by
  have hleast := h.least
  have hdigitsRat : (d.digits : ℚ) < 2 ^ F.fractionBits := mod_cast hdigits
  have hgrid : (1 : ℚ) < 10 ^ d.exponent * 2 ^ F.scale := by
    rw [toRat, mul_assoc] at hleast
    by_contra hnot
    have hless : (d.digits : ℚ) * (10 ^ d.exponent * 2 ^ F.scale) ≤ d.digits * 1 := by
      gcongr
      exact not_lt.mp hnot
    linarith
  have hten : (1 : ℚ) < 10 := by norm_num
  rw [← zpow_lt_zpow_iff_right₀ hten, zpow_neg, zpow_natCast, inv_lt_iff_one_lt_mul₀ (by positivity)]
  refine hgrid.trans_le ?_
  gcongr
  norm_num

/-- **A decimal with few digits survives double precision.**  The double that it is rounded to
    has the same fewest digits. -/
theorem shortest_ordinal (tie : TieRule) (h : d.IsNormal binary64)
    (hdigits : d.digits < 2 ^ 52) :
    binary64.shortest tie (d.ordinal binary64) = d.significant := by
  have hbits : 1 < binary64.exponentBits := by decide
  have hk := h.le_ordinal
  have hpos : 0 < d.ordinal binary64 := (Nat.two_pow_pos _).trans_le hk
  have hbetween := Format.between_nearest (k := d.ordinal binary64) (Nat.pow_pos (by decide))
    (d.toRat_mul_den binary64) rfl hpos
  have hsignificant : d.significant.IsNormal binary64 := by
    constructor
    · rw [toRat_significant]
      exact h.least
    · rw [toRat_significant]
      exact h.most
  have hfew : d.significant.digits < 2 ^ binary64.fractionBits :=
    d.digits_significant_le.trans_lt hdigits
  rw [← toRat_significant] at hbetween
  obtain ⟨hlow, hhigh⟩ := hbetween.bounds
  have hwidth := Format.units_succ_lt_of_short hk hfew hlow
  have hfiner := hsignificant.neg_scale_lt hfew
  have hlarge := hsignificant.lt_zpow hbits
  apply Format.shortest_eq tie hpos (isTrimmed_significant h.digits_ne_zero) hbetween hwidth hfiner
  have hpoint : (10 : ℚ) ^ d.significant.exponent ≤ d.significant.toRat := by
    have hone : (1 : ℚ) ≤ d.significant.digits := mod_cast hsignificant.digits_ne_zero.bot_lt
    exact le_mul_of_one_le_left (by positivity) hone
  have hscale : binary64.scale = 1074 := by decide
  have hmost := (zpow_lt_zpow_iff_right₀ (by norm_num)).mp (hpoint.trans_lt hlarge)
  have hbias : ((2 ^ (binary64.exponentBits - 1) : Nat) : Int) = 1024 := by decide
  rw [hbias] at hmost
  rw [hscale] at hfiner
  apply le_searchStart (by omega) (by omega)
  exact (mul_le_mul_of_nonneg_right hpoint (by positivity)).trans (Format.le_double hk hhigh)

end Decimal

end KnowledgeSearch
