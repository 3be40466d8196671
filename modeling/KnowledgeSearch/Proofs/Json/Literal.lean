/-
  KnowledgeSearch/Proofs/Json/Literal.lean
  ========================================
  **How exactly a literal is read.**

  A literal is read as a double in one of three ways: as an integer, by dividing its digits by a
  power of ten, or by multiplying as many of its digits as fit a word by one (`Decimal.ReadsAs`).
  Every step rounds, and digits and powers of ten that are not too large are exact.  So what is
  read is near the decimal (`Decimal.ReadsAs.near`), and it is the decimal itself if this is the
  middle of two single precision numbers, since the digits of such a middle are few
  (`Decimal.ReadsAs.exact`).

  That is enough for the shortest digits of a number to be read back as the number
  (`Decimal.ReadsAs.toSingle_eq`).  What is read need not be the double nearest to the digits, and
  with that one the digits of a single number would be read back as its neighbour
  (`Decimal.toSingle_ofDecimal_eq_iff`).
-/
import KnowledgeSearch.Json.Literal
import KnowledgeSearch.Proofs.Numeric.Narrowing
import KnowledgeSearch.Proofs.Numeric.Rounded

namespace KnowledgeSearch

open Format (binary32 binary64)

namespace Binary

/-! ### Powers of ten -/

/-- A power of ten is the exact one, rounded. -/
theorem isRounded_powerOfTen {p : Nat} (hp : p ≤ 60) :
    (Number.powerOfTen p).IsRounded (10 ^ p) := by
  have hvalue : (⟨1, p⟩ : Decimal).toRat = 10 ^ p := by
    rw [Decimal.toRat, zpow_natCast, Nat.cast_one, one_mul]
  rw [← hvalue]
  apply isRounded_ofDecimal (d := ⟨1, p⟩) Nat.one_pos (by norm_num) (by dsimp only; omega)
  rw [hvalue]
  apply Format.covers_of_le
  · exact (by norm_num : (1 / 2 ^ 200 : ℚ) ≤ 1).trans (one_le_pow₀ (by norm_num))
  · exact (pow_le_pow_right₀ (by norm_num) hp).trans (by norm_num)

/-- Up to the twenty-second a power of ten is exact. -/
theorem toRat_powerOfTen {p : Nat} (hp : p ≤ 22) : (Number.powerOfTen p).toRat = 10 ^ p := by
  apply (isRounded_powerOfTen (by omega)).eq_of_lt (n := 5 ^ p) (e := p + 150)
  · exact (Nat.pow_le_pow_right (by norm_num) hp).trans_lt (by norm_num)
  · have hten : (10 : ℚ) = 5 * 2 := by norm_num
    rw [hten, mul_pow, pow_add]
    push_cast
    ring

end Binary

/-! ### Literals -/

namespace Decimal

/-- The ways in which a decimal is read: as an integer, by dividing its digits, and by multiplying
    as many of its digits as fit a word. -/
inductive ReadsAs (d : Decimal) : Double → Prop where
  | whole {i : Nat} (hexponent : d.exponent = i) (hword : d.digits * 10 ^ i < 2 ^ 64) :
      d.ReadsAs (.ofNat (d.digits * 10 ^ i))
  | divided {p : Nat} (hexponent : d.exponent = -p) :
      d.ReadsAs (.ofNat d.digits / Number.powerOfTen p)
  | scaled {i j : Nat} (hexponent : d.exponent = i + j) (hword : d.digits * 10 ^ i < 2 ^ 64)
      (hfull : j = 0 ∨ 2 ^ 64 ≤ d.digits * 10 ^ i * 10) (hlarge : 2 ^ 63 ≤ d.toRat) :
      d.ReadsAs (.ofNat (d.digits * 10 ^ i) * Number.powerOfTen j)

/-! ### Two roundings -/

/-- Two roundings move a number by little more than twice what one does. -/
theorem near_of_two {z q r : ℚ} (hz : 2 ^ 53 * |z - q| ≤ q)
    (hq : (2 ^ 53 - 1) * |q - r| ≤ r) : 2 ^ 56 * |z - r| ≤ 17 * r := by
  have htriangle := abs_sub_le z q r
  have habove := le_abs_self (q - r)
  have hnonneg := abs_nonneg (q - r)
  linarith

/-- A quotient by a rounded divisor. -/
theorem near_of_divisor {x a b : ℚ} (hx : 0 < x) (hb : 0 < b) (ha : 2 ^ 53 * |a - b| ≤ b) :
    (2 ^ 53 - 1) * |x / a - x / b| ≤ x / b := by
  have hbelow := neg_abs_le (a - b)
  have hapos : 0 < a := by linarith
  have hdiff : |x / a - x / b| * b = x / a * |a - b| := by
    rw [← abs_of_pos hb, ← abs_mul, ← abs_of_pos (div_pos hx hapos), ← abs_mul, abs_of_pos hb,
      abs_of_pos (div_pos hx hapos), sub_mul, mul_sub, div_mul_cancel₀ _ hb.ne',
      div_mul_cancel₀ _ hapos.ne', abs_sub_comm]
  have hmoved : 2 ^ 53 * |x / a - x / b| ≤ x / a := by
    apply le_of_mul_le_mul_right _ hb
    calc 2 ^ 53 * |x / a - x / b| * b = x / a * (2 ^ 53 * |a - b|) := by
          rw [mul_assoc, hdiff]
          ring
      _ ≤ x / a * b := mul_le_mul_of_nonneg_left ha (div_pos hx hapos).le
  have habove := le_abs_self (x / a - x / b)
  linarith

/-- A product with a rounded factor. -/
theorem near_of_factor {a b t : ℚ} (ht : 0 < t) (ha : 2 ^ 53 * |a - b| ≤ b) :
    (2 ^ 53 - 1) * |a * t - b * t| ≤ b * t := by
  have hscaled := mul_le_mul_of_nonneg_right ha ht.le
  have hnonneg := abs_nonneg (a * t - b * t)
  rw [mul_assoc, ← abs_of_pos ht, ← abs_mul, abs_of_pos ht, sub_mul] at hscaled
  linarith

/-! ### Printed numbers -/

variable {d : Decimal} {k : Nat} {y : Double}

namespace Prints

variable (hd : d.Prints k)

include hd

theorem toRat_pos : 0 < d.toRat := by
  have hdigits : (0 : ℚ) < d.digits := mod_cast Nat.pos_of_ne_zero hd.digits_ne_zero
  unfold toRat
  positivity

theorem toRat_le (hk : k < binary32.infinity) : d.toRat ≤ 2 ^ 129 := by
  have hmost : binary32.units k + binary32.units (k + 1) ≤ 2 ^ 129 * 2 ^ 150 := by
    have hinfinity : 2 * binary32.units binary32.infinity ≤ 2 ^ 129 * 2 ^ 150 := by decide +kernel
    have hbelow := binary32.units_le_iff.mpr hk.le
    have habove : binary32.units (k + 1) ≤ _ := binary32.units_le_iff.mpr (Nat.succ_le_of_lt hk)
    linarith
  have hhigh : d.toRat * 2 ^ 150 ≤ 2 ^ 129 * 2 ^ 150 := by
    calc d.toRat * 2 ^ 150 ≤ (binary32.units k + binary32.units (k + 1) : Nat) := by
          rw [Nat.cast_add]
          exact hd.le_high
      _ ≤ 2 ^ 129 * 2 ^ 150 := mod_cast hmost
  exact le_of_mul_le_mul_right hhigh (by positivity)

/-- The nearest double of a printed number is the number, rounded. -/
theorem isRounded_ofDecimal (hk : k < binary32.infinity) :
    (Binary.ofDecimal false d.digits d.exponent : Double).IsRounded d.toRat := by
  have hten : (1 : ℚ) < 10 := by norm_num
  have hmost := hd.toRat_le hk
  have hpower : (10 : ℚ) ^ d.exponent ≤ d.toRat := by
    have hdigits : (1 : ℚ) ≤ d.digits := mod_cast Nat.pos_of_ne_zero hd.digits_ne_zero
    exact le_mul_of_one_le_left (by positivity) hdigits
  have hleast : (10 : ℚ) ^ (-46 : Int) ≤ 10 ^ d.exponent :=
    zpow_le_zpow_right₀ hten.le hd.exponent_ge
  have hexponent : d.exponent < 60 := by
    apply (zpow_lt_zpow_iff_right₀ hten).mp
    calc (10 : ℚ) ^ d.exponent ≤ 2 ^ 129 := hpower.trans hmost
      _ < 10 ^ (60 : Int) := by norm_num
  apply Binary.isRounded_ofDecimal (Nat.pos_of_ne_zero hd.digits_ne_zero)
    (hd.digits_lt.trans (by norm_num)) ⟨by linarith [hd.exponent_ge], hexponent.le⟩
  apply Format.covers_of_le
  · calc (1 : ℚ) / 2 ^ 200 ≤ 10 ^ (-46 : Int) := by norm_num
      _ ≤ d.toRat := hleast.trans hpower
  · exact hmost.trans (by norm_num)

end Prints

/-! ### Values and middles -/

theorem toRat_of_divided {p : Nat} (h : d.exponent = -p) : d.toRat = d.digits / 10 ^ p := by
  rw [toRat, h, zpow_neg, zpow_natCast, div_eq_mul_inv]

theorem toRat_of_whole {i : Nat} (h : d.exponent = i) : d.toRat = (d.digits * 10 ^ i : Nat) := by
  rw [toRat, h, zpow_natCast]
  push_cast
  rfl

theorem toRat_of_scaled {i j : Nat} (h : d.exponent = i + j) :
    d.toRat = (d.digits * 10 ^ i : Nat) * 10 ^ j := by
  rw [toRat, h, ← Nat.cast_add, zpow_natCast, pow_add]
  push_cast
  ring

/-- The fives of a power of ten are not found among twos. -/
theorem five_pow_le {n p s : Nat} (hn : 0 < n) (h : 10 ^ p ∣ n * 2 ^ s) : 5 ^ p ≤ n := by
  apply Nat.le_of_dvd hn
  have hfives : 5 ^ p ∣ n * 2 ^ s := (pow_dvd_pow_of_dvd (by decide) p).trans h
  exact (Nat.Coprime.pow p s (by decide)).dvd_of_dvd_mul_right hfives

/-- A middle with few digits has few places behind the point. -/
theorem AtMiddle.places_le {i p : Nat} (h : d.AtMiddle i) (hpos : 0 < d.digits)
    (hdigits : d.digits < 2 ^ 53) (hexponent : d.exponent = -p) : p ≤ 22 := by
  obtain ⟨n, -, -, hvalue⟩ := h.exists_eq_mul_pow
  rw [toRat_of_divided hexponent, div_mul_eq_mul_div, div_eq_iff (by positivity)] at hvalue
  have hproduct : d.digits * 2 ^ 150 = n * 2 ^ binary32.stepShift i * 10 ^ p := mod_cast hvalue
  have hfives := five_pow_le hpos (Dvd.intro_left _ hproduct.symm)
  by_contra hmore
  have hpower := Nat.pow_le_pow_right (show 0 < 5 by decide) (not_le.mp hmore)
  exact absurd (hpower.trans hfives) (not_le.mpr (hdigits.trans (by norm_num)))

/-- A middle that is an integer has few zeros, and its half step is not larger than these say. -/
theorem AtMiddle.toRat_lt {i e : Nat} (h : d.AtMiddle i) (hi : i < binary32.infinity)
    (hexponent : d.exponent = e) : d.toRat < 2 ^ 63 := by
  have hgrid := le_zpow_of_coarse_le (Format.stepShift_lt hi) h.2
  obtain ⟨n, hpos, hn, hvalue⟩ := h.exists_eq_mul_pow
  generalize binary32.stepShift i = shift at *
  have hfew : e ≤ 10 := by
    have hproduct : d.digits * 2 ^ 150 * 10 ^ e = n * 2 ^ shift := by
      rw [toRat_of_whole hexponent] at hvalue
      push_cast at hvalue
      rw [mul_right_comm] at hvalue
      exact_mod_cast hvalue
    have hfives := five_pow_le hpos (Dvd.intro_left _ hproduct)
    by_contra hmore
    have hpower := Nat.pow_le_pow_right (show 0 < 5 by decide) (not_le.mp hmore)
    omega
  have hstep : (2 : ℚ) ^ shift ≤ 10 ^ 10 * 2 ^ 150 := by
    rw [hexponent, zpow_natCast] at hgrid
    apply hgrid.trans
    gcongr
    norm_num
  have hfactor : (n : ℚ) ≤ 2 ^ 25 := mod_cast hn.le
  have hmost := mul_le_mul hfactor hstep (by positivity) (by positivity)
  linarith

/-! ### What is read -/

namespace ReadsAs

/-- What is read by multiplying is the product of a rounded word and a power of ten, rounded. -/
theorem scaled_rounded {n j : Nat} (hpos : 0 < n) (hword : n < 2 ^ 64) (hj : j ≤ 20) :
    (Binary.ofNat n * Number.powerOfTen j : Double).IsRounded
      ((Binary.ofNat n : Double).toRat * 10 ^ j) := by
  have hfactor := Binary.isRounded_ofNat hpos (hword.le.trans (by norm_num))
  have hpower := Binary.toRat_powerOfTen (hj.trans (by decide))
  obtain ⟨a, ha, hx⟩ := hfactor.finite
  obtain ⟨b, hb, hy⟩ := (Binary.isRounded_powerOfTen (hj.trans (by decide))).finite
  obtain ⟨hleast, hmost⟩ := hfactor.bounds
  have hleastWord : (1 : ℚ) ≤ n := mod_cast hpos
  have hmostWord : (n : ℚ) ≤ 2 ^ 64 := mod_cast hword.le
  have hone : (1 : ℚ) ≤ 10 ^ j := one_le_pow₀ (by norm_num)
  have htop : (10 : ℚ) ^ j ≤ 10 ^ 20 := pow_le_pow_right₀ (by norm_num) hj
  rw [← hpower]
  apply hx.isRounded_mul hy ha hb
  rw [hpower]
  have hhalf : (1 : ℚ) / 2 ≤ (Binary.ofNat n : Double).toRat := by linarith
  have htwice : (Binary.ofNat n : Double).toRat ≤ 2 * 2 ^ 64 := by linarith
  apply Format.covers_of_le
  · calc (1 / 2 ^ 200 : ℚ) ≤ 1 / 2 * 1 := by norm_num
      _ ≤ (Binary.ofNat n : Double).toRat * 10 ^ j := by gcongr
  · calc (Binary.ofNat n : Double).toRat * 10 ^ j ≤ 2 * 2 ^ 64 * 10 ^ 20 := by gcongr
      _ ≤ 2 ^ 200 := by norm_num

variable (hd : d.Prints k) (hk : k < binary32.infinity)

include hd

theorem scaled_pos (i : Nat) : 0 < d.digits * 10 ^ i :=
  Nat.mul_pos (Nat.pos_of_ne_zero hd.digits_ne_zero) (Nat.pow_pos (by decide))

/-- The digits of a printed number are exact in double precision. -/
theorem digits_exact : ∃ j < binary64.infinity, (Binary.ofNat d.digits : Double).AtOrdinal j ∧
    (Binary.ofNat d.digits : Double).toRat = d.digits := by
  have hrounded := Binary.isRounded_ofNat (Nat.pos_of_ne_zero hd.digits_ne_zero)
    (hd.digits_lt.le.trans (by norm_num))
  obtain ⟨j, hj, hx⟩ := hrounded.finite
  exact ⟨j, hj, hx, hrounded.eq_of_lt hd.digits_lt rfl⟩

/-- What is read by dividing is the quotient by a rounded power of ten, rounded. -/
theorem divided_rounded {p : Nat} (hexponent : d.exponent = -p) :
    (Binary.ofNat d.digits / Number.powerOfTen p : Double).IsRounded
      (d.digits / (Number.powerOfTen p).toRat) := by
  have hp : p ≤ 46 := by
    have hleast := hd.exponent_ge
    omega
  obtain ⟨a, ha, hx, hdigits⟩ := digits_exact hd
  have hpower := Binary.isRounded_powerOfTen (hp.trans (by decide))
  obtain ⟨b, hb, hy⟩ := hpower.finite
  obtain ⟨hleast, hmost⟩ := hpower.bounds
  have hone : (1 : ℚ) ≤ 10 ^ p := one_le_pow₀ (by norm_num)
  have htop : (10 : ℚ) ^ p ≤ 10 ^ 46 := pow_le_pow_right₀ (by norm_num) hp
  have hpositive : 0 < (Number.powerOfTen p).toRat := by linarith
  have hdigitsLeast : (1 : ℚ) ≤ d.digits := mod_cast Nat.pos_of_ne_zero hd.digits_ne_zero
  have hdigitsMost : (d.digits : ℚ) ≤ 2 ^ 53 := mod_cast hd.digits_lt.le
  rw [← hdigits]
  apply hx.isRounded_div hy ha hb hpositive
  rw [hdigits]
  apply Format.covers_of_le
  · rw [le_div_iff₀ hpositive]
    linarith
  · rw [div_le_iff₀ hpositive]
    linarith

/-- **A decimal that is a middle is read as it is.** -/
theorem exact (h : d.ReadsAs y) {i : Nat} (hi : i < binary32.infinity) (hmiddle : d.AtMiddle i) :
    y.toRat = d.toRat := by
  obtain ⟨n, -, hn, hvalue⟩ := hmiddle.exists_eq_mul_pow
  cases h with
  | @whole i hexponent hword =>
    rw [toRat_of_whole hexponent] at hvalue ⊢
    exact (Binary.isRounded_ofNat (scaled_pos hd i) (hword.le.trans (by norm_num))).eq_of_lt
      (by omega) hvalue
  | @divided p hexponent =>
    have hrounded := divided_rounded hd hexponent
    have hp := hmiddle.places_le (Nat.pos_of_ne_zero hd.digits_ne_zero) hd.digits_lt hexponent
    rw [Binary.toRat_powerOfTen hp, ← toRat_of_divided hexponent] at hrounded
    exact hrounded.eq_of_lt (by omega) hvalue
  | @scaled i j hexponent hword hfull hlarge =>
    have hwhole : d.exponent = (i + j : Nat) := by
      rw [hexponent]
      push_cast
      rfl
    exact absurd hlarge (hmiddle.toRat_lt hi hwhole).not_ge

include hk

/-- A number of single precision leaves few zeros to a power of ten. -/
theorem power_le {i j : Nat} (hexponent : d.exponent = i + j)
    (hfull : j = 0 ∨ 2 ^ 64 ≤ d.digits * 10 ^ i * 10) : j ≤ 20 := by
  by_contra hlarge
  have hword : (2 : ℚ) ^ 64 ≤ (d.digits * 10 ^ i : Nat) * 10 := by
    exact_mod_cast hfull.resolve_left (by omega)
  have hpower : (10 : ℚ) ^ 21 ≤ 10 ^ j := pow_le_pow_right₀ (by norm_num) (by omega)
  have hmost := hd.toRat_le hk
  rw [toRat_of_scaled hexponent] at hmost
  have hleast := mul_le_mul (by linarith : (2 : ℚ) ^ 64 / 10 ≤ (d.digits * 10 ^ i : Nat)) hpower
    (by positivity) (by positivity)
  linarith

/-- **What is read is near the decimal.** -/
theorem near (h : d.ReadsAs y) : (∃ j < binary64.infinity, y.AtOrdinal j) ∧
    2 ^ 56 * |y.toRat - d.toRat| ≤ 17 * d.toRat := by
  have hpos := hd.toRat_pos
  have hmost := hd.toRat_le hk
  cases h with
  | @whole i hexponent hword =>
    have hrounded := Binary.isRounded_ofNat (scaled_pos hd i) (hword.le.trans (by norm_num))
    have hnear := hrounded.near_double
    refine ⟨hrounded.finite, ?_⟩
    rw [toRat_of_whole hexponent] at hpos ⊢
    linarith
  | @divided p hexponent =>
    have hrounded := divided_rounded hd hexponent
    have hp : p ≤ 60 := by
      have hleast := hd.exponent_ge
      omega
    have hvalue : d.toRat = d.digits / 10 ^ p := toRat_of_divided hexponent
    have hdigits : (0 : ℚ) < d.digits := mod_cast Nat.pos_of_ne_zero hd.digits_ne_zero
    refine ⟨hrounded.finite, ?_⟩
    rw [hvalue]
    exact near_of_two hrounded.near_double
      (near_of_divisor hdigits (by positivity) (Binary.isRounded_powerOfTen hp).near_double)
  | @scaled i j hexponent hword hfull hlarge =>
    have hvalue : d.toRat = (d.digits * 10 ^ i : Nat) * 10 ^ j := toRat_of_scaled hexponent
    have hj : j ≤ 20 := power_le hd hk hexponent hfull
    have hfactor := Binary.isRounded_ofNat (scaled_pos hd i) (hword.le.trans (by norm_num))
    have hrounded := scaled_rounded (scaled_pos hd i) hword hj
    refine ⟨hrounded.finite, ?_⟩
    rw [hvalue]
    exact near_of_two hrounded.near_double (near_of_factor (by positivity) hfactor.near_double)

end ReadsAs

/-! ### Back to single precision -/

/-- The decimals beside the three middles are all read by dividing, and that finds them. -/
theorem toSingle_eq_of_mem {tie : TieRule} (hk : k ∈ nearOrdinals)
    (h : (binary32.shortest tie k).ReadsAs y) : y.toSingle = .ofOrdinal false k := by
  have hchecked : ∀ k ∈ nearOrdinals, (binary32.shortest tie k).exponent < 0 ∧
      (.ofNat (binary32.shortest tie k).digits /
        Number.powerOfTen (-(binary32.shortest tie k).exponent).toNat : Double).toSingle =
          .ofOrdinal false k := by
    cases tie <;> decide +kernel
  obtain ⟨hnegative, hsingle⟩ := hchecked k hk
  cases h with
  | whole hexponent => omega
  | @divided p hexponent =>
    rwa [hexponent, neg_neg, Int.toNat_natCast] at hsingle
  | scaled hexponent => omega

/-- **The shortest digits of a number are read back as the number**, although they are read as a
    double first. -/
theorem ReadsAs.toSingle_eq {tie : TieRule} (hpos : 0 < k) (hk : k < binary32.infinity)
    (h : (binary32.shortest tie k).ReadsAs y) : y.toSingle = .ofOrdinal false k := by
  by_cases hmem : k ∈ nearOrdinals
  · exact toSingle_eq_of_mem hmem h
  · have hd := Format.prints_shortest tie hpos hk
    obtain ⟨⟨j, hj, hy⟩, hnear⟩ := ReadsAs.near hd hk h
    exact hd.toSingle_eq hk hmem hpos hy hj hnear fun i hi => ReadsAs.exact hd h hi

/-- **The nearest double would not do**, for one number: its digits lie so near the middle to the
    next number that the double nearest to them is that middle. -/
theorem toSingle_ofDecimal_eq_iff {tie : TieRule} (hpos : 0 < k) (hk : k < binary32.infinity) :
    (Binary.ofDecimal false (binary32.shortest tie k).digits
      (binary32.shortest tie k).exponent : Double).toSingle = .ofOrdinal false k ↔
        k ≠ 363742205 := by
  by_cases hmem : k ∈ nearOrdinals
  · have hchecked : ∀ k ∈ nearOrdinals,
        ((Binary.ofDecimal false (binary32.shortest tie k).digits
          (binary32.shortest tie k).exponent : Double).toSingle = .ofOrdinal false k ↔
            k ≠ 363742205) := by
      cases tie <;> decide +kernel
    exact hchecked k hmem
  · have hd := Format.prints_shortest tie hpos hk
    generalize binary32.shortest tie k = d at *
    have hrounded := hd.isRounded_ofDecimal hk
    obtain ⟨j, hj, hy⟩ := hrounded.finite
    have hnear := hrounded.near_double
    refine ⟨fun _ => ?_, fun _ => ?_⟩
    · rintro rfl
      exact hmem (by decide)
    · refine hd.toSingle_eq hk hmem hpos hy hj (by linarith [hd.toRat_pos]) fun i _ hmiddle => ?_
      obtain ⟨n, -, hn, hvalue⟩ := hmiddle.exists_eq_mul_pow
      exact hrounded.eq_of_lt (by omega) hvalue

end Decimal

end KnowledgeSearch
