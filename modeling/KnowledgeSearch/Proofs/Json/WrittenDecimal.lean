/-
  KnowledgeSearch/Proofs/Json/WrittenDecimal.lean
  ===============================================
  **Decimals as they are written.**

  A document writes a decimal with a point (`WrittenDecimal`), and what is kept of it is a double.
  Printed without an exponent, the double has the digits that were written, but for the zeros at
  their end and a point that has nothing behind it.  So the text comes back exactly if the last
  digit is not zero (`WrittenDecimal.lay_shown_eq_iff`).
-/
import KnowledgeSearch.Proofs.Json.NumberText
import KnowledgeSearch.Proofs.Numeric.RoundTrip
import Mathlib.Data.List.Induction

namespace KnowledgeSearch

open Format (binary64)

/-! ### Digits and their value -/

namespace Decimal

variable {digits : List Char}

theorem digitsValue_concat (front : List Char) (c : Char) :
    digitsValue (front ++ [c]) = 10 * digitsValue front + (c.toNat - '0'.toNat) := by
  simp [digitsValue]

/-- A digit is written for its own value. -/
theorem digitChar_of_isDigit {c : Char} (hc : c.isDigit = true) :
    c.toNat - '0'.toNat < 10 ∧ (c.toNat - '0'.toNat).digitChar = c := by
  have hall : ∀ n < 128, (Char.ofNat n).isDigit = true →
      n - '0'.toNat < 10 ∧ (n - '0'.toNat).digitChar = Char.ofNat n := by decide
  have hascii : c.toNat < 128 := by
    simp only [Char.isDigit, Bool.and_eq_true, decide_eq_true_eq] at hc
    have hlast : c.toNat ≤ 57 := hc.2
    omega
  have hself := hall c.toNat hascii
  rw [Char.ofNat_toNat] at hself
  exact hself hc

/-- Digits are those of their value behind as many zeros as are missing. -/
theorem replicate_append_toDigits (hdigits : ∀ c ∈ digits, c.isDigit = true) (hne : digits ≠ []) :
    List.replicate (digits.length - (Nat.toDigits 10 (digitsValue digits)).length) '0' ++
      Nat.toDigits 10 (digitsValue digits) = digits := by
  induction digits using List.reverseRecOn with
  | nil => exact absurd rfl hne
  | append_singleton front c ih =>
    obtain ⟨hsmall, hchar⟩ := digitChar_of_isDigit (hdigits c (by simp))
    have hfront := ih fun c hc => hdigits c (by simp [hc])
    rw [digitsValue_concat]
    generalize c.toNat - '0'.toNat = last at *
    have hlast : Nat.toDigits 10 last = [c] := by rw [Nat.toDigits_of_lt_base hsmall, hchar]
    rcases Nat.eq_zero_or_pos (digitsValue front) with hzero | hpos
    · rw [hzero, Nat.mul_zero, Nat.zero_add, hlast, List.length_append, List.length_singleton,
        Nat.add_sub_cancel]
      congr 1
      rcases eq_or_ne front [] with rfl | hfrontNe
      · rfl
      · have hzeros := hfront hfrontNe
        rw [hzero, Nat.toDigits_zero, List.length_singleton, ← List.replicate_one,
          List.replicate_append_replicate,
          Nat.sub_add_cancel (List.length_pos_iff.mpr hfrontNe)] at hzeros
        exact hzeros
    · have hfrontNe : front ≠ [] := by
        rintro rfl
        exact absurd hpos (by simp [digitsValue])
      have happend : Nat.toDigits 10 (10 * digitsValue front + last) =
          Nat.toDigits 10 (digitsValue front) ++ [c] := by
        rw [← Nat.toDigits_append_toDigits (by decide) hpos hsmall, hlast]
      rw [happend, List.length_append, List.length_append, List.length_singleton,
        Nat.add_sub_add_right, ← List.append_assoc, hfront hfrontNe]

theorem digitsValue_lt (hdigits : ∀ c ∈ digits, c.isDigit = true) :
    digitsValue digits < 10 ^ digits.length := by
  rcases eq_or_ne digits [] with rfl | hne
  · simp [digitsValue]
  · have hlength := congrArg List.length (replicate_append_toDigits hdigits hne)
    rw [List.length_append, List.length_replicate] at hlength
    apply (Nat.length_toDigits_le_iff (by decide) (List.length_pos_iff.mpr hne)).mp
    omega

/-- A number is zero if all its digits are. -/
theorem digitsValue_eq_zero_iff (hdigits : ∀ c ∈ digits, c.isDigit = true) :
    digitsValue digits = 0 ↔ ∀ c ∈ digits, c = '0' := by
  constructor
  · intro hzero
    rcases eq_or_ne digits [] with rfl | hne
    · simp
    · have hzeros := replicate_append_toDigits hdigits hne
      rw [hzero, Nat.toDigits_zero] at hzeros
      intro c hc
      rw [← hzeros] at hc
      simp only [List.mem_append, List.mem_replicate, List.mem_singleton] at hc
      exact hc.elim And.right id
  · intro hzeros
    rw [List.eq_replicate_of_mem hzeros]
    exact digitsValue_replicate _

/-- The last digit of a number is what is left of it modulo ten. -/
theorem digitsValue_mod_ten_eq_zero_iff (hdigits : ∀ c ∈ digits, c.isDigit = true)
    (hne : digits ≠ []) : digitsValue digits % 10 = 0 ↔ digits.getLast hne = '0' := by
  cases digits using List.reverseRecOn with
  | nil => exact absurd rfl hne
  | append_singleton front c =>
    obtain ⟨hsmall, hchar⟩ := digitChar_of_isDigit (hdigits c (by simp))
    rw [digitsValue_concat, List.getLast_append_singleton, Nat.mul_add_mod,
      Nat.mod_eq_of_lt hsmall]
    constructor
    · intro hzero
      rw [← hchar, hzero]
      rfl
    · rintro rfl
      rfl

section Point

variable {whole fraction : List Char}

theorem isDigit_append (hwhole : Json.IsWhole whole) (hdigits : ∀ c ∈ fraction, c.isDigit = true) :
    ∀ c ∈ whole ++ fraction, c.isDigit = true := by
  simp only [List.mem_append]
  exact fun c hc => hc.elim (hwhole.digits c) (hdigits c)

/-- A zero in front of all digits is the only one before the point. -/
theorem whole_eq_zero (hwhole : Json.IsWhole whole) (hdigits : ∀ c ∈ fraction, c.isDigit = true)
    (h : (Nat.toDigits 10 (digitsValue (whole ++ fraction))).length <
      whole.length + fraction.length) : whole = ['0'] := by
  obtain ⟨c, rest, rfl⟩ := List.exists_cons_of_ne_nil hwhole.nonempty
  have hpadded := replicate_append_toDigits (isDigit_append hwhole hdigits) (List.cons_ne_nil _ _)
  generalize Nat.toDigits 10 (digitsValue (c :: rest ++ fraction)) = shown at *
  obtain ⟨missing, hmissing⟩ : ∃ missing,
      (c :: rest ++ fraction).length - shown.length = missing + 1 := by
    rw [List.length_append]
    exact ⟨_, (Nat.sub_add_cancel (by omega)).symm⟩
  rw [hmissing, List.replicate_succ, List.cons_append, List.cons_append, List.cons.injEq]
    at hpadded
  obtain ⟨rfl, -⟩ := hpadded
  have hone := hwhole.leading rfl
  rw [List.length_cons, Nat.succ_inj, List.length_eq_zero_iff] at hone
  rw [hone]

/-- Digits before and behind a point are laid out as they were. -/
theorem layPositional_digitsValue (hwhole : Json.IsWhole whole)
    (hdigits : ∀ c ∈ fraction, c.isDigit = true) (hne : fraction ≠ []) :
    plainStyle.layPositional (Nat.toDigits 10 (digitsValue (whole ++ fraction)))
      (-(fraction.length : Int)) = whole ++ '.' :: fraction := by
  have hpadded := replicate_append_toDigits (isDigit_append hwhole hdigits) (by simp [hne])
  have hzero := whole_eq_zero hwhole hdigits
  have hplaces : 0 < fraction.length := List.length_pos_iff.mpr hne
  have hlength := congrArg List.length hpadded
  rw [List.length_append, List.length_replicate, List.length_append] at hlength
  rw [NumberStyle.layPositional, if_neg (by omega), neg_neg, Int.toNat_natCast]
  generalize Nat.toDigits 10 (digitsValue (whole ++ fraction)) = shown at *
  rw [List.length_append] at hpadded
  dsimp only
  by_cases hshort : shown.length ≤ fraction.length
  · have hwholeLength := List.length_pos_iff.mpr hwhole.nonempty
    obtain rfl := hzero (by omega)
    have hsplit : ['0'].length + fraction.length - shown.length =
        fraction.length - shown.length + 1 := by
      rw [List.length_singleton]
      omega
    rw [hsplit, List.replicate_succ, List.cons_append, List.singleton_append,
      List.cons.injEq] at hpadded
    rw [if_pos hshort, List.append_assoc, hpadded.2]
    rfl
  · have hexact : shown.length = whole.length + fraction.length := by
      by_contra hmissing
      have hone := congrArg List.length (hzero (by omega))
      rw [List.length_singleton] at hone
      omega
    rw [hexact, Nat.sub_self, List.replicate_zero, List.nil_append] at hpadded
    rw [if_neg hshort, hexact, Nat.add_sub_cancel, hpadded, List.take_left, List.drop_left,
      List.append_assoc]
    rfl

end Point

/-- A whole number is printed without a point. -/
theorem not_mem_lay {d : Decimal} (h : 0 ≤ d.exponent) : '.' ∉ plainStyle.lay d := by
  intro hpoint
  have hplain : plainStyle.keepsFraction = false := rfl
  have hlay : plainStyle.lay d = plainStyle.layPositional (Nat.toDigits 10 d.digits) d.exponent :=
    rfl
  rw [hlay, NumberStyle.layPositional, if_pos h, hplain, if_neg Bool.false_ne_true,
    List.append_nil, List.mem_append] at hpoint
  have hdigit : ('.' : Char).isDigit = true :=
    hpoint.elim (isDigit_toDigits '.') (isDigit_replicate '.')
  exact absurd hdigit (by decide)

/-- A number with some places behind the point, bounded from below. -/
theorem one_le_toRat_mul_pow {n places e : Nat} (h : 10 ^ places ≤ n * 2 ^ e) :
    (1 : ℚ) ≤ (⟨n, -places⟩ : Decimal).toRat * 2 ^ e := by
  have hpower : (0 : ℚ) < 10 ^ places := by positivity
  have hcast : (10 : ℚ) ^ places ≤ n * 2 ^ e := mod_cast h
  rw [toRat, zpow_neg, zpow_natCast, ← div_eq_mul_inv, div_mul_eq_mul_div, le_div_iff₀ hpower,
    one_mul]
  exact hcast

theorem toRat_le (n places : Nat) : (⟨n, -places⟩ : Decimal).toRat ≤ n := by
  have hpower : (1 : ℚ) ≤ 10 ^ places := one_le_pow₀ (by norm_num)
  rw [toRat, zpow_neg, zpow_natCast, ← div_eq_mul_inv]
  exact div_le_self (Nat.cast_nonneg n) hpower

end Decimal

/-- A number is printed as its sign and its fewest digits. -/
theorem Binary.toList_format_ofOrdinal {F : Format} {style : NumberStyle} {negative : Bool}
    {k : Nat} (hpos : 0 < k) (hk : k < F.infinity) :
    (style.format (ofOrdinal negative k : Binary F)).toList =
      (if negative then ['-'] else []) ++ style.lay (F.shortest style.tie k) := by
  simp only [NumberStyle.format, ofOrdinal, Nat.min_eq_left hk.le, hk.ne, hpos.ne', if_false,
    String.toList_ofList]

/-! ### Written decimals -/

/-- A number with a point, as a document writes it: of up to fifteen digits, and zero or large
    enough for a double with a full significand. -/
structure WrittenDecimal where
  negative : Bool
  whole : List Char
  fraction : List Char
  isWhole : Json.IsWhole whole
  isFraction : ∀ c ∈ fraction, c.isDigit = true
  nonempty : fraction ≠ []
  short : Decimal.digitsValue (whole ++ fraction) < 10 ^ 15
  normal : Decimal.digitsValue (whole ++ fraction) = 0 ∨
    10 ^ fraction.length ≤ Decimal.digitsValue (whole ++ fraction) * 2 ^ 1022

namespace WrittenDecimal

variable (p : WrittenDecimal)

/-- All its digits as one number, and the places behind the point. -/
def decimal : Decimal := ⟨Decimal.digitsValue (p.whole ++ p.fraction), -p.fraction.length⟩

/-- The double that is nearest to it. -/
def double : Double := .ofDecimal p.negative p.decimal.digits p.decimal.exponent

def sign : List Char := if p.negative then ['-'] else []

def text : List Char := p.sign ++ (p.whole ++ '.' :: p.fraction)

/-- The decimal that is left when it is printed again. -/
def shown : Decimal := if p.decimal.digits = 0 then ⟨0, 0⟩ else p.decimal.significant

theorem toRat_mul_le : p.decimal.toRat * 2 ^ binary64.scale ≤
    binary64.units Binary.largeOrdinal := by
  have hvalue : p.decimal.toRat ≤ 2 ^ 63 := by
    have hshort : (p.decimal.digits : ℚ) < 10 ^ 15 := mod_cast p.short
    have hsmall : (10 : ℚ) ^ 15 ≤ 2 ^ 63 := by norm_num
    exact ((Decimal.toRat_le _ _).trans_lt hshort).le.trans hsmall
  rw [Binary.units_largeOrdinal, Nat.cast_mul, Nat.cast_pow _ 63, Nat.cast_pow, Nat.cast_ofNat]
  gcongr

theorem isNormal (h : p.decimal.digits ≠ 0) : p.decimal.IsNormal binary64 := by
  have hinfinity : Binary.largeOrdinal < binary64.infinity := by decide
  constructor
  · have hscale : binary64.scale = 1022 + 52 := by decide
    have hone := Decimal.one_le_toRat_mul_pow (p.normal.resolve_left h)
    rw [hscale, pow_add, ← mul_assoc]
    exact le_mul_of_one_le_left (by positivity) hone
  · refine p.toRat_mul_le.trans_lt ?_
    exact_mod_cast binary64.units_lt_iff.mpr hinfinity

/-- A decimal is rounded to a finite double, without a shortcut. -/
theorem double_eq : p.double = .ofOrdinal p.negative (p.decimal.ordinal binary64) := by
  by_cases hzero : p.decimal.digits = 0
  · rw [Decimal.ordinal_of_zero hzero, double, Binary.ofDecimal]
    exact if_pos hzero
  · exact Binary.ofDecimal_eq_ofOrdinal (p.isNormal hzero) (by decide) p.negative

theorem ordinal_lt : p.decimal.ordinal binary64 < binary64.infinity := by
  have hinfinity : Binary.largeOrdinal < binary64.infinity := by decide
  exact (Decimal.ordinal_le p.toRat_mul_le).trans_lt hinfinity

theorem isFinite_double : p.double.isFinite = true := by
  rw [p.double_eq]
  exact Binary.isFinite_signed_iff.mpr ((Nat.min_le_left _ _).trans_lt p.ordinal_lt)

/-- What is printed of a decimal: its sign, and the digits that are left of it. -/
theorem toList_format_double :
    (plainStyle.format p.double).toList = p.sign ++ plainStyle.lay p.shown := by
  rw [p.double_eq, shown]
  split
  · rename_i hzero
    rw [Decimal.ordinal_of_zero hzero]
    exact String.toList_ofList
  · rename_i hne
    have hnormal := p.isNormal hne
    have hpos := (Nat.two_pow_pos _).trans_le hnormal.le_ordinal
    have hshort : p.decimal.digits < 2 ^ 52 := p.short.trans (by norm_num)
    rw [Binary.toList_format_ofOrdinal hpos p.ordinal_lt]
    exact congrArg (fun d => p.sign ++ plainStyle.lay d)
      (Decimal.shortest_ordinal .upward hnormal hshort)

/-! ### The text that comes back -/

/-- The digits before and behind the point are told from the text. -/
theorem parts_of_text {whole fraction whole' fraction' : List Char}
    (hwhole : ∀ c ∈ whole, c.isDigit = true) (hwhole' : ∀ c ∈ whole', c.isDigit = true)
    (h : whole ++ '.' :: fraction = whole' ++ '.' :: fraction') :
    whole = whole' ∧ fraction = fraction' := by
  have hpoint (rest : List Char) : ∀ c, ('.' :: rest).head? = some c → c.isDigit = false := by
    rintro c hc
    cases hc
    rfl
  obtain ⟨htake, hdrop⟩ := Text.parts_of_class ('.' :: fraction) hwhole (hpoint _)
  obtain ⟨htake', hdrop'⟩ := Text.parts_of_class ('.' :: fraction') hwhole' (hpoint _)
  rw [h] at htake hdrop
  exact ⟨htake.symm.trans htake', (List.cons.inj (hdrop.symm.trans hdrop')).2⟩

theorem shown_eq_significant (h : p.decimal.digits ≠ 0) : p.shown = p.decimal.significant :=
  if_neg h

/-- Something is left behind the point if one of the digits there is not zero. -/
theorem exponent_shown_neg_iff :
    p.shown.exponent < 0 ↔ ∃ c ∈ p.fraction, c ≠ '0' := by
  have hvalue : p.decimal.digits = Decimal.digitsValue p.whole * 10 ^ p.fraction.length +
      Decimal.digitsValue p.fraction := Decimal.digitsValue_append _ _
  have hfraction := Decimal.digitsValue_lt p.isFraction
  have hzeros : Decimal.digitsValue p.fraction = 0 ↔ ¬ ∃ c ∈ p.fraction, c ≠ '0' := by
    rw [Decimal.digitsValue_eq_zero_iff p.isFraction]
    simp
  rw [← not_iff_not, not_lt, ← hzeros]
  by_cases hne : p.decimal.digits = 0
  · rw [shown, if_pos hne]
    exact iff_of_true le_rfl (by omega)
  · have hplaces : (-p.decimal.exponent).toNat = p.fraction.length := by simp [decimal]
    rw [p.shown_eq_significant hne,
      Decimal.exponent_significant_nonneg_iff hne (by simp [decimal]), hplaces, hvalue,
      Nat.dvd_add_right (Nat.dvd_mul_left _ _)]
    constructor
    · intro hdvd
      exact Nat.eq_zero_of_dvd_of_lt hdvd hfraction
    · intro hzero
      rw [hzero]
      exact dvd_zero _

/-- Where the first digit of a decimal stands says how large it is. -/
theorem first_bounds (h : p.decimal.digits ≠ 0) :
    let first := p.shown.exponent + (Nat.toDigits 10 p.shown.digits).length - 1
    first < 15 ∧ (-4 ≤ first ↔ 10 ^ p.fraction.length ≤ 10 ^ 4 * p.decimal.digits) := by
  have hten : (1 : ℚ) < 10 := by norm_num
  have hpower : (0 : ℚ) < 10 ^ p.fraction.length := by positivity
  have hvalue : p.shown.toRat = p.decimal.toRat := by
    rw [p.shown_eq_significant h, Decimal.toRat_significant]
  have hdigits : p.shown.digits ≠ 0 := by
    rw [p.shown_eq_significant h]
    exact (Decimal.isTrimmed_significant h).digits_ne_zero
  obtain ⟨hleast, hmost⟩ := Binary.zpow_le_toRat_lt hdigits
  rw [hvalue] at hleast hmost
  intro first
  have hnext : p.shown.exponent + (Nat.toDigits 10 p.shown.digits).length = first + 1 :=
    (Int.sub_add_cancel _ _).symm
  rw [hnext] at hmost
  constructor
  · have hshort : (p.decimal.digits : ℚ) < 10 ^ (15 : Int) := mod_cast p.short
    exact (zpow_lt_zpow_iff_right₀ hten).mp
      ((hleast.trans (Decimal.toRat_le _ _)).trans_lt hshort)
  · have hsize : (10 : ℚ) ^ (-4 : Int) ≤ p.decimal.toRat ↔
        10 ^ p.fraction.length ≤ 10 ^ 4 * p.decimal.digits := by
      have hplaces : p.decimal.exponent = -p.fraction.length := rfl
      rw [Decimal.toRat, hplaces, zpow_neg, zpow_neg, zpow_natCast, ← div_eq_mul_inv,
        le_div_iff₀ hpower, inv_mul_le_iff₀ (by norm_num)]
      exact_mod_cast Iff.rfl
    rw [← hsize]
    constructor
    · intro hfirst
      exact ((zpow_le_zpow_iff_right₀ hten).mpr hfirst).trans hleast
    · intro hfirst
      have hlt := (zpow_lt_zpow_iff_right₀ hten).mp (hfirst.trans_lt hmost)
      omega

/-- **A decimal is printed as it was written exactly if its last digit is not zero.** -/
theorem lay_shown_eq_iff : plainStyle.lay p.shown = p.whole ++ '.' :: p.fraction ↔
    p.fraction.getLast p.nonempty ≠ '0' := by
  have hdigits := Decimal.isDigit_append p.isWhole p.isFraction
  have hlast : p.decimal.digits % 10 = 0 ↔ p.fraction.getLast p.nonempty = '0' := by
    rw [decimal, Decimal.digitsValue_mod_ten_eq_zero_iff hdigits (by simp [p.nonempty]),
      List.getLast_append_of_ne_nil _ p.nonempty]
  rw [Ne, ← hlast]
  constructor
  · intro h hzeroDigit
    have hexponent : p.shown.exponent < 0 := by
      by_contra hwhole
      have hpoint : '.' ∈ plainStyle.lay p.shown := by simp [h]
      exact Decimal.not_mem_lay (not_lt.mp hwhole) hpoint
    have hne : p.decimal.digits ≠ 0 := by
      intro hzero
      rw [shown, if_pos hzero] at hexponent
      exact absurd hexponent (lt_irrefl 0)
    rw [p.shown_eq_significant hne] at h hexponent
    have htrimmed := Decimal.isTrimmed_significant hne
    obtain ⟨whole, fraction, htext, hwhole, -, hplaces, hvalue⟩ :=
      Decimal.exists_fraction isDigit_toDigits (head?_toDigits_ne_zero htrimmed.digits_ne_zero)
        hexponent
    obtain ⟨rfl, rfl⟩ := parts_of_text hwhole.digits p.isWhole.digits (htext.symm.trans h)
    rw [Decimal.digitsValue_toDigits] at hvalue
    rw [Decimal.IsTrimmed, ← hvalue] at htrimmed
    exact htrimmed hzeroDigit
  · intro h
    have htrimmed : p.decimal.IsTrimmed := h
    rw [p.shown_eq_significant htrimmed.digits_ne_zero, Decimal.significant_eq htrimmed]
    exact Decimal.layPositional_digitsValue p.isWhole p.isFraction p.nonempty

end WrittenDecimal

/-! ### Reading -/

namespace Binary

variable {F : Format} {a b : Nat}

theorem ofOrdinal_div (ha : a < F.infinity) (hb : b < F.infinity) (hpos : 0 < b) :
    (ofOrdinal false a / ofOrdinal false b : Binary F) =
      ofOrdinal false (F.nearest (F.units a * 2 ^ F.scale) (F.units b)) := by
  change Binary.div (ofOrdinal false a) (ofOrdinal false b) = _
  simp only [ofOrdinal, Binary.div, Nat.min_eq_left ha.le, Nat.min_eq_left hb.le, ha.ne, hb.ne,
    hpos.ne', if_false, round, Nat.shiftLeft_eq]
  rfl

/-- An integer that fits a significand is a double. -/
theorem exists_ofNat_eq {n : Nat} (hn : n < 2 ^ 53) :
    ∃ a < binary64.infinity, binary64.units a = n * 2 ^ binary64.scale ∧
      (ofNat n : Double) = ofOrdinal false a := by
  obtain ⟨a, ha⟩ := binary64.exists_units_mul_pow (n := n) hn binary64.scale
  refine ⟨a, ?_, ha, ?_⟩
  · have hinfinity : largeOrdinal < binary64.infinity := by decide
    refine lt_of_le_of_lt ?_ hinfinity
    rw [← Format.units_le_iff, units_largeOrdinal, ha]
    gcongr
    exact hn.le.trans (by norm_num)
  · have hpositive : decide ((n : Int) < 0) = false := by simp
    rw [ofNat, ofInt, hpositive, Int.natAbs_natCast, Nat.shiftLeft_eq, round]
    congr 1
    exact Format.nearest_eq Nat.one_pos (by rw [ha, Nat.mul_one])

/-- A power of ten is a double up to `10 ^ 22`. -/
theorem exists_powerOfTen_eq {p : Nat} (hp : p ≤ 22) :
    ∃ b < binary64.infinity, binary64.units b = 10 ^ p * 2 ^ binary64.scale ∧
      Number.powerOfTen p = ofOrdinal false b := by
  obtain ⟨b, hb, hordinal⟩ := (isRounded_powerOfTen (hp.trans (by decide))).finite
  have hscale : (0 : ℚ) < 2 ^ binary64.scale := by positivity
  have hunits : binary64.units b = 10 ^ p * 2 ^ binary64.scale := by
    have hvalue := toRat_powerOfTen hp
    rw [hordinal.toRat hb.le, div_eq_iff hscale.ne'] at hvalue
    exact_mod_cast hvalue
  have hpos : 0 < b := by
    rw [← binary64.units_pos_iff, hunits]
    positivity
  exact ⟨b, hb, hunits, hordinal.eq_ofOrdinal hpos⟩

end Binary

namespace WrittenDecimal

variable (p : WrittenDecimal)

/-- Quotients of one number are rounded alike. -/
theorem nearest_eq_ordinal {num den : Nat} (hden : 0 < den)
    (hnum : (num : ℚ) = p.decimal.toRat * 2 ^ binary64.scale * den) :
    binary64.nearest num den = p.decimal.ordinal binary64 := by
  have hother := p.decimal.toRat_mul_den binary64
  have hpower : 0 < 10 ^ (-p.decimal.exponent).toNat := Nat.pow_pos (by decide)
  apply Nat.le_antisymm
  · rw [Format.nearest_le_iff hden hnum, ← Format.nearest_le_iff hpower hother]
    exact le_rfl
  · rw [Decimal.ordinal, Format.nearest_le_iff hpower hother, ← Format.nearest_le_iff hden hnum]

/-- **Up to 22 places behind the point the reader finds the nearest double.** -/
theorem ofLiteral?_eq (hplaces : p.fraction.length ≤ 22) :
    Number.ofLiteral? p.negative p.whole (some (p.fraction, 0)) =
      some (.float p.double p.isFinite_double) := by
  have hshort : Decimal.digitsValue (p.whole ++ p.fraction) < 2 ^ 53 :=
    p.short.trans (by norm_num)
  have hsome : p.fraction.length ≠ 0 := by simp [p.nonempty]
  obtain ⟨a, ha, hinteger, hdigits⟩ := Binary.exists_ofNat_eq hshort
  obtain ⟨b, hb, hpower, hten⟩ := Binary.exists_powerOfTen_eq hplaces
  have hunits : 0 < binary64.units b := by
    rw [hpower]
    positivity
  have hquotient : (.ofNat (Decimal.digitsValue (p.whole ++ p.fraction)) /
      Number.powerOfTen p.fraction.length : Double) =
        .ofOrdinal false (p.decimal.ordinal binary64) := by
    rw [hdigits, hten, Binary.ofOrdinal_div ha hb (binary64.units_pos_iff.mp hunits)]
    refine congrArg (Binary.ofOrdinal false) (p.nearest_eq_ordinal hunits ?_)
    rw [hinteger, hpower, Decimal.toRat, decimal, zpow_neg, zpow_natCast]
    generalize binary64.scale = scale
    push_cast
    field_simp
  have hsigned : (if p.negative then -.ofOrdinal false (p.decimal.ordinal binary64)
      else .ofOrdinal false (p.decimal.ordinal binary64) : Double) = p.double := by
    rw [p.double_eq]
    cases p.negative <;> rfl
  have hscale := Number.scale?_divided
    (x := .ofNat (Decimal.digitsValue (p.whole ++ p.fraction))) hsome (hplaces.trans (by decide))
  rw [hquotient] at hscale
  simp only [Number.ofLiteral?, Number.double?,
    Number.significand_fraction (hshort.trans (by norm_num)), hscale, hsigned]
  exact dif_pos p.isFinite_double

end WrittenDecimal

end KnowledgeSearch
