/-
  KnowledgeSearch/Proofs/Json/NumberText.lean
  ===========================================
  **Printed numbers as literals.**

  A number that is printed without an exponent is a literal of JSON: digits that have no zero in
  front of them, and perhaps a fraction (`Json.IsLiteral`).  The reader takes it to its end and
  finds the parts that it was made of (`Json.IsUnsigned.readParts?`).  Those of a decimal have its
  digits and its exponent (`Decimal.Writes`), so the number that they stand for is what the
  decimal is read as (`Decimal.Writes.ofLiteral?`).  With what is known of that, every finite
  number of single precision is read from its text as it was (`Json.readNumber?_format`).
-/
import KnowledgeSearch.Proofs.Json.Literal
import KnowledgeSearch.Proofs.Json.NumberGrammar

namespace KnowledgeSearch

open Format (binary32 binary64)

/-! ### The grammar of literals -/

namespace Json

/-- The texts of numbers without sign and exponent, with their parts. -/
inductive IsLiteral : NumberParts → List Char → Prop where
  | whole {whole : List Char} (hwhole : IsWhole whole) : IsLiteral (whole, none) whole
  | fraction {whole fraction : List Char} (hwhole : IsWhole whole)
      (hdigits : ∀ c ∈ fraction, c.isDigit = true) (hnonempty : fraction ≠ []) :
      IsLiteral (whole, some (fraction, 0)) (whole ++ '.' :: fraction)

variable {text : List Char} {parts : NumberParts}

/-- A literal is a number without a sign. -/
theorem IsLiteral.isUnsigned (h : IsLiteral parts text) : IsUnsigned parts text := by
  cases h with
  | whole hwhole =>
    have hunsigned := IsUnsigned.mk hwhole .absent .absent
    rwa [List.append_nil, List.append_nil] at hunsigned
  | fraction hwhole hdigits hnonempty =>
    have hunsigned := IsUnsigned.mk hwhole (.digits hdigits hnonempty) .absent
    rwa [List.append_nil] at hunsigned

end Json

/-! ### Decimals as literals -/

/-- No digits of a number begin with a zero. -/
theorem head?_toDigits_ne_zero {n : Nat} (hn : n ≠ 0) : (Nat.toDigits 10 n).head? ≠ some '0' := by
  induction n using Nat.strongRecOn with
  | ind n ih =>
    rw [Nat.toDigits_eq_if (by decide)]
    split
    · rename_i hsmall
      have hchecked : ∀ n < 10, n ≠ 0 → n.digitChar ≠ '0' := by decide
      simpa using hchecked n hsmall hn
    · rename_i hlarge
      rw [List.head?_append_of_ne_nil _ Nat.toDigits_ne_nil]
      exact ih (n / 10) (by omega) (by omega)

theorem isDigit_toDigits {n : Nat} : ∀ c ∈ Nat.toDigits 10 n, c.isDigit = true :=
  fun _ hc => Nat.isDigit_of_mem_toDigits (by decide) (by decide) hc

theorem isDigit_replicate {n : Nat} : ∀ c ∈ List.replicate n '0', c.isDigit = true := by
  intro c hc
  rw [List.eq_of_mem_replicate hc]
  rfl

namespace Decimal

variable {d : Decimal} {parts : Json.NumberParts}

/-- The value of digits after others. -/
theorem digitsValue_append (front back : List Char) :
    digitsValue (front ++ back) = digitsValue front * 10 ^ back.length + digitsValue back := by
  rw [Nat.mul_comm]
  exact (Nat.ofDigitChars_append 0).trans Nat.ofDigitChars_eq_ofDigitChars_zero

theorem digitsValue_toDigits (n : Nat) : digitsValue (Nat.toDigits 10 n) = n :=
  Nat.ofDigitChars_ten_toDigits

theorem digitsValue_replicate (n : Nat) : digitsValue (List.replicate n '0') = 0 :=
  Nat.ofDigitChars_replicate_zero.trans (Nat.mul_zero _)

/-- The parts that a decimal is written with: its digits and the zeros of its exponent, or its
    digits with as many of them behind the point as the exponent says. -/
inductive Writes (d : Decimal) : Json.NumberParts → Prop where
  | whole {e : Nat} (hexponent : d.exponent = e) :
      d.Writes (Nat.toDigits 10 d.digits ++ List.replicate e '0', none)
  | fraction {whole fraction : List Char} (hexponent : d.exponent = -fraction.length)
      (hvalue : digitsValue (whole ++ fraction) = d.digits) :
      d.Writes (whole, some (fraction, 0))

/-- Digits are laid out around a point so that as many as wanted are behind it. -/
theorem exists_fraction {digits : List Char} (hdigits : ∀ c ∈ digits, c.isDigit = true)
    (hhead : digits.head? ≠ some '0') {exponent : Int} (hexponent : exponent < 0) :
    ∃ whole fraction, plainStyle.layPositional digits exponent = whole ++ '.' :: fraction ∧
      Json.IsWhole whole ∧ (∀ c ∈ fraction, c.isDigit = true) ∧
      exponent = -fraction.length ∧ digitsValue (whole ++ fraction) = digitsValue digits := by
  rw [NumberStyle.layPositional, if_neg (not_le.mpr hexponent)]
  by_cases hshort : digits.length ≤ (-exponent).toNat
  · refine ⟨['0'], List.replicate ((-exponent).toNat - digits.length) '0' ++ digits, ?_,
      ⟨@isDigit_replicate 1, by decide, fun _ => rfl⟩, ?_, ?_, ?_⟩
    · simp only [if_pos hshort, List.append_assoc, List.cons_append, List.nil_append]
    · simp only [List.mem_append]
      exact fun c hc => hc.elim (isDigit_replicate c) (hdigits c)
    · rw [List.length_append, List.length_replicate]
      omega
    · rw [digitsValue_append, digitsValue_append, digitsValue_replicate, Nat.zero_mul, Nat.zero_add]
      simp [digitsValue]
  · have hfront : (digits.take (digits.length - (-exponent).toNat)).length ≠ 0 := by
      rw [List.length_take]
      omega
    refine ⟨digits.take (digits.length - (-exponent).toNat),
      digits.drop (digits.length - (-exponent).toNat), ?_, ⟨?_, ?_, ?_⟩, ?_, ?_, ?_⟩
    · simp only [if_neg hshort, List.append_assoc, List.cons_append, List.nil_append]
    · exact fun c hc => hdigits c (List.mem_of_mem_take hc)
    · exact fun h => hfront (congrArg List.length h)
    · rw [List.head?_take, if_neg (by omega)]
      exact fun h => absurd h hhead
    · exact fun c hc => hdigits c (List.mem_of_mem_drop hc)
    · rw [List.length_drop]
      omega
    · rw [List.take_append_drop]

/-- A decimal is printed as a literal. -/
theorem exists_writes (hd : d.digits ≠ 0) :
    ∃ parts, d.Writes parts ∧ Json.IsLiteral parts (plainStyle.lay d) := by
  have hlay : plainStyle.lay d = plainStyle.layPositional (Nat.toDigits 10 d.digits) d.exponent :=
    rfl
  have hhead := head?_toDigits_ne_zero hd
  have hnonempty : Nat.toDigits 10 d.digits ≠ [] := Nat.toDigits_ne_nil
  rw [hlay]
  rcases lt_or_ge d.exponent 0 with hexponent | hexponent
  · obtain ⟨whole, fraction, htext, hwhole, hdigits, hplaces, hvalue⟩ :=
      exists_fraction isDigit_toDigits hhead hexponent
    rw [digitsValue_toDigits] at hvalue
    refine ⟨_, .fraction hplaces hvalue, htext ▸ .fraction hwhole hdigits ?_⟩
    rintro rfl
    exact absurd hplaces hexponent.ne
  · refine ⟨_, .whole (Int.toNat_of_nonneg hexponent).symm, ?_⟩
    rw [NumberStyle.layPositional, if_pos hexponent, if_neg (by decide), List.append_nil]
    refine .whole ⟨?_, ?_, ?_⟩
    · simp only [List.mem_append]
      exact fun c hc => hc.elim (isDigit_toDigits c) (isDigit_replicate c)
    · exact fun h => hnonempty (List.append_eq_nil_iff.mp h).1
    · rw [List.head?_append_of_ne_nil _ hnonempty]
      exact fun h => absurd h hhead

end Decimal

/-! ### Significands -/

namespace Number

variable {n e : Nat} {front back : List Char} {negative : Bool}

/-- Digits that fit a word are all taken. -/
theorem appendDigits_eq (h : Nat.ofDigitChars 10 front n < 2 ^ 64) :
    appendDigits n front = (Nat.ofDigitChars 10 front n, []) := by
  induction front generalizing n with
  | nil => rfl
  | cons c front ih =>
    have hone : n * 10 + Decimal.digitsValue [c] = 10 * n + (c.toNat - '0'.toNat) := by
      simp [Decimal.digitsValue, Nat.mul_comm]
    rw [Nat.ofDigitChars_cons] at h ⊢
    have hfits : 10 * n + (c.toNat - '0'.toNat) < UInt64.size := by
      rw [Nat.ofDigitChars_eq_ofDigitChars_zero] at h
      refine lt_of_le_of_lt ?_ h
      exact (Nat.le_mul_of_pos_left _ (Nat.pow_pos (by decide))).trans (Nat.le_add_right _ _)
    simp only [appendDigits, hone, if_pos hfits]
    exact ih h

theorem appendDigits_append {taken : Nat} (h : appendDigits n front = (taken, [])) :
    appendDigits n (front ++ back) = appendDigits taken back := by
  induction front generalizing n with
  | nil =>
    cases h
    rfl
  | cons c front ih =>
    rw [appendDigits] at h
    split at h
    · rename_i hfits
      rw [List.cons_append, appendDigits, if_pos hfits]
      exact ih h
    · cases h

/-- Zeros are taken as long as the number fits a word. -/
theorem appendDigits_replicate (hn : n < 2 ^ 64) (e : Nat) :
    ∃ i j, e = i + j ∧ appendDigits n (List.replicate e '0') = (n * 10 ^ i, List.replicate j '0') ∧
      n * 10 ^ i < 2 ^ 64 ∧ (j = 0 ∨ 2 ^ 64 ≤ n * 10 ^ i * 10) := by
  induction e generalizing n with
  | zero => exact ⟨0, 0, rfl, by simp [appendDigits], by simpa using hn, .inl rfl⟩
  | succ e ih =>
    by_cases hfits : n * 10 < 2 ^ 64
    · obtain ⟨i, j, rfl, htaken, hword, hfull⟩ := ih hfits
      have hpower : n * 10 * 10 ^ i = n * 10 ^ (i + 1) := by ring
      rw [hpower] at htaken hword hfull
      refine ⟨i + 1, j, by omega, ?_, hword, hfull⟩
      rw [List.replicate_succ, appendDigits]
      exact (if_pos hfits).trans htaken
    · refine ⟨0, e + 1, by omega, ?_, by simpa using hn, .inr (by simpa using hfits)⟩
      rw [List.replicate_succ, appendDigits, pow_zero, Nat.mul_one]
      exact if_neg hfits

/-- A short fraction is taken as a whole. -/
theorem significand_fraction (h : Decimal.digitsValue (front ++ back) < 2 ^ 64) :
    significand front back = (Decimal.digitsValue (front ++ back), -(back.length : Int)) := by
  have hfront : Nat.ofDigitChars 10 front 0 < 2 ^ 64 := by
    refine lt_of_le_of_lt ?_ h
    rw [Decimal.digitsValue_append]
    exact (Nat.le_mul_of_pos_right _ (Nat.pow_pos (by decide))).trans (Nat.le_add_right _ _)
  have hwhole : Nat.ofDigitChars 10 back (Nat.ofDigitChars 10 front 0) =
      Decimal.digitsValue (front ++ back) := (Nat.ofDigitChars_append 0).symm
  have hback := appendDigits_eq (hwhole ▸ h)
  simp only [significand, appendDigits_eq hfront, hback, hwhole]
  simp

/-- Of a whole number as many digits are taken as fit a word. -/
theorem significand_whole (hn : n < 2 ^ 64) (e : Nat) :
    ∃ i j, e = i + j ∧
      significand (Nat.toDigits 10 n ++ List.replicate e '0') [] = (n * 10 ^ i, (j : Int)) ∧
      n * 10 ^ i < 2 ^ 64 ∧ (j = 0 ∨ 2 ^ 64 ≤ n * 10 ^ i * 10) := by
  obtain ⟨i, j, he, htaken, hword, hfull⟩ := appendDigits_replicate hn e
  refine ⟨i, j, he, ?_, hword, hfull⟩
  have hdigits : appendDigits 0 (Nat.toDigits 10 n) = (n, []) := by
    rw [appendDigits_eq (by rwa [Nat.ofDigitChars_ten_toDigits]), Nat.ofDigitChars_ten_toDigits]
  simp only [significand, appendDigits_append hdigits, htaken]
  simp [appendDigits]

theorem scale?_divided {x : Double} {p : Nat} (hpos : p ≠ 0) (hp : p ≤ maxPower) :
    scale? x (-(p : Int) + 0) = some (x / powerOfTen p) := by
  obtain ⟨p, rfl⟩ := Nat.exists_eq_succ_of_ne_zero hpos
  rw [Int.add_zero]
  change some (divideByPower x (p + 1)) = _
  rw [divideByPower, if_pos hp]

theorem scale?_multiplied {x : Double} {p : Nat} (hx : x.isZero = false) (hp : p ≤ maxPower)
    (hfinite : (x * powerOfTen p).isFinite = true) :
    scale? x ((p : Int) + 0) = some (x * powerOfTen p) := by
  rw [Int.add_zero]
  change (if x.isZero then _ else if p ≤ maxPower then
    if (x * powerOfTen p).isFinite then _ else _ else _) = _
  rw [if_neg (by simp [hx]), if_pos hp, if_pos hfinite]

/-- A double that is found and finite is the number, with its sign. -/
theorem double?_eq {digits : Nat} {shift exponent : Int} {y : Double}
    (hsignificand : significand front back = (digits, shift))
    (hscale : scale? (.ofNat digits) (shift + exponent) = some y) (hy : y.isFinite = true) :
    ∃ number, double? negative front back exponent = some number ∧
      number.toDouble = if negative then -y else y := by
  have hsigned : (if negative then -y else y).isFinite = true := by
    cases negative with
    | false => exact hy
    | true => exact Binary.isFinite_neg.trans hy
  refine ⟨.float _ hsigned, ?_, rfl⟩
  simp only [double?, hsignificand, hscale]
  exact dif_pos hsigned

end Number

namespace Binary

/-- The opposite of a number is narrowed to the opposite. -/
theorem toSingle_neg (y : Double) : (-y).toSingle = -y.toSingle := by
  cases y with
  | nan => rfl
  | signed negative j =>
    change convert binary32 (.signed (!negative) j : Double) =
      -convert binary32 (.signed negative j : Double)
    rw [convert, convert]
    split <;> rfl

theorem isZero_ofNat {n : Nat} (hpos : 0 < n) (hword : n < 2 ^ 64) :
    (ofNat n : Double).isZero = false := by
  rw [Bool.eq_false_iff, Ne, isZero_iff]
  intro hzero
  have hleast := (isRounded_ofNat hpos (hword.le.trans (by norm_num))).bounds.1
  have hposRat : (0 : ℚ) < n := mod_cast hpos
  rw [hzero.toRat (Nat.zero_le _), Format.units_zero, Nat.cast_zero, zero_div] at hleast
  linarith

end Binary

/-- A literal without a fraction is an integer, unless that is too large for 64 bits. -/
theorem Number.ofLiteral?_integer {n : Nat} {digits : List Char} (negative : Bool)
    (hvalue : Decimal.digitsValue digits = n) (hpos : 0 < n) :
    (n < 2 ^ 64 ∧ ∃ number, ofLiteral? negative digits none = some number ∧
      number.toDouble = if negative then -.ofNat n else .ofNat n) ∨
    2 ^ 63 ≤ n ∧ ofLiteral? negative digits none = double? negative digits [] 0 := by
  subst hvalue
  generalize hn : Decimal.digitsValue digits = n at hpos
  have hnonzero : ¬ (negative = true ∧ Decimal.digitsValue digits = 0) := fun h => by omega
  simp only [ofLiteral?]
  by_cases hrange : -0x8000000000000000 ≤ (if negative then -(n : Int) else n) ∧
      (if negative then -(n : Int) else n) < 0x10000000000000000
  · left
    rw [← hn] at hrange
    rw [dif_pos hrange, if_neg hnonzero]
    rw [hn] at hrange
    cases negative with
    | false =>
      rw [if_neg Bool.false_ne_true] at hrange
      refine ⟨by omega, _, rfl, ?_⟩
      simp [hn, Number.toDouble, Binary.ofNat]
    | true =>
      rw [if_pos rfl] at hrange
      refine ⟨by omega, _, rfl, ?_⟩
      simp [hn, Number.toDouble, Binary.ofInt_neg hpos]
  · right
    have hlarge : 2 ^ 63 ≤ n := by
      cases negative with
      | false =>
        rw [if_neg Bool.false_ne_true] at hrange
        omega
      | true =>
        rw [if_pos rfl] at hrange
        omega
    rw [← hn] at hrange
    exact ⟨hlarge, dif_neg hrange⟩

namespace Decimal

variable {d : Decimal} {parts : Json.NumberParts} {text : List Char} {k : Nat}

/-- **The parts of a printed number stand for what the decimal is read as.** -/
theorem Writes.ofLiteral? (h : d.Writes parts) (hliteral : Json.IsLiteral parts text)
    (hd : d.Prints k) (hk : k < binary32.infinity) (negative : Bool) :
    ∃ number y, Number.ofLiteral? negative parts.1 parts.2 = some number ∧ d.ReadsAs y ∧
      number.toDouble = if negative then -y else y := by
  have hfinite {y : Double} (hy : d.ReadsAs y) : y.isFinite = true := by
    obtain ⟨⟨j, hj, hordinal⟩, -⟩ := ReadsAs.near hd hk hy
    exact hordinal.isFinite hj
  have hdigits : d.digits < 2 ^ 64 := hd.digits_lt.trans (by norm_num)
  cases h with
  | @fraction whole fraction hexponent hvalue =>
    have hread := ReadsAs.divided hexponent
    have hplaces := hd.exponent_ge
    have hsome : fraction.length ≠ 0 := by
      cases hliteral with
      | fraction _ _ hnonempty => simpa using hnonempty
    have hscale := Number.scale?_divided (x := .ofNat d.digits) hsome
      (show fraction.length ≤ Number.maxPower by rw [Number.maxPower]; omega)
    rw [← hvalue] at hdigits
    have hsignificand := Number.significand_fraction hdigits
    rw [hvalue] at hsignificand
    obtain ⟨number, hnumber, hdouble⟩ := Number.double?_eq hsignificand hscale (hfinite hread)
    exact ⟨number, _, hnumber, hread, hdouble⟩
  | @whole e hexponent =>
    have hvalue : digitsValue (Nat.toDigits 10 d.digits ++ List.replicate e '0') =
        d.digits * 10 ^ e := by
      rw [digitsValue_append, digitsValue_replicate, List.length_replicate, digitsValue_toDigits,
        Nat.add_zero]
    rcases Number.ofLiteral?_integer negative hvalue (ReadsAs.scaled_pos hd e) with
      ⟨hword, number, hnumber, hdouble⟩ | ⟨hlarge, hliteral⟩
    · exact ⟨number, _, hnumber, .whole hexponent hword, hdouble⟩
    · rw [hliteral]
      obtain ⟨i, j, rfl, hsignificand, hword, hfull⟩ := Number.significand_whole hdigits e
      have hexponent' : d.exponent = i + j := by
        rw [hexponent]
        push_cast
        rfl
      have hread : d.ReadsAs (.ofNat (d.digits * 10 ^ i) * Number.powerOfTen j) := by
        refine .scaled hexponent' hword hfull ?_
        rw [toRat_of_whole hexponent]
        exact_mod_cast hlarge
      have hpower := ReadsAs.power_le hd hk hexponent' hfull
      have hscale := Number.scale?_multiplied
        (Binary.isZero_ofNat (ReadsAs.scaled_pos hd i) hword)
        (show j ≤ Number.maxPower by rw [Number.maxPower]; omega) (hfinite hread)
      obtain ⟨number, hnumber, hdouble⟩ := Number.double?_eq hsignificand hscale (hfinite hread)
      exact ⟨number, _, hnumber, hread, hdouble⟩

end Decimal

/-! ### Numbers of single precision -/

namespace Json

/-- Whether a text is a literal that stands, with a sign, for a number. -/
def Spells (negative : Bool) (text : List Char) (x : Single) : Prop :=
  ∃ parts number, IsLiteral parts text ∧
    Number.ofLiteral? negative parts.1 parts.2 = some number ∧ number.toDouble.toSingle = x

theorem spells_zero (negative : Bool) : Spells negative ['0'] (.ofOrdinal negative 0) := by
  have hliteral : IsLiteral (['0'], none) ['0'] :=
    .whole ⟨@isDigit_replicate 1, by decide, fun _ => rfl⟩
  cases negative with
  | false =>
    have hnumber : Number.ofLiteral? false ['0'] none = some (.int 0 (by decide)) := by
      decide +kernel
    exact ⟨_, _, hliteral, hnumber, by decide +kernel⟩
  | true =>
    have hzero : (Binary.ofNat 0 : Double).isZero = true := by decide +kernel
    have hscale : Number.scale? (.ofNat 0) (0 + 0) = some (.ofNat 0) := by
      rw [Int.add_zero, Number.scale?.eq_def]
      exact if_pos hzero
    have hsignificand : Number.significand ['0'] [] = (0, 0) := by decide
    obtain ⟨number, hnumber, hdouble⟩ : ∃ number, Number.double? true ['0'] [] 0 = some number ∧
        number.toDouble = -.ofNat 0 := Number.double?_eq hsignificand hscale (by decide +kernel)
    refine ⟨_, _, hliteral, hnumber, ?_⟩
    rw [hdouble, Binary.toSingle_neg]
    decide +kernel

theorem spells_shortest {k : Nat} (hpos : 0 < k) (hk : k < binary32.infinity) (negative : Bool) :
    Spells negative (plainStyle.lay (binary32.shortest .upward k)) (.ofOrdinal negative k) := by
  have hd := Format.prints_shortest .upward hpos hk
  obtain ⟨parts, hwrites, hliteral⟩ := Decimal.exists_writes hd.digits_ne_zero
  obtain ⟨number, y, hnumber, hread, hdouble⟩ := hwrites.ofLiteral? hliteral hd hk negative
  refine ⟨parts, number, hliteral, hnumber, ?_⟩
  rw [hdouble]
  cases negative with
  | false => exact hread.toSingle_eq hpos hk
  | true =>
    rw [if_pos rfl, Binary.toSingle_neg, hread.toSingle_eq hpos hk]
    rfl

/-- A finite number is printed as its sign and a literal that stands for it. -/
theorem exists_spells {x : Single} (hx : x.isFinite = true) :
    ∃ negative text, (plainStyle.format x).toList = (if negative then ['-'] else []) ++ text ∧
      Spells negative text x := by
  cases x with
  | nan => cases hx
  | signed negative k =>
    have hk := Binary.isFinite_signed_iff.mp hx
    have hordinal : (.signed negative k : Single) = .ofOrdinal negative k := by
      rw [Binary.ofOrdinal]
      congr
      exact Fin.ext (Nat.min_eq_left hk.le).symm
    rw [NumberStyle.format, if_neg hk.ne]
    by_cases hzero : k.val = 0
    · rw [if_pos hzero, String.toList_ofList]
      refine ⟨negative, _, rfl, ?_⟩
      rw [hordinal, hzero]
      exact spells_zero negative
    · rw [if_neg hzero, String.toList_ofList]
      refine ⟨negative, _, rfl, ?_⟩
      rw [hordinal]
      exact spells_shortest (Nat.pos_of_ne_zero hzero) hk negative

/-- **A number that is printed is read as it was**, and its text is read to its end. -/
theorem readNumber?_format {x : Single} (hx : x.isFinite = true) {rest : List Char}
    (hrest : EndsNumber rest) :
    ∃ c tail number, (plainStyle.format x).toList = c :: tail ∧ (c.isDigit = true ∨ c = '-') ∧
      readNumber? (c :: tail ++ rest) = some (number, rest) ∧ number.toDouble.toSingle = x := by
  obtain ⟨negative, text, hformat, parts, number, hliteral, hnumber, hsingle⟩ :=
    exists_spells hx
  have hread : readUnsigned? negative (text ++ rest) = some (number, rest) := by
    simp [readUnsigned?, hliteral.isUnsigned.readParts? hrest, hnumber]
  cases negative with
  | true => exact ⟨'-', text, number, hformat, .inr rfl, hread, hsingle⟩
  | false =>
    obtain ⟨c, tail, rfl, hc⟩ := hliteral.isUnsigned.exists_cons
    refine ⟨c, tail, number, hformat, .inl hc, ?_, hsingle⟩
    rw [List.cons_append] at hread ⊢
    rw [readNumber?]
    · exact hread
    · rintro text heq
      cases heq
      cases hc

end Json

end KnowledgeSearch
