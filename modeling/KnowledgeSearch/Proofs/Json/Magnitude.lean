/-
  KnowledgeSearch/Proofs/Json/Magnitude.lean
  ==========================================
  **Numbers rounded once and twice.**

  The text of a number writes a sign and a magnitude (`Json.Literal`).  Outside of JSON a single
  precision number is the nearest one to that; a JSON number is a double first and is narrowed.
  The sign is the same either way (`Number.ofLiteral?_signed`), so what decides whether both give
  the same number is whether a middle separates the magnitude from that of the double
  (`Json.Literal.once_eq_twice_iff`).
-/
import KnowledgeSearch.Proofs.Json.NumberText
import KnowledgeSearch.Proofs.Numeric.Integer
import KnowledgeSearch.Proofs.Numeric.Nearest

namespace KnowledgeSearch

open Format (binary32)

/-! ### Signs -/

namespace Binary

variable {F : Format} {x y : Binary F}

/-- Whether a number has no minus sign. -/
def Unsigned (x : Binary F) : Prop := ∀ negative k, x = .signed negative k → negative = false

theorem unsigned_ofOrdinal (a : Nat) : (ofOrdinal false a : Binary F).Unsigned := by
  rintro negative k ⟨⟩
  rfl

theorem unsigned_nan : (.nan : Binary F).Unsigned := by
  rintro negative k ⟨⟩

theorem Unsigned.mul (hx : x.Unsigned) (hy : y.Unsigned) : (x * y).Unsigned := by
  cases x with
  | nan => exact unsigned_nan
  | signed s a =>
    cases y with
    | nan => exact unsigned_nan
    | signed t b =>
      obtain rfl := hx s a rfl
      obtain rfl := hy t b rfl
      change (Binary.mul (.signed false a) (.signed false b)).Unsigned
      rw [Binary.mul]
      split
      · split
        · exact unsigned_nan
        · exact unsigned_ofOrdinal _
      · exact unsigned_ofOrdinal _

theorem Unsigned.div (hx : x.Unsigned) (hy : y.Unsigned) : (x / y).Unsigned := by
  cases x with
  | nan => exact unsigned_nan
  | signed s a =>
    cases y with
    | nan => exact unsigned_nan
    | signed t b =>
      obtain rfl := hx s a rfl
      obtain rfl := hy t b rfl
      change (Binary.div (.signed false a) (.signed false b)).Unsigned
      rw [Binary.div]
      repeat' split
      all_goals first
        | exact unsigned_nan
        | exact unsigned_ofOrdinal _

end Binary

namespace Number

variable {negative : Bool} {whole fraction : List Char} {exponent : Int} {n : Number}

theorem unsigned_powerOfTen (p : Nat) : (powerOfTen p).Unsigned := by
  rw [powerOfTen, Binary.ofDecimal]
  repeat' split
  all_goals exact Binary.unsigned_ofOrdinal _

theorem unsigned_divideByPower {x : Double} (hx : x.Unsigned) (p : Nat) :
    (divideByPower x p).Unsigned := by
  fun_induction divideByPower x p with
  | case1 x p => exact hx.div (unsigned_powerOfTen p)
  | case2 => exact hx
  | case3 x p _ _ ih => exact ih (hx.div (unsigned_powerOfTen maxPower))

theorem unsigned_scale? {x y : Double} (hx : x.Unsigned) (h : scale? x exponent = some y) :
    y.Unsigned := by
  cases exponent with
  | negSucc e =>
    cases h
    exact unsigned_divideByPower hx _
  | ofNat e =>
    rw [scale?] at h
    split at h
    · cases h
      exact hx
    split at h
    · dsimp only at h
      split at h
      · cases h
        exact hx.mul (unsigned_powerOfTen e)
      · cases h
    · cases h

theorem double?_signed (h : double? negative whole fraction exponent = some n) :
    ∃ k, n.toDouble = .signed negative k := by
  simp only [double?] at h
  split at h
  · cases h
  rename_i x hscale
  have hx : x.Unsigned := unsigned_scale? (Binary.unsigned_ofOrdinal _) hscale
  generalize hsigned : (if negative = true then -x else x) = y at h
  split at h
  · rename_i hfinite
    cases h
    subst hsigned
    cases x with
    | nan => cases negative <;> cases hfinite
    | signed s k =>
      obtain rfl := hx s k rfl
      refine ⟨k, ?_⟩
      cases negative <;> rfl
  · cases h

/-- **A literal has the sign that it is written with**, a zero too. -/
theorem ofLiteral?_signed {more : Option (List Char × Int)}
    (h : ofLiteral? negative whole more = some n) : ∃ k, n.toDouble = .signed negative k := by
  cases more with
  | some more => exact double?_signed h
  | none =>
    simp only [ofLiteral?] at h
    generalize hvalue : (if negative = true then -(Decimal.digitsValue whole : Int)
      else Decimal.digitsValue whole) = value at h
    split at h
    · split at h
      · exact double?_signed h
      · rename_i hzero
        cases h
        have hsign : decide (value < 0) = negative := by
          subst hvalue
          cases negative with
          | false => simp
          | true => simpa using Nat.pos_of_ne_zero fun h => hzero ⟨rfl, h⟩
        rw [toDouble, Binary.ofInt, hsign]
        exact ⟨_, rfl⟩
    · exact double?_signed h

theorem isFinite_toDouble (n : Number) : n.toDouble.isFinite = true := by
  cases n with
  | int n hn => exact Binary.isFinite_ofInt (by omega)
  | float x hx => exact hx

end Number

/-! ### Literals -/

namespace Json

/-- The text of a number within the range of double precision, with the sign and the magnitude
    that it writes and the number that it is read as. -/
structure Literal where
  text : String
  negative : Bool
  parts : NumberParts
  number : Number
  grammar : IsNumber negative parts text.toList
  read : Number.ofLiteral? negative parts.1 parts.2 = some number

/-- **Texts that are read as numbers to their ends are literals.** -/
theorem exists_literals {texts : List String}
    (h : ∀ text ∈ texts, ∃ n, readNumber? text.toList = some (n, [])) :
    ∃ literals : List Literal, literals.map Literal.text = texts := by
  induction texts with
  | nil => exact ⟨[], rfl⟩
  | cons text texts ih =>
    obtain ⟨⟨n, hn⟩, htexts⟩ := List.forall_mem_cons.mp h
    obtain ⟨negative, parts, hgrammar, hread⟩ := readNumber?_sound hn
    obtain ⟨literals, rfl⟩ := ih htexts
    exact ⟨⟨text, negative, parts, n, hgrammar, hread⟩ :: literals, rfl⟩

namespace Literal

/-- A text is one literal at most. -/
theorem eq_of_text {l m : Literal} (h : l.text = m.text) : l = m := by
  obtain ⟨text, negative, parts, n, hgrammar, hread⟩ := l
  obtain ⟨_, _, _, n', hgrammar', hread'⟩ := m
  cases h
  obtain ⟨rfl, rfl⟩ := hgrammar.unique hgrammar'
  obtain rfl : n = n' := Option.some.inj (hread.symm.trans hread')
  rfl

/-- A literal is read as its number. -/
theorem readNumber? (l : Literal) : Json.readNumber? l.text.toList = some (l.number, []) := by
  have hread := l.grammar.readNumber? l.read endsNumber_nil
  rwa [List.append_nil] at hread

/-- The magnitude that is written. -/
def magnitude (l : Literal) : ℚ := l.parts.decimal.toRat

/-- The single precision number that is nearest to what is written. -/
def once (l : Literal) : Single :=
  .ofDecimal l.negative l.parts.decimal.digits l.parts.decimal.exponent

/-- The single precision number that the double is narrowed to. -/
def twice (l : Literal) : Single := l.number.toDouble.toSingle

theorem isNearest_once (l : Literal) : l.once.IsNearest l.negative l.magnitude :=
  Binary.isNearest_ofDecimal l.parts.decimal

theorem isNearest_twice (l : Literal) :
    l.twice.IsNearest l.negative |l.number.toDouble.toRat| := by
  obtain ⟨k, hk⟩ := Number.ofLiteral?_signed l.read
  exact Binary.isNearest_toSingle hk l.number.isFinite_toDouble

/-- **Rounding twice gives another number exactly if a middle separates what is written from the
    double.** -/
theorem once_eq_twice_iff (l : Literal) :
    l.once = l.twice ↔ binary32.NoMiddleBetween l.magnitude |l.number.toDouble.toRat| :=
  l.isNearest_once.eq_iff l.isNearest_twice

end Literal

/-- A literal with few digits, some of them behind the point, is these divided by a power of ten. -/
theorem exists_literal_fraction {whole fraction : List Char} {n : Nat} {y : Double}
    (hwhole : IsWhole whole) (hdigits : ∀ c ∈ fraction, c.isDigit = true)
    (hnonempty : fraction ≠ []) (hlength : fraction.length ≤ Number.maxPower)
    (hvalue : Decimal.digitsValue (whole ++ fraction) = n) (hword : n < 2 ^ 64)
    (hy : .ofNat n / Number.powerOfTen fraction.length = y) (hfinite : y.isFinite = true) :
    ∃ l : Literal, l.text = String.ofList (whole ++ '.' :: fraction) ∧
      l.once = .ofDecimal false n (-fraction.length) ∧ l.number.toDouble = y := by
  subst hvalue hy
  have hgrammar : IsNumber false (whole, some (fraction, 0))
      (String.ofList (whole ++ '.' :: fraction)).toList := by
    have hunsigned := IsUnsigned.mk hwhole (.digits hdigits hnonempty) .absent
    rw [List.append_nil] at hunsigned
    rw [String.toList_ofList]
    exact .positive hunsigned
  obtain ⟨n, hn, hdouble⟩ : ∃ n, Number.double? false whole fraction 0 = some n ∧ n.toDouble = _ :=
    Number.double?_eq (Number.significand_fraction hword)
      (Number.scale?_divided (mt List.length_eq_zero_iff.mp hnonempty) hlength) hfinite
  refine ⟨⟨_, false, (whole, some (fraction, 0)), n, hgrammar, hn⟩, rfl, ?_, hdouble⟩
  simp [Literal.once, NumberParts.decimal]

theorem exists_literal_half : ∃ l : Literal, l.text = "0.5" ∧ l.once = l.twice := by
  have hdigits : (.ofNat 5 : Double) = .ofOrdinal false (1025 * 2 ^ 52 + 2 ^ 50) := by
    decide +kernel
  have hpower : Number.powerOfTen 1 = .ofOrdinal false (1026 * 2 ^ 52 + 2 ^ 50) := by
    decide +kernel
  have hquotient : (.ofNat 5 / Number.powerOfTen 1 : Double) =
      .ofOrdinal false (1022 * 2 ^ 52) := by
    rw [hdigits, hpower]
    decide +kernel
  have hwhole : IsWhole ['0'] := ⟨List.all_eq_true.mp (by decide), by decide, by decide⟩
  have hfraction : ∀ c ∈ ['5'], c.isDigit = true := List.all_eq_true.mp (by decide)
  obtain ⟨l, htext, honce, hdouble⟩ := exists_literal_fraction hwhole hfraction (by decide)
    (by decide) (by decide) (by decide) hquotient (by decide +kernel)
  have hone : l.once = .ofOrdinal false (126 * 2 ^ 23) := honce.trans (by decide +kernel)
  have htwo : l.twice = .ofOrdinal false (126 * 2 ^ 23) := by
    rw [Literal.twice, hdouble]
    decide +kernel
  exact ⟨l, htext, hone.trans htwo.symm⟩

/-- The double of this literal is the middle of two single precision numbers, and the literal lies
    above it. -/
theorem exists_literal_near_middle : ∃ l : Literal, l.text = "16777217.0000000001" ∧
    l.once = .ofInt 16777218 ∧ l.twice = .ofInt 16777216 := by
  have hdigits : (.ofNat 167772170000000001 : Double) = .ofOrdinal false 4864626878245265184 := by
    decide +kernel
  have hpower : Number.powerOfTen 10 = .ofOrdinal false 4756540486875873280 := by decide +kernel
  have hquotient : (.ofNat 167772170000000001 / Number.powerOfTen 10 : Double) =
      .ofOrdinal false 4715268810125344768 := by
    rw [hdigits, hpower]
    decide +kernel
  have hwhole : IsWhole "16777217".toList :=
    ⟨List.all_eq_true.mp (by decide), by decide, by decide⟩
  have hfraction : ∀ c ∈ "0000000001".toList, c.isDigit = true :=
    List.all_eq_true.mp (by decide)
  obtain ⟨l, htext, honce, hdouble⟩ := exists_literal_fraction hwhole hfraction (by decide)
    (by decide) (by decide) (by decide) hquotient (by decide +kernel)
  have hless : (.ofInt 16777216 : Single) = .ofOrdinal false 1266679808 := by decide +kernel
  have hgreater : (.ofInt 16777218 : Single) = .ofOrdinal false 1266679809 := by decide +kernel
  have hone : l.once = .ofOrdinal false 1266679809 := honce.trans (by decide +kernel)
  have htwo : l.twice = .ofOrdinal false 1266679808 := by
    rw [Literal.twice, hdouble]
    decide +kernel
  exact ⟨l, htext, hone.trans hgreater.symm, htwo.trans hless.symm⟩

end Json

end KnowledgeSearch
