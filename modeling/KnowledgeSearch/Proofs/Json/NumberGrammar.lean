/-
  KnowledgeSearch/Proofs/Json/NumberGrammar.lean
  ==============================================
  **The grammar of numbers.**

  A number without its sign is digits, perhaps a fraction, perhaps an exponent
  (`Json.IsUnsigned`).  The reader of JSON accepts exactly these texts (`Json.readParts?_sound`,
  `Json.IsUnsigned.readParts?`) and stops where they end, so a number is read alike wherever it
  stands.

  The other reader of numbers, that of texts which are no JSON, takes such a text as the decimal
  that it writes (`Json.IsUnsigned.ofChars?`) and rounds that to the format that is wanted
  (`Json.IsNumber.ofChars?`).
-/
import KnowledgeSearch.Json.Parser
import KnowledgeSearch.Proofs.Text.Class
import Mathlib.Order.Basic

namespace KnowledgeSearch

namespace Json

/-! ### The grammar -/

/-- Whether a number ends here: what follows does not go on with it. -/
def EndsNumber (rest : List Char) : Prop :=
  ∀ c ∈ rest.head?, c.isDigit = false ∧ c ≠ '.' ∧ c ≠ 'e' ∧ c ≠ 'E'

/-- Whether characters may stand before the point of a number. -/
structure IsWhole (whole : List Char) : Prop where
  digits : ∀ c ∈ whole, c.isDigit = true
  nonempty : whole ≠ []
  leading : whole.head? = some '0' → whole.length = 1

/-- The texts of an optional fraction. -/
inductive IsFraction : Option (List Char) → List Char → Prop where
  | absent : IsFraction none []
  | digits {fraction : List Char} (hdigits : ∀ c ∈ fraction, c.isDigit = true)
      (hnonempty : fraction ≠ []) : IsFraction (some fraction) ('.' :: fraction)

/-- The signs that an exponent may have, and whether it is negative then. -/
inductive IsSign : Bool → List Char → Prop where
  | absent : IsSign false []
  | plus : IsSign false ['+']
  | minus : IsSign true ['-']

/-- The integer with the given sign and digits. -/
def signedValue (negative : Bool) (digits : List Char) : Int :=
  if negative then -(Decimal.digitsValue digits : Int) else Decimal.digitsValue digits

/-- The texts of an optional exponent. -/
inductive IsExponent : Option Int → List Char → Prop where
  | absent : IsExponent none []
  | digits {mark : Char} {negative : Bool} {sign digits : List Char}
      (hmark : mark = 'e' ∨ mark = 'E') (hsign : IsSign negative sign)
      (hdigits : ∀ c ∈ digits, c.isDigit = true) (hnonempty : digits ≠ []) :
      IsExponent (some (signedValue negative digits)) (mark :: (sign ++ digits))

/-- What is kept of a fraction and an exponent. -/
def moreParts : Option (List Char) → Option Int → Option (List Char × Int)
  | none, none => none
  | fraction?, exponent? => some (fraction?.getD [], exponent?.getD 0)

/-- The texts of numbers without a sign, with their parts. -/
inductive IsUnsigned : NumberParts → List Char → Prop where
  | mk {whole fractionText exponentText : List Char} {fraction? : Option (List Char)}
      {exponent? : Option Int} (hwhole : IsWhole whole)
      (hfraction : IsFraction fraction? fractionText)
      (hexponent : IsExponent exponent? exponentText) :
      IsUnsigned (whole, moreParts fraction? exponent?)
        (whole ++ (fractionText ++ exponentText))

/-- The decimal that the parts of a number write. -/
def NumberParts.decimal (parts : NumberParts) : Decimal :=
  let more := parts.2.getD ([], 0)
  ⟨Decimal.digitsValue (parts.1 ++ more.1), more.2 - more.1.length⟩

/-! ### Fractions and exponents -/

/-- Reads the fraction of a number, if there is one. -/
def readFraction? : List Char → Option (Option (List Char) × List Char)
  | '.' :: more =>
    if (Decimal.takeDigits more).1.isEmpty then none
    else some (some (Decimal.takeDigits more).1, (Decimal.takeDigits more).2)
  | other => some (none, other)

/-- Reads the exponent of a number and the letter before it, if they are there. -/
def readScale? : List Char → Option (Option Int × List Char)
  | c :: more =>
    if c = 'e' ∨ c = 'E' then (readExponent? more).map fun p => (some p.1, p.2)
    else some (none, c :: more)
  | [] => some (none, [])

variable {whole fraction digits sign rest text front : List Char} {parts : NumberParts}
  {fraction? : Option (List Char)} {exponent? : Option Int} {negative : Bool}

/-- The parts of a number are read one after the other. -/
theorem readParts?_eq (text : List Char) :
    readParts? text =
      if (text.takeWhile Char.isDigit).isEmpty ||
          ((text.takeWhile Char.isDigit).length > 1 &&
            (text.takeWhile Char.isDigit).head? == some '0') then none
      else (readFraction? (text.dropWhile Char.isDigit)).bind fun p =>
        (readScale? p.2).map fun q => ((text.takeWhile Char.isDigit, moreParts p.1 q.1), q.2) := by
  simp only [readParts?, Decimal.takeDigits]
  refine if_congr Iff.rfl rfl ?_
  generalize text.dropWhile Char.isDigit = behind
  fun_cases readFraction? behind with
  | case1 more hempty =>
    simp only [Decimal.takeDigits] at hempty
    simp [hempty]
  | case2 more hempty =>
    simp only [Decimal.takeDigits] at hempty
    simp only [hempty, Decimal.takeDigits, Bool.false_eq_true, if_false]
    cases more.dropWhile Char.isDigit with
    | nil => rfl
    | cons c exponentText =>
      by_cases hmark : c = 'e' ∨ c = 'E'
      · simp only [readScale?, if_pos hmark, Option.bind_some, Option.bind_eq_bind]
        cases readExponent? exponentText <;> rfl
      · simp [readScale?, if_neg hmark, moreParts]
  | case3 behind hpoint =>
    cases behind with
    | nil => rfl
    | cons c exponentText =>
      by_cases hmark : c = 'e' ∨ c = 'E'
      · simp only [readScale?, if_pos hmark, Option.bind_some, Option.bind_eq_bind]
        cases readExponent? exponentText <;> rfl
      · simp [readScale?, if_neg hmark, moreParts]

/-- All digits are taken, up to what is none. -/
theorem takeDigits_append (hdigits : ∀ c ∈ digits, c.isDigit = true)
    (hrest : ∀ c ∈ rest.head?, c.isDigit = false) :
    Decimal.takeDigits (digits ++ rest) = (digits, rest) := by
  obtain ⟨htake, hdrop⟩ := Text.parts_of_class rest hdigits hrest
  rw [Decimal.takeDigits, htake, hdrop]

theorem IsWhole.accepted (h : IsWhole whole) :
    ¬ (whole.isEmpty || (whole.length > 1 && whole.head? == some '0')) = true := by
  have hleading := h.leading
  simp only [Bool.or_eq_true, List.isEmpty_iff, h.nonempty, Bool.and_eq_true, decide_eq_true_eq,
    beq_iff_eq, false_or, not_and]
  intro hlong hzero
  exact absurd (hleading hzero) (Nat.ne_of_gt hlong)

/-- The digits that are taken are digits, and the rest was behind them. -/
theorem takeDigits_spec (text : List Char) :
    text = (Decimal.takeDigits text).1 ++ (Decimal.takeDigits text).2 ∧
      ∀ c ∈ (Decimal.takeDigits text).1, c.isDigit = true :=
  ⟨List.takeWhile_append_dropWhile.symm, List.all_eq_true.mp List.all_takeWhile⟩

theorem endsNumber_nil : EndsNumber [] := by
  rintro c ⟨⟩

theorem ne_of_isDigit {c a : Char} (hc : c.isDigit = true) (ha : a.isDigit = false) : c ≠ a := by
  rintro rfl
  rw [hc] at ha
  cases ha

/-- An exponent is read from its sign on. -/
theorem exists_sign (text : List Char) : ∃ negative sign behind, text = sign ++ behind ∧
    IsSign negative sign ∧ readExponent? text =
      if (Decimal.takeDigits behind).1.isEmpty then none
      else some (signedValue negative (Decimal.takeDigits behind).1,
        (Decimal.takeDigits behind).2) := by
  cases text with
  | nil => exact ⟨false, [], [], rfl, .absent, rfl⟩
  | cons c text =>
    by_cases hplus : c = '+'
    · subst hplus
      exact ⟨false, _, text, rfl, .plus, rfl⟩
    by_cases hminus : c = '-'
    · subst hminus
      exact ⟨true, _, text, rfl, .minus, rfl⟩
    exact ⟨false, [], c :: text, rfl, .absent, by simp [readExponent?, hplus, hminus, signedValue]⟩

theorem readExponent?_sign (hsign : IsSign negative sign)
    (hdigits : ∀ c ∈ digits, c.isDigit = true) (hnonempty : digits ≠ [])
    (hrest : ∀ c ∈ rest.head?, c.isDigit = false) :
    readExponent? (sign ++ (digits ++ rest)) = some (signedValue negative digits, rest) := by
  have htaken := takeDigits_append hdigits hrest
  cases hsign with
  | plus => simp [readExponent?, htaken, hnonempty, signedValue]
  | minus => simp [readExponent?, htaken, hnonempty, signedValue]
  | absent =>
    obtain ⟨c, digits, rfl⟩ := List.exists_cons_of_ne_nil hnonempty
    have hc := hdigits c List.mem_cons_self
    have hplus : c ≠ '+' := ne_of_isDigit hc rfl
    have hminus : c ≠ '-' := ne_of_isDigit hc rfl
    rw [List.cons_append] at htaken
    simp [readExponent?, htaken, hplus, hminus, signedValue]

/-- What is read as a fraction is one. -/
theorem readFraction?_sound (h : readFraction? text = some (fraction?, rest)) :
    ∃ front, text = front ++ rest ∧ IsFraction fraction? front := by
  fun_cases readFraction? text with
  | case1 more hempty =>
    rw [readFraction?, if_pos hempty] at h
    cases h
  | case2 more hempty =>
    rw [readFraction?, if_neg hempty] at h
    cases h
    obtain ⟨htext, hdigits⟩ := takeDigits_spec more
    exact ⟨_, congrArg _ htext, .digits hdigits (by simpa using hempty)⟩
  | case3 text hpoint =>
    rw [readFraction?] at h
    · cases h
      exact ⟨[], rfl, .absent⟩
    · exact hpoint

/-- What is read as an exponent is one. -/
theorem readScale?_sound (h : readScale? text = some (exponent?, rest)) :
    ∃ front, text = front ++ rest ∧ IsExponent exponent? front := by
  fun_cases readScale? text with
  | case1 mark more hmark =>
    obtain ⟨negative, sign, behind, rfl, hsign, hread⟩ := exists_sign more
    rw [readScale?, if_pos hmark, hread] at h
    split at h
    · cases h
    · rename_i hempty
      cases h
      obtain ⟨htext, hdigits⟩ := takeDigits_spec behind
      refine ⟨_, ?_, .digits hmark hsign hdigits (by simpa using hempty)⟩
      rw [List.cons_append, List.append_assoc, ← htext]
  | case2 c more hmark =>
    rw [readScale?, if_neg hmark] at h
    cases h
    exact ⟨[], rfl, .absent⟩
  | case3 =>
    cases h
    exact ⟨[], rfl, .absent⟩

/-- **What is read as the parts of a number is a text of the grammar.** -/
theorem readParts?_sound (h : readParts? text = some (parts, rest)) :
    ∃ front, text = front ++ rest ∧ IsUnsigned parts front := by
  obtain ⟨htext, hdigits⟩ := takeDigits_spec text
  simp only [Decimal.takeDigits] at htext hdigits
  rw [readParts?_eq] at h
  split at h
  · cases h
  rename_i haccepted
  simp only [Bool.or_eq_true, List.isEmpty_iff, Bool.and_eq_true, decide_eq_true_eq, beq_iff_eq,
    not_or, not_and] at haccepted
  have hwhole : IsWhole (text.takeWhile Char.isDigit) := by
    refine ⟨hdigits, haccepted.1, fun hzero => ?_⟩
    have hpos := List.length_pos_iff.mpr haccepted.1
    by_contra hlong
    exact haccepted.2 (by omega) hzero
  obtain ⟨p, hfraction, h⟩ := Option.bind_eq_some_iff.mp h
  obtain ⟨q, hexponent, h⟩ := Option.map_eq_some_iff.mp h
  cases h
  obtain ⟨fractionText, hbehind, hfraction⟩ := readFraction?_sound hfraction
  obtain ⟨exponentText, hrest, hexponent⟩ := readScale?_sound hexponent
  refine ⟨_, ?_, .mk hwhole hfraction hexponent⟩
  rw [List.append_assoc, List.append_assoc, ← hrest, ← hbehind, ← htext]

/-! ### Locality -/

theorem IsFraction.readFraction? (h : IsFraction fraction? text)
    (hrest : ∀ c ∈ rest.head?, c.isDigit = false ∧ c ≠ '.') :
    Json.readFraction? (text ++ rest) = some (fraction?, rest) := by
  cases h with
  | absent =>
    rw [List.nil_append, Json.readFraction?]
    rintro more rfl
    exact (hrest '.' rfl).2 rfl
  | @digits fraction hdigits hnonempty =>
    rw [List.cons_append, Json.readFraction?,
      takeDigits_append hdigits fun c hc => (hrest c hc).1]
    simp [hnonempty]

theorem IsExponent.readScale? (h : IsExponent exponent? text) (hrest : EndsNumber rest) :
    Json.readScale? (text ++ rest) = some (exponent?, rest) := by
  cases h with
  | absent =>
    cases rest with
    | nil => rfl
    | cons c rest =>
      obtain ⟨-, -, he, hE⟩ := hrest c rfl
      exact if_neg (not_or.mpr ⟨he, hE⟩)
  | @digits mark negative sign digits hmark hsign hdigits hnonempty =>
    rw [List.cons_append, List.append_assoc, Json.readScale?, if_pos hmark,
      readExponent?_sign hsign hdigits hnonempty fun c hc => (hrest c hc).1]
    rfl

/-- An exponent goes on with neither digits nor a fraction. -/
theorem IsExponent.head (h : IsExponent exponent? text) (hrest : EndsNumber rest) :
    ∀ c ∈ (text ++ rest).head?, c.isDigit = false ∧ c ≠ '.' := by
  cases h with
  | absent => exact fun c hc => ⟨(hrest c hc).1, (hrest c hc).2.1⟩
  | digits hmark =>
    rintro _ ⟨⟩
    rcases hmark with rfl | rfl <;> decide

/-- A fraction does not go on with the digits before it. -/
theorem IsFraction.head (h : IsFraction fraction? text)
    (hrest : ∀ c ∈ rest.head?, c.isDigit = false) :
    ∀ c ∈ (text ++ rest).head?, c.isDigit = false := by
  cases h with
  | absent => exact hrest
  | digits =>
    rintro _ ⟨⟩
    rfl

/-- **A text of the grammar is read to its end**, wherever it stands. -/
theorem IsUnsigned.readParts? (h : IsUnsigned parts text) (hrest : EndsNumber rest) :
    Json.readParts? (text ++ rest) = some (parts, rest) := by
  obtain ⟨hwhole, hfraction, hexponent⟩ := h
  rename_i whole fractionText exponentText fraction? exponent?
  have hbehind := hexponent.head hrest
  obtain ⟨htake, hdrop⟩ := Text.parts_of_class (fractionText ++ (exponentText ++ rest))
    hwhole.digits (hfraction.head fun c hc => (hbehind c hc).1)
  rw [List.append_assoc, List.append_assoc, readParts?_eq, htake, hdrop, if_neg hwhole.accepted,
    hfraction.readFraction? hbehind, Option.bind_some, hexponent.readScale? hrest]
  rfl

/-! ### Decimals -/

theorem IsSign.integerOfChars? (hsign : IsSign negative sign)
    (hdigits : ∀ c ∈ digits, c.isDigit = true) (hnonempty : digits ≠ []) :
    Decimal.integerOfChars? (sign ++ digits) = some (signedValue negative digits) := by
  have hall : digits.all Char.isDigit = true := List.all_eq_true.mpr hdigits
  cases hsign with
  | plus => simp [Decimal.integerOfChars?, hnonempty, hall, signedValue]
  | minus => simp [Decimal.integerOfChars?, hnonempty, hall, signedValue]
  | absent =>
    obtain ⟨c, digits, rfl⟩ := List.exists_cons_of_ne_nil hnonempty
    have hc := hdigits c List.mem_cons_self
    have hplus : c ≠ '+' := ne_of_isDigit hc rfl
    have hminus : c ≠ '-' := ne_of_isDigit hc rfl
    rw [List.all_cons] at hall
    simp [Decimal.integerOfChars?, hall, hplus, hminus, signedValue]

/-- **A text of the grammar is the decimal that its parts write.** -/
theorem IsUnsigned.ofChars? (h : IsUnsigned parts text) :
    Decimal.ofChars? text = some parts.decimal := by
  obtain ⟨hwhole, hfraction, hexponent⟩ := h
  rename_i whole fractionText exponentText fraction? exponent?
  have hbehind := hexponent.head endsNumber_nil
  rw [List.append_nil] at hbehind
  have htaken := takeDigits_append hwhole.digits (hfraction.head fun c hc => (hbehind c hc).1)
  rw [Decimal.ofChars?, htaken]
  cases hfraction with
  | absent =>
    cases hexponent with
    | absent => simp [hwhole.nonempty, NumberParts.decimal, moreParts]
    | @digits mark _ _ _ hmark hsign hdigits hnonempty =>
      have hpoint := (hbehind mark rfl).2
      simp [hwhole.nonempty, hmark, hpoint, hsign.integerOfChars? hdigits hnonempty,
        NumberParts.decimal, moreParts]
  | digits hdigits hnonempty =>
    have htaken := takeDigits_append hdigits fun c hc => (hbehind c hc).1
    cases hexponent with
    | absent =>
      rw [List.append_nil] at htaken
      simp [hwhole.nonempty, htaken, NumberParts.decimal, moreParts]
    | digits hmark hsign hdigits hnonempty =>
      simp [hwhole.nonempty, htaken, hmark, hsign.integerOfChars? hdigits hnonempty,
        NumberParts.decimal, moreParts]

/-! ### Characters -/

/-- Whether a character may stand in a number. -/
def isNumberChar (c : Char) : Bool := c.isDigit || c ∈ ['.', 'e', 'E', '+', '-']

theorem isNumberChar_of_isDigit {c : Char} (hc : c.isDigit = true) : isNumberChar c = true := by
  rw [isNumberChar, hc, Bool.true_or]

/-- A text of the grammar begins with a digit. -/
theorem IsUnsigned.exists_cons (h : IsUnsigned parts text) :
    ∃ c tail, text = c :: tail ∧ c.isDigit = true := by
  obtain ⟨hwhole⟩ := h
  rename_i whole fractionText exponentText fraction? exponent?
  obtain ⟨c, more, rfl⟩ := List.exists_cons_of_ne_nil hwhole.nonempty
  exact ⟨c, _, rfl, hwhole.digits c List.mem_cons_self⟩

theorem IsFraction.isNumberChar (h : IsFraction fraction? text) :
    ∀ c ∈ text, isNumberChar c = true := by
  cases h with
  | absent => simp
  | digits hdigits =>
    rw [List.forall_mem_cons]
    exact ⟨rfl, fun c hc => isNumberChar_of_isDigit (hdigits c hc)⟩

theorem IsSign.isNumberChar (h : IsSign negative sign) : ∀ c ∈ sign, isNumberChar c = true := by
  cases h with
  | absent => simp
  | plus => exact List.forall_mem_singleton.mpr rfl
  | minus => exact List.forall_mem_singleton.mpr rfl

theorem IsExponent.isNumberChar (h : IsExponent exponent? text) :
    ∀ c ∈ text, isNumberChar c = true := by
  cases h with
  | absent => simp
  | digits hmark hsign hdigits =>
    rw [List.forall_mem_cons, List.forall_mem_append]
    refine ⟨?_, hsign.isNumberChar, fun c hc => isNumberChar_of_isDigit (hdigits c hc)⟩
    rcases hmark with rfl | rfl <;> rfl

theorem IsUnsigned.isNumberChar (h : IsUnsigned parts text) :
    ∀ c ∈ text, isNumberChar c = true := by
  obtain ⟨hwhole, hfraction, hexponent⟩ := h
  rw [List.forall_mem_append, List.forall_mem_append]
  exact ⟨fun c hc => isNumberChar_of_isDigit (hwhole.digits c hc), hfraction.isNumberChar,
    hexponent.isNumberChar⟩

/-! ### Numbers with a sign -/

/-- The texts of numbers, with their signs and parts. -/
inductive IsNumber : Bool → NumberParts → List Char → Prop where
  | positive {parts : NumberParts} {text : List Char} (h : IsUnsigned parts text) :
      IsNumber false parts text
  | negative {parts : NumberParts} {text : List Char} (h : IsUnsigned parts text) :
      IsNumber true parts ('-' :: text)

/-- A number begins with a digit or with its sign. -/
theorem IsNumber.exists_cons (h : IsNumber negative parts text) :
    ∃ c tail, text = c :: tail ∧ (c.isDigit = true ∨ c = '-') := by
  cases h with
  | positive h =>
    obtain ⟨c, tail, htext, hc⟩ := h.exists_cons
    exact ⟨c, tail, htext, .inl hc⟩
  | negative h => exact ⟨'-', _, rfl, .inr rfl⟩

/-- A number has one reading. -/
theorem IsNumber.unique {negative' : Bool} {parts' : NumberParts}
    (h : IsNumber negative parts text) (h' : IsNumber negative' parts' text) :
    negative = negative' ∧ parts = parts' := by
  have hparts {text : List Char} (h : IsUnsigned parts text) (h' : IsUnsigned parts' text) :
      parts = parts' := by
    have hread := h.readParts? endsNumber_nil
    rw [h'.readParts? endsNumber_nil] at hread
    exact (Prod.mk.inj (Option.some.inj hread)).1.symm
  cases h with
  | positive h =>
    cases h' with
    | positive h' => exact ⟨rfl, hparts h h'⟩
    | negative =>
      obtain ⟨c, tail, htext, hc⟩ := h.exists_cons
      exact absurd (List.cons.inj htext).1.symm (ne_of_isDigit hc rfl)
  | negative h =>
    cases h' with
    | positive h' =>
      obtain ⟨c, tail, htext, hc⟩ := h'.exists_cons
      exact absurd (List.cons.inj htext).1.symm (ne_of_isDigit hc rfl)
    | negative h' => exact ⟨rfl, hparts h h'⟩

theorem IsNumber.isNumberChar (h : IsNumber negative parts text) :
    ∀ c ∈ text, isNumberChar c = true := by
  cases h with
  | positive h => exact h.isNumberChar
  | negative h =>
    rw [List.forall_mem_cons]
    exact ⟨rfl, h.isNumberChar⟩

theorem readNumber?_of_isDigit {c : Char} (hc : c.isDigit = true) :
    readNumber? (c :: text) = readUnsigned? false (c :: text) := by
  rw [readNumber?]
  rintro tail heq
  exact ne_of_isDigit hc rfl (List.cons.inj heq).1

/-- A number whose parts stand for one is read to its end, wherever it stands. -/
theorem IsNumber.readNumber? {n : Number} (h : IsNumber negative parts text)
    (hn : Number.ofLiteral? negative parts.1 parts.2 = some n) (hrest : EndsNumber rest) :
    Json.readNumber? (text ++ rest) = some (n, rest) := by
  have hread {text : List Char} (h : IsUnsigned parts text) :
      readUnsigned? negative (text ++ rest) = some (n, rest) := by
    simp [readUnsigned?, h.readParts? hrest, hn]
  cases h with
  | positive h =>
    obtain ⟨c, tail, rfl, hc⟩ := h.exists_cons
    exact (readNumber?_of_isDigit hc).trans (hread h)
  | negative h => exact hread h

/-- **What is read as a number is a text of the grammar.** -/
theorem readNumber?_sound {n : Number} (h : readNumber? text = some (n, [])) :
    ∃ negative parts, IsNumber negative parts text ∧
      Number.ofLiteral? negative parts.1 parts.2 = some n := by
  have hsound {negative : Bool} {text : List Char}
      (h : readUnsigned? negative text = some (n, [])) :
      ∃ parts, IsUnsigned parts text ∧ Number.ofLiteral? negative parts.1 parts.2 = some n := by
    obtain ⟨p, hparts, h⟩ := Option.bind_eq_some_iff.mp h
    obtain ⟨m, hm, h⟩ := Option.map_eq_some_iff.mp h
    obtain ⟨rfl, hrest⟩ := Prod.mk.inj h
    obtain ⟨front, rfl, hgrammar⟩ := readParts?_sound hparts
    rw [hrest, List.append_nil]
    exact ⟨_, hgrammar, hm⟩
  fun_cases readNumber? text with
  | case1 text =>
    obtain ⟨parts, hgrammar, hn⟩ := hsound h
    exact ⟨true, parts, .negative hgrammar, hn⟩
  | case2 text hsign =>
    rw [readNumber?] at h
    · obtain ⟨parts, hgrammar, hn⟩ := hsound h
      exact ⟨false, parts, .positive hgrammar, hn⟩
    · exact hsign

theorem toLower_of_isDigit {c : Char} (hc : c.isDigit = true) : c.toLower = c := by
  have hascii : c.toNat < 128 := Text.toNat_lt_of_isAlphanum (by simp [Char.isAlphanum, hc])
  revert hc
  exact Text.of_ascii (P := fun c => c.isDigit = true → c.toLower = c) (by decide) hascii

/-- What begins with a digit is no word. -/
theorem lowered_ne_word {c a : Char} {tail word : List Char} (hc : c.isDigit = true)
    (ha : a.isDigit = false) :
    String.ofList ((c :: tail).map Char.toLower) ≠ String.ofList (a :: word) := by
  intro heq
  have hchars := String.ofList_injective heq
  rw [List.map_cons, toLower_of_isDigit hc] at hchars
  exact ne_of_isDigit hc ha (List.cons.inj hchars).1

/-- A text of the grammar is, to the other reader, the decimal that it writes, rounded. -/
theorem IsUnsigned.ofUnsignedChars? (h : IsUnsigned parts text) (F : Format) (negative : Bool) :
    Binary.ofUnsignedChars? F negative text =
      some (.ofDecimal negative parts.decimal.digits parts.decimal.exponent) := by
  obtain ⟨c, tail, rfl, hc⟩ := h.exists_cons
  have hinf : String.ofList ((c :: tail).map Char.toLower) ≠ "inf" := lowered_ne_word hc rfl
  have hinfinity : String.ofList ((c :: tail).map Char.toLower) ≠ "infinity" :=
    lowered_ne_word hc rfl
  have hnan : String.ofList ((c :: tail).map Char.toLower) ≠ "nan" := lowered_ne_word hc rfl
  simp only [Binary.ofUnsignedChars?, hinf, hinfinity, hnan, or_self, if_false, h.ofChars?,
    Option.map_some]

/-- **A number is, to the other reader, the decimal that it writes, rounded to the format that is
    wanted.** -/
theorem IsNumber.ofChars? (h : IsNumber negative parts text) (F : Format) :
    Binary.ofChars? F text =
      some (.ofDecimal negative parts.decimal.digits parts.decimal.exponent) := by
  cases h with
  | positive h =>
    obtain ⟨c, tail, rfl, hc⟩ := h.exists_cons
    rw [Binary.ofChars?]
    · exact h.ofUnsignedChars? F false
    · rintro tail heq
      exact ne_of_isDigit hc rfl (List.cons.inj heq).1
    · rintro tail heq
      exact ne_of_isDigit hc rfl (List.cons.inj heq).1
  | negative h => exact h.ofUnsignedChars? F true

end Json

end KnowledgeSearch
