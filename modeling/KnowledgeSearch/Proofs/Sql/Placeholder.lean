/-
  KnowledgeSearch/Proofs/Sql/Placeholder.lean
  ===========================================
  **Placeholders stand for parameters.**

  The text of a statement and the list of its parameters travel apart.  They belong
  together if the placeholders of the text, read from left to right, stand for the
  parameters one after another: by their position in one dialect, by the ordinals
  that they write in the other.

  A fragment has that property for a simple reason (`Clean`): its texts contain no
  mark of a placeholder, leave no quotes open, and do not go on with the number of a
  placeholder before them.  `Clean.spells` and `Clean.marks` say so of its text, from
  any ordinal on; the files on conditions and on statements have only to see that
  what they write is clean.
-/
import KnowledgeSearch.Proofs.Sql.Token
import KnowledgeSearch.Proofs.Text.Class

namespace KnowledgeSearch

open Text (isIdentifierPart isIdentifier)

/-! ### What placeholders stand for -/

namespace Dialect

/-- The sign that marks a placeholder. -/
def mark : Dialect → Char
  | .lite => '?'
  | .postgres => '$'

/-- The ordinal that the placeholder after `k` others writes. -/
def ordinal (d : Dialect) (k : Nat) : Option Nat :=
  match d with
  | .lite => none
  | .postgres => some (k + 1)

end Dialect

/-- What is known of the placeholders among some tokens. -/
def places {α : Type} : List (Token α) → List α
  | [] => []
  | .place value :: tokens => value :: places tokens
  | _ :: tokens => places tokens

theorem places_append {α : Type} (a b : List (Token α)) : places (a ++ b) = places a ++ places b := by
  induction a with
  | nil => rfl
  | cons token a ih => cases token <;> simp [places, ih]

/-- The parameter of a placeholder that comes after `k` others. -/
def parameter? (params : List Parameter) (k : Nat) : Option Nat → Option Parameter
  | none => params[k]?
  | some 0 => none
  | some (n + 1) => params[n]?

/-- What placeholders stand for, the first of them coming after `k` others. -/
def standFor (params : List Parameter) : Nat → List (Option Nat) → List (Option Parameter)
  | _, [] => []
  | k, ordinal :: ordinals => parameter? params k ordinal :: standFor params (k + 1) ordinals

/-- The ordinals of `n` placeholders that come after `k` others. -/
def Dialect.ordinals (d : Dialect) (k n : Nat) : List (Option Nat) :=
  (List.range' k n).map d.ordinal

theorem Dialect.ordinals_succ (d : Dialect) (k n : Nat) :
    d.ordinals k (n + 1) = d.ordinal k :: d.ordinals (k + 1) n := by
  simp [Dialect.ordinals, List.range'_succ]

theorem Dialect.ordinals_lite (k n : Nat) : Dialect.lite.ordinals k n = List.replicate n none := by
  induction n generalizing k with
  | zero => rfl
  | succ n ih => rw [Dialect.ordinals_succ, ih, List.replicate_succ]; rfl

theorem Dialect.ordinals_postgres (k n : Nat) :
    Dialect.postgres.ordinals k n = (List.range' (k + 1) n).map some := by
  induction n generalizing k with
  | zero => rfl
  | succ n ih => rw [Dialect.ordinals_succ, ih, List.range'_succ]; rfl

theorem parameter?_ordinal (d : Dialect) (params : List Parameter) (k : Nat) :
    parameter? params k (d.ordinal k) = params[k]? := by
  cases d <;> rfl

/-- Placeholders that are numbered on from `k` stand for the parameters from there on. -/
theorem standFor_ordinals (d : Dialect) (before values after : List Parameter) :
    standFor (before ++ values ++ after) before.length
      (d.ordinals before.length values.length) = values.map some := by
  induction values generalizing before with
  | nil => rfl
  | cons value values ih =>
    have hrest := ih (before ++ [value])
    simp only [List.length_append, List.length_singleton, List.append_assoc, List.cons_append,
      List.nil_append] at hrest
    have hhead : (before ++ (value :: values ++ after))[before.length]? = some value := by
      simp
    simp only [List.length_cons, Dialect.ordinals_succ, standFor, parameter?_ordinal,
      List.append_assoc, hhead, List.map_cons, List.cons.injEq, true_and]
    simpa using hrest

/-! ### Written placeholders -/

namespace Parameter

def isJson : Parameter → Bool
  | .json _ => true
  | _ => false

/-- The tokens of the cast that a parameter needs. -/
def castTokens {α : Type} (d : Dialect) (value : Parameter) : List (Token α) :=
  match d, value with
  | .postgres, .json _ => [.sign ':', .sign ':', .word ['j', 's', 'o', 'n', 'b']]
  | .postgres, .vector _ =>
    [.sign ':', .sign ':', .word ['t', 'e', 'x', 't'], .sign ':', .sign ':',
      .word ['v', 'e', 'c', 't', 'o', 'r']]
  | _, _ => []

def castText : Parameter → List Char
  | .json _ => [':', ':', 'j', 's', 'o', 'n', 'b']
  | .vector _ =>
    [':', ':', 't', 'e', 'x', 't', ':', ':', 'v', 'e', 'c', 't', 'o', 'r']
  | _ => []

theorem places_castTokens {α : Type} (d : Dialect) (value : Parameter) :
    places (value.castTokens d : List (Token α)) = [] := by
  cases d <;> cases value <;> rfl

end Parameter

theorem placeholder_postgres (ordinal : Nat) (value : Parameter) :
    (Dialect.postgres.placeholder ordinal value).toList =
      '$' :: (Nat.toDigits 10 ordinal ++ value.castText) := by
  have hnumber : (toString ordinal).toList = Nat.toDigits 10 ordinal := Nat.toList_repr
  have hplace : ("$" ++ toString ordinal).toList = '$' :: Nat.toDigits 10 ordinal := by
    rw [String.toList_append, hnumber]; rfl
  have hbare : '$' :: Nat.toDigits 10 ordinal = '$' :: (Nat.toDigits 10 ordinal ++ []) := by
    rw [List.append_nil]
  cases value with
  | json v =>
    show ("$" ++ toString ordinal ++ "::jsonb").toList = _
    rw [String.toList_append, hplace]; rfl
  | vector e =>
    show ("$" ++ toString ordinal ++ "::text::vector").toList = _
    rw [String.toList_append, hplace]; rfl
  | _ => exact hplace.trans hbare

theorem Dialect.placeholder_eq_cons (d : Dialect) (ordinal : Nat) (value : Parameter) :
    ∃ more, (d.placeholder ordinal value).toList = d.mark :: more := by
  cases d with
  | lite => exact ⟨[], by simp [placeholder, mark]⟩
  | postgres => exact ⟨_, placeholder_postgres ordinal value⟩

theorem Spells.number (n : Nat) :
    Spells .postgres ('$' :: Nat.toDigits 10 n) [.place (some n)] := by
  have hdigits : ∀ c ∈ Nat.toDigits 10 n, c.isDigit = true := fun c hc =>
    Nat.isDigit_of_mem_toDigits (by decide) (by decide) hc
  have hdollar : Mode.idle.step .postgres '$' = ([], .place []) := rfl
  have hscan : scan .postgres .idle ('$' :: Nat.toDigits 10 n) =
      ([], .place (Nat.toDigits 10 n)) := by
    simp only [scan, hdollar, scan_place _ _ hdigits, List.nil_append]
  have hflush : (Mode.place (Nat.toDigits 10 n)).flush = [.place (some n)] := by
    rcases hl : Nat.toDigits 10 n with _ | ⟨digit, digits⟩
    · exact absurd hl Nat.toDigits_ne_nil
    · simp only [Mode.flush, ← hl, Nat.ofDigitChars_ten_toDigits]
  constructor
  · rw [hscan]; rfl
  · simp [lex, hscan, hflush]

/-- A placeholder is read as one, and as the cast that its parameter needs. -/
theorem Spells.placeholder (d : Dialect) (k : Nat) (value : Parameter) :
    Spells d (d.placeholder (k + 1) value).toList
      (.place (d.ordinal k) :: value.castTokens d) := by
  cases d with
  | lite =>
    have hmark : Spells .lite ['?'] [.place none] := ⟨rfl, rfl⟩
    simpa [Dialect.placeholder, Dialect.ordinal, Parameter.castTokens] using hmark
  | postgres =>
    have hcast : Spells .postgres value.castText (value.castTokens .postgres) := by
      cases value <;> exact ⟨rfl, rfl⟩
    have hapart : Apart value.castText := by cases value <;> trivial
    rw [placeholder_postgres, ← List.cons_append]
    exact (Spells.number (k + 1)).append hcast hapart

/-! ### Clean fragments -/

/-- A text without marks of placeholders that leaves no quotes open. -/
def Plain (d : Dialect) (text : List Char) : Prop :=
  d.mark ∉ text ∧ text.count '\'' % 2 = 0

/-- A text that can stand after a value: it goes on neither with its number nor with
    the cast of a JSON value. -/
def AfterValue (text : List Char) : Prop :=
  text ≠ [] ∧ Apart text ∧ ∀ more, ¬ "::jsonb".toList <+: text ++ more

namespace Fragment

/-- Whether a fragment can stand after a value. -/
def Follows : Fragment → Prop
  | [] => True
  | .text text :: _ => AfterValue text.toList
  | .bind _ :: _ => False

/-- A fragment whose texts are plain and leave the placeholders as they are. -/
def Clean (d : Dialect) : Fragment → Prop
  | [] => True
  | .text text :: rest => Plain d text.toList ∧ Clean d rest
  | .bind _ :: rest => Follows rest ∧ Clean d rest

end Fragment

section Plain

variable {d : Dialect} {a b : List Char}

theorem Plain.append (ha : Plain d a) (hb : Plain d b) : Plain d (a ++ b) := by
  constructor
  · intro h
    rcases List.mem_append.mp h with h | h
    · exact ha.1 h
    · exact hb.1 h
  · have h := ha.2
    have h' := hb.2
    rw [List.count_append]
    omega

theorem isIdentifierPart_mark (d : Dialect) : isIdentifierPart d.mark = false := by
  cases d <;> rfl

theorem Plain.name {name : String} (h : isIdentifier name = true) : Plain d name.toList := by
  constructor
  · exact not_mem_of_isIdentifier h (isIdentifierPart_mark d)
  · rw [List.count_eq_zero_of_not_mem (not_mem_of_isIdentifier h rfl)]

theorem Plain.quoted (h : d.mark ∉ a) (hq : '\'' ∉ a) : Plain d ('\'' :: (a ++ ['\''])) := by
  constructor
  · intro hmem
    have hne : d.mark ≠ '\'' := by cases d <;> decide
    simp only [List.mem_cons, List.mem_append, List.not_mem_nil, or_false] at hmem
    rcases hmem with hmem | hmem | hmem
    · exact hne hmem
    · exact h hmem
    · exact hne hmem
  · simp [List.count_append, List.count_eq_zero_of_not_mem hq]

/-- A text that begins with a sign other than a colon can stand after a value. -/
theorem AfterValue.of_sign {c : Char} {text : List Char} (h : isIdentifierPart c = false)
    (hc : c ≠ ':') : AfterValue (c :: text) := by
  refine ⟨List.cons_ne_nil _ _, h, ?_⟩
  intro more hprefix
  have hhead : ':' = c := by
    have := List.cons_prefix_cons.mp hprefix
    exact this.1
  exact hc hhead.symm

end Plain

/-! ### Reading a plain text -/

namespace Mode

/-- Whether reading is in the middle of a placeholder. -/
def isPlace : Mode → Bool
  | place _ => true
  | _ => false

theorem places_flush {mode : Mode} (h : mode.isPlace = false) : places mode.flush = [] := by
  cases mode with
  | place digits => cases h
  | _ => rfl

theorem start_plain {d : Dialect} {c : Char} (hc : c ≠ d.mark) :
    places (start d c).1 = [] ∧ (start d c).2.isPlace = false ∧
      (start d c).2.isQuoted = (c == '\'') := by
  unfold start
  by_cases hpart : isIdentifierPart c = true
  · have hquote : c ≠ '\'' := by rintro rfl; cases hpart
    simp [hpart, places, isPlace, isQuoted, hquote]
  · by_cases hblank : c = ' '
    · subst hblank
      exact ⟨rfl, rfl, rfl⟩
    · by_cases hquote : c = '\''
      · subst hquote
        exact ⟨rfl, rfl, rfl⟩
      · cases d with
        | lite =>
          have hmark : c ≠ '?' := hc
          simp [hpart, hblank, hquote, hmark, places, isPlace, isQuoted]
        | postgres =>
          have hmark : c ≠ '$' := hc
          simp [hpart, hblank, hquote, hmark, places, isPlace, isQuoted]

/-- A character that is no mark of a placeholder begins none, and only a quote opens or
    closes quotes. -/
theorem step_plain {d : Dialect} {mode : Mode} (hm : mode.isPlace = false) {c : Char}
    (hc : c ≠ d.mark) :
    places (mode.step d c).1 = [] ∧ (mode.step d c).2.isPlace = false ∧
      (mode.step d c).2.isQuoted = (mode.isQuoted ^^ (c == '\'')) := by
  have hstart := start_plain hc
  cases mode with
  | idle => simpa [step, flush, isQuoted] using hstart
  | word letters =>
    by_cases hpart : isIdentifierPart c = true
    · have hquote : c ≠ '\'' := by rintro rfl; cases hpart
      simp [step, hpart, places, isPlace, isQuoted, hquote]
    · simpa [step, flush, isQuoted, hpart, places_append, places] using hstart
  | quoted text =>
    by_cases hquote : c = '\''
    · simp [step, hquote, places, isPlace, isQuoted]
    · simp [step, hquote, places, isPlace, isQuoted]
  | place digits => cases hm

end Mode

/-- A text without marks of placeholders is read without any, and quotes are open after
    it if they were open before it or it has an odd number of quotes, but not both. -/
theorem scan_plain {d : Dialect} {mode : Mode} (hm : mode.isPlace = false) {text : List Char}
    (h : d.mark ∉ text) :
    places (scan d mode text).1 = [] ∧ (scan d mode text).2.isPlace = false ∧
      (scan d mode text).2.isQuoted = (mode.isQuoted ^^ decide (text.count '\'' % 2 = 1)) := by
  induction text generalizing mode with
  | nil => simp [scan, places, hm]
  | cons c text ih =>
    simp only [List.mem_cons, not_or] at h
    have hstep := Mode.step_plain hm (fun hc => h.1 hc.symm)
    have hrest := ih hstep.2.1 h.2
    refine ⟨?_, hrest.2.1, ?_⟩
    · simp only [scan, places_append, hstep.1, hrest.1, List.append_nil]
    · simp only [scan, hrest.2.2, hstep.2.2, List.count_cons]
      rcases Nat.mod_two_eq_zero_or_one (text.count '\'') with hcount | hcount <;>
        by_cases hc : c = '\'' <;> simp [hc, hcount, Nat.add_mod, beq_eq_false_iff_ne.mpr]

theorem Plain.scan {d : Dialect} {text : List Char} (h : Plain d text) {mode : Mode}
    (hp : mode.isPlace = false) (hq : mode.isQuoted = false) :
    places (KnowledgeSearch.scan d mode text).1 = [] ∧
      (KnowledgeSearch.scan d mode text).2.isPlace = false ∧
      (KnowledgeSearch.scan d mode text).2.isQuoted = false := by
  have hscan := scan_plain hp h.1
  refine ⟨hscan.1, hscan.2.1, ?_⟩
  rw [hscan.2.2, hq, h.2]
  rfl

/-! ### Reading a clean fragment -/

namespace Fragment

theorem join_append {separator : String} {left right : List Fragment} (hleft : left ≠ [])
    (hright : right ≠ []) :
    join separator (left ++ right) =
      join separator left ++ .text separator :: join separator right := by
  induction left with
  | nil => exact absurd rfl hleft
  | cons first rest ih =>
    cases rest with
    | nil =>
      cases right with
      | nil => exact absurd rfl hright
      | cons second others => rfl
    | cons second rest =>
      have hrest := ih (List.cons_ne_nil _ _)
      simp only [List.cons_append, join] at hrest ⊢
      rw [hrest]
      simp

theorem render_append (d : Dialect) (n : Nat) (a b : Fragment) :
    render d n (a ++ b) = render d n a ++ render d (n + a.params.length) b := by
  induction a generalizing n with
  | nil => simp [render, params]
  | cons piece a ih =>
    cases piece with
    | text text => simp [render, params, ih, String.append_assoc]
    | bind value =>
      simp [render, params, ih, String.append_assoc, Nat.add_assoc, Nat.add_comm 1]

/-- What follows a value meets its placeholder apart. -/
theorem Follows.apart {d : Dialect} {n : Nat} {rest : Fragment} (h : rest.Follows) :
    Apart (rest.render d n).toList := by
  cases rest with
  | nil => trivial
  | cons piece rest =>
    cases piece with
    | bind value => exact h.elim
    | text text =>
      have hafter : AfterValue text.toList := h
      rw [render, String.toList_append]
      rcases hl : text.toList with _ | ⟨c, more⟩
      · exact absurd hl hafter.1
      · have hapart := hafter.2.1
        rw [hl] at hapart
        exact hapart

/-- What reading a clean fragment comes to, outside quotes and placeholders: quotes are
    closed again, and the placeholders are numbered on. -/
theorem Clean.scan {d : Dialect} {fragment : Fragment} (h : fragment.Clean d) (k : Nat)
    {mode : Mode} (hp : mode.isPlace = false) (hq : mode.isQuoted = false) :
    let read := KnowledgeSearch.scan d mode (fragment.render d (k + 1)).toList
    read.2.isQuoted = false ∧
      places (read.1 ++ read.2.flush) = d.ordinals k fragment.params.length := by
  induction fragment generalizing k mode with
  | nil => exact ⟨hq, Mode.places_flush hp⟩
  | cons piece rest ih =>
    cases piece with
    | text text =>
      have htext := h.1.scan hp hq
      have hrest := ih h.2 k htext.2.1 htext.2.2
      simp only [render, String.toList_append, scan_append]
      refine ⟨hrest.1, ?_⟩
      rw [List.append_assoc, places_append, htext.1, List.nil_append]
      exact hrest.2
    | bind value =>
      obtain ⟨more, hmark⟩ := d.placeholder_eq_cons (k + 1) value
      -- the mark goes on with nothing, so the placeholder is read as from the start
      have hrest := @ih h.2 (k + 1) .idle rfl rfl
      have hspells := (Spells.placeholder d k value).append ⟨hrest.1, rfl⟩ h.1.apart
      have hscan := scan_of_apart (d := d) hq
        (b := (d.placeholder (k + 1) value).toList ++ (render d (k + 1 + 1) rest).toList)
        (by rw [hmark]; exact isIdentifierPart_mark d) (by rw [hmark]; exact List.cons_ne_nil _ _)
      simp only [render, String.toList_append, hscan]
      refine ⟨hspells.1, ?_⟩
      rw [List.append_assoc, places_append, Mode.places_flush hp, List.nil_append]
      show places (lex d _) = _
      rw [hspells.2, places_append, places, Parameter.places_castTokens]
      simp only [params, List.length_cons, Dialect.ordinals_succ, List.cons_append,
        List.nil_append, List.cons.injEq, true_and]
      exact hrest.2

/-- The placeholders of a clean fragment, and that quotes are closed after it. -/
theorem Clean.spells {d : Dialect} {fragment : Fragment} (h : fragment.Clean d) (k : Nat) :
    (KnowledgeSearch.scan d .idle (fragment.render d (k + 1)).toList).2.isQuoted = false ∧
      places (lex d (fragment.render d (k + 1)).toList) =
        d.ordinals k fragment.params.length :=
  h.scan k rfl rfl

/-! ### Marks, inside quotes or not -/

/-- No cast of a JSON value follows a value by accident. -/
theorem Follows.not_cast {d : Dialect} {n : Nat} {rest : Fragment} (h : rest.Follows) :
    ¬ "::jsonb".toList <+: (rest.render d n).toList := by
  cases rest with
  | nil => simp [render]
  | cons piece rest =>
    cases piece with
    | bind value => exact h.elim
    | text text =>
      have hafter : AfterValue text.toList := h
      rw [render, String.toList_append]
      exact hafter.2.2 _

/-- A clean fragment has one question mark for each of its values. -/
theorem Clean.count_mark {fragment : Fragment} (h : fragment.Clean .lite) (n : Nat) :
    (fragment.render .lite n).toList.count '?' = fragment.params.length := by
  induction fragment generalizing n with
  | nil => simp [render, params]
  | cons piece rest ih =>
    cases piece with
    | text text =>
      have hmark : '?' ∉ text.toList := h.1.1
      rw [render, String.toList_append, List.count_append, List.count_eq_zero_of_not_mem hmark,
        ih h.2, Nat.zero_add, params]
    | bind value =>
      have hplace : (Dialect.lite.placeholder n value).toList = ['?'] := by
        simp [Dialect.placeholder]
      rw [render, String.toList_append, List.count_append, hplace, ih h.2, params,
        List.length_cons, Nat.add_comm]
      rfl

end Fragment

/-- Everything in a text that looks like a numbered placeholder, be it between quotes:
    a dollar sign with a digit after it.  Its number comes with whether the cast of a
    JSON value follows. -/
def numberedMarks : List Char → List (Nat × Bool)
  | [] => []
  | c :: text =>
    let digits := text.takeWhile Char.isDigit
    let marks := numberedMarks text
    if c = '$' ∧ digits ≠ [] then
      (Nat.ofDigitChars 10 digits 0, "::jsonb".toList.isPrefixOf (text.dropWhile Char.isDigit)) ::
        marks
    else marks

theorem numberedMarks_append {a : List Char} (h : '$' ∉ a) (b : List Char) :
    numberedMarks (a ++ b) = numberedMarks b := by
  induction a with
  | nil => rfl
  | cons c a ih =>
    simp only [List.mem_cons, not_or] at h
    have hc : ¬ c = '$' := fun hc => h.1 hc.symm
    simp [numberedMarks, hc, ih h.2]

/-- A text that goes on with no number begins with no digit. -/
theorem Apart.head_not_digit {rest : List Char} (h : Apart rest) :
    ∀ c, rest.head? = some c → c.isDigit = false := by
  intro c hc
  cases rest with
  | nil => cases hc
  | cons d rest =>
    cases hc
    exact isDigit_eq_false h

/-- A cast follows a placeholder exactly if its parameter is a JSON value. -/
theorem isPrefixOf_castText {value : Parameter} {rest : List Char}
    (h : ¬ "::jsonb".toList <+: rest) :
    "::jsonb".toList.isPrefixOf (value.castText ++ rest) = value.isJson := by
  cases value with
  | json v =>
    have hprefix : "::jsonb".toList <+: "::jsonb".toList ++ rest := List.prefix_append _ _
    exact List.isPrefixOf_iff_prefix.mpr hprefix
  | vector e => rfl
  | _ => exact Bool.eq_false_iff.mpr fun hprefix => h (List.isPrefixOf_iff_prefix.mp hprefix)

theorem Fragment.Clean.numberedMarks {fragment : Fragment} (h : fragment.Clean .postgres)
    (n : Nat) :
    KnowledgeSearch.numberedMarks (fragment.render .postgres n).toList =
      (fragment.params.zipIdx n).map fun entry => (entry.2, entry.1.isJson) := by
  induction fragment generalizing n with
  | nil => simp [render, params, KnowledgeSearch.numberedMarks]
  | cons piece rest ih =>
    cases piece with
    | text text =>
      rw [render, String.toList_append, numberedMarks_append h.1.1, ih h.2, params]
    | bind value =>
      have hdigits : ∀ c ∈ Nat.toDigits 10 n, c.isDigit = true := fun c hc =>
        Nat.isDigit_of_mem_toDigits (by decide) (by decide) hc
      have hdollar : '$' ∉ Nat.toDigits 10 n := fun hmem => by cases hdigits _ hmem
      have hcast : '$' ∉ value.castText := by cases value <;> simp [Parameter.castText]
      have hapart : Apart (value.castText ++ (render .postgres (n + 1) rest).toList) := by
        cases value with
        | json v => exact rfl
        | vector e => exact rfl
        | _ => exact h.1.apart
      have hspan := Text.parts_of_class _ hdigits hapart.head_not_digit
      rw [render, String.toList_append, placeholder_postgres, List.cons_append,
        List.append_assoc, KnowledgeSearch.numberedMarks]
      simp only [hspan.1, hspan.2, isPrefixOf_castText h.1.not_cast,
        Nat.ofDigitChars_ten_toDigits, numberedMarks_append hdollar, numberedMarks_append hcast,
        ih h.2, Nat.toDigits_ne_nil, ne_eq, not_false_eq_true, and_self, if_true, params,
        List.zipIdx_cons, List.map_cons]

end KnowledgeSearch
