/-
  KnowledgeSearch/Proofs/Sql/Token.lean
  =====================================
  **The text of a statement as a database reads it.**

  A database does not see the fragments that a statement was put together from, only
  its text.  This file reads a text back: `lex` cuts it into words, quoted texts,
  signs and placeholders, one character after another, and knows nothing of how the
  text was written.  Between single quotes no character has a meaning; a placeholder
  is a question mark in one dialect and a dollar sign with a number in the other.

  What makes reading compositional is where two texts meet: if the first ends outside
  quotes and the second does not go on with a word of the first, then the tokens of
  both together are the tokens of one and of the other (`Spells.append`).
-/
import KnowledgeSearch.Proofs.Text.Identifier
import KnowledgeSearch.Sql.Fragment

namespace KnowledgeSearch

open Text (isIdentifierPart isIdentifierStart isIdentifier)

/-! ### Tokens -/

/-- A token of a statement's text; `α` is what is known of a placeholder. -/
inductive Token (α : Type) where
  | word (letters : List Char)
  | quoted (text : List Char)
  | sign (c : Char)
  | place (value : α)
deriving DecidableEq

/-- A token as it is written: a placeholder has the ordinal that it writes, if it
    writes one. -/
abbrev WrittenToken := Token (Option Nat)

/-! ### Reading one character -/

/-- What reading is in the middle of. -/
inductive Mode where
  | idle
  | word (letters : List Char)
  | quoted (text : List Char)
  /-- A dollar sign and the digits after it. -/
  | place (digits : List Char)
deriving DecidableEq

namespace Mode

def isQuoted : Mode → Bool
  | quoted _ => true
  | _ => false

/-- The token that ends where reading stands. -/
def flush : Mode → List WrittenToken
  | idle => []
  | word letters => [.word letters]
  | quoted text => [.quoted text]
  | place [] => [.sign '$']
  | place (digit :: digits) => [.place (some (Nat.ofDigitChars 10 (digit :: digits) 0))]

/-- Reads a character with nothing before it. -/
def start (d : Dialect) (c : Char) : List WrittenToken × Mode :=
  if isIdentifierPart c then ([], word [c])
  else if c = ' ' then ([], idle)
  else if c = '\'' then ([], quoted [])
  else if d = .lite ∧ c = '?' then ([.place none], idle)
  else if d = .postgres ∧ c = '$' then ([], place [])
  else ([.sign c], idle)

/-- Reads a character: the tokens that are complete with it, and what reading is in
    the middle of after it. -/
def step (d : Dialect) (mode : Mode) (c : Char) : List WrittenToken × Mode :=
  let next := (mode.flush ++ (start d c).1, (start d c).2)
  match mode with
  | idle => next
  | word letters => if isIdentifierPart c then ([], word (letters ++ [c])) else next
  | quoted text => if c = '\'' then ([.quoted text], idle) else ([], quoted (text ++ [c]))
  | place digits => if c.isDigit then ([], place (digits ++ [c])) else next

end Mode

/-! ### Reading a text -/

/-- Reads characters one after another. -/
def scan (d : Dialect) : Mode → List Char → List WrittenToken × Mode
  | mode, [] => ([], mode)
  | mode, c :: text =>
    ((mode.step d c).1 ++ (scan d (mode.step d c).2 text).1,
      (scan d (mode.step d c).2 text).2)

def lex (d : Dialect) (text : List Char) : List WrittenToken :=
  (scan d .idle text).1 ++ (scan d .idle text).2.flush

theorem scan_append (d : Dialect) (mode : Mode) (a b : List Char) :
    scan d mode (a ++ b) =
      ((scan d mode a).1 ++ (scan d (scan d mode a).2 b).1,
        (scan d (scan d mode a).2 b).2) := by
  induction a generalizing mode with
  | nil => rfl
  | cons c a ih => simp only [List.cons_append, scan, ih, List.append_assoc]

/-! ### Where two texts meet -/

/-- A text that goes on with no word and no number before it. -/
def Apart : List Char → Prop
  | [] => True
  | c :: _ => isIdentifierPart c = false

theorem isDigit_eq_false {c : Char} (h : isIdentifierPart c = false) : c.isDigit = false := by
  simp only [isIdentifierPart, Char.isAlphanum, Bool.or_eq_false_iff] at h
  exact h.1.2

/-- Outside quotes, a character that goes on with nothing ends what was before it. -/
theorem step_of_apart (d : Dialect) {mode : Mode} (hm : mode.isQuoted = false) {c : Char}
    (hc : isIdentifierPart c = false) :
    mode.step d c = (mode.flush ++ (Mode.idle.step d c).1, (Mode.idle.step d c).2) := by
  cases mode with
  | idle => simp [Mode.step, Mode.flush]
  | word letters => simp [Mode.step, Mode.flush, hc]
  | quoted text => simp [Mode.isQuoted] at hm
  | place digits => simp [Mode.step, Mode.flush, isDigit_eq_false hc]

/-- A text spells tokens if it is read as them and ends outside quotes. -/
def Spells (d : Dialect) (text : List Char) (tokens : List WrittenToken) : Prop :=
  (scan d .idle text).2.isQuoted = false ∧ lex d text = tokens

/-- A text completes tokens if it is read as them and the last of them is over. -/
def Completes (d : Dialect) (text : List Char) (tokens : List WrittenToken) : Prop :=
  scan d .idle text = (tokens, .idle)

section Meeting

variable {d : Dialect} {a b : List Char} {s t : List WrittenToken}

theorem Completes.spells (h : Completes d a s) : Spells d a s := by
  have hscan : scan d .idle a = (s, .idle) := h
  constructor
  · rw [hscan]; rfl
  · simp [lex, hscan, Mode.flush]

theorem Completes.append (ha : Completes d a s) (hb : Completes d b t) :
    Completes d (a ++ b) (s ++ t) := by
  have hscan : scan d .idle a = (s, .idle) := ha
  have hscan' : scan d .idle b = (t, .idle) := hb
  simp only [Completes, scan_append, hscan, hscan']

theorem Completes.append_spells (ha : Completes d a s) (hb : Spells d b t) :
    Spells d (a ++ b) (s ++ t) := by
  have hscan : scan d .idle a = (s, .idle) := ha
  constructor
  · rw [scan_append, hscan]; exact hb.1
  · rw [← hb.2]; simp only [lex, scan_append, hscan, List.append_assoc]

/-- What reading the second of two texts comes to, where they meet apart. -/
theorem scan_of_apart {mode : Mode} (hm : mode.isQuoted = false) (hb : Apart b) (hne : b ≠ []) :
    scan d mode b = (mode.flush ++ (scan d .idle b).1, (scan d .idle b).2) := by
  cases b with
  | nil => exact absurd rfl hne
  | cons c b => simp only [scan, step_of_apart d hm hb, List.append_assoc]

/-- **Texts that meet apart are read one after the other.** -/
theorem Spells.append (ha : Spells d a s) (hb : Spells d b t) (hab : Apart b) :
    Spells d (a ++ b) (s ++ t) := by
  by_cases hne : b = []
  · subst hne
    have ht : t = [] := by rw [← hb.2]; rfl
    subst ht
    simpa using ha
  · have hscan := scan_of_apart (d := d) ha.1 hab hne
    constructor
    · rw [scan_append, hscan]; exact hb.1
    · rw [← ha.2, ← hb.2]
      simp only [lex, scan_append, hscan, List.append_assoc]

theorem Spells.append_completes (ha : Spells d a s) (hb : Completes d b t) (hab : Apart b)
    (hne : b ≠ []) : Completes d (a ++ b) (s ++ t) := by
  have hscan : scan d .idle b = (t, .idle) := hb
  have hscan' := scan_of_apart (d := d) ha.1 hab hne
  rw [← ha.2]
  simp only [Completes, lex, scan_append, hscan', hscan, List.append_assoc]

end Meeting

/-! ### Names and quoted texts -/

section Names

variable {d : Dialect}

theorem scan_word (letters name : List Char) (h : name.all isIdentifierPart = true) :
    scan d (.word letters) name = ([], .word (letters ++ name)) := by
  induction name generalizing letters with
  | nil => simp [scan]
  | cons c name ih =>
    simp only [List.all_cons, Bool.and_eq_true] at h
    simp [scan, Mode.step, h.1, ih _ h.2]

/-- Reading on within the number of a placeholder. -/
theorem scan_place (digits more : List Char) (h : ∀ c ∈ more, c.isDigit = true) :
    scan d (.place digits) more = ([], .place (digits ++ more)) := by
  induction more generalizing digits with
  | nil => simp [scan]
  | cons c more ih =>
    have hc : c.isDigit = true := h c List.mem_cons_self
    have hmore : ∀ c ∈ more, c.isDigit = true := fun c hc => h c (List.mem_cons_of_mem _ hc)
    simp [scan, Mode.step, hc, ih _ hmore]

theorem scan_quoted (before text : List Char) (h : '\'' ∉ text) :
    scan d (.quoted before) text = ([], .quoted (before ++ text)) := by
  induction text generalizing before with
  | nil => simp [scan]
  | cons c text ih =>
    simp only [List.mem_cons, not_or] at h
    have hc : ¬ c = '\'' := fun hc => h.1 hc.symm
    simp [scan, Mode.step, hc, ih _ h.2]

/-- An identifier is read as one word. -/
theorem Spells.name {name : String} (h : isIdentifier name = true) :
    Spells d name.toList [.word name.toList] := by
  unfold isIdentifier at h
  rcases hl : name.toList with _ | ⟨c, rest⟩
  · rw [hl] at h; cases h
  · rw [hl] at h
    simp only [Bool.and_eq_true] at h
    have hc := isIdentifierPart_of_start h.1
    have hscan : scan d .idle (c :: rest) = ([], .word (c :: rest)) := by
      simp [scan, Mode.step, Mode.start, Mode.flush, hc, scan_word _ _ h.2]
    constructor
    · rw [hscan]; rfl
    · simp [lex, hscan, Mode.flush]

/-- A text in quotes is read as one token. -/
theorem Completes.quoted {text : List Char} (h : '\'' ∉ text) :
    Completes d ('\'' :: (text ++ ['\''])) [.quoted text] := by
  have hopen : Mode.idle.step d '\'' = ([], .quoted []) := by cases d <;> rfl
  have hclose : Mode.step d (.quoted text) '\'' = ([.quoted text], .idle) := rfl
  simp only [Completes, scan, hopen, scan_append, scan_quoted _ _ h, List.nil_append, hclose,
    List.append_nil]

end Names

end KnowledgeSearch
