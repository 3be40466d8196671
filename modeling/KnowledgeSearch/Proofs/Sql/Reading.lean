/-
  KnowledgeSearch/Proofs/Sql/Reading.lean
  =======================================
  **Reading conditions.**

  The tokens of a condition are read from left to right, with a frame for every open
  bracket.  Negation binds closer than `AND`, and `AND` closer than `OR`: a frame keeps
  the alternatives that an `OR` has ended, what an `AND` has joined since, and the
  operand that is being read.  An operand is a condition in brackets, with or without a
  negation before it, or a comparison; a comparison goes on until a connective or the
  end of the bracket, and its own brackets (of a function or a list) belong to it.
  A word is a connective only where a connective can stand, so that no name of a column
  is mistaken for one.

  Nothing is known of comparisons but their tokens.  `Condition.truth` gives a condition
  the truth that follows from an assignment to its comparisons; only comparisons of two
  numbers have a truth of their own.
-/
import Mathlib.Data.List.Forall2
import KnowledgeSearch.Proofs.Sql.Token
import KnowledgeSearch.Sql.Truth

namespace KnowledgeSearch

variable {α : Type}

/-! ### Conditions -/

/-- A condition as it is read. -/
inductive Condition (α : Type) where
  | comparison (tokens : List (Token α))
  | not (inner : Condition α)
  | and (left right : Condition α)
  | or (left right : Condition α)
deriving DecidableEq

/-- The truth of a comparison of two numbers. -/
def numeralTruth? : List (Token α) → Option Truth
  | [.word a, .sign '=', .word b] =>
    if a.all Char.isDigit && b.all Char.isDigit then
      some (.ofBool (Nat.ofDigitChars 10 a 0 = Nat.ofDigitChars 10 b 0))
    else none
  | _ => none

/-- The truth of a condition, given the truth of its comparisons. -/
def Condition.truth (assign : List (Token α) → Truth) : Condition α → Truth
  | .comparison tokens => (numeralTruth? tokens).getD (assign tokens)
  | .not inner => (inner.truth assign).negate
  | .and left right => (left.truth assign).and (right.truth assign)
  | .or left right => (left.truth assign).or (right.truth assign)

/-! ### Frames -/

namespace Token

/-- Whether a token is a word, the case of its letters aside. -/
def isWord (lower : List Char) : Token α → Bool
  | .word letters => letters.map Char.toLower = lower
  | _ => false

def isSign (c : Char) : Token α → Bool
  | .sign c' => c' = c
  | _ => false

def isAnd (token : Token α) : Bool := token.isWord ['a', 'n', 'd']

def isOr (token : Token α) : Bool := token.isWord ['o', 'r']

theorem isAnd_of_isOr {token : Token α} (h : token.isOr = true) : token.isAnd = false := by
  cases token with
  | word letters =>
    have hletters : letters.map Char.toLower = ['o', 'r'] := of_decide_eq_true h
    simp [isAnd, isWord, hletters]
  | _ => rfl

def goesOn (token : Token α) : Bool :=
  !(token.isAnd || token.isOr || token.isSign '(' || token.isSign ')')

end Token

def bracket (tokens : List (Token α)) : List (Token α) :=
  .sign '(' :: (tokens ++ [.sign ')'])

/-- The operand that is being read. -/
inductive ReadOperand (α : Type) where
  | nothing
  | comparison (tokens : List (Token α))
  /-- Brackets that hold a condition, unless more of a comparison follows. -/
  | condition (condition : Condition α) (tokens : List (Token α))

namespace ReadOperand

def condition? : ReadOperand α → Option (Condition α)
  | nothing => none
  | comparison tokens => some (.comparison tokens)
  | condition c _ => some c

def tokens : ReadOperand α → List (Token α)
  | nothing => []
  | comparison tokens => tokens
  | condition _ tokens => tokens

/-- Whether an operand negates what is in the brackets after it. -/
def negates (tokens : List (Token α)) : Bool :=
  match tokens with
  | [token] => token.isWord ['n', 'o', 't']
  | _ => false

/-- The operand after brackets; `inside` is the condition in them, if they hold one. -/
def close (inside : Option (Condition α)) (bracketed : List (Token α)) :
    ReadOperand α → ReadOperand α
  | nothing =>
    match inside with
    | some c => condition c bracketed
    | none => comparison bracketed
  | comparison tokens =>
    match inside with
    | some c =>
      if negates tokens then condition (.not c) (tokens ++ bracketed)
      else comparison (tokens ++ bracketed)
    | none => comparison (tokens ++ bracketed)
  | condition _ tokens => comparison (tokens ++ bracketed)

end ReadOperand

/-- What has been read of a bracket. -/
structure Frame (α : Type) where
  /-- The alternatives that are over. -/
  before : Option (Condition α)
  /-- What the alternative that is being read asks for besides its operand. -/
  current : Option (Condition α)
  operand : ReadOperand α
  tokens : List (Token α)

/-- A condition behind those that are joined to it. -/
def Condition.after (join : Condition α → Condition α → Condition α) :
    Option (Condition α) → Condition α → Condition α
  | none, c => c
  | some first, c => join first c

namespace Frame

def empty : Frame α := ⟨none, none, .nothing, []⟩

/-- The condition that the bracket holds if it ends here. -/
def finish? (frame : Frame α) : Option (Condition α) :=
  frame.operand.condition?.map fun c =>
    .after .or frame.before (.after .and frame.current c)

/-- Reads a token that is no bracket. -/
def read (frame : Frame α) (token : Token α) : Frame α :=
  let tokens := frame.tokens ++ [token]
  match frame.operand.condition? with
  | none => { frame with operand := .comparison [token], tokens }
  | some c =>
    if token.isAnd then
      { frame with current := some (.after .and frame.current c), operand := .nothing, tokens }
    else if token.isOr then
      { before := some (.after .or frame.before (.after .and frame.current c))
        current := none, operand := .nothing, tokens }
    else { frame with operand := .comparison (frame.operand.tokens ++ [token]), tokens }

/-- Ends a bracket within another. -/
def close (inner outer : Frame α) : Frame α :=
  { outer with
    operand := outer.operand.close inner.finish? (bracket inner.tokens)
    tokens := outer.tokens ++ bracket inner.tokens }

end Frame

/-! ### Reading -/

/-- Reads a token with the frames of the open brackets, the innermost first. -/
def readToken (token : Token α) (frames : List (Frame α)) : Option (List (Frame α)) :=
  if token.isSign '(' then some (.empty :: frames)
  else if token.isSign ')' then
    match frames with
    | inner :: outer :: rest => some (inner.close outer :: rest)
    | _ => none
  else
    match frames with
    | frame :: rest => some (frame.read token :: rest)
    | [] => none

def readTokens : List (Token α) → List (Frame α) → Option (List (Frame α))
  | [], frames => some frames
  | token :: tokens, frames => (readToken token frames).bind (readTokens tokens)

/-- The condition that tokens write. -/
def Condition.ofTokens? (tokens : List (Token α)) : Option (Condition α) :=
  match readTokens tokens [.empty] with
  | some [frame] => frame.finish?
  | _ => none

theorem readTokens_append (a b : List (Token α)) (frames : List (Frame α)) :
    readTokens (a ++ b) frames = (readTokens a frames).bind (readTokens b) := by
  induction a generalizing frames with
  | nil => rfl
  | cons token a ih =>
    simp only [List.cons_append, readTokens, Option.bind_assoc]
    cases readToken token frames with
    | none => rfl
    | some frames => exact ih frames

/-! ### Brackets -/

theorem readToken_open (frames : List (Frame α)) :
    readToken (.sign '(') frames = some (.empty :: frames) := rfl

theorem readToken_close (inner outer : Frame α) (rest : List (Frame α)) :
    readToken (.sign ')') (inner :: outer :: rest) = some (inner.close outer :: rest) := rfl

/-- Reading brackets is reading what is in them with a frame of their own. -/
theorem readTokens_bracket {tokens : List (Token α)} {inner frame : Frame α}
    {rest : List (Frame α)}
    (h : readTokens tokens (.empty :: frame :: rest) = some (inner :: frame :: rest)) :
    readTokens (bracket tokens) (frame :: rest) = some (inner.close frame :: rest) := by
  simp only [bracket, readTokens, readToken_open, Option.bind_some, readTokens_append, h,
    readToken_close]

/-- Tokens whose brackets match: reading them changes the innermost frame only, which
    keeps a record of them. -/
def Balanced (tokens : List (Token α)) : Prop :=
  ∀ frame rest, ∃ frame', readTokens tokens (frame :: rest) = some (frame' :: rest) ∧
    frame'.tokens = frame.tokens ++ tokens

theorem Frame.tokens_read (frame : Frame α) (token : Token α) :
    (frame.read token).tokens = frame.tokens ++ [token] := by
  unfold Frame.read
  dsimp only
  split
  · rfl
  · split
    · rfl
    · split <;> rfl

theorem Balanced.nil : Balanced ([] : List (Token α)) := by
  intro frame rest
  exact ⟨frame, rfl, (List.append_nil _).symm⟩

theorem Balanced.append {a b : List (Token α)} (ha : Balanced a) (hb : Balanced b) :
    Balanced (a ++ b) := by
  intro frame rest
  obtain ⟨frame', hread, htokens⟩ := ha frame rest
  obtain ⟨frame'', hread', htokens'⟩ := hb frame' rest
  refine ⟨frame'', ?_, ?_⟩
  · rw [readTokens_append, hread, Option.bind_some, hread']
  · rw [htokens', htokens, List.append_assoc]

theorem Balanced.token {token : Token α} (hopen : token.isSign '(' = false)
    (hclose : token.isSign ')' = false) : Balanced [token] := by
  intro frame rest
  refine ⟨frame.read token, ?_, frame.tokens_read token⟩
  simp [readTokens, readToken, hopen, hclose]

theorem Balanced.cons {token : Token α} {tokens : List (Token α)}
    (hopen : token.isSign '(' = false) (hclose : token.isSign ')' = false)
    (h : Balanced tokens) : Balanced (token :: tokens) :=
  (Balanced.token hopen hclose).append h

theorem Balanced.bracket {tokens : List (Token α)} (h : Balanced tokens) :
    Balanced (bracket tokens) := by
  intro frame rest
  obtain ⟨inner, hread, htokens⟩ := h .empty (frame :: rest)
  have hinner : inner.tokens = tokens := by rw [htokens]; rfl
  exact ⟨inner.close frame, readTokens_bracket hread, by rw [Frame.close, hinner]⟩

/-! ### Comparisons -/

/-- Tokens that begin a comparison: where an operand can stand they are read as one, and
    it goes on after them.  They are no comparison of two numbers. -/
structure Opens (tokens : List (Token α)) : Prop where
  read : ∀ (frame : Frame α) rest, frame.operand = .nothing →
    readTokens tokens (frame :: rest) =
      some ({ frame with operand := .comparison tokens, tokens := frame.tokens ++ tokens } :: rest)
  balanced : Balanced tokens
  named : ∀ more, numeralTruth? (tokens ++ more) = none

theorem ReadOperand.negates_of_length {tokens : List (Token α)} (h : 1 < tokens.length) :
    ReadOperand.negates tokens = false := by
  rcases tokens with _ | ⟨first, _ | ⟨second, tokens⟩⟩
  · rfl
  · simp at h
  · rfl

theorem goesOn_iff {token : Token α} : token.goesOn = true ↔
    token.isAnd = false ∧ token.isOr = false ∧ token.isSign '(' = false ∧
      token.isSign ')' = false := by
  simp [Token.goesOn, and_assoc]

/-- A word other than a number begins a comparison. -/
theorem Opens.word {letters : List Char} (h : letters.all Char.isDigit = false) :
    Opens [(.word letters : Token α)] := by
  refine ⟨?_, Balanced.token rfl rfl, ?_⟩
  · intro frame rest hframe
    simp [readTokens, readToken, Token.isSign, Frame.read, hframe, ReadOperand.condition?]
  · intro more
    rcases more with _ | ⟨second, _ | ⟨third, _ | ⟨fourth, more⟩⟩⟩
    · rfl
    · cases second <;> simp [numeralTruth?]
    · cases second with
      | sign c =>
        cases third with
        | word letters' =>
          by_cases hc : c = '='
          · subst hc
            simp [numeralTruth?, h]
          · simp [numeralTruth?, hc]
        | _ => simp [numeralTruth?]
      | _ => rfl
    · simp [numeralTruth?]

theorem Balanced.of_goesOn {tokens : List (Token α)} (h : ∀ token ∈ tokens, token.goesOn = true) :
    Balanced tokens := by
  induction tokens with
  | nil => exact Balanced.nil
  | cons token tokens ih =>
    have htoken := goesOn_iff.mp (h token List.mem_cons_self)
    exact Balanced.cons htoken.2.2.1 htoken.2.2.2
      (ih fun t ht => h t (List.mem_cons_of_mem _ ht))

/-- A comparison goes on with tokens that are no connectives and no brackets. -/
theorem Opens.goesOn {tokens more : List (Token α)} (h : Opens tokens)
    (hmore : ∀ token ∈ more, token.goesOn = true) : Opens (tokens ++ more) := by
  refine ⟨?_, h.balanced.append (Balanced.of_goesOn hmore), ?_⟩
  · intro frame rest hframe
    rw [readTokens_append, h.read frame rest hframe, Option.bind_some]
    -- every further token leaves the frame with a longer comparison
    have go (more before : List (Token α)) (hmore : ∀ token ∈ more, token.goesOn = true) :
        readTokens more
          ({ frame with operand := .comparison before, tokens := frame.tokens ++ before } :: rest) =
        some ({ frame with operand := .comparison (before ++ more),
                           tokens := frame.tokens ++ (before ++ more) } :: rest) := by
      induction more generalizing before with
      | nil => simp [readTokens]
      | cons token more ih =>
        obtain ⟨hand, hor, hopen, hclose⟩ := goesOn_iff.mp (hmore token List.mem_cons_self)
        have hrest := ih (before ++ [token]) fun t ht => hmore t (List.mem_cons_of_mem _ ht)
        simpa [readTokens, readToken, hopen, hclose, Frame.read, ReadOperand.condition?, hand, hor,
          ReadOperand.tokens, List.append_assoc] using hrest
    exact go more tokens hmore
  · intro rest
    rw [List.append_assoc]
    exact h.named _

/-- A comparison goes on with brackets, unless they are what a negation negates. -/
theorem Opens.bracket {tokens inside : List (Token α)} (h : Opens tokens)
    (hnot : ReadOperand.negates tokens = false) (hinside : Balanced inside) :
    Opens (tokens ++ bracket inside) := by
  refine ⟨?_, h.balanced.append hinside.bracket, ?_⟩
  · intro frame rest hframe
    obtain ⟨inner, hread, htokens⟩ := hinside .empty
      ({ frame with operand := .comparison tokens, tokens := frame.tokens ++ tokens } :: rest)
    have hinner : inner.tokens = inside := by rw [htokens]; rfl
    rw [readTokens_append, h.read frame rest hframe, Option.bind_some, readTokens_bracket hread]
    cases hfinish : inner.finish? with
    | none => simp [Frame.close, hfinish, ReadOperand.close, hinner, List.append_assoc]
    | some c => simp [Frame.close, hfinish, ReadOperand.close, hinner, hnot, List.append_assoc]
  · intro rest
    rw [List.append_assoc]
    exact h.named _

/-- Brackets begin a comparison if one goes on after them. -/
theorem Opens.of_bracket {inside : List (Token α)} {token : Token α} (h : Balanced inside)
    (htoken : token.goesOn = true) : Opens (KnowledgeSearch.bracket inside ++ [token]) := by
  obtain ⟨hand, hor, hopen, hclose⟩ := goesOn_iff.mp htoken
  refine ⟨?_, h.bracket.append (Balanced.token hopen hclose), ?_⟩
  · intro frame rest hframe
    obtain ⟨inner, hread, htokens⟩ := h .empty (frame :: rest)
    have hinner : inner.tokens = inside := by rw [htokens]; rfl
    have hoperand : ∀ found, ((ReadOperand.close found (KnowledgeSearch.bracket inside) .nothing :
        ReadOperand α)).tokens = KnowledgeSearch.bracket inside := by
      intro found
      cases found <;> rfl
    rw [readTokens_append, readTokens_bracket hread, Option.bind_some]
    cases hfinish : inner.finish? with
    | none =>
      simp [readTokens, readToken, hopen, hclose, Frame.read, Frame.close, hfinish, hframe,
        ReadOperand.close, ReadOperand.condition?, ReadOperand.tokens, hand, hor, hinner,
        List.append_assoc]
    | some c =>
      simp [readTokens, readToken, hopen, hclose, Frame.read, Frame.close, hfinish, hframe,
        ReadOperand.close, ReadOperand.condition?, ReadOperand.tokens, hand, hor, hinner,
        List.append_assoc]
  · intro rest
    rfl

/-! ### Operands and conditions -/

/-- Tokens that are read as a condition wherever an operand can stand. -/
def Operates (tokens : List (Token α)) (c : Condition α) : Prop :=
  ∀ (frame : Frame α) rest, frame.operand = .nothing → ∃ operand : ReadOperand α,
    readTokens tokens (frame :: rest) =
      some ({ frame with operand, tokens := frame.tokens ++ tokens } :: rest) ∧
    operand.condition? = some c

/-- Tokens that are read as a condition between brackets. -/
def Parses (tokens : List (Token α)) (c : Condition α) : Prop :=
  ∀ rest, ∃ frame : Frame α, readTokens tokens (.empty :: rest) = some (frame :: rest) ∧
    frame.finish? = some c ∧ frame.tokens = tokens

section Operands

variable {tokens : List (Token α)} {c : Condition α}

theorem Opens.operates (h : Opens tokens) : Operates tokens (.comparison tokens) := by
  intro frame rest hframe
  exact ⟨.comparison tokens, h.read frame rest hframe, rfl⟩

theorem Operates.parses (h : Operates tokens c) : Parses tokens c := by
  intro rest
  obtain ⟨operand, hread, hoperand⟩ := h .empty rest rfl
  refine ⟨_, hread, ?_, rfl⟩
  simp [Frame.finish?, hoperand, Frame.empty, Condition.after]

/-- A condition in brackets is an operand. -/
theorem Parses.operates (h : Parses tokens c) : Operates (bracket tokens) c := by
  intro frame rest hframe
  obtain ⟨inner, hread, hfinish, htokens⟩ := h (frame :: rest)
  refine ⟨.condition c (bracket tokens), ?_, rfl⟩
  simp [readTokens_bracket hread, Frame.close, hfinish, htokens, hframe, ReadOperand.close]

/-- A negation and a condition in brackets are an operand. -/
theorem Parses.negated {letters : List Char} (h : Parses tokens c)
    (hnot : (Token.word letters : Token α).isWord ['n', 'o', 't'] = true) :
    Operates (.word letters :: bracket tokens) (.not c) := by
  intro frame rest hframe
  have hword : readToken (.word letters) (frame :: rest) =
      some ({ frame with operand := .comparison [.word letters],
                         tokens := frame.tokens ++ [.word letters] } :: rest) := by
    simp [readToken, Token.isSign, Frame.read, hframe, ReadOperand.condition?]
  obtain ⟨inner, hread, hfinish, htokens⟩ := h
    ({ frame with operand := .comparison [.word letters],
                  tokens := frame.tokens ++ [.word letters] } :: rest)
  refine ⟨.condition (.not c) (.word letters :: bracket tokens), ?_, rfl⟩
  have hnegates : ReadOperand.negates [(.word letters : Token α)] = true := hnot
  rw [readTokens, hword, Option.bind_some, readTokens_bracket hread]
  simp [Frame.close, hfinish, htokens, ReadOperand.close, hnegates]

theorem Parses.ofTokens? (h : Parses tokens c) : Condition.ofTokens? tokens = some c := by
  obtain ⟨frame, hread, hfinish, -⟩ := h []
  rw [Condition.ofTokens?, hread]
  exact hfinish

end Operands

/-! ### Joined operands -/

/-- What operands are joined by. -/
inductive Junction where
  | and
  | or
deriving DecidableEq

namespace Junction

def condition : Junction → Condition α → Condition α → Condition α
  | and => .and
  | or => .or

def truth : Junction → List Truth → Truth
  | and => .all
  | or => .any

def isWritten : Junction → Token α → Bool
  | and => Token.isAnd
  | or => Token.isOr

/-- Whether a frame has read nothing but operands that are joined in one way, and those
    before the last are `before`. -/
def Joins (junction : Junction) (frame : Frame α) (before : Option (Condition α)) : Prop :=
  match junction with
  | and => frame.before = none ∧ frame.current = before
  | or => frame.before = before ∧ frame.current = none

/-- Operands one after another, each joined to those before it. -/
def chain (junction : Junction) : Option (Condition α) → List (Condition α) →
    Option (Condition α)
  | before, [] => before
  | before, c :: rest => chain junction (some (.after junction.condition before c)) rest

variable {junction : Junction} {frame : Frame α} {before : Option (Condition α)}
  {c : Condition α} {separator : Token α}

theorem Joins.finish? (h : junction.Joins frame before)
    (hoperand : frame.operand.condition? = some c) :
    frame.finish? = some (.after junction.condition before c) := by
  cases junction with
  | and =>
    obtain ⟨hbefore, hcurrent⟩ := h
    simp [Frame.finish?, hoperand, hbefore, hcurrent, Condition.after, condition]
  | or =>
    obtain ⟨hbefore, hcurrent⟩ := h
    simp [Frame.finish?, hoperand, hbefore, hcurrent, Condition.after, condition]

theorem isSign_eq_false (h : junction.isWritten separator = true) (c : Char) :
    separator.isSign c = false := by
  cases separator with
  | word letters => rfl
  | _ => cases junction <;> cases h

theorem Joins.read (h : junction.Joins frame before) (hsep : junction.isWritten separator = true)
    (hoperand : frame.operand.condition? = some c) (rest : List (Frame α)) :
    ∃ frame', readToken separator (frame :: rest) = some (frame' :: rest) ∧
      junction.Joins frame' (some (.after junction.condition before c)) ∧
      frame'.operand = .nothing ∧ frame'.tokens = frame.tokens ++ [separator] := by
  refine ⟨frame.read separator, ?_, ?_, ?_, frame.tokens_read separator⟩
  · simp [readToken, isSign_eq_false hsep]
  · cases junction with
    | and =>
      have hand : separator.isAnd = true := hsep
      obtain ⟨hbefore, hcurrent⟩ := h
      constructor
      · simp [Frame.read, hoperand, hand, hbefore]
      · simp [Frame.read, hoperand, hand, hcurrent, condition]
    | or =>
      have hor : separator.isOr = true := hsep
      have hand := Token.isAnd_of_isOr hor
      obtain ⟨hbefore, hcurrent⟩ := h
      constructor
      · simp [Frame.read, hoperand, hand, hor, hbefore, hcurrent, Condition.after, condition]
      · simp [Frame.read, hoperand, hand, hor]
  · cases junction with
    | and =>
      have hand : separator.isAnd = true := hsep
      simp [Frame.read, hoperand, hand]
    | or =>
      have hor : separator.isOr = true := hsep
      simp [Frame.read, hoperand, Token.isAnd_of_isOr hor, hor]

end Junction

/-- Tokens with a token between them. -/
def joined (separator : Token α) : List (List (Token α)) → List (Token α)
  | [] => []
  | [single] => single
  | first :: rest => first ++ separator :: joined separator rest

theorem readTokens_joined {junction : Junction} {separator : Token α}
    (hsep : junction.isWritten separator = true) {operands : List (List (Token α))}
    {cs : List (Condition α)} (h : List.Forall₂ Operates operands cs) (hne : operands ≠ [])
    (frame : Frame α) (rest : List (Frame α)) (before : Option (Condition α))
    (hframe : frame.operand = .nothing) (hjoins : junction.Joins frame before) :
    ∃ frame', readTokens (joined separator operands) (frame :: rest) = some (frame' :: rest) ∧
      frame'.finish? = junction.chain before cs ∧
      frame'.tokens = frame.tokens ++ joined separator operands := by
  induction h generalizing frame before with
  | nil => exact absurd rfl hne
  | @cons first c operands cs hfirst hoperands ih =>
    obtain ⟨operand, hread, hoperand⟩ := hfirst frame rest hframe
    -- the operand changes nothing of what is joined before it
    have hjoins' : junction.Joins
        { frame with operand, tokens := frame.tokens ++ first } before := by
      cases junction <;> exact hjoins
    cases hoperands with
    | nil => exact ⟨_, hread, hjoins'.finish? hoperand, rfl⟩
    | @cons second c' operands cs hsecond hoperands =>
      obtain ⟨next, hnext, hjoins'', hnothing, htokens⟩ := hjoins'.read hsep hoperand rest
      obtain ⟨last, hlast, hfinish, htokens'⟩ :=
        ih (List.cons_ne_nil _ _) next _ hnothing hjoins''
      refine ⟨last, ?_, hfinish, ?_⟩
      · simp only [joined, readTokens_append, hread, Option.bind_some, readTokens, hnext]
        exact hlast
      · rw [htokens', htokens]
        simp only [joined, List.append_assoc, List.cons_append, List.nil_append]

theorem Parses.joined {junction : Junction} {separator : Token α}
    (hsep : junction.isWritten separator = true) {operands : List (List (Token α))}
    {first : Condition α} {cs : List (Condition α)}
    (h : List.Forall₂ Operates operands (first :: cs)) :
    ∃ c, Parses (KnowledgeSearch.joined separator operands) c ∧
      junction.chain (some first) cs = some c := by
  have hsome : ∀ (cs : List (Condition α)) (first : Condition α),
      ∃ c, junction.chain (some first) cs = some c := by
    intro cs
    induction cs with
    | nil => intro first; exact ⟨first, rfl⟩
    | cons second cs ih => intro first; exact ih _
  obtain ⟨c, hc⟩ := hsome cs first
  refine ⟨c, ?_, hc⟩
  intro rest
  have hne : operands ≠ [] := by
    rintro rfl
    cases h
  obtain ⟨frame, hread, hfinish, htokens⟩ :=
    readTokens_joined hsep h hne .empty rest none rfl (by cases junction <;> exact ⟨rfl, rfl⟩)
  exact ⟨frame, hread, hfinish.trans hc, htokens⟩

/-! ### Truth -/

namespace Truth

@[simp] theorem and_yes (a : Truth) : a.and yes = a := by cases a <;> rfl

@[simp] theorem or_no (a : Truth) : a.or no = a := by cases a <;> rfl

theorem and_assoc (a b c : Truth) : (a.and b).and c = a.and (b.and c) := by
  cases a <;> cases b <;> cases c <;> rfl

theorem or_assoc (a b c : Truth) : (a.or b).or c = a.or (b.or c) := by
  cases a <;> cases b <;> cases c <;> rfl

end Truth

theorem Condition.truth_comparison {assign : List (Token α) → Truth} {tokens : List (Token α)}
    (h : Opens tokens) : (Condition.comparison tokens).truth assign = assign tokens := by
  have hnamed := h.named []
  rw [List.append_nil] at hnamed
  simp [Condition.truth, hnamed]

/-- The truth of joined conditions follows from the truth of each, in whatever way they
    are joined. -/
theorem Junction.truth_chain (junction : Junction) (assign : List (Token α) → Truth)
    (first c : Condition α) (cs : List (Condition α))
    (h : junction.chain (some first) cs = some c) :
    c.truth assign = junction.truth ((first :: cs).map (Condition.truth assign)) := by
  induction cs generalizing first with
  | nil =>
    injection h with h
    subst h
    cases junction with
    | and => simp [truth, Truth.all]
    | or => simp [truth, Truth.any]
  | cons second cs ih =>
    have hrest := ih _ h
    rw [hrest]
    cases junction with
    | and =>
      simp [truth, Truth.all, Condition.after, Junction.condition, Condition.truth, Truth.and_assoc]
    | or =>
      simp [truth, Truth.any, Condition.after, Junction.condition, Condition.truth, Truth.or_assoc]

end KnowledgeSearch
