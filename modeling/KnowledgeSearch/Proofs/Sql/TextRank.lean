/-
  KnowledgeSearch/Proofs/Sql/TextRank.lean
  ========================================
  **Which rows a query ranks.**

  A row is ranked by the text of an expression: one if the lowered field matches the bound
  pattern, or else zero.  The expression is read back from its tokens (`RankQuestion.ofTokens?`)
  and answered for a row as the database does, for which only ASCII letters have a case.

  The query is lowered by another function, for which most letters have a case.  What it makes
  of a text is the text itself, ASCII letters aside, only if every other character is its own
  lower case (`Text.map_toLower_lowerFrom_eq_iff`).  Exactly the queries of this kind are found
  in every field that contains them (`Dialect.textRank_lite`).
-/
import KnowledgeSearch.Proofs.Sql.Like
import KnowledgeSearch.Proofs.Sql.Spelling
import Mathlib.Data.List.Infix

namespace KnowledgeSearch

open Fragment (Spelled Completed Separate)

/-! ### Lower case -/

namespace Text

/-- A text as the database lowers it: only ASCII letters have a case. -/
def asciiLower (text : List Char) : List Char := text.map Char.toLower

/-- Whether lowering a text leaves a character as it is, ASCII letters aside. -/
def StaysInside (c : Char) : Prop := c.toNat < 128 ∨ lower (String.singleton c) = String.singleton c

instance : DecidablePred StaysInside := fun c =>
  inferInstanceAs (Decidable (c.toNat < 128 ∨ lower (String.singleton c) = String.singleton c))

theorem toLower_eq_self {c : Char} (h : 128 ≤ c.toNat) : c.toLower = c := by
  apply dif_neg
  rintro ⟨-, hle⟩
  have hlast : c.toNat ≤ 90 := hle
  omega

theorem toLower_of_ascii {c : Char} (h : c.toNat < 128) :
    c.toLower.toNat < 128 ∧ c.toLower.toLower = c.toLower := by
  have hall : ∀ n < 128, (Char.ofNat n).toLower.toNat < 128 ∧
      (Char.ofNat n).toLower.toLower = (Char.ofNat n).toLower := by decide
  have hc := hall c.toNat h
  rwa [Char.ofNat_toNat] at hc

theorem toLower_toLower (c : Char) : c.toLower.toLower = c.toLower := by
  by_cases hascii : c.toNat < 128
  · exact (toLower_of_ascii hascii).2
  · rw [toLower_eq_self (Nat.not_lt.mp hascii), toLower_eq_self (Nat.not_lt.mp hascii)]

/-- Lowering never makes a text shorter. -/
theorem length_le_lowerFrom (before text : List Char) :
    text.length ≤ (lowerFrom before text).length := by
  induction text generalizing before with
  | nil => exact Nat.le_refl 0
  | cons c rest ih =>
    have hrest := ih (c :: before)
    rw [lowerFrom, List.length_append, List.length_cons]
    split
    · simp only [List.length_singleton]
      omega
    · split
      · simp only [List.length_cons, List.length_nil]
        omega
      · simp only [List.length_singleton]
        omega

/-- A character that has one partner is left as it is exactly if that is the same, the case of
    ASCII letters aside. -/
theorem toLower_lowerChar_eq_iff {c : Char} :
    (lowerChar c).toLower = c.toLower ↔ c.toNat < 128 ∨ lowerChar c = c := by
  by_cases hascii : c.toNat < 128
  · have hpartner : lowerChar c = c.toLower := if_pos hascii
    rw [hpartner, toLower_toLower]
    exact iff_of_true rfl (.inl hascii)
  · have hself := toLower_eq_self (Nat.not_lt.mp hascii)
    simp only [hascii, false_or, hself]
    constructor
    · intro h
      by_cases hpartner : (lowerChar c).toNat < 128
      · have hlow := (toLower_of_ascii hpartner).1
        rw [h] at hlow
        exact absurd hlow hascii
      · rwa [toLower_eq_self (Nat.not_lt.mp hpartner)] at h
    · intro h
      rw [h, hself]

theorem lowered_iff {c : Char} :
    lower (String.singleton c) = String.singleton c ↔ lowerFrom [] [c] = [c] := by
  rw [← String.toList_inj, lower, String.toList_ofList, String.toList_singleton]

/-- **A lowered text is the text, the case of ASCII letters aside, exactly if every character
    stays inside.** -/
theorem asciiLower_lowerFrom_eq_iff {before text : List Char} :
    asciiLower (lowerFrom before text) = asciiLower text ↔ ∀ c ∈ text, StaysInside c := by
  induction text generalizing before with
  | nil => simp [lowerFrom, asciiLower]
  | cons c rest ih =>
    have hrest := @ih (c :: before)
    rw [List.forall_mem_cons, StaysInside, lowered_iff, ← hrest]
    simp only [asciiLower, lowerFrom, List.map_append, List.append_nil, List.map_cons]
    by_cases hsigma : c = 'Σ'
    · subst hsigma
      have hmoved : ∀ final : Bool, (if final then 'ς' else 'σ').toLower ≠ 'Σ'.toLower := by
        decide
      have hown : ¬ ('Σ'.toNat < 128 ∨ [if meetsCased [] && !meetsCased [] then 'ς' else 'σ'] =
          ['Σ']) := by decide
      simp only [if_true, hown, false_and, iff_false]
      intro h
      exact hmoved _ (List.cons.inj h).1
    by_cases hdotted : c = 'İ'
    · subst hdotted
      have hown : ¬ ('İ'.toNat < 128 ∨ ['i', '\u0307'] = ['İ']) := by decide
      simp only [hsigma, if_false, if_true, hown, false_and, iff_false]
      intro h
      exact absurd (List.cons.inj h).1 (by decide)
    · simp [hsigma, hdotted, toLower_lowerChar_eq_iff]

/-- A part of a lowered text has nothing left to lower. -/
theorem asciiLower_of_infix {part text : List Char} (h : part <:+: asciiLower text) :
    asciiLower part = part := by
  have hself : ∀ c ∈ part, c.toLower = id c := by
    intro c hc
    obtain ⟨b, -, rfl⟩ := List.mem_map.mp (h.subset hc)
    exact toLower_toLower b
  rw [asciiLower, List.map_congr_left hself, List.map_id]

end Text

open Text (asciiLower StaysInside)

theorem Like.forall₂_sameLetter_iff {a b : List Char} :
    List.Forall₂ (fun c d => sameLetter c d = true) a b ↔ asciiLower a = asciiLower b := by
  rw [asciiLower, asciiLower, ← List.forall₂_eq_eq_eq, List.forall₂_map_left_iff,
    List.forall₂_map_right_iff]
  simp only [sameLetter, beq_iff_eq]

/-! ### The expression of a rank -/

/-- What the rank of a row asks: whether the lowered value of a column, null being no text,
    matches a pattern. -/
structure RankQuestion where
  column : List Char
  pattern : String
  escape : Char

namespace RankQuestion

/-- The tokens before the column. -/
def opening : List BoundToken :=
  [.word "CASE".toList, .word "WHEN".toList, .word "LOWER".toList, .sign '(',
    .word "COALESCE".toList, .sign '(']

/-- The tokens between the column and the pattern. -/
def comparison : List BoundToken :=
  [.sign ',', .quoted [], .sign ')', .sign ')', .word "LIKE".toList]

/-- The tokens behind the escape. -/
def ending : List BoundToken :=
  [.word "THEN".toList, .word ['1'], .sign '.', .word ['0'], .word "ELSE".toList, .word ['0'],
    .sign '.', .word ['0'], .word "END".toList]

def ofTokens? (tokens : List BoundToken) : Option RankQuestion :=
  match dropTokens? opening tokens with
  | some (.word column :: tokens) =>
    match dropTokens? comparison tokens with
    | some (.place (some (.text pattern)) :: tokens) =>
      match dropTokens? [.word "ESCAPE".toList] tokens with
      | some (.quoted [escape] :: tokens) =>
        match dropTokens? ending tokens with
        | some [] => some ⟨column, pattern, escape⟩
        | _ => none
      | _ => none
    | _ => none
  | _ => none

end RankQuestion

/-- The values of a row's columns, null apart. -/
abbrev TextRow := List Char → Option String

/-- The text of a column; null counts as none. -/
def TextRow.text (row : TextRow) (column : List Char) : List Char := ((row column).getD "").toList

/-- The rank of a row: 1 if the lowered text matches, or else 0. -/
def RankQuestion.rank (question : RankQuestion) (row : TextRow) : Nat :=
  if Like.accepts question.escape question.pattern.toList (asciiLower (row.text question.column))
  then 1 else 0

namespace Dialect

/-- The rank that the expression for a column gives a row, if it is read as one. -/
def rank? (column query config : String) (row : TextRow) : Option Nat :=
  (RankQuestion.ofTokens? ((lite.textRank column (.bind (lite.textQuery query)) config).tokens
    .lite)).map fun question => question.rank row

variable {column : String} (hcolumn : Text.isIdentifier column = true)

include hcolumn

theorem ofTokens?_textRank (pattern config : String) :
    RankQuestion.ofTokens? ((lite.textRank column (.bind (.text pattern)) config).tokens .lite) =
      some ⟨column.toList, pattern, '\\'⟩ := by
  have hcase : Completed .lite [.text "CASE WHEN "] [.word "CASE".toList, .word "WHEN".toList] :=
    Completed.text rfl rfl
  have hlower : Completed .lite [.text "LOWER(COALESCE("]
      [.word "LOWER".toList, .sign '(', .word "COALESCE".toList, .sign '('] :=
    Completed.text rfl rfl
  have hname : Spelled .lite [.text column] [.word column.toList] :=
    Spelled.text rfl (Spells.name hcolumn)
  have hlike : Completed .lite [.text ", '')) LIKE "] RankQuestion.comparison :=
    Completed.text rfl rfl
  have hplace : Spelled .lite (Fragment.bind (.text pattern)) [.place (some (.text pattern))] :=
    Spelled.bind _
  have hescape : Completed .lite [.text " ESCAPE '\\'"]
      [.word "ESCAPE".toList, .quoted ['\\']] := Completed.text rfl rfl
  have hend : Spelled .lite [.text " THEN 1.0 ELSE 0.0 END"] RankQuestion.ending :=
    Spelled.text rfl ⟨rfl, rfl⟩
  have hsubject := ((hlower.append_spelled hname).append_completed hlike
    (Separate.of_head (c := ',') rfl rfl)).merge.merge
  have hmatch := ((hcase.append hsubject).append_spelled hplace).append_completed hescape
    (Separate.of_head (c := ' ') rfl rfl)
  have htokens : (lite.textRank column (.bind (.text pattern)) config).tokens .lite =
      RankQuestion.opening ++ .word column.toList :: (RankQuestion.comparison ++
        .place (some (.text pattern)) :: ([.word "ESCAPE".toList] ++
          .quoted ['\\'] :: (RankQuestion.ending ++ []))) :=
    (hmatch.append_spelled hend).tokens_eq
  rw [htokens, RankQuestion.ofTokens?, dropTokens?_append rfl]
  dsimp only
  rw [dropTokens?_append rfl]
  dsimp only
  rw [dropTokens?_append rfl]
  dsimp only
  rw [dropTokens?_append rfl]

/-- What a row's rank says: whether the column contains the lowered query, the case of ASCII
    letters aside. -/
theorem rank?_eq (query config : String) (row : TextRow) :
    rank? column query config row =
      some (if asciiLower (Text.lower query).toList <:+: asciiLower (row.text column.toList)
        then 1 else 0) := by
  obtain ⟨pattern, hquery, hpattern⟩ := textQuery_lite query
  rw [rank?, hquery, ofTokens?_textRank hcolumn, Option.map_some, RankQuestion.rank]
  congr 1
  apply if_congr _ rfl rfl
  dsimp only
  rw [Like.accepts_iff, hpattern, Like.matches_between_iff]
  simp only [Like.forall₂_sameLetter_iff]
  constructor
  · rintro ⟨front, found, back, htext, hfound⟩
    have hpart : found <:+: asciiLower (row.text column.toList) := ⟨front, back, htext.symm⟩
    rwa [hfound, Text.asciiLower_of_infix hpart]
  · rintro ⟨front, back, htext⟩
    refine ⟨front, _, back, htext.symm, ?_⟩
    exact (Text.asciiLower_of_infix ⟨front, back, htext⟩).symm

/-- **A query is found in every text that contains it exactly if lowering it keeps inside of
    ASCII.**  A row has the rank 1 if its text contains the lowered query, the case of ASCII
    letters aside, and 0 otherwise.  That every text that contains the query as it is has the
    rank 1 is so exactly if each of its characters is ASCII or its own lower case. -/
theorem textRank_lite (query config : String) :
    (∀ row, rank? column query config row =
      some (if asciiLower (Text.lower query).toList <:+: asciiLower (row.text column.toList)
        then 1 else 0)) ∧
    ((∀ row : TextRow, query.toList <:+: row.text column.toList →
        rank? column query config row = some 1) ↔
      ∀ c ∈ query.toList, StaysInside c) := by
  refine ⟨rank?_eq hcolumn query config, ?_⟩
  have hlower : (Text.lower query).toList = Text.lowerFrom [] query.toList := by
    rw [Text.lower, String.toList_ofList]
  rw [← @Text.asciiLower_lowerFrom_eq_iff [], ← hlower]
  constructor
  · intro h
    have hself := h (fun _ => some query) (List.infix_refl _)
    rw [rank?_eq hcolumn, Option.some_inj] at hself
    have hfound : asciiLower (Text.lower query).toList <:+: asciiLower query.toList := by
      by_contra hnot
      rw [TextRow.text, Option.getD_some, if_neg hnot] at hself
      cases hself
    apply hfound.eq_of_length_le
    rw [asciiLower, asciiLower, List.length_map, List.length_map, hlower]
    exact Text.length_le_lowerFrom [] query.toList
  · intro h row hrow
    have hpart : asciiLower query.toList <:+: asciiLower (row.text column.toList) :=
      hrow.map Char.toLower
    rw [rank?_eq hcolumn, h, if_pos hpart]

end Dialect

/-- A query of small letters only, beyond ASCII as well, is found wherever it is. -/
theorem Dialect.textRank_lite_small :
    Text.isIdentifier "body" = true ∧
      ∀ row : TextRow, "café".toList <:+: row.text "body".toList →
        rank? "body" "café" "english" row = some 1 := by
  have hcolumn : Text.isIdentifier "body" = true := by decide
  have hletters : "café".toList = ['c', 'a', 'f', 'é'] := rfl
  refine ⟨hcolumn, (textRank_lite hcolumn "café" "english").2.mpr ?_⟩
  simp only [hletters, List.forall_mem_cons]
  exact ⟨by decide, by decide, by decide, by decide, by simp⟩

/-- A capital letter beyond ASCII is not found where it is. -/
theorem Dialect.textRank_misses_capital :
    ∃ row : TextRow, "É".toList <:+: row.text "body".toList ∧
      rank? "body" "É" "english" row = some 0 := by
  refine ⟨fun _ => some "É", List.infix_refl _, ?_⟩
  rw [rank?_eq (by decide)]
  decide

end KnowledgeSearch
