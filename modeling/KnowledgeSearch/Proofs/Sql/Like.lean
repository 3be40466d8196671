/-
  KnowledgeSearch/Proofs/Sql/Like.lean
  ====================================
  **Texts that match a pattern.**

  What it means that a text matches a pattern is said part by part (`Like.Matches`): a
  percent sign matches any sequence, an underscore any character, and every other character
  one that counts as the same, as does every character behind an escape.  Which characters
  count as the same is open, since databases differ there; the matcher of this library, for
  which ASCII letters have no case, decides the relation for that sameness (`Like.holds_iff`).

  The pattern that a query is bound as has its own two percent signs and no others, because the
  escapes leave nothing in the query that is not taken literally.  So the texts that match it are
  those that hold the lowered query (`Dialect.textQuery_matches_iff`).
-/
import KnowledgeSearch.Sql.Dialect
import KnowledgeSearch.Sql.Like
import Mathlib.Data.List.Forall2

namespace KnowledgeSearch

namespace Like

/-! ### Patterns -/

/-- Whether a text matches a pattern, part by part; `same` says which characters a character of
    the pattern stands for. -/
inductive Matches (same : Char → Char → Prop) (escape : Char) : List Char → List Char → Prop where
  | done : Matches same escape [] []
  | anyText {pattern rest : List Char} (hsign : escape ≠ '%') (front : List Char)
      (h : Matches same escape pattern rest) : Matches same escape ('%' :: pattern) (front ++ rest)
  | anyCharacter {pattern rest : List Char} (hsign : escape ≠ '_') (c : Char)
      (h : Matches same escape pattern rest) : Matches same escape ('_' :: pattern) (c :: rest)
  | escaped {c d : Char} {pattern rest : List Char} (hsame : same c d)
      (h : Matches same escape pattern rest) :
      Matches same escape (escape :: c :: pattern) (d :: rest)
  | literal {c d : Char} {pattern rest : List Char} (hplain : c ≠ '%' ∧ c ≠ '_' ∧ c ≠ escape)
      (hsame : same c d) (h : Matches same escape pattern rest) :
      Matches same escape (c :: pattern) (d :: rest)

section Matches

variable {same : Char → Char → Prop} {escape c : Char} {pattern text : List Char}

theorem matches_nil_iff : Matches same escape [] text ↔ text = [] := by
  constructor
  · rintro ⟨⟩
    rfl
  · rintro rfl
    exact .done

theorem matches_anyText_iff (hsign : escape ≠ '%') : Matches same escape ('%' :: pattern) text ↔
    ∃ front rest, text = front ++ rest ∧ Matches same escape pattern rest := by
  constructor
  · intro h
    cases h with
    | anyText _ front h => exact ⟨front, _, rfl, h⟩
    | escaped => exact absurd rfl hsign
    | literal hplain => exact absurd rfl hplain.1
  · rintro ⟨front, rest, rfl, h⟩
    exact .anyText hsign front h

theorem matches_anyCharacter_iff (hsign : escape ≠ '_') :
    Matches same escape ('_' :: pattern) text ↔
      ∃ d rest, text = d :: rest ∧ Matches same escape pattern rest := by
  constructor
  · intro h
    cases h with
    | anyCharacter _ d h => exact ⟨d, _, rfl, h⟩
    | escaped => exact absurd rfl hsign
    | literal hplain => exact absurd rfl hplain.2.1
  · rintro ⟨d, rest, rfl, h⟩
    exact .anyCharacter hsign d h

theorem matches_escaped_iff : Matches same escape (escape :: c :: pattern) text ↔
    ∃ d rest, text = d :: rest ∧ same c d ∧ Matches same escape pattern rest := by
  constructor
  · intro h
    cases h with
    | anyText hsign => exact absurd rfl hsign
    | anyCharacter hsign => exact absurd rfl hsign
    | escaped hsame h => exact ⟨_, _, rfl, hsame, h⟩
    | literal hplain => exact absurd rfl hplain.2.2
  · rintro ⟨d, rest, rfl, hsame, h⟩
    exact .escaped hsame h

theorem matches_literal_iff (hplain : c ≠ '%' ∧ c ≠ '_' ∧ c ≠ escape) :
    Matches same escape (c :: pattern) text ↔
      ∃ d rest, text = d :: rest ∧ same c d ∧ Matches same escape pattern rest := by
  constructor
  · intro h
    cases h with
    | anyText => exact absurd rfl hplain.1
    | anyCharacter => exact absurd rfl hplain.2.1
    | escaped => exact absurd rfl hplain.2.2
    | literal _ hsame h => exact ⟨_, _, rfl, hsame, h⟩
  · rintro ⟨d, rest, rfl, hsame, h⟩
    exact .literal hplain hsame h

/-- An escape at the end of a pattern matches nothing. -/
theorem not_matches_escape : ¬ Matches same escape [escape] text := by
  intro h
  cases h with
  | anyText hsign => exact hsign rfl
  | anyCharacter hsign => exact hsign rfl
  | literal hplain => exact hplain.2.2 rfl

end Matches

/-! ### The matcher -/

section Matcher

variable {escape : Char} {items : List Item} {pattern text : List Char}

theorem mem_suffixes {rest : List Char} : rest ∈ suffixes text ↔ ∃ front, text = front ++ rest := by
  induction text with
  | nil => simp [suffixes]
  | cons c text ih =>
    rw [suffixes, List.mem_cons, ih]
    constructor
    · rintro (rfl | ⟨front, rfl⟩)
      · exact ⟨[], rfl⟩
      · exact ⟨c :: front, rfl⟩
    · rintro ⟨_ | ⟨d, front⟩, h⟩
      · exact .inl h.symm
      · exact .inr ⟨front, (List.cons.inj h).2⟩

theorem admits_anyText_iff : admits (.anyText :: items) text = true ↔
    ∃ front rest, text = front ++ rest ∧ admits items rest = true := by
  simp only [admits, List.any_eq_true, mem_suffixes]
  constructor
  · rintro ⟨rest, ⟨front, h⟩, hrest⟩
    exact ⟨front, rest, h, hrest⟩
  · rintro ⟨front, rest, h, hrest⟩
    exact ⟨rest, ⟨front, h⟩, hrest⟩

theorem admits_anyCharacter_iff : admits (.anyCharacter :: items) text = true ↔
    ∃ d rest, text = d :: rest ∧ admits items rest = true := by
  cases text <;> simp [admits]

theorem admits_literal_iff {c : Char} : admits (.literal c :: items) text = true ↔
    ∃ d rest, text = d :: rest ∧ sameLetter c d = true ∧ admits items rest = true := by
  cases text <;> simp [admits]

/-- A second part for any text in front asks for nothing more. -/
theorem admits_cons (item : Item) (items : List Item) (text : List Char) :
    admits (item.cons items) text = admits (item :: items) text := by
  unfold Item.cons
  split
  · rename_i h
    obtain ⟨rfl, hhead⟩ := h
    obtain ⟨more, rfl⟩ : ∃ more, items = .anyText :: more := by
      cases items with
      | nil => cases hhead
      | cons first more => exact ⟨more, by rw [Option.some.inj hhead]⟩
    rw [Bool.eq_iff_iff]
    refine Iff.trans ?_ admits_anyText_iff.symm
    constructor
    · intro h
      exact ⟨[], text, rfl, h⟩
    · rintro ⟨front, rest, rfl, hrest⟩
      obtain ⟨front', rest', rfl, hmore⟩ := admits_anyText_iff.mp hrest
      rw [← List.append_assoc]
      exact admits_anyText_iff.mpr ⟨front ++ front', rest', rfl, hmore⟩
  · rfl

/-- What a character stands for that is not behind an escape. -/
def Item.ofChar (c : Char) : Item :=
  if c = '%' then .anyText else if c = '_' then .anyCharacter else .literal c

theorem items?_escape_nil : items? (some escape) [escape] = none := if_pos rfl

theorem items?_escape_cons (c : Char) (rest : List Char) :
    items? (some escape) (escape :: c :: rest) =
      (items? (some escape) rest).map (.literal c :: ·) := if_pos rfl

theorem items?_cons {c : Char} (hescape : escape ≠ c) (rest : List Char) :
    items? (some escape) (c :: rest) =
      (items? (some escape) rest).map (Item.ofChar c).cons := by
  have hsome : some escape ≠ some c := fun h => hescape (Option.some.inj h)
  -- the branch is on the rest as well, so each of its forms is unfolded on its own
  cases rest with
  | nil => exact if_neg hsome
  | cons d rest => exact if_neg hsome

/-- Whether a text is admitted by the parts of a pattern, if it has any. -/
def accepts (escape : Char) (pattern text : List Char) : Bool :=
  match items? (some escape) pattern with
  | some items => admits items text
  | none => false

theorem accepts_escaped_iff {c : Char} {rest : List Char} :
    accepts escape (escape :: c :: rest) text = true ↔
      ∃ d tail, text = d :: tail ∧ sameLetter c d = true ∧ accepts escape rest tail = true := by
  unfold accepts
  rw [items?_escape_cons]
  cases items? (some escape) rest with
  | none => simp
  | some items => exact admits_literal_iff

theorem accepts_cons {c : Char} (hescape : escape ≠ c) (rest text : List Char) :
    accepts escape (c :: rest) text =
      match items? (some escape) rest with
      | some items => admits (Item.ofChar c :: items) text
      | none => false := by
  unfold accepts
  rw [items?_cons hescape]
  cases items? (some escape) rest with
  | none => rfl
  | some items => exact admits_cons _ items text

/-- **The matcher decides what it means to match**, the case of ASCII letters aside. -/
theorem accepts_iff : accepts escape pattern text = true ↔
    Matches (fun a b => sameLetter a b = true) escape pattern text := by
  -- an escape takes the character behind it as well, so the induction is on the length
  induction hlength : pattern.length using Nat.strongRecOn generalizing pattern text with
  | ind n ih =>
    subst hlength
    cases pattern with
    | nil => exact List.isEmpty_iff.trans matches_nil_iff.symm
    | cons c rest =>
      by_cases hescape : escape = c
      · subst hescape
        cases rest with
        | nil => simp [accepts, items?_escape_nil, not_matches_escape]
        | cons c rest =>
          have ih' (text : List Char) : accepts escape rest text = true ↔
              Matches (fun a b => sameLetter a b = true) escape rest text :=
            ih rest.length (by rw [List.length_cons, List.length_cons]; omega) rfl
          simp only [accepts_escaped_iff, matches_escaped_iff, ih']
      · have ih' (text : List Char) : accepts escape rest text = true ↔
            Matches (fun a b => sameLetter a b = true) escape rest text :=
          ih rest.length (by simp) rfl
        simp only [accepts] at ih'
        rw [accepts_cons hescape]
        by_cases hpercent : c = '%'
        · subst hpercent
          rw [matches_anyText_iff hescape]
          simp only [← ih']
          cases items? (some escape) rest with
          | none => simp
          | some items => exact admits_anyText_iff
        by_cases hunderscore : c = '_'
        · subst hunderscore
          rw [matches_anyCharacter_iff hescape]
          simp only [← ih']
          cases items? (some escape) rest with
          | none => simp
          | some items => exact admits_anyCharacter_iff
        · rw [matches_literal_iff ⟨hpercent, hunderscore, Ne.symm hescape⟩, Item.ofChar,
            if_neg hpercent, if_neg hunderscore]
          simp only [← ih']
          cases items? (some escape) rest with
          | none => simp
          | some items => exact admits_literal_iff

theorem holds_iff {pattern text : String} : holds (some escape) pattern text = true ↔
    Matches (fun a b => sameLetter a b = true) escape (readable pattern) (readable text) :=
  accepts_iff

/-- A percent sign behind an escape is itself, and one that stands free is any text. -/
example : holds (some '\\') "%50\\%" "Now 50%" = true ∧
    holds (some '\\') "%50\\%" "now 500" = false := by decide

end Matcher

/-! ### Guarded texts -/

section Guarded

variable {same : Char → Char → Prop} {c : Char} {query pattern text : List Char}

/-- A character as it stands in a pattern that takes it literally. -/
def guarded (c : Char) : List Char :=
  if c = '%' ∨ c = '_' ∨ c = '\\' then ['\\', c] else [c]

/-- A guarded character matches one that is the same. -/
theorem matches_guarded_iff : Matches same '\\' (guarded c ++ pattern) text ↔
    ∃ d rest, text = d :: rest ∧ same c d ∧ Matches same '\\' pattern rest := by
  unfold guarded
  by_cases hspecial : c = '%' ∨ c = '_' ∨ c = '\\'
  · rw [if_pos hspecial]
    exact matches_escaped_iff
  · rw [if_neg hspecial]
    rw [not_or, not_or] at hspecial
    exact matches_literal_iff hspecial

/-- A guarded text matches the texts that are the same, character by character. -/
theorem matches_flatMap_guarded_iff : Matches same '\\' (query.flatMap guarded ++ pattern) text ↔
    ∃ found rest, text = found ++ rest ∧ List.Forall₂ same query found ∧
      Matches same '\\' pattern rest := by
  induction query generalizing text with
  | nil =>
    constructor
    · intro h
      exact ⟨[], text, rfl, .nil, h⟩
    · rintro ⟨_, rest, rfl, ⟨⟩, h⟩
      exact h
  | cons c query ih =>
    rw [List.flatMap_cons, List.append_assoc, matches_guarded_iff]
    constructor
    · rintro ⟨d, tail, rfl, hsame, h⟩
      obtain ⟨found, rest, rfl, hfound, h⟩ := ih.mp h
      exact ⟨d :: found, rest, rfl, .cons hsame hfound, h⟩
    · rintro ⟨found, rest, rfl, hfound, h⟩
      cases hfound with
      | cons hsame hfound => exact ⟨_, _, rfl, hsame, ih.mpr ⟨_, rest, rfl, hfound, h⟩⟩

/-- A guarded text between percent signs matches the texts that hold it. -/
theorem matches_between_iff : Matches same '\\' ('%' :: (query.flatMap guarded ++ ['%'])) text ↔
    ∃ front found back, text = front ++ found ++ back ∧ List.Forall₂ same query found := by
  have hsign : '\\' ≠ '%' := by decide
  have hany (rest : List Char) : Matches same '\\' ['%'] rest := by
    rw [matches_anyText_iff hsign]
    exact ⟨rest, [], (List.append_nil rest).symm, .done⟩
  rw [matches_anyText_iff hsign]
  constructor
  · rintro ⟨front, tail, rfl, h⟩
    obtain ⟨found, back, rfl, hfound, -⟩ := matches_flatMap_guarded_iff.mp h
    exact ⟨front, found, back, (List.append_assoc _ _ _).symm, hfound⟩
  · rintro ⟨front, found, back, rfl, hfound⟩
    rw [List.append_assoc]
    exact ⟨front, found ++ back, rfl,
      matches_flatMap_guarded_iff.mpr ⟨found, back, rfl, hfound, hany back⟩⟩

end Guarded

end Like

/-! ### Queries -/

namespace Dialect

open Like (Matches guarded)

theorem toList_escapeLike (text : String) :
    (escapeLike text).toList = text.toList.flatMap guarded := by
  rw [escapeLike, String.toList_ofList]
  rfl

/-- The pattern that a query is bound as: the guarded query between percent signs. -/
theorem textQuery_lite (query : String) : ∃ pattern, lite.textQuery query = .text pattern ∧
    pattern.toList = '%' :: ((Text.lower query).toList.flatMap guarded ++ ['%']) := by
  refine ⟨_, rfl, ?_⟩
  rw [String.toList_append, String.toList_append, toList_escapeLike]
  rfl

/-- **A query is taken literally.**  A text matches the pattern that a query is bound as exactly
    if the lowered query is part of it. -/
theorem textQuery_matches_iff (query : String) :
    ∃ pattern, lite.textQuery query = .text pattern ∧
      ∀ text : String, Matches (· = ·) '\\' pattern.toList text.toList ↔
        (Text.lower query).toList <:+: text.toList := by
  obtain ⟨pattern, hquery, hpattern⟩ := textQuery_lite query
  refine ⟨pattern, hquery, fun text => ?_⟩
  rw [hpattern, Like.matches_between_iff]
  constructor
  · rintro ⟨front, found, back, htext, hfound⟩
    rw [List.forall₂_eq_eq_eq] at hfound
    subst hfound
    exact ⟨front, back, htext.symm⟩
  · rintro ⟨front, back, htext⟩
    exact ⟨front, _, back, htext.symm, List.forall₂_same.mpr fun _ _ => rfl⟩

end Dialect

end KnowledgeSearch
