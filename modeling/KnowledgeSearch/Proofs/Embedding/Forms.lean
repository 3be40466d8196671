/-
  KnowledgeSearch/Proofs/Embedding/Forms.lean
  ===========================================
  **The forms of an embedding.**

  The same numbers may be given as an array, as the text of that array and between commas alone.
  The first two are read by the same steps, so they never differ.  The third does not go through
  double precision: each of its numbers is rounded once, and those of the others twice
  (`Embedding.ofText_tokens`).  So the forms give the same vector as long as no literal is moved
  over a middle on its way through the double, and that is the only exception, but for vectors
  that are rejected because some component is not finite (`Embedding.ofJson_literals`).
-/
import KnowledgeSearch.Proofs.Embedding.Text
import KnowledgeSearch.Proofs.Json.Magnitude
import KnowledgeSearch.Proofs.Text.Identifier

namespace KnowledgeSearch

open Format (binary32)

namespace Text

/-- A text without blanks is not trimmed. -/
theorem trimChars_eq {text : List Char} (h : ∀ c ∈ text, isBlank c = false) :
    trimChars text = text := by
  have hdrop (text : List Char) (h : ∀ c ∈ text, isBlank c = false) :
      text.dropWhile isBlank = text := by
    cases text with
    | nil => rfl
    | cons c text => exact List.dropWhile_cons_of_neg (by simp [h c List.mem_cons_self])
  rw [trimChars, hdrop text h, hdrop _ (by simpa using h), List.reverse_reverse]

end Text

namespace Json

variable {c : Char} {text : List Char}

/-- Characters of numbers are neither blank nor marks of an array. -/
theorem isNumberChar_spec (hc : isNumberChar c = true) :
    Text.isBlank c = false ∧ c ≠ ',' ∧ c ≠ '[' ∧ c ≠ ']' := by
  simp only [isNumberChar, Bool.or_eq_true, decide_eq_true_eq] at hc
  rcases hc with hdigit | hmark
  · have halphanum : c.isAlphanum = true := by simp [Char.isAlphanum, hdigit]
    exact ⟨(Text.isWord_of_isAlphanum halphanum).2, ne_of_isDigit hdigit rfl,
      ne_of_isDigit hdigit rfl, ne_of_isDigit hdigit rfl⟩
  · simp only [List.mem_cons, List.not_mem_nil, or_false] at hmark
    rcases hmark with rfl | rfl | rfl | rfl | rfl <;> decide

/-- A text that begins with a number is no array. -/
theorem ofString?_ne_array {text : String} {tail : List Char} (htext : text.toList = c :: tail)
    (hc : c.isDigit = true ∨ c = '-') (items : List Json) :
    ofString? text ≠ some (.array items) := by
  rw [ofString?, htext, ofChars?, readValue?_number hc]
  cases readNumber? (c :: tail) with
  | none => simp
  | some p =>
    dsimp only [Option.map_some]
    split <;> simp

namespace Literal

/-- A literal is read as its number where the text may end or another item may follow. -/
theorem readValue? (l : Literal) {rest : List Char} (hrest : EndsNumber rest) (fuel depth : Nat) :
    Json.readValue? (fuel + 1) depth (l.text.toList ++ rest) = some (.number l.number, rest) := by
  obtain ⟨c, tail, htext, hc⟩ := l.grammar.exists_cons
  have hread := l.grammar.readNumber? l.read hrest
  rw [htext, List.cons_append] at hread ⊢
  rw [readValue?_number hc, hread]
  rfl

end Literal

/-- The characters of literals between commas. -/
def listedChars (literals : List Literal) : List Char :=
  [','].intercalate (literals.map fun l => l.text.toList)

variable {literals : List Literal}

theorem exists_listedChars_eq_cons (hnonempty : literals ≠ []) :
    ∃ c tail, listedChars literals = c :: tail ∧ (c.isDigit = true ∨ c = '-') := by
  obtain ⟨l, literals, rfl⟩ := List.exists_cons_of_ne_nil hnonempty
  obtain ⟨c, tail, htext, hc⟩ := l.grammar.exists_cons
  cases literals with
  | nil => exact ⟨c, tail, List.intercalate_singleton.trans htext, hc⟩
  | cons m literals =>
    rw [listedChars, intercalate_cons_cons, htext]
    exact ⟨c, _, List.cons_append, hc⟩

theorem mem_listedChars (h : c ∈ listedChars literals) : isNumberChar c = true ∨ c = ',' := by
  induction literals with
  | nil => cases h
  | cons l literals ih =>
    cases literals with
    | nil =>
      rw [listedChars, List.map_singleton, List.intercalate_singleton] at h
      exact .inl (l.grammar.isNumberChar c h)
    | cons m literals =>
      rw [listedChars, intercalate_cons_cons, List.mem_append, List.mem_cons] at h
      rcases h with hl | rfl | hmore
      · exact .inl (l.grammar.isNumberChar c hl)
      · exact .inr rfl
      · exact ih hmore

/-- **The text of an array of literals is read as the array of their numbers.** -/
theorem ofString?_literals (hnonempty : literals ≠ []) {text : String}
    (htext : text.toList = '[' :: (listedChars literals ++ [']'])) :
    ofString? text = some (.array (literals.map fun l => .number l.number)) := by
  obtain ⟨items, hitems, hnumbers⟩ := readItems?_intercalate (f := id)
    (g := fun l : Literal => .number l.number) [] hnonempty
    (fun l _ rest hrest fuel depth => ⟨_, l.readValue? hrest fuel depth, rfl⟩)
    (2 * (listedChars literals).length + 3) 126 [] (by rw [listedChars]; omega)
  rw [List.map_id] at hnumbers
  subst hnumbers
  have hfuel : 2 * ('[' :: (listedChars literals ++ [']'])).length + 1 =
      2 * (listedChars literals).length + 3 + 1 + 1 := by
    rw [List.length_cons, List.length_append, List.length_singleton]
    omega
  obtain ⟨c, tail, hcons, hc⟩ := exists_listedChars_eq_cons hnonempty
  have hvalue : Json.readValue? (2 * (listedChars literals).length + 3 + 1 + 1) maxNesting
      ('[' :: (listedChars literals ++ [']'])) =
        some (.array (literals.map fun l => .number l.number), []) := by
    rw [hcons]
    rw [← listedChars, hcons] at hitems
    exact (readValue?_array hc _ 126).trans hitems
  rw [ofString?, htext, ofChars?, hfuel, hvalue]
  rfl

end Json

namespace Embedding

variable {literals : List Json.Literal}

/-- The array of the numbers of literals. -/
theorem ofItems_literals (literals : List Json.Literal) :
    ofItems (literals.map fun l => .number l.number) =
      ofComponents (literals.map Json.Literal.twice) := by
  have hread : readItems 0 (literals.map fun l => .number l.number) =
      .ok (literals.map Json.Literal.twice) := by
    rw [readItems_eq_ok_iff, List.map_map, List.map_map]
    rfl
  rw [ofItems, hread]
  rfl

/-- Literals between commas are read one by one, each in one rounding. -/
theorem readTokens_literals (input : String) (literals : List Json.Literal) :
    readTokens input (literals.map fun l => l.text.toList) =
      .ok (literals.map Json.Literal.once) := by
  induction literals with
  | nil => rfl
  | cons l literals ih =>
    have htrim : Text.trimChars l.text.toList = l.text.toList := Text.trimChars_eq fun c hc =>
      (Json.isNumberChar_spec (l.grammar.isNumberChar c hc)).1
    rw [List.map_cons, readTokens]
    simp only [htrim, l.grammar.ofChars? .binary32, ih]
    rfl

/-- Without brackets there are none to remove. -/
theorem dropBrackets_eq {text : List Char} (h : ∀ c ∈ text, c ≠ '[' ∧ c ≠ ']') :
    dropBrackets text = text := by
  have hlast : ¬ (text.getLast? == some ']') = true := by
    rw [beq_iff_eq]
    exact fun hlast => (h _ (List.mem_of_getLast? hlast)).2 rfl
  rw [dropBrackets, if_neg hlast]
  rintro rest rfl
  exact (h '[' List.mem_cons_self).1 rfl

/-- **Literals between commas are rounded once.** -/
theorem ofText_tokens (hnonempty : literals ≠ []) {text : String}
    (htext : text.toList = Json.listedChars literals) :
    ofText text = ofComponents (literals.map Json.Literal.once) := by
  obtain ⟨c, tail, hcons, hc⟩ := Json.exists_listedChars_eq_cons hnonempty
  have hblank : ∀ a ∈ Json.listedChars literals, Text.isBlank a = false := by
    intro a ha
    rcases Json.mem_listedChars ha with hnumber | rfl
    · exact (Json.isNumberChar_spec hnumber).1
    · rfl
  have hplain : dropBrackets (Json.listedChars literals) = Json.listedChars literals :=
    dropBrackets_eq fun a ha => (Json.mem_listedChars ha).elim
      (fun hnumber => (Json.isNumberChar_spec hnumber).2.2) (by rintro rfl; decide)
  have hsome : ¬ (Json.listedChars literals).all Text.isBlank = true := by
    rw [hcons] at hblank ⊢
    simp [hblank c List.mem_cons_self]
  have hsplit : Text.splitAt ',' (Json.listedChars literals) =
      literals.map fun l => l.text.toList := by
    apply Text.splitAt_intercalate (by simpa using hnonempty)
    rintro _ hpart hcomma
    obtain ⟨l, -, rfl⟩ := List.mem_map.mp hpart
    exact (Json.isNumberChar_spec (l.grammar.isNumberChar _ hcomma)).2.1 rfl
  rw [ofText]
  split
  · rename_i items harray
    exact absurd harray (Json.ofString?_ne_array (htext.trans hcons) hc items)
  · rw [ofTokens, htext, Text.trimChars_eq hblank, hplain]
    simp only [if_neg hsome, hsplit, readTokens_literals]
    rfl

/-- Components that are not all finite are no embedding, and other components are one that has
    them. -/
theorem toOption_ofComponents_eq_iff {xs ys : List Single} (hxs : xs ≠ []) (hys : ys ≠ []) :
    (ofComponents xs).toOption = (ofComponents ys).toOption ↔
      xs = ys ∨ (∃ x ∈ xs, x.isFinite = false) ∧ ∃ y ∈ ys, y.isFinite = false := by
  have hread {xs : List Single} (hxs : xs ≠ []) :
      (ofComponents xs).toOption = if h : ∀ x ∈ xs, x.isFinite = true then some ⟨xs, hxs, h⟩
        else none := by
    rw [ofComponents, dif_pos hxs]
    split <;> rfl
  have hinfinite {xs : List Single} :
      (∃ x ∈ xs, x.isFinite = false) ↔ ¬ ∀ x ∈ xs, x.isFinite = true := by simp
  rw [hread hxs, hread hys, hinfinite, hinfinite]
  by_cases hx : ∀ x ∈ xs, x.isFinite = true
  · rw [dif_pos hx]
    by_cases hy : ∀ y ∈ ys, y.isFinite = true
    · rw [dif_pos hy, Option.some.injEq, Embedding.mk.injEq]
      exact ⟨.inl, fun h => h.resolve_right fun hinfinite => hinfinite.1 hx⟩
    · rw [dif_neg hy]
      refine iff_of_false (Option.some_ne_none _) ?_
      rintro (rfl | ⟨hinfinite, -⟩)
      · exact hy hx
      · exact hinfinite hx
  · rw [dif_neg hx]
    by_cases hy : ∀ y ∈ ys, y.isFinite = true
    · rw [dif_pos hy]
      refine iff_of_false (Option.some_ne_none _).symm ?_
      rintro (rfl | ⟨-, hinfinite⟩)
      · exact hx hy
      · exact hinfinite hy
    · rw [dif_neg hy]
      exact iff_of_true rfl (.inr ⟨hx, hy⟩)

/-- **The forms of an embedding.**  For numbers of JSON, however many, the array and its text
    always give the same, an embedding or an error.  The literals between commas alone give the
    same embedding as these, or an error as these do, exactly if no middle of single precision
    separates what a literal writes from the double that it is read as, or if some number is too
    large in either reading. -/
theorem ofJson_literals {texts : List String} (hnonempty : texts ≠ [])
    (hread : ∀ text ∈ texts, ∃ n, Json.readNumber? text.toList = some (n, [])) :
    ∃ literals : List Json.Literal, literals.map Json.Literal.text = texts ∧
      let array := Json.array (literals.map fun l => .number l.number)
      ofJson (.string ("[" ++ String.intercalate "," texts ++ "]")) = ofJson array ∧
      ((ofJson (.string (String.intercalate "," texts))).toOption = (ofJson array).toOption ↔
        (∀ l ∈ literals, binary32.NoMiddleBetween l.magnitude |l.number.toDouble.toRat|) ∨
        (∃ l ∈ literals, Binary.overflow ≤ l.magnitude) ∧
          ∃ l ∈ literals, Binary.overflow ≤ |l.number.toDouble.toRat|) := by
  obtain ⟨literals, rfl⟩ := Json.exists_literals hread
  have hnonempty : literals ≠ [] := fun h => hnonempty (congrArg _ h)
  have hlisted : (String.intercalate "," (literals.map Json.Literal.text)).toList =
      Json.listedChars literals := by
    simp [String.toList_intercalate, Json.listedChars, Function.comp_def]
  have htext : ("[" ++ String.intercalate "," (literals.map Json.Literal.text) ++ "]").toList =
      '[' :: (Json.listedChars literals ++ [']']) := by
    simp [hlisted]
  refine ⟨literals, rfl, ?_, ?_⟩
  · change ofText _ = ofItems _
    rw [ofText, Json.ofString?_literals hnonempty htext]
  · have hone : literals.map Json.Literal.once ≠ [] := by simpa using hnonempty
    have htwo : literals.map Json.Literal.twice ≠ [] := by simpa using hnonempty
    rw [ofJson, ofJson, ofText_tokens hnonempty hlisted, ofItems_literals,
      toOption_ofComponents_eq_iff hone htwo, List.map_inj_left]
    simp only [Json.Literal.once_eq_twice_iff, List.mem_map, exists_exists_and_eq_and,
      (Json.Literal.isNearest_once _).isFinite_eq_false_iff,
      (Json.Literal.isNearest_twice _).isFinite_eq_false_iff]

/-- The forms agree on a number that a double has exactly. -/
theorem ofJson_literals_half : ∃ l : Json.Literal, l.text = "0.5" ∧
    Json.readNumber? "0.5".toList = some (l.number, []) ∧
    ofJson (.string "[0.5]") = ofJson (.array [.number l.number]) ∧
    (ofJson (.string "0.5")).toOption = (ofJson (.array [.number l.number])).toOption := by
  obtain ⟨l, htext, hsame⟩ := Json.exists_literal_half
  have hread : Json.readNumber? "0.5".toList = some (l.number, []) := htext ▸ l.readNumber?
  obtain ⟨literals, htexts, harray, htokens⟩ := ofJson_literals (List.cons_ne_nil "0.5" [])
    (List.forall_mem_singleton.mpr ⟨_, hread⟩)
  obtain ⟨m, rfl, hm⟩ := List.map_eq_singleton_iff.mp htexts
  obtain rfl : m = l := Json.Literal.eq_of_text (hm.trans htext.symm)
  refine ⟨m, htext, hread, harray, htokens.mpr (.inl ?_)⟩
  rw [List.forall_mem_singleton]
  exact m.once_eq_twice_iff.mp hsame

/-- A literal that becomes a middle as a double is the number above it between commas, and the one
    below it otherwise. -/
theorem ofJson_literals_separated : ∃ l : Json.Literal, l.text = "16777217.0000000001" ∧
    Json.readNumber? "16777217.0000000001".toList = some (l.number, []) ∧
    (ofJson (.array [.number l.number])).toOption.map components = some [.ofInt 16777216] ∧
    (ofJson (.string "[16777217.0000000001]")).toOption.map components = some [.ofInt 16777216] ∧
    (ofJson (.string "16777217.0000000001")).toOption.map components = some [.ofInt 16777218] := by
  obtain ⟨l, htext, hone, htwo⟩ := Json.exists_literal_near_middle
  have hcomponents {x : Single} (hx : x.isFinite = true) :
      (ofComponents [x]).toOption.map components = some [x] :=
    congrArg (fun result => result.toOption.map components)
      (ofComponents_components ⟨[x], by simp, by simpa⟩)
  have hlisted : Json.listedChars [l] = "16777217.0000000001".toList := by
    rw [Json.listedChars, List.map_singleton, List.intercalate_singleton, htext]
  have hnonempty : [l] ≠ [] := List.cons_ne_nil _ _
  have harray : ofItems [.number l.number] = ofComponents [l.twice] := ofItems_literals [l]
  have htokens : ofText "16777217.0000000001" = ofComponents [l.once] :=
    ofText_tokens hnonempty hlisted.symm
  have htextual : ofText "[16777217.0000000001]" = ofItems [.number l.number] := by
    rw [ofText, Json.ofString?_literals hnonempty (by rw [hlisted]; rfl)]
    rfl
  refine ⟨l, htext, htext ▸ l.readNumber?, ?_, ?_, ?_⟩
  · rw [ofJson, harray, htwo]
    exact hcomponents (by decide +kernel)
  · rw [ofJson, htextual, harray, htwo]
    exact hcomponents (by decide +kernel)
  · rw [ofJson, htokens, hone]
    exact hcomponents (by decide +kernel)

end Embedding

end KnowledgeSearch
