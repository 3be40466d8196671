/-
  KnowledgeSearch/Proofs/Embedding/Text.lean
  ==========================================
  **Embeddings as texts.**

  The text that is bound to a statement is a JSON array of numbers, printed with the fewest
  digits that single precision needs.  The reader goes through it number by number, finding a
  double for each, and narrows what it found; every component is the same number again
  (`Json.readNumber?_format`), so the text is read as the embedding (`Embedding.ofText_toText`).
-/
import KnowledgeSearch.Proofs.Embedding.Json
import KnowledgeSearch.Proofs.Json.NumberText

namespace KnowledgeSearch

namespace Json

variable {c : Char} {tail rest : List Char}

/-- The first character of a number begins no other value. -/
theorem ne_of_beginsNumber (hc : c.isDigit = true ∨ c = '-') :
    ∀ a ∈ [' ', '\n', '\t', '\r', 'n', 't', 'f', '"', '[', ']', '{'], c ≠ a := by
  rintro a ha rfl
  rcases hc with hc | rfl
  · have hchecked : [' ', '\n', '\t', '\r', 'n', 't', 'f', '"', '[', ']', '{'].all
        (fun a => !a.isDigit) = true := by decide
    exact absurd hc (by simpa using List.all_eq_true.mp hchecked c ha)
  · exact absurd ha (by decide)

theorem skipBlanks_number (hc : c.isDigit = true ∨ c = '-') :
    skipBlanks (c :: tail) = c :: tail := by
  apply List.dropWhile_cons_of_neg
  simp [isBlank, ne_of_beginsNumber hc]

/-- A value that begins as a number is read as one. -/
theorem readValue?_number (hc : c.isDigit = true ∨ c = '-') (fuel depth : Nat) :
    readValue? (fuel + 1) depth (c :: tail) =
      (readNumber? (c :: tail)).map fun (n, rest) => (.number n, rest) := by
  have hother := ne_of_beginsNumber hc
  rw [readValue?, skipBlanks_number hc]
  split <;> rename_i heq
  -- all beginnings but the last one are other values
  all_goals first
    | exact absurd (List.cons.inj heq).1 (hother _ (by decide))
    | rfl

/-- An array that begins with a number is read item by item. -/
theorem readValue?_array (hc : c.isDigit = true ∨ c = '-') (fuel depth : Nat) :
    readValue? (fuel + 1) (depth + 1) ('[' :: c :: tail) =
      readItems? fuel depth [] (c :: tail) := by
  have hopen : skipBlanks ('[' :: c :: tail) = '[' :: c :: tail := rfl
  rw [readValue?, hopen]
  simp only [skipBlanks_number hc]
  split
  · rename_i heq
    exact absurd (List.cons.inj heq).1 (ne_of_beginsNumber hc _ (by decide))
  · rfl

/-- A component is read from its text as an item that stands for it. -/
theorem readValue?_format {x : Single} (hx : x.isFinite = true) (hrest : EndsNumber rest)
    (fuel depth : Nat) :
    ∃ item, readValue? (fuel + 1) depth ((plainStyle.format x).toList ++ rest) =
      some (item, rest) ∧ item.toComponent? = some x := by
  obtain ⟨c, tail, number, hformat, hc, hread, hsingle⟩ := readNumber?_format hx hrest
  refine ⟨.number number, ?_, congrArg some hsingle⟩
  rw [hformat, List.cons_append, readValue?_number hc, ← List.cons_append, hread]
  rfl

/-! ### Items between commas -/

/-- What stands between numbers or behind them ends a number. -/
theorem endsNumber_cons (hc : c = ',' ∨ c = ']') (rest : List Char) :
    EndsNumber (c :: rest) := by
  rintro _ ⟨⟩
  rcases hc with rfl | rfl <;> decide

section Items

variable {α β : Type} {text : α → List Char} {f : Json → β} {g : α → β} {xs : List α}

theorem intercalate_cons_cons (x y : α) (xs : List α) :
    [','].intercalate ((x :: y :: xs).map text) =
      text x ++ ',' :: [','].intercalate ((y :: xs).map text) := by
  rw [List.map_cons, List.map_cons, List.intercalate_cons_cons, List.append_assoc]
  rfl

/-- The items of an array are read one by one, if each is read where the text may end or another
    item may follow.  What is known of an item, and may be all of it, is what `f` sees of it. -/
theorem readItems?_intercalate (rest : List Char) (hnonempty : xs ≠ [])
    (hread : ∀ x ∈ xs, ∀ rest, EndsNumber rest → ∀ fuel depth, ∃ item,
      readValue? (fuel + 1) depth (text x ++ rest) = some (item, rest) ∧ f item = g x)
    (fuel depth : Nat) (done : List Json)
    (hfuel : ([','].intercalate (xs.map text)).length < fuel) :
    ∃ items, readItems? (fuel + 1) depth done ([','].intercalate (xs.map text) ++ ']' :: rest) =
        some (.array (done.reverse ++ items), rest) ∧ items.map f = xs.map g := by
  obtain ⟨fuel, rfl⟩ := Nat.exists_eq_succ_of_ne_zero (Nat.ne_zero_of_lt hfuel)
  induction xs generalizing fuel done with
  | nil => exact absurd rfl hnonempty
  | cons x xs ih =>
    obtain ⟨hx, hxs⟩ := List.forall_mem_cons.mp hread
    cases xs with
    | nil =>
      obtain ⟨item, hvalue, hitem⟩ := hx _ (endsNumber_cons (.inr rfl) rest) fuel depth
      refine ⟨[item], ?_, by simp [hitem]⟩
      rw [List.map_singleton, List.intercalate_singleton, readItems?, hvalue, ← List.reverse_cons]
      rfl
    | cons y ys =>
      rw [intercalate_cons_cons, List.length_append, List.length_cons] at hfuel
      obtain ⟨fuel, rfl⟩ : ∃ more, fuel = more + 1 := ⟨fuel - 1, by omega⟩
      obtain ⟨item, hvalue, hitem⟩ := hx _ (endsNumber_cons (.inl rfl)
        ([','].intercalate ((y :: ys).map text) ++ ']' :: rest)) (fuel + 1) depth
      obtain ⟨items, hitems, hmore⟩ := ih (List.cons_ne_nil _ _) hxs (item :: done) fuel (by omega)
      rw [List.reverse_cons, List.append_assoc, List.singleton_append] at hitems
      refine ⟨item :: items, ?_, by rw [List.map_cons, List.map_cons, hitem, hmore]⟩
      rw [intercalate_cons_cons, List.append_assoc, List.cons_append, readItems?, hvalue]
      exact hitems

end Items

/-! ### Numbers between commas -/

/-- The characters of numbers between commas. -/
def itemsText (components : List Single) : List Char :=
  [','].intercalate (components.map fun x => (plainStyle.format x).toList)

theorem itemsText_singleton (x : Single) : itemsText [x] = (plainStyle.format x).toList :=
  List.intercalate_singleton

theorem itemsText_cons_cons (x y : Single) (components : List Single) :
    itemsText (x :: y :: components) =
      (plainStyle.format x).toList ++ ',' :: itemsText (y :: components) :=
  intercalate_cons_cons x y components

/-- Numbers between commas begin with a number. -/
theorem exists_itemsText_eq_cons {components : List Single} (hnonempty : components ≠ [])
    (hfinite : ∀ x ∈ components, x.isFinite = true) :
    ∃ c tail, itemsText components = c :: tail ∧ (c.isDigit = true ∨ c = '-') := by
  obtain ⟨x, components, rfl⟩ := List.exists_cons_of_ne_nil hnonempty
  obtain ⟨c, tail, -, hformat, hc, -⟩ :=
    readNumber?_format (hfinite x List.mem_cons_self) (endsNumber_cons (.inr rfl) [])
  cases components with
  | nil => exact ⟨c, tail, (itemsText_singleton x).trans hformat, hc⟩
  | cons y components =>
    rw [itemsText_cons_cons, hformat]
    exact ⟨c, _, List.cons_append, hc⟩

/-- The items of an array are read one by one, each as the component that it stands for. -/
theorem readItems?_itemsText {components : List Single} (rest : List Char)
    (hnonempty : components ≠ []) (hfinite : ∀ x ∈ components, x.isFinite = true)
    (fuel depth : Nat) (done : List Json) (hfuel : (itemsText components).length < fuel) :
    ∃ items, readItems? (fuel + 1) depth done (itemsText components ++ ']' :: rest) =
        some (.array (done.reverse ++ items), rest) ∧
      items.map toComponent? = components.map some :=
  readItems?_intercalate rest hnonempty (fun _ hx _ hrest => readValue?_format (hfinite _ hx) hrest)
    fuel depth done hfuel

end Json

namespace Embedding

/-- **An embedding is read from its text as it was.**  Every component is the same number again,
    the sign of a zero included, although it is printed for single precision and read as a double
    first. -/
theorem ofText_toText (e : Embedding) : ofText e.toText = .ok e := by
  have htext : e.toText.toList = '[' :: (Json.itemsText e.components ++ [']']) := by
    simp [toText, String.toList_intercalate, Json.itemsText, Function.comp_def]
  obtain ⟨items, hitems, hcomponents⟩ := Json.readItems?_itemsText [] e.nonempty e.finite
    (2 * (Json.itemsText e.components).length + 3) 126 [] (by omega)
  have hvalue : Json.readValue? (2 * (Json.itemsText e.components).length + 5) 127
      ('[' :: (Json.itemsText e.components ++ [']'])) = some (.array items, []) := by
    obtain ⟨c, tail, hcons, hc⟩ := Json.exists_itemsText_eq_cons e.nonempty e.finite
    rw [hcons] at hitems ⊢
    exact (Json.readValue?_array hc _ 126).trans hitems
  have hread : Json.ofString? e.toText = some (.array items) := by
    have hfuel : 2 * ('[' :: (Json.itemsText e.components ++ [']'])).length + 1 =
        2 * (Json.itemsText e.components).length + 5 := by
      rw [List.length_cons, List.length_append, List.length_singleton]
      omega
    rw [Json.ofString?, htext, Json.ofChars?, hfuel, Json.maxNesting, hvalue]
    rfl
  rw [ofText, hread]
  exact ofItems_eq_ok hcomponents

end Embedding

end KnowledgeSearch
