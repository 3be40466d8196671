/-
  KnowledgeSearch/Proofs/Text/Identifier.lean
  ===========================================
  **Characters of identifiers, and texts put together with a separator.**

  Which characters do not occur in an identifier decides what a text made of identifiers
  can be taken for: no quote closes it, no mark of a placeholder begins in it, and it
  falls apart at the separator that it was put together with.
-/
import KnowledgeSearch.Text.Identifier

namespace KnowledgeSearch

open Text (isIdentifierPart isIdentifierStart isIdentifier)

theorem isIdentifierPart_of_start {c : Char} (h : isIdentifierStart c = true) :
    isIdentifierPart c = true := by
  simp only [isIdentifierStart, Bool.or_eq_true] at h
  simp only [isIdentifierPart, Char.isAlphanum, Bool.or_eq_true]
  rcases h with h | h
  · exact Or.inl (Or.inl h)
  · exact Or.inr h

theorem isIdentifierPart_of_mem {name : String} (h : isIdentifier name = true) {c : Char}
    (hc : c ∈ name.toList) : isIdentifierPart c = true := by
  unfold isIdentifier at h
  rcases hl : name.toList with _ | ⟨first, rest⟩
  · rw [hl] at hc; cases hc
  · rw [hl] at h hc
    simp only [Bool.and_eq_true, List.all_eq_true] at h
    rcases List.mem_cons.mp hc with rfl | hc
    · exact isIdentifierPart_of_start h.1
    · exact h.2 c hc

theorem not_mem_of_isIdentifier {name : String} (h : isIdentifier name = true) {c : Char}
    (hc : isIdentifierPart c = false) : c ∉ name.toList := by
  intro hmem
  rw [isIdentifierPart_of_mem h hmem] at hc
  cases hc

namespace Text

variable {separator : Char}

theorem splitAt_append {part : List Char} (h : separator ∉ part) (rest : List Char) :
    splitAt separator (part ++ separator :: rest) = part :: splitAt separator rest := by
  induction part with
  | nil => simp [splitAt]
  | cons c part ih =>
    simp only [List.mem_cons, not_or] at h
    simp [splitAt, ih h.2, Ne.symm h.1]

theorem splitAt_of_not_mem {part : List Char} (h : separator ∉ part) :
    splitAt separator part = [part] := by
  induction part with
  | nil => rfl
  | cons c part ih =>
    simp only [List.mem_cons, not_or] at h
    simp [splitAt, ih h.2, Ne.symm h.1]

/-- Parts without the separator are found again. -/
theorem splitAt_intercalate {parts : List (List Char)} (hne : parts ≠ [])
    (h : ∀ part ∈ parts, separator ∉ part) :
    splitAt separator (List.intercalate [separator] parts) = parts := by
  induction parts with
  | nil => exact absurd rfl hne
  | cons first rest ih =>
    have hfirst := h first List.mem_cons_self
    cases rest with
    | nil => simpa [List.intercalate] using splitAt_of_not_mem hfirst
    | cons second rest =>
      rw [List.intercalate_cons_cons, List.append_assoc, List.singleton_append,
        splitAt_append hfirst, ih (List.cons_ne_nil _ _) fun part hpart =>
          h part (List.mem_cons_of_mem _ hpart)]

end Text

end KnowledgeSearch
