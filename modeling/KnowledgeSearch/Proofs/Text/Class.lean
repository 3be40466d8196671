/-
  KnowledgeSearch/Proofs/Text/Class.lean
  ======================================
  **Facts about classes of characters.**

  A class is a Boolean on characters.  A scan for a class takes a text of it whole
  (`parts_of_class`).  There are few blanks and few characters of ASCII, so a fact about all
  of them follows by checking each (`of_isBlank`, `of_ascii`).
-/
import KnowledgeSearch.Text.Blank
import KnowledgeSearch.Text.Word

namespace KnowledgeSearch.Text

/-- Characters of a class, up to the first that is none, are told from what follows them. -/
theorem parts_of_class {p : Char → Bool} {early : List Char} (late : List Char)
    (hearly : ∀ c ∈ early, p c = true) (hlate : ∀ c, late.head? = some c → p c = false) :
    (early ++ late).takeWhile p = early ∧ (early ++ late).dropWhile p = late := by
  rw [List.takeWhile_append_of_pos hearly, List.dropWhile_append_of_pos hearly]
  cases late with
  | nil => simp
  | cons c late => simp [hlate c rfl]

def blankCodes : List Nat :=
  [9, 10, 11, 12, 13, 0x20, 0x85, 0xA0, 0x1680, 0x2000, 0x2001, 0x2002, 0x2003, 0x2004, 0x2005,
    0x2006, 0x2007, 0x2008, 0x2009, 0x200A, 0x2028, 0x2029, 0x202F, 0x205F, 0x3000]

/-- What holds of each blank holds of a character that is one. -/
theorem of_isBlank {P : Char → Prop} (h : ∀ n ∈ blankCodes, P (Char.ofNat n)) {c : Char}
    (hc : isBlank c = true) : P c := by
  have hcode : c.toNat ∈ blankCodes := by
    simp only [isBlank, Bool.or_eq_true, Bool.and_eq_true, decide_eq_true_eq, beq_iff_eq] at hc
    simp only [blankCodes, List.mem_cons, List.not_mem_nil, or_false]
    omega
  rw [← Char.ofNat_toNat c]
  exact h _ hcode

/-- What holds of each character of ASCII holds of a character that is one. -/
theorem of_ascii {P : Char → Prop} (h : ∀ n < 128, P (Char.ofNat n)) {c : Char}
    (hc : c.toNat < 128) : P c := by
  rw [← Char.ofNat_toNat c]
  exact h _ hc

theorem toNat_lt_of_isAlphanum {c : Char} (h : c.isAlphanum = true) : c.toNat < 128 := by
  have hcases : ((decide (c.val ≥ 'A'.val ∧ c.val ≤ 'Z'.val) ||
      (decide (c.val ≥ 'a'.val) && decide (c.val ≤ 'z'.val))) ||
      (decide (c.val ≥ '0'.val) && decide (c.val ≤ '9'.val))) = true := h
  simp only [Bool.or_eq_true, Bool.and_eq_true, decide_eq_true_eq, UInt32.le_iff_toNat_le,
    Char.reduceVal, UInt32.reduceToNat] at hcases
  simp only [Char.toNat]
  omega

/-- ASCII letters and digits belong to words and are not blank. -/
theorem isWord_of_isAlphanum {c : Char} (h : c.isAlphanum = true) :
    isWord c = true ∧ isBlank c = false := by
  have hascii := toNat_lt_of_isAlphanum h
  revert h
  exact of_ascii (P := fun c => c.isAlphanum = true → isWord c = true ∧ isBlank c = false)
    (by decide +kernel) hascii

/-- A letter that stands for a letter, a digit or an underscore belongs to words. -/
theorem isWord_of_foldChar {c : Char} (h : (foldChar c).isAlphanum = true ∨ foldChar c = '_') :
    isWord c = true := by
  by_cases hs : c = '\u017f'
  · subst hs
    decide +kernel
  by_cases hk : c = '\u212a'
  · subst hk
    decide +kernel
  have hlower : foldChar c = c.toLower := by simp [foldChar, hs, hk]
  have hlow : c.toLower.toNat < 128 := by
    rw [hlower] at h
    rcases h with h | h
    · exact toNat_lt_of_isAlphanum h
    · rw [h]
      decide
  have hascii : c.toNat < 128 := by
    unfold Char.toLower at hlow
    split at hlow
    · rename_i hupper
      have hle := hupper.2
      simp only [UInt32.le_iff_toNat_le, Char.reduceVal, UInt32.reduceToNat] at hle
      simp only [Char.toNat]
      omega
    · exact hlow
  revert h
  exact of_ascii
    (P := fun c => (foldChar c).isAlphanum = true ∨ foldChar c = '_' → isWord c = true)
    (by decide +kernel) hascii

end KnowledgeSearch.Text
