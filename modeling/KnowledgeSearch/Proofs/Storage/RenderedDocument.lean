/-
  KnowledgeSearch/Proofs/Storage/RenderedDocument.lean
  ====================================================
  **What is shown of a string in a document.**

  A JSON parameter is shown by its compact text.  There a quotation mark stands between a key and
  its colon, so no keyword is followed by a sign at a member, and none of the two scans
  recognises a member's string as a secret, whatever its key.  It is not shown if it happens to
  stand in the middle of a login or of a value, or too far from the beginning to be
  rendered at all, and otherwise letter by letter (`renderParameter_string_iff`).
-/
import KnowledgeSearch.Proofs.Json.Place
import KnowledgeSearch.Proofs.Storage.Secret
import Mathlib.Data.List.Basic

namespace KnowledgeSearch.Redact

open Text (isBlank foldChar parts_of_class)
open Json (Frame Place)

/-! ### Between quotation marks -/

section Quoted

variable {init late w : List Char}

/-- What a login keeps has a slash behind its first colon and ends with its second. -/
theorem Login.slash_of_kept {l : Login} {early late : List Char} {c : Char}
    (h : l.kept = early ++ ':' :: c :: late) : c = '/' := by
  have hscheme : ':' ∉ l.scheme := fun hmem => absurd (l.schemePart _ hmem) (by decide)
  have huser : ':' ∉ l.user := fun hmem => absurd (l.userPart _ hmem) (by decide)
  have hkept : l.scheme ++ ':' :: '/' :: '/' :: (l.user ++ [':']) = early ++ ':' :: c :: late := by
    rw [← h]
    simp [kept]
  rcases List.append_eq_append_iff.mp hkept with ⟨beyond, -, hrest⟩ | ⟨beyond, hbeyond, hrest⟩
  · cases beyond with
    | nil =>
      simp only [List.nil_append, List.cons.injEq] at hrest
      exact hrest.2.1.symm
    | cons d beyond =>
      have hsecond : ('/' :: '/' :: l.user) ++ ':' :: [] = beyond ++ ':' :: c :: late :=
        (List.cons.inj hrest).2
      have hends := (List.append_cons_inj_of_notMem (by simp [huser]) (by simp)).mp hsecond
      exact absurd hends.2.2 (by simp)
  · cases beyond with
    | nil =>
      simp only [List.nil_append, List.cons.injEq] at hrest
      exact hrest.2.1
    | cons d beyond =>
      obtain ⟨rfl, -⟩ := List.cons.inj hrest
      exact absurd (by simp [hbeyond]) hscheme

/-- No login keeps what stands before a string. -/
theorem Login.kept_ne {l : Login} {init text beyond : List Char} (hsome : text ≠ [])
    (hsuffix : text <:+ init ++ [':', '"']) : l.kept ≠ text ++ beyond := by
  intro hkept
  obtain ⟨start, hstart⟩ := hsuffix
  obtain ⟨middle, last, rfl⟩ := text.eq_nil_or_concat.resolve_left hsome
  have hends : (start ++ middle) ++ [last] = (init ++ [':']) ++ ['"'] := by simpa using hstart
  obtain ⟨hinit, hlast⟩ := List.append_inj' hends rfl
  obtain rfl : last = '"' := by simpa using hlast
  -- alone the quotation mark begins no scheme, and behind a colon it is no slash
  rcases middle.eq_nil_or_concat with rfl | ⟨run, colon, rfl⟩
  · obtain ⟨first, hhead, hfirst⟩ := l.begins
    obtain ⟨others, hscheme⟩ := List.head?_eq_some_iff.mp hhead
    rw [kept, hscheme] at hkept
    obtain rfl : first = '"' := (List.cons.inj hkept).1
    revert hfirst
    decide
  · have hends : (start ++ run) ++ [colon] = init ++ [':'] := by simpa using hinit
    obtain ⟨-, hcolon⟩ := List.append_inj' hends rfl
    obtain rfl : colon = ':' := by simpa using hcolon
    have hkept : l.kept = run ++ ':' :: '"' :: beyond := by simpa using hkept
    exact absurd (Login.slash_of_kept hkept) (by decide)

/-- Neither of the scans finds anything in a text of letters and digits. -/
theorem findPassword?_plain {before : Option Char}
    (hplain : ∀ c ∈ w, c.isAlphanum = true) : findPassword? before (w ++ '"' :: late) = none := by
  refine Option.eq_none_iff_forall_ne_some.mpr fun masked hfound => ?_
  obtain ⟨l, rest, htext, -⟩ := findPassword?_eq_some_iff.mp hfound
  have hpart : ∀ c ∈ w, isSchemePart c = true := by
    intro c hc
    rcases Bool.or_eq_true_iff.mp (hplain c hc) with hc | hc
    · simp [isSchemePart, isSchemeStart_of_isAlpha hc]
    · simp [isSchemePart, hc]
  have hquote := (parts_of_class ('"' :: late) hpart (by rintro c ⟨⟩; decide)).2
  have hcolon := (l.split_scheme rest).2
  rw [← htext, hquote] at hcolon
  cases hcolon

theorem findSecret?_plain {before : Option Char} (hplain : ∀ c ∈ w, c.isAlphanum = true) :
    findSecret? before (w ++ '"' :: late) = none := by
  refine Option.eq_none_iff_forall_ne_some.mpr fun masked hfound => ?_
  obtain ⟨-, l, rest, htext, -, -⟩ := findSecret?_eq_some_iff.mp hfound
  have hmem : l.sign ∈ w := by
    have hsign : l.sign ∈ l.text := by simp [Label.text]
    rcases List.append_eq_append_iff.mp htext with ⟨beyond, hbeyond, hrest⟩ | ⟨between, rfl, -⟩
    · cases beyond with
      | nil => rwa [hbeyond, List.append_nil] at hsign
      | cons d beyond =>
        obtain ⟨rfl, -⟩ := List.cons.inj hrest
        have hquote : '"' ∉ l.text := l.not_mem_text (by decide) (by decide)
        exact absurd (by simp [hbeyond]) hquote
    · exact List.mem_append_left _ hsign
  have hletter := hplain _ hmem
  rcases l.isSign with hsign | hsign <;> rw [hsign] at hletter <;> revert hletter <;> decide

theorem replaceFrom_findPassword?_plain (before : Option Char)
    (hplain : ∀ c ∈ w, c.isAlphanum = true) :
    replaceFrom findPassword? before 0 (w ++ '"' :: late) = w ++ '"' :: maskPasswords late := by
  rw [replaceFrom_copied fun before text _ hsuffix =>
    findPassword?_plain fun c hc => hplain c (hsuffix.subset hc), replaceFrom_findPassword? _ none]
  exact congrArg _ (maskPasswords_cons late (by decide))

theorem replaceFrom_findSecret?_plain (before : Option Char)
    (hplain : ∀ c ∈ w, c.isAlphanum = true) :
    replaceFrom findSecret? before 0 (w ++ '"' :: late) =
      w ++ '"' :: replaceFrom findSecret? (some '"') 0 late := by
  rw [replaceFrom_copied fun before text _ hsuffix =>
    findSecret?_plain fun c hc => hplain c (hsuffix.subset hc)]
  simp only [replaceFrom, findSecret?_eq_none (c := '"') (by decide)]

/-- A text of letters and digits goes on with no keyword behind a quotation mark. -/
theorem continues_plain (hsome : w ≠ []) (hplain : ∀ c ∈ w, c.isAlphanum = true) :
    Continues (some '"') (w ++ '"' :: late) := by
  obtain ⟨c, rest, rfl⟩ := List.exists_cons_of_ne_nil hsome
  have hc := hplain c List.mem_cons_self
  refine ⟨c, _, rfl, (Text.isWord_of_isAlphanum hc).2, ?_, ?_, ?_⟩
  · exact ne_of_apply_ne Char.isAlphanum (by rw [hc]; decide)
  · exact ne_of_apply_ne Char.isAlphanum (by rw [hc]; decide)
  · rintro d ⟨⟩ ⟨word, hword, hinside⟩
    have hnone : ∀ word ∈ keywords, foldChar '"' ∉ word := by decide
    exact hnone word hword (hinside.subset List.mem_cons_self)

end Quoted

/-- Texts of ASCII letters and digits. -/
abbrev Plain := { w : List Char // w ≠ [] ∧ ∀ c ∈ w, c.isAlphanum = true }

theorem Plain.isPlain (w : Plain) : IsPlain (String.ofList w.1) := by
  simpa [IsPlain] using w.2

def Plain.ofText {w : String} (hw : IsPlain w) : Plain :=
  ⟨w.toList, by simpa using hw.1, hw.2⟩

def Plain.letter : Plain := ⟨['x'], by simp⟩

def Plain.toPassword (w : Plain) : Password :=
  ⟨w.1, w.2.1, fun c hc => by
    have hletter := w.2.2 c hc
    have hsign : c ≠ '@' := ne_of_apply_ne Char.isAlphanum (by rw [hletter]; decide)
    simp [isPasswordPart, hsign, (Text.isWord_of_isAlphanum hletter).2]⟩

/-- Whether the first scan is in the middle of a login at the end of a text that goes on with a
    string. -/
def EndsInLogin (early late : List Char) : Prop :=
  0 < (standing findPassword? none 0 early ('x' :: late)).left

instance (early late : List Char) : Decidable (EndsInLogin early late) :=
  inferInstanceAs (Decidable (0 < (standing findPassword? none 0 early ('x' :: late)).left))

section String

variable {early : List Char} (late : List Char)

theorem maskPasswords_string_cases (hearly : ∃ init, early = init ++ [':', '"']) :
    (EndsInLogin early ('"' :: late) ∧
      ∃ text, ∀ w : Plain, maskPasswords (early ++ (w.1 ++ '"' :: late)) = text) ∨
    (¬EndsInLogin early ('"' :: late) ∧ ∀ w : Plain,
      maskPasswords (early ++ (w.1 ++ '"' :: late)) =
        maskPasswords early ++ (w.1 ++ '"' :: maskPasswords late)) := by
  obtain ⟨init, rfl⟩ := hearly
  have hmeets (before : Option Char) (text : List Char) (hsome : text ≠ [])
      (hsuffix : text <:+ init ++ [':', '"']) : Meets findPassword? before text
        (fun w : Plain => w.1 ++ '"' :: late) fun w => reachFrom [] ('"' :: late) w.1 :=
    (meets_password [] ('"' :: late) before List.not_mem_nil fun l beyond hkept =>
      absurd (by simpa using hkept) (Login.kept_ne hsome hsuffix)).comp Plain.toPassword
  rcases standing_cases none hmeets (Nat.zero_le _) with ⟨written, hstands⟩ | hstands
  · left
    constructor
    · unfold EndsInLogin
      rw [show 'x' :: '"' :: late = Plain.letter.1 ++ '"' :: late from rfl, hstands]
      exact Nat.succ_pos _
    · let left : Nat := (('"' :: late).takeWhile (· != '@')).length + 1
      refine ⟨written ++ replaceFrom findPassword? none left ('"' :: late), fun w => ?_⟩
      have hreach : reachFrom [] ('"' :: late) w.1 = w.1.length + left := by
        simp [reachFrom, left, Nat.add_assoc]
      rw [maskPasswords, replaceFrom_append, hstands w, hreach, replaceFrom_skip_add]
      exact congrArg _ (replaceFrom_findPassword? _ _ _ _)
  · right
    constructor
    · unfold EndsInLogin
      rw [show 'x' :: '"' :: late = Plain.letter.1 ++ '"' :: late from rfl, hstands]
      exact Nat.lt_irrefl 0
    · intro w
      rw [maskPasswords, replaceFrom_append, hstands w]
      exact congrArg _ (replaceFrom_findPassword?_plain _ w.2.2)

theorem maskSecrets_string_cases (hlast : early.getLast? = some '"') :
    (EndsInValue early ∧ ∃ text, ∀ w : Plain, maskSecrets (early ++ (w.1 ++ '"' :: late)) = text) ∨
    (¬EndsInValue early ∧ ∀ w : Plain, maskSecrets (early ++ (w.1 ++ '"' :: late)) =
      maskSecrets early ++ (w.1 ++ '"' :: replaceFrom findSecret? (some '"') 0 late)) := by
  have hgoesOn (w : Plain) : GoesOn early.getLast? (w.1 ++ '"' :: late) :=
    .inl (hlast ▸ continues_plain w.2.1 w.2.2)
  by_cases hends : EndsInValue early
  · left
    refine ⟨hends, ?_⟩
    obtain ⟨text, hcovered⟩ := maskSecrets_covered hends '"' (by decide) late
    refine ⟨text, fun w => hcovered w.1 (hgoesOn w) fun c hc => ?_⟩
    exact (Text.isWord_of_isAlphanum (w.2.2 c hc)).2
  · right
    refine ⟨hends, fun w => ?_⟩
    rw [maskSecrets_append hends (hgoesOn w)]
    exact congrArg _ (replaceFrom_findSecret?_plain _ w.2.2)

/-- **A string in a text is hidden or shown.**  It is hidden if one of the scans is in the middle
    of something at the string's beginning. -/
theorem scrubChars_string_cases (hearly : ∃ init, early = init ++ [':', '"']) :
    ((EndsInLogin early ('"' :: late) ∨ EndsInValue (maskPasswords early)) ∧
      ∃ text, ∀ w : Plain, scrubChars (early ++ (w.1 ++ '"' :: late)) = text) ∨
    (¬(EndsInLogin early ('"' :: late) ∨ EndsInValue (maskPasswords early)) ∧
      ∃ shown, ∀ w : Plain, scrubChars (early ++ (w.1 ++ '"' :: late)) =
        scrubChars early ++ (w.1 ++ shown)) := by
  have hscrub (text : List Char) : scrubChars text = maskSecrets (maskPasswords text) := rfl
  simp only [hscrub]
  rcases maskPasswords_string_cases late hearly with ⟨hlogin, text, hfirst⟩ | ⟨hlogin, hfirst⟩
  · exact .inl ⟨.inl hlogin, maskSecrets text, fun w => by rw [hfirst]⟩
  · have hlast : (maskPasswords early).getLast? = some '"' := by
      obtain ⟨init, rfl⟩ := hearly
      simp [getLast?_maskPasswords]
    simp only [hfirst]
    rcases maskSecrets_string_cases (maskPasswords late) hlast with
      ⟨hvalue, hsecond⟩ | ⟨hvalue, hsecond⟩
    · exact .inl ⟨.inr hvalue, hsecond⟩
    · exact .inr ⟨fun hor => hor.elim hlogin hvalue, _, hsecond⟩

end String

/-! ### Documents -/

theorem truncate_eq_iff {text text' : List Char} (h : text.length = text'.length) :
    truncate (String.ofList text) = truncate (String.ofList text') ↔
      text.take maxRenderedChars = text'.take maxRenderedChars := by
  by_cases hshort : text.length ≤ maxRenderedChars
  · have hshort' : text'.length ≤ maxRenderedChars := h ▸ hshort
    simp [truncate, hshort, hshort', List.take_of_length_le, ← String.toList_inj]
  · have hlong : ¬text'.length ≤ maxRenderedChars := h ▸ hshort
    simp [truncate, hlong, h, ← String.toList_inj]

/-- Where a string that stands behind a part of a text is cut off. -/
theorem take_append_eq_iff (early shown : List Char) :
    (∀ w w' : Plain, w.1.length = w'.1.length →
        (early ++ (w.1 ++ shown)).take maxRenderedChars =
          (early ++ (w'.1 ++ shown)).take maxRenderedChars) ↔
      maxRenderedChars ≤ early.length := by
  constructor
  · intro hsame
    by_contra hshort
    have hlt : early.length < maxRenderedChars := Nat.lt_of_not_le hshort
    have hletters := congrArg (·[early.length]?) (hsame Plain.letter ⟨['y'], by simp⟩ rfl)
    simp [hlt, Plain.letter] at hletters
  · intro hlong w w' _
    simp [List.take_append_of_le_length hlong]

/-- **When a string in a document is hidden.**  The rendered parameters of documents that differ
    only in one string of letters and digits are the same exactly if one of the scans is in
    the middle of something at the string's beginning or the text before it fills the rendering.
    The string's key is of no account. -/
theorem renderParameter_string_iff (place : Place) :
    (∀ w w', IsPlain w → IsPlain w' → w.length = w'.length →
        renderParameter (.json (place.fill w)) = renderParameter (.json (place.fill w'))) ↔
      EndsInLogin place.before place.after ∨ EndsInValue (maskPasswords place.before) ∨
        maxRenderedChars ≤ (scrubChars place.before).length := by
  have hrender (w : String) (hw : IsPlain w) : renderParameter (.json (place.fill w)) =
      truncate (String.ofList (scrubChars (place.before ++ (w.toList ++ place.after)))) := by
    rw [← place.toChars_fill hw]
    simp [renderParameter, scrub, Json.compact]
  have hplain : (∀ w w', IsPlain w → IsPlain w' → w.length = w'.length →
        renderParameter (.json (place.fill w)) = renderParameter (.json (place.fill w'))) ↔
      ∀ w w' : Plain, w.1.length = w'.1.length →
        truncate (String.ofList (scrubChars (place.before ++ (w.1 ++ place.after)))) =
          truncate (String.ofList (scrubChars (place.before ++ (w'.1 ++ place.after)))) := by
    constructor
    · intro hall w w' hlength
      have hrendered := hall (String.ofList w.1) (String.ofList w'.1) w.isPlain w'.isPlain
        (by simpa using hlength)
      rwa [hrender _ w.isPlain, hrender _ w'.isPlain, String.toList_ofList,
        String.toList_ofList] at hrendered
    · intro hall w w' hw hw' hlength
      rw [hrender w hw, hrender w' hw']
      exact hall (.ofText hw) (.ofText hw') hlength
  rw [hplain, ← or_assoc]
  rcases scrubChars_string_cases (place.frames.reverse.flatMap Frame.after) place.before_ends with
    ⟨hhidden, text, hall⟩ | ⟨hshown, shown, hall⟩
  · refine iff_of_true (fun w w' _ => ?_) (.inl hhidden)
    rw [Place.after, hall w, hall w']
  · rw [or_iff_right (a := EndsInLogin _ place.after ∨ _) hshown,
      ← take_append_eq_iff _ shown]
    refine forall_congr' fun w => forall_congr' fun w' => imp_congr_right fun hlength => ?_
    rw [Place.after, hall w, hall w', truncate_eq_iff (by simp [hlength])]

/-- A password is shown as any other string. -/
theorem renderParameter_password :
    IsPlain "hunter1" ∧ IsPlain "hunter2" ∧
      renderParameter (.json (.object [("password", .string "hunter1")])) =
        "\x7b\"password\":\"hunter1\"\x7d" ∧
      renderParameter (.json (.object [("password", .string "hunter2")])) =
        "\x7b\"password\":\"hunter2\"\x7d" := by
  decide

end KnowledgeSearch.Redact
