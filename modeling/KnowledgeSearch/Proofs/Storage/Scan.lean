/-
  KnowledgeSearch/Proofs/Storage/Scan.lean
  ========================================
  **Where a scan stands in the middle of a text.**

  What a scan makes of a text in two parts is what it has written when it comes to the end
  of the first part, and what it makes of the second (`replaceFrom_append`).  There it stands
  apart from the second part, or it is in the middle of something that it masks and has
  characters of the second part yet to pass over.

  A secret changes neither of the two as long as no place of the first part meets the
  secret in different ways (`Meets`).  So texts that differ only in a secret are scanned alike
  up to it: either the scan has it covered, however the secret reads, or it looks at
  the secret's first character (`standing_cases`).
-/
import KnowledgeSearch.Proofs.Text.Class
import KnowledgeSearch.Storage.Redact

namespace KnowledgeSearch.Redact

open Text (isBlank parts_of_class)

/-! ### Parts of texts -/

/-- A sign is told from a text before it in which it does not stand. -/
theorem parts_of_not_mem {sign : Char} {early : List Char} (late : List Char) (h : sign ∉ early) :
    (early ++ sign :: late).takeWhile (· != sign) = early ∧
      (early ++ sign :: late).dropWhile (· != sign) = sign :: late := by
  refine parts_of_class _ (fun c hc => bne_iff_ne.mpr fun heq => h (heq ▸ hc)) ?_
  rintro c ⟨⟩
  exact bne_self_eq_false sign

/-- The beginning of a text up to its first blank. -/
def unbroken (text : List Char) : List Char := text.takeWhile fun c => !isBlank c

theorem unbroken_ne_nil_iff {text : List Char} :
    unbroken text ≠ [] ↔ ∃ c, text.head? = some c ∧ isBlank c = false := by
  cases text with
  | nil => simp [unbroken]
  | cons c text => cases h : isBlank c <;> simp [unbroken, h]

theorem unbroken_append_of_not_blank {early late : List Char}
    (h : ∀ c ∈ early, isBlank c = false) : unbroken (early ++ late) = early ++ unbroken late :=
  List.takeWhile_append_of_pos fun c hc => by simp [h c hc]

theorem unbroken_append_of_blank {early late : List Char} {c : Char} (hc : c ∈ early)
    (hblank : isBlank c = true) : unbroken (early ++ late) = unbroken early := by
  induction early with
  | nil => cases hc
  | cons d early ih =>
    cases hd : isBlank d with
    | true => simp [unbroken, hd]
    | false =>
      have htail : c ∈ early := (List.mem_cons.mp hc).resolve_left fun heq => by
        rw [heq, hd] at hblank
        cases hblank
      have hrest : unbroken (early ++ late) = unbroken early := ih htail
      simpa [unbroken, hd] using hrest

/-- The character before what follows a text. -/
def lastOf (before : Option Char) : List Char → Option Char
  | [] => before
  | c :: text => lastOf (some c) text

theorem lastOf_append (before : Option Char) (early late : List Char) :
    lastOf before (early ++ late) = lastOf (lastOf before early) late := by
  induction early generalizing before with
  | nil => rfl
  | cons c early ih => exact ih (some c)

theorem lastOf_eq_getLast? (before : Option Char) {text : List Char} (h : text ≠ []) :
    lastOf before text = text.getLast? := by
  obtain ⟨init, last, rfl⟩ := text.eq_nil_or_concat.resolve_left h
  simp [lastOf_append, lastOf]

/-! ### Standing in the middle of a text -/

abbrev Recogniser := Option Char → List Char → Option Masked

/-- What a scan has written, and how many characters it has yet to pass over. -/
structure Standing where
  written : List Char
  left : Nat

variable (recognise : Recogniser)

/-- Where a scan stands when it comes to the end of the first of two parts. -/
def standing (recognise : Recogniser) : Option Char → Nat → List Char → List Char → Standing
  | _, skip, [], _ => ⟨[], skip⟩
  | _, skip + 1, c :: early, late => standing recognise (some c) skip early late
  | before, 0, c :: early, late =>
    match recognise before (c :: (early ++ late)) with
    | some masked =>
      let later := standing recognise (some c) (masked.length - 1) early late
      ⟨masked.replacement ++ later.written, later.left⟩
    | none =>
      let later := standing recognise (some c) 0 early late
      ⟨c :: later.written, later.left⟩

theorem replaceFrom_append (before : Option Char) (skip : Nat) (early late : List Char) :
    replaceFrom recognise before skip (early ++ late) =
      (standing recognise before skip early late).written ++
        replaceFrom recognise (lastOf before early) (standing recognise before skip early late).left
          late := by
  induction early generalizing before skip with
  | nil => rfl
  | cons c early ih =>
    cases skip with
    | succ skip => exact ih (some c) skip
    | zero =>
      simp only [List.cons_append, replaceFrom, standing]
      cases recognise before (c :: (early ++ late)) with
      | none => simp [ih, lastOf]
      | some masked => simp [ih, lastOf]

/-- Passing over the whole first part writes nothing. -/
theorem standing_skip (before : Option Char) (early late : List Char) (left : Nat) :
    standing recognise before (early.length + left) early late = ⟨[], left⟩ := by
  induction early generalizing before with
  | nil => simp [standing]
  | cons c early ih =>
    have hskip : (c :: early).length + left = early.length + left + 1 := by
      simp only [List.length_cons]
      omega
    rw [hskip]
    exact ih (some c)

theorem replaceFrom_skip_add (before : Option Char) (early late : List Char) (left : Nat) :
    replaceFrom recognise before (early.length + left) (early ++ late) =
      replaceFrom recognise (lastOf before early) left late := by
  rw [replaceFrom_append, standing_skip]
  rfl

theorem replaceFrom_skip (before : Option Char) (early late : List Char) :
    replaceFrom recognise before early.length (early ++ late) =
      replaceFrom recognise (lastOf before early) 0 late :=
  replaceFrom_skip_add recognise before early late 0

variable {recognise}

/-- A place where something is found. -/
theorem replaceFrom_found {before : Option Char} {found rest replacement : List Char}
    (hsome : found ≠ []) (h : recognise before (found ++ rest) = some ⟨replacement, found.length⟩) :
    replaceFrom recognise before 0 (found ++ rest) =
      replacement ++ replaceFrom recognise (lastOf before found) 0 rest := by
  cases found with
  | nil => exact absurd rfl hsome
  | cons c found =>
    have hskip := replaceFrom_skip recognise (some c) found rest
    simp only [List.cons_append] at h ⊢
    simp only [replaceFrom, h, List.length_cons, Nat.add_sub_cancel]
    rw [hskip]
    rfl

/-- Places where nothing is found are copied. -/
theorem replaceFrom_copied {before : Option Char} {early late : List Char}
    (h : ∀ before text, text ≠ [] → text <:+ early → recognise before (text ++ late) = none) :
    replaceFrom recognise before 0 (early ++ late) =
      early ++ replaceFrom recognise (lastOf before early) 0 late := by
  induction early generalizing before with
  | nil => rfl
  | cons c early ih =>
    have hnone := h before (c :: early) (List.cons_ne_nil _ _) List.suffix_rfl
    rw [List.cons_append] at hnone
    simp only [List.cons_append, replaceFrom, hnone, lastOf]
    rw [ih fun before text hsome hsuffix =>
      h before text hsome (hsuffix.trans (List.suffix_cons _ _))]

/-! ### Texts that go on in several ways -/

section Several

variable {ι : Type} {late : ι → List Char} {reach : ι → Nat}

/-- A recogniser meets all continuations of a text alike: either it looks at nothing but the
    text, or it finds something that reaches over into every one of them. -/
inductive Meets (recognise : Recogniser) (before : Option Char) (text : List Char)
    (late : ι → List Char) (reach : ι → Nat) : Prop where
  | apart (h : ∀ i, recognise before (text ++ late i) = recognise before text)
      (hwithin : ∀ masked, recognise before text = some masked → masked.length ≤ text.length)
  | over (replacement : List Char)
      (h : ∀ i, recognise before (text ++ late i) = some ⟨replacement, text.length + reach i⟩)

theorem Meets.comp {κ : Type} {before : Option Char} {text : List Char} (f : κ → ι)
    (h : Meets recognise before text late reach) :
    Meets recognise before text (fun k => late (f k)) fun k => reach (f k) := by
  rcases h with ⟨h, hwithin⟩ | ⟨replacement, h⟩
  · exact .apart (fun k => h (f k)) hwithin
  · exact .over replacement fun k => h (f k)

/-- **A scan meets all continuations alike** if the recogniser does at every place before. -/
theorem standing_cases {early : List Char} (before : Option Char) {skip : Nat}
    (hmeets : ∀ before text, text ≠ [] → text <:+ early → Meets recognise before text late reach)
    (hskip : skip ≤ early.length) :
    (∃ written, ∀ i, standing recognise before skip early (late i) = ⟨written, reach i⟩) ∨
      ∀ i, standing recognise before skip early (late i) =
        ⟨replaceFrom recognise before skip early, 0⟩ := by
  -- the first place that reaches over decides; what is written before it is the same for all
  induction early generalizing before skip with
  | nil =>
    obtain rfl : skip = 0 := Nat.le_zero.mp hskip
    exact .inr fun i => rfl
  | cons c early ih =>
    have hlater (before : Option Char) (text : List Char) (hsome : text ≠ [])
        (hsuffix : text <:+ early) : Meets recognise before text late reach :=
      hmeets before text hsome (hsuffix.trans (List.suffix_cons c early))
    cases skip with
    | succ skip => exact ih (some c) hlater (Nat.le_of_succ_le_succ hskip)
    | zero =>
      rcases hmeets before (c :: early) (List.cons_ne_nil _ _) List.suffix_rfl with
        ⟨h, hwithin⟩ | ⟨replacement, h⟩
      · simp only [List.cons_append] at h
        cases hfound : recognise before (c :: early) with
        | none =>
          rw [hfound] at h
          rcases ih (some c) hlater (Nat.zero_le early.length) with
            ⟨written, hall⟩ | hall
          · exact .inl ⟨c :: written, fun i => by simp only [standing, h, hall]⟩
          · exact .inr fun i => by simp only [standing, replaceFrom, h, hall, hfound]
        | some masked =>
          rw [hfound] at h
          have hlength : masked.length - 1 ≤ early.length := by
            have hlength := hwithin masked hfound
            simp only [List.length_cons] at hlength
            omega
          rcases ih (some c) hlater hlength with ⟨written, hall⟩ | hall
          · exact .inl ⟨masked.replacement ++ written, fun i => by simp only [standing, h, hall]⟩
          · exact .inr fun i => by simp only [standing, replaceFrom, h, hall, hfound]
      · refine .inl ⟨replacement, fun i => ?_⟩
        have hlength : (c :: early).length + reach i - 1 = early.length + reach i := by
          simp only [List.length_cons]
          omega
        simp only [List.cons_append] at h
        simp only [standing, h, hlength, standing_skip, List.append_nil]

end Several

/-- A scan stands apart from what follows a text if the recogniser does at every place of it. -/
theorem standing_apart {early late : List Char} {before : Option Char}
    (h : ∀ before text, text ≠ [] → text <:+ early →
      recognise before (text ++ late) = recognise before text ∧
        ∀ masked, recognise before text = some masked → masked.length ≤ text.length) :
    standing recognise before 0 early late = ⟨replaceFrom recognise before 0 early, 0⟩ := by
  -- the text as it goes on, and the text alone
  let several (goesOn : Bool) : List Char := if goesOn then late else []
  have hmeets (before : Option Char) (text : List Char) (hsome : text ≠ [])
      (hsuffix : text <:+ early) : Meets recognise before text several fun _ => 0 := by
    obtain ⟨hsame, hwithin⟩ := h before text hsome hsuffix
    refine .apart (fun goesOn => ?_) hwithin
    cases goesOn with
    | true => exact hsame
    | false => exact congrArg _ (List.append_nil text)
  rcases standing_cases before hmeets (Nat.zero_le _) with ⟨written, hall⟩ | hall
  · have halone := replaceFrom_append recognise before 0 early []
    have hnothing : standing recognise before 0 early [] = ⟨written, 0⟩ := hall false
    rw [hnothing, List.append_nil] at halone
    have hwritten : replaceFrom recognise before 0 early = written := by
      rw [halone]
      exact List.append_nil _
    rw [hwritten]
    exact hall true
  · exact hall true

end KnowledgeSearch.Redact
