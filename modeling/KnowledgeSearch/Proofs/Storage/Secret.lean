/-
  KnowledgeSearch/Proofs/Storage/Secret.lean
  ==========================================
  **Values after keywords are masked, but for what stands before them.**

  What the second scan finds at a place is a `Label`, a keyword with its sign, and the value
  behind it (`findSecret?_eq_some_iff`).  A value goes on to the next blank whatever it
  is, so it may take in the keyword of a later value.  Then what becomes of the later value is
  decided by its label: without a blank in it the earlier value takes in both, and with
  one it ends before the later value, which nothing tells from the rest of the text any
  more.  `scrub_secret_iff` says that this is the only way in which a value is shown.
-/
import KnowledgeSearch.Proofs.Storage.Password

namespace KnowledgeSearch.Redact

open Text (isBlank isWord foldChar parts_of_class)

/-! ### Keywords -/

theorem keywords_prefix_free :
    ∀ word ∈ keywords, ∀ word' ∈ keywords, word <+: word' → word = word' := by
  decide +kernel

theorem keywordLength?_of_keyword {word rest : List Char} (h : word.map foldChar ∈ keywords) :
    keywordLength? (word ++ rest) = some word.length := by
  unfold keywordLength?
  have hsome : (keywords.find? fun other =>
      ((word ++ rest).take other.length).map foldChar == other).isSome = true := by
    rw [List.find?_isSome]
    exact ⟨_, h, by simp⟩
  obtain ⟨other, hfound⟩ := Option.isSome_iff_exists.mp hsome
  have hother : other ∈ keywords := List.mem_of_find?_eq_some hfound
  have hprefix : other <+: (word ++ rest).map foldChar := by
    have hbegins := List.find?_some hfound
    rw [beq_iff_eq, List.map_take] at hbegins
    rw [← hbegins]
    exact List.take_prefix _ _
  have hword : word.map foldChar <+: (word ++ rest).map foldChar := by
    rw [List.map_append]
    exact List.prefix_append _ _
  have hsame : word.map foldChar = other := by
    rcases List.prefix_or_prefix_of_prefix hprefix hword with hp | hp
    · exact (keywords_prefix_free _ hother _ h hp).symm
    · exact keywords_prefix_free _ h _ hother hp
  rw [hfound, ← hsame]
  simp

theorem keywordLength?_eq_some {text : List Char} {length : Nat}
    (h : keywordLength? text = some length) :
    (text.take length).map foldChar ∈ keywords ∧ (text.take length).length = length := by
  unfold keywordLength? at h
  obtain ⟨word, hfound, rfl⟩ := Option.map_eq_some_iff.mp h
  have hbegins := List.find?_some hfound
  rw [beq_iff_eq] at hbegins
  constructor
  · rw [hbegins]
    exact List.mem_of_find?_eq_some hfound
  · simpa using congrArg List.length hbegins

/-- The letters that keywords begin with. -/
def starts : List Char := ['p', 's', 't', 'a']

theorem head_of_keyword {word : List Char} (h : word.map foldChar ∈ keywords) :
    ∃ c rest, word = c :: rest ∧ foldChar c ∈ starts := by
  have hall : ∀ word ∈ keywords, word.take 1 ∈ starts.map fun c => [c] := by decide +kernel
  have hhead := hall _ h
  cases word with
  | nil => exact absurd hhead (by decide)
  | cons c rest => exact ⟨c, rest, rfl, by simpa using hhead⟩

/-! ### Labels -/

/-- What a value stands behind: a keyword with its sign. -/
structure Label where
  word : List Char
  blanks : List Char
  sign : Char
  more : List Char
  isKeyword : word.map foldChar ∈ keywords
  blank : ∀ c ∈ blanks, isBlank c = true
  isSign : sign = ':' ∨ sign = '='
  moreBlank : ∀ c ∈ more, isBlank c = true

def Label.text (l : Label) : List Char := l.word ++ (l.blanks ++ l.sign :: l.more)

theorem Label.text_ne_nil (l : Label) : l.text ≠ [] := by simp [text]

/-- What a label has behind its keyword. -/
theorem Label.blank_or_sign (l : Label) {c : Char} (h : c ∈ l.blanks ++ l.sign :: l.more) :
    isBlank c = true ∨ c = ':' ∨ c = '=' := by
  simp only [List.mem_append, List.mem_cons] at h
  rcases h with h | rfl | h
  · exact .inl (l.blank c h)
  · exact .inr l.isSign
  · exact .inl (l.moreBlank c h)

/-- What does not stand in a label. -/
theorem Label.not_mem_text (l : Label) {c : Char} (hword : ∀ word ∈ keywords, foldChar c ∉ word)
    (hbehind : ¬(isBlank c = true ∨ c = ':' ∨ c = '=')) : c ∉ l.text := by
  intro hmem
  rcases List.mem_append.mp hmem with hmem | hmem
  · exact hword _ l.isKeyword (List.mem_map_of_mem hmem)
  · exact hbehind (l.blank_or_sign hmem)

theorem Label.word_not_blank (l : Label) (c : Char) (h : c ∈ l.word) : isBlank c = false := by
  rw [Bool.eq_false_iff]
  intro hblank
  have hnone := Text.of_isBlank (P := fun c => ∀ word ∈ keywords, foldChar c ∉ word)
    (by decide +kernel) hblank
  exact hnone _ l.isKeyword (List.mem_map_of_mem h)

theorem Label.sign_not_blank (l : Label) : isBlank l.sign = false := by
  rcases l.isSign with h | h <;> rw [h] <;> decide

theorem findSecret?_label {before : Option Char} (hbefore : ∀ c, before = some c → isWord c = false)
    (l : Label) (after : List Char) (hafter : unbroken after ≠ []) :
    findSecret? before (l.text ++ after) =
      some ⟨l.text ++ mask, l.text.length + (unbroken after).length⟩ := by
  have hno : (before.map isWord).getD false = false := by
    cases before with
    | none => rfl
    | some c => exact hbefore c rfl
  have htext : l.text ++ after = l.word ++ (l.blanks ++ l.sign :: (l.more ++ after)) := by
    simp [Label.text]
  obtain ⟨htake, hdrop⟩ := parts_of_class (l.sign :: (l.more ++ after)) l.blank
    (by rintro c ⟨⟩; exact l.sign_not_blank)
  obtain ⟨htakeMore, hdropMore⟩ := parts_of_class after l.moreBlank (by
    intro c hc
    obtain ⟨d, hd, hblank⟩ := unbroken_ne_nil_iff.mp hafter
    obtain rfl : c = d := Option.some.inj (hc.symm.trans hd)
    exact hblank)
  have hvalue : (after.takeWhile fun c => !isBlank c) = unbroken after := rfl
  have hsign : ¬(l.sign ≠ ':' ∧ l.sign ≠ '=') := fun hne =>
    l.isSign.elim hne.1 hne.2
  rw [htext]
  simp only [findSecret?, hno, keywordLength?_of_keyword l.isKeyword, List.drop_left,
    List.take_left, htake, hdrop, htakeMore, hdropMore, hvalue, if_neg hsign]
  simp [hafter, Label.text]

theorem findSecret?_eq_some_iff {before : Option Char} {text : List Char} {masked : Masked} :
    findSecret? before text = some masked ↔
      (∀ c, before = some c → isWord c = false) ∧
        ∃ (l : Label) (after : List Char), text = l.text ++ after ∧ unbroken after ≠ [] ∧
          masked = ⟨l.text ++ mask, l.text.length + (unbroken after).length⟩ := by
  constructor
  · intro h
    unfold findSecret? at h
    split at h
    · cases h
    rename_i hbefore
    refine ⟨fun c hc => by simpa [hc] using hbefore, ?_⟩
    split at h
    · cases h
    rename_i length hlength
    obtain ⟨hkeyword, htaken⟩ := keywordLength?_eq_some hlength
    dsimp only at h
    split at h
    · cases h
    rename_i sign rest hdrop
    split at h
    · cases h
    rename_i hsign
    split at h
    · cases h
    rename_i hvalue
    let l : Label :=
      { word := text.take length
        blanks := (text.drop length).takeWhile isBlank
        sign := sign
        more := rest.takeWhile isBlank
        isKeyword := hkeyword
        blank := fun c hc => List.mem_takeWhile_imp hc
        isSign := by
          by_contra hne
          exact hsign (not_or.mp hne)
        moreBlank := fun c hc => List.mem_takeWhile_imp hc }
    have htext : text = l.text ++ rest.dropWhile isBlank := by
      have hparts := List.takeWhile_append_dropWhile (p := isBlank) (l := text.drop length)
      rw [hdrop, ← List.takeWhile_append_dropWhile (p := isBlank) (l := rest)] at hparts
      have hall := List.take_append_drop length text
      rw [← hparts] at hall
      rw [← hall]
      simp [Label.text, l]
    refine ⟨l, rest.dropWhile isBlank, htext, by simpa [unbroken] using hvalue, ?_⟩
    cases h
    simp [Label.text, l, unbroken, htaken]
  · rintro ⟨hbefore, l, after, rfl, hafter, rfl⟩
    exact findSecret?_label hbefore l after hafter

theorem findSecret?_eq_none {before : Option Char} {c : Char} {text : List Char}
    (h : foldChar c ∉ starts) : findSecret? before (c :: text) = none := by
  refine Option.eq_none_iff_forall_ne_some.mpr fun masked hfound => ?_
  obtain ⟨-, l, after, htext, -, -⟩ := findSecret?_eq_some_iff.mp hfound
  obtain ⟨d, word, hword, hstart⟩ := head_of_keyword l.isKeyword
  rw [Label.text, hword] at htext
  obtain ⟨rfl, -⟩ := List.cons.inj htext
  exact h hstart

/-! ### What follows a text -/

/-- Whether a keyword can run on from one character to the next. -/
def Joined (d c : Char) : Prop := ∃ word ∈ keywords, [foldChar d, foldChar c] <:+: word

/-- Inside a label a character that can stand in a keyword only goes on with that keyword. -/
theorem Label.joined {l : Label} {early behind : List Char} {d c : Char}
    (h : l.text = early ++ c :: behind) (hlast : early.getLast? = some d)
    (hc : ¬(isBlank c = true ∨ c = ':' ∨ c = '=')) : Joined d c := by
  have hnot : c ∉ l.blanks ++ l.sign :: l.more := fun hmem => hc (l.blank_or_sign hmem)
  obtain ⟨init, rfl⟩ := List.getLast?_eq_some_iff.mp hlast
  rcases List.append_eq_append_iff.mp h with ⟨run, -, hrest⟩ | ⟨run, hword, hrest⟩
  · exact absurd (by simp [hrest]) hnot
  · cases run with
    | nil =>
      rw [List.nil_append] at hrest
      exact absurd (hrest ▸ List.mem_cons_self) hnot
    | cons e run =>
      obtain ⟨rfl, -⟩ := List.cons.inj hrest
      exact ⟨_, l.isKeyword, init.map foldChar, run.map foldChar, by simp [hword]⟩

/-- A text that neither goes on with a label of an earlier one nor ends a value in it. -/
def Continues (last : Option Char) (late : List Char) : Prop :=
  ∃ c rest, late = c :: rest ∧ isBlank c = false ∧ c ≠ ':' ∧ c ≠ '=' ∧
    ∀ d, last = some d → ¬Joined d c

/-- A text that goes on with no label of an earlier one.  Behind a colon it is enough that no blank
    comes first: the colon would be the label's sign, with nothing but blanks behind it. -/
def GoesOn (last : Option Char) (late : List Char) : Prop :=
  Continues last late ∨ last = some ':' ∧ ∃ c rest, late = c :: rest ∧ isBlank c = false

theorem GoesOn.head {last : Option Char} {late : List Char} (h : GoesOn last late) :
    ∃ c rest, late = c :: rest ∧ isBlank c = false := by
  rcases h with ⟨c, rest, hlate, hblank, -⟩ | ⟨-, hhead⟩
  · exact ⟨c, rest, hlate, hblank⟩
  · exact hhead

/-- What a label has behind a colon is blank. -/
theorem Label.isBlank_of_colon {l : Label} {early beyond : List Char} {c : Char}
    (h : l.text = early ++ ':' :: beyond) (hc : c ∈ beyond) : isBlank c = true := by
  have hbefore : ':' ∉ l.word ++ l.blanks := by
    intro hmem
    rcases List.mem_append.mp hmem with hmem | hmem
    · have hnone : ∀ word ∈ keywords, foldChar ':' ∉ word := by decide +kernel
      exact hnone _ l.isKeyword (List.mem_map_of_mem hmem)
    · exact absurd (l.blank _ hmem) (by decide)
  have htext : (l.word ++ l.blanks ++ [l.sign]) ++ l.more = (early ++ [':']) ++ beyond := by
    simpa [text] using h
  rcases List.append_eq_append_iff.mp htext with ⟨between, -, hmore⟩ | ⟨between, hsign, rfl⟩
  · exact l.moreBlank c (by simp [hmore, hc])
  · rcases between.eq_nil_or_concat with rfl | ⟨init, last, rfl⟩
    · exact l.moreBlank c hc
    · rw [List.concat_eq_append, ← List.append_assoc] at hsign
      obtain ⟨hearly, -⟩ := List.append_inj' hsign rfl
      exact absurd (by simp [hearly]) hbefore

/-- A label does not end behind the place where a text goes on. -/
theorem Label.within {l : Label} {early late after : List Char} (hsome : early ≠ [])
    (hlate : GoesOn early.getLast? late) (h : early ++ late = l.text ++ after) :
    ∃ between, early = l.text ++ between ∧ after = between ++ late := by
  rcases List.append_eq_append_iff.mp h with ⟨beyond, htext, hbeyond⟩ | ⟨between, htext, hafter⟩
  · cases beyond with
    | nil => exact ⟨[], by simpa using htext.symm, by simpa using hbeyond.symm⟩
    | cons d beyond =>
      exfalso
      rcases hlate with ⟨c, rest, rfl, hblank, hcolon, hequals, hjoined⟩ |
        ⟨hlast, c, rest, rfl, hblank⟩
      · -- the first character behind would have to be part of the keyword
        obtain ⟨rfl, -⟩ := List.cons.inj hbeyond
        obtain ⟨init, last, rfl⟩ := early.eq_nil_or_concat.resolve_left hsome
        exact hjoined last (by simp) (l.joined htext (by simp) (by simp [hblank, hcolon, hequals]))
      · obtain ⟨rfl, -⟩ := List.cons.inj hbeyond
        obtain ⟨init, rfl⟩ := List.getLast?_eq_some_iff.mp hlast
        rw [List.append_assoc] at htext
        rw [l.isBlank_of_colon htext List.mem_cons_self] at hblank
        cases hblank
  · exact ⟨between, htext, hafter⟩

/-- What can follow a text that ends in a given character. -/
abbrev Continuation (last : Option Char) := { late : List Char // GoesOn last late }

/-- A place of a text meets alike whatever the text goes on with. -/
theorem meets_secret {early : List Char} {last : Option Char} (before : Option Char)
    (hsome : early ≠ []) (hlast : early.getLast? = last) :
    Meets findSecret? before early (fun late : Continuation last => late.1)
      fun late => (unbroken late.1).length := by
  have hunbroken (late : Continuation last) : unbroken late.1 ≠ [] := by
    obtain ⟨c, rest, hlate, hblank⟩ := late.2.head
    exact unbroken_ne_nil_iff.mpr ⟨c, by rw [hlate]; rfl, hblank⟩
  -- a value that has begun is the only thing that can reach over
  by_cases hover : (∀ c, before = some c → isWord c = false) ∧
      ∃ (l : Label) (value : List Char), early = l.text ++ value ∧ ∀ c ∈ value, isBlank c = false
  · obtain ⟨hbefore, l, value, rfl, hvalue⟩ := hover
    refine .over (l.text ++ mask) fun late => ?_
    have hafter : unbroken (value ++ late.1) = value ++ unbroken late.1 :=
      unbroken_append_of_not_blank hvalue
    rw [List.append_assoc, findSecret?_label hbefore l _ (by simp [hafter, hunbroken late]), hafter]
    simp [Nat.add_assoc]
  · have hends {l : Label} {value late : List Char}
        (hbefore : ∀ c, before = some c → isWord c = false) (hearly : early = l.text ++ value) :
        unbroken (value ++ late) = unbroken value := by
      have hblank : ∃ c ∈ value, isBlank c = true := by
        by_contra hnone
        refine hover ⟨hbefore, l, value, hearly, fun c hc => ?_⟩
        rw [Bool.eq_false_iff]
        exact fun hblank => hnone ⟨c, hc, hblank⟩
      obtain ⟨c, hc, hblank⟩ := hblank
      exact unbroken_append_of_blank hc hblank
    refine .apart (fun late => Option.ext fun masked => ?_) fun masked hfound => ?_
    · simp only [findSecret?_eq_some_iff]
      refine and_congr_right fun hbefore => ?_
      constructor
      · rintro ⟨l, after, htext, hafter, rfl⟩
        obtain ⟨between, hearly, rfl⟩ := Label.within hsome (hlast ▸ late.2) htext
        rw [hends hbefore hearly] at hafter ⊢
        exact ⟨l, between, hearly, hafter, rfl⟩
      · rintro ⟨l, value, hearly, hvalue, rfl⟩
        refine ⟨l, value ++ late.1, by rw [hearly, List.append_assoc], ?_, ?_⟩
        · rwa [hends hbefore hearly]
        · rw [hends hbefore hearly]
    · obtain ⟨-, l, value, rfl, -, rfl⟩ := findSecret?_eq_some_iff.mp hfound
      have hlength : (unbroken value).length ≤ value.length :=
        (List.takeWhile_prefix _).length_le
      simpa using hlength

/-! ### The second scan -/

def maskSecrets (text : List Char) : List Char := replaceFrom findSecret? none 0 text

/-- Whether the second scan is in the middle of a value at the end of a text that goes on.  A letter
    stands for what it goes on with. -/
def EndsInValue (text : List Char) : Prop := 0 < (standing findSecret? none 0 text ['x']).left

instance (text : List Char) : Decidable (EndsInValue text) :=
  inferInstanceAs (Decidable (0 < (standing findSecret? none 0 text ['x']).left))

theorem continues_letter (last : Option Char) : Continues last ['x'] := by
  refine ⟨'x', [], rfl, by decide, by decide, by decide, ?_⟩
  rintro d - ⟨word, hword, hinside⟩
  have hnone : ∀ word ∈ keywords, 'x' ∉ word := by decide +kernel
  exact hnone word hword (hinside.subset (by simp [show foldChar 'x' = 'x' from by decide]))

theorem standing_secret_cases (early : List Char) :
    (∃ written, ∀ late, GoesOn early.getLast? late →
      standing findSecret? none 0 early late = ⟨written, (unbroken late).length⟩) ∨
    ∀ late, GoesOn early.getLast? late →
      standing findSecret? none 0 early late = ⟨maskSecrets early, 0⟩ := by
  have hmeets (before : Option Char) (text : List Char) (hsome : text ≠ [])
      (hsuffix : text <:+ early) : Meets findSecret? before text
        (fun late : Continuation early.getLast? => late.1)
        fun late => (unbroken late.1).length := by
    obtain ⟨init, rfl⟩ := hsuffix
    refine meets_secret before hsome ?_
    obtain ⟨start, last, rfl⟩ := text.eq_nil_or_concat.resolve_left hsome
    simp
  rcases standing_cases none hmeets (Nat.zero_le _) with ⟨written, hall⟩ | hall
  · exact .inl ⟨written, fun late hlate => hall ⟨late, hlate⟩⟩
  · exact .inr fun late hlate => hall ⟨late, hlate⟩

theorem standing_of_endsInValue {early : List Char} (h : EndsInValue early) :
    ∃ written, ∀ late, GoesOn early.getLast? late →
      standing findSecret? none 0 early late = ⟨written, (unbroken late).length⟩ := by
  refine (standing_secret_cases early).resolve_right fun hall => ?_
  unfold EndsInValue at h
  rw [hall _ (.inl (continues_letter _))] at h
  exact Nat.lt_irrefl 0 h

theorem standing_of_not_endsInValue {early late : List Char} (h : ¬EndsInValue early)
    (hlate : GoesOn early.getLast? late) :
    standing findSecret? none 0 early late = ⟨maskSecrets early, 0⟩ := by
  rcases standing_secret_cases early with ⟨written, hall⟩ | hall
  · refine absurd ?_ h
    unfold EndsInValue
    rw [hall _ (.inl (continues_letter _))]
    exact Nat.one_pos
  · exact hall late hlate

/-- Behind a text that ends in a value everything up to the next blank is masked with it. -/
theorem maskSecrets_covered {early : List Char} (h : EndsInValue early) (sign : Char)
    (hsign : isBlank sign = false) (late : List Char) :
    ∃ text, ∀ run, GoesOn early.getLast? (run ++ sign :: late) → (∀ c ∈ run, isBlank c = false) →
      maskSecrets (early ++ (run ++ sign :: late)) = text := by
  obtain ⟨written, hstands⟩ := standing_of_endsInValue h
  refine ⟨written ++ replaceFrom findSecret? (some sign) (unbroken late).length late, ?_⟩
  intro run hgoesOn hrun
  have hblank : ∀ c ∈ run ++ [sign], isBlank c = false := by
    simpa [or_imp, forall_and, hsign] using hrun
  have hassoc : run ++ sign :: late = run ++ [sign] ++ late := by simp
  rw [maskSecrets, replaceFrom_append, hstands _ hgoesOn, hassoc,
    unbroken_append_of_not_blank hblank, List.length_append, replaceFrom_skip_add, lastOf_append]
  rfl

/-- What does not begin in a value is scanned apart from the text before it. -/
theorem maskSecrets_append {early late : List Char} (h : ¬EndsInValue early)
    (hlate : GoesOn early.getLast? late) :
    maskSecrets (early ++ late) =
      maskSecrets early ++ replaceFrom findSecret? (lastOf none early) 0 late := by
  rw [maskSecrets, replaceFrom_append, standing_of_not_endsInValue h hlate]

/-! ### A label with a value behind a text -/

theorem isWord_of_starts {c : Char} (h : foldChar c ∈ starts) : isWord c = true := by
  have hall : starts.all Char.isAlphanum = true := by decide
  exact Text.isWord_of_foldChar (.inl (List.all_eq_true.mp hall _ h))

theorem not_isWord_of_isBlank {c : Char} (h : isBlank c = true) : isWord c = false :=
  Text.of_isBlank (P := fun c => isWord c = false) (by decide +kernel) h

theorem not_starts_of_not_isWord {c : Char} (h : isWord c = false) : foldChar c ∉ starts := by
  intro hstart
  rw [isWord_of_starts hstart] at h
  cases h

theorem not_joined_of_starts {d c : Char} (hd : isWord d = false) (hc : foldChar c ∈ starts) :
    ¬Joined d c := by
  rintro ⟨word, hword, hinside⟩
  have hall : ∀ word ∈ keywords, (word.all fun x => starts.all fun y =>
      decide ([x, y] <:+: word → x.isAlphanum = true ∨ x = '_')) = true := by
    decide +kernel
  have hmem : foldChar d ∈ word := hinside.subset List.mem_cons_self
  have hletter := List.all_eq_true.mp (List.all_eq_true.mp (hall word hword) _ hmem) _ hc
  rw [Text.isWord_of_foldChar (of_decide_eq_true hletter hinside)] at hd
  cases hd

/-- Behind a character that belongs to no word a text goes on with a keyword. -/
theorem Label.continues (l : Label) {last : Option Char} (after : List Char)
    (hlast : ∀ c, last = some c → isWord c = false) : Continues last (l.text ++ after) := by
  obtain ⟨c, word, hword, hstart⟩ := head_of_keyword l.isKeyword
  have hc : isWord c = true := isWord_of_starts hstart
  refine ⟨c, _, by rw [Label.text, hword]; rfl, ?_, ?_, ?_, fun d hd => ?_⟩
  · by_contra hblank
    rw [not_isWord_of_isBlank (by simpa using hblank)] at hc
    cases hc
  · exact ne_of_apply_ne isWord (by rw [hc]; decide)
  · exact ne_of_apply_ne isWord (by rw [hc]; decide)
  · exact not_joined_of_starts (hlast d hd) hstart

/-- From the first blank of a label on there is no keyword. -/
theorem Label.not_starts_of_mem_dropWhile (l : Label) {c : Char}
    (h : c ∈ l.text.dropWhile fun c => !isBlank c) : foldChar c ∉ starts := by
  have hbehind : c ∈ l.blanks ++ l.sign :: l.more := by
    refine (List.dropWhile_suffix fun c => !isBlank c).subset (?_ : c ∈ List.dropWhile _ _)
    rwa [← List.dropWhile_append_of_pos fun c hc => by simp [l.word_not_blank c hc]]
  refine not_starts_of_not_isWord ?_
  rcases l.blank_or_sign hbehind with hc | rfl | rfl
  · exact not_isWord_of_isBlank hc
  all_goals decide

/-- A part that is empty or begins with a blank is scanned alike whatever stands before it. -/
theorem replaceFrom_findSecret? (before : Option Char) {late : List Char}
    (h : ∀ c, late.head? = some c → isBlank c = true) :
    replaceFrom findSecret? before 0 late = maskSecrets late := by
  cases late with
  | nil => rfl
  | cons c late =>
    have hstart := not_starts_of_not_isWord (not_isWord_of_isBlank (h c rfl))
    simp only [maskSecrets, replaceFrom, findSecret?_eq_none hstart]

section Behind

variable {early value rest : List Char} (l : Label)
  (hearly : ∀ c, early.getLast? = some c → isWord c = false)
  (hrest : ∀ c, rest.head? = some c → isBlank c = true)

include hrest in
theorem unbroken_value (hvalue : ∀ c ∈ value, isBlank c = false) :
    unbroken (value ++ rest) = value := by
  refine (parts_of_class _ (fun c hc => by simp [hvalue c hc]) fun c hc => ?_).1
  simp [hrest c hc]

include hearly hrest in
/-- Behind a text that does not end in a value the value is masked. -/
theorem maskSecrets_label (hends : ¬EndsInValue early) (hsome : value ≠ [])
    (hvalue : ∀ c ∈ value, isBlank c = false) :
    maskSecrets (early ++ (l.text ++ (value ++ rest))) =
      maskSecrets early ++ (l.text ++ mask) ++ maskSecrets rest := by
  have hunbroken : unbroken (value ++ rest) = value := unbroken_value hrest hvalue
  have hbefore : ∀ c, lastOf none early = some c → isWord c = false := by
    intro c hc
    cases early with
    | nil => cases hc
    | cons d early => exact hearly c (by rwa [← lastOf_eq_getLast? none (List.cons_ne_nil d early)])
  have hfound := findSecret?_label hbefore l (value ++ rest) (by rwa [hunbroken])
  rw [hunbroken, ← List.length_append, ← List.append_assoc] at hfound
  rw [maskSecrets_append hends (.inl (l.continues _ hearly)), ← List.append_assoc l.text,
    replaceFrom_found (by simp [l.text_ne_nil]) hfound, replaceFrom_findSecret? _ hrest]
  simp

include hearly hrest in
/-- Behind a text that ends in a value a label without a blank is part of that value. -/
theorem maskSecrets_unbroken (hends : EndsInValue early) (hlabel : ∀ c ∈ l.text, isBlank c = false)
    {value' : List Char} (hvalue : ∀ c ∈ value, isBlank c = false)
    (hvalue' : ∀ c ∈ value', isBlank c = false) :
    maskSecrets (early ++ (l.text ++ (value ++ rest))) =
      maskSecrets (early ++ (l.text ++ (value' ++ rest))) := by
  obtain ⟨written, hstands⟩ := standing_of_endsInValue hends
  have hall (value : List Char) (hvalue : ∀ c ∈ value, isBlank c = false) :
      maskSecrets (early ++ (l.text ++ (value ++ rest))) = written ++ maskSecrets rest := by
    have hunbroken : unbroken (l.text ++ (value ++ rest)) = l.text ++ value := by
      rw [unbroken_append_of_not_blank hlabel, unbroken_value hrest hvalue]
    rw [maskSecrets, replaceFrom_append, hstands _ (.inl (l.continues _ hearly)), hunbroken,
      ← List.append_assoc l.text, replaceFrom_skip, replaceFrom_findSecret? _ hrest]
  rw [hall value hvalue, hall value' hvalue']

include hearly hrest in
/-- Behind a text that ends in a value a label with a blank in it leaves its value as it is. -/
theorem maskSecrets_broken (hends : EndsInValue early) {c : Char} (hc : c ∈ l.text)
    (hblank : isBlank c = true) :
    ∃ written, ∀ d, isBlank d = false → foldChar d ∉ starts →
      maskSecrets (early ++ (l.text ++ ([d] ++ rest))) = written ++ d :: maskSecrets rest := by
  obtain ⟨written, hstands⟩ := standing_of_endsInValue hends
  -- the earlier value ends at the label's first blank
  let tail : List Char := l.text.dropWhile fun c => !isBlank c
  have hsplit : l.text = unbroken l.text ++ tail := List.takeWhile_append_dropWhile.symm
  refine ⟨written ++ tail, fun d hd hstart => ?_⟩
  have hcopied (before : Option Char) : replaceFrom findSecret? before 0 (tail ++ [d] ++ rest) =
      tail ++ [d] ++ replaceFrom findSecret? (lastOf before (tail ++ [d])) 0 rest := by
    refine replaceFrom_copied fun before text hsome hsuffix => ?_
    obtain ⟨c, text, rfl⟩ := List.exists_cons_of_ne_nil hsome
    refine findSecret?_eq_none ?_
    rcases List.mem_append.mp (hsuffix.subset List.mem_cons_self) with hmem | hmem
    · exact l.not_starts_of_mem_dropWhile hmem
    · rwa [List.mem_singleton.mp hmem]
  rw [maskSecrets, replaceFrom_append, hstands _ (.inl (l.continues _ hearly)),
    unbroken_append_of_blank hc hblank]
  have hparts : l.text ++ ([d] ++ rest) = unbroken l.text ++ (tail ++ [d] ++ rest) := by
    rw [List.append_assoc tail, ← List.append_assoc _ tail, ← hsplit]
  rw [hparts, replaceFrom_skip, hcopied, replaceFrom_findSecret? _ hrest]
  simp

end Behind

/-! ### Texts -/

/-- The first scan leaves a label and its value as they are. -/
theorem maskPasswords_label (l : Label) (early : List Char) {value rest : List Char}
    (hvalue : '@' ∉ value) (hrest : ∀ c, rest.head? = some c → isBlank c = true) :
    maskPasswords (early ++ (l.text ++ (value ++ rest))) =
      maskPasswords early ++ (l.text ++ (value ++ maskPasswords rest)) := by
  have hlabel : '@' ∉ l.text := l.not_mem_text (by decide +kernel) (by decide)
  have hnone : '@' ∉ l.text ++ value := by simp [hlabel, hvalue]
  have hfirst : '@' ∉ unbroken rest := by
    cases rest with
    | nil => simp [unbroken]
    | cons c rest => simp [unbroken, hrest c rfl]
  have hbefore : '@' ∉ unbroken (l.text ++ value) :=
    fun hmem => hnone ((List.takeWhile_prefix _).subset hmem)
  have hassoc : early ++ (l.text ++ (value ++ rest)) = early ++ (l.text ++ value) ++ rest := by simp
  rw [hassoc, maskPasswords_append _ hfirst, maskPasswords_append _ hbefore,
    maskPasswords_of_no_sign hnone]
  simp

theorem head?_maskPasswords {rest : List Char} (h : ∀ c, rest.head? = some c → isBlank c = true) :
    ∀ c, (maskPasswords rest).head? = some c → isBlank c = true := by
  cases rest with
  | nil => nofun
  | cons d rest =>
    have hstart : isSchemeStart d = false := by
      by_contra hstart
      have hpart := not_isSchemePart_of_isBlank (h d rfl)
      simp [isSchemePart, hstart] at hpart
    rw [maskPasswords_cons rest hstart]
    rintro c ⟨⟩
    exact h _ rfl

/-- The keywords, in letters of either case. -/
def IsKeyword (k : String) : Prop := k.toList.map foldChar ∈ keywords

instance (k : String) : Decidable (IsKeyword k) :=
  inferInstanceAs (Decidable (k.toList.map foldChar ∈ keywords))

/-- A colon or an equals sign with blanks around it. -/
def IsSeparator (s : String) : Prop :=
  ∃ blanks sign more, s.toList = blanks ++ sign :: more ∧ (∀ c ∈ blanks, isBlank c = true) ∧
    (sign = ':' ∨ sign = '=') ∧ ∀ c ∈ more, isBlank c = true

/-- A text without blanks that does not look like a part of a connection text or a label. -/
def IsValue (v : String) : Prop :=
  v ≠ "" ∧ ∀ c ∈ v.toList, isBlank c = false ∧ c ≠ '@' ∧ c ≠ ':' ∧ c ≠ '=' ∧ c ≠ '/'

instance (v : String) : Decidable (IsValue v) :=
  @instDecidableAnd (v ≠ "") _ inferInstance (List.decidableBAll _ v.toList)

theorem exists_label {k s : String} (hk : IsKeyword k) (hs : IsSeparator s) :
    ∃ l : Label, l.word = k.toList ∧ l.text = k.toList ++ s.toList := by
  obtain ⟨blanks, sign, more, hs, hblanks, hsign, hmore⟩ := hs
  refine ⟨⟨k.toList, blanks, sign, more, hk, hblanks, hsign, hmore⟩, rfl, ?_⟩
  rw [Label.text, hs]

/-- **When a value after a keyword is masked.**  Texts that differ only in the value are scrubbed
    to the same text unless the text before the keyword ends in another value and there is a blank
    between the keyword and its own. -/
theorem scrub_secret_iff {a k s b : String}
    (ha : ∀ c, a.toList.getLast? = some c → isWord c = false) (hk : IsKeyword k)
    (hs : IsSeparator s) (hb : ∀ c, b.toList.head? = some c → isBlank c = true) :
    (∀ v v', IsValue v → IsValue v' →
        scrub (a ++ k ++ s ++ v ++ b) = scrub (a ++ k ++ s ++ v' ++ b)) ↔
      (∀ c ∈ s.toList, isBlank c = false) ∨ ¬EndsInValue (maskPasswords a.toList) := by
  obtain ⟨l, hword, htext⟩ := exists_label hk hs
  have hscrub (v : String) (hv : IsValue v) : scrub (a ++ k ++ s ++ v ++ b) =
      String.ofList (maskSecrets (maskPasswords a.toList ++
        (l.text ++ (v.toList ++ maskPasswords b.toList)))) := by
    have hsign : '@' ∉ v.toList := fun hmem => (hv.2 _ hmem).2.1 rfl
    rw [← maskPasswords_label l a.toList hsign hb, htext]
    simp [scrub, scrubChars, maskSecrets, maskPasswords]
  have hearly : ∀ c, (maskPasswords a.toList).getLast? = some c → isWord c = false := by
    rwa [getLast?_maskPasswords]
  have hrest := head?_maskPasswords hb
  have hblank (v : String) (hv : IsValue v) : ∀ c ∈ v.toList, isBlank c = false :=
    fun c hc => (hv.2 c hc).1
  constructor
  · intro hsame
    by_contra hnot
    rw [not_or, not_not] at hnot
    obtain ⟨hs, hends⟩ := hnot
    obtain ⟨c, hc, hcblank⟩ : ∃ c ∈ l.text, isBlank c = true := by
      by_contra hnone
      refine hs fun c hc => Bool.eq_false_iff.mpr fun hcblank => hnone ⟨c, ?_, hcblank⟩
      rw [htext]
      exact List.mem_append_right _ hc
    obtain ⟨written, hshown⟩ := maskSecrets_broken l hearly hrest hends hc hcblank
    have hx : IsValue "x" := by decide +kernel
    have hy : IsValue "y" := by decide +kernel
    have heq := hsame "x" "y" hx hy
    rw [hscrub "x" hx, hscrub "y" hy] at heq
    have hshows : written ++ 'x' :: maskSecrets (maskPasswords b.toList) =
        written ++ 'y' :: maskSecrets (maskPasswords b.toList) := by
      rw [← hshown 'x' (by decide) (by decide), ← hshown 'y' (by decide) (by decide)]
      exact String.ofList_injective heq
    simp at hshows
  · intro hor v v' hv hv'
    rw [hscrub v hv, hscrub v' hv']
    by_cases hends : EndsInValue (maskPasswords a.toList)
    · have hunbroken := hor.resolve_right fun hnot => hnot hends
      have hlabel : ∀ c ∈ l.text, isBlank c = false := by
        intro c hc
        rw [htext, List.mem_append] at hc
        exact hc.elim (fun hc => l.word_not_blank c (hword ▸ hc)) (hunbroken c)
      rw [maskSecrets_unbroken l hearly hrest hends hlabel (hblank v hv) (hblank v' hv')]
    · rw [maskSecrets_label l hearly hrest hends (by simpa using hv.1) (hblank v hv),
        maskSecrets_label l hearly hrest hends (by simpa using hv'.1) (hblank v' hv')]

/-- No value stands before the keyword. -/
theorem scrub_secret_behind_user :
    scrub ("user kb, " ++ "password" ++ " = " ++ "hunter1" ++ " host=db") =
      scrub ("user kb, " ++ "password" ++ " = " ++ "hunter2" ++ " host=db") :=
  (scrub_secret_iff (by simp; decide +kernel) (by decide +kernel)
    ⟨[' '], '=', [' '], rfl, by simp [isBlank], .inr rfl, by simp [isBlank]⟩
    (by simp; decide +kernel)).mpr (.inr (by decide +kernel)) "hunter1" "hunter2"
    (by decide +kernel) (by decide +kernel)

/-- The keyword is taken for the value of another one. -/
theorem scrub_secret_behind_token :
    IsKeyword "password" ∧ IsSeparator " = " ∧ IsValue "hunter1" ∧ IsValue "hunter2" ∧
      scrub ("token=" ++ "password" ++ " = " ++ "hunter1" ++ "") = "token=*** = hunter1" ∧
      scrub ("token=" ++ "password" ++ " = " ++ "hunter2" ++ "") = "token=*** = hunter2" := by
  refine ⟨?_, ⟨[' '], '=', [' '], rfl, by simp [isBlank], .inr rfl, by simp [isBlank]⟩, ?_⟩
  all_goals decide +kernel

end KnowledgeSearch.Redact
