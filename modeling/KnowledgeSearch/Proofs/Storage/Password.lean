/-
  KnowledgeSearch/Proofs/Storage/Password.lean
  ============================================
  **Passwords of connection texts are masked wherever they stand.**

  What the first scan finds at a place is a `Login`: a scheme, a user and a password, up to
  the sign before the host (`findPassword?_eq_some_iff`).  That sign stands nowhere else
  in it, so a login that begins before a given one ends before it, or ends where it ends.  In
  the second case its password runs on through the given password, for what it keeps ends
  at its second colon, and the given login has two of them before its password.  Either way the
  password is not looked at, so texts that differ only in it are scrubbed to the same text
  (`scrub_password`).
-/
import KnowledgeSearch.Proofs.Storage.Scan
import Mathlib.Data.List.TakeWhile

namespace KnowledgeSearch.Redact

open Text (isBlank parts_of_class)

/-! ### Classes -/

theorem isSchemeStart_of_isAlpha {c : Char} (h : c.isAlpha = true) : isSchemeStart c = true := by
  have hascii : c.toNat < 128 := Text.toNat_lt_of_isAlphanum (by simp [Char.isAlphanum, h])
  revert h
  exact Text.of_ascii (P := fun c => c.isAlpha = true → isSchemeStart c = true)
    (by decide) hascii

theorem not_isSchemePart_of_isBlank {c : Char} (h : isBlank c = true) : isSchemePart c = false :=
  Text.of_isBlank (P := fun c => isSchemePart c = false) (by decide) h

theorem isPasswordPart_of_isUserPart {c : Char} (h : isUserPart c = true) :
    isPasswordPart c = true := by
  simp only [isUserPart, Bool.and_eq_true] at h
  simp [isPasswordPart, h]

theorem isPasswordPart_of_isSchemePart {c : Char} (h : isSchemePart c = true) :
    isPasswordPart c = true := by
  have hsign : c ≠ '@' := by
    rintro rfl
    revert h
    decide
  have hblank : isBlank c = false := by
    by_contra hblank
    rw [not_isSchemePart_of_isBlank (by simpa using hblank)] at h
    cases h
  simp [isPasswordPart, hsign, hblank]

/-! ### Logins -/

/-- The part of a connection text before the host: `scheme://user:password@`. -/
structure Login where
  scheme : List Char
  user : List Char
  password : List Char
  begins : ∃ first, scheme.head? = some first ∧ isSchemeStart first = true
  schemePart : ∀ c ∈ scheme, isSchemePart c = true
  someUser : user ≠ []
  userPart : ∀ c ∈ user, isUserPart c = true
  somePassword : password ≠ []
  passwordPart : ∀ c ∈ password, isPasswordPart c = true

namespace Login

variable (l : Login)

/-- What is not masked, up to the password. -/
def kept : List Char := l.scheme ++ [':', '/', '/'] ++ l.user ++ [':']

def text : List Char := l.kept ++ l.password ++ ['@']

def masked : Masked := ⟨l.kept ++ mask ++ ['@'], l.text.length⟩

theorem text_ne_nil : l.text ≠ [] := by simp [text]

theorem length_text : l.text.length = l.kept.length + l.password.length + 1 := by
  simp [text, Nat.add_assoc]

/-- Two colons stand in what is kept, and it ends with one. -/
theorem count_kept : l.kept.count ':' = 2 := by
  have hscheme : ':' ∉ l.scheme := fun h => absurd (l.schemePart _ h) (by decide)
  have huser : ':' ∉ l.user := fun h => absurd (l.userPart _ h) (by decide)
  simp [kept, List.count_append, List.count_eq_zero_of_not_mem hscheme,
    List.count_eq_zero_of_not_mem huser]

/-- Nothing before the sign at the end is a blank or that sign. -/
theorem isPasswordPart_init : ∀ c ∈ l.kept ++ l.password, isPasswordPart c = true := by
  simp only [kept, List.mem_append, List.mem_cons, List.not_mem_nil, or_false]
  rintro c ((((hscheme | hsign) | huser) | rfl) | hpassword)
  · exact isPasswordPart_of_isSchemePart (l.schemePart c hscheme)
  · rcases hsign with rfl | rfl | rfl <;> decide
  · exact isPasswordPart_of_isUserPart (l.userPart c huser)
  · decide
  · exact l.passwordPart c hpassword

/-- What a text has behind the scheme of a login that it begins with. -/
theorem split_scheme (rest : List Char) :
    (l.text ++ rest).takeWhile isSchemePart = l.scheme ∧
      (l.text ++ rest).dropWhile isSchemePart =
        ':' :: '/' :: '/' :: (l.user ++ ':' :: (l.password ++ '@' :: rest)) := by
  have htext : l.text ++ rest =
      l.scheme ++ ':' :: '/' :: '/' :: (l.user ++ ':' :: (l.password ++ '@' :: rest)) := by
    simp [text, kept]
  rw [htext]
  exact parts_of_class _ l.schemePart (by rintro c ⟨⟩; decide)

end Login

theorem findPassword?_text (before : Option Char) (l : Login) (rest : List Char) :
    findPassword? before (l.text ++ rest) = some l.masked := by
  obtain ⟨first, hhead, hfirst⟩ := l.begins
  obtain ⟨others, hscheme⟩ := List.head?_eq_some_iff.mp hhead
  obtain ⟨htake, hdrop⟩ := l.split_scheme rest
  obtain ⟨htakeUser, hdropUser⟩ := parts_of_class (':' :: (l.password ++ '@' :: rest))
    l.userPart (by rintro c ⟨⟩; decide)
  obtain ⟨htakePassword, hdropPassword⟩ := parts_of_class ('@' :: rest) l.passwordPart
    (by rintro c ⟨⟩; decide)
  have htext : l.text ++ rest = first :: (others ++ [':', '/', '/'] ++ l.user ++ [':'] ++
      l.password ++ '@' :: rest) := by
    simp [Login.text, Login.kept, hscheme]
  rw [htext] at htake hdrop ⊢
  simp only [findPassword?, hfirst, htake, hdrop, htakeUser, hdropUser, htakePassword,
    hdropPassword]
  simp [l.someUser, l.somePassword, Login.masked, Login.length_text, Login.kept]

theorem findPassword?_eq_some_iff {before : Option Char} {text : List Char} {masked : Masked} :
    findPassword? before text = some masked ↔
      ∃ (l : Login) (rest : List Char), text = l.text ++ rest ∧ masked = l.masked := by
  constructor
  · intro h
    cases text with
    | nil => cases h
    | cons first others =>
      unfold findPassword? at h
      dsimp only at h
      split at h
      · cases h
      rename_i hfirst
      split at h
      · rename_i afterScheme hscheme
        split at h
        · rename_i afterUser huser
          split at h
          · rename_i rest hpassword
            split at h
            · cases h
            · rename_i hsome
              simp only [Bool.or_eq_true, not_or, List.isEmpty_iff] at hsome
              have hbegins : isSchemeStart first = true := by simpa using hfirst
              let l : Login :=
                { scheme := (first :: others).takeWhile isSchemePart
                  user := afterScheme.takeWhile isUserPart
                  password := afterUser.takeWhile isPasswordPart
                  begins := ⟨first, by simp [isSchemePart, hbegins], hbegins⟩
                  schemePart := fun c hc => List.mem_takeWhile_imp hc
                  someUser := hsome.1
                  userPart := fun c hc => List.mem_takeWhile_imp hc
                  somePassword := hsome.2
                  passwordPart := fun c hc => List.mem_takeWhile_imp hc }
              refine ⟨l, rest, ?_, ?_⟩
              · have htext :=
                  List.takeWhile_append_dropWhile (p := isSchemePart) (l := first :: others)
                rw [hscheme, ← List.takeWhile_append_dropWhile (p := isUserPart) (l := afterScheme),
                  huser, ← List.takeWhile_append_dropWhile (p := isPasswordPart) (l := afterUser),
                  hpassword] at htext
                rw [← htext]
                simp [Login.text, Login.kept, l]
              · cases h
                simp [Login.masked, Login.length_text, Login.kept, l]
          · cases h
        · cases h
      · cases h
  · rintro ⟨l, rest, rfl, rfl⟩
    exact findPassword?_text before l rest

/-- What is found lies within the text. -/
theorem length_le_of_findPassword? {before : Option Char} {text : List Char} {masked : Masked}
    (h : findPassword? before text = some masked) : masked.length ≤ text.length := by
  obtain ⟨l, rest, rfl, rfl⟩ := findPassword?_eq_some_iff.mp h
  simp [Login.masked]

/-- What follows a text is not looked at if no login goes over into it. -/
theorem findPassword?_append {before : Option Char} {text late : List Char}
    (hwithin : ∀ (l : Login) rest, text ++ late = l.text ++ rest →
      ∃ between, text = l.text ++ between) :
    findPassword? before (text ++ late) = findPassword? before text := by
  refine Option.ext fun masked => ?_
  simp only [findPassword?_eq_some_iff]
  constructor
  · rintro ⟨l, rest, htext, rfl⟩
    obtain ⟨between, rfl⟩ := hwithin l rest htext
    exact ⟨l, between, rfl, rfl⟩
  · rintro ⟨l, between, rfl, rfl⟩
    exact ⟨l, between ++ late, List.append_assoc _ _ _, rfl⟩

/-! ### A password in a text -/

/-- What can stand for a password. -/
abbrev Password := { p : List Char // p ≠ [] ∧ ∀ c ∈ p, isPasswordPart c = true }

theorem sign_not_mem_of_isPasswordPart {text : List Char}
    (h : ∀ c ∈ text, isPasswordPart c = true) : '@' ∉ text :=
  fun hmem => absurd (h _ hmem) (by decide)

namespace Login

def withPassword (l : Login) (p : Password) : Login :=
  { l with password := p.1, somePassword := p.2.1, passwordPart := p.2.2 }

/-- A login goes on to the first sign of its text. -/
theorem split_text (l : Login) (rest : List Char) :
    (l.text ++ rest).takeWhile (· != '@') = l.kept ++ l.password ∧
      (l.text ++ rest).dropWhile (· != '@') = '@' :: rest := by
  have hsplit : l.text ++ rest = (l.kept ++ l.password) ++ '@' :: rest := by simp [text]
  rw [hsplit]
  exact parts_of_not_mem rest (sign_not_mem_of_isPasswordPart l.isPasswordPart_init)

/-- A login that begins before a sign ends there. -/
theorem of_sign_mem {l : Login} {early late rest : List Char} (h : early ++ late = l.text ++ rest)
    (hsign : '@' ∈ early) : ∃ between, early = l.text ++ between := by
  obtain ⟨htake, -⟩ := l.split_text rest
  obtain ⟨init, between, rfl, hinit⟩ := List.eq_append_cons_of_mem hsign
  rw [← h, List.append_assoc, List.cons_append] at htake
  have hfirst : init = l.kept ++ l.password := by
    rw [← htake, (parts_of_not_mem _ hinit).1]
  exact ⟨between, by simp [text, hfirst]⟩

/-- Where there is no sign a login goes on. -/
theorem of_sign_not_mem {l : Login} {early late rest : List Char}
    (h : early ++ late = l.text ++ rest) (hsign : '@' ∉ early) :
    ∃ upto, late = upto ++ '@' :: rest ∧ early ++ upto = l.kept ++ l.password := by
  obtain ⟨htake, hdrop⟩ := l.split_text rest
  have hbefore : ∀ c ∈ early, (c != '@') = true :=
    fun c hc => bne_iff_ne.mpr fun heq => hsign (heq ▸ hc)
  rw [← h, List.takeWhile_append_of_pos hbefore] at htake
  rw [← h, List.dropWhile_append_of_pos hbefore] at hdrop
  refine ⟨late.takeWhile (· != '@'), ?_, htake⟩
  rw [← hdrop, List.takeWhile_append_dropWhile]

/-- A login that begins before a password ends before it, unless the password is part of its
    own.  It is supposed that what the login keeps does not go past the password's beginning. -/
theorem text_append_cases {l : Login} {early middle late rest : List Char} {p : Password}
    (hmiddle : '@' ∉ middle) (hkept : ∀ beyond, l.kept = early ++ middle ++ beyond → beyond = [])
    (h : early ++ (middle ++ (p.1 ++ late)) = l.text ++ rest) :
    (∃ between, early = l.text ++ between) ∨
      ∃ run upto, early ++ middle = l.kept ++ run ∧ l.password = run ++ p.1 ++ upto ∧
        late = upto ++ '@' :: rest := by
  by_cases hsign : '@' ∈ early
  · exact .inl (of_sign_mem h hsign)
  · right
    have hnone : '@' ∉ early ++ middle ++ p.1 := by
      have hpassword : '@' ∉ p.1 := sign_not_mem_of_isPasswordPart p.2.2
      simp [hsign, hmiddle, hpassword]
    have hassoc : early ++ middle ++ p.1 ++ late = l.text ++ rest := by simpa using h
    obtain ⟨upto, rfl, hinit⟩ := of_sign_not_mem hassoc hnone
    rw [List.append_assoc] at hinit
    rcases List.append_eq_append_iff.mp hinit with ⟨beyond, hl, hpassword⟩ | ⟨run, hl, hpassword⟩
    · obtain rfl := hkept beyond hl
      exact ⟨[], upto, by simpa using hl.symm, by simpa using hpassword.symm, rfl⟩
    · exact ⟨run, upto, hl, by rw [hpassword, List.append_assoc], rfl⟩

end Login

/-- How far the scan goes on from the beginning of a password that is masked with what is
    around it. -/
def reachFrom (middle late p : List Char) : Nat :=
  (middle ++ (p ++ late.takeWhile (· != '@'))).length + 1

/-- A place before a password meets the text alike, however the password reads. -/
theorem meets_password {early : List Char} (middle late : List Char) (before : Option Char)
    (hmiddle : '@' ∉ middle)
    (hkept : ∀ (l : Login) beyond, l.kept = early ++ middle ++ beyond → beyond = []) :
    Meets findPassword? before early (fun p : Password => middle ++ (p.1 ++ late))
      fun p => reachFrom middle late p.1 := by
  -- whether a login takes the password in does not depend on how it reads
  by_cases hover : ∃ (l : Login) (run upto rest : List Char), early ++ middle = l.kept ++ run ∧
      late = upto ++ '@' :: rest ∧ ∀ c ∈ run ++ upto, isPasswordPart c = true
  · obtain ⟨l, run, upto, rest, hearly, rfl, hpart⟩ := hover
    have hupto : (upto ++ '@' :: rest).takeWhile (· != '@') = upto :=
      (parts_of_not_mem rest (sign_not_mem_of_isPasswordPart fun c hc =>
        hpart c (List.mem_append_right run hc))).1
    refine .over (l.kept ++ mask ++ ['@']) fun p => ?_
    let q : Password := ⟨run ++ p.1 ++ upto, by simp [p.2.1], by
      simp only [List.mem_append] at hpart ⊢
      rintro c ((hc | hc) | hc)
      · exact hpart c (.inl hc)
      · exact p.2.2 c hc
      · exact hpart c (.inr hc)⟩
    have htext : early ++ (middle ++ (p.1 ++ (upto ++ '@' :: rest))) =
        (l.withPassword q).text ++ rest := by
      rw [← List.append_assoc, hearly]
      simp [Login.text, Login.withPassword, Login.kept, q]
    have hlength : early.length + reachFrom middle (upto ++ '@' :: rest) p.1 =
        (l.withPassword q).text.length := by
      have hall := congrArg List.length htext
      simp only [List.length_append, List.length_cons] at hall
      simp only [reachFrom, hupto, List.length_append]
      omega
    rw [htext, findPassword?_text, hlength]
    rfl
  · have hwithin (p : Password) (l : Login) (rest : List Char)
        (h : early ++ (middle ++ (p.1 ++ late)) = l.text ++ rest) :
        ∃ between, early = l.text ++ between := by
      refine (Login.text_append_cases hmiddle (hkept l) h).resolve_right ?_
      rintro ⟨run, upto, hearly, hpassword, hlate⟩
      refine hover ⟨l, run, upto, rest, hearly, hlate, fun c hc => l.passwordPart c ?_⟩
      rw [hpassword]
      simp only [List.mem_append] at hc ⊢
      exact hc.elim (fun hc => .inl (.inl hc)) .inr
    exact .apart (fun p => findPassword?_append (hwithin p))
      fun masked => length_le_of_findPassword?

/-! ### The first scan -/

def maskPasswords (text : List Char) : List Char := replaceFrom findPassword? none 0 text

/-- The first scan does not look back. -/
theorem replaceFrom_findPassword? (before before' : Option Char) (skip : Nat) (text : List Char) :
    replaceFrom findPassword? before skip text = replaceFrom findPassword? before' skip text := by
  cases text with
  | nil => simp only [replaceFrom]
  | cons c text =>
    cases skip with
    | succ skip => rfl
    | zero => rfl

theorem findPassword?_eq_none {before : Option Char} {c : Char} {text : List Char}
    (h : isSchemeStart c = false) : findPassword? before (c :: text) = none := by
  simp [findPassword?, h]

/-- Where no connection text begins the first scan copies. -/
theorem maskPasswords_cons {c : Char} (text : List Char) (h : isSchemeStart c = false) :
    maskPasswords (c :: text) = c :: maskPasswords text := by
  unfold maskPasswords
  simp only [replaceFrom, findPassword?_eq_none h]
  exact congrArg _ (replaceFrom_findPassword? _ _ _ _)

/-- The two parts of a text are scanned apart if no login goes over from the first to the second. -/
theorem maskPasswords_append_of_apart {early late : List Char}
    (h : ∀ part upto rest, part ≠ [] → part <:+ early → late = upto ++ '@' :: rest →
      ∃ c ∈ part ++ upto, isPasswordPart c = false) :
    maskPasswords (early ++ late) = maskPasswords early ++ maskPasswords late := by
  have hwithin (part : List Char) (hsome : part ≠ []) (hsuffix : part <:+ early) (l : Login)
      (rest : List Char) (htext : part ++ late = l.text ++ rest) :
      ∃ between, part = l.text ++ between := by
    by_contra hover
    have hnone : '@' ∉ part := fun hmem => hover (Login.of_sign_mem htext hmem)
    obtain ⟨upto, hlate, hinit⟩ := Login.of_sign_not_mem htext hnone
    obtain ⟨c, hc, hpart⟩ := h part upto rest hsome hsuffix hlate
    rw [l.isPasswordPart_init c (hinit ▸ hc)] at hpart
    cases hpart
  unfold maskPasswords
  rw [replaceFrom_append, standing_apart fun before part hsome hsuffix =>
    ⟨findPassword?_append (hwithin part hsome hsuffix), fun masked => length_le_of_findPassword?⟩]
  exact congrArg _ (replaceFrom_findPassword? _ _ _ _)

/-- The second part has no sign before its first blank. -/
theorem maskPasswords_append (early : List Char) {late : List Char}
    (hsign : '@' ∉ unbroken late) :
    maskPasswords (early ++ late) = maskPasswords early ++ maskPasswords late := by
  refine maskPasswords_append_of_apart fun part upto rest _ _ hlate => ?_
  by_contra hnone
  have hupto : ∀ c ∈ upto, isBlank c = false := fun c hc => by
    by_contra hblank
    refine hnone ⟨c, List.mem_append_right part hc, ?_⟩
    simpa [isPasswordPart] using fun _ => hblank
  rw [hlate, unbroken_append_of_not_blank hupto] at hsign
  refine hsign ?_
  simp [unbroken, show isBlank '@' = false from by decide]

/-- The first part ends in a blank. -/
theorem maskPasswords_behind_blank {early late : List Char} {c : Char}
    (hlast : early.getLast? = some c) (hblank : isBlank c = true) :
    maskPasswords (early ++ late) = maskPasswords early ++ maskPasswords late := by
  refine maskPasswords_append_of_apart fun part upto rest hsome hsuffix _ => ?_
  refine ⟨c, List.mem_append_left upto ?_, by simp [isPasswordPart, hblank]⟩
  obtain ⟨init, rfl⟩ := hsuffix
  obtain ⟨start, last, rfl⟩ := part.eq_nil_or_concat.resolve_left hsome
  obtain rfl : last = c := by simpa using hlast
  simp

/-- A text without the sign before a host is copied. -/
theorem maskPasswords_of_no_sign {text : List Char} (h : '@' ∉ text) :
    maskPasswords text = text := by
  have hnone (before : Option Char) (part : List Char) (_ : part ≠ []) (hsuffix : part <:+ text) :
      findPassword? before (part ++ []) = none := by
    refine Option.eq_none_iff_forall_ne_some.mpr fun masked hfound => ?_
    obtain ⟨l, rest, hpart, -⟩ := findPassword?_eq_some_iff.mp hfound
    refine h (hsuffix.subset ?_)
    rw [← List.append_nil part, hpart]
    simp [Login.text]
  have hcopied : replaceFrom findPassword? none 0 (text ++ []) =
      text ++ replaceFrom findPassword? (lastOf none text) 0 [] :=
    replaceFrom_copied hnone
  simpa [maskPasswords, replaceFrom] using hcopied

/-- The first scan changes nothing at the end of a text. -/
theorem getLast?_replaceFrom {before : Option Char} {skip : Nat} {text : List Char}
    (h : skip < text.length) :
    (replaceFrom findPassword? before skip text).getLast? = text.getLast? := by
  -- the last character is copied, or it is the sign at the end of a login, which is kept
  induction text generalizing before skip with
  | nil => cases h
  | cons c text ih =>
    have hlater {d : Char} {skip : Nat} (hskip : skip < text.length) (written : List Char) :
        (written ++ replaceFrom findPassword? (some d) skip text).getLast? =
          (c :: text).getLast? := by
      obtain ⟨init, last, rfl⟩ := text.eq_nil_or_concat.resolve_left (by rintro rfl; cases hskip)
      have hall : c :: init.concat last = (c :: init) ++ [last] := by simp
      rw [List.getLast?_append, ih hskip, hall, List.getLast?_concat]
      simp
    cases skip with
    | succ skip => simpa [replaceFrom] using hlater (Nat.lt_of_succ_lt_succ h) []
    | zero =>
      simp only [replaceFrom]
      cases hfound : findPassword? before (c :: text) with
      | none =>
        cases text with
        | nil => rfl
        | cons d text => exact hlater (Nat.succ_pos _) [c]
      | some masked =>
        obtain ⟨l, rest, htext, rfl⟩ := findPassword?_eq_some_iff.mp hfound
        have hlength : text.length + 1 = l.text.length + rest.length := by
          simpa using congrArg List.length htext
        cases rest with
        | nil =>
          have hnothing := replaceFrom_skip findPassword? (some c) text []
          rw [List.append_nil] at hnothing htext
          have hskip : l.masked.length - 1 = text.length := by
            rw [List.length_nil, Nat.add_zero] at hlength
            exact Nat.sub_eq_of_eq_add hlength.symm
          simp only [hskip, hnothing, htext]
          simp [replaceFrom, Login.masked, Login.text]
        | cons d rest =>
          refine hlater ?_ _
          have hsome : 0 < l.text.length := List.length_pos_iff.mpr l.text_ne_nil
          rw [List.length_cons] at hlength
          change l.text.length - 1 < text.length
          omega

theorem getLast?_maskPasswords (text : List Char) :
    (maskPasswords text).getLast? = text.getLast? := by
  cases text with
  | nil => rfl
  | cons c text => exact getLast?_replaceFrom (Nat.succ_pos _)

/-- What a login keeps ends at its second colon. -/
theorem Login.beyond_kept {l l' : Login} {early beyond : List Char}
    (h : l'.kept = early ++ l.kept ++ beyond) : beyond = [] := by
  rcases beyond.eq_nil_or_concat with rfl | ⟨init, last, rfl⟩
  · rfl
  · rw [List.concat_eq_append] at h
    have hends : l'.scheme ++ [':', '/', '/'] ++ l'.user ++ [':'] =
        early ++ l.kept ++ init ++ [last] := by
      rw [List.append_assoc _ init, ← h]
      rfl
    obtain ⟨-, hlast⟩ := List.append_inj' hends rfl
    have hcount := congrArg (List.count ':') h
    rw [← hlast] at hcount
    simp only [List.count_append, count_kept, List.count_singleton_self] at hcount
    omega

theorem replaceFrom_text (before : Option Char) (l : Login) (late : List Char) :
    replaceFrom findPassword? before 0 (l.text ++ late) =
      l.kept ++ mask ++ ['@'] ++ maskPasswords late := by
  rw [replaceFrom_found l.text_ne_nil (findPassword?_text _ l late)]
  exact congrArg _ (replaceFrom_findPassword? _ _ _ _)

theorem maskPasswords_login (l : Login) (early late : List Char) (p p' : Password) :
    maskPasswords (early ++ (l.kept ++ (p.1 ++ '@' :: late))) =
      maskPasswords (early ++ (l.kept ++ (p'.1 ++ '@' :: late))) := by
  have hsign : '@' ∉ l.kept := sign_not_mem_of_isPasswordPart fun c hc =>
    l.isPasswordPart_init c (List.mem_append_left _ hc)
  have hmeets (before : Option Char) (text : List Char) :=
    meets_password l.kept ('@' :: late) before hsign
      (fun (l' : Login) beyond (h : l'.kept = text ++ l.kept ++ beyond) => Login.beyond_kept h)
  have htext (p : Password) :
      l.kept ++ (p.1 ++ '@' :: late) = (l.withPassword p).text ++ late := by
    simp [Login.text, Login.withPassword, Login.kept]
  have hreach (p : Password) :
      reachFrom l.kept ('@' :: late) p.1 = (l.withPassword p).text.length := by
    simp [reachFrom, Login.text, Login.withPassword, Login.kept, Nat.add_assoc]
  have hover (before : Option Char) (p : Password) :
      replaceFrom findPassword? before (reachFrom l.kept ('@' :: late) p.1)
          (l.kept ++ (p.1 ++ '@' :: late)) = maskPasswords late := by
    rw [hreach, htext, replaceFrom_skip]
    exact replaceFrom_findPassword? _ _ _ _
  have hfound (before : Option Char) (p : Password) :
      replaceFrom findPassword? before 0 (l.kept ++ (p.1 ++ '@' :: late)) =
        l.kept ++ mask ++ ['@'] ++ maskPasswords late := by
    rw [htext, replaceFrom_text]
    rfl
  unfold maskPasswords
  rw [replaceFrom_append _ _ _ early (l.kept ++ (p.1 ++ '@' :: late)),
    replaceFrom_append _ _ _ early (l.kept ++ (p'.1 ++ '@' :: late))]
  rcases standing_cases none (fun before text _ _ => hmeets before text)
    (Nat.zero_le early.length) with ⟨written, hstands⟩ | hstands
  · rw [hstands p, hstands p']
    simp only [hover]
  · rw [hstands p, hstands p']
    simp only [hfound]

/-! ### Texts -/

/-- The texts `[A-Za-z][A-Za-z0-9+.-]*`. -/
def IsScheme (s : String) : Prop :=
  ∃ first others, s.toList = first :: others ∧ first.isAlpha = true ∧
    ∀ c ∈ others, c.isAlphanum = true ∨ c = '+' ∨ c = '.' ∨ c = '-'

def IsUser (u : String) : Prop :=
  u ≠ "" ∧ ∀ c ∈ u.toList, c ≠ ':' ∧ c ≠ '/' ∧ c ≠ '@' ∧ isBlank c = false

def IsPassword (p : String) : Prop := p ≠ "" ∧ ∀ c ∈ p.toList, c ≠ '@' ∧ isBlank c = false

instance (u : String) : Decidable (IsUser u) :=
  @instDecidableAnd (u ≠ "") _ inferInstance (List.decidableBAll _ u.toList)

instance (p : String) : Decidable (IsPassword p) :=
  @instDecidableAnd (p ≠ "") _ inferInstance (List.decidableBAll _ p.toList)

theorem IsScheme.schemePart {s : String} (h : IsScheme s) :
    ∀ c ∈ s.toList, isSchemePart c = true := by
  obtain ⟨first, others, hs, hfirst, hothers⟩ := h
  rw [hs]
  intro c hc
  rcases List.mem_cons.mp hc with rfl | hc
  · simp [isSchemePart, isSchemeStart_of_isAlpha hfirst]
  · rcases hothers c hc with hc | rfl | rfl | rfl
    · rcases Bool.or_eq_true_iff.mp hc with hc | hc
      · simp [isSchemePart, isSchemeStart_of_isAlpha hc]
      · simp [isSchemePart, hc]
    all_goals decide

theorem IsScheme.begins {s : String} (h : IsScheme s) :
    ∃ first, s.toList.head? = some first ∧ isSchemeStart first = true := by
  obtain ⟨first, others, hs, hfirst, -⟩ := h
  exact ⟨first, by rw [hs]; rfl, isSchemeStart_of_isAlpha hfirst⟩

theorem IsUser.userPart {u : String} (h : IsUser u) : ∀ c ∈ u.toList, isUserPart c = true := by
  intro c hc
  obtain ⟨hcolon, hslash, hsign, hblank⟩ := h.2 c hc
  simp [isUserPart, hcolon, hslash, hsign, hblank]

def IsPassword.toPassword {p : String} (h : IsPassword p) : Password :=
  ⟨p.toList, by simpa using h.1, fun c hc => by simp [isPasswordPart, h.2 c hc]⟩

/-- The login that a scheme, a user and a password make up. -/
def loginOf {s u p : String} (hs : IsScheme s) (hu : IsUser u) (hp : IsPassword p) : Login where
  scheme := s.toList
  user := u.toList
  password := p.toList
  begins := hs.begins
  schemePart := hs.schemePart
  someUser := by simpa using hu.1
  userPart := hu.userPart
  somePassword := hp.toPassword.2.1
  passwordPart := hp.toPassword.2.2

/-- **A password of a connection text is masked in any text.**  Texts that differ only in it are
    scrubbed to the same text. -/
theorem scrub_password {a s u p p' b : String} (hs : IsScheme s) (hu : IsUser u)
    (hp : IsPassword p) (hp' : IsPassword p') :
    scrub (a ++ s ++ "://" ++ u ++ ":" ++ p ++ "@" ++ b) =
      scrub (a ++ s ++ "://" ++ u ++ ":" ++ p' ++ "@" ++ b) := by
  have htext (q : String) (hq : IsPassword q) :
      (a ++ s ++ "://" ++ u ++ ":" ++ q ++ "@" ++ b).toList =
        a.toList ++ ((loginOf hs hu hp).kept ++ (hq.toPassword.1 ++ '@' :: b.toList)) := by
    simp [Login.kept, loginOf, IsPassword.toPassword]
  have hmasked := maskPasswords_login (loginOf hs hu hp) a.toList b.toList hp.toPassword
    hp'.toPassword
  unfold scrub scrubChars
  rw [htext p hp, htext p' hp']
  exact congrArg (fun text => String.ofList (replaceFrom findSecret? none 0 text)) hmasked

/-- A login behind the beginning of another one. -/
theorem scrub_password_nested :
    scrub ("x://y:" ++ "postgres" ++ "://" ++ "kb" ++ ":" ++ "a://b:c" ++ "@" ++ "db") =
      scrub ("x://y:" ++ "postgres" ++ "://" ++ "kb" ++ ":" ++ "hunter2" ++ "@" ++ "db") := by
  refine scrub_password ⟨'p', "ostgres".toList, rfl, rfl, ?_⟩ ?_ ?_ ?_
  · simp
  all_goals decide

end KnowledgeSearch.Redact
