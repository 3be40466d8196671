/-
  KnowledgeSearch/Proofs/Storage/OpeningError.lean
  ================================================
  **What the error of opening a source shows of its password.**

  The report of a source that is not opened quotes its name, `scheme://user:password@`
  and a host, and is scrubbed.  The first scan masks a password up to its first `@`, and only
  behind a user: what stands from that sign on remains, and without a user the whole
  password does (`remains`, `maskPasswords_remains`).  The second scan does not look for
  connection texts.  It masks what remains if a value of its own has begun before it, and shows
  it otherwise, so `openSource_password` tells of every name whether its error depends on
  the password.
-/
import KnowledgeSearch.Proofs.Storage.Secret
import KnowledgeSearch.Storage.DataSource

namespace KnowledgeSearch.Redact

open Text (isBlank foldChar parts_of_class)

/-! ### The first scan -/

/-- Whether the first scan takes a text for a user. -/
def isUser (user : List Char) : Bool := !user.isEmpty && user.all isUserPart

/-- What the first scan leaves of a password. -/
def remains (user password : List Char) : List Char :=
  if isUser user = true ∧ password.head? ≠ some '@' then mask ++ password.dropWhile (· != '@')
  else password

/-- A login is read off the text that it begins. -/
theorem Login.parts_unique {l : Login} {scheme user after rest : List Char}
    (hscheme : ∀ c ∈ scheme, isSchemePart c = true) (huser : ':' ∉ user)
    (h : scheme ++ ':' :: '/' :: '/' :: (user ++ ':' :: after) = l.text ++ rest) :
    user = l.user ∧ after = l.password ++ '@' :: rest := by
  have hbehind : user ++ ':' :: after = l.user ++ ':' :: (l.password ++ '@' :: rest) := by
    have hdrop := congrArg (List.dropWhile isSchemePart) h
    rw [(parts_of_class _ hscheme (by rintro c ⟨⟩; decide)).2, (l.split_scheme rest).2] at hdrop
    simpa using hdrop
  obtain ⟨htake, hdrop⟩ := parts_of_not_mem after huser
  obtain ⟨htake', hdrop'⟩ := parts_of_not_mem (l.password ++ '@' :: rest)
    (fun hmem => absurd (l.userPart _ hmem) (by decide) : ':' ∉ l.user)
  rw [hbehind] at htake hdrop
  exact ⟨htake.symm.trans htake', (List.cons.inj (hdrop.symm.trans hdrop')).2⟩

/-- Before a sign a text without a slash is copied. -/
theorem maskPasswords_of_no_slash {early : List Char} (late : List Char) (h : '/' ∉ early) :
    maskPasswords (early ++ '@' :: late) = early ++ '@' :: maskPasswords late := by
  have hassoc : early ++ '@' :: late = early ++ ['@'] ++ late := by simp
  have hnone (before : Option Char) (part : List Char) (hsome : part ≠ [])
      (hsuffix : part <:+ early ++ ['@']) : findPassword? before (part ++ late) = none := by
    refine Option.eq_none_iff_forall_ne_some.mpr fun masked hfound => ?_
    obtain ⟨l, rest, hpart, -⟩ := findPassword?_eq_some_iff.mp hfound
    have hsign : '@' ∈ part := by
      obtain ⟨init, last, rfl⟩ := part.eq_nil_or_concat.resolve_left hsome
      obtain rfl : last = '@' := by simpa using hsuffix.getLast (by simp)
      simp
    obtain ⟨between, rfl⟩ := Login.of_sign_mem hpart hsign
    have hslash : '/' ∈ early ++ ['@'] := hsuffix.subset (by simp [Login.text, Login.kept])
    exact h (by simpa using hslash)
  rw [hassoc, maskPasswords, replaceFrom_copied hnone]
  simp [replaceFrom_findPassword? _ none, maskPasswords]

/-- A scheme is copied where no login stands behind it. -/
theorem maskPasswords_scheme {scheme behind : List Char}
    (h : ∀ (l : Login) part rest, part <:+ scheme → part ++ behind ≠ l.text ++ rest) :
    maskPasswords (scheme ++ behind) = scheme ++ maskPasswords behind := by
  rw [maskPasswords, replaceFrom_copied fun before part _ hsuffix => ?_]
  · exact congrArg _ (replaceFrom_findPassword? _ _ _ _)
  · refine Option.eq_none_iff_forall_ne_some.mpr fun masked hfound => ?_
    obtain ⟨l, rest, hpart, -⟩ := findPassword?_eq_some_iff.mp hfound
    exact h l part rest hsuffix hpart

/-- What a URL may have for a password, up to the last sign before its host. -/
abbrev UrlPassword := { p : List Char // p ≠ [] ∧ ∀ c ∈ p, c ≠ '/' ∧ isBlank c = false }

/-- What the report of a source that is not opened begins with. -/
def beginning : String := "Failed to open pool for "

/-- What a name of a source has before its password: `scheme://user:`.  The user ends at the first
    colon; there may be none. -/
structure Account where
  scheme : List Char
  user : List Char
  begins : ∃ first, scheme.head? = some first ∧ isSchemeStart first = true
  schemePart : ∀ c ∈ scheme, isSchemePart c = true
  userPart : ∀ c ∈ user, c ≠ ':' ∧ c ≠ '/'

namespace Account

variable (a : Account)

def text : List Char := a.scheme ++ [':', '/', '/'] ++ a.user ++ [':']

/-- Behind a user a password up to its first sign is masked. -/
theorem maskPasswords_hidden (huser : isUser a.user = true) (q : Password) (late : List Char) :
    maskPasswords (a.text ++ (q.1 ++ '@' :: late)) =
      a.text ++ (mask ++ '@' :: maskPasswords late) := by
  obtain ⟨hsome, hpart⟩ : a.user ≠ [] ∧ ∀ c ∈ a.user, isUserPart c = true := by
    simpa [isUser] using huser
  let l : Login :=
    { scheme := a.scheme, user := a.user, password := q.1
      begins := a.begins, schemePart := a.schemePart, someUser := hsome, userPart := hpart
      somePassword := q.2.1, passwordPart := q.2.2 }
  have htext : a.text ++ (q.1 ++ '@' :: late) = l.text ++ late := by
    simp [text, Login.text, Login.kept, l]
  rw [htext, maskPasswords, replaceFrom_text]
  simp [text, Login.kept, l]

/-- Behind anything else, and where a sign comes first, nothing of a password is masked. -/
theorem maskPasswords_shown {password : List Char}
    (h : ¬(isUser a.user = true ∧ password.head? ≠ some '@')) (hslash : '/' ∉ password)
    (late : List Char) :
    maskPasswords (a.text ++ (password ++ '@' :: late)) =
      a.text ++ (password ++ '@' :: maskPasswords late) := by
  have hcolon : ':' ∉ a.user := fun hmem => (a.userPart _ hmem).1 rfl
  have hnone (l : Login) (part rest : List Char) (hsuffix : part <:+ a.scheme) :
      part ++ ':' :: '/' :: '/' :: (a.user ++ ':' :: (password ++ '@' :: late)) ≠
        l.text ++ rest := by
    intro htext
    obtain ⟨huser, hpassword⟩ :=
      Login.parts_unique (fun c hc => a.schemePart c (hsuffix.subset hc)) hcolon htext
    refine h ⟨?_, fun hhead => ?_⟩
    · rw [huser, isUser]
      simpa [l.someUser] using l.userPart
    · obtain ⟨more, rfl⟩ := List.head?_eq_some_iff.mp hhead
      obtain ⟨c, others, hc⟩ := List.exists_cons_of_ne_nil l.somePassword
      rw [hc] at hpassword
      obtain ⟨rfl, -⟩ := List.cons.inj hpassword
      exact absurd (l.passwordPart '@' (by simp [hc])) (by decide)
  have huser : '/' ∉ a.user := fun hmem => (a.userPart _ hmem).2 rfl
  calc maskPasswords (a.text ++ (password ++ '@' :: late))
      = maskPasswords (a.scheme ++
          ':' :: '/' :: '/' :: (a.user ++ ':' :: (password ++ '@' :: late))) := by simp [text]
    _ = a.scheme ++
          ':' :: '/' :: '/' :: maskPasswords ((a.user ++ ':' :: password) ++ '@' :: late) := by
        rw [maskPasswords_scheme hnone, maskPasswords_cons _ (by decide),
          maskPasswords_cons _ (by decide), maskPasswords_cons _ (by decide)]
        simp
    _ = a.text ++ (password ++ '@' :: maskPasswords late) := by
        rw [maskPasswords_of_no_slash late (by simp [huser, hslash])]
        simp [text]

/-- What the first scan leaves of a password. -/
theorem maskPasswords_remains (p : UrlPassword) (late : List Char) :
    maskPasswords (a.text ++ (p.1 ++ '@' :: late)) =
      a.text ++ (remains a.user p.1 ++ '@' :: maskPasswords late) := by
  obtain ⟨password, hsome, hpassword⟩ := p
  have hslash : '/' ∉ password := fun hmem => (hpassword _ hmem).1 rfl
  by_cases hshown : ¬(isUser a.user = true ∧ password.head? ≠ some '@')
  · rw [remains, if_neg hshown]
    exact a.maskPasswords_shown hshown hslash late
  rw [not_not] at hshown
  rw [remains, if_pos hshown]
  obtain ⟨huser, hhead⟩ := hshown
  by_cases hsign : '@' ∈ password
  · -- the password goes on behind its first sign
    obtain ⟨first, more, rfl, hfirst⟩ := List.eq_append_cons_of_mem hsign
    have hne : first ≠ [] := by
      rintro rfl
      exact hhead rfl
    let q : Password := ⟨first, hne, fun c hc => by
      have hc' : c ≠ '@' := fun heq => hfirst (heq ▸ hc)
      simp [isPasswordPart, hc', (hpassword c (List.mem_append_left _ hc)).2]⟩
    have hdrop : (first ++ '@' :: more).dropWhile (· != '@') = '@' :: more :=
      (parts_of_not_mem more hfirst).2
    have hmore : '/' ∉ more := fun hmem => hslash (by simp [hmem])
    have hscan := a.maskPasswords_hidden huser q (more ++ '@' :: late)
    rw [maskPasswords_of_no_slash late hmore] at hscan
    simpa [hdrop] using hscan
  · let q : Password := ⟨password, hsome, fun c hc => by
      have hc' : c ≠ '@' := fun heq => hsign (heq ▸ hc)
      simp [isPasswordPart, hc', (hpassword c hc).2]⟩
    have hdrop : password.dropWhile (· != '@') = [] := List.dropWhile_eq_nil_iff.mpr
      fun c hc => bne_iff_ne.mpr fun heq => hsign (heq ▸ hc)
    simpa [hdrop] using a.maskPasswords_hidden huser q late

/-- What a report has before a password. -/
def early : List Char := beginning.toList ++ a.text

theorem getLast?_early : a.early.getLast? = some ':' := by
  rw [early, text, ← List.append_assoc, List.getLast?_append]
  rfl

/-- A report as the second scan finds it. -/
theorem scrubChars_report (p : UrlPassword) (late : List Char) :
    scrubChars (a.early ++ (p.1 ++ '@' :: late)) =
      maskSecrets (a.early ++ (remains a.user p.1 ++ '@' :: maskPasswords late)) := by
  have hbeginning : maskPasswords beginning.toList = beginning.toList :=
    maskPasswords_of_no_sign (by decide +kernel)
  have hlast : beginning.toList.getLast? = some ' ' := by decide +kernel
  have hfirst : maskPasswords (a.early ++ (p.1 ++ '@' :: late)) =
      a.early ++ (remains a.user p.1 ++ '@' :: maskPasswords late) := by
    rw [early, List.append_assoc, maskPasswords_behind_blank hlast (by decide), hbeginning,
      a.maskPasswords_remains, List.append_assoc]
  exact congrArg maskSecrets hfirst

end Account

/-! ### The second scan -/

/-- What remains of a password has no blank. -/
theorem not_isBlank_remains (user : List Char) (p : UrlPassword) :
    ∀ c ∈ remains user p.1, isBlank c = false := by
  intro c hc
  unfold remains at hc
  split at hc
  · rcases List.mem_append.mp hc with hc | hc
    · obtain rfl : c = '*' := by simpa [mask] using hc
      decide
    · exact (p.2.2 c ((List.dropWhile_suffix _).subset hc)).2
  · exact (p.2.2 c hc).2

namespace Account

variable {a : Account}

/-- Behind the colon there is no label that has begun before it. -/
theorem goesOn (a : Account) {run : List Char} (hrun : ∀ c ∈ run, isBlank c = false)
    (late : List Char) : GoesOn a.early.getLast? (run ++ '@' :: late) := by
  refine .inr ⟨a.getLast?_early, ?_⟩
  cases run with
  | nil => exact ⟨'@', late, rfl, by decide⟩
  | cons c run => exact ⟨c, _, rfl, hrun c List.mem_cons_self⟩

/-- Behind a text that ends in a value nothing of a password is shown. -/
theorem scrubChars_covered (h : EndsInValue a.early) (p p' : UrlPassword) (late : List Char) :
    scrubChars (a.early ++ (p.1 ++ '@' :: late)) =
      scrubChars (a.early ++ (p'.1 ++ '@' :: late)) := by
  obtain ⟨text, hcovered⟩ := maskSecrets_covered h '@' (by decide) (maskPasswords late)
  have hblank := not_isBlank_remains a.user
  rw [a.scrubChars_report p, a.scrubChars_report p',
    hcovered _ (a.goesOn (hblank p) _) (hblank p), hcovered _ (a.goesOn (hblank p') _) (hblank p')]

/-- Behind any other text what remains of a password is shown, if no keyword begins in it. -/
theorem scrubChars_shown (h : ¬EndsInValue a.early) (p : UrlPassword)
    (hstarts : ∀ c ∈ remains a.user p.1, foldChar c ∉ starts) (late : List Char) :
    scrubChars (a.early ++ (p.1 ++ '@' :: late)) =
      maskSecrets a.early ++ (remains a.user p.1 ++
        '@' :: replaceFrom findSecret? (some '@') 0 (maskPasswords late)) := by
  have hcopied (before : Option Char) (part : List Char) (hsome : part ≠ [])
      (hsuffix : part <:+ remains a.user p.1) :
      findSecret? before (part ++ '@' :: maskPasswords late) = none := by
    obtain ⟨c, part, rfl⟩ := List.exists_cons_of_ne_nil hsome
    exact findSecret?_eq_none (hstarts c (hsuffix.subset List.mem_cons_self))
  rw [a.scrubChars_report p, maskSecrets_append h (a.goesOn (not_isBlank_remains a.user p) _),
    replaceFrom_copied hcopied]
  simp only [replaceFrom, findSecret?_eq_none (c := '@') (by decide)]

/-- Passwords of which different letters remain tell whether the text before them ends in a
    value. -/
theorem endsInValue_of_scrubChars_eq (p p' : UrlPassword) {run late : List Char}
    (hrun : ∀ c ∈ run, foldChar c ∉ starts) (hp : remains a.user p.1 = run ++ ['x'])
    (hp' : remains a.user p'.1 = run ++ ['y'])
    (h : scrubChars (a.early ++ (p.1 ++ '@' :: late)) =
      scrubChars (a.early ++ (p'.1 ++ '@' :: late))) : EndsInValue a.early := by
  by_contra hends
  have hstarts (d : Char) (hd : foldChar d ∉ starts) : ∀ c ∈ run ++ [d], foldChar c ∉ starts := by
    simpa [or_imp, forall_and, hd] using hrun
  rw [scrubChars_shown hends p (hp ▸ hstarts 'x' (by decide)),
    scrubChars_shown hends p' (hp' ▸ hstarts 'y' (by decide)), hp, hp'] at h
  simp at h

end Account

/-! ### Names -/

/-- A text without blanks and slashes.  A sign may stand in it. -/
def IsUrlPassword (p : String) : Prop := p ≠ "" ∧ ∀ c ∈ p.toList, c ≠ '/' ∧ isBlank c = false

instance (p : String) : Decidable (IsUrlPassword p) :=
  @instDecidableAnd (p ≠ "") _ inferInstance (List.decidableBAll _ p.toList)

def IsUrlPassword.toUrlPassword {p : String} (h : IsUrlPassword p) : UrlPassword :=
  ⟨p.toList, by simpa using h.1, h.2⟩

/-- A text without colons and slashes.  It may be empty. -/
def IsUrlUser (u : String) : Prop := ∀ c ∈ u.toList, c ≠ ':' ∧ c ≠ '/'

instance (u : String) : Decidable (IsUrlUser u) := List.decidableBAll _ u.toList

theorem isUser_iff {u : String} : isUser u.toList = true ↔ IsUser u := by
  simp [isUser, IsUser, isUserPart, and_assoc]

def accountOf {s u : String} (hs : IsScheme s) (hu : IsUrlUser u) : Account where
  scheme := s.toList
  user := u.toList
  begins := hs.begins
  schemePart := hs.schemePart
  userPart := hu

end KnowledgeSearch.Redact

namespace KnowledgeSearch.DataSource

open Redact

/-! ### Why a source is not opened -/

/-- Why a source is not opened, if it is not. -/
def cause? (around : Surroundings) (dialect : Dialect) (dsn : String) : Option OpenCause :=
  match dialect with
  | .lite =>
    match FileSource.ofDsn dsn with
    | .error cause => some (.configuration cause)
    | .ok source =>
      match FileTarget.ofSource source with
      | .error cause => some cause
      | .ok target => target.fault? around.directoryExists around.fileExists
  | .postgres =>
    match ServerSource.ofDsn dsn with
    | .error cause => some (.configuration cause)
    | .ok route => if around.serverAnswers then none else some route.fault

/-- The error that a cause leads to.  It does not quote the name of a file source that is not
    well-formed. -/
def errorOf (dialect : Dialect) (dsn : String) (cause : OpenCause) : StorageError :=
  match dialect, cause with
  | .lite, .configuration _ =>
    let message := cause.message
    .config s!"storage.dsn is not a valid SQLite DSN: {message}."
  | _, _ => .ofOpening dsn cause

/-- Only the name of a file source is checked for being well-formed. -/
theorem errorOf_lite (dsn : String) {cause : OpenCause} (h : ∀ c, cause ≠ .configuration c) :
    errorOf .lite dsn cause = .ofOpening dsn cause := by
  cases cause with
  | configuration c => exact absurd rfl (h c)
  | _ => rfl

theorem ofSource_ne_configuration {source : FileSource} {cause : OpenCause}
    (h : FileTarget.ofSource source = .error cause) (c : String) : cause ≠ .configuration c := by
  unfold FileTarget.ofSource at h
  rintro rfl
  dsimp only at h
  split at h
  · cases h
  split at h
  · cases h
  split at h
  · rename_i rest _
    revert h
    cases FileTarget.ofOptions _ rest <;> nofun
  · cases h

theorem fault?_ne_configuration {directoryExists fileExists : FileLocation → Bool}
    {target : FileTarget} {cause : OpenCause}
    (h : target.fault? directoryExists fileExists = some cause) (c : String) :
    cause ≠ .configuration c := by
  rintro rfl
  unfold FileTarget.fault? at h
  grind

/-- Opening fails if and only if there is a cause, which tells the error. -/
theorem openSource_eq_error_iff {around : Surroundings} {dialect : Dialect} {dsn : String}
    {error : StorageError} :
    openSource around dialect dsn = .error error ↔
      ∃ cause, cause? around dialect dsn = some cause ∧ error = errorOf dialect dsn cause := by
  cases dialect with
  | lite =>
    simp only [openSource, openFile, cause?]
    cases FileSource.ofDsn dsn with
    | error c => simp [Except.map, errorOf, eq_comm]
    | ok source =>
      cases htarget : FileTarget.ofSource source with
      | error cause =>
        have herror := errorOf_lite dsn (ofSource_ne_configuration htarget)
        simp [htarget, Except.map, herror, eq_comm]
      | ok target =>
        cases hfault : target.fault? around.directoryExists around.fileExists with
        | some cause =>
          have herror := errorOf_lite dsn (fault?_ne_configuration hfault)
          simp [htarget, hfault, Except.map, herror, eq_comm]
        | none => simp [htarget, hfault, Except.map]
  | postgres =>
    simp only [openSource, openServer, cause?]
    cases ServerSource.ofDsn dsn with
    | error c => simp [Except.map, errorOf, eq_comm]
    | ok route => cases around.serverAnswers <;> simp [Except.map, errorOf, eq_comm]

/-! ### Names with a password -/

/-- A name of a source; behind the sign stands a host, and what follows it. -/
def nameOf (s u p b : String) : String := s ++ "://" ++ u ++ ":" ++ p ++ "@" ++ b

/-- What a report has before a password. -/
def earlyOf (s u : String) : List Char := (beginning ++ s ++ "://" ++ u ++ ":").toList

theorem ofOpening_eq_iff {dsn dsn' : String} {cause : OpenCause} :
    StorageError.ofOpening dsn cause = .ofOpening dsn' cause ↔
      scrub (beginning ++ dsn ++ ": " ++ cause.message ++ ".") =
        scrub (beginning ++ dsn' ++ ": " ++ cause.message ++ ".") := by
  have hreport (dsn : String) : s!"Failed to open pool for {dsn}: {cause.message}." =
      beginning ++ dsn ++ ": " ++ cause.message ++ "." := rfl
  cases cause <;> simp [StorageError.ofOpening, hreport]

section Named

variable {s u p p' b : String} {cause : OpenCause} (hs : IsScheme s) (hu : IsUrlUser u)
  (hp : IsUrlPassword p) (hp' : IsUrlPassword p')

theorem early_accountOf : (accountOf hs hu).early = earlyOf s u := by
  simp [Account.early, Account.text, accountOf, earlyOf]

include hs hu hp hp' in
/-- Errors are told apart by what the scans make of the two reports. -/
theorem ofOpening_nameOf_eq_iff :
    StorageError.ofOpening (nameOf s u p b) cause = .ofOpening (nameOf s u p' b) cause ↔
      scrubChars ((accountOf hs hu).early ++ (hp.toUrlPassword.1 ++
          '@' :: (b ++ ": " ++ cause.message ++ ".").toList)) =
        scrubChars ((accountOf hs hu).early ++ (hp'.toUrlPassword.1 ++
          '@' :: (b ++ ": " ++ cause.message ++ ".").toList)) := by
  have hreport (q : String) (hq : IsUrlPassword q) :
      (beginning ++ nameOf s u q b ++ ": " ++ cause.message ++ ".").toList =
        (accountOf hs hu).early ++ (hq.toUrlPassword.1 ++
          '@' :: (b ++ ": " ++ cause.message ++ ".").toList) := by
    simp [early_accountOf, earlyOf, nameOf, IsUrlPassword.toUrlPassword]
  rw [ofOpening_eq_iff, scrub, scrub, hreport p hp, hreport p' hp']
  exact ⟨fun h => String.ofList_injective h, fun h => congrArg String.ofList h⟩

include hs hu hp hp' in
theorem ofOpening_eq_of_endsInValue (h : EndsInValue (earlyOf s u)) :
    StorageError.ofOpening (nameOf s u p b) cause = .ofOpening (nameOf s u p' b) cause := by
  rw [← early_accountOf hs hu] at h
  exact (ofOpening_nameOf_eq_iff hs hu hp hp').mpr (Account.scrubChars_covered h _ _ _)

include hs hu hp hp' in
theorem ofOpening_eq_of_remains (h : remains u.toList p.toList = remains u.toList p'.toList) :
    StorageError.ofOpening (nameOf s u p b) cause = .ofOpening (nameOf s u p' b) cause := by
  rw [ofOpening_nameOf_eq_iff hs hu hp hp', Account.scrubChars_report, Account.scrubChars_report]
  exact congrArg (fun run => maskSecrets (_ ++ (run ++ _))) h

include hs hu hp hp' in
theorem endsInValue_of_ofOpening_eq (run : List Char) (hrun : ∀ c ∈ run, Text.foldChar c ∉ starts)
    (hx : remains u.toList p.toList = run ++ ['x'])
    (hy : remains u.toList p'.toList = run ++ ['y'])
    (h : StorageError.ofOpening (nameOf s u p b) cause = .ofOpening (nameOf s u p' b) cause) :
    EndsInValue (earlyOf s u) := by
  rw [← early_accountOf hs hu]
  rw [ofOpening_nameOf_eq_iff hs hu hp hp'] at h
  exact Account.endsInValue_of_scrubChars_eq hp.toUrlPassword hp'.toUrlPassword hrun hx hy h

/-- The same cause leads to the same error if the report that quotes the name is the same. -/
theorem openSource_eq_of_cause {around : Surroundings} {dialect : Dialect} {dsn dsn' : String}
    (hcause : cause? around dialect dsn = some cause)
    (hcause' : cause? around dialect dsn' = some cause)
    (hsame : StorageError.ofOpening dsn cause = .ofOpening dsn' cause) :
    ∃ error, openSource around dialect dsn = .error error ∧
      openSource around dialect dsn' = .error error := by
  refine ⟨_, openSource_eq_error_iff.mpr ⟨cause, hcause, rfl⟩,
    openSource_eq_error_iff.mpr ⟨cause, hcause', ?_⟩⟩
  unfold errorOf
  split
  · rfl
  · exact hsame

include hs hu in
/-- Two passwords with an `@` are told apart unless a value has begun before them. -/
theorem endsInValue_of_forall (h : ∀ p p', IsUrlPassword p → IsUrlPassword p' →
    StorageError.ofOpening (nameOf s u p b) cause = .ofOpening (nameOf s u p' b) cause) :
    EndsInValue (earlyOf s u) := by
  have hx : IsUrlPassword "x@x" := by decide +kernel
  have hy : IsUrlPassword "x@y" := by decide +kernel
  have hsame := h _ _ hx hy
  by_cases huser : isUser u.toList = true
  · refine endsInValue_of_ofOpening_eq hs hu hx hy (mask ++ ['@']) (by simp [mask]; decide) ?_ ?_
      hsame
    all_goals simp [remains, huser]
  · refine endsInValue_of_ofOpening_eq hs hu hx hy ['x', '@'] (by simp; decide) ?_ ?_ hsame
    all_goals simp [remains, huser]

include hs hu in
/-- Where the first scan finds no user two passwords without an `@` are told apart, too. -/
theorem endsInValue_of_forall_plain (huser : ¬IsUser u)
    (h : ∀ p p', IsUrlPassword p ∧ '@' ∉ p.toList → IsUrlPassword p' ∧ '@' ∉ p'.toList →
      StorageError.ofOpening (nameOf s u p b) cause = .ofOpening (nameOf s u p' b) cause) :
    EndsInValue (earlyOf s u) := by
  rw [← isUser_iff] at huser
  have hx : IsUrlPassword "x" ∧ '@' ∉ "x".toList := by decide +kernel
  have hy : IsUrlPassword "y" ∧ '@' ∉ "y".toList := by decide +kernel
  refine endsInValue_of_ofOpening_eq hs hu hx.1 hy.1 [] (by simp) ?_ ?_ (h _ _ hx hy)
  all_goals simp [remains, huser]

end Named

/-- **What the error of opening a source shows of its password.**  Of two names that differ in the
    password only and are not opened for the same cause, the errors are the same if the first scan
    leaves the same of both passwords, as it does behind a user if no `@` stands in them, or if a
    value has begun before the password.  In all other cases there are passwords that their
    errors tell apart, and where the first scan finds no user even ones without an `@`. -/
theorem openSource_password {s u : String} (hs : IsScheme s) (hu : IsUrlUser u) (b : String) :
    (∀ around dialect cause p p', IsUrlPassword p → IsUrlPassword p' →
      remains u.toList p.toList = remains u.toList p'.toList ∨ EndsInValue (earlyOf s u) →
      cause? around dialect (nameOf s u p b) = some cause →
      cause? around dialect (nameOf s u p' b) = some cause →
      ∃ error, openSource around dialect (nameOf s u p b) = .error error ∧
        openSource around dialect (nameOf s u p' b) = .error error) ∧
    ∀ cause,
      ((∀ p p', IsUrlPassword p → IsUrlPassword p' →
        StorageError.ofOpening (nameOf s u p b) cause = .ofOpening (nameOf s u p' b) cause) ↔
          EndsInValue (earlyOf s u)) ∧
      (¬IsUser u → ((∀ p p', IsUrlPassword p ∧ '@' ∉ p.toList → IsUrlPassword p' ∧ '@' ∉ p'.toList →
        StorageError.ofOpening (nameOf s u p b) cause = .ofOpening (nameOf s u p' b) cause) ↔
          EndsInValue (earlyOf s u))) := by
  constructor
  · intro around dialect cause p p' hp hp' hor hcause hcause'
    refine openSource_eq_of_cause hcause hcause' ?_
    rcases hor with hremains | hends
    · exact ofOpening_eq_of_remains hs hu hp hp' hremains
    · exact ofOpening_eq_of_endsInValue hs hu hp hp' hends
  intro cause
  constructor
  · constructor
    · exact endsInValue_of_forall hs hu
    · intro hends p p' hp hp'
      exact ofOpening_eq_of_endsInValue hs hu hp hp' hends
  · intro huser
    constructor
    · exact endsInValue_of_forall_plain hs hu huser
    · intro hends p p' hp hp'
      exact ofOpening_eq_of_endsInValue hs hu hp.1 hp'.1 hends

/-- Surroundings in which nothing can be reached. -/
def nothing : Surroundings := ⟨fun _ => false, fun _ => false, false⟩

/-- Why a host with a number that no port has is not reached. -/
def badPort : OpenCause := .configuration "invalid port number"

theorem isScheme_postgres : IsScheme "postgres" := ⟨'p', "ostgres".toList, rfl, rfl, by simp⟩

/-- Behind a user two passwords without an `@` are not told apart, but others are. -/
theorem openSource_password_masked :
    cause? nothing .postgres (nameOf "postgres" "kb" "hunter1" "db:99999/kb") = some badPort ∧
      cause? nothing .postgres (nameOf "postgres" "kb" "hunter2" "db:99999/kb") = some badPort ∧
      (∃ error,
        openSource nothing .postgres (nameOf "postgres" "kb" "hunter1" "db:99999/kb") =
          .error error ∧
        openSource nothing .postgres (nameOf "postgres" "kb" "hunter2" "db:99999/kb") =
          .error error) ∧
      ¬∀ p p', IsUrlPassword p → IsUrlPassword p' →
        StorageError.ofOpening (nameOf "postgres" "kb" p "db:99999/kb") badPort =
          .ofOpening (nameOf "postgres" "kb" p' "db:99999/kb") badPort := by
  obtain ⟨hsame, hiff⟩ := openSource_password isScheme_postgres
    (show IsUrlUser "kb" by decide +kernel) "db:99999/kb"
  have hcause : cause? nothing .postgres (nameOf "postgres" "kb" "hunter1" "db:99999/kb") =
      some badPort := by decide +kernel
  have hcause' : cause? nothing .postgres (nameOf "postgres" "kb" "hunter2" "db:99999/kb") =
      some badPort := by decide +kernel
  have hends : ¬EndsInValue (earlyOf "postgres" "kb") := by decide +kernel
  exact ⟨hcause, hcause', hsame _ _ _ _ _ (by decide +kernel) (by decide +kernel)
    (.inl (by decide +kernel)) hcause hcause', mt (hiff badPort).1.mp hends⟩

/-- Without a user a password is shown, and behind a user what follows its first `@`. -/
theorem openSource_password_shown :
    (∀ p ∈ ["hunter1", "hunter2"], IsUrlPassword p ∧
      cause? nothing .postgres (nameOf "postgres" "" p "db:99999/kb") = some badPort ∧
      openSource nothing .postgres (nameOf "postgres" "" p "db:99999/kb") = .error (.config
        ("Failed to open pool for postgres://:" ++ p ++
          "@db:99999/kb: error with configuration: invalid port number."))) ∧
    ∀ p ∈ ["ss1", "ss2"], IsUrlPassword ("p@" ++ p) ∧
      cause? nothing .postgres (nameOf "postgres" "kb" ("p@" ++ p) "db:99999/kb") = some badPort ∧
      openSource nothing .postgres (nameOf "postgres" "kb" ("p@" ++ p) "db:99999/kb") =
        .error (.config ("Failed to open pool for postgres://kb:***@" ++ p ++
          "@db:99999/kb: error with configuration: invalid port number.")) := by
  have hopen {dsn : String} {error : StorageError}
      (hcause : cause? nothing .postgres dsn = some badPort)
      (herror : error = errorOf .postgres dsn badPort) :
      openSource nothing .postgres dsn = .error error :=
    openSource_eq_error_iff.mpr ⟨badPort, hcause, herror⟩
  constructor
  · intro p hp
    have hcause : cause? nothing .postgres (nameOf "postgres" "" p "db:99999/kb") =
        some badPort := by
      revert p
      decide +kernel
    refine ⟨?_, hcause, hopen hcause ?_⟩
    all_goals revert p; decide +kernel
  · intro p hp
    have hcause : cause? nothing .postgres (nameOf "postgres" "kb" ("p@" ++ p) "db:99999/kb") =
        some badPort := by
      revert p
      decide +kernel
    refine ⟨?_, hcause, hopen hcause ?_⟩
    all_goals revert p; decide +kernel

end KnowledgeSearch.DataSource
