/-
  KnowledgeSearch/Proofs/Storage/Settled.lean
  ===========================================
  **Scrubbed texts are scrubbed no further.**

  A text is `Settled` for a scan if everything that is found in it, at whatever place, is
  masked already; the scan then leaves it as it is (`replaceFrom_of_settled`).  Scrubbing
  makes texts settled for both scans.

  Each scan settles a text for itself.  What it writes up to the first mask is copied, so
  something found there would have been found before, and the mask is all that
  something found from there on can have for a value.  The second scan does not undo what
  the first one did: no login goes over its masks, since each of them ends at a blank or
  at the end, and so the logins that it leaves stood in the text before
  (`exists_login_of_maskSecrets`).
-/
import KnowledgeSearch.Proofs.Storage.Secret
import Mathlib.Data.List.Basic

namespace KnowledgeSearch.Redact

open Text (isBlank isWord foldChar)

/-! ### Settled texts -/

/-- Whatever is found in a text, at any place, is what would be put there. -/
def Settled (recognise : Recogniser) (text : List Char) : Prop :=
  ∀ early late masked, text = early ++ late → recognise early.getLast? late = some masked →
    masked.replacement = late.take masked.length

/-- A scan changes nothing in a settled text. -/
theorem replaceFrom_of_settled {recognise : Recogniser} {text : List Char}
    (hsome : ∀ before late masked, recognise before late = some masked → 0 < masked.length)
    (h : Settled recognise text) : replaceFrom recognise none 0 text = text := by
  have hfrom (late : List Char) : ∀ early skip, text = early ++ late →
      replaceFrom recognise early.getLast? skip late = late.drop skip := by
    induction late with
    | nil =>
      intro early skip _
      simp [replaceFrom]
    | cons c late ih =>
      intro early skip htext
      have hlater (skip : Nat) : replaceFrom recognise (some c) skip late = late.drop skip := by
        have hnext := ih (early ++ [c]) skip (by simp [htext])
        rwa [List.getLast?_concat] at hnext
      cases skip with
      | succ skip => exact hlater skip
      | zero =>
        simp only [replaceFrom]
        cases hfound : recognise early.getLast? (c :: late) with
        | none => simp [hlater]
        | some masked =>
          obtain ⟨length, hlength⟩ := Nat.exists_eq_succ_of_ne_zero (hsome _ _ _ hfound).ne'
          have hreplaced := h early (c :: late) masked htext hfound
          simp [hlater, hreplaced, hlength]
  exact hfrom text [] 0 rfl

/-! ### The first scan -/

theorem maskPasswords_text (l : Login) (rest : List Char) :
    maskPasswords (l.text ++ rest) = l.kept ++ mask ++ '@' :: maskPasswords rest := by
  rw [maskPasswords, replaceFrom_text]
  simp

/-- The first scan is at a login, or copies a character. -/
theorem maskPasswords_cases (c : Char) (text : List Char) :
    (∃ (l : Login) (rest : List Char), c :: text = l.text ++ rest) ∨
      (∀ (l : Login) (rest : List Char), c :: text ≠ l.text ++ rest) ∧
        maskPasswords (c :: text) = c :: maskPasswords text := by
  cases hfound : findPassword? none (c :: text) with
  | some masked =>
    obtain ⟨l, rest, htext, -⟩ := findPassword?_eq_some_iff.mp hfound
    exact .inl ⟨l, rest, htext⟩
  | none =>
    refine .inr ⟨fun l rest htext => ?_, ?_⟩
    · rw [htext, findPassword?_text] at hfound
      cases hfound
    · unfold maskPasswords
      simp only [replaceFrom, hfound]
      exact congrArg _ (replaceFrom_findPassword? _ _ _ _)

/-- What the first scan writes is copied up to the first mask. -/
theorem copied_or_password {text : List Char} (shown : List Char) {late : List Char}
    (h : maskPasswords text = shown ++ late) :
    (∃ late', text = shown ++ late') ∨
      ∃ (early : List Char) (l : Login) (rest : List Char), text = early ++ (l.text ++ rest) ∧
        shown ++ late = early ++ l.kept ++ mask ++ '@' :: maskPasswords rest ∧
        (early ++ l.kept).length < shown.length := by
  induction shown generalizing text with
  | nil => exact .inl ⟨text, rfl⟩
  | cons d shown ih =>
    cases text with
    | nil => cases h
    | cons c text =>
      rcases maskPasswords_cases c text with ⟨l, rest, htext⟩ | ⟨-, hcopied⟩
      · rw [htext, maskPasswords_text] at h
        by_cases hlength : (d :: shown).length ≤ l.kept.length
        · rw [List.append_assoc] at h
          obtain ⟨behind, hkept⟩ := List.prefix_of_prefix_length_le
            (List.prefix_append (d :: shown) late) (h ▸ List.prefix_append _ _) hlength
          exact .inl ⟨behind ++ l.password ++ '@' :: rest, by
            rw [htext, Login.text, ← hkept]
            simp⟩
        · exact .inr ⟨[], l, rest, by simpa using htext, by simpa using h.symm,
            by simpa using hlength⟩
      · rw [hcopied] at h
        obtain ⟨rfl, htail⟩ := List.cons.inj h
        rcases ih htail with ⟨late', rfl⟩ | ⟨early, l, rest, rfl, hwritten, hlength⟩
        · exact .inl ⟨late', rfl⟩
        · exact .inr ⟨c :: early, l, rest, rfl, by simp [hwritten], by simpa using hlength⟩

/-- A login that ends with a mask keeps nothing of it. -/
theorem Login.run_of_mask {l l' : Login} (before early : List Char) {password : List Char}
    (h : before ++ l'.kept ++ mask = early ++ l.kept ++ password) :
    ∃ run, before ++ l'.kept = early ++ l.kept ++ run ∧ password = run ++ mask := by
  rcases List.append_eq_append_iff.mp h with ⟨beyond, hkept, hmask⟩ | ⟨run, hkept, hpassword⟩
  · rcases beyond.eq_nil_or_concat with rfl | ⟨init, last, rfl⟩
    · exact ⟨[], by simpa using hkept.symm, by simpa using hmask.symm⟩
    · -- what is kept ends with a colon, and there is none in the mask
      have hends : early ++ (l.scheme ++ [':', '/', '/'] ++ l.user) ++ [':'] =
          before ++ l'.kept ++ init ++ [last] := by
        simpa [kept] using hkept
      obtain ⟨-, hlast⟩ := List.append_inj' hends rfl
      have hmem : last ∈ mask := by simp [hmask]
      rw [← List.head_eq_of_cons_eq hlast] at hmem
      exact absurd hmem (by decide)
  · exact ⟨run, hkept, hpassword⟩

/-- A login that reaches over a mask has it at the end of its password. -/
theorem Login.run_of_masked {l l' : Login} {before late after : List Char}
    (h : l.text ++ late = before ++ l'.kept ++ mask ++ '@' :: after)
    (hlength : (before ++ l'.kept).length < l.text.length) :
    ∃ run, before ++ l'.kept = l.kept ++ run ∧ l.password = run ++ mask := by
  have hinit : before ++ l'.kept <+: l.kept ++ l.password := by
    refine @List.prefix_of_prefix_length_le _ _ _ (l.text ++ late) ?_ ?_ ?_
    · rw [h, List.append_assoc]
      exact List.prefix_append _ _
    · rw [text, List.append_assoc]
      exact List.prefix_append _ _
    · rw [l.length_text] at hlength
      simp only [List.length_append] at hlength ⊢
      omega
  have hnone : '@' ∉ before ++ l'.kept ++ mask := by
    have hbefore : '@' ∉ before ++ l'.kept := fun hmem =>
      sign_not_mem_of_isPasswordPart l.isPasswordPart_init (hinit.subset hmem)
    rw [List.mem_append, not_or]
    exact ⟨hbefore, by decide⟩
  have hpassword : before ++ l'.kept ++ mask = l.kept ++ l.password := by
    rw [← (l.split_text late).1, h, (parts_of_not_mem after hnone).1]
  obtain ⟨run, hrun, hmask⟩ := Login.run_of_mask before [] hpassword
  exact ⟨run, hrun, hmask⟩

/-- A login that begins before the sign of a masked one ends with it, and has its mask for a
    password. -/
theorem Login.password_of_overlap {l l' : Login} {early tail late rest : List Char}
    (hmasked : l'.kept ++ mask ++ ['@'] = early ++ tail) (htail : l.text ++ late = tail ++ rest)
    (hsome : tail ≠ []) : l.password = mask := by
  obtain ⟨init, last, rfl⟩ := tail.eq_nil_or_concat.resolve_left hsome
  rw [List.concat_eq_append, ← List.append_assoc] at hmasked
  obtain ⟨-, hlast⟩ := List.append_inj' hmasked rfl
  obtain rfl : last = '@' := (List.head_eq_of_cons_eq hlast).symm
  obtain ⟨between, hend⟩ := Login.of_sign_mem htail.symm (by simp)
  have hsigns : l'.kept ++ mask ++ '@' :: [] =
      early ++ l.kept ++ l.password ++ '@' :: between := by
    rw [hmasked, List.append_assoc, ← List.concat_eq_append, hend]
    simp [Login.text]
  have hnone : '@' ∉ l'.kept ++ mask := by
    have hkept : '@' ∉ l'.kept := sign_not_mem_of_isPasswordPart fun c hc =>
      l'.isPasswordPart_init c (List.mem_append_left _ hc)
    simp [hkept, mask]
  obtain ⟨hkept, -, -⟩ := (List.append_cons_inj_of_notMem hnone List.not_mem_nil).mp hsigns
  obtain ⟨run, hrun, hpassword⟩ := Login.run_of_mask [] early hkept
  obtain rfl : run = [] := Login.beyond_kept hrun
  exact hpassword

/-- Where a login reaches over a mask, a login began before. -/
theorem Login.exists_of_masked {l l' : Login} {before late after rest : List Char}
    (h : l.text ++ late = before ++ l'.kept ++ mask ++ '@' :: after)
    (hlength : (before ++ l'.kept).length < l.text.length) :
    ∃ k : Login, before ++ (l'.text ++ rest) = k.text ++ rest := by
  obtain ⟨run, hbefore, hpassword⟩ := Login.run_of_masked h hlength
  let p : Password := ⟨run ++ l'.password, by simp [l'.somePassword], by
    intro d hd
    rcases List.mem_append.mp hd with hd | hd
    · exact l.passwordPart d (by simp [hpassword, hd])
    · exact l'.passwordPart d hd⟩
  have hkept : (l.withPassword p).kept = l.kept := rfl
  refine ⟨l.withPassword p, ?_⟩
  rw [Login.text, ← List.append_assoc, ← List.append_assoc, ← List.append_assoc, hbefore,
    Login.text, hkept]
  simp [Login.withPassword, p]

/-- **The first scan leaves no password but masks.** -/
theorem password_eq_mask {text early late : List Char} {l : Login}
    (h : maskPasswords text = early ++ (l.text ++ late)) : l.password = mask := by
  induction hn : text.length using Nat.strong_induction_on generalizing text early with
  | _ n ih =>
  subst hn
  cases text with
  | nil => simp [maskPasswords, replaceFrom, Login.text] at h
  | cons c text =>
    rcases maskPasswords_cases c text with ⟨l', rest, htext⟩ | ⟨hnone, hcopied⟩
    · have hshorter : rest.length < (c :: text).length := by
        have hsome := List.length_pos_iff.mpr l'.text_ne_nil
        rw [htext, List.length_append]
        omega
      have hparts : (l'.kept ++ mask ++ ['@']) ++ maskPasswords rest =
          early ++ (l.text ++ late) := by
        rw [← h, htext, maskPasswords_text]
        simp
      rcases List.append_eq_append_iff.mp hparts with ⟨between, -, hrest⟩ | ⟨tail, hmasked, htail⟩
      · exact ih _ hshorter hrest rfl
      · by_cases hsome : tail = []
        · subst hsome
          have hrest : maskPasswords rest = [] ++ (l.text ++ late) := htail.symm
          exact ih _ hshorter hrest rfl
        · exact Login.password_of_overlap hmasked htail hsome
    · rw [hcopied] at h
      cases early with
      | cons d early =>
        obtain ⟨rfl, htail⟩ := List.cons.inj h
        exact ih _ (Nat.lt_succ_self _) htail rfl
      | nil =>
        -- no login begins here, neither one that was copied nor one that goes over a mask
        exfalso
        rw [← hcopied] at h
        rcases copied_or_password l.text h with
          ⟨late', htext⟩ | ⟨before, l', rest, htext, hwritten, hlength⟩
        · exact hnone l late' htext
        · obtain ⟨k, hk⟩ := Login.exists_of_masked hwritten hlength
          exact hnone k rest (htext.trans hk)

/-! ### The second scan -/

theorem eq_of_mem_mask {c : Char} (h : c ∈ mask) : c = '*' :=
  List.eq_of_mem_replicate (show c ∈ List.replicate 3 '*' from h)

theorem star_not_mem (l : Label) : '*' ∉ l.text := l.not_mem_text (by decide +kernel) (by decide)

/-- No keyword begins inside a label behind a character that belongs to no word. -/
theorem Label.not_starts_of_boundary {l : Label} {early behind : List Char} {d c : Char}
    (h : l.text = early ++ c :: behind) (hlast : early.getLast? = some d) (hd : isWord d = false) :
    foldChar c ∉ starts := by
  intro hc
  refine not_joined_of_starts hd hc (l.joined h hlast ?_)
  have hword := isWord_of_starts hc
  rintro (hblank | rfl | rfl)
  · rw [not_isWord_of_isBlank hblank] at hword
    cases hword
  all_goals exact absurd hword (by decide)

/-- A text with a value behind a label begins with no other label. -/
theorem Label.text_unique {l l' : Label} {after after' : List Char}
    (h : l.text ++ after = l'.text ++ after') (hafter : unbroken after ≠ [])
    (hafter' : unbroken after' ≠ []) : l.text = l'.text := by
  have hfound := @findSecret?_label none nofun l after hafter
  rw [h, @findSecret?_label none nofun l' after' hafter', Option.some_inj] at hfound
  exact (List.append_cancel_right (congrArg Masked.replacement hfound)).symm

/-- The second scan is at a label with a value, or copies a character. -/
theorem maskSecrets_cases (before : Option Char) (c : Char) (text : List Char) :
    (∃ (l : Label) (value rest : List Char), c :: text = l.text ++ (value ++ rest) ∧
        (∀ d, before = some d → isWord d = false) ∧ unbroken (value ++ rest) ≠ [] ∧
        (∀ d, rest.head? = some d → isBlank d = true) ∧
        replaceFrom findSecret? before 0 (c :: text) = l.text ++ mask ++ maskSecrets rest) ∨
      findSecret? before (c :: text) = none ∧
        replaceFrom findSecret? before 0 (c :: text) =
          c :: replaceFrom findSecret? (some c) 0 text := by
  cases hfound : findSecret? before (c :: text) with
  | none => exact .inr ⟨rfl, by simp only [replaceFrom, hfound]⟩
  | some masked =>
    obtain ⟨hbefore, l, after, htext, hafter, rfl⟩ := findSecret?_eq_some_iff.mp hfound
    let rest : List Char := after.dropWhile fun c => !isBlank c
    have hparts : unbroken after ++ rest = after := List.takeWhile_append_dropWhile
    have hrest (d : Char) (hd : rest.head? = some d) : isBlank d = true := by
      have hstop := List.head?_dropWhile_not (fun c => !isBlank c) after
      rw [hd] at hstop
      simpa using hstop
    refine .inl ⟨l, unbroken after, rest, by rw [htext, hparts], hbefore, by rwa [hparts],
      hrest, ?_⟩
    have hall : c :: text = l.text ++ unbroken after ++ rest := by
      rw [htext, List.append_assoc, hparts]
    rw [hall, ← List.length_append] at hfound
    rw [hall, replaceFrom_found (by simp [l.text_ne_nil]) hfound, replaceFrom_findSecret? _ hrest]

theorem head?_maskSecrets (before : Option Char) (text : List Char) :
    (replaceFrom findSecret? before 0 text).head? = text.head? := by
  cases text with
  | nil => rfl
  | cons c text =>
    rcases maskSecrets_cases before c text with
      ⟨l, value, rest, htext, -, -, -, hmasked⟩ | ⟨-, hcopied⟩
    · rw [hmasked, htext, List.append_assoc, List.head?_append_of_ne_nil _ l.text_ne_nil,
        List.head?_append_of_ne_nil _ l.text_ne_nil]
    · rw [hcopied]
      rfl

/-- What the second scan writes is copied up to the first mask, and a value follows it only where
    one did before. -/
theorem copied_or_secret {before : Option Char} {text : List Char} (shown : List Char)
    {late : List Char}
    (h : replaceFrom findSecret? before 0 text = shown ++ late) :
    (∃ late', text = shown ++ late' ∧ (unbroken late ≠ [] → unbroken late' ≠ [])) ∨
      ∃ early covered rest : List Char, text = covered ++ rest ∧ covered ≠ [] ∧
        (∀ c, rest.head? = some c → isBlank c = true) ∧
        shown ++ late = early ++ mask ++ maskSecrets rest ∧ early.length < shown.length := by
  induction shown generalizing before text with
  | nil =>
    refine .inl ⟨text, rfl, fun hlate => ?_⟩
    rw [unbroken_ne_nil_iff] at hlate ⊢
    rwa [← List.nil_append late, ← h, head?_maskSecrets] at hlate
  | cons d shown ih =>
    cases text with
    | nil => cases h
    | cons c text =>
      rcases maskSecrets_cases before c text with
        ⟨l, value, rest, htext, -, hvalue, hrest, hmasked⟩ | ⟨-, hcopied⟩
      · rw [hmasked] at h
        by_cases hlength : (d :: shown).length ≤ l.text.length
        · rw [List.append_assoc] at h
          obtain ⟨behind, hlabel⟩ := List.prefix_of_prefix_length_le
            (List.prefix_append (d :: shown) late) (h ▸ List.prefix_append _ _) hlength
          refine .inl ⟨behind ++ (value ++ rest), by rw [htext, ← hlabel]; simp, fun hlate => ?_⟩
          cases behind with
          | nil => exact hvalue
          | cons e behind =>
            rw [← hlabel, List.append_assoc] at h
            rw [← List.append_cancel_left h, unbroken_ne_nil_iff] at hlate
            rw [unbroken_ne_nil_iff]
            exact hlate
        · exact .inr ⟨l.text, l.text ++ value, rest, by simp [htext], by simp [l.text_ne_nil],
            hrest, h.symm, by simpa using hlength⟩
      · rw [hcopied] at h
        obtain ⟨rfl, htail⟩ := List.cons.inj h
        rcases ih htail with
          ⟨late', rfl, hlate⟩ | ⟨early, covered, rest, rfl, hsome, hrest, hwritten, hlength⟩
        · exact .inl ⟨late', rfl, hlate⟩
        · exact .inr ⟨c :: early, c :: covered, rest, rfl, List.cons_ne_nil _ _, hrest,
            by simp [hwritten], by simpa using hlength⟩

/-- A label that begins inside a masked one, and not inside a word, begins where it begins. -/
theorem Label.begins_of_overlap {l l' : Label} {early tail late rest : List Char}
    (hmasked : l'.text ++ mask = early ++ tail) (htail : l.text ++ late = tail ++ rest)
    (hsome : tail ≠ []) (hbefore : ∀ c, early.getLast? = some c → isWord c = false) :
    early = [] := by
  obtain ⟨first, word, hword, hstart⟩ := head_of_keyword l.isKeyword
  obtain ⟨d, tail, rfl⟩ := List.exists_cons_of_ne_nil hsome
  obtain rfl : first = d := by
    rw [Label.text, hword] at htail
    exact (List.cons.inj htail).1
  have hstar : first ∉ mask := by
    intro hmem
    obtain rfl := eq_of_mem_mask hmem
    exact absurd hstart (by decide)
  rcases List.append_eq_append_iff.mp hmasked with ⟨x, -, hmask⟩ | ⟨x, hinside, hmask⟩
  · exact absurd (by simp [hmask]) hstar
  · cases x with
    | nil =>
      rw [List.nil_append] at hmask
      exact absurd (hmask ▸ List.mem_cons_self) hstar
    | cons e x =>
      obtain ⟨rfl, -⟩ := List.cons.inj hmask
      cases hlast : early.getLast? with
      | none => exact List.getLast?_eq_none_iff.mp hlast
      | some last =>
        exact absurd hstart (Label.not_starts_of_boundary hinside hlast (hbefore last hlast))

/-- A label with a value that begins inside a masked one has its mask for a value. -/
theorem Label.value_of_overlap {l l' : Label} {early tail late rest : List Char}
    (hmasked : l'.text ++ mask = early ++ tail) (htail : l.text ++ late = tail ++ rest)
    (hsome : tail ≠ []) (hbefore : ∀ c, early.getLast? = some c → isWord c = false)
    (hlate : unbroken late ≠ []) (hrest : ∀ c, rest.head? = some c → isBlank c = true) :
    unbroken late = mask := by
  obtain rfl : early = [] := Label.begins_of_overlap hmasked htail hsome hbefore
  have htexts : l.text ++ late = l'.text ++ (mask ++ rest) := by
    rw [htail, ← List.append_assoc, hmasked]
    rfl
  have hmask : unbroken (mask ++ rest) = mask :=
    unbroken_value hrest fun d hd => by rw [eq_of_mem_mask hd]; decide
  have hsame : l.text = l'.text :=
    Label.text_unique htexts hlate (by rw [hmask]; exact List.cons_ne_nil _ _)
  rw [hsame] at htexts
  rw [List.append_cancel_left htexts, hmask]

/-- No label goes over a mask of the second scan. -/
theorem Label.not_over_mask {l : Label} {early late rest : List Char}
    (h : l.text ++ late = early ++ mask ++ rest) : l.text.length ≤ early.length := by
  by_contra hlength
  have hmask : early ++ ['*'] <+: l.text ++ late := ⟨['*', '*'] ++ rest, by simp [h, mask]⟩
  have hstar : early ++ ['*'] <+: l.text :=
    List.prefix_of_prefix_length_le hmask (List.prefix_append _ _)
      (by simpa using Nat.succ_le_of_lt (Nat.not_le.mp hlength))
  exact star_not_mem l (hstar.subset (by simp))

/-- **The second scan leaves no value but masks.** -/
theorem value_eq_mask {before : Option Char} {text early late : List Char} {l : Label}
    (h : replaceFrom findSecret? before 0 text = early ++ (l.text ++ late))
    (hbefore : ∀ c, lastOf before early = some c → isWord c = false) (hlate : unbroken late ≠ []) :
    unbroken late = mask := by
  induction hn : text.length using Nat.strong_induction_on generalizing before text early with
  | _ n ih =>
  subst hn
  cases text with
  | nil =>
    obtain ⟨first, word, hword, -⟩ := head_of_keyword l.isKeyword
    simp [replaceFrom, Label.text, hword] at h
  | cons c text =>
    rcases maskSecrets_cases before c text with
      ⟨l', value, rest, htext, -, -, hrest, hmasked⟩ | ⟨hnone, hcopied⟩
    · have hshorter : rest.length < (c :: text).length := by
        have hsome := List.length_pos_iff.mpr l'.text_ne_nil
        rw [htext, List.length_append, List.length_append]
        omega
      have hhead (d : Char) (hd : (maskSecrets rest).head? = some d) : isBlank d = true :=
        hrest d (by rwa [maskSecrets, head?_maskSecrets] at hd)
      rw [hmasked] at h
      rcases List.append_eq_append_iff.mp h with ⟨between, rfl, hbetween⟩ | ⟨tail, hlabel, htail⟩
      · refine ih _ hshorter hbetween (fun d hd => hbefore d ?_) rfl
        cases between with
        | nil => cases hd
        | cons e between =>
          rw [lastOf_eq_getLast? _ (List.cons_ne_nil e between)] at hd
          rwa [lastOf_append, lastOf_eq_getLast? _ (List.cons_ne_nil e between)]
      · by_cases hsome : tail = []
        · subst hsome
          have hbetween : maskSecrets rest = [] ++ (l.text ++ late) := htail.symm
          exact ih _ hshorter hbetween (fun _ hd => by cases hd) rfl
        · exact Label.value_of_overlap hlabel htail hsome (fun d hd => hbefore d (by
            rwa [lastOf_eq_getLast? _ (List.ne_nil_of_mem (List.mem_of_getLast? hd))])) hlate hhead
    · rw [hcopied] at h
      cases early with
      | cons d early =>
        obtain ⟨rfl, htail⟩ := List.cons.inj h
        exact ih _ (Nat.lt_succ_self _) htail hbefore rfl
      | nil =>
        exfalso
        rw [← hcopied] at h
        rcases copied_or_secret l.text h with
          ⟨late', htext, hvalue⟩ | ⟨early, covered, rest, -, -, -, hwritten, hlength⟩
        · rw [htext, @findSecret?_label before hbefore l late' (hvalue hlate)] at hnone
          cases hnone
        · exact absurd hlength (Nat.not_lt.mpr (Label.not_over_mask hwritten))

theorem Login.not_isBlank (l : Login) : ∀ c ∈ l.text, isBlank c = false := by
  intro c hc
  rw [text, List.mem_append, List.mem_singleton] at hc
  rcases hc with hc | rfl
  · have hpart := l.isPasswordPart_init c hc
    rw [isPasswordPart, Bool.and_eq_true, Bool.not_eq_true'] at hpart
    exact hpart.2
  · decide

/-- A login goes over no mask of the second scan. -/
theorem Login.behind_mask {l : Login} {early late before after : List Char}
    (h : early ++ l.text ++ late = before ++ mask ++ after)
    (hlength : before.length < (early ++ l.text).length)
    (hafter : ∀ c, after.head? = some c → isBlank c = true) :
    ∃ between, after = between ++ (l.text ++ late) := by
  have hover (x : List Char) (hx : before ++ mask = early ++ l.text ++ x) : False := by
    have hbefore : before <+: early ++ (l.kept ++ l.password) := by
      refine @List.prefix_of_prefix_length_le _ _ _ (before ++ mask) (List.prefix_append _ _) ?_ ?_
      · exact ⟨'@' :: x, by simp [hx, Login.text]⟩
      · simp only [Login.text, List.length_append, List.length_singleton] at hlength ⊢
        omega
    obtain ⟨z, hz⟩ := hbefore
    have hmask : mask = z ++ '@' :: x := by
      have hwhole : before ++ mask = before ++ (z ++ '@' :: x) := by
        rw [hx, ← List.append_assoc, hz]
        simp [Login.text]
      exact List.append_cancel_left hwhole
    exact absurd (hmask ▸ List.mem_append_right z List.mem_cons_self) (by decide : '@' ∉ mask)
  rcases List.append_eq_append_iff.mp h with ⟨x, hx, -⟩ | ⟨x, hx, rfl⟩
  · exact (hover x hx).elim
  · rcases List.append_eq_append_iff.mp hx with ⟨t, ht, hlogin⟩ | ⟨t, rfl, rfl⟩
    · cases x with
      | nil => exact (hover [] (by simp [hx])).elim
      | cons c x =>
        have hblank : isBlank c = true := hafter c rfl
        rw [l.not_isBlank c (by simp [hlogin])] at hblank
        cases hblank
    · exact ⟨t, by simp⟩

/-- **A login that the second scan leaves stood in the text before.** -/
theorem exists_login_of_maskSecrets {before : Option Char} {text early late : List Char} {l : Login}
    (h : replaceFrom findSecret? before 0 text = early ++ (l.text ++ late)) :
    ∃ early' late', text = early' ++ (l.text ++ late') := by
  induction hn : text.length using Nat.strong_induction_on generalizing before text early with
  | _ n ih =>
  subst hn
  rw [← List.append_assoc] at h
  rcases copied_or_secret (early ++ l.text) h with
    ⟨late', rfl, -⟩ | ⟨written, covered, rest, rfl, hsome, hrest, hwritten, hlength⟩
  · exact ⟨early, late', List.append_assoc _ _ _⟩
  · have hshorter : rest.length < (covered ++ rest).length := by
      have hpos := List.length_pos_iff.mpr hsome
      rw [List.length_append]
      omega
    have hhead (c : Char) (hc : (maskSecrets rest).head? = some c) : isBlank c = true :=
      hrest c (by rwa [maskSecrets, head?_maskSecrets] at hc)
    obtain ⟨between, hbetween⟩ := Login.behind_mask hwritten hlength hhead
    obtain ⟨early', late', rfl⟩ := ih _ hshorter hbetween rfl
    exact ⟨covered ++ early', late', (List.append_assoc _ _ _).symm⟩

/-! ### Texts -/

theorem length_pos_of_findPassword? (before : Option Char) (text : List Char) (masked : Masked)
    (h : findPassword? before text = some masked) : 0 < masked.length := by
  obtain ⟨l, rest, -, rfl⟩ := findPassword?_eq_some_iff.mp h
  exact List.length_pos_iff.mpr l.text_ne_nil

theorem length_pos_of_findSecret? (before : Option Char) (text : List Char) (masked : Masked)
    (h : findSecret? before text = some masked) : 0 < masked.length := by
  obtain ⟨-, l, after, -, -, rfl⟩ := findSecret?_eq_some_iff.mp h
  exact Nat.add_pos_left (List.length_pos_iff.mpr l.text_ne_nil) _

theorem settled_findPassword? {text : List Char}
    (h : ∀ early (l : Login) late, text = early ++ (l.text ++ late) → l.password = mask) :
    Settled findPassword? text := by
  rintro early late masked htext hfound
  obtain ⟨l, rest, rfl, rfl⟩ := findPassword?_eq_some_iff.mp hfound
  have hpassword : l.kept ++ mask ++ ['@'] = l.text := by rw [Login.text, h early l rest htext]
  exact hpassword.trans List.take_left.symm

theorem settled_findSecret? {text : List Char}
    (h : ∀ early (l : Label) late, text = early ++ (l.text ++ late) →
      (∀ c, early.getLast? = some c → isWord c = false) → unbroken late ≠ [] →
        unbroken late = mask) :
    Settled findSecret? text := by
  rintro early late masked htext hfound
  obtain ⟨hbefore, l, after, rfl, hafter, rfl⟩ := findSecret?_eq_some_iff.mp hfound
  have hvalue : unbroken after = mask := h early l after htext hbefore hafter
  obtain ⟨rest, hrest⟩ : unbroken after <+: after := List.takeWhile_prefix _
  have hall : l.text ++ after = l.text ++ mask ++ rest := by
    rw [List.append_assoc, ← hvalue, hrest]
  rw [hall, hvalue, ← List.length_append]
  exact List.take_left.symm

/-- **Scrubbing a scrubbed text changes nothing.**  Whatever either scan finds in it, at any place,
    is masked already. -/
theorem scrub_scrub (text : String) :
    scrub (scrub text) = scrub text ∧ Settled findPassword? (scrub text).toList ∧
      Settled findSecret? (scrub text).toList := by
  have hscrubbed : (scrub text).toList = maskSecrets (maskPasswords text.toList) := by
    simp [scrub, scrubChars, maskSecrets, maskPasswords]
  have hpasswords : Settled findPassword? (scrub text).toList := by
    refine settled_findPassword? fun early l late htext => ?_
    obtain ⟨early', late', hbefore⟩ := exists_login_of_maskSecrets (hscrubbed.symm.trans htext)
    exact password_eq_mask hbefore
  have hsecrets : Settled findSecret? (scrub text).toList := by
    refine settled_findSecret? fun early l late htext hearly hlate => ?_
    refine value_eq_mask (hscrubbed.symm.trans htext) (fun c hc => ?_) hlate
    cases early with
    | nil => cases hc
    | cons d early => exact hearly c (by rwa [← lastOf_eq_getLast? none (List.cons_ne_nil d early)])
  refine ⟨?_, hpasswords, hsecrets⟩
  rw [scrub, scrubChars, replaceFrom_of_settled length_pos_of_findPassword? hpasswords,
    replaceFrom_of_settled length_pos_of_findSecret? hsecrets, String.ofList_toList]

end KnowledgeSearch.Redact
