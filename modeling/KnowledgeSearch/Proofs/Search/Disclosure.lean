/-
  KnowledgeSearch/Proofs/Search/Disclosure.lean
  =============================================
  **What errors of searches show of a filter.**

  The parameters of a statement are masked before they enter an error, but the context that a
  search puts around it describes the request, and there the filter stands as it was written,
  up to a cut.  So the password of a connection text in a filter is masked among the parameters
  and shown in front of them.

  It is the beginning of the filter's compact text that decides: the compact texts of filters
  that differ only in such a password are never beginnings of each other, since the sign
  before the host ends the password, so two messages agree exactly if the texts agree up to
  the cut.  Only a password that begins behind the cut is not shown
  (`Service.failures_disclose_iff`).
-/
import KnowledgeSearch.Proofs.Json.Place
import KnowledgeSearch.Proofs.Search.Failure
import KnowledgeSearch.Proofs.Storage.Password

namespace KnowledgeSearch

open Json (escape)

/-! ### A connection text in a filter -/

namespace Json

/-- Escaping writes no sign of its own. -/
theorem sign_not_mem_escape {c : Char} (h : c ≠ '@') : '@' ∉ escape c := by
  by_cases hascii : c.toNat < 128
  · revert h
    exact Text.of_ascii (P := fun c => c ≠ '@' → '@' ∉ escape c) (by decide +kernel) hascii
  · have hne {d : Char} (hd : d.toNat < 128) : c ≠ d := by
      rintro rfl
      exact hascii hd
    have hcopied : escape c = [c] := by
      unfold escape
      rw [if_neg (hne (by decide)), if_neg (hne (by decide)), if_neg (hne (by decide)),
        if_neg (hne (by decide)), if_neg (hne (by decide)), if_neg (by omega), if_neg (by omega),
        if_neg (by omega)]
    rw [hcopied]
    simpa using h.symm

theorem sign_not_mem_flatMap_escape {text : List Char} (h : '@' ∉ text) :
    '@' ∉ text.flatMap escape := by
  intro hmem
  obtain ⟨c, hc, hsign⟩ := List.mem_flatMap.mp hmem
  refine sign_not_mem_escape ?_ hsign
  rintro rfl
  exact h hc

end Json

/-- The place of a password in a filter: the levels of the document around a string, and what
    the string says around the password of a connection text. -/
structure LoginPlace where
  frames : List Json.Frame
  early : String
  scheme : String
  user : String
  /-- The host, and whatever comes after it. -/
  late : String

namespace LoginPlace

variable (place : LoginPlace)

def text (p : String) : String :=
  place.early ++ place.scheme ++ "://" ++ place.user ++ ":" ++ p ++ "@" ++ place.late

/-- The filter with a password at the place. -/
def fill (p : String) : Json := place.frames.foldr Json.Frame.plug (.string (place.text p))

/-- The compact text up to the password. -/
def before : List Char :=
  place.frames.flatMap Json.Frame.before ++ '"' ::
    (place.early ++ place.scheme ++ "://" ++ place.user ++ ":").toList.flatMap escape

/-- The compact text behind the sign after the password. -/
def after : List Char :=
  place.late.toList.flatMap escape ++ '"' :: place.frames.reverse.flatMap Json.Frame.after

theorem toChars_fill (p : String) :
    (place.fill p).toChars =
      place.before ++ (p.toList.flatMap escape ++ '@' :: place.after) := by
  have hsign : escape '@' = ['@'] := by decide
  simp [fill, Json.toChars_foldr_plug, Json.toChars, Json.quote, text, before, after, hsign]

theorem fill_ne_null (p : String) : place.fill p ≠ .null := by
  unfold fill
  cases place.frames with
  | nil => exact nofun
  | cons f frames => cases f <;> exact nofun

/-- No filter begins like another one with a different password: the first sign behind the
    password's beginning ends it. -/
theorem eq_of_isPrefix {p p' : String} (hp : '@' ∉ p.toList) (hp' : '@' ∉ p'.toList)
    (h : (place.fill p).toChars <+: (place.fill p').toChars) :
    (place.fill p).toChars = (place.fill p').toChars := by
  have hends {q : String} (hq : '@' ∉ q.toList) (rest : List Char) :
      (q.toList.flatMap escape ++ '@' :: rest).takeWhile (· != '@') = q.toList.flatMap escape :=
    (Redact.parts_of_not_mem rest (Json.sign_not_mem_flatMap_escape hq)).1
  obtain ⟨rest, hrest⟩ := h
  rw [toChars_fill, toChars_fill, List.append_assoc] at hrest
  have htails : p.toList.flatMap escape ++ '@' :: (place.after ++ rest) =
      p'.toList.flatMap escape ++ '@' :: place.after := by
    simpa using List.append_cancel_left hrest
  have hsame : p.toList.flatMap escape = p'.toList.flatMap escape := by
    rw [← hends hp (place.after ++ rest), htails, hends hp']
  rw [toChars_fill, toChars_fill, hsame]

/-- All passwords leave the same beginning exactly if it ends before the password. -/
theorem take_eq_iff {n : Nat} :
    (∀ p p', Redact.IsPassword p → Redact.IsPassword p' →
      (place.fill p).toChars.take n = (place.fill p').toChars.take n) ↔
      n ≤ place.before.length := by
  constructor
  · intro h
    by_contra hlate
    have htake := congrArg (·[place.before.length]?)
      (h "x" "y" (by decide +kernel) (by decide +kernel))
    have hlt : place.before.length < n := Nat.lt_of_not_le hlate
    have hx : escape 'x' = ['x'] := by decide
    have hy : escape 'y' = ['y'] := by decide
    simp [toChars_fill, hlt, hx, hy] at htake
  · intro h p p' _ _
    rw [toChars_fill, toChars_fill, List.take_append_of_le_length h,
      List.take_append_of_le_length h]

end LoginPlace

/-! ### Descriptions -/

namespace Service

/-- A text as a description shows it. -/
def shown (text : List Char) : List Char :=
  if text.length ≤ maxFilterChars then text else text.take maxFilterChars ++ ['.', '.', '.']

theorem describeFilter_of_ne_null {filter : Json} (h : filter ≠ .null) :
    describeFilter (some filter) = String.ofList (shown filter.toChars) := by
  have hcut : describeFilter (some filter) =
      if filter.toChars.length ≤ maxFilterChars then String.ofList filter.toChars
      else String.ofList (filter.toChars.take maxFilterChars) ++ "..." := by
    cases filter with
    | null => exact absurd rfl h
    | _ => rfl
  rw [hcut, shown]
  split
  · rfl
  · exact String.toList_inj.mp (by simp)

/-- A text that is shown whole is not shown like one that is cut, and does not agree with it up to
    the cut unless that begins like it. -/
theorem shown_ne_of_cut {text other : List Char} (h : text <+: other → text = other)
    (htext : text.length ≤ maxFilterChars) (hother : ¬ other.length ≤ maxFilterChars) :
    shown text ≠ shown other ∧ text.take maxFilterChars ≠ other.take maxFilterChars := by
  constructor
  · intro hshown
    rw [shown, shown, if_pos htext, if_neg hother] at hshown
    have hlength := congrArg List.length hshown
    simp only [List.length_append, List.length_take, List.length_cons, List.length_nil] at hlength
    omega
  · intro htake
    rw [List.take_of_length_le htext] at htake
    exact absurd (h (htake ▸ List.take_prefix _ _) ▸ htext) hother

/-- Texts of which none begins like the other are shown alike exactly if they agree up to
    the cut. -/
theorem shown_eq_iff {text other : List Char} (h : text <+: other → text = other)
    (h' : other <+: text → other = text) :
    shown text = shown other ↔ text.take maxFilterChars = other.take maxFilterChars := by
  by_cases htext : text.length ≤ maxFilterChars <;> by_cases hother : other.length ≤ maxFilterChars
  · rw [shown, shown, if_pos htext, if_pos hother, List.take_of_length_le htext,
      List.take_of_length_le hother]
  · obtain ⟨hshown, htake⟩ := shown_ne_of_cut h htext hother
    exact iff_of_false hshown htake
  · obtain ⟨hshown, htake⟩ := shown_ne_of_cut h' hother htext
    exact iff_of_false hshown.symm htake.symm
  · rw [shown, shown, if_neg htext, if_neg hother, List.append_left_inj]

theorem describe_eq_iff {table : String} {limit : Option Int64} {filter other : Option Json} :
    describe table limit filter = describe table limit other ↔
      describeFilter filter = describeFilter other := by
  unfold describe
  rw [← String.toList_inj, ← String.toList_inj]
  simp

end Service

/-! ### Errors -/

/-- A search can end with an error because storage has failed. -/
def Search.FailsWith {α : Type} (search : Search α) (e : StorageError) (error : SearchError) :
    Prop :=
  ∃ (σ : Type) (m : Machine σ), (search.run.run m).1 = .error error ∧ error.fault = .storage e

theorem Search.FailsWith.eq {α : Type} {search : Search α} {context : String} {e : StorageError}
    {error : SearchError}
    (hsurfaces : ∀ trace outcome, search.Runs trace outcome →
      Surfaces (fun _ => [context]) trace outcome)
    (h : search.FailsWith e error) : error = ⟨[context], .storage e⟩ := by
  obtain ⟨σ, m, hrun, hfault⟩ := h
  have hends := hsurfaces _ _ (search.runs_trace m)
  rw [hrun] at hends
  rcases hends.cause with ⟨-, hrequest⟩ | ⟨before, x, e', -, -, -, rfl⟩
  · exact absurd hfault (hrequest e)
  · cases hfault
    rfl

theorem SearchError.message_eq_iff {context other : String} {fault : SearchFault} :
    SearchError.message ⟨[context], fault⟩ = SearchError.message ⟨[other], fault⟩ ↔
      context = other := by
  simp only [SearchError.message, List.foldr_cons, List.foldr_nil]
  rw [← String.toList_inj, ← String.toList_inj]
  simp

namespace Service

theorem prefixed_describe_eq_iff {heading table : String} {limit : Option Int64}
    (place : LoginPlace) {p p' : String} (hp : Redact.IsPassword p) (hp' : Redact.IsPassword p') :
    heading ++ describe table limit (some (place.fill p)) =
        heading ++ describe table limit (some (place.fill p')) ↔
      (place.fill p).toChars.take maxFilterChars = (place.fill p').toChars.take maxFilterChars := by
  have hsign {q : String} (hq : Redact.IsPassword q) : '@' ∉ q.toList :=
    fun hmem => (hq.2 '@' hmem).1 rfl
  rw [String.append_right_inj, describe_eq_iff, describeFilter_of_ne_null (place.fill_ne_null p),
    describeFilter_of_ne_null (place.fill_ne_null p'), String.ofList_inj]
  exact shown_eq_iff (place.eq_of_isPrefix (hsign hp) (hsign hp'))
    (place.eq_of_isPrefix (hsign hp') (hsign hp))

/-- **An error shows the password of a connection text in a filter, unless the cut is before it.**
    Two searches whose filters differ only in such a password, and that fail with the same
    error of storage, have the same message exactly if the compact texts of their filters agree
    up to the cut.  They do so for all passwords exactly if the password begins behind
    it. -/
theorem failures_disclose_iff (s : Service) (place : LoginPlace) :
    (∀ (r : VectorSearchRequest) (p p' : String) (e : StorageError) (error error' : SearchError),
      Redact.IsPassword p → Redact.IsPassword p' →
      (s.vectorSearch { r with filter := some (place.fill p) }).FailsWith e error →
      (s.vectorSearch { r with filter := some (place.fill p') }).FailsWith e error' →
      (error.message = error'.message ↔
        (place.fill p).toChars.take maxFilterChars =
          (place.fill p').toChars.take maxFilterChars)) ∧
    (∀ (r : HybridSearchRequest) (p p' : String) (e : StorageError) (error error' : SearchError),
      Redact.IsPassword p → Redact.IsPassword p' →
      (s.hybridSearch { r with filter := some (place.fill p) }).FailsWith e error →
      (s.hybridSearch { r with filter := some (place.fill p') }).FailsWith e error' →
      (error.message = error'.message ↔
        (place.fill p).toChars.take maxFilterChars =
          (place.fill p').toChars.take maxFilterChars)) ∧
    ((∀ p p', Redact.IsPassword p → Redact.IsPassword p' →
        (place.fill p).toChars.take maxFilterChars =
          (place.fill p').toChars.take maxFilterChars) ↔
      maxFilterChars ≤ place.before.length) := by
  refine ⟨?_, ?_, place.take_eq_iff⟩
  · intro r p p' e error error' hp hp' hfails hfails'
    rw [hfails.eq fun _ _ => vectorSearch_surfaces, hfails'.eq fun _ _ => vectorSearch_surfaces,
      SearchError.message_eq_iff]
    exact prefixed_describe_eq_iff place hp hp'
  · intro r p p' e error error' hp hp' hfails hfails'
    rw [hfails.eq fun _ _ => hybridSearch_surfaces, hfails'.eq fun _ _ => hybridSearch_surfaces,
      SearchError.message_eq_iff]
    exact prefixed_describe_eq_iff place hp hp'

/-! ### A search of notes that fails -/

/-- The search fails at once because the connection is gone. -/
theorem notes_failsWith {filter : Json}
    (h : some (.connectionUnavailable "gone") ∈
      ((notesService.vectorSearch { notesRequest 3 with filter := some filter }).run.trace
        (.start breakingBackend 0 id ⟨none, ⟨.half, .half⟩⟩)).map Exchange.failure?) :
    (notesService.vectorSearch { notesRequest 3 with filter := some filter }).FailsWith
      (.connectionUnavailable "gone")
      ⟨["Vector search on " ++ describe "notes" (some 3) (some filter)],
        .storage (.connectionUnavailable "gone")⟩ := by
  obtain ⟨x, hx, hfailed⟩ := List.mem_map.mp h
  obtain ⟨_, -, houtcome, -⟩ :=
    Search.ends_of_failure (fun _ _ => vectorSearch_surfaces) hx hfailed
  exact ⟨Nat, _, houtcome, rfl⟩

/-- The place of a password in the title of a note, behind some text. -/
def titlePlace (early : String) : LoginPlace :=
  ⟨[.member [] "title" []], early, "postgres", "kb", "db"⟩

/-- A long text before the connection text moves the password behind the cut. -/
theorem failures_disclose_longTitle :
    ∃ error error',
      (notesService.vectorSearch { notesRequest 3 with
        filter := some ((titlePlace (String.ofList (List.replicate 160 'x'))).fill
          "hunter1") }).FailsWith (.connectionUnavailable "gone") error ∧
      (notesService.vectorSearch { notesRequest 3 with
        filter := some ((titlePlace (String.ofList (List.replicate 160 'x'))).fill
          "hunter2") }).FailsWith (.connectionUnavailable "gone") error' ∧
      error.message = error'.message := by
  let place := titlePlace (String.ofList (List.replicate 160 'x'))
  have hfails (p : String) := @notes_failsWith (place.fill p)
  have hfirst := hfails "hunter1" (by decide +kernel)
  have hsecond := hfails "hunter2" (by decide +kernel)
  have hp : Redact.IsPassword "hunter1" := by decide +kernel
  have hp' : Redact.IsPassword "hunter2" := by decide +kernel
  obtain ⟨hvector, -, hcut⟩ := failures_disclose_iff notesService place
  refine ⟨_, _, hfirst, hsecond, (hvector _ _ _ _ _ _ hp hp' hfirst hsecond).mpr ?_⟩
  exact hcut.mpr (by decide +kernel) _ _ hp hp'

/-- The password of a title that begins with a connection text is shown. -/
theorem failures_disclose_title :
    ∃ error error',
      (notesService.vectorSearch { notesRequest 3 with
        filter := some ((titlePlace "").fill "hunter1") }).FailsWith
          (.connectionUnavailable "gone") error ∧
      (notesService.vectorSearch { notesRequest 3 with
        filter := some ((titlePlace "").fill "hunter2") }).FailsWith
          (.connectionUnavailable "gone") error' ∧
      error.message ≠ error'.message := by
  refine ⟨_, _, notes_failsWith (by decide +kernel), notes_failsWith (by decide +kernel), ?_⟩
  decide +kernel

end Service

end KnowledgeSearch
