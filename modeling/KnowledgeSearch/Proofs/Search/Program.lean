/-
  KnowledgeSearch/Proofs/Search/Program.lean
  ==========================================
  **What programs send, whatever they are answered.**

  A program branches on the answers to its actions, and answers come from outside.  What
  can be promised of it holds for all of them: every statement that it sends has one
  property, and a value that it ends with has another (`Ensures`).  The rules follow the
  way in which programs are put together, so an operation is gone through step by step
  with what each step before it has established.
-/
import KnowledgeSearch.Search.Calibration
import KnowledgeSearch.Search.Vector

namespace KnowledgeSearch

/-! ### Programs -/

/-- Whether an action sends only statements with a property. -/
def Action.SendsOnly (sends : TableStatement → Prop) : Action → Prop
  | .execute statement _ => sends statement
  | .executeBatch statements => ∀ statement ∈ statements, sends statement
  | _ => True

namespace Program

variable {α β : Type} {sends : TableStatement → Prop} {returns : α → Prop}

/-- Whatever its actions are answered, a program sends only statements with one property
    and ends only with values with another. -/
def Ensures (sends : TableStatement → Prop) (returns : α → Prop) : Program α → Prop
  | done value => returns value
  | act action next =>
    action.SendsOnly sends ∧ ∀ answer, (next answer).Ensures sends returns

theorem Ensures.mono {returns' : α → Prop} {p : Program α} (h : p.Ensures sends returns)
    (himp : ∀ value, returns value → returns' value) : p.Ensures sends returns' := by
  induction p with
  | done value => exact himp value h
  | act action next ih => exact ⟨h.1, fun answer => ih answer (h.2 answer)⟩

theorem Ensures.bind {middle : β → Prop} {p : Program β} {f : β → Program α}
    (h : p.Ensures sends middle) (hf : ∀ b, middle b → (f b).Ensures sends returns) :
    (p.bind f).Ensures sends returns := by
  induction p with
  | done value => exact hf value h
  | act action next ih => exact ⟨h.1, fun answer => ih answer (h.2 answer)⟩

end Program

/-! ### Operations that can fail -/

namespace Search

variable {α β : Type} {sends : TableStatement → Prop} {returns : α → Prop}

/-- As `Program.Ensures`, for the value that an operation succeeds with. -/
def Ensures (sends : TableStatement → Prop) (returns : α → Prop) (search : Search α) : Prop :=
  search.run.Ensures sends fun outcome => ∀ value, outcome = .ok value → returns value

theorem Ensures.bind {middle : β → Prop} {search : Search β} {next : β → Search α}
    (h : search.Ensures sends middle) (hnext : ∀ b, middle b → (next b).Ensures sends returns) :
    Ensures sends returns (search >>= next) := by
  apply Program.Ensures.bind h
  intro outcome houtcome
  cases outcome with
  | ok b => exact hnext b (houtcome b rfl)
  | error e =>
    intro value hvalue
    cases hvalue

theorem ensures_pure {value : α} (h : returns value) :
    Ensures sends returns (pure value : Search α) := by
  intro value' hvalue
  injection hvalue with hvalue
  subst hvalue
  exact h

/-- A check sends nothing. -/
theorem ensures_ofExcept (outcome : Except SearchFault α) :
    Ensures sends (fun value => outcome = .ok value) (ofExcept outcome) := by
  intro value hvalue
  cases outcome with
  | ok a =>
    injection hvalue with hvalue
    rw [hvalue]
  | error fault => cases hvalue

theorem Ensures.within {search : Search α} (h : search.Ensures sends returns)
    (context : String) : Ensures sends returns (Search.within context search) := by
  apply Program.Ensures.bind h
  intro outcome houtcome value hvalue
  cases outcome with
  | ok a => exact houtcome value hvalue
  | error e => cases hvalue

theorem ensures_rows {statement : TableStatement} (h : sends statement) (mode : FetchMode) :
    Ensures sends (fun _ => True) (rows statement mode) :=
  ⟨h, fun _ _ _ => True.intro⟩

theorem ensures_lookup (key : String) : Ensures sends (fun _ => True) (lookup key) :=
  ⟨True.intro, fun _ _ _ => True.intro⟩

theorem ensures_store (key table : String) (results : List SearchResult) :
    Ensures sends (fun _ => True) (store key table results) :=
  ⟨True.intro, fun _ _ _ => True.intro⟩

theorem ensures_defaultWeights : Ensures sends (fun _ => True) defaultWeights :=
  ⟨True.intro, fun _ _ _ => True.intro⟩

theorem ensures_setDefaultWeights (weights : HybridWeights) :
    Ensures sends (fun _ => True) (setDefaultWeights weights) :=
  ⟨True.intro, fun _ _ _ => True.intro⟩

end Search

/-! ### Searches -/

namespace Service

variable (s : Service) {sends : TableStatement → Prop}

/-- A vector search sends the statement that its request comes to. -/
theorem vectorSearch_ensures (r : VectorSearchRequest)
    (h : ∀ p, s.prepareVector r = .ok p → ∀ statement, s.nearest p r.filter = .ok statement →
      sends statement) :
    (s.vectorSearch r).Ensures sends fun _ => True := by
  unfold vectorSearch
  apply Search.Ensures.within
  apply Search.Ensures.bind (Search.ensures_ofExcept _)
  intro p hp
  apply Search.Ensures.bind (Search.ensures_lookup _)
  intro found _
  cases found with
  | some results => exact Search.ensures_pure True.intro
  | none =>
    apply Search.Ensures.bind (Search.ensures_ofExcept _)
    intro statement hstatement
    apply Search.Ensures.bind (Search.ensures_rows (h p hp statement hstatement) .rows)
    intro rows _
    apply Search.Ensures.bind (Search.ensures_store _ _ _)
    intro _ _
    exact Search.ensures_pure True.intro

theorem fetchCandidates_ensures {p : PreparedHybrid}
    (h : ∀ statement, s.candidates p = .ok statement → sends statement) :
    (s.fetchCandidates p).Ensures sends fun _ => True := by
  unfold fetchCandidates
  apply Search.Ensures.bind (Search.ensures_ofExcept _)
  intro statement hstatement
  apply Search.Ensures.bind (Search.ensures_rows (h statement hstatement) .rows)
  intro rows _
  exact Search.ensures_pure True.intro

/-- A hybrid search sends the statement that its request comes to. -/
theorem hybridSearch_ensures (r : HybridSearchRequest)
    (h : ∀ p, s.prepareHybrid r.table r.query r.embedding r.textFields r.filter = .ok p →
      ∀ statement, s.candidates p = .ok statement → sends statement) :
    (s.hybridSearch r).Ensures sends fun _ => True := by
  unfold hybridSearch
  apply Search.Ensures.within
  apply Search.Ensures.bind (Search.ensures_ofExcept _)
  intro limit _
  have hweights : (resolveWeights r.textWeight r.vectorWeight).Ensures sends fun _ => True := by
    unfold resolveWeights
    apply Search.Ensures.bind Search.ensures_defaultWeights
    intro defaults _
    exact (Search.ensures_ofExcept _).mono fun _ _ _ _ => True.intro
  apply Search.Ensures.bind hweights
  intro weights _
  apply Search.Ensures.bind (Search.ensures_ofExcept _)
  intro p hp
  apply Search.Ensures.bind (Search.ensures_lookup _)
  intro found _
  cases found with
  | some results => exact Search.ensures_pure True.intro
  | none =>
    apply Search.Ensures.bind (s.fetchCandidates_ensures (h p hp))
    intro candidates _
    apply Search.Ensures.bind (Search.ensures_store _ _ _)
    intro _ _
    exact Search.ensures_pure True.intro

theorem fetchSamples_ensures (table : String) {samples : List CalibrationSample}
    (h : ∀ sample ∈ samples, ∀ p,
      s.prepareHybrid table sample.query sample.embedding none none = .ok p →
      ∀ statement, s.candidates p = .ok statement → sends statement) (position : Nat) :
    (s.fetchSamples table position samples).Ensures sends fun _ => True := by
  induction samples generalizing position with
  | nil => exact Search.ensures_pure True.intro
  | cons sample samples ih =>
    have hsample : (s.fetchSample table sample).Ensures sends fun _ => True := by
      unfold fetchSample
      apply Search.Ensures.bind (Search.ensures_ofExcept _)
      intro p hp
      apply Search.Ensures.bind (s.fetchCandidates_ensures (h sample List.mem_cons_self p hp))
      intro candidates _
      exact Search.ensures_pure True.intro
    unfold fetchSamples
    apply Search.Ensures.bind (hsample.within _)
    intro fetched _
    apply Search.Ensures.bind (ih (fun t ht => h t (List.mem_cons_of_mem _ ht)) (position + 1))
    intro others _
    exact Search.ensures_pure True.intro

/-- A calibration sends the statements that its samples come to. -/
theorem calibrate_ensures (table : String) (samples : List CalibrationSample)
    (grid : Option (List Single)) (k : Option UInt32)
    (h : ∀ sample ∈ samples, ∀ p,
      s.prepareHybrid table sample.query sample.embedding none none = .ok p →
      ∀ statement, s.candidates p = .ok statement → sends statement) :
    (s.calibrate table samples grid k).Ensures sends fun _ => True := by
  unfold calibrate
  apply Search.Ensures.bind (Search.ensures_ofExcept _)
  intro _ _
  apply Search.Ensures.bind (s.fetchSamples_ensures table h 0)
  intro fetched _
  apply Search.Ensures.bind (Search.ensures_ofExcept _)
  intro points _
  cases points with
  | nil => exact (Search.ensures_ofExcept _).mono fun _ _ _ _ => True.intro
  | cons first others =>
    apply Search.Ensures.bind (Search.ensures_setDefaultWeights _)
    intro _ _
    exact Search.ensures_pure True.intro

end Service

end KnowledgeSearch
