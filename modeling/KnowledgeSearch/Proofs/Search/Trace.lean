/-
  KnowledgeSearch/Proofs/Search/Trace.lean
  ========================================
  **The statements of a run.**

  `Ensures` speaks of statements one by one.  Where their number and order count, the
  whole list of them is needed: what a program sends when a machine runs it
  (`Program.sent`).  Most parts of an operation send nothing (`Search.Quiet`), so an
  operation sends what its one loud part sends, or nothing if it does not get there
  (`Search.Sends`).
-/
import KnowledgeSearch.Search.Hybrid
import KnowledgeSearch.Search.Vector

namespace KnowledgeSearch

/-! ### Programs -/

def Action.statements : Action → List TableStatement
  | .execute statement _ => [statement]
  | .executeBatch statements => statements
  | _ => []

namespace Program

variable {σ α β : Type}

/-- The statements that a program sends when a machine answers it, in their order. -/
def sent : Program α → Machine σ → List TableStatement
  | done _, _ => []
  | act action next, m =>
    action.statements ++ sent (next (m.perform action).1) (m.perform action).2

theorem run_bind (p : Program α) (f : α → Program β) (m : Machine σ) :
    (p.bind f).run m = (f (p.run m).1).run (p.run m).2 := by
  induction p generalizing m with
  | done value => rfl
  | act action next ih => simp only [bind, run, ih]

theorem sent_bind (p : Program α) (f : α → Program β) (m : Machine σ) :
    (p.bind f).sent m = p.sent m ++ (f (p.run m).1).sent (p.run m).2 := by
  induction p generalizing m with
  | done value => rfl
  | act action next ih => simp only [bind, sent, run, ih, List.append_assoc]

end Program

/-! ### Operations -/

namespace Search

variable {α β : Type} {search : Search α} {next : α → Search β}
  {P : List TableStatement → Prop}

/-- An operation that sends nothing. -/
def Quiet (search : Search α) : Prop :=
  ∀ (σ : Type) (m : Machine σ), search.run.sent m = []

/-- An operation that sends nothing, or statements that together have a property. -/
def Sends (P : List TableStatement → Prop) (search : Search α) : Prop :=
  ∀ (σ : Type) (m : Machine σ), search.run.sent m = [] ∨ P (search.run.sent m)

/-- What an operation sends before the one that follows it. -/
theorem sent_bind {σ : Type} (m : Machine σ) :
    (search >>= next).run.sent m = search.run.sent m ++
      match search.run.run m with
      | (.ok value, m) => (next value).run.sent m
      | (.error _, _) => [] := by
  have hbind : (search >>= next).run.sent m = search.run.sent m ++
      (ExceptT.bindCont (fun value => (next value).run) (search.run.run m).1 : Program _).sent
        (search.run.run m).2 := Program.sent_bind search.run _ m
  rw [hbind]
  rcases search.run.run m with ⟨_ | value, m'⟩ <;> rfl

theorem Quiet.bind (h : search.Quiet) (hnext : ∀ value, (next value).Quiet) :
    (search >>= next).Quiet := by
  intro σ m
  rw [sent_bind, h _ m, List.nil_append]
  split
  · exact hnext _ _ _
  · rfl

/-- A quiet operation before a loud one. -/
theorem Quiet.before (h : search.Quiet) (hnext : ∀ value, (next value).Sends P) :
    (search >>= next).Sends P := by
  intro σ m
  rw [sent_bind, h _ m, List.nil_append]
  split
  · exact hnext _ _ _
  · exact Or.inl rfl

/-- A loud operation before a quiet one. -/
theorem Sends.before (h : search.Sends P) (hnext : ∀ value, (next value).Quiet) :
    (search >>= next).Sends P := by
  intro σ m
  have hquiet : (match search.run.run m with
      | (.ok value, m) => (next value).run.sent m
      | (.error _, _) => []) = [] := by
    split
    · exact hnext _ _ _
    · rfl
  rw [sent_bind, hquiet, List.append_nil]
  exact h _ m

/-- What follows a check knows what it found. -/
theorem Sends.check {outcome : Except SearchFault α}
    (hnext : ∀ value, outcome = .ok value → (next value).Sends P) :
    (ofExcept outcome >>= next).Sends P := by
  intro σ m
  cases outcome with
  | ok value => exact hnext value rfl _ m
  | error fault => exact Or.inl rfl

theorem Sends.within (h : search.Sends P) (context : String) :
    (Search.within context search).Sends P := by
  intro σ m
  have hsent : (Search.within context search).run.sent m = search.run.sent m := by
    have hbind := Program.sent_bind search.run
      (fun outcome => Program.done (inContext context outcome)) m
    rw [Program.sent, List.append_nil] at hbind
    exact hbind
  rw [hsent]
  exact h _ m

theorem Quiet.sends (h : search.Quiet) : search.Sends P := fun _ m => Or.inl (h _ m)

theorem sends_rows {statement : TableStatement} (mode : FetchMode) (h : P [statement]) :
    (rows statement mode).Sends P := fun _ _ => Or.inr h

theorem sends_batch {statements : List TableStatement} (h : P statements) :
    (batch statements).Sends P := by
  intro σ m
  have hsent : (batch statements).run.sent m = statements ++ [] := rfl
  rw [hsent, List.append_nil]
  exact Or.inr h

theorem quiet_pure (value : α) : (pure value : Search α).Quiet := fun _ _ => rfl

theorem quiet_ofExcept (outcome : Except SearchFault α) : (ofExcept outcome).Quiet := fun _ _ => rfl

theorem quiet_lookup (key : String) : (lookup key).Quiet := fun _ _ => rfl

theorem quiet_store (key table : String) (results : List SearchResult) :
    (store key table results).Quiet := fun _ _ => rfl

theorem quiet_invalidate (table : String) : (invalidate table).Quiet := fun _ _ => rfl

theorem quiet_defaultWeights : defaultWeights.Quiet := fun _ _ => rfl

end Search

/-! ### What operations send -/

namespace Service

variable (s : Service) {P : List TableStatement → Prop}

/-- A vector search sends one statement, that its request comes to. -/
theorem vectorSearch_sends (r : VectorSearchRequest)
    (h : ∀ p, s.prepareVector r = .ok p → ∀ statement, s.nearest p r.filter = .ok statement →
      P [statement]) : (s.vectorSearch r).Sends P := by
  unfold vectorSearch
  apply Search.Sends.within
  apply Search.Sends.check
  intro p hp
  apply (Search.quiet_lookup _).before
  intro found
  cases found with
  | some results => exact (Search.quiet_pure results).sends
  | none =>
    apply Search.Sends.check
    intro statement hstatement
    apply (Search.sends_rows .rows (h p hp statement hstatement)).before
    intro rows
    exact (Search.quiet_store _ _ _).bind fun _ => Search.quiet_pure _

/-- A hybrid search sends one statement, that its request comes to. -/
theorem hybridSearch_sends (r : HybridSearchRequest)
    (h : ∀ p, s.prepareHybrid r.table r.query r.embedding r.textFields r.filter = .ok p →
      ∀ statement, s.candidates p = .ok statement → P [statement]) :
    (s.hybridSearch r).Sends P := by
  unfold hybridSearch
  apply Search.Sends.within
  apply Search.Sends.check
  intro limit _
  have hweights : (resolveWeights r.textWeight r.vectorWeight).Quiet :=
    Search.quiet_defaultWeights.bind fun _ => Search.quiet_ofExcept _
  apply hweights.before
  intro weights
  apply Search.Sends.check
  intro p hp
  apply (Search.quiet_lookup _).before
  intro found
  cases found with
  | some results => exact (Search.quiet_pure results).sends
  | none =>
    have hcandidates : (s.fetchCandidates p).Sends P := by
      apply Search.Sends.check
      intro statement hstatement
      exact (Search.sends_rows .rows (h p hp statement hstatement)).before
        fun _ => Search.quiet_pure _
    apply hcandidates.before
    intro candidates
    exact (Search.quiet_store _ _ _).bind fun _ => Search.quiet_pure _

/-- Writing embeddings sends the statements of its items in one transaction. -/
theorem storeEmbeddings_sends (tableName : String) (items : List EmbeddingItem)
    (h : ∀ table, s.catalog.table tableName = .ok table → ∀ statements,
      storeItems table 0 items = .ok statements → P statements) :
    (s.storeEmbeddings tableName items).Sends P := by
  unfold storeEmbeddings
  apply Search.Sends.within
  apply Search.Sends.check
  intro table htable
  cases hitems : storeItems table 0 items with
  | error e => exact fun _ _ => Or.inl rfl
  | ok statements =>
    have hrest : (if statements.isEmpty then pure 0
        else do
          let affected ← Search.batch statements
          Search.invalidate table.name
          pure affected : Search Nat).Sends P := by
      split
      · exact (Search.quiet_pure 0).sends
      · apply (Search.sends_batch (h table htable statements hitems)).before
        intro affected
        exact (Search.quiet_invalidate _).bind fun _ => Search.quiet_pure _
    exact hrest

end Service

end KnowledgeSearch
