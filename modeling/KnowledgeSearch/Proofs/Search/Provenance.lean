/-
  KnowledgeSearch/Proofs/Search/Provenance.lean
  =============================================
  **Where results come from.**

  Results are what a statement found, made into results for one payload
  (`Service.ReadAs`).  An operation stores only what it has just read itself, under the key of
  the payload that it read it for (`Service.MayDo`), and it answers with what it has read
  itself or has found under such a key (`Service.Serves`).  Each operation is gone through
  once with the rules of `Search.Obeys`; what follows for several of them at the same time is
  `Service.stored_from_read`.
-/
import KnowledgeSearch.Proofs.Search.Interleaving
import KnowledgeSearch.Search.Indexing

namespace KnowledgeSearch

/-! ### Operations that can fail -/

namespace Search

variable {α β : Type} {may : List Exchange → Action → Prop} {before : List Exchange}
  {search : Search α} {next : α → Search β}

/-- As `Program.Obeys`, for the value that an operation succeeds with. -/
def Obeys (may : List Exchange → Action → Prop) (returns : List Exchange → α → Prop)
    (before : List Exchange) (search : Search α) : Prop :=
  search.run.Obeys may (fun after outcome => ∀ value, outcome = .ok value → returns after value)
    before

theorem Obeys.bind {middle : List Exchange → α → Prop} {returns : List Exchange → β → Prop}
    (h : search.Obeys may middle before)
    (hnext : ∀ after value, middle after value → (next value).Obeys may returns after) :
    (search >>= next).Obeys may returns before := by
  apply Program.Obeys.bind h
  intro after outcome houtcome
  cases outcome with
  | ok value => exact hnext after value (houtcome value rfl)
  | error e =>
    intro value hvalue
    cases hvalue

theorem Obeys.mono {returns returns' : List Exchange → α → Prop}
    (h : search.Obeys may returns before)
    (himp : ∀ after value, returns after value → returns' after value) :
    search.Obeys may returns' before :=
  Program.Obeys.mono h fun after _ houtcome value hvalue => himp after value (houtcome value hvalue)

theorem Obeys.extends {returns : List Exchange → α → Prop} (h : search.Obeys may returns before) :
    search.Obeys may (fun after value => before ⊆ after ∧ returns after value) before :=
  (Program.Obeys.extends h).mono fun _ _ houtcome value hvalue =>
    ⟨houtcome.1, houtcome.2 value hvalue⟩

theorem Obeys.within {returns : List Exchange → α → Prop} (h : search.Obeys may returns before)
    (context : String) : (Search.within context search).Obeys may returns before := by
  apply Program.Obeys.bind h
  intro after outcome houtcome value hvalue
  cases outcome with
  | ok found => exact houtcome value hvalue
  | error e => cases hvalue

theorem obeys_pure {returns : List Exchange → α → Prop} {value : α} (h : returns before value) :
    (pure value : Search α).Obeys may returns before := by
  intro value' hvalue
  cases hvalue
  exact h

/-- What follows a check knows what it found. -/
theorem Obeys.check {returns : List Exchange → β → Prop} {outcome : Except SearchFault α}
    (hnext : ∀ value, outcome = .ok value → (next value).Obeys may returns before) :
    (ofExcept outcome >>= next).Obeys may returns before := by
  cases outcome with
  | ok value => exact hnext value rfl
  | error fault =>
    intro value hvalue
    cases hvalue

theorem obeys_ofExcept (outcome : Except SearchFault α) :
    (ofExcept outcome).Obeys may (fun after value => after = before ∧ outcome = .ok value)
      before := by
  intro value hvalue
  cases outcome with
  | ok found =>
    cases hvalue
    exact ⟨rfl, rfl⟩
  | error fault => cases hvalue

theorem obeys_rows {statement : TableStatement}
    (h : may before (.execute statement .rows)) :
    (rows statement .rows).Obeys may
      (fun after found => ∃ output, after = before ++ [.read statement output] ∧
        found = output.toRows) before := by
  refine ⟨h, fun answer value hvalue => ?_⟩
  cases answer with
  | ok output =>
    cases hvalue
    exact ⟨output, rfl, rfl⟩
  | error e => cases hvalue

theorem obeys_first {statement : TableStatement} (h : may before (.execute statement .first)) :
    (rows statement .first).Obeys may (fun _ _ => True) before :=
  ⟨h, fun _ _ _ => trivial⟩

theorem obeys_batch {statements : List TableStatement}
    (h : may before (.executeBatch statements)) :
    (batch statements).Obeys may
      (fun after affected => after = before ++ [.committed statements affected]) before := by
  refine ⟨h, fun answer value hvalue => ?_⟩
  cases answer with
  | ok affected =>
    cases hvalue
    rfl
  | error e => cases hvalue

theorem obeys_lookup {key : String} (h : may before (.lookup key)) :
    (lookup key).Obeys may
      (fun after found => ∀ results, found = some results →
        Exchange.found key results ∈ after) before := by
  refine ⟨h, fun answer value hvalue results hresults => ?_⟩
  cases hvalue
  cases hresults
  exact List.mem_append_right _ (List.mem_singleton_self _)

theorem obeys_store {key table : String} {results : List SearchResult}
    (h : may before (.store key table results)) :
    (store key table results).Obeys may
      (fun after _ => after = before ++ [.stored key table results]) before :=
  ⟨h, fun _ _ _ => rfl⟩

theorem obeys_invalidate {table : String} (h : may before (.invalidate table)) :
    (invalidate table).Obeys may (fun after _ => after = before ++ [.forgot table]) before :=
  ⟨h, fun _ _ _ => rfl⟩

theorem obeys_defaultWeights (h : may before .readWeights) :
    defaultWeights.Obeys may (fun _ _ => True) before :=
  ⟨h, fun _ _ _ => trivial⟩

theorem obeys_setDefaultWeights {weights : HybridWeights} (h : may before (.writeWeights weights)) :
    (setDefaultWeights weights).Obeys may (fun _ _ => True) before :=
  ⟨h, fun _ _ _ => trivial⟩

end Search

/-! ### Results and their payloads -/

namespace Service

/-- A payload of a search on a table. -/
inductive Names : Json → String → Prop where
  | vector (p : PreparedVector) (filter : Option Json) : Names (p.payload filter) p.table.name
  | hybrid (p : PreparedHybrid) (filter : Option Json) (weights : HybridWeights)
      (limit : UInt32) : Names (p.payload filter weights limit) p.table.name

theorem Names.unique {payload : Json} {table table' : String} (h : Names payload table)
    (h' : Names payload table') : table = table' := by
  generalize hpayload : payload = payload' at h'
  cases h <;> cases h' <;>
    simp only [PreparedVector.payload_eq, PreparedHybrid.payload_eq, Json.object.injEq,
      List.cons.injEq, Prod.mk.injEq, Json.string.injEq] at hpayload
  · exact hpayload.2.2.2.2.1.2
  · exact absurd hpayload.2.1.1 (by decide)
  · exact absurd hpayload.2.1.1 (by decide)
  · exact hpayload.2.2.2.2.2.2.1.2

/-- The results that the output of a statement is made into for a payload and a table. -/
inductive ReadAs (s : Service) :
    Json → String → TableStatement → QueryOutput → List SearchResult → Prop where
  | vector {p : PreparedVector} {filter : Option Json} {statement : TableStatement}
      (made : s.nearest p filter = .ok statement) (output : QueryOutput) :
      s.ReadAs (p.payload filter) p.table.name statement output
        (output.toRows.map (PreparedVector.result p.table))
  | hybrid {p : PreparedHybrid} {filter : Option Json} {statement : TableStatement}
      (read : readFilter p.table filter = .ok p.filter) (made : s.candidates p = .ok statement)
      (weights : HybridWeights) (limit : UInt32) (output : QueryOutput) :
      s.ReadAs (p.payload filter weights limit) p.table.name statement output
        (Candidate.rank p.table.name weights limit.toNat
          (output.toRows.map (PreparedHybrid.candidate p.table)))

variable {s : Service} {payload : Json} {table : String} {statement : TableStatement}
  {output : QueryOutput} {results : List SearchResult}

theorem ReadAs.names (h : s.ReadAs payload table statement output results) :
    Names payload table := by
  cases h with
  | vector => exact .vector _ _
  | hybrid => exact .hybrid _ _ _ _

theorem ReadAs.tableName (h : s.ReadAs payload table statement output results) :
    statement.tableName? = some table := by
  cases h with
  | vector made => exact nearest_tableName made
  | hybrid read made => exact candidates_tableName made

/-! ### What operations store and answer -/

/-- An operation stores only what it has read last, for one of the payloads that are asked. -/
def MayDo (s : Service) (asked : Json → Prop) (before : List Exchange) : Action → Prop
  | .store key table results =>
    ∃ payload statement output, asked payload ∧ key = CacheKey.ofPayload payload ∧
      s.ReadAs payload table statement output results ∧
      before.getLast? = some (.read statement output)
  | _ => True

/-- Results for a table that were found under the key of a payload, or read for it. -/
def Serves (s : Service) (asked : Json → Prop) (table : String) (before : List Exchange)
    (results : List SearchResult) : Prop :=
  ∃ payload, asked payload ∧ Names payload table ∧
    (Exchange.found (CacheKey.ofPayload payload) results ∈ before ∨
      ∃ statement output, Exchange.read statement output ∈ before ∧
        s.ReadAs payload table statement output results)

variable {asked asked' : Json → Prop} {before after : List Exchange}

theorem Serves.mono (h : s.Serves asked table before results)
    (hasked : ∀ payload, asked payload → asked' payload) (hafter : before ⊆ after) :
    s.Serves asked' table after results := by
  obtain ⟨payload, hpayload, hnames, hfrom⟩ := h
  refine ⟨payload, hasked payload hpayload, hnames, ?_⟩
  rcases hfrom with hfound | ⟨statement, output, hread, hmade⟩
  · exact .inl (hafter hfound)
  · exact .inr ⟨statement, output, hafter hread, hmade⟩

/-- A search that asks the cache first, and otherwise reads what it is asked for. -/
theorem memo_obeys {search : Search (List SearchResult)} (hasked : asked payload)
    (hnames : Names payload table)
    (hsearch : ∀ before, search.Obeys (s.MayDo asked)
      (fun after results => ∃ statement output, after.getLast? = some (.read statement output) ∧
        s.ReadAs payload table statement output results) before) :
    (Search.memo payload table search).Obeys (s.MayDo asked)
      (fun after results => s.Serves asked table after results) before := by
  unfold Search.memo
  apply (Search.obeys_lookup trivial).bind
  intro after found hfound
  cases found with
  | some results => exact Search.obeys_pure ⟨payload, hasked, hnames, .inl (hfound results rfl)⟩
  | none =>
    apply (hsearch after).bind
    rintro after results ⟨statement, output, hread, hmade⟩
    -- nothing stands between the read and the store, so the store is allowed
    apply (Search.obeys_store ⟨payload, statement, output, hasked, rfl, hmade, hread⟩).bind
    rintro _ _ rfl
    refine Search.obeys_pure ⟨payload, hasked, hnames, .inr ⟨statement, output, ?_, hmade⟩⟩
    exact List.mem_append_left _ (List.mem_of_getLast? hread)

/-! ### Operations -/

theorem vectorSearch_obeys {r : VectorSearchRequest}
    (hasked : ∀ payload ∈ s.vectorPayload? r, asked payload) :
    (s.vectorSearch r).Obeys (s.MayDo asked)
      (fun after results => s.Serves asked r.table after results) before := by
  rw [vectorSearch_eq_memo]
  apply Search.Obeys.within
  apply Search.Obeys.check
  intro p hp
  have htable : p.table.name = r.table := (Catalog.table_eq_ok (prepareVector_table hp)).2
  rw [← htable]
  apply memo_obeys _ (.vector p r.filter)
  · intro before
    apply Search.Obeys.check
    intro statement hstatement
    apply (Search.obeys_rows trivial).bind
    rintro _ _ ⟨output, rfl, rfl⟩
    exact Search.obeys_pure ⟨statement, output, by simp, .vector hstatement output⟩
  · apply hasked
    simp [vectorPayload?, hp, Except.toOption]

theorem fetchCandidates_obeys (p : PreparedHybrid) :
    (s.fetchCandidates p).Obeys (s.MayDo asked)
      (fun after candidates => ∃ statement output, s.candidates p = .ok statement ∧
        after.getLast? = some (.read statement output) ∧
        candidates = output.toRows.map (PreparedHybrid.candidate p.table)) before := by
  apply Search.Obeys.check
  intro statement hstatement
  apply (Search.obeys_rows trivial).bind
  rintro _ _ ⟨output, rfl, rfl⟩
  exact Search.obeys_pure ⟨statement, output, hstatement, by simp, rfl⟩

theorem hybridSearch_obeys {r : HybridSearchRequest}
    (hasked : ∀ defaults, ∀ payload ∈ s.hybridPayload? defaults r, asked payload) :
    (s.hybridSearch r).Obeys (s.MayDo asked)
      (fun after results => s.Serves asked r.table after results) before := by
  rw [hybridSearch_eq_memo]
  apply Search.Obeys.within
  apply Search.Obeys.check
  intro limit hlimit
  have hweights : (resolveWeights r.textWeight r.vectorWeight).Obeys (s.MayDo asked)
      (fun _ weights => ∃ defaults,
        combineWeights defaults r.textWeight r.vectorWeight = .ok weights) before := by
    apply (Search.obeys_defaultWeights trivial).bind
    intro after defaults _
    exact (Search.obeys_ofExcept _).mono fun _ _ h => ⟨defaults, h.2⟩
  apply hweights.bind
  rintro after weights ⟨defaults, hcombined⟩
  apply Search.Obeys.check
  intro p hp
  have hmade := prepareHybrid_eq_ok hp
  have htable : p.table.name = r.table := (Catalog.table_eq_ok hmade.table).2
  rw [← htable]
  apply memo_obeys _ (.hybrid p r.filter weights limit)
  · intro before
    apply (fetchCandidates_obeys p).bind
    rintro _ _ ⟨statement, output, hstatement, hread, rfl⟩
    exact Search.obeys_pure
      ⟨statement, output, hread, .hybrid hmade.filter hstatement weights limit output⟩
  · apply hasked defaults
    simp only [hybridPayload?, hlimit, hcombined, hp]
    rfl

/-- Every table's results are served, those of an earlier table also by what is done later. -/
theorem searchTables_obeys {r : HybridSearchRequest} {tables : List String}
    (hasked : ∀ table ∈ tables, ∀ defaults, ∀ payload ∈ s.hybridPayload? defaults { r with table },
      asked payload) {found : Keyed (List SearchResult)}
    (hfound : ∀ entry ∈ found, s.Serves asked entry.1 before entry.2) :
    (s.searchTables r tables found).Obeys (s.MayDo asked)
      (fun after found => ∀ entry ∈ found, s.Serves asked entry.1 after entry.2) before := by
  induction tables generalizing before found with
  | nil => exact Search.obeys_pure hfound
  | cons table tables ih =>
    have htable : (s.hybridSearch { r with table }).Obeys (s.MayDo asked)
        (fun after results => s.Serves asked table after results) before :=
      hybridSearch_obeys (hasked table List.mem_cons_self)
    apply htable.extends.bind
    rintro after results ⟨hafter, hserves⟩
    apply ih fun t ht => hasked t (List.mem_cons_of_mem _ ht)
    intro entry hentry
    rcases Keyed.mem_insert hentry with rfl | hentry
    · exact hserves
    · -- an entry of an earlier table, whose origin is not forgotten
      exact (hfound entry hentry).mono (fun _ => id) hafter

theorem multiTableSearch_obeys {r : HybridSearchRequest} {tables : List String}
    (hasked : ∀ table ∈ tables, ∀ defaults, ∀ payload ∈ s.hybridPayload? defaults { r with table },
      asked payload) :
    (s.multiTableSearch tables r).Obeys (s.MayDo asked)
      (fun after found => ∀ entry ∈ found, s.Serves asked entry.1 after entry.2) before := by
  unfold multiTableSearch
  split
  · intro value hvalue
    cases hvalue
  · exact searchTables_obeys hasked fun _ hentry => nomatch hentry

theorem storeEmbeddings_obeys {tableName : String} {items : List EmbeddingItem} :
    (s.storeEmbeddings tableName items).Obeys (s.MayDo asked)
      (fun after affected => after = [] ∨ ∃ statements,
        after = [.committed statements affected, .forgot tableName]) [] := by
  unfold storeEmbeddings
  apply Search.Obeys.within
  apply Search.Obeys.check
  intro table htable
  have hname : table.name = tableName := (Catalog.table_eq_ok htable).2
  cases storeItems table 0 items with
  | error e =>
    intro value hvalue
    cases hvalue
  | ok statements =>
    have hrest : (if statements.isEmpty then pure 0
        else do
          let affected ← Search.batch statements
          Search.invalidate table.name
          pure affected : Search Nat).Obeys (s.MayDo asked)
        (fun after affected => after = [] ∨ ∃ statements,
          after = [.committed statements affected, .forgot tableName]) [] := by
      split
      · exact Search.obeys_pure (.inl rfl)
      · apply (Search.obeys_batch trivial).bind
        rintro _ affected rfl
        apply (Search.obeys_invalidate trivial).bind
        rintro _ _ rfl
        exact Search.obeys_pure (.inr ⟨statements, by rw [hname]; rfl⟩)
    exact hrest

theorem fetchSamples_obeys (table : String) (samples : List CalibrationSample) (position : Nat) :
    (s.fetchSamples table position samples).Obeys (s.MayDo asked) (fun _ _ => True) before := by
  induction samples generalizing position before with
  | nil => exact Search.obeys_pure trivial
  | cons sample samples ih =>
    have hsample : (s.fetchSample table sample).Obeys (s.MayDo asked) (fun _ _ => True) before := by
      apply Search.Obeys.check
      intro p _
      apply (fetchCandidates_obeys p).bind
      exact fun _ _ _ => Search.obeys_pure trivial
    apply (hsample.within _).bind
    intro _ _ _
    apply (ih (position + 1)).bind
    exact fun _ _ _ => Search.obeys_pure trivial

theorem calibrate_obeys (table : String) (samples : List CalibrationSample)
    (grid : Option (List Single)) (k : Option UInt32) :
    (s.calibrate table samples grid k).Obeys (s.MayDo asked) (fun _ _ => True) before := by
  apply Search.Obeys.check
  intro _ _
  apply (fetchSamples_obeys table samples 0).bind
  intro _ _ _
  apply Search.Obeys.check
  intro points _
  cases points with
  | nil => exact (Search.obeys_ofExcept _).mono fun _ _ _ => trivial
  | cons first others =>
    apply (Search.obeys_setDefaultWeights trivial).bind
    exact fun _ _ _ => Search.obeys_pure trivial

theorem recommendIndex_obeys (table : String) (preference : Option IndexPreference) :
    (s.recommendIndex table preference).Obeys (s.MayDo asked) (fun _ _ => True) before := by
  apply Search.Obeys.check
  intro found _
  have hcount : (countEmbedded found).Obeys (s.MayDo asked) (fun _ _ => True) before := by
    apply (Search.obeys_first trivial).bind
    exact fun _ _ _ => Search.obeys_pure trivial
  apply (hcount.within _).bind
  exact fun _ _ _ => Search.obeys_pure trivial

theorem applyIndex_obeys (r : IndexRecommendation) :
    (s.applyIndex r).Obeys (s.MayDo asked) (fun _ _ => True) before := by
  have hcreate : (s.createIndex r).Obeys (s.MayDo asked) (fun _ _ => True) before := by
    apply Search.Obeys.check
    intro index _
    apply (Search.obeys_batch trivial).bind
    exact fun _ _ _ => Search.obeys_pure trivial
  exact Program.Obeys.bind hcreate fun _ _ _ => trivial

end Service

/-! ### Calls -/

namespace Call

/-- The operation of a call, as one program. -/
def program (s : Service) : Call → Program Reply
  | vectorSearch r => (s.vectorSearch r).run.bind fun outcome => .done (.results outcome)
  | hybridSearch r => (s.hybridSearch r).run.bind fun outcome => .done (.results outcome)
  | multiTableSearch tables r =>
    (s.multiTableSearch tables r).run.bind fun outcome => .done (.tables outcome)
  | storeEmbeddings table items =>
    (s.storeEmbeddings table items).run.bind fun outcome => .done (.written outcome)
  | calibrate table samples grid k =>
    (s.calibrate table samples grid k).run.bind fun outcome => .done (.calibrated outcome)

/-- On its own, the program of a call does what the call does. -/
theorem run_program {σ : Type} (s : Service) (call : Call) (m : Machine σ) :
    (call.program s).run m = call.run s m := by
  cases call <;> exact Program.run_bind _ _ m

/-- The payloads with which a call may ask the cache, whatever the default weights are by then. -/
def MayAsk (s : Service) (call : Call) (payload : Json) : Prop :=
  ∃ defaults, payload ∈ s.callPayloads defaults call

theorem mayAsk_vectorSearch {s : Service} {r : VectorSearchRequest} {payload : Json} :
    (vectorSearch r).MayAsk s payload ↔ s.vectorPayload? r = some payload := by
  constructor
  · rintro ⟨defaults, h⟩
    exact Option.mem_toList.mp h
  · intro h
    exact ⟨⟨.zero, .zero⟩, Option.mem_toList.mpr h⟩

/-- A call's reply has results for a table. -/
def Gives : Call → Reply → String → List SearchResult → Prop
  | vectorSearch r, .results (.ok found), table, results => r.table = table ∧ found = results
  | hybridSearch r, .results (.ok found), table, results => r.table = table ∧ found = results
  | multiTableSearch _ _, .tables (.ok found), table, results => (table, results) ∈ found
  | _, _, _, _ => False

/-- What is known of a call when it ends: where the results that it gives come from, and, if it
    has written, what it has done. -/
structure Ends (s : Service) (call : Call) (before : List Exchange) (reply : Reply) : Prop where
  gives : ∀ table results, call.Gives reply table results →
    s.Serves (call.MayAsk s) table before results
  wrote : ∀ table items affected, call = .storeEmbeddings table items →
    reply = .written (.ok affected) → before = [] ∨
      ∃ statements, before = [.committed statements affected, .forgot table]

theorem program_obeys (s : Service) (call : Call) :
    (call.program s).Obeys (s.MayDo (call.MayAsk s)) (call.Ends s) [] := by
  cases call with
  | vectorSearch r =>
    have h : (s.vectorSearch r).Obeys (s.MayDo ((vectorSearch r).MayAsk s))
        (fun after results => s.Serves ((vectorSearch r).MayAsk s) r.table after results) [] :=
      Service.vectorSearch_obeys fun _ => mayAsk_vectorSearch.mpr
    apply Program.Obeys.bind h
    intro after outcome houtcome
    refine ⟨fun table results hgives => ?_, fun _ _ _ hcall => nomatch hcall⟩
    cases outcome with
    | error e => exact hgives.elim
    | ok found =>
      obtain ⟨rfl, rfl⟩ := hgives
      exact houtcome found rfl
  | hybridSearch r =>
    have h : (s.hybridSearch r).Obeys (s.MayDo ((hybridSearch r).MayAsk s))
        (fun after results => s.Serves ((hybridSearch r).MayAsk s) r.table after results) [] :=
      Service.hybridSearch_obeys fun defaults _ hpayload =>
        ⟨defaults, Option.mem_toList.mpr hpayload⟩
    apply Program.Obeys.bind h
    intro after outcome houtcome
    refine ⟨fun table results hgives => ?_, fun _ _ _ hcall => nomatch hcall⟩
    cases outcome with
    | error e => exact hgives.elim
    | ok found =>
      obtain ⟨rfl, rfl⟩ := hgives
      exact houtcome found rfl
  | multiTableSearch tables r =>
    have h : (s.multiTableSearch tables r).Obeys (s.MayDo ((multiTableSearch tables r).MayAsk s))
        (fun after found => ∀ entry ∈ found,
          s.Serves ((multiTableSearch tables r).MayAsk s) entry.1 after entry.2) [] :=
      Service.multiTableSearch_obeys fun table htable defaults payload hpayload => ⟨defaults,
        List.mem_flatMap.mpr ⟨table, htable, Option.mem_toList.mpr hpayload⟩⟩
    apply Program.Obeys.bind h
    intro after outcome houtcome
    refine ⟨fun table results hgives => ?_, fun _ _ _ hcall => nomatch hcall⟩
    cases outcome with
    | error e => exact hgives.elim
    | ok found => exact houtcome found rfl _ hgives
  | storeEmbeddings table items =>
    apply Program.Obeys.bind Service.storeEmbeddings_obeys
    intro after outcome houtcome
    refine ⟨fun _ _ hgives => hgives.elim, ?_⟩
    rintro _ _ affected ⟨rfl, rfl⟩ hreply
    cases hreply
    exact houtcome affected rfl
  | calibrate table samples grid k =>
    apply Program.Obeys.bind (Service.calibrate_obeys table samples grid k)
    intro after outcome _
    exact ⟨fun _ _ hgives => hgives.elim, fun _ _ _ hcall => nomatch hcall⟩

end Call

/-! ### Operations at the same time -/

/-- Anything that a service can be asked to do while it runs. -/
inductive Operation where
  | call (call : Call)
  | setDefaultWeights (weights : HybridWeights)
  | recommendIndex (table : String) (preference : Option IndexPreference)
  | applyIndex (r : IndexRecommendation)

namespace Operation

/-- What an operation does; it ends with the reply of a call, if it is one. -/
def program (s : Service) : Operation → Program (Option Reply)
  | call c => (c.program s).bind fun reply => .done (some reply)
  | setDefaultWeights weights => (Search.setDefaultWeights weights).run.bind fun _ => .done none
  | recommendIndex table preference =>
    (s.recommendIndex table preference).run.bind fun _ => .done none
  | applyIndex r => (s.applyIndex r).bind fun _ => .done none

def MayAsk (s : Service) : Operation → Json → Prop
  | call c, payload => c.MayAsk s payload
  | _, _ => False

def Ends (s : Service) (operation : Operation) (before : List Exchange) (reply : Option Reply) :
    Prop :=
  ∀ c r, operation = .call c → reply = some r → c.Ends s before r

theorem program_obeys (s : Service) (operation : Operation) :
    (operation.program s).Obeys (s.MayDo (operation.MayAsk s)) (operation.Ends s) [] := by
  cases operation with
  | call c =>
    apply (c.program_obeys s).bind
    rintro after reply hends _ _ ⟨rfl⟩ ⟨rfl⟩
    exact hends
  | setDefaultWeights weights =>
    exact ⟨trivial, fun _ _ _ hcall => nomatch hcall⟩
  | recommendIndex table preference =>
    apply Program.Obeys.bind (Service.recommendIndex_obeys table preference)
    exact fun _ _ _ _ _ hcall => nomatch hcall
  | applyIndex r =>
    apply (Service.applyIndex_obeys r).bind
    exact fun _ _ _ _ _ hcall => nomatch hcall

end Operation

/-! ### The steps of searches and writes -/

/-- Asks the cache; if it has nothing, reads and stores what was read. -/
def searchSteps (key table : String) (statement : TableStatement)
    (results : QueryOutput → List SearchResult) (failed : StorageError → Reply) :
    Program (Option Reply) :=
  .act (.lookup key) fun
    | some found => .done (some (.results (.ok found)))
    | none => .act (.execute statement .rows) fun
      | .ok output =>
        .act (.store key table (results output)) fun _ =>
          .done (some (.results (.ok (results output))))
      | .error e => .done (some (failed e))

/-- Commits, and then cleans up. -/
def writeSteps (table : String) (statements : List TableStatement)
    (failed : StorageError → Reply) : Program (Option Reply) :=
  .act (.executeBatch statements) fun
    | .ok affected => .act (.invalidate table) fun _ => .done (some (.written (.ok affected)))
    | .error e => .done (some (failed e))

namespace Service

variable {s : Service}

theorem vectorSearch_steps {r : VectorSearchRequest} {p : PreparedVector}
    {statement : TableStatement} (hp : s.prepareVector r = .ok p)
    (hstatement : s.nearest p r.filter = .ok statement) :
    (Operation.call (.vectorSearch r)).program s =
      searchSteps (CacheKey.ofPayload (p.payload r.filter)) p.table.name statement
        (fun output => output.toRows.map (PreparedVector.result p.table))
        (fun e => .results (inContext ("Vector search on " ++ describe r.table r.limit r.filter)
          (.error (SearchFault.storage e)))) := by
  have hprepared : Search.ofExcept (s.prepareVector r) = pure p := by
    rw [hp]
    rfl
  have hnearest : Search.ofExcept (s.nearest p r.filter) = pure statement := by
    rw [hstatement]
    rfl
  simp only [Operation.program, Call.program, vectorSearch, hprepared, pure_bind]
  refine congrArg (Program.act _) (funext fun found => ?_)
  cases found with
  | some results => rfl
  | none =>
    simp only [hnearest, pure_bind]
    refine congrArg (Program.act _) (funext fun answer => ?_)
    cases answer <;> rfl

theorem storeEmbeddings_steps {tableName : String} {items : List EmbeddingItem} {table : Table}
    {statements : List TableStatement} (htable : s.catalog.table tableName = .ok table)
    (hitems : storeItems table 0 items = .ok statements) (hsome : statements ≠ []) :
    (Operation.call (.storeEmbeddings tableName items)).program s =
      writeSteps table.name statements
        (fun e => .written (inContext s!"Storing {items.length} embeddings in {tableName}"
          (.error (SearchFault.storage e)))) := by
  have hfound : Search.ofExcept (s.catalog.table tableName) = pure table := by
    rw [htable]
    rfl
  have hread : (ExceptT.mk (.done (.ok statements)) : Search (List TableStatement)) =
    pure statements := rfl
  have hempty : statements.isEmpty = false := by simpa using hsome
  simp only [Operation.program, Call.program, storeEmbeddings, hfound, pure_bind, hitems, hread,
    hempty]
  refine congrArg (Program.act _) (funext fun answer => ?_)
  cases answer <;> rfl

end Service

/-! ### Operations on one machine -/

namespace Service

variable {σ : Type} (s : Service)

/-- Operations on one machine, none of which has taken a step. -/
def launch (machine : Machine σ) (operations : Nat → Operation) : Execution σ (Option Reply) :=
  .start machine fun i => (operations i).program s

/-- The payloads with which some of the operations may ask the cache. -/
def Asked (operations : Nat → Operation) (payload : Json) : Prop :=
  ∃ i, (operations i).MayAsk s payload

theorem operations_obey (machine : Machine σ) (operations : Nat → Operation)
    (schedule : List Nat) :
    let x := (s.launch machine operations).run schedule
    (∀ i, (x.programs i).Obeys (s.MayDo (s.Asked operations)) ((operations i).Ends s)
      (past i x.events)) ∧
      ∀ (n : Nat) event, x.events[n]? = some event →
        s.MayDo (s.Asked operations) (past event.process (x.events.take n))
          event.exchange.action := by
  apply Execution.obeys_run
  intro i
  apply ((operations i).program_obeys s).allow
  intro before action hmay
  cases action with
  | store key table results =>
    obtain ⟨payload, statement, output, hasked, hrest⟩ := hmay
    exact ⟨payload, statement, output, ⟨i, hasked⟩, hrest⟩
  | _ => trivial

theorem operations_remember {machine : Machine σ} (hempty : machine.entries = [])
    (operations : Nat → Operation) (schedule : List Nat) :
    ((s.launch machine operations).run schedule).Remembers :=
  Execution.remembers_run hempty _ schedule

variable {s}

/-- Stored results were read before by the process that stored them, which did nothing else in
    between. -/
theorem stored_from_read {machine : Machine σ} {operations : Nat → Operation} {schedule : List Nat}
    {j i : Nat} {key table : String} {results : List SearchResult}
    (h : ((s.launch machine operations).run schedule).events[j]? =
      some ⟨i, .stored key table results⟩) :
    ∃ payload statement output, s.Asked operations payload ∧ key = CacheKey.ofPayload payload ∧
      s.ReadAs payload table statement output results ∧
      ∃ k < j, ((s.launch machine operations).run schedule).events[k]? =
          some ⟨i, .read statement output⟩ ∧
        ∀ (n : Nat) event, k < n → n < j →
          ((s.launch machine operations).run schedule).events[n]? = some event →
          event.process ≠ i := by
  obtain ⟨payload, statement, output, hasked, hkey, hmade, hlast⟩ :=
    (s.operations_obey machine operations schedule).2 j _ h
  refine ⟨payload, statement, output, hasked, hkey, hmade, ?_⟩
  obtain ⟨k, hk, hbetween⟩ := past_getLast hlast
  have hkj : k < j := by
    have hbound := (List.getElem?_eq_some_iff.mp hk).1
    rw [List.length_take] at hbound
    omega
  rw [List.getElem?_take_of_lt hkj] at hk
  refine ⟨k, hkj, hk, fun n event hn hnj hevent => hbetween n event hn ?_⟩
  rwa [List.getElem?_take_of_lt hnj]

/-- Whatever the cache holds was read for a payload with the entry's key. -/
theorem cached_from_read {machine : Machine σ} (hempty : machine.entries = [])
    {operations : Nat → Operation} {schedule : List Nat} {entry : CacheEntry (List SearchResult)}
    (h : entry ∈ ((s.launch machine operations).run schedule).machine.entries) :
    ∃ payload statement output, s.Asked operations payload ∧
      entry.key = CacheKey.ofPayload payload ∧
      s.ReadAs payload entry.table statement output entry.value := by
  obtain ⟨j, hj⟩ := (s.operations_remember hempty operations schedule).entries entry h
  obtain ⟨i, hstored⟩ := hj.stored
  obtain ⟨payload, statement, output, hasked, hkey, hmade, -⟩ := stored_from_read hstored
  exact ⟨payload, statement, output, hasked, hkey, hmade⟩

end Service

end KnowledgeSearch
