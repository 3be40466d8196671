/-
  KnowledgeSearch/Proofs/Search/FailFast.lean
  ===========================================
  **Requests with a defect fail before anything is called.**

  A single search or write checks all of its request before its one call, so a request with a
  defect makes no call and leaves the service as it was, and any other makes at most one
  (`Service.requests_fail_fast`).  Two orders need an argument.  A vector search asks the cache
  before it reads its filter; since nothing is cached for a filter that is rejected, the look-up
  finds nothing.  A write checks its items one after another, but sends none of them before the
  last has passed.
-/
import KnowledgeSearch.Proofs.Search.Defect
import KnowledgeSearch.Proofs.Search.Failure

namespace KnowledgeSearch

/-! ### Being rejected, and calling once -/

namespace Search

variable {σ α : Type}

/-- An operation that a machine's service turns down: with an error for the request, without a call,
    and keeping the cache and the weights. -/
structure Rejected (search : Search α) (m : Machine σ) : Prop where
  outcome : ∃ error, (search.run.run m).1 = .error error ∧
    (error.kind = .invalidArgument ∨ error.kind = .invalidEmbeddingFormat)
  calls : calls (search.run.trace m) = []
  retained : m.Retained (search.run.run m).2

/-- An operation that makes at most one call, of the given form: none if the cache has an answer,
    and one if it has none and the operation is ready. -/
structure CallsOnce (search : Search α) (m : Machine σ) (form : Exchange → Prop) (ready : Prop) :
    Prop where
  atMost : calls (search.run.trace m) = [] ∨ ∃ x, form x ∧ calls (search.run.trace m) = [x]
  hit : ∀ x ∈ search.run.trace m, x.isHit = true → calls (search.run.trace m) = []
  miss : ready → (∀ x ∈ search.run.trace m, x.isHit = false) → calls (search.run.trace m) ≠ []

end Search

theorem Exchange.isCall_of_failure {x : Exchange} {e : StorageError} (h : x.failure? = some e) :
    x.action.isCall = true := by
  obtain ⟨action, answer⟩ := x
  cases action with
  | execute => rfl
  | executeBatch => rfl
  | _ => cases h

/-- An operation that fails without a call has turned its request down. -/
theorem Search.rejected_of_surfaces {σ α : Type} {search : Search α} {m : Machine σ}
    {contexts : List Exchange → List String} {error : SearchError}
    (hsurfaces : Surfaces contexts (search.run.trace m) (search.run.run m).1)
    (herror : (search.run.run m).1 = .error error)
    (hcalls : calls (search.run.trace m) = []) : search.Rejected m := by
  rw [herror] at hsurfaces
  obtain ⟨hunwritten, ⟨-, hfault⟩ | ⟨before, x, e, htrace, -, hfailed, -⟩⟩ := hsurfaces
  · refine ⟨⟨error, herror, hfault.kind⟩, hcalls, ?_⟩
    rw [Program.run_after]
    exact m.retained_after hunwritten
  · -- a failure would be a call
    have hcall : x ∈ calls (search.run.trace m) := by
      rw [htrace]
      exact List.mem_filter.mpr ⟨by simp, Exchange.isCall_of_failure hfailed⟩
    rw [hcalls] at hcall
    cases hcall

/-- Asking the cache first, after some exchanges that are no calls, makes at most one call. -/
theorem Search.callsOnce_of_memo {σ α : Type} {search : Search α} {m : Machine σ}
    (early : List Exchange) {trace : List Exchange} (htrace : search.run.trace m = early ++ trace)
    (hcalls : calls early = []) (hmissed : ∀ x ∈ early, x.isHit = false)
    {key table : String} {made : Except SearchFault TableStatement}
    {give : List Row → List SearchResult} {inner : Except SearchError (List SearchResult)}
    (hmemo : MemoRun key table (ReadRun made .rows give) trace inner) {form : Exchange → Prop}
    {ready : Prop}
    (hform : ∀ statement answer, made = .ok statement → form ⟨.execute statement .rows, answer⟩)
    (hready : ready → ∃ statement, made = .ok statement) : search.CallsOnce m form ready := by
  have hall : calls (search.run.trace m) = calls trace := by
    rw [htrace, KnowledgeSearch.calls, List.filter_append]
    exact (congrArg (· ++ _) hcalls).trans (List.nil_append _)
  have hmem {x : Exchange} (h : x ∈ search.run.trace m) (hhit : x.isHit = true) : x ∈ trace := by
    rw [htrace] at h
    refine (List.mem_append.mp h).resolve_left fun hearly => ?_
    simp [hmissed x hearly] at hhit
  cases hmemo with
  | found results =>
    refine ⟨.inl hall, fun _ _ _ => hall, fun _ hmiss => ?_⟩
    have hfound := hmiss (.found key results) (by rw [htrace]; simp)
    cases hfound
  | failed hread =>
    cases hread with
    | refused hrefused =>
      refine ⟨.inl hall, fun _ _ _ => hall, fun h _ => ?_⟩
      obtain ⟨statement, hmade⟩ := hready h
      cases hmade.symm.trans hrefused
    | failed hmade e =>
      refine ⟨.inr ⟨_, hform _ (.error e) hmade, hall⟩, fun x hx hhit => ?_, fun _ _ => ?_⟩
      · rcases List.mem_pair.mp (hmem hx hhit) with rfl | rfl <;> cases hhit
      · rw [hall]
        simp [KnowledgeSearch.calls, Exchange.missed, Action.isCall]
  | read hread =>
    cases hread with
    | read hmade output =>
      refine ⟨.inr ⟨_, hform _ (.ok output) hmade, hall⟩, fun x hx hhit => ?_, fun _ _ => ?_⟩
      · have hx := hmem hx hhit
        simp only [List.mem_cons, List.cons_append, List.nil_append, List.not_mem_nil,
          or_false] at hx
        rcases hx with rfl | rfl | rfl <;> cases hhit
      · rw [hall]
        simp [KnowledgeSearch.calls, Exchange.missed, Exchange.stored, Action.isCall]

/-- The first thing that a program does is answered by the machine as it is. -/
theorem Program.answer_of_trace {σ α : Type} {p : Program α} {m : Machine σ} {x : Exchange}
    {rest : List Exchange} (h : p.trace m = x :: rest) : x.answer = (m.perform x.action).1 := by
  cases p with
  | done value => cases h
  | act action next =>
    cases h
    rfl

namespace Service

variable {σ : Type} {s : Service}

/-! ### Vector searches -/

/-- A service that measures distances with its metric. -/
def Measures (s : Service) : Prop := ¬(s.dialect = .lite ∧ s.config.index.metric = .innerProduct)

theorem Measures.distance (h : s.Measures) (table : Table) (embedding : Embedding) :
    ∃ distance, s.distance table embedding = .ok distance := by
  unfold Measures at h
  unfold Service.distance
  cases hdialect : s.dialect <;> cases hmetric : s.config.index.metric <;>
    first | exact ⟨_, rfl⟩ | exact absurd ⟨hdialect, hmetric⟩ h

/-- Nothing is cached for a vector search whose filter is rejected. -/
theorem not_found_of_filterDefect {machine : Machine σ} (hempty : machine.entries = [])
    {operations : Nat → Operation} {schedule : List Nat} {r : VectorSearchRequest}
    {p : PreparedVector} (hp : s.prepareVector r = .ok p) (hnull : r.filter ≠ some .null)
    (hdefect : FilterDefect r.filter)
    (hdistinct : ∀ payload own, s.Asked operations payload → s.vectorPayload? r = some own →
      CacheKey.ofPayload payload = CacheKey.ofPayload own → payload = own)
    (results : List SearchResult) :
    (((s.launch machine operations).run schedule).machine.lookup
      (CacheKey.ofPayload (p.payload r.filter))).1 ≠ some results := by
  intro hfound
  obtain ⟨given, e, hgiven, hrejected⟩ := hdefect
  obtain ⟨-, hstored⟩ := ((s.launch machine operations).run schedule).machine.lookup_cases
    (CacheKey.ofPayload (p.payload r.filter))
  obtain ⟨entry, hentry, hkey, -⟩ := hstored results hfound
  obtain ⟨payload, statement, output, hasked, hkey', hread⟩ := cached_from_read hempty hentry
  have hown : s.vectorPayload? r = some (p.payload r.filter) := by
    simp [vectorPayload?, hp, Except.toOption]
  obtain rfl := hdistinct payload _ hasked hown (hkey'.symm.trans hkey)
  rw [hgiven] at hread hnull
  exact hread.not_rejected (fun h => hnull (by rw [h])) e hrejected

/-- A vector search with a defect is turned down, if nothing is cached for it. -/
theorem vectorSearch_rejected {m : Machine σ} {r : VectorSearchRequest}
    (hdefect : s.VectorDefect r)
    (hcache : ∀ p, s.prepareVector r = .ok p → r.filter ≠ some .null → FilterDefect r.filter →
      ∀ results, (m.lookup (CacheKey.ofPayload (p.payload r.filter))).1 ≠ some results) :
    (s.vectorSearch r).Rejected m := by
  have hruns := (s.vectorSearch r).runs_trace m
  obtain ⟨inner, hrun, houtcome⟩ := vectorSearch_runs hruns
  have hturned : ∃ e, inner = .error e ∧ calls ((s.vectorSearch r).run.trace m) = [] := by
    generalize htrace : (s.vectorSearch r).run.trace m = trace at hrun
    cases hrun with
    | refused => exact ⟨_, rfl, rfl⟩
    | @asked p _ _ hp hmemo =>
      obtain ⟨hnull, hfilter⟩ := hdefect.rejects hp
      have hnearest (statement : TableStatement) : s.nearest p r.filter ≠ .ok statement := by
        obtain ⟨given, e, hgiven, hrejected⟩ := hfilter
        rw [hgiven, nearest_rejects hrejected]
        nofun
      cases hmemo with
      | found results =>
        have hanswer := Program.answer_of_trace htrace
        exact absurd hanswer.symm (hcache p hp hnull hfilter results)
      | failed hread =>
        cases hread with
        | refused => exact ⟨_, rfl, rfl⟩
        | failed hmade => exact absurd hmade (hnearest _)
      | read hread =>
        cases hread with
        | read hmade => exact absurd hmade (hnearest _)
  obtain ⟨e, rfl, hcalls⟩ := hturned
  exact Search.rejected_of_surfaces (vectorSearch_surfaces hruns) houtcome hcalls

theorem nearest_of_valid {p : PreparedVector} {filter : Option Json}
    (hvalid : ¬FilterDefect filter) (hmeasures : s.Measures) :
    ∃ statement, s.nearest p filter = .ok statement := by
  have haccepted : ∃ predicate, readFilter p.table filter = .ok predicate :=
    readFilter_ok_iff.mpr hvalid
  obtain ⟨predicate, hfilter⟩ := haccepted
  obtain ⟨distance, hdistance⟩ := hmeasures.distance p.table p.embedding
  unfold nearest
  rw [hfilter]
  simp only [hdistance, bind, Except.bind]
  exact ⟨_, rfl⟩

/-- The statement that a vector search sends. -/
def Nearest (r : VectorSearchRequest) (x : Exchange) : Prop :=
  ∃ rows answer, rows.table.name = r.table ∧ x = ⟨.execute (.nearest rows) .rows, answer⟩

theorem vectorSearch_callsOnce (m : Machine σ) {r : VectorSearchRequest}
    (hvalid : ¬s.VectorDefect r) :
    (s.vectorSearch r).CallsOnce m (Nearest r) (r.filter ≠ some .null ∧ s.Measures) := by
  obtain ⟨inner, hrun, -⟩ := vectorSearch_runs ((s.vectorSearch r).runs_trace m)
  obtain ⟨p, hp⟩ := prepareVector_of_valid hvalid
  generalize htrace : (s.vectorSearch r).run.trace m = trace at hrun
  cases hrun with
  | refused hrefused => cases hp.symm.trans hrefused
  | asked hasked hmemo =>
    cases hp.symm.trans hasked
    refine Search.callsOnce_of_memo [] htrace rfl (by simp) hmemo ?_ ?_
    · intro statement answer hmade
      unfold nearest at hmade
      obtain ⟨_, -, hmade⟩ := bind_eq_ok hmade
      obtain ⟨_, -, hmade⟩ := bind_eq_ok hmade
      cases hmade
      exact ⟨_, answer, (Catalog.table_eq_ok (prepareVector_table hp)).2, rfl⟩
    · rintro ⟨hnull, hmeasures⟩
      exact nearest_of_valid (fun hdefect => hvalid (.filter hnull hdefect)) hmeasures

/-! ### Hybrid searches -/

theorem HybridDefect.turned_down {r : HybridSearchRequest} (hdefect : s.HybridDefect r)
    {trace : List Exchange} {inner : Except SearchError (List SearchResult)}
    (h : HybridRun s r trace inner) : ∃ e, inner = .error e ∧ calls trace = [] := by
  cases h with
  | limit => exact ⟨_, rfl, rfl⟩
  | weights => exact ⟨_, rfl, rfl⟩
  | refused => exact ⟨_, rfl, rfl⟩
  | asked hlimit defaults hweights hp =>
    have hrejects (h : WeightDefect r.textWeight ∨ WeightDefect r.vectorWeight) : False := by
      obtain ⟨fault, hfault⟩ := combineWeights_rejects h defaults
      cases hfault.symm.trans hweights
    cases hdefect with
    | limit h => exact absurd h (checkLimit_ok_iff.mp ⟨_, hlimit⟩)
    | textWeight h => exact (hrejects (.inl h)).elim
    | vectorWeight h => exact (hrejects (.inr h)).elim
    | subject h => exact absurd hp (h.rejects _)

theorem HybridDefect.rejected {r : HybridSearchRequest} (hdefect : s.HybridDefect r)
    (m : Machine σ) : (s.hybridSearch r).Rejected m := by
  have hruns := (s.hybridSearch r).runs_trace m
  obtain ⟨inner, hrun, houtcome⟩ := hybridSearch_runs hruns
  obtain ⟨e, rfl, hcalls⟩ := hdefect.turned_down hrun
  exact Search.rejected_of_surfaces (hybridSearch_surfaces hruns) houtcome hcalls

theorem candidates_of_measures (h : s.Measures) (p : PreparedHybrid) :
    ∃ statement, s.candidates p = .ok statement := by
  have hdistance : ∃ distance, p.embedding.mapM (s.distance p.table) = .ok distance := by
    cases p.embedding with
    | none => exact ⟨none, rfl⟩
    | some embedding =>
      obtain ⟨distance, hdistance⟩ := h.distance p.table embedding
      refine ⟨some distance, ?_⟩
      change some <$> s.distance p.table embedding = .ok (some distance)
      rw [hdistance]
      rfl
  obtain ⟨distance, hdistance⟩ := hdistance
  unfold candidates
  rw [hdistance]
  exact ⟨_, rfl⟩

/-- The statement that a hybrid search sends. -/
def Candidates (r : HybridSearchRequest) (x : Exchange) : Prop :=
  ∃ rows answer, rows.table.name = r.table ∧ x = ⟨.execute (.candidates rows) .rows, answer⟩

/-- Weights that could be given. -/
def ValidWeights (weights : HybridWeights) : Prop :=
  ¬WeightDefect (some weights.text) ∧ ¬WeightDefect (some weights.vector)

theorem hybridSearch_callsOnce (m : Machine σ) {r : HybridSearchRequest}
    (hvalid : ¬s.HybridDefect r) :
    (s.hybridSearch r).CallsOnce m (Candidates r)
      (s.Measures ∧ ValidWeights m.service.weights) := by
  obtain ⟨inner, hrun, -⟩ := hybridSearch_runs ((s.hybridSearch r).runs_trace m)
  obtain ⟨limit, hlimit⟩ := checkLimit_ok_iff.mpr fun hdefect => hvalid (.limit hdefect)
  generalize htrace : (s.hybridSearch r).run.trace m = trace at hrun
  have hdefaults {defaults : HybridWeights} {rest : List Exchange}
      (h : trace = .weighed defaults :: rest) : defaults = m.service.weights :=
    Program.answer_of_trace (htrace.trans h)
  cases hrun with
  | limit hrefused => cases hlimit.symm.trans hrefused
  | weights _ defaults hrefused =>
    -- the default weights are at fault, since the given ones are not
    refine ⟨.inl (by rw [htrace]; rfl), fun _ _ _ => by rw [htrace]; rfl, ?_⟩
    rintro ⟨-, hweights⟩
    rw [← hdefaults rfl] at hweights
    obtain ⟨weights, hcombined⟩ := combineWeights_of_valid
      (fun hdefect => hvalid (.textWeight hdefect)) (fun hdefect => hvalid (.vectorWeight hdefect))
      hweights.1 hweights.2
    cases hcombined.symm.trans hrefused
  | refused _ defaults _ hrefused =>
    obtain ⟨p, hp⟩ := prepareHybrid_of_valid fun hdefect => hvalid (.subject hdefect)
    cases hp.symm.trans hrefused
  | @asked _ _ p _ _ _ defaults _ hp hmemo =>
    refine Search.callsOnce_of_memo [.weighed defaults] htrace rfl ?_ hmemo ?_ ?_
    · simp [Exchange.isHit, Exchange.weighed]
    · intro statement answer hmade
      unfold candidates at hmade
      obtain ⟨_, -, hmade⟩ := bind_eq_ok hmade
      cases hmade
      exact ⟨_, answer, (Catalog.table_eq_ok (prepareHybrid_eq_ok hp).table).2, rfl⟩
    · rintro ⟨hmeasures, -⟩
      exact candidates_of_measures hmeasures p

/-! ### Writes -/

theorem StoreDefect.turned_down {tableName : String} {items : List EmbeddingItem}
    (hdefect : s.StoreDefect tableName items) {trace : List Exchange}
    {inner : Except SearchError Nat} (h : WriteRun s tableName items trace inner) :
    ∃ e, inner = .error e ∧ calls trace = [] := by
  cases h with
  | table => exact ⟨_, rfl, rfl⟩
  | item => exact ⟨_, rfl, rfl⟩
  | nothing htable hitems => exact absurd hitems (hdefect.rejects htable 0 _)
  | failed htable hitems => exact absurd hitems (hdefect.rejects htable 0 _)
  | written htable hitems => exact absurd hitems (hdefect.rejects htable 0 _)

theorem StoreDefect.rejected {tableName : String} {items : List EmbeddingItem}
    (hdefect : s.StoreDefect tableName items) (m : Machine σ) :
    (s.storeEmbeddings tableName items).Rejected m := by
  have hruns := (s.storeEmbeddings tableName items).runs_trace m
  obtain ⟨inner, hrun, houtcome⟩ := storeEmbeddings_runs hruns
  obtain ⟨e, rfl, hcalls⟩ := hdefect.turned_down hrun
  exact Search.rejected_of_surfaces (storeEmbeddings_surfaces hruns) houtcome hcalls

/-- A write whose items are in order makes one call, with all their statements, if there are any. -/
theorem WriteRun.calls_cases {tableName : String} {items : List EmbeddingItem}
    {trace : List Exchange} {inner : Except SearchError Nat}
    (h : WriteRun s tableName items trace inner) {table : Table}
    (htable : s.catalog.table tableName = .ok table) {statements : List TableStatement}
    (hitems : storeItems table 0 items = .ok statements) :
    (statements = [] ∧ calls trace = []) ∨
      ∃ answer, statements ≠ [] ∧ calls trace = [⟨.executeBatch statements, answer⟩] := by
  cases h with
  | table hrefused => cases htable.symm.trans hrefused
  | item hfound hrefused =>
    cases htable.symm.trans hfound
    cases hitems.symm.trans hrefused
  | nothing hfound hmade =>
    cases htable.symm.trans hfound
    cases hitems.symm.trans hmade
    exact .inl ⟨rfl, rfl⟩
  | failed hfound hmade hsome e =>
    cases htable.symm.trans hfound
    cases hitems.symm.trans hmade
    exact .inr ⟨_, hsome, rfl⟩
  | written hfound hmade hsome affected =>
    cases htable.symm.trans hfound
    cases hitems.symm.trans hmade
    exact .inr ⟨_, hsome, rfl⟩

/-- A write without a defect makes one call, with one statement for each item in the order of the
    items; without items it makes none. -/
theorem storeEmbeddings_callsOnce (m : Machine σ) {tableName : String} {items : List EmbeddingItem}
    (hvalid : ¬s.StoreDefect tableName items) :
    (items = [] ∧ calls ((s.storeEmbeddings tableName items).run.trace m) = []) ∨
      ∃ table statements answer, items ≠ [] ∧ s.catalog.table tableName = .ok table ∧
        List.Forall₂ (Writes table) items statements ∧
        calls ((s.storeEmbeddings tableName items).run.trace m) =
          [⟨.executeBatch statements, answer⟩] := by
  obtain ⟨inner, hrun, -⟩ :=
    storeEmbeddings_runs ((s.storeEmbeddings tableName items).runs_trace m)
  obtain ⟨table, htable⟩ := found_iff.mpr fun hdefect => hvalid (.table hdefect)
  obtain ⟨statements, hstatements⟩ := storeItems_of_valid hvalid htable 0
  have hwrites := storeItems_forall₂ hstatements
  rcases hrun.calls_cases htable hstatements with ⟨rfl, hcalls⟩ | ⟨answer, hsome, hcalls⟩
  · cases hwrites
    exact .inl ⟨rfl, hcalls⟩
  · refine .inr ⟨table, statements, answer, ?_, htable, hwrites, hcalls⟩
    rintro rfl
    cases hwrites
    exact hsome rfl

/-! ### Single requests -/

/-- **Requests fail before storage is touched.**  Take any operations on one machine whose cache is
    empty at first, after any of their steps.  A search or a write with a defect is turned down
    without a call, and one without makes at most one: a search sends its statement unless the
    cache has an answer, and a write sends one statement for each item, all in one batch.  For a
    vector search with a defect, its payload and those that the operations may ask for have
    distinct keys. -/
theorem requests_fail_fast (s : Service) {machine : Machine σ} (hempty : machine.entries = [])
    (operations : Nat → Operation) (schedule : List Nat) :
    let m := ((s.launch machine operations).run schedule).machine
    (∀ r : VectorSearchRequest,
      (s.VectorDefect r →
        (∀ payload own, s.Asked operations payload → s.vectorPayload? r = some own →
          CacheKey.ofPayload payload = CacheKey.ofPayload own → payload = own) →
        (s.vectorSearch r).Rejected m) ∧
      (¬s.VectorDefect r →
        (s.vectorSearch r).CallsOnce m (Nearest r) (r.filter ≠ some .null ∧ s.Measures))) ∧
    (∀ r : HybridSearchRequest,
      (s.HybridDefect r → (s.hybridSearch r).Rejected m) ∧
      (¬s.HybridDefect r →
        (s.hybridSearch r).CallsOnce m (Candidates r)
          (s.Measures ∧ ValidWeights m.service.weights))) ∧
    ∀ (tableName : String) (items : List EmbeddingItem),
      (s.StoreDefect tableName items → (s.storeEmbeddings tableName items).Rejected m) ∧
      (¬s.StoreDefect tableName items →
        (items = [] ∧ calls ((s.storeEmbeddings tableName items).run.trace m) = []) ∨
          ∃ table statements answer, items ≠ [] ∧ s.catalog.table tableName = .ok table ∧
            List.Forall₂ (Writes table) items statements ∧
            calls ((s.storeEmbeddings tableName items).run.trace m) =
              [⟨.executeBatch statements, answer⟩]) := by
  intro m
  refine ⟨fun r => ⟨fun hdefect hdistinct => ?_, vectorSearch_callsOnce m⟩,
    fun r => ⟨fun hdefect => hdefect.rejected m, hybridSearch_callsOnce m⟩,
    fun tableName items => ⟨fun hdefect => hdefect.rejected m, storeEmbeddings_callsOnce m⟩⟩
  apply vectorSearch_rejected hdefect
  intro p hp hnull hfilter results
  exact not_found_of_filterDefect hempty hp hnull hfilter hdistinct results

/-- Requests for notes, after a search whose results are cached: the same search with a filter that
    is a number, a hybrid search with a negative weight, a write under a key that is none, and the
    same search again. -/
theorem requests_fail_fast_notes :
    let m := (notesRun [0, 0, 0]).machine
    notesMachine.entries = [] ∧
      (notesService.vectorSearch (filteredRequest (.ofNat 1))).Rejected m ∧
      (notesService.hybridSearch
        ⟨"notes", "sea", none, none, none, some (-.one), none, some 3⟩).Rejected m ∧
      (notesService.storeEmbeddings "notes"
        [⟨.ofNat 7, .array [.ofNat 1]⟩, ⟨.bool true, .array [.ofNat 1]⟩]).Rejected m ∧
      (notesService.vectorSearch (notesRequest 3)).CallsOnce m (Nearest (notesRequest 3))
        ((notesRequest 3).filter ≠ some .null ∧ notesService.Measures) := by
  intro m
  have hempty : notesMachine.entries = [] := rfl
  obtain ⟨hvector, hhybrid, hstore⟩ :=
    requests_fail_fast notesService hempty writeAmongSearches [0, 0, 0]
  have hfilter : FilterDefect (filteredRequest (.ofNat 1)).filter :=
    ⟨.ofNat 1, ⟨[], .notAnObject⟩, rfl, rfl⟩
  have hkeys : (notesService.vectorPayload? (notesRequest 3)).map CacheKey.ofPayload ≠
      (notesService.vectorPayload? (filteredRequest (.ofNat 1))).map CacheKey.ofPayload := by
    decide +kernel
  have hdistinct (payload own : Json) (hasked : notesService.Asked writeAmongSearches payload)
      (hown : notesService.vectorPayload? (filteredRequest (.ofNat 1)) = some own)
      (hsame : CacheKey.ofPayload payload = CacheKey.ofPayload own) : payload = own := by
    simp [asked_writeAmongSearches hasked, hown, hsame] at hkeys
  have hvalid : ¬notesService.VectorDefect (notesRequest 3) := by
    intro hdefect
    obtain ⟨p, statement, hp, -⟩ := notesRequest_prepared
    obtain ⟨-, given, e, hgiven, -⟩ := hdefect.rejects hp
    cases hgiven
  have hnegative : WeightDefect (some (-.one)) := ⟨-.one, rfl, .inr (by decide +kernel)⟩
  have hkey : notesService.StoreDefect "notes"
      [⟨.ofNat 7, .array [.ofNat 1]⟩, ⟨.bool true, .array [.ofNat 1]⟩] :=
    .key (List.mem_cons_of_mem _ (List.mem_singleton_self _)) rfl
  exact ⟨hempty, (hvector _).1 (.filter nofun hfilter) hdistinct,
    (hhybrid _).1 (.textWeight hnegative), (hstore _ _).1 hkey, (hvector _).2 hvalid⟩

end Service

end KnowledgeSearch
