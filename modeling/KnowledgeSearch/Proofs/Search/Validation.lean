/-
  KnowledgeSearch/Proofs/Search/Validation.lean
  =============================================
  **Filters that are rejected.**

  A vector search asks the cache before it reads its filter, so that a filter which would be
  rejected is rejected rests on the cache: nothing may be stored under the key of such a
  search.  Whatever is stored was read for a filter that was accepted, and a payload tells its
  filter (`Service.vectorSearch_rejects`), with one exception.  A filter that is null has the
  payload of a missing one, so it is rejected or answered as the cache happens to be
  (`Service.vectorSearch_null`).  A hybrid search reads its filter first and rejects it on any
  machine (`Service.hybridSearch_rejects`).
-/
import KnowledgeSearch.Proofs.Search.Staleness

namespace KnowledgeSearch.Service

variable {σ : Type} {s : Service}

theorem readFilter_rejects {table : Table} {filter : Json} {e : FilterError}
    (h : Predicate.ofJson filter = .error e) :
    readFilter table (some filter) = .error (.filter e) := by
  simp only [readFilter, Predicate.ofFilter, h]

theorem nearest_rejects {p : PreparedVector} {filter : Json} {e : FilterError}
    (h : Predicate.ofJson filter = .error e) : s.nearest p (some filter) = .error (.filter e) := by
  unfold nearest
  rw [readFilter_rejects h]
  rfl

/-- Results are read for a vector search only with a filter that is accepted. -/
theorem ReadAs.not_rejected {p : PreparedVector} {filter : Json} {table : String}
    {statement : TableStatement} {output : QueryOutput} {results : List SearchResult}
    (h : s.ReadAs (p.payload (some filter)) table statement output results)
    (hnull : filter ≠ .null) (e : FilterError) : Predicate.ofJson filter ≠ .error e := by
  intro hrejected
  generalize hpayload : p.payload (some filter) = payload at h
  cases h with
  | @vector q filter' _ made =>
    simp only [PreparedVector.payload_eq, Json.object.injEq, List.cons.injEq, Prod.mk.injEq,
      true_and, and_true] at hpayload
    have hfilter : filter = filter'.getD .null := hpayload.2.1
    cases filter' with
    | none => exact hnull hfilter
    | some given =>
      obtain rfl : filter = given := hfilter
      rw [nearest_rejects hrejected] at made
      cases made
  | hybrid => simp [PreparedVector.payload_eq, PreparedHybrid.payload_eq] at hpayload

/-- **A cache hit does not bypass validation, but for null.**  Take any operations on one
    machine whose cache is empty at first, after any of their steps.  A vector search whose filter
    is not null and is rejected ends with an error, in its context: the filter's, or that of a
    table, a limit or an embedding that is out of order.  The payloads that the operations and the
    search may ask for have distinct keys. -/
theorem vectorSearch_rejects (s : Service) (machine : Machine σ) (hempty : machine.entries = [])
    (operations : Nat → Operation) (schedule : List Nat) {r : VectorSearchRequest} {filter : Json}
    (hfilter : r.filter = some filter) (hnull : filter ≠ .null) {e : FilterError}
    (hrejected : Predicate.ofJson filter = .error e)
    (hdistinct : Set.InjOn CacheKey.ofPayload
      {payload | s.Asked operations payload ∨ (Call.vectorSearch r).MayAsk s payload}) :
    ∃ fault : SearchFault, (s.prepareVector r = .error fault ∨ fault = .filter e) ∧
      ((s.vectorSearch r).run.run ((s.launch machine operations).run schedule).machine).1 =
        .error (SearchError.inContext fault
          ("Vector search on " ++ describe r.table r.limit r.filter)) := by
  rw [vectorSearch_eq_memo, Search.run_within]
  cases hp : s.prepareVector r with
  | error fault => exact ⟨fault, .inl rfl, rfl⟩
  | ok p =>
    refine ⟨.filter e, .inr rfl, ?_⟩
    have hasked : (Call.vectorSearch r).MayAsk s (p.payload r.filter) := by
      rw [Call.mayAsk_vectorSearch, vectorPayload?, hp]
      rfl
    have hmemo (m : Machine σ) : (do
        let p ← Search.ofExcept (.ok p)
        Search.memo (p.payload r.filter) p.table.name (s.readNearest p r.filter) :
          Search (List SearchResult)).run.run m =
        (Search.memo (p.payload r.filter) p.table.name (s.readNearest p r.filter)).run.run m := rfl
    rw [hmemo, Search.run_memo]
    obtain ⟨-, hstored⟩ := ((s.launch machine operations).run schedule).machine.lookup_cases
      (CacheKey.ofPayload (p.payload r.filter))
    generalize ((s.launch machine operations).run schedule).machine.lookup
      (CacheKey.ofPayload (p.payload r.filter)) = found at hstored
    obtain ⟨_ | results, m⟩ := found
    · have hread : (s.readNearest p r.filter).run.run m =
          (.error (SearchFault.filter e), m) := by
        unfold readNearest
        rw [hfilter, nearest_rejects hrejected]
        rfl
      dsimp only
      rw [hread]
      rfl
    · -- what is found was read for the same payload, so its filter was accepted
      obtain ⟨entry, hentry, hkey, -⟩ := hstored results rfl
      obtain ⟨payload, statement, output, hpayload, hkey', hmade⟩ :=
        cached_from_read hempty hentry
      obtain rfl : payload = p.payload r.filter :=
        hdistinct (.inl hpayload) (.inr hasked) (hkey'.symm.trans hkey)
      rw [hfilter] at hmade
      exact absurd hrejected (hmade.not_rejected hnull e)

/-- A hybrid search whose filter is rejected, null or not, fails on any machine. -/
theorem hybridSearch_rejects {r : HybridSearchRequest} {filter : Json}
    (hfilter : r.filter = some filter) {e : FilterError}
    (hrejected : Predicate.ofJson filter = .error e) (m : Machine σ) :
    ∃ error, ((s.hybridSearch r).run.run m).1 = .error error := by
  rw [hybridSearch_eq_memo, Search.run_within]
  cases s.checkLimit r.limit with
  | error fault => exact ⟨_, rfl⟩
  | ok limit =>
    rw [Search.run_bind]
    have hlimit : (Search.ofExcept (.ok limit)).run.run m = (.ok limit, m) := rfl
    rw [hlimit]
    dsimp only
    rw [Search.run_bind]
    rcases (resolveWeights r.textWeight r.vectorWeight).run.run m with ⟨_ | weights, m'⟩
    · exact ⟨_, rfl⟩
    · cases hp : s.prepareHybrid r.table r.query r.embedding r.textFields r.filter with
      | error fault => exact ⟨_, rfl⟩
      | ok p =>
        have hread := (prepareHybrid_eq_ok hp).filter
        rw [hfilter, readFilter_rejects hrejected] at hread
        cases hread

/-! ### Searches for notes with a filter -/

def filteredRequest (filter : Json) : VectorSearchRequest :=
  { notesRequest 3 with filter := some filter }

/-- A filter that is a number is rejected after a search without a filter. -/
theorem vectorSearch_rejects_number :
    Predicate.ofJson (.ofNat 1) = .error ⟨[], .notAnObject⟩ ∧
      ∃ fault : SearchFault,
        (notesService.prepareVector (filteredRequest (.ofNat 1)) = .error fault ∨
          fault = .filter ⟨[], .notAnObject⟩) ∧
        ((notesService.vectorSearch (filteredRequest (.ofNat 1))).run.run
          (notesRun [0, 0, 0]).machine).1 =
          .error (SearchError.inContext fault ("Vector search on " ++
            describe "notes" (some 3) (some (.ofNat 1)))) := by
  have hrejected : Predicate.ofJson (.ofNat 1) = .error ⟨[], .notAnObject⟩ := rfl
  have hkeys : (notesService.vectorPayload? (notesRequest 3)).map CacheKey.ofPayload ≠
      (notesService.vectorPayload? (filteredRequest (.ofNat 1))).map CacheKey.ofPayload := by
    decide +kernel
  have hdistinct : Set.InjOn CacheKey.ofPayload
      {payload | notesService.Asked writeAmongSearches payload ∨
        (Call.vectorSearch (filteredRequest (.ofNat 1))).MayAsk notesService payload} := by
    intro a ha b hb hab
    rcases ha with ha | ha <;> rcases hb with hb | hb
    · exact Option.some.inj ((asked_writeAmongSearches ha).symm.trans (asked_writeAmongSearches hb))
    · simp [asked_writeAmongSearches ha, Call.mayAsk_vectorSearch.mp hb, hab] at hkeys
    · simp [Call.mayAsk_vectorSearch.mp ha, asked_writeAmongSearches hb, hab] at hkeys
    · exact Option.some.inj
        ((Call.mayAsk_vectorSearch.mp ha).symm.trans (Call.mayAsk_vectorSearch.mp hb))
  have hnull : Json.ofNat 1 ≠ .null := nofun
  exact ⟨hrejected, vectorSearch_rejects notesService notesMachine rfl writeAmongSearches [0, 0, 0]
    rfl hnull hrejected hdistinct⟩

/-- **A filter that is null is rejected, unless the cache has an answer.**  On a machine whose
    cache is empty a search for notes with it fails; after a search without a filter it gives
    what that one has found. -/
theorem vectorSearch_null :
    (∃ e, Predicate.ofJson .null = .error e) ∧
      (∃ error, ((notesService.vectorSearch (filteredRequest .null)).run.run notesMachine).1 =
        .error error) ∧
      ((notesService.vectorSearch (filteredRequest .null)).run.run
        (notesRun [0, 0, 0]).machine).1 = .ok (noteResults 0) := by
  obtain ⟨p, statement, written, failed, failed', hp, hname, hname', hsearch, hwrite⟩ :=
    writeAmongSearches_steps
  obtain ⟨hread, -⟩ := notesBackend_answers hname hname'
  have hprepared : notesService.prepareVector (filteredRequest .null) = .ok p := hp
  have hrun (m : Machine Nat) :
      ((notesService.vectorSearch (filteredRequest .null)).run.run m).1 =
        inContext ("Vector search on " ++ describe "notes" (some 3) (some .null))
          ((Search.memo (p.payload none) p.table.name
            (notesService.readNearest p (some .null))).run.run m).1 := by
    rw [vectorSearch_eq_memo, Search.run_within, hprepared]
    rfl
  refine ⟨⟨_, rfl⟩, ?_, ?_⟩
  · rw [hrun, Search.run_memo]
    exact ⟨_, rfl⟩
  · rw [hrun, Search.run_memo]
    have hfound : ((notesRun [0, 0, 0]).machine.lookup (CacheKey.ofPayload (p.payload none))).1 =
        some (noteResults 0) := by
      simp [notesRun, Execution.run, Execution.step, Execution.start, Service.launch, hsearch,
        searchSteps, Function.update, Machine.perform, Machine.lookup, Machine.store,
        notesMachine, Machine.start, hread, noteResults, Cache.empty, Cache.get?, Cache.find?,
        Cache.put, Cache.without, Cache.makeRoom]
    generalize (notesRun [0, 0, 0]).machine.lookup (CacheKey.ofPayload (p.payload none)) =
      found at hfound ⊢
    obtain ⟨results, m⟩ := found
    obtain rfl : results = some (noteResults 0) := hfound
    rfl

end KnowledgeSearch.Service
