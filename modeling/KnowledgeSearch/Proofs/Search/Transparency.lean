/-
  KnowledgeSearch/Proofs/Search/Transparency.lean
  ===============================================
  **The cache is transparent.**

  Calls that are made one after another get the same replies with a cache, of any size and
  any time to live and at any times, as without one (`Service.replies_cached`).  Each
  operation is gone through with the rules of `Search.Agrees`; a run of calls follows by
  induction, the machines mirroring each other after every call.  Only a calibration moves
  the weights, and it moves them to finite ones.

  Keys are digests, so the result needs that no two payloads of the run have one digest.
-/
import KnowledgeSearch.Proofs.Search.Memo
import KnowledgeSearch.Proofs.Search.Noninterference

namespace KnowledgeSearch

/-! ### Calls -/

/-- A call of an operation that uses the cache, or that must not be hidden by it. -/
inductive Call where
  | vectorSearch (r : VectorSearchRequest)
  | hybridSearch (r : HybridSearchRequest)
  | multiTableSearch (tables : List String) (r : HybridSearchRequest)
  | storeEmbeddings (table : String) (items : List EmbeddingItem)
  | calibrate (table : String) (samples : List CalibrationSample) (grid : Option (List Single))
      (k : Option UInt32)

inductive Reply where
  | results (outcome : Except SearchError (List SearchResult))
  | tables (outcome : Except SearchError (Keyed (List SearchResult)))
  | written (outcome : Except SearchError Nat)
  | calibrated (outcome : Except SearchError CalibrationReport)

namespace Call

/-- A call without a filter, or with one that is not null. -/
def FilterGiven : Call → Prop
  | vectorSearch r => r.filter ≠ some .null
  | hybridSearch r => r.filter ≠ some .null
  | multiTableSearch _ r => r.filter ≠ some .null
  | _ => True

def run {σ : Type} (s : Service) (m : Machine σ) : Call → Reply × Machine σ
  | vectorSearch r => ((s.vectorSearch r).run.run m).map .results id
  | hybridSearch r => ((s.hybridSearch r).run.run m).map .results id
  | multiTableSearch tables r => ((s.multiTableSearch tables r).run.run m).map .tables id
  | storeEmbeddings table items => ((s.storeEmbeddings table items).run.run m).map .written id
  | calibrate table samples grid k =>
    ((s.calibrate table samples grid k).run.run m).map .calibrated id

end Call

namespace Service

variable (s : Service)

/-- The payload of a vector search, if the search is in order. -/
def vectorPayload? (r : VectorSearchRequest) : Option Json :=
  (s.prepareVector r).toOption.map fun p => p.payload r.filter

/-- The payload of a hybrid search with the given default weights, if the search is in
    order. -/
def hybridPayload? (defaults : HybridWeights) (r : HybridSearchRequest) : Option Json :=
  Except.toOption do
    let limit ← s.checkLimit r.limit
    let weights ← combineWeights defaults r.textWeight r.vectorWeight
    let p ← s.prepareHybrid r.table r.query r.embedding r.textFields r.filter
    pure (p.payload r.filter weights limit)

/-- The payloads with which a call may ask the cache. -/
def callPayloads (defaults : HybridWeights) : Call → List Json
  | .vectorSearch r => (s.vectorPayload? r).toList
  | .hybridSearch r => (s.hybridPayload? defaults r).toList
  | .multiTableSearch tables r =>
    tables.flatMap fun table => (s.hybridPayload? defaults { r with table }).toList
  | _ => []

/-- The replies to calls that are made one after another. -/
def replies {σ : Type} : List Call → Machine σ → List Reply
  | [], _ => []
  | call :: calls, m => (call.run s m).1 :: replies calls (call.run s m).2

/-- The payloads of calls that are made one after another. -/
def payloads {σ : Type} : List Call → Machine σ → List Json
  | [], _ => []
  | call :: calls, m =>
    s.callPayloads m.service.weights call ++ payloads calls (call.run s m).2

/-! ### Operations -/

theorem vectorSearch_eq_memo (r : VectorSearchRequest) : s.vectorSearch r =
    Search.within ("Vector search on " ++ describe r.table r.limit r.filter) (do
      let p ← Search.ofExcept (s.prepareVector r)
      Search.memo (p.payload r.filter) p.table.name (s.readNearest p r.filter)) := by
  unfold vectorSearch Search.memo
  refine congrArg _ (bind_congr fun p => bind_congr fun found => ?_)
  cases found with
  | some results => rfl
  | none => simp only [readNearest, bind_assoc, pure_bind]

theorem hybridSearch_eq_memo (r : HybridSearchRequest) : s.hybridSearch r =
    Search.within ("Hybrid search on " ++ describe r.table r.limit r.filter) (do
      let limit ← Search.ofExcept (s.checkLimit r.limit)
      let weights ← resolveWeights r.textWeight r.vectorWeight
      let p ← Search.ofExcept
        (s.prepareHybrid r.table r.query r.embedding r.textFields r.filter)
      Search.memo (p.payload r.filter weights limit) p.table.name
        (s.readRanked p weights limit)) := by
  unfold hybridSearch Search.memo
  refine congrArg _ (bind_congr fun limit => bind_congr fun weights => bind_congr fun p =>
    bind_congr fun found => ?_)
  cases found with
  | some results => rfl
  | none => simp only [readRanked, bind_assoc, pure_bind]

variable {s} {asked : List Json} {weights : HybridWeights}

theorem vectorSearch_agrees {r : VectorSearchRequest} (hgiven : r.filter ≠ some .null)
    (hasked : ∀ payload ∈ s.vectorPayload? r, payload ∈ asked)
    (hdistinct : CacheKey.Distinct asked) :
    (s.vectorSearch r).Agrees s asked weights fun _ after => after = weights := by
  rw [vectorSearch_eq_memo]
  apply Search.Agrees.within
  apply Search.Agrees.check
  intro p hp
  have hmem : p.payload r.filter ∈ asked := by
    apply hasked
    simp [vectorPayload?, hp, Except.toOption]
  exact Search.agrees_memo (.vector (table_own_name (prepareVector_table hp)) hgiven) hmem hdistinct

theorem combineWeights_finite {text vector : Option Single} {combined : HybridWeights}
    (hfinite : weights.Finite) (h : combineWeights weights text vector = .ok combined) :
    combined.Finite := by
  unfold combineWeights at h
  split at h
  · cases h
    exact hfinite
  · exact HybridWeights.normalized_finite h

theorem hybridSearch_agrees {r : HybridSearchRequest} (hfinite : weights.Finite)
    (hgiven : r.filter ≠ some .null)
    (hasked : ∀ payload ∈ s.hybridPayload? weights r, payload ∈ asked)
    (hdistinct : CacheKey.Distinct asked) :
    (s.hybridSearch r).Agrees s asked weights fun _ after => after = weights := by
  rw [hybridSearch_eq_memo]
  apply Search.Agrees.within
  apply Search.Agrees.check
  intro limit hlimit
  have hweights : (resolveWeights r.textWeight r.vectorWeight).Agrees s asked weights
      fun combined after =>
        combineWeights weights r.textWeight r.vectorWeight = .ok combined ∧ after = weights := by
    apply Search.agrees_defaultWeights.bind
    rintro defaults after ⟨rfl, rfl⟩
    exact Search.agrees_ofExcept _
  apply hweights.bind
  rintro combined after ⟨hcombined, rfl⟩
  apply Search.Agrees.check
  intro p hp
  have hmade := prepareHybrid_eq_ok hp
  have hmem : p.payload r.filter combined limit ∈ asked := by
    apply hasked
    simp only [hybridPayload?, hlimit, hcombined, hp]
    rfl
  exact Search.agrees_memo
    (.hybrid (table_own_name hmade.table) hgiven hmade.filter
      (combineWeights_finite hfinite hcombined)) hmem hdistinct

/-- Searching tables one after another keeps agreeing, since no search moves the weights. -/
theorem searchTables_agrees {r : HybridSearchRequest} {tables : List String}
    (hfinite : weights.Finite) (hgiven : r.filter ≠ some .null)
    (hasked : ∀ table ∈ tables, ∀ payload ∈ s.hybridPayload? weights { r with table },
      payload ∈ asked)
    (hdistinct : CacheKey.Distinct asked) (found : Keyed (List SearchResult)) :
    (s.searchTables r tables found).Agrees s asked weights fun _ after => after = weights := by
  induction tables generalizing found with
  | nil => exact Search.agrees_pure rfl
  | cons table tables ih =>
    have htable : (s.hybridSearch { r with table }).Agrees s asked weights
        fun _ after => after = weights :=
      hybridSearch_agrees hfinite hgiven (hasked table List.mem_cons_self) hdistinct
    apply htable.bind
    rintro results after rfl
    exact ih (fun t ht => hasked t (List.mem_cons_of_mem _ ht)) _

theorem multiTableSearch_agrees {r : HybridSearchRequest} {tables : List String}
    (hfinite : weights.Finite) (hgiven : r.filter ≠ some .null)
    (hasked : ∀ table ∈ tables, ∀ payload ∈ s.hybridPayload? weights { r with table },
      payload ∈ asked)
    (hdistinct : CacheKey.Distinct asked) :
    (s.multiTableSearch tables r).Agrees s asked weights fun _ after => after = weights := by
  unfold multiTableSearch
  split
  · exact (Search.agrees_ofExcept _).mono fun _ _ h => h.2
  · exact searchTables_agrees hfinite hgiven hasked hdistinct []

theorem storeEmbeddings_agrees (tableName : String) (items : List EmbeddingItem) :
    (s.storeEmbeddings tableName items).Agrees s asked weights
      fun _ after => after = weights := by
  unfold storeEmbeddings
  apply Search.Agrees.within
  apply Search.Agrees.check
  intro table _
  cases hitems : storeItems table 0 items with
  | error e => exact fun _ _ _ hmirrors => ⟨rfl, weights, hmirrors, fun _ _ => rfl⟩
  | ok statements =>
    have hrest : (if statements.isEmpty then pure 0
        else do
          let affected ← Search.batch statements
          Search.invalidate table.name
          pure affected : Search Nat).Agrees s asked weights fun _ after => after = weights := by
      split
      · exact Search.agrees_pure rfl
      · apply Search.agrees_write
        intro statement hmem
        obtain ⟨key, embedding, rfl⟩ := storeItems_eq_ok hitems statement hmem
        rfl
    exact hrest

theorem fetchSamples_agrees (table : String) (samples : List CalibrationSample) (position : Nat) :
    (s.fetchSamples table position samples).Agrees s asked weights
      fun _ after => after = weights := by
  induction samples generalizing position with
  | nil => exact Search.agrees_pure rfl
  | cons sample samples ih =>
    have hsample : (s.fetchSample table sample).Agrees s asked weights
        fun _ after => after = weights := by
      apply Search.Agrees.check
      intro p _
      exact ((s.reads_fetchCandidates p).bind fun _ => Search.reads_pure _ _).agrees
    apply (hsample.within _).bind
    rintro fetched after rfl
    apply (ih (position + 1)).bind
    rintro others after rfl
    exact Search.agrees_pure rfl

end Service

/-! ### Calibration -/

theorem CalibrationPoint.best_mem (first : CalibrationPoint) (others : List CalibrationPoint) :
    best first others ∈ first :: others := by
  induction others generalizing first with
  | nil => exact List.mem_singleton_self _
  | cons point others ih =>
    have hbest := ih (if first.f1.lt point.f1 then point else first)
    change best first (point :: others) ∈ _ at hbest
    rcases List.mem_cons.mp hbest with h | h
    · rw [h]
      split <;> simp
    · exact List.mem_cons_of_mem _ (List.mem_cons_of_mem _ h)

namespace Service

variable {s : Service} {asked : List Json} {weights : HybridWeights}

/-- The weights that a calibration tries are numbers. -/
theorem points_finite {table : String} {k : Nat} {samples : List FetchedSample}
    {grid : List Single} {points : List CalibrationPoint}
    (h : grid.mapM (FetchedSample.point table k samples) = .ok points) :
    ∀ point ∈ points, point.weights.Finite := by
  induction grid generalizing points with
  | nil =>
    cases h
    intro point hpoint
    cases hpoint
  | cons weight grid ih =>
    rw [List.mapM_cons] at h
    obtain ⟨first, hfirst, h⟩ := bind_eq_ok h
    obtain ⟨others, hothers, h⟩ := bind_eq_ok h
    cases h
    intro point hpoint
    rcases List.mem_cons.mp hpoint with rfl | hpoint
    · unfold FetchedSample.point at hfirst
      obtain ⟨weights, hweights, hfirst⟩ := bind_eq_ok hfirst
      cases hfirst
      exact HybridWeights.normalized_finite hweights
    · exact ih hothers point hpoint

theorem calibrate_agrees (table : String) (samples : List CalibrationSample)
    (grid : Option (List Single)) (k : Option UInt32) :
    (s.calibrate table samples grid k).Agrees s asked weights fun _ _ => True := by
  unfold calibrate
  apply Search.Agrees.check
  intro _ _
  apply (fetchSamples_agrees table samples 0).bind
  rintro fetched after rfl
  apply Search.Agrees.check
  intro points hpoints
  cases points with
  | nil => exact (Search.agrees_ofExcept _).mono fun _ _ _ => trivial
  | cons first others =>
    have hfinite : (CalibrationPoint.best first others).weights.Finite :=
      points_finite hpoints _ (CalibrationPoint.best_mem first others)
    apply (Search.agrees_setDefaultWeights hfinite).bind
    exact fun _ _ _ => Search.agrees_pure trivial

/-! ### Runs -/

theorem run_mirrors {σ : Type} {call : Call} (hgiven : call.FilterGiven)
    (hasked : ∀ payload ∈ s.callPayloads weights call, payload ∈ asked)
    (hdistinct : CacheKey.Distinct asked) {cached plain : Machine σ}
    (hmirrors : s.Mirrors asked weights cached plain) :
    (call.run s cached).1 = (call.run s plain).1 ∧
      ∃ after, s.Mirrors asked after (call.run s cached).2 (call.run s plain).2 := by
  have hfinite := hmirrors.finite
  have reply_of {α : Type} {search : Search α} {returns : α → HybridWeights → Prop}
      (h : search.Agrees s asked weights returns) (reply : Except SearchError α → Reply) :
      reply (search.run.run cached).1 = reply (search.run.run plain).1 ∧
        ∃ after, s.Mirrors asked after (search.run.run cached).2 (search.run.run plain).2 := by
    obtain ⟨houtcome, after, hafter, -⟩ := h σ cached plain hmirrors
    exact ⟨congrArg reply houtcome, after, hafter⟩
  cases call with
  | vectorSearch r =>
    exact reply_of (vectorSearch_agrees hgiven (by simpa [callPayloads] using hasked) hdistinct) _
  | hybridSearch r =>
    exact reply_of
      (hybridSearch_agrees hfinite hgiven (by simpa [callPayloads] using hasked) hdistinct) _
  | multiTableSearch tables r =>
    refine reply_of (multiTableSearch_agrees hfinite hgiven ?_ hdistinct) _
    intro table htable payload hpayload
    apply hasked
    exact List.mem_flatMap.mpr ⟨table, htable, Option.mem_toList.mpr hpayload⟩
  | storeEmbeddings table items => exact reply_of (storeEmbeddings_agrees table items) _
  | calibrate table samples grid k => exact reply_of (calibrate_agrees table samples grid k) _

theorem replies_mirrors {σ : Type} {calls : List Call} (hgiven : ∀ call ∈ calls, call.FilterGiven)
    {cached plain : Machine σ} (hasked : ∀ payload ∈ s.payloads calls plain, payload ∈ asked)
    (hdistinct : CacheKey.Distinct asked) (hmirrors : s.Mirrors asked weights cached plain) :
    s.replies calls cached = s.replies calls plain := by
  induction calls generalizing weights cached plain with
  | nil => rfl
  | cons call calls ih =>
    simp only [payloads, List.mem_append, hmirrors.plainWeights] at hasked
    have hcall : call.FilterGiven := hgiven call List.mem_cons_self
    obtain ⟨hreply, after, hafter⟩ :=
      run_mirrors hcall (fun payload h => hasked payload (Or.inl h)) hdistinct hmirrors
    have hrest := ih (fun c hc => hgiven c (List.mem_cons_of_mem _ hc))
      (fun payload h => hasked payload (Or.inr h)) hafter
    simp only [replies, hreply, hrest]

end Service

/-- A machine that nothing was asked of yet. -/
def Machine.start {σ : Type} (backend : Backend σ) (database : σ) (clock : Nat → Instant)
    (state : ServiceState) : Machine σ :=
  ⟨backend, database, state, clock, 0⟩

theorem Service.mirrors_start {s : Service} {asked : List Json} {σ : Type} {backend : Backend σ}
    (hlawful : backend.Lawful) {state : ServiceState} (hfinite : state.weights.Finite)
    (database : σ) (clock : Nat → Instant) (ttl maxEntries : Nat) :
    s.Mirrors asked state.weights
      (.start backend database clock { state with cache := some (.empty ttl maxEntries) })
      (.start backend database clock { state with cache := none }) where
  lawful := hlawful
  backend := rfl
  database := rfl
  cachedWeights := rfl
  plainWeights := rfl
  finite := hfinite
  off := rfl
  fresh := fun _ hentry => nomatch hentry

/-- **The cache is transparent.**  Take a database that only successful transactions change,
    each of them for its own table.  Calls that are made one after another, their filters
    missing or not null, get the same replies with a cache as without one, whatever its size
    and its time to live and whenever they are made, if the payloads of the run have distinct
    keys. -/
theorem Service.replies_cached (s : Service) {σ : Type} {backend : Backend σ}
    (hlawful : backend.Lawful) {state : ServiceState}
    (hstate : ServiceState.initial s.config = .ok state) (database : σ) (clock : Nat → Instant)
    (ttl maxEntries : Nat) {calls : List Call} (hgiven : ∀ call ∈ calls, call.FilterGiven)
    (hdistinct : CacheKey.Distinct
      (s.payloads calls (.start backend database clock { state with cache := none }))) :
    s.replies calls
        (.start backend database clock { state with cache := some (.empty ttl maxEntries) }) =
      s.replies calls (.start backend database clock { state with cache := none }) := by
  have hfinite : state.weights.Finite := by
    unfold ServiceState.initial at hstate
    obtain ⟨weights, hweights, hstate⟩ := bind_eq_ok hstate
    cases hstate
    exact HybridWeights.normalized_finite hweights
  exact replies_mirrors hgiven (fun _ => id) hdistinct
    (mirrors_start hlawful hfinite database clock ttl maxEntries)

/-- A database of one note, whose key counts the transactions on notes. -/
def notesBackend : Backend Nat where
  execute statement _ d :=
    (.ok (.rows (if statement.tableName? = some "notes" then
      [[("distance", .ofNat 0), ("id", .ofNat d)]] else [])), d)
  executeBatch statements d :=
    if statements.any fun statement => statement.tableName? = some "notes" then
      (.ok statements.length, d + 1)
    else (.error (.config "no notes"), d)

theorem notesBackend_lawful : notesBackend.Lawful where
  executed _ _ _ := rfl
  failed statements d e h := by
    unfold notesBackend at h ⊢
    dsimp only at h ⊢
    split at h
    · cases h
    · rename_i hnone
      rw [if_neg hnone]
  apart table statements d hwritten statement mode hname := by
    by_cases hnotes : statement.tableName? = some "notes"
    · have hnone : (statements.any fun written => written.tableName? = some "notes") = false := by
        rw [List.any_eq_false]
        intro written hmem
        rw [hwritten written hmem, ← hnotes]
        simpa using Ne.symm hname
      have hkept : (notesBackend.executeBatch statements d).2 = d := by
        simp only [notesBackend, hnone]
        rfl
      rw [hkept]
    · simp [notesBackend, hnotes]

/-- A search for the note nearest to an embedding. -/
def notesRequest (limit : Int64) : VectorSearchRequest :=
  ⟨"notes", .array [.ofNat 1], none, some limit⟩

/-- A search that is repeated, before and after a write, and one with another limit. -/
def notesCalls : List Call :=
  [.vectorSearch (notesRequest 3), .vectorSearch (notesRequest 3),
    .storeEmbeddings "notes" [⟨.ofNat 7, .array [.ofNat 1]⟩], .vectorSearch (notesRequest 3),
    .vectorSearch (notesRequest 5)]

/-- Searches for notes get the same replies from a cache that has room for one result. -/
theorem Service.replies_cached_notes :
    ∃ state, ServiceState.initial notesService.config = .ok state ∧ notesBackend.Lawful ∧
      (∀ call ∈ notesCalls, call.FilterGiven) ∧
      CacheKey.Distinct (notesService.payloads notesCalls
        (.start notesBackend 0 id { state with cache := none })) ∧
      notesService.replies notesCalls
          (.start notesBackend 0 id { state with cache := some (.empty 1000 1) }) =
        notesService.replies notesCalls (.start notesBackend 0 id { state with cache := none }) := by
  have hstate : ServiceState.initial notesService.config = .ok ⟨none, ⟨.half, .half⟩⟩ := by
    rfl
  have hgiven : ∀ call ∈ notesCalls, call.FilterGiven := by
    simp [notesCalls, notesRequest, Call.FilterGiven]
  have hkeys : (notesService.vectorPayload? (notesRequest 3)).map CacheKey.ofPayload ≠
      (notesService.vectorPayload? (notesRequest 5)).map CacheKey.ofPayload := by
    decide +kernel
  have hdistinct : CacheKey.Distinct (notesService.payloads notesCalls
      (.start notesBackend 0 id ⟨none, ⟨.half, .half⟩⟩)) := by
    intro a ha b hb hab
    simp only [notesCalls, payloads, callPayloads, List.mem_append, Option.mem_toList,
      List.not_mem_nil, false_or, or_false, or_self_left] at ha hb
    rcases ha with ha | ha <;> rcases hb with hb | hb
    · exact Option.some.inj (ha.symm.trans hb)
    · simp [ha, hb, hab] at hkeys
    · simp [ha, hb, hab] at hkeys
    · exact Option.some.inj (ha.symm.trans hb)
  exact ⟨_, hstate, notesBackend_lawful, hgiven, hdistinct,
    Service.replies_cached notesService notesBackend_lawful hstate 0 id 1000 1 hgiven hdistinct⟩

end KnowledgeSearch
