/-
  KnowledgeSearch/Proofs/Search/OperationRun.lean
  ===============================================
  **The runs of the operations.**

  Each operation is gone through once, and all that it can do is written down: which check
  turns a request down and after what, where the cache or the database is asked, and what is
  done with the answer.  Whatever is said of an operation's trace and its outcome follows from
  its runs by cases (`VectorRun`, `HybridRun`, `WriteRun`, `CalibrationRun`), and searches of
  several tables and of several samples are parts that run in turn.
-/
import KnowledgeSearch.Proofs.Search.Provenance
import KnowledgeSearch.Proofs.Search.Run

namespace KnowledgeSearch

namespace Search

variable {α β : Type} {trace : List Exchange}

/-! ### Reading -/

/-- Runs that make a statement, and send it once if there is one. -/
inductive ReadRun (made : Except SearchFault TableStatement) (mode : FetchMode)
    (give : List Row → α) : List Exchange → Except SearchError α → Prop where
  | refused {fault : SearchFault} (h : made = .error fault) :
      ReadRun made mode give [] (.error fault)
  | failed {statement : TableStatement} (h : made = .ok statement) (e : StorageError) :
      ReadRun made mode give [⟨.execute statement mode, .error e⟩] (.error (SearchFault.storage e))
  | read {statement : TableStatement} (h : made = .ok statement) (output : QueryOutput) :
      ReadRun made mode give [⟨.execute statement mode, .ok output⟩] (.ok (give output.toRows))

variable {made : Except SearchFault TableStatement} {mode : FetchMode} {give : List Row → α}

theorem Runs.read_cases {outcome : Except SearchError α}
    (h : (do
      let statement ← ofExcept made
      let rows ← rows statement mode
      pure (give rows) : Search α).Runs trace outcome) : ReadRun made mode give trace outcome := by
  rcases h.check_cases with ⟨fault, hmade, rfl, rfl⟩ | ⟨statement, hmade, h⟩
  · exact .refused hmade
  · cases h with
    | @act _ _ answer rest _ h =>
      cases answer with
      | error e =>
        cases h
        exact .failed hmade e
      | ok output =>
        cases h
        exact .read hmade output

/-- What is made of rows that were read. -/
theorem ReadRun.then_pure {search : Search α} {f : α → β} {outcome : Except SearchError β}
    (hsearch : ∀ trace outcome, search.Runs trace outcome → ReadRun made mode give trace outcome)
    (h : (search >>= fun value => pure (f value)).Runs trace outcome) :
    ReadRun made mode (fun rows => f (give rows)) trace outcome := by
  rcases h.bind_cases with ⟨e, hread, rfl⟩ | ⟨early, late, value, rfl, hread, hpure⟩
  · cases hsearch _ _ hread with
    | refused hmade => exact .refused hmade
    | failed hmade e => exact .failed hmade e
  · obtain ⟨rfl, rfl⟩ := hpure.pure_eq
    rw [List.append_nil]
    cases hsearch _ _ hread with
    | read hmade output => exact .read hmade output

/-! ### Asking the cache first -/

/-- Runs that look a key up; what is not found is read and stored. -/
inductive MemoRun (key table : String)
    (reads : List Exchange → Except SearchError (List SearchResult) → Prop) :
    List Exchange → Except SearchError (List SearchResult) → Prop where
  | found (results : List SearchResult) : MemoRun key table reads [.found key results] (.ok results)
  | failed {trace : List Exchange} {e : SearchError} (h : reads trace (.error e)) :
      MemoRun key table reads (.missed key :: trace) (.error e)
  | read {trace : List Exchange} {results : List SearchResult} (h : reads trace (.ok results)) :
      MemoRun key table reads (.missed key :: (trace ++ [.stored key table results])) (.ok results)

theorem Runs.memo_cases {payload : Json} {table : String} {search : Search (List SearchResult)}
    {reads : List Exchange → Except SearchError (List SearchResult) → Prop}
    {outcome : Except SearchError (List SearchResult)}
    (hsearch : ∀ trace outcome, search.Runs trace outcome → reads trace outcome)
    (h : (memo payload table search).Runs trace outcome) :
    MemoRun (CacheKey.ofPayload payload) table reads trace outcome := by
  obtain ⟨found, rest, rfl, hfound⟩ := Runs.asks_cases (.lookup (CacheKey.ofPayload payload)) id h
  cases found with
  | some results =>
    obtain ⟨rfl, rfl⟩ := Runs.pure_eq hfound
    exact .found results
  | none =>
    rcases Runs.bind_cases hfound with ⟨e, hread, rfl⟩ | ⟨early, late, results, rfl, hread, hlater⟩
    · exact .failed (hsearch _ _ hread)
    · obtain ⟨_, rest, rfl, hpure⟩ := Runs.asks_cases
        (.store (CacheKey.ofPayload payload) table results) (fun _ => ()) hlater
      obtain ⟨rfl, rfl⟩ := hpure.pure_eq
      exact .read (hsearch _ _ hread)

end Search

namespace Service

open Search (ReadRun MemoRun)

variable {s : Service} {trace : List Exchange}

/-! ### Searches -/

/-- Runs of a vector search, in its context. -/
inductive VectorRun (s : Service) (r : VectorSearchRequest) :
    List Exchange → Except SearchError (List SearchResult) → Prop where
  | refused {fault : SearchFault} (h : s.prepareVector r = .error fault) :
      VectorRun s r [] (.error fault)
  | asked {p : PreparedVector} {trace : List Exchange}
      {outcome : Except SearchError (List SearchResult)} (h : s.prepareVector r = .ok p)
      (hmemo : MemoRun (CacheKey.ofPayload (p.payload r.filter)) p.table.name
        (ReadRun (s.nearest p r.filter) .rows (List.map (PreparedVector.result p.table)))
        trace outcome) :
      VectorRun s r trace outcome

theorem vectorSearch_runs {r : VectorSearchRequest}
    {outcome : Except SearchError (List SearchResult)}
    (h : (s.vectorSearch r).Runs trace outcome) :
    ∃ inner, VectorRun s r trace inner ∧
      outcome = inContext ("Vector search on " ++ describe r.table r.limit r.filter) inner := by
  rw [vectorSearch_eq_memo] at h
  obtain ⟨inner, hinner, rfl⟩ := h.within_cases
  refine ⟨inner, ?_, rfl⟩
  rcases hinner.check_cases with ⟨fault, hp, rfl, rfl⟩ | ⟨p, hp, h⟩
  · exact .refused hp
  · exact .asked hp (h.memo_cases fun _ _ => Search.Runs.read_cases)

theorem fetchCandidates_runs {p : PreparedHybrid} {outcome : Except SearchError (List Candidate)}
    (h : (s.fetchCandidates p).Runs trace outcome) :
    ReadRun (s.candidates p) .rows (List.map (PreparedHybrid.candidate p.table)) trace outcome :=
  Search.Runs.read_cases h

/-- Runs of a hybrid search, in its context. -/
inductive HybridRun (s : Service) (r : HybridSearchRequest) :
    List Exchange → Except SearchError (List SearchResult) → Prop where
  | limit {fault : SearchFault} (h : s.checkLimit r.limit = .error fault) :
      HybridRun s r [] (.error fault)
  | weights {limit : UInt32} {fault : SearchFault} (hlimit : s.checkLimit r.limit = .ok limit)
      (defaults : HybridWeights)
      (h : combineWeights defaults r.textWeight r.vectorWeight = .error fault) :
      HybridRun s r [.weighed defaults] (.error fault)
  | refused {limit : UInt32} {weights : HybridWeights} {fault : SearchFault}
      (hlimit : s.checkLimit r.limit = .ok limit) (defaults : HybridWeights)
      (hweights : combineWeights defaults r.textWeight r.vectorWeight = .ok weights)
      (h : s.prepareHybrid r.table r.query r.embedding r.textFields r.filter = .error fault) :
      HybridRun s r [.weighed defaults] (.error fault)
  | asked {limit : UInt32} {weights : HybridWeights} {p : PreparedHybrid} {trace : List Exchange}
      {outcome : Except SearchError (List SearchResult)}
      (hlimit : s.checkLimit r.limit = .ok limit) (defaults : HybridWeights)
      (hweights : combineWeights defaults r.textWeight r.vectorWeight = .ok weights)
      (h : s.prepareHybrid r.table r.query r.embedding r.textFields r.filter = .ok p)
      (hmemo : MemoRun (CacheKey.ofPayload (p.payload r.filter weights limit)) p.table.name
        (ReadRun (s.candidates p) .rows fun rows => Candidate.rank p.table.name weights limit.toNat
          (rows.map (PreparedHybrid.candidate p.table))) trace outcome) :
      HybridRun s r (.weighed defaults :: trace) outcome

theorem hybridSearch_runs {r : HybridSearchRequest}
    {outcome : Except SearchError (List SearchResult)}
    (h : (s.hybridSearch r).Runs trace outcome) :
    ∃ inner, HybridRun s r trace inner ∧
      outcome = inContext ("Hybrid search on " ++ describe r.table r.limit r.filter) inner := by
  rw [hybridSearch_eq_memo] at h
  obtain ⟨inner, hinner, rfl⟩ := h.within_cases
  refine ⟨inner, ?_, rfl⟩
  rcases hinner.check_cases with ⟨fault, hlimit, rfl, rfl⟩ | ⟨limit, hlimit, h⟩
  · exact .limit hlimit
  unfold resolveWeights at h
  rw [bind_assoc] at h
  obtain ⟨defaults, rest, rfl, hweigh⟩ := Search.Runs.asks_cases .readWeights id h
  rcases hweigh.check_cases with ⟨fault, hweights, rfl, rfl⟩ | ⟨weights, hweights, hprepare⟩
  · exact .weights hlimit defaults hweights
  rcases hprepare.check_cases with ⟨fault, hp, rfl, rfl⟩ | ⟨p, hp, hmemo⟩
  · exact .refused hlimit defaults hweights hp
  · refine .asked hlimit defaults hweights hp (hmemo.memo_cases fun _ _ => ?_)
    exact ReadRun.then_pure fun _ _ => fetchCandidates_runs

/-- A search of one of several tables. -/
def TableRun (s : Service) (r : HybridSearchRequest) (table : String) (trace : List Exchange)
    (outcome : Except SearchError (List SearchResult)) : Prop :=
  (s.hybridSearch { r with table }).Runs trace outcome

/-- Tables are searched in turn; what was found goes in by their names. -/
theorem searchTables_runs {r : HybridSearchRequest} {tables : List String}
    {found : Keyed (List SearchResult)} {outcome : Except SearchError (Keyed (List SearchResult))}
    (h : (s.searchTables r tables found).Runs trace outcome) :
    ∃ inner, InTurn (s.TableRun r) tables trace inner ∧
      outcome = inner.map fun results => (tables.zip results).foldl
        (fun found entry => Keyed.insert entry.1 entry.2 found) found := by
  induction tables generalizing trace found with
  | nil =>
    obtain ⟨rfl, rfl⟩ := h.pure_eq
    exact ⟨.ok [], .nil, rfl⟩
  | cons table tables ih =>
    rcases h.bind_cases with ⟨e, htable, rfl⟩ | ⟨early, late, results, rfl, htable, hrest⟩
    · exact ⟨.error e, .failed htable, rfl⟩
    · obtain ⟨inner, hinner, rfl⟩ := ih hrest
      cases inner with
      | error e => exact ⟨.error e, .later htable hinner, rfl⟩
      | ok others => exact ⟨.ok (results :: others), .cons htable hinner, rfl⟩

theorem multiTableSearch_runs {r : HybridSearchRequest} {tables : List String}
    (hsome : tables ≠ []) {outcome : Except SearchError (Keyed (List SearchResult))}
    (h : (s.multiTableSearch tables r).Runs trace outcome) :
    ∃ inner, InTurn (s.TableRun r) tables trace inner ∧
      outcome = inner.map fun results => (tables.zip results).foldl
        (fun found entry => Keyed.insert entry.1 entry.2 found) [] := by
  unfold multiTableSearch at h
  rw [if_neg (by simpa using hsome)] at h
  exact searchTables_runs h

/-! ### Writing -/

/-- Runs of writing embeddings, in its context. -/
inductive WriteRun (s : Service) (tableName : String) (items : List EmbeddingItem) :
    List Exchange → Except SearchError Nat → Prop where
  | table {fault : SearchFault} (h : s.catalog.table tableName = .error fault) :
      WriteRun s tableName items [] (.error fault)
  | item {table : Table} {e : SearchError} (htable : s.catalog.table tableName = .ok table)
      (h : storeItems table 0 items = .error e) : WriteRun s tableName items [] (.error e)
  | nothing {table : Table} (htable : s.catalog.table tableName = .ok table)
      (h : storeItems table 0 items = .ok []) : WriteRun s tableName items [] (.ok 0)
  | failed {table : Table} {statements : List TableStatement}
      (htable : s.catalog.table tableName = .ok table)
      (h : storeItems table 0 items = .ok statements) (hsome : statements ≠ []) (e : StorageError) :
      WriteRun s tableName items [⟨.executeBatch statements, .error e⟩]
        (.error (SearchFault.storage e))
  | written {table : Table} {statements : List TableStatement}
      (htable : s.catalog.table tableName = .ok table)
      (h : storeItems table 0 items = .ok statements) (hsome : statements ≠ []) (affected : Nat) :
      WriteRun s tableName items [.committed statements affected, .forgot table.name] (.ok affected)

theorem storeEmbeddings_runs {tableName : String} {items : List EmbeddingItem}
    {outcome : Except SearchError Nat}
    (h : (s.storeEmbeddings tableName items).Runs trace outcome) :
    ∃ inner, WriteRun s tableName items trace inner ∧
      outcome = inContext s!"Storing {items.length} embeddings in {tableName}" inner := by
  obtain ⟨inner, hinner, rfl⟩ := h.within_cases
  refine ⟨inner, ?_, rfl⟩
  rcases hinner.check_cases with ⟨fault, htable, rfl, rfl⟩ | ⟨table, htable, h⟩
  · exact .table htable
  rcases h.bind_cases with ⟨e, hitems, rfl⟩ | ⟨early, late, statements, rfl, hitems, hwrite⟩
  · generalize hmade : storeItems table 0 items = made at hitems
    cases hitems
    exact .item htable hmade
  generalize hmade : storeItems table 0 items = made at hitems
  cases hitems
  rw [List.nil_append]
  split at hwrite
  · rename_i hempty
    obtain rfl : statements = [] := List.isEmpty_iff.mp hempty
    obtain ⟨rfl, rfl⟩ := hwrite.pure_eq
    exact .nothing htable hmade
  · rename_i hsome
    have hsome : statements ≠ [] := fun hempty => hsome (List.isEmpty_iff.mpr hempty)
    cases hwrite with
    | @act _ _ answer rest _ hanswer =>
      cases answer with
      | error e =>
        cases hanswer
        exact .failed htable hmade hsome e
      | ok affected =>
        obtain ⟨_, rest, rfl, hcount⟩ :=
          Search.Runs.asks_cases (.invalidate table.name) (fun _ => ()) hanswer
        obtain ⟨rfl, rfl⟩ := hcount.pure_eq
        exact .written htable hmade hsome affected

/-! ### Calibration -/

/-- Runs of fetching a sample. -/
inductive SampleRun (s : Service) (table : String) (sample : CalibrationSample) :
    List Exchange → Except SearchError FetchedSample → Prop where
  | refused {fault : SearchFault}
      (h : s.prepareHybrid table sample.query sample.embedding none none = .error fault) :
      SampleRun s table sample [] (.error fault)
  | asked {p : PreparedHybrid} {trace : List Exchange} {outcome : Except SearchError FetchedSample}
      (h : s.prepareHybrid table sample.query sample.embedding none none = .ok p)
      (hread : ReadRun (s.candidates p) .rows (fun rows => FetchedSample.mk
        (rows.map (PreparedHybrid.candidate p.table)) sample.relevantIds) trace outcome) :
      SampleRun s table sample trace outcome

/-- Runs of fetching a sample, in the context of its position. -/
def NumberedRun (s : Service) (table : String) (part : CalibrationSample × Nat)
    (trace : List Exchange) (outcome : Except SearchError FetchedSample) : Prop :=
  ∃ inner, SampleRun s table part.1 trace inner ∧
    outcome = inContext s!"Calibration sample {part.2}" inner

theorem fetchSamples_runs {table : String} {samples : List CalibrationSample} {position : Nat}
    {outcome : Except SearchError (List FetchedSample)}
    (h : (s.fetchSamples table position samples).Runs trace outcome) :
    InTurn (s.NumberedRun table) (samples.zipIdx position) trace outcome := by
  induction samples generalizing trace position outcome with
  | nil =>
    obtain ⟨rfl, rfl⟩ := h.pure_eq
    exact .nil
  | cons sample samples ih =>
    have hsample {own : List Exchange} {outcome : Except SearchError FetchedSample}
        (h : (Search.within s!"Calibration sample {position}" (s.fetchSample table sample)).Runs
          own outcome) : s.NumberedRun table (sample, position) own outcome := by
      obtain ⟨inner, hinner, rfl⟩ := h.within_cases
      refine ⟨inner, ?_, rfl⟩
      rcases hinner.check_cases with ⟨fault, hp, rfl, rfl⟩ | ⟨p, hp, h⟩
      · exact .refused hp
      · exact .asked hp (ReadRun.then_pure (fun _ _ => fetchCandidates_runs) h)
    rw [List.zipIdx_cons]
    rcases h.bind_cases with ⟨e, hfirst, rfl⟩ | ⟨early, late, fetched, rfl, hfirst, hlater⟩
    · exact .failed (hsample hfirst)
    rcases hlater.bind_cases with ⟨e, hrest, rfl⟩ | ⟨middle, late, others, rfl, hrest, hpure⟩
    · exact .later (hsample hfirst) (ih hrest)
    · obtain ⟨rfl, rfl⟩ := hpure.pure_eq
      rw [List.append_nil]
      exact .cons (hsample hfirst) (ih hrest)

/-- A sample that was read: the statement that asks for its candidates, the rows that it found
    and what they are. -/
def Sampled (s : Service) (table : String) (sample : CalibrationSample)
    (reading : Exchange × FetchedSample) : Prop :=
  ∃ p statement output,
    s.prepareHybrid table sample.query sample.embedding none none = .ok p ∧
    s.candidates p = .ok statement ∧ reading.1 = .read statement output ∧
    reading.2 = ⟨output.toRows.map (PreparedHybrid.candidate p.table), sample.relevantIds⟩

theorem SampleRun.sampled {table : String} {sample : CalibrationSample} {fetched : FetchedSample}
    (h : SampleRun s table sample trace (.ok fetched)) :
    ∃ x, trace = [x] ∧ s.Sampled table sample (x, fetched) := by
  cases h with
  | asked hp hread =>
    cases hread with
    | read hmade output => exact ⟨_, rfl, _, _, output, hp, hmade, rfl, rfl⟩

/-- Samples that are fetched are read one by one, and nothing else happens. -/
theorem NumberedRun.readings {table : String} {parts : List (CalibrationSample × Nat)}
    {fetched : List FetchedSample} (h : InTurn (s.NumberedRun table) parts trace (.ok fetched)) :
    ∃ readings : List (Exchange × FetchedSample),
      List.Forall₂ (s.Sampled table) (parts.map Prod.fst) readings ∧
        trace = readings.map Prod.fst ∧ fetched = readings.map Prod.snd := by
  generalize houtcome : Except.ok fetched = outcome at h
  induction h generalizing fetched with
  | nil =>
    cases houtcome
    exact ⟨[], .nil, rfl, rfl⟩
  | failed => cases houtcome
  | later => cases houtcome
  | @cons part _ _ _ value _ hpart _ ih =>
    cases houtcome
    obtain ⟨_ | fetched, hrun, hinner⟩ := hpart
    · cases hinner
    cases hinner
    obtain ⟨x, rfl, hsampled⟩ := hrun.sampled
    obtain ⟨readings, hreadings, rfl, rfl⟩ := ih rfl
    exact ⟨(x, value) :: readings, .cons hsampled hreadings, rfl, rfl⟩

/-- Runs of a calibration with a grid and a cut-off. -/
inductive CalibrationRun (s : Service) (table : String) (samples : List CalibrationSample)
    (grid : List Single) (k : UInt32) : List Exchange → Except SearchError CalibrationReport → Prop
    where
  | refused {fault : SearchFault} (h : s.checkCalibration samples grid k = .error fault) :
      CalibrationRun s table samples grid k [] (.error fault)
  | unfetched {trace : List Exchange} {e : SearchError}
      (hcheck : s.checkCalibration samples grid k = .ok ())
      (h : InTurn (s.NumberedRun table) samples.zipIdx trace (.error e)) :
      CalibrationRun s table samples grid k trace (.error e)
  | unscored {trace : List Exchange} {fetched : List FetchedSample} {fault : SearchFault}
      (hcheck : s.checkCalibration samples grid k = .ok ())
      (hfetched : InTurn (s.NumberedRun table) samples.zipIdx trace (.ok fetched))
      (h : grid.mapM (FetchedSample.point table k.toNat fetched) = .error fault) :
      CalibrationRun s table samples grid k trace (.error fault)
  | calibrated {trace : List Exchange} {fetched : List FetchedSample} {first : CalibrationPoint}
      {others : List CalibrationPoint} (hcheck : s.checkCalibration samples grid k = .ok ())
      (hfetched : InTurn (s.NumberedRun table) samples.zipIdx trace (.ok fetched))
      (h : grid.mapM (FetchedSample.point table k.toNat fetched) = .ok (first :: others)) :
      CalibrationRun s table samples grid k
        (trace ++ [.chose (CalibrationPoint.best first others).weights])
        (.ok ⟨table, k, samples.length, .best first others, first :: others⟩)

theorem checkCalibration_ok_iff {samples : List CalibrationSample} {grid : List Single}
    {k : UInt32} : s.checkCalibration samples grid k = .ok () ↔
      samples ≠ [] ∧ grid ≠ [] ∧ (∀ weight ∈ grid, isUnit weight = true) ∧
        k ≠ 0 ∧ k ≤ s.config.search.maxLimit := by
  unfold checkCalibration
  dsimp only
  split
  · rename_i hnone
    simp [List.isEmpty_iff.mp hnone]
  rename_i hsamples
  split
  · rename_i hnone
    simp [List.isEmpty_iff.mp hnone]
  rename_i hgrid
  split
  · rename_i weight houtside
    have hmem := List.mem_of_find?_eq_some houtside
    have hunit := List.find?_some houtside
    constructor
    · nofun
    · rintro ⟨-, -, hunits, -⟩
      simp [hunits weight hmem] at hunit
  rename_i hunits
  have hunits : ∀ weight ∈ grid, isUnit weight = true := by simpa using hunits
  split
  · rename_i hcutoff
    constructor
    · nofun
    · rintro ⟨-, -, -, hk, hmax⟩
      exact absurd hcutoff (by simp [hk, UInt32.not_lt.mpr hmax])
  · rename_i hcutoff
    rw [not_or, UInt32.not_lt] at hcutoff
    simp only [true_iff]
    exact ⟨by simpa using hsamples, by simpa using hgrid, hunits, hcutoff⟩

theorem calibrate_runs {table : String} {samples : List CalibrationSample}
    {grid : Option (List Single)} {k : Option UInt32}
    {outcome : Except SearchError CalibrationReport}
    (h : (s.calibrate table samples grid k).Runs trace outcome) :
    CalibrationRun s table samples (grid.getD s.config.search.hybrid.calibrationGrid)
      (k.getD s.config.search.hybrid.calibrationK) trace outcome := by
  unfold calibrate at h
  rcases h.check_cases with ⟨fault, hcheck, rfl, rfl⟩ | ⟨_, hcheck, h⟩
  · exact .refused hcheck
  rcases h.bind_cases with ⟨e, hsamples, rfl⟩ | ⟨early, late, fetched, rfl, hsamples, hscore⟩
  · exact .unfetched hcheck (fetchSamples_runs hsamples)
  have hfetched := fetchSamples_runs hsamples
  rcases hscore.check_cases with ⟨fault, hpoints, rfl, rfl⟩ | ⟨points, hpoints, hchoose⟩
  · rw [List.append_nil]
    exact .unscored hcheck hfetched hpoints
  cases points with
  | nil =>
    -- a grid that is in order has a point
    have hgrid := (checkCalibration_ok_iff.mp hcheck).2.1
    generalize grid.getD s.config.search.hybrid.calibrationGrid = grid at hgrid hpoints
    cases forall₂_of_mapM_eq_ok hpoints
    exact absurd rfl hgrid
  | cons first others =>
    obtain ⟨_, rest, rfl, hreport⟩ := Search.Runs.asks_cases
      (.writeWeights (CalibrationPoint.best first others).weights) (fun _ => ()) hchoose
    obtain ⟨rfl, rfl⟩ := hreport.pure_eq
    exact .calibrated hcheck hfetched hpoints

/-! ### Recommending an index -/

/-- A recommendation counts rows, once there is a table. -/
theorem recommendIndex_runs {tableName : String} {preference : Option IndexPreference}
    {outcome : Except SearchError IndexRecommendation}
    (h : (s.recommendIndex tableName preference).Runs trace outcome) :
    (∃ fault : SearchFault, s.catalog.table tableName = .error fault ∧ trace = [] ∧
      outcome = .error (fault : SearchError)) ∨
      ∃ table inner, s.catalog.table tableName = .ok table ∧
        ReadRun (.ok (.countEmbedded table)) .first countOfRows trace inner ∧
        outcome = (inContext ("Counting embedded rows in " ++ table.name) inner).map
          (.make s.config.index table (preference.getD s.config.index.kind)) := by
  unfold recommendIndex at h
  rcases h.check_cases with ⟨fault, htable, rfl, rfl⟩ | ⟨table, htable, h⟩
  · exact .inl ⟨fault, htable, rfl, rfl⟩
  right
  have hcount {trace : List Exchange} {outcome : Except SearchError UInt64}
      (h : (countEmbedded table).Runs trace outcome) :
      ReadRun (.ok (.countEmbedded table)) .first countOfRows trace outcome :=
    Search.Runs.read_cases h
  rcases h.bind_cases with ⟨e, hfirst, rfl⟩ | ⟨early, late, rows, rfl, hfirst, hpure⟩
  · obtain ⟨inner, hinner, houtcome⟩ := hfirst.within_cases
    exact ⟨table, inner, htable, hcount hinner, by rw [← houtcome]; rfl⟩
  · obtain ⟨inner, hinner, houtcome⟩ := hfirst.within_cases
    obtain ⟨rfl, rfl⟩ := hpure.pure_eq
    rw [List.append_nil]
    exact ⟨table, inner, htable, hcount hinner, by rw [← houtcome]; rfl⟩

end Service

end KnowledgeSearch
