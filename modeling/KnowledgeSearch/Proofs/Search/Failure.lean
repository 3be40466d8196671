/-
  KnowledgeSearch/Proofs/Search/Failure.lean
  ==========================================
  **Failures of storage surface, and change nothing.**

  An operation fails because a check has found a fault in its request, or because storage
  has failed.  No check reports a fault of storage (`Checks`), so the two are told apart by the
  error alone.  When storage fails, the operation ends at once, with that failure in the
  operation's context, and it has written nothing by then (`Fails`): reading comes before
  storing and choosing weights, and committing before forgetting.  The service is left with the
  cache and the weights that it had (`Service.failures_surface`).
-/
import KnowledgeSearch.Proofs.Search.OperationRun

namespace KnowledgeSearch

/-! ### Faults of requests -/

/-- A fault that storage has no part in. -/
def SearchFault.OfRequest (fault : SearchFault) : Prop := ∀ e, fault ≠ .storage e

theorem SearchFault.OfRequest.kind {fault : SearchFault} (h : fault.OfRequest) :
    fault.kind = .invalidArgument ∨ fault.kind = .invalidEmbeddingFormat := by
  cases fault with
  | storage e => exact absurd rfl (h e)
  | embedding e => exact .inr rfl
  | _ => exact .inl rfl

section Checks

variable {α β : Type} {check : Except SearchFault α}

/-- A check that blames requests only. -/
def Checks (check : Except SearchFault α) : Prop := ∀ fault, check = .error fault → fault.OfRequest

theorem checks_ok (value : α) : Checks (.ok value) := fun _ h => nomatch h

theorem checks_error {fault : SearchFault} (h : fault.OfRequest) :
    Checks (.error fault : Except SearchFault α) := by
  intro other hother
  cases hother
  exact h

theorem Checks.bind {next : α → Except SearchFault β} (h : Checks check)
    (hnext : ∀ value, check = .ok value → Checks (next value)) : Checks (check >>= next) := by
  cases check with
  | error fault => exact checks_error (h fault rfl)
  | ok value => exact hnext value rfl

theorem checks_mapM {f : α → Except SearchFault β} (h : ∀ x, Checks (f x)) (xs : List α) :
    Checks (xs.mapM f) := by
  induction xs with
  | nil => exact checks_ok []
  | cons x xs ih =>
    rw [List.mapM_cons]
    apply (h x).bind
    intro _ _
    apply ih.bind
    exact fun _ _ => checks_ok _

end Checks

theorem HybridWeights.checks_check (name : WeightName) (x : Single) : Checks (check name x) := by
  unfold check
  split
  · exact checks_error nofun
  split
  · exact checks_error nofun
  · exact checks_ok ()

theorem HybridWeights.checks_normalized (text vector : Single) :
    Checks (normalized text vector) := by
  apply (checks_check .text text).bind
  intro _ _
  apply (checks_check .vector vector).bind
  intro _ _
  dsimp only
  split <;> exact checks_ok _

namespace Service

variable (s : Service)

theorem checks_table (name : String) : Checks (s.catalog.table name) := by
  unfold Catalog.table
  split
  · exact checks_ok _
  · exact checks_error nofun

theorem checks_checkLimit (limit : Option Int64) : Checks (s.checkLimit limit) := by
  cases limit with
  | none => exact checks_error nofun
  | some n =>
    unfold checkLimit
    dsimp only
    split
    · exact checks_error nofun
    split
    · exact checks_error nofun
    · exact checks_ok _

theorem checks_readEmbedding (table : Table) (value : Json) :
    Checks (readEmbedding table value) := by
  unfold readEmbedding
  split
  · exact checks_ok _
  · exact checks_error nofun

theorem checks_readFilter (table : Table) (filter : Option Json) :
    Checks (readFilter table filter) := by
  cases filter with
  | none => exact checks_ok none
  | some filter =>
    unfold readFilter Predicate.ofFilter
    dsimp only
    split
    · exact checks_error nofun
    · exact checks_ok _

theorem checks_distance (table : Table) (embedding : Embedding) :
    Checks (s.distance table embedding) := by
  unfold distance
  dsimp only
  split
  · exact checks_ok _
  · exact checks_error nofun

theorem checks_prepareVector (r : VectorSearchRequest) : Checks (s.prepareVector r) := by
  apply (s.checks_table r.table).bind
  intro table _
  apply (s.checks_checkLimit r.limit).bind
  intro limit _
  apply (checks_readEmbedding table r.embedding).bind
  exact fun _ _ => checks_ok _

theorem checks_nearest (p : PreparedVector) (filter : Option Json) :
    Checks (s.nearest p filter) := by
  apply (checks_readFilter p.table filter).bind
  intro _ _
  apply (s.checks_distance p.table p.embedding).bind
  exact fun _ _ => checks_ok _

theorem checks_readOptionalEmbedding (table : Table) (value : Option Json) :
    Checks (readOptionalEmbedding table value) := by
  unfold readOptionalEmbedding
  split
  · exact checks_ok none
  · exact checks_ok none
  · intro fault h
    cases hread : readEmbedding table ‹_› with
    | error other =>
      rw [hread] at h
      cases h
      exact checks_readEmbedding table _ _ hread
    | ok embedding =>
      rw [hread] at h
      cases h

theorem checks_chooseTextFields (table : Table) (wanted : Option (List String)) :
    Checks (chooseTextFields table wanted) := by
  cases wanted with
  | none => exact checks_ok table.textFields
  | some fields =>
    unfold chooseTextFields
    dsimp only
    split
    · exact checks_error nofun
    · exact checks_ok fields

theorem checks_prepareHybrid (tableName query : String) (embedding : Option Json)
    (textFields : Option (List String)) (filter : Option Json) :
    Checks (s.prepareHybrid tableName query embedding textFields filter) := by
  apply (s.checks_table tableName).bind
  intro table _
  apply (checks_readOptionalEmbedding table embedding).bind
  intro _ _
  apply (checks_chooseTextFields table textFields).bind
  intro _ _
  split
  · exact checks_error nofun
  · apply (checks_readFilter table filter).bind
    exact fun _ _ => checks_ok _

theorem checks_candidates (p : PreparedHybrid) : Checks (s.candidates p) := by
  have hdistance : Checks (p.embedding.mapM (s.distance p.table)) := by
    cases p.embedding with
    | none => exact checks_ok none
    | some embedding =>
      apply (s.checks_distance p.table embedding).bind
      exact fun _ _ => checks_ok _
  apply hdistance.bind
  exact fun _ _ => checks_ok _

theorem checks_combineWeights (defaults : HybridWeights) (text vector : Option Single) :
    Checks (combineWeights defaults text vector) := by
  unfold combineWeights
  split
  · exact checks_ok defaults
  · exact HybridWeights.checks_normalized _ _

theorem checks_storeItem (table : Table) (item : EmbeddingItem) :
    Checks (storeItem table item) := by
  apply (checks_readEmbedding table item.embedding).bind
  intro _ _
  split
  · exact checks_ok _
  · exact checks_error nofun

theorem storeItems_error {table : Table} {position : Nat} {items : List EmbeddingItem}
    {e : SearchError} (h : storeItems table position items = .error e) : e.fault.OfRequest := by
  induction items generalizing position with
  | nil => cases h
  | cons item items ih =>
    unfold storeItems at h
    cases hitem : storeItem table item with
    | error fault =>
      rw [hitem] at h
      cases h
      exact checks_storeItem table item fault hitem
    | ok statement =>
      rw [hitem] at h
      cases hrest : storeItems table (position + 1) items with
      | error e' =>
        rw [hrest] at h
        cases h
        exact ih hrest
      | ok statements =>
        rw [hrest] at h
        cases h

theorem checks_checkCalibration (samples : List CalibrationSample) (grid : List Single)
    (k : UInt32) : Checks (s.checkCalibration samples grid k) := by
  unfold checkCalibration
  dsimp only
  split
  · exact checks_error nofun
  split
  · exact checks_error nofun
  split
  · exact checks_error nofun
  split
  · exact checks_error nofun
  · exact checks_ok ()

theorem checks_point (table : String) (k : Nat) (samples : List FetchedSample)
    (vectorWeight : Single) : Checks (FetchedSample.point table k samples vectorWeight) := by
  apply (HybridWeights.checks_normalized _ _).bind
  exact fun _ _ => checks_ok _

end Service

/-! ### Operations that fail -/

/-- An operation that fails has written nothing.  Its error is a fault of the request, or it tells
    of the failure that was the last thing to happen. -/
structure Fails (contexts : List Exchange → List String) (trace : List Exchange)
    (error : SearchError) : Prop where
  unwritten : ∀ x ∈ trace, x.action.isWrite = false
  cause : ((∀ x ∈ trace, x.failure? = none) ∧ error.fault.OfRequest) ∨
    ∃ before x e, trace = before ++ [x] ∧ (∀ y ∈ before, y.failure? = none) ∧
      x.failure? = some e ∧ error = ⟨contexts before, .storage e⟩

/-- As `Fails`; an operation that succeeds has seen no failure. -/
def Surfaces {α : Type} (contexts : List Exchange → List String) (trace : List Exchange) :
    Except SearchError α → Prop
  | .ok _ => ∀ x ∈ trace, x.failure? = none
  | .error error => Fails contexts trace error

section Surfaces

variable {α : Type} {contexts : List Exchange → List String} {trace : List Exchange}
  {outcome : Except SearchError α}

/-- A request that is turned down after some harmless actions. -/
theorem surfaces_fault {fault : SearchFault} (hfault : fault.OfRequest)
    (htrace : ∀ x ∈ trace, x.failure? = none ∧ x.action.isWrite = false) :
    Surfaces contexts trace (.error fault : Except SearchError α) :=
  ⟨fun x hx => (htrace x hx).2, .inl ⟨fun x hx => (htrace x hx).1, hfault⟩⟩

theorem surfaces_refused {fault : SearchFault} (hfault : fault.OfRequest) :
    Surfaces contexts [] (.error fault : Except SearchError α) :=
  surfaces_fault hfault fun _ hx => nomatch hx

theorem Surfaces.within (h : Surfaces contexts trace outcome) (context : String) :
    Surfaces (fun before => context :: contexts before) trace (inContext context outcome) := by
  cases outcome with
  | ok value => exact h
  | error error =>
    refine ⟨h.unwritten, ?_⟩
    rcases h.cause with ⟨hfine, hfault⟩ | ⟨before, x, e, rfl, hfine, hx, rfl⟩
    · exact .inl ⟨hfine, hfault⟩
    · exact .inr ⟨before, x, e, rfl, hfine, hx, rfl⟩

/-- What went well before does not count, apart from the contexts. -/
theorem Surfaces.after {before : List Exchange}
    (h : Surfaces (fun late => contexts (before ++ late)) trace outcome)
    (hbefore : ∀ x ∈ before, x.failure? = none ∧ x.action.isWrite = false) :
    Surfaces contexts (before ++ trace) outcome := by
  have hall {P : Exchange → Prop} {late : List Exchange} (hlate : ∀ x ∈ late, P x)
      (hearly : ∀ x ∈ before, P x) : ∀ x ∈ before ++ late, P x := by
    intro x hx
    exact (List.mem_append.mp hx).elim (hearly x) (hlate x)
  cases outcome with
  | ok value => exact hall h fun x hx => (hbefore x hx).1
  | error error =>
    refine ⟨hall h.unwritten fun x hx => (hbefore x hx).2, ?_⟩
    rcases h.cause with ⟨hfine, hfault⟩ | ⟨early, x, e, rfl, hfine, hx, rfl⟩
    · exact .inl ⟨hall hfine fun x hx => (hbefore x hx).1, hfault⟩
    · exact .inr ⟨before ++ early, x, e, (List.append_assoc _ _ _).symm,
        hall hfine fun y hy => (hbefore y hy).1, hx, rfl⟩

/-- Only the contexts at the last action count. -/
theorem Surfaces.congr {contexts' : List Exchange → List String}
    (h : Surfaces contexts trace outcome)
    (hsame : ∀ before x, trace = before ++ [x] → contexts before = contexts' before) :
    Surfaces contexts' trace outcome := by
  cases outcome with
  | ok value => exact h
  | error error =>
    refine ⟨h.unwritten, ?_⟩
    rcases h.cause with hrequest | ⟨before, x, e, htrace, hfine, hx, rfl⟩
    · exact .inl hrequest
    · exact .inr ⟨before, x, e, htrace, hfine, hx, by rw [hsame before x htrace]⟩

end Surfaces

/-! ### Reading and asking the cache -/

namespace Search

variable {α : Type} {trace : List Exchange}

theorem ReadRun.surfaces {made : Except SearchFault TableStatement} {mode : FetchMode}
    {give : List Row → α} {outcome : Except SearchError α} (hmade : Checks made)
    (h : ReadRun made mode give trace outcome) : Surfaces (fun _ => []) trace outcome := by
  cases h with
  | refused h => exact surfaces_refused (hmade _ h)
  | failed h e => exact ⟨by simp [Action.isWrite], .inr ⟨[], _, e, rfl, by simp, rfl, rfl⟩⟩
  | read h output => simp [Surfaces, Exchange.failure?]

theorem MemoRun.surfaces {key table : String}
    {reads : List Exchange → Except SearchError (List SearchResult) → Prop}
    {outcome : Except SearchError (List SearchResult)}
    (hreads : ∀ trace outcome, reads trace outcome → Surfaces (fun _ => []) trace outcome)
    (h : MemoRun key table reads trace outcome) : Surfaces (fun _ => []) trace outcome := by
  cases h with
  | found results => simp [Surfaces, Exchange.failure?, Exchange.found]
  | failed h =>
    have hmissed : ∀ x ∈ [Exchange.missed key], x.failure? = none ∧ x.action.isWrite = false := by
      simp [Exchange.missed, Exchange.failure?, Action.isWrite]
    exact (hreads _ _ h).after hmissed
  | read h =>
    have hfine := hreads _ _ h
    simp only [Surfaces] at hfine
    simpa [Surfaces, Exchange.failure?, Exchange.missed, Exchange.stored, or_imp,
      forall_and] using hfine

end Search

/-! ### Operations -/

namespace Service

variable {s : Service} {trace : List Exchange}

theorem vectorSearch_surfaces {r : VectorSearchRequest}
    {outcome : Except SearchError (List SearchResult)}
    (h : (s.vectorSearch r).Runs trace outcome) :
    Surfaces (fun _ => ["Vector search on " ++ describe r.table r.limit r.filter])
      trace outcome := by
  obtain ⟨inner, hrun, rfl⟩ := vectorSearch_runs h
  have hinner : Surfaces (fun _ => []) trace inner := by
    cases hrun with
    | refused hp => exact surfaces_refused (s.checks_prepareVector r _ hp)
    | asked hp hmemo =>
      exact hmemo.surfaces fun _ _ => Search.ReadRun.surfaces (s.checks_nearest _ _)
  exact hinner.within _

theorem hybridSearch_surfaces {r : HybridSearchRequest}
    {outcome : Except SearchError (List SearchResult)}
    (h : (s.hybridSearch r).Runs trace outcome) :
    Surfaces (fun _ => ["Hybrid search on " ++ describe r.table r.limit r.filter])
      trace outcome := by
  obtain ⟨inner, hrun, rfl⟩ := hybridSearch_runs h
  have hweighed (defaults : HybridWeights) : ∀ x ∈ [Exchange.weighed defaults],
      x.failure? = none ∧ x.action.isWrite = false := by
    simp [Exchange.weighed, Exchange.failure?, Action.isWrite]
  have hinner : Surfaces (fun _ => []) trace inner := by
    cases hrun with
    | limit hlimit => exact surfaces_refused (s.checks_checkLimit _ _ hlimit)
    | weights _ defaults hweights =>
      exact surfaces_fault (checks_combineWeights _ _ _ _ hweights) (hweighed defaults)
    | refused _ defaults _ hp =>
      exact surfaces_fault (s.checks_prepareHybrid _ _ _ _ _ _ hp) (hweighed defaults)
    | asked _ defaults _ _ hmemo =>
      have hread := hmemo.surfaces fun _ _ => Search.ReadRun.surfaces (s.checks_candidates _)
      exact hread.after (hweighed defaults)
  exact hinner.within _

theorem storeEmbeddings_surfaces {tableName : String} {items : List EmbeddingItem}
    {outcome : Except SearchError Nat}
    (h : (s.storeEmbeddings tableName items).Runs trace outcome) :
    Surfaces (fun _ => [s!"Storing {items.length} embeddings in {tableName}"]) trace outcome := by
  obtain ⟨inner, hrun, rfl⟩ := storeEmbeddings_runs h
  have hinner : Surfaces (fun _ => []) trace inner := by
    cases hrun with
    | table htable => exact surfaces_refused (s.checks_table _ _ htable)
    | item _ hitems => exact ⟨by simp, .inl ⟨by simp, storeItems_error hitems⟩⟩
    | nothing => simp [Surfaces]
    | failed _ _ _ e => exact ⟨by simp [Action.isWrite], .inr ⟨[], _, e, rfl, by simp, rfl, rfl⟩⟩
    | written => simp [Surfaces, Exchange.failure?, Exchange.committed, Exchange.forgot]
  exact hinner.within _

theorem SampleRun.surfaces {table : String} {sample : CalibrationSample}
    {outcome : Except SearchError FetchedSample} (h : SampleRun s table sample trace outcome) :
    Surfaces (fun _ => []) trace outcome := by
  cases h with
  | refused hp => exact surfaces_refused (s.checks_prepareHybrid _ _ _ _ _ _ hp)
  | asked hp hread => exact hread.surfaces (s.checks_candidates _)

theorem SampleRun.length_le {table : String} {sample : CalibrationSample}
    {outcome : Except SearchError FetchedSample} (h : SampleRun s table sample trace outcome) :
    trace.length ≤ 1 := by
  cases h with
  | refused => exact Nat.zero_le 1
  | asked _ hread => cases hread <;> simp

/-- Samples that are fetched take one action each, which does not fail. -/
theorem NumberedRun.fetched_fine {table : String} {parts : List (CalibrationSample × Nat)}
    {fetched : List FetchedSample} (h : InTurn (s.NumberedRun table) parts trace (.ok fetched)) :
    trace.length = parts.length ∧
      ∀ x ∈ trace, x.failure? = none ∧ x.action.isWrite = false := by
  obtain ⟨readings, hreadings, rfl, -⟩ := NumberedRun.readings h
  constructor
  · simpa using hreadings.length_eq.symm
  · intro x hx
    obtain ⟨reading, hreading, rfl⟩ := List.mem_map.mp hx
    obtain ⟨_, -, _, _, _, -, -, hread, -⟩ := exists_of_forall₂_of_mem hreadings hreading
    rw [hread]
    exact ⟨rfl, rfl⟩

theorem position_of_zipIdx_eq {α : Type} {xs : List α} {earlier later : List (α × Nat)} {x : α}
    {i : Nat} (h : xs.zipIdx = earlier ++ (x, i) :: later) : i = earlier.length := by
  have hi : xs.zipIdx[earlier.length]? = some (x, i) := by
    rw [h, List.getElem?_append_right le_rfl]
    simp
  rw [List.getElem?_zipIdx, Option.map_eq_some_iff] at hi
  obtain ⟨_, -, hi⟩ := hi
  simp only [Prod.mk.injEq, zero_add] at hi
  exact hi.2.symm

theorem calibrate_surfaces {table : String} {samples : List CalibrationSample}
    {grid : Option (List Single)} {k : Option UInt32}
    {outcome : Except SearchError CalibrationReport}
    (h : (s.calibrate table samples grid k).Runs trace outcome) :
    Surfaces (fun before => [s!"Calibration sample {before.length}"]) trace outcome := by
  cases calibrate_runs h with
  | refused hcheck => exact surfaces_refused (s.checks_checkCalibration _ _ _ _ hcheck)
  | unfetched _ hsamples =>
    obtain ⟨earlier, ⟨sample, i⟩, later, before, last, fetched, hparts, rfl, hearlier, hpart⟩ :=
      hsamples.error_cases
    obtain ⟨hlength, hbefore⟩ := NumberedRun.fetched_fine hearlier
    obtain ⟨inner, hrun, houtcome⟩ := hpart
    -- the part that failed stands where as many samples were read before it
    have hposition : before.length = i := hlength.trans (position_of_zipIdx_eq hparts).symm
    have hlast : Surfaces (fun late => [s!"Calibration sample {(before ++ late).length}"]) last
        (inContext s!"Calibration sample {i}" inner) := by
      apply (hrun.surfaces.within _).congr
      intro early x hlast
      have hlength := hrun.length_le
      rw [hlast, List.length_append, List.length_singleton] at hlength
      obtain rfl : early = [] := List.eq_nil_of_length_eq_zero (by omega)
      rw [List.append_nil, hposition]
    rw [← houtcome] at hlast
    refine Surfaces.after ?_ hbefore
    exact hlast
  | unscored _ hfetched hpoints =>
    exact surfaces_fault (checks_mapM (checks_point _ _ _) _ _ hpoints)
      (NumberedRun.fetched_fine hfetched).2
  | calibrated _ hfetched hpoints =>
    intro x hx
    rcases List.mem_append.mp hx with hx | hx
    · exact ((NumberedRun.fetched_fine hfetched).2 x hx).1
    · cases List.mem_singleton.mp hx
      rfl

theorem recommendIndex_surfaces {tableName : String} {preference : Option IndexPreference}
    {outcome : Except SearchError IndexRecommendation}
    (h : (s.recommendIndex tableName preference).Runs trace outcome) :
    Surfaces (fun _ => ["Counting embedded rows in " ++ tableName]) trace outcome := by
  rcases recommendIndex_runs h with ⟨fault, htable, rfl, rfl⟩ | ⟨table, inner, htable, hread, rfl⟩
  · exact surfaces_refused (s.checks_table _ _ htable)
  · have hcount :=
      (hread.surfaces (checks_ok _)).within ("Counting embedded rows in " ++ table.name)
    rw [(Catalog.table_eq_ok htable).2] at hcount ⊢
    cases inner with
    | error e => exact hcount
    | ok rows => exact hcount

end Service

/-! ### What a caller and the service see of a failure -/

/-- What a failed statement was, as far as it is known. -/
def StorageError.statement? : StorageError → Option (String × List String)
  | .queryExecution _ sql params => some (sql, params)
  | _ => none

/-- An error that passes a failure of storage on: its kind, but that a configuration of storage is
    an argument here, its statement and its wording, after a context. -/
structure SearchError.PassesOn (error : SearchError) (e : StorageError) (context : String) :
    Prop where
  kind : error.kind.name = if e.kind = "Config" then "InvalidArgument" else e.kind
  statement : error.fault.statement? = e.statement?
  message : error.message = context ++ ": " ++ e.message
  retryable : error.isRetryable = true ↔ ∃ message, e = .connectionUnavailable message

theorem SearchError.passesOn (context : String) (e : StorageError) :
    SearchError.PassesOn ⟨[context], .storage e⟩ e context where
  kind := by
    cases e <;>
      simp [SearchError.kind, SearchFault.kind, SearchErrorKind.name, StorageError.kind]
  statement := by cases e <;> rfl
  message := rfl
  retryable := by cases e <;> simp [isRetryable, SearchError.kind, SearchFault.kind]

/-- When a call of an operation fails, the operation does nothing more.  It ends with an error that
    passes the failure on, in a context that may tell how many actions went well before, and the
    service has kept its cache and its weights. -/
def Search.PassesFailuresOn {α : Type} (search : Search α) (context : Nat → String) : Prop :=
  ∀ (σ : Type) (m : Machine σ) (x : Exchange) (e : StorageError),
    x ∈ search.run.trace m → x.failure? = some e →
      ∃ before error, search.run.trace m = before ++ [x] ∧
        (search.run.run m).1 = .error error ∧ error.PassesOn e (context before.length) ∧
        m.Retained (search.run.run m).2

/-- An action that fails is the last one, and the operation ends with its failure. -/
theorem Search.ends_of_failure {α σ : Type} {search : Search α}
    {contexts : List Exchange → List String}
    (h : ∀ trace outcome, search.Runs trace outcome → Surfaces contexts trace outcome)
    {m : Machine σ} {x : Exchange} {e : StorageError} (hx : x ∈ search.run.trace m)
    (hfailed : x.failure? = some e) :
    ∃ before, search.run.trace m = before ++ [x] ∧
      (search.run.run m).1 = .error ⟨contexts before, .storage e⟩ ∧
      ∀ y ∈ search.run.trace m, y.action.isWrite = false := by
  have hsurfaces := h _ _ (search.runs_trace m)
  cases houtcome : (search.run.run m).1 with
  | ok value =>
    rw [houtcome] at hsurfaces
    exact absurd (hfailed.symm.trans (hsurfaces x hx)) (by simp)
  | error error =>
    rw [houtcome] at hsurfaces
    obtain ⟨hunwritten, ⟨hfine, -⟩ | ⟨before, last, e', htrace, hfine, hlast, rfl⟩⟩ := hsurfaces
    · exact absurd (hfailed.symm.trans (hfine x hx)) (by simp)
    · -- the failure is the last action, since nothing before it has failed
      obtain rfl : x = last := by
        rw [htrace] at hx
        rcases List.mem_append.mp hx with hx | hx
        · exact absurd (hfailed.symm.trans (hfine x hx)) (by simp)
        · exact List.mem_singleton.mp hx
      obtain rfl : e = e' := Option.some.inj (hfailed.symm.trans hlast)
      exact ⟨before, htrace, rfl, hunwritten⟩

theorem Search.passesFailuresOn {α : Type} {search : Search α} {context : Nat → String}
    (h : ∀ trace outcome, search.Runs trace outcome →
      Surfaces (fun before => [context before.length]) trace outcome) :
    search.PassesFailuresOn context := by
  intro σ m x e hx hfailed
  obtain ⟨before, htrace, houtcome, hunwritten⟩ := Search.ends_of_failure h hx hfailed
  rw [Program.run_after]
  exact ⟨before, _, htrace, houtcome, SearchError.passesOn _ e, m.retained_after hunwritten⟩

namespace Service

variable (s : Service)

/-- **Failures of storage surface, and leave the service as it was.**  A calibration tells which of
    its samples could not be read. -/
theorem failures_surface :
    (∀ r : VectorSearchRequest, (s.vectorSearch r).PassesFailuresOn fun _ =>
      "Vector search on " ++ describe r.table r.limit r.filter) ∧
    (∀ r : HybridSearchRequest, (s.hybridSearch r).PassesFailuresOn fun _ =>
      "Hybrid search on " ++ describe r.table r.limit r.filter) ∧
    (∀ (table : String) (items : List EmbeddingItem),
      (s.storeEmbeddings table items).PassesFailuresOn fun _ =>
        s!"Storing {items.length} embeddings in {table}") ∧
    (∀ (table : String) (samples : List CalibrationSample) (grid : Option (List Single))
      (k : Option UInt32),
      (s.calibrate table samples grid k).PassesFailuresOn fun fetched =>
        s!"Calibration sample {fetched}") ∧
    ∀ (table : String) (preference : Option IndexPreference),
      (s.recommendIndex table preference).PassesFailuresOn fun _ =>
        "Counting embedded rows in " ++ table :=
  ⟨fun _ => Search.passesFailuresOn fun _ _ => vectorSearch_surfaces,
    fun _ => Search.passesFailuresOn fun _ _ => hybridSearch_surfaces,
    fun _ _ => Search.passesFailuresOn fun _ _ => storeEmbeddings_surfaces,
    fun _ _ _ _ => Search.passesFailuresOn fun _ _ => calibrate_surfaces,
    fun _ _ => Search.passesFailuresOn fun _ _ => recommendIndex_surfaces⟩

end Service

/-! ### A connection that breaks -/

/-- A backend that answers as many statements as its state tells and is then gone. -/
def breakingBackend : Backend Nat where
  execute _ _ left :=
    if left = 0 then (.error (.connectionUnavailable "gone"), 0) else (.ok (.rows []), left - 1)
  executeBatch _ left := (.error (.connectionUnavailable "gone"), left)

def breakingMachine : Machine Nat := .start breakingBackend 1 id ⟨none, ⟨.half, .half⟩⟩

/-- The connection breaks while the second of two samples is read. -/
theorem failures_surface_secondSample :
    ∃ x before error,
      (notesService.calibrate "notes" [⟨"sea", none, []⟩, ⟨"sky", none, []⟩] (some [.half])
          none).run.trace breakingMachine = before ++ [x] ∧
        x.failure? = some (.connectionUnavailable "gone") ∧
        ((notesService.calibrate "notes" [⟨"sea", none, []⟩, ⟨"sky", none, []⟩] (some [.half])
          none).run.run breakingMachine).1 = .error error ∧
        error.message = "Calibration sample 1: gone" := by
  have hfailures : ((notesService.calibrate "notes" [⟨"sea", none, []⟩, ⟨"sky", none, []⟩]
      (some [.half]) none).run.trace breakingMachine).map Exchange.failure? =
      [none, some (.connectionUnavailable "gone")] := by
    decide
  have hfailed : some (.connectionUnavailable "gone") ∈ ((notesService.calibrate "notes"
      [⟨"sea", none, []⟩, ⟨"sky", none, []⟩] (some [.half]) none).run.trace breakingMachine).map
      Exchange.failure? := by
    rw [hfailures]
    simp
  obtain ⟨x, hx, hfailed⟩ := List.mem_map.mp hfailed
  obtain ⟨before, error, htrace, houtcome, hpassed, -⟩ :=
    (Service.failures_surface notesService).2.2.2.1 _ _ _ _ Nat breakingMachine x _ hx hfailed
  have hposition : before.length = 1 := by
    have hlength := congrArg List.length hfailures
    rw [htrace] at hlength
    simpa using hlength
  refine ⟨x, before, error, htrace, hfailed, houtcome, ?_⟩
  rw [hpassed.message, hposition]
  rfl

end KnowledgeSearch
