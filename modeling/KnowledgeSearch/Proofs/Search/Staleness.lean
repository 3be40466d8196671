/-
  KnowledgeSearch/Proofs/Search/Staleness.lean
  ============================================
  **What a search finds after a write.**

  A write removes from the cache what was read from its table, but it cannot remove what has
  been read and is not stored yet.  A search that reads before the write commits and stores
  after the write has cleaned up puts the old rows back, and later searches find them
  (`Service.stale_after_write`).  This is the only way: where no search overtakes a write, a
  search that starts after the write has returned gives rows that were read after the write
  committed (`Service.results_read_after_commit`).
-/
import KnowledgeSearch.Proofs.Search.Provenance
import Mathlib.Data.Set.Function

namespace KnowledgeSearch

/-- A process that reads a table before the event at one position, and stores what it has read
    after the event at another. -/
def Overtakes (events : List Event) (table : String) (commit cleanup : Nat) : Prop :=
  ∃ (k j i : Nat) (statement : TableStatement) (output : QueryOutput) (key : String)
    (results : List SearchResult), k < commit ∧ cleanup < j ∧
    events[k]? = some ⟨i, .read statement output⟩ ∧ statement.tableName? = some table ∧
    events[j]? = some ⟨i, .stored key table results⟩ ∧
    ∀ (n : Nat) event, k < n → n < j → events[n]? = some event → event.process ≠ i

namespace Service

variable {σ : Type} {s : Service} {machine : Machine σ} {operations : Nat → Operation}

/-- A write that has committed and returned has cleaned up in between. -/
theorem cleaned_up {early : List Nat} {w : Nat} {table : String} {items : List EmbeddingItem}
    (hwrite : operations w = .call (.storeEmbeddings table items)) {affected : Nat}
    (hreturned : ((s.launch machine operations).run early).programs w =
      .done (some (.written (.ok affected))))
    {c : Nat} {statements : List TableStatement} {count : Nat}
    (hcommit : ((s.launch machine operations).run early).events[c]? =
      some ⟨w, .committed statements count⟩) :
    ∃ i, c < i ∧
      ((s.launch machine operations).run early).events[i]? = some ⟨w, .forgot table⟩ := by
  have hends := (s.operations_obey machine operations early).1 w
  rw [hreturned] at hends
  have hpast := past_of_event hcommit
  obtain hnothing | ⟨written, hwritten⟩ :=
    (hends _ _ hwrite rfl).wrote table items affected rfl rfl
  · rw [hnothing] at hpast
    cases hpast
  · have hlast : (past w ((s.launch machine operations).run early).events).getLast? =
        some (.forgot table) := by
      rw [hwritten]
      rfl
    obtain ⟨i, hi, hafter⟩ := past_getLast hlast
    refine ⟨i, ?_, hi⟩
    -- the commit is an event of the same process, so it does not come after the last one
    by_contra hnot
    have hne : i ≠ c := position_ne hi hcommit nofun
    exact hafter c _ (by omega) hcommit rfl

/-- What is found for a table after a clean-up was stored after it, by a process that had read it
    before. -/
theorem found_after_cleanup (hempty : machine.entries = [])
    (hdistinct : Set.InjOn CacheKey.ofPayload {payload | s.Asked operations payload})
    {schedule : List Nat} {payload : Json} {table : String} (hasked : s.Asked operations payload)
    (hnames : Names payload table) {n b : Nat} {results : List SearchResult}
    (hfound : ((s.launch machine operations).run schedule).events[n]? =
      some ⟨b, .found (CacheKey.ofPayload payload) results⟩)
    {cleanup w : Nat} (hlater : cleanup < n)
    (hcleanup : ((s.launch machine operations).run schedule).events[cleanup]? =
      some ⟨w, .forgot table⟩) :
    ∃ k j i statement output, cleanup < j ∧
      ((s.launch machine operations).run schedule).events[k]? = some ⟨i, .read statement output⟩ ∧
      ((s.launch machine operations).run schedule).events[j]? =
        some ⟨i, .stored (CacheKey.ofPayload payload) table results⟩ ∧
      (∀ (n : Nat) event, k < n → n < j →
        ((s.launch machine operations).run schedule).events[n]? = some event →
        event.process ≠ i) ∧
      s.ReadAs payload table statement output results := by
  obtain ⟨j, stored, hstored⟩ :=
    (s.operations_remember hempty operations schedule).found n b _ results hfound
  obtain ⟨i, hj⟩ := hstored.stored
  obtain ⟨other, statement, output, hother, hkey, hmade, k, -, hk, hbetween⟩ := stored_from_read hj
  obtain rfl : payload = other := hdistinct hasked hother hkey
  obtain rfl : table = stored := hnames.unique hmade.names
  refine ⟨k, j, i, statement, output, ?_, hk, hj, hbetween, hmade⟩
  by_contra hnot
  have hne : j ≠ cleanup := position_ne hj hcleanup nofun
  exact hstored.kept cleanup w (by omega) hlater hcleanup

/-- **No stale result after a write that no search overtakes.**  Take any operations on one
    machine whose cache is empty at first, whose steps are taken in any order, and suppose that
    the payloads they may ask for have distinct keys.  A write has committed and returned; after
    that a call starts, and it ends with results for the table of the write.  These results were
    read after the write committed, for a payload of that call, unless another process overtook
    the write. -/
theorem results_read_after_commit (s : Service) (machine : Machine σ)
    (hempty : machine.entries = []) (operations : Nat → Operation)
    (hdistinct : Set.InjOn CacheKey.ofPayload {payload | s.Asked operations payload})
    {early late : List Nat} {w : Nat} {table : String} {items : List EmbeddingItem}
    (hwrite : operations w = .call (.storeEmbeddings table items)) {affected : Nat}
    (hreturned : ((s.launch machine operations).run early).programs w =
      .done (some (.written (.ok affected))))
    {c : Nat} {statements : List TableStatement} {count : Nat}
    (hcommit : ((s.launch machine operations).run early).events[c]? =
      some ⟨w, .committed statements count⟩)
    {b : Nat} (hstarts : b ∉ early) {call : Call} (hcall : operations b = .call call)
    {reply : Reply}
    (hends : ((s.launch machine operations).run (early ++ late)).programs b = .done (some reply))
    {results : List SearchResult} (hgives : call.Gives reply table results)
    (hovertakes : ∀ i, ((s.launch machine operations).run (early ++ late)).events[i]? =
        some ⟨w, .forgot table⟩ →
      ¬ Overtakes ((s.launch machine operations).run (early ++ late)).events table c i) :
    ∃ k > c, ∃ i payload statement output,
      ((s.launch machine operations).run (early ++ late)).events[k]? =
        some ⟨i, .read statement output⟩ ∧
      call.MayAsk s payload ∧ s.ReadAs payload table statement output results := by
  obtain ⟨cleanup, hafter, hcleanup⟩ := cleaned_up hwrite hreturned hcommit
  have hbound := (List.getElem?_eq_some_iff.mp hcleanup).1
  -- whatever the call does, it does after the write has returned
  have hlater {n : Nat} {exchange : Exchange}
      (hn : ((s.launch machine operations).run (early ++ late)).events[n]? = some ⟨b, exchange⟩) :
      cleanup < n := by
    have hstarted := Execution.length_le_of_event hstarts rfl hn
    omega
  have hlast {n : Nat} {event : Event}
      (hn : ((s.launch machine operations).run early).events[n]? = some event) :
      ((s.launch machine operations).run (early ++ late)).events[n]? = some event := by
    rw [Execution.run_append]
    exact Execution.event_run hn late
  have hobeys := (s.operations_obey machine operations (early ++ late)).1 b
  rw [hends] at hobeys
  obtain ⟨payload, hmay, hnames, hfrom⟩ := (hobeys _ _ hcall rfl).gives table results hgives
  rcases hfrom with hfound | ⟨statement, output, hread, hmade⟩
  · -- found in the cache
    obtain ⟨n, hn⟩ := mem_past hfound
    have hasked : s.Asked operations payload := by
      refine ⟨b, ?_⟩
      rw [hcall]
      exact hmay
    obtain ⟨k, j, i, statement, output, hj, hk, hstored, hbetween, hmade⟩ :=
      found_after_cleanup hempty hdistinct hasked hnames hn (hlater hn) (hlast hcleanup)
    refine ⟨k, ?_, i, payload, statement, output, hk, hmay, hmade⟩
    by_contra hnot
    have hne : k ≠ c := position_ne hk (hlast hcommit) nofun
    exact hovertakes cleanup (hlast hcleanup)
      ⟨k, j, i, statement, output, _, results, by omega, hj, hk, hmade.tableName, hstored,
        hbetween⟩
  · -- read by the call itself
    obtain ⟨n, hn⟩ := mem_past hread
    have hlate := hlater hn
    exact ⟨n, by omega, b, payload, statement, output, hn, hmay, hmade⟩

end Service

/-! ### A write to notes among searches for them -/

def writeAmongSearches : Nat → Operation
  | 1 => .call (.storeEmbeddings "notes" [⟨.ofNat 7, .array [.ofNat 1]⟩])
  | _ => .call (.vectorSearch (notesRequest 3))

/-- The searches ask for one payload, and the write for none. -/
theorem asked_writeAmongSearches {payload : Json}
    (h : notesService.Asked writeAmongSearches payload) :
    notesService.vectorPayload? (notesRequest 3) = some payload := by
  obtain ⟨i, hi⟩ := h
  unfold writeAmongSearches at hi
  split at hi
  · obtain ⟨_, hi⟩ := hi
    cases hi
  · exact Call.mayAsk_vectorSearch.mp hi

/-- A machine whose cache is empty and has room for four results. -/
def notesMachine : Machine Nat := .start notesBackend 0 id ⟨some (.empty 1000 4), ⟨.half, .half⟩⟩

def noteRow (id : Nat) : Row := [("distance", .ofNat 0), ("id", .ofNat id)]

/-- What a search finds while the note has a key. -/
def noteResults (id : Nat) : List SearchResult :=
  (QueryOutput.rows [noteRow id]).toRows.map (Service.PreparedVector.result notes)

theorem notesRequest_prepared : ∃ p statement,
    notesService.prepareVector (notesRequest 3) = .ok p ∧ p.table = notes ∧
      notesService.nearest p none = .ok statement := by
  have hprepared : (notesService.prepareVector (notesRequest 3)).isOk = true := by decide +kernel
  cases hp : notesService.prepareVector (notesRequest 3) with
  | error e =>
    rw [hp] at hprepared
    cases hprepared
  | ok p => exact ⟨p, _, rfl, (Except.ok.inj (Service.prepareVector_table hp)).symm, rfl⟩

theorem notesItems_prepared : ∃ statement,
    Service.storeItems notes 0 [⟨.ofNat 7, .array [.ofNat 1]⟩] = .ok [statement] ∧
      statement.tableName? = some "notes" := by
  have hlength : ((Service.storeItems notes 0 [⟨.ofNat 7, .array [.ofNat 1]⟩]).map
      List.length).toOption = some 1 := by decide +kernel
  cases hitems : Service.storeItems notes 0 [⟨.ofNat 7, .array [.ofNat 1]⟩] with
  | error e =>
    rw [hitems] at hlength
    cases hlength
  | ok statements =>
    rw [hitems] at hlength
    obtain ⟨statement, rfl⟩ := List.length_eq_one_iff.mp (Option.some.inj hlength)
    obtain ⟨key, embedding, rfl⟩ := Service.storeItems_eq_ok hitems statement (by simp)
    exact ⟨_, rfl, rfl⟩

/-- What the calls do, step by step. -/
theorem writeAmongSearches_steps :
    ∃ (p : Service.PreparedVector) (statement written : TableStatement)
      (failed failed' : StorageError → Reply),
      notesService.prepareVector (notesRequest 3) = .ok p ∧
      statement.tableName? = some "notes" ∧ written.tableName? = some "notes" ∧
      (∀ i ≠ 1, (writeAmongSearches i).program notesService =
        searchSteps (CacheKey.ofPayload (p.payload none)) "notes" statement
          (fun output => output.toRows.map (Service.PreparedVector.result notes)) failed) ∧
      (writeAmongSearches 1).program notesService = writeSteps "notes" [written] failed' := by
  obtain ⟨p, statement, hp, htable, hstatement⟩ := notesRequest_prepared
  obtain ⟨written, hitems, hname⟩ := notesItems_prepared
  have hsearch := Service.vectorSearch_steps hp hstatement
  rw [htable] at hsearch
  have hcall (i : Nat) (hi : i ≠ 1) :
      writeAmongSearches i = .call (.vectorSearch (notesRequest 3)) := by
    unfold writeAmongSearches
    split
    · exact absurd rfl hi
    · rfl
  refine ⟨p, statement, written, _, _, hp, ?_, hname,
    fun i hi => (congrArg (Operation.program notesService) (hcall i hi)).trans hsearch,
    Service.storeEmbeddings_steps rfl hitems (by simp)⟩
  rw [Service.nearest_tableName hstatement, htable]
  rfl

/-- Reading gives the note with the key that the database has then; a write changes the key. -/
theorem notesBackend_answers {statement written : TableStatement}
    (hname : statement.tableName? = some "notes") (hwritten : written.tableName? = some "notes") :
    (∀ mode d, notesBackend.execute statement mode d = (.ok (.rows [noteRow d]), d)) ∧
      ∀ d, notesBackend.executeBatch [written] d = (.ok 1, d + 1) := by
  constructor
  · intro mode d
    simp [notesBackend, hname, noteRow]
  · intro d
    simp [notesBackend, hwritten]

/-- The machine and the calls after some of their steps. -/
def notesRun (schedule : List Nat) : Execution Nat (Option Reply) :=
  (notesService.launch notesMachine writeAmongSearches).run schedule

/-- Two runs.  In the first the write commits and cleans up between the second and the third
    step of one search, and another search comes after all of them.  In the second the first
    search is over before the write. -/
theorem writeAmongSearches_runs :
    ∃ (key : String) (statement written : TableStatement),
      ((notesRun [0, 0, 1, 1, 0]).programs 1 = .done (some (.written (.ok 1))) ∧
        (notesRun [0, 0, 1, 1, 0, 2]).programs 2 =
          .done (some (.results (.ok (noteResults 0)))) ∧
        (notesRun [0, 0, 1, 1, 0, 2]).events =
          [⟨0, .lookup key, none⟩, ⟨0, .read statement (.rows [noteRow 0])⟩,
            ⟨1, .committed [written] 1⟩, ⟨1, .forgot "notes"⟩,
            ⟨0, .stored key "notes" (noteResults 0)⟩, ⟨2, .found key (noteResults 0)⟩]) ∧
      (notesRun [0, 0, 0, 1, 1]).programs 1 = .done (some (.written (.ok 1))) ∧
      (notesRun ([0, 0, 0, 1, 1] ++ [2, 2, 2])).programs 2 =
        .done (some (.results (.ok (noteResults 1)))) ∧
      (notesRun ([0, 0, 0, 1, 1] ++ [2, 2, 2])).events.map Event.process =
        [0, 0, 0, 1, 1, 2, 2, 2] ∧
      (notesRun [0, 0, 0, 1, 1]).events[3]? = some ⟨1, .committed [written] 1⟩ := by
  obtain ⟨p, statement, written, failed, failed', -, hname, hname', hsearch, hwrite⟩ :=
    writeAmongSearches_steps
  obtain ⟨hread, hwritten⟩ := notesBackend_answers hname hname'
  refine ⟨CacheKey.ofPayload (p.payload none), statement, written, ?_⟩
  simp [notesRun, Execution.run, Execution.step, Execution.start, Service.launch, hsearch, hwrite,
    searchSteps, writeSteps, Function.update, Machine.perform, Machine.lookup, Machine.store,
    Machine.invalidate, notesMachine, Machine.start, hread, hwritten, noteResults, Cache.empty,
    Cache.get?, Cache.find?, Cache.put, Cache.invalidate, Cache.without, Cache.makeRoom,
    Exchange.read, Exchange.committed, Exchange.forgot, Exchange.stored, Exchange.found]

/-- **A search that overtakes a write brings the old rows back.**  The write has committed, as
    event 2, and returned; a search that starts after that ends with results, and every
    statement that found rows ran before the commit. -/
theorem Service.stale_after_write :
    (notesRun [0, 0, 1, 1, 0]).programs 1 = .done (some (.written (.ok 1))) ∧
      (notesRun [0, 0, 1, 1, 0, 2]).programs 2 =
        .done (some (.results (.ok (noteResults 0)))) ∧
      (∃ written, (notesRun [0, 0, 1, 1, 0, 2]).events[2]? = some ⟨1, .committed [written] 1⟩) ∧
      ∀ (k i : Nat) statement output,
        (notesRun [0, 0, 1, 1, 0, 2]).events[k]? = some ⟨i, .read statement output⟩ → k < 2 := by
  obtain ⟨key, statement, written, ⟨hreturned, hresults, hevents⟩, -⟩ := writeAmongSearches_runs
  refine ⟨hreturned, hresults, ⟨written, by rw [hevents]; rfl⟩, ?_⟩
  intro k i statement' output hk
  by_contra hlate
  have hmem : ⟨i, .read statement' output⟩ ∈ (notesRun [0, 0, 1, 1, 0, 2]).events.drop 2 := by
    apply List.mem_of_getElem? (i := k - 2)
    rw [List.getElem?_drop, Nat.add_sub_of_le (by omega)]
    exact hk
  have haction := List.mem_map_of_mem (f := fun event : Event => event.exchange.action) hmem
  rw [hevents] at haction
  simp [Exchange.read, Exchange.committed, Exchange.forgot, Exchange.stored,
    Exchange.found] at haction

/-- A search for notes after a write gives what the write has left, not what was in the cache
    before. -/
theorem Service.results_read_after_commit_notes :
    (notesRun [0, 0, 0, 1, 1]).programs 1 = .done (some (.written (.ok 1))) ∧
      (notesRun ([0, 0, 0, 1, 1] ++ [2, 2, 2])).programs 2 =
        .done (some (.results (.ok (noteResults 1)))) ∧
      ∃ k > 3, ∃ i payload statement output,
        (notesRun ([0, 0, 0, 1, 1] ++ [2, 2, 2])).events[k]? =
          some ⟨i, .read statement output⟩ ∧
        (Call.vectorSearch (notesRequest 3)).MayAsk notesService payload ∧
        notesService.ReadAs payload "notes" statement output (noteResults 1) := by
  obtain ⟨key, statement, written, -, hreturned, hresults, hprocesses, hcommit⟩ :=
    writeAmongSearches_runs
  refine ⟨hreturned, hresults, ?_⟩
  unfold notesRun at hreturned hresults hprocesses hcommit ⊢
  have hdistinct : Set.InjOn CacheKey.ofPayload
      {payload | notesService.Asked writeAmongSearches payload} := by
    intro a ha b hb _
    exact Option.some.inj ((asked_writeAmongSearches ha).symm.trans (asked_writeAmongSearches hb))
  refine Service.results_read_after_commit notesService notesMachine rfl writeAmongSearches
    hdistinct rfl hreturned hcommit (by decide) rfl hresults ⟨rfl, rfl⟩ ?_
  -- before the commit only process 0 has done anything, and after the write it does no more
  rintro cleanup hcleanup ⟨k, j, i, _, _, _, _, hk, hj, hread, -, hstored, -⟩
  have hprocess {n i : Nat} {exchange : Exchange}
      (h : ((notesService.launch notesMachine writeAmongSearches).run
        ([0, 0, 0, 1, 1] ++ [2, 2, 2])).events[n]? = some ⟨i, exchange⟩) :
      [0, 0, 0, 1, 1, 2, 2, 2][n]? = some i := by
    rw [← hprocesses, List.getElem?_map, h]
    rfl
  have hearly : ∀ n < 3, [0, 0, 0, 1, 1, 2, 2, 2][n]? = some 0 := by decide
  have hlate : ∀ n < 8, 3 < n → [0, 0, 0, 1, 1, 2, 2, 2][n]? ≠ some 0 := by decide
  have hafter : 3 ≤ cleanup := by
    by_contra hbefore
    have hsame := (hearly cleanup (by omega)).symm.trans (hprocess hcleanup)
    cases hsame
  obtain rfl : 0 = i := Option.some.inj ((hearly k hk).symm.trans (hprocess hread))
  have hbound : j < 8 := (List.getElem?_eq_some_iff.mp (hprocess hstored)).1
  exact hlate j hbound (by omega) (hprocess hstored)

end KnowledgeSearch
