/-
  KnowledgeSearch/Proofs/Search/Parts.lean
  ========================================
  **Operations of many parts find a defect when they come to it.**

  A search of several tables and a calibration check a part just before they send its
  statement, so a defect of a later part is found after the statements of earlier parts are
  sent (`Service.sends_before_defect`), unlike in a write, whose items are all checked before
  the batch.  What holds is that the operation fails, that no statement is sent for the part
  with the defect or for one after it, and that the error is the request's unless storage has
  failed on the way (`Service.defective_part_fails`).
-/
import KnowledgeSearch.Proofs.Search.FailFast

namespace KnowledgeSearch

/-! ### Errors of parts -/

theorem Surfaces.ofRequest {α : Type} {contexts : List Exchange → List String}
    {trace : List Exchange} {e : SearchError}
    (h : Surfaces contexts trace (.error e : Except SearchError α))
    (hfine : ∀ x ∈ trace, x.failure? = none) : e.fault.OfRequest := by
  rcases h.cause with ⟨-, hfault⟩ | ⟨before, x, e', rfl, -, hfailed, -⟩
  · exact hfault
  · exact absurd (hfailed.symm.trans (hfine x (by simp))) (by simp)

namespace Search

variable {σ α : Type} {trace : List Exchange}

/-- An operation that fails, and whose error is the request's unless a call has failed. -/
def FailsForRequest (search : Search α) (m : Machine σ) : Prop :=
  ∃ error, (search.run.run m).1 = .error error ∧
    ((∀ x ∈ search.run.trace m, x.failure? = none) →
      error.kind = .invalidArgument ∨ error.kind = .invalidEmbeddingFormat)

theorem ReadRun.statements_cases {made : Except SearchFault TableStatement} {mode : FetchMode}
    {give : List Row → α} {outcome : Except SearchError α}
    (h : ReadRun made mode give trace outcome) :
    statements trace = [] ∨ ∃ statement, made = .ok statement ∧ statements trace = [statement] := by
  cases h with
  | refused => exact .inl rfl
  | failed hmade => exact .inr ⟨_, hmade, rfl⟩
  | read hmade => exact .inr ⟨_, hmade, rfl⟩

theorem MemoRun.statements_cases {key table : String} {made : Except SearchFault TableStatement}
    {give : List Row → List SearchResult} {outcome : Except SearchError (List SearchResult)}
    (h : MemoRun key table (ReadRun made .rows give) trace outcome) :
    statements trace = [] ∨ ∃ statement, made = .ok statement ∧ statements trace = [statement] := by
  cases h with
  | found => exact .inl rfl
  | failed hread => exact hread.statements_cases
  | @read own results hread =>
    have hstored : statements (.missed key :: (own ++ [.stored key table results])) =
        statements own := by
      change statements (own ++ [.stored key table results]) = _
      rw [statements_append]
      exact List.append_nil _
    rw [hstored]
    exact hread.statements_cases

end Search

namespace Service

variable {σ : Type} {s : Service} {trace : List Exchange}

/-! ### Tables -/

theorem TableRun.statements_cases {r : HybridSearchRequest} {table : String}
    {outcome : Except SearchError (List SearchResult)} (h : s.TableRun r table trace outcome) :
    (statements trace).map TableStatement.tableName? = [] ∨
      (statements trace).map TableStatement.tableName? = [some table] := by
  obtain ⟨inner, hrun, -⟩ := hybridSearch_runs h
  cases hrun with
  | limit => exact .inl rfl
  | weights => exact .inl rfl
  | refused => exact .inl rfl
  | @asked _ _ p own _ _ defaults _ hp hmemo =>
    change (statements own).map TableStatement.tableName? = [] ∨
      (statements own).map TableStatement.tableName? = [some table]
    rcases hmemo.statements_cases with hsent | ⟨statement, hmade, hsent⟩
    · exact .inl (by rw [hsent]; rfl)
    · have hname : p.table.name = table := (Catalog.table_eq_ok (prepareHybrid_eq_ok hp).table).2
      right
      rw [hsent, List.map_singleton, candidates_tableName hmade, hname]

/-- Tables that are searched in turn are sent statements in their order, at most one each. -/
theorem tables_sublist {r : HybridSearchRequest} {tables : List String}
    {outcome : Except SearchError (List (List SearchResult))}
    (h : InTurn (s.TableRun r) tables trace outcome) :
    ((statements trace).map TableStatement.tableName?).Sublist (tables.map some) := by
  have hfirst {table : String} {own : List Exchange}
      {outcome : Except SearchError (List SearchResult)} (h : s.TableRun r table own outcome) :
      ((statements own).map TableStatement.tableName?).Sublist [some table] := by
    rcases h.statements_cases with h | h
    · rw [h]
      exact List.nil_sublist _
    · rw [h]
  induction h with
  | nil => exact List.nil_sublist _
  | failed h => exact (hfirst h).trans (List.singleton_sublist.mpr List.mem_cons_self)
  | later h _ ih =>
    rw [statements_append, List.map_append]
    exact (hfirst h).append ih
  | cons h _ ih =>
    rw [statements_append, List.map_append]
    exact (hfirst h).append ih

theorem multiTableSearch_defective (m : Machine σ) {r : HybridSearchRequest}
    {earlier later : List String} {table : String} (hdefect : s.HybridDefect { r with table }) :
    (s.multiTableSearch (earlier ++ table :: later) r).FailsForRequest m ∧
      (((s.multiTableSearch (earlier ++ table :: later) r).run.sent m).map
        TableStatement.tableName?).Sublist (earlier.map some) := by
  obtain ⟨inner, hrun, houtcome⟩ := multiTableSearch_runs (by simp)
    ((s.multiTableSearch (earlier ++ table :: later) r).runs_trace m)
  rw [Program.sent_eq_statements]
  have hfails (own : List Exchange) (results : List SearchResult) :
      ¬s.TableRun r table own (.ok results) := by
    intro h
    obtain ⟨inner, hrun, houtcome⟩ := hybridSearch_runs h
    obtain ⟨e, rfl, -⟩ := hdefect.turned_down hrun
    cases houtcome
  obtain ⟨e, rfl, hstop⟩ := hrun.stops hfails
  constructor
  · refine ⟨e, houtcome, fun hfine => ?_⟩
    obtain ⟨_, _, _, before, last, _, -, htrace, -, hpart⟩ := hrun.error_cases
    refine ((hybridSearch_surfaces hpart).ofRequest fun x hx => hfine x ?_).kind
    rw [htrace]
    exact List.mem_append_right _ hx
  · rcases hstop with ⟨before, last, _, htrace, hbefore, hlast⟩ | hstop
    · -- the part with the defect is reached, and is turned down without a call
      obtain ⟨_, hrun, -⟩ := hybridSearch_runs hlast
      obtain ⟨_, -, hcalls⟩ := hdefect.turned_down hrun
      rw [htrace, statements_append, statements_of_no_calls hcalls, List.append_nil]
      exact tables_sublist hbefore
    · exact tables_sublist hstop

/-! ### Samples -/

/-- The statement that reads the candidates of a sample. -/
def SampleStatement (s : Service) (table : String) (sample : CalibrationSample)
    (statement : TableStatement) : Prop :=
  ∃ p, s.prepareHybrid table sample.query sample.embedding none none = .ok p ∧
    s.candidates p = .ok statement

theorem SampleRun.statements_cases {table : String} {sample : CalibrationSample}
    {outcome : Except SearchError FetchedSample} (h : SampleRun s table sample trace outcome) :
    statements trace = [] ∨
      ∃ statement, s.SampleStatement table sample statement ∧ statements trace = [statement] := by
  cases h with
  | refused => exact .inl rfl
  | asked hp hread =>
    rcases hread.statements_cases with hsent | ⟨statement, hmade, hsent⟩
    · exact .inl hsent
    · exact .inr ⟨statement, ⟨_, hp, hmade⟩, hsent⟩

theorem SampleRun.fetched_statements {table : String} {sample : CalibrationSample}
    {fetched : FetchedSample} (h : SampleRun s table sample trace (.ok fetched)) :
    ∃ statement, s.SampleStatement table sample statement ∧ statements trace = [statement] := by
  obtain ⟨x, rfl, p, statement, output, hp, hmade, rfl, -⟩ := h.sampled
  exact ⟨statement, ⟨p, hp, hmade⟩, rfl⟩

/-- Samples that are fetched in turn are read with one statement each, up to where that fails. -/
theorem samples_prefix {table : String} {parts : List (CalibrationSample × Nat)}
    {outcome : Except SearchError (List FetchedSample)}
    (h : InTurn (s.NumberedRun table) parts trace outcome) :
    ∃ done, done <+: parts.map Prod.fst ∧
      List.Forall₂ (s.SampleStatement table) done (statements trace) := by
  have hfetched {part : CalibrationSample × Nat} {own : List Exchange} {fetched : FetchedSample}
      (h : s.NumberedRun table part own (.ok fetched)) :
      ∃ statement, s.SampleStatement table part.1 statement ∧ statements own = [statement] := by
    obtain ⟨_ | fetched, hrun, houtcome⟩ := h
    · cases houtcome
    · exact hrun.fetched_statements
  have hnext {part : CalibrationSample × Nat} {parts : List (CalibrationSample × Nat)}
      {early late : List Exchange} {fetched : FetchedSample}
      (h : s.NumberedRun table part early (.ok fetched))
      (hrest : ∃ done, done <+: parts.map Prod.fst ∧
        List.Forall₂ (s.SampleStatement table) done (statements late)) :
      ∃ done, done <+: (part :: parts).map Prod.fst ∧
        List.Forall₂ (s.SampleStatement table) done (statements (early ++ late)) := by
    obtain ⟨statement, hstatement, hsent⟩ := hfetched h
    obtain ⟨done, hdone, hall⟩ := hrest
    refine ⟨part.1 :: done, List.cons_prefix_cons.mpr ⟨rfl, hdone⟩, ?_⟩
    rw [statements_append, hsent]
    exact .cons hstatement hall
  induction h with
  | nil => exact ⟨[], List.nil_prefix, .nil⟩
  | @failed part parts own e h =>
    obtain ⟨inner, hrun, -⟩ := h
    rcases hrun.statements_cases with hsent | ⟨statement, hstatement, hsent⟩
    · exact ⟨[], List.nil_prefix, by rw [hsent]; exact .nil⟩
    · refine ⟨[part.1], List.cons_prefix_cons.mpr ⟨rfl, List.nil_prefix⟩, ?_⟩
      rw [hsent]
      exact .cons hstatement .nil
  | later h _ ih => exact hnext h ih
  | cons h _ ih => exact hnext h ih

section Defective

variable {table : String} {earlier later : List CalibrationSample} {sample : CalibrationSample}

/-- A sample with a defect stops the fetching, there or earlier. -/
theorem samples_stop (hdefect : s.SubjectDefect table sample.query sample.embedding none none)
    {outcome : Except SearchError (List FetchedSample)}
    (h : InTurn (s.NumberedRun table) (earlier ++ sample :: later).zipIdx trace outcome) :
    ∃ e, outcome = .error e ∧ ∃ done, done <+: earlier ∧
      List.Forall₂ (s.SampleStatement table) done (statements trace) := by
  have hrefused {own : List Exchange} {inner : Except SearchError FetchedSample}
      (h : SampleRun s table sample own inner) : own = [] ∧ ∃ e, inner = .error e := by
    cases h with
    | refused => exact ⟨rfl, _, rfl⟩
    | asked hp => exact absurd hp (hdefect.rejects _)
  have hfails (own : List Exchange) (fetched : FetchedSample) :
      ¬s.NumberedRun table (sample, earlier.length) own (.ok fetched) := by
    rintro ⟨inner, hrun, houtcome⟩
    obtain ⟨-, e, rfl⟩ := hrefused hrun
    cases houtcome
  rw [List.zipIdx_append, List.zipIdx_cons, Nat.zero_add] at h
  obtain ⟨e, rfl, ⟨before, last, _, rfl, hbefore, _, hlast, -⟩ | hstopped⟩ := h.stops hfails
  · obtain ⟨rfl, -⟩ := hrefused hlast
    have hdone := samples_prefix hbefore
    rw [List.zipIdx_map_fst] at hdone
    rw [List.append_nil]
    exact ⟨e, rfl, hdone⟩
  · have hdone := samples_prefix hstopped
    rw [List.zipIdx_map_fst] at hdone
    exact ⟨e, rfl, hdone⟩

theorem CalibrationRun.defective
    (hdefect : s.SubjectDefect table sample.query sample.embedding none none) {grid : List Single}
    {k : UInt32} {outcome : Except SearchError CalibrationReport}
    (h : CalibrationRun s table (earlier ++ sample :: later) grid k trace outcome) :
    ∃ e, outcome = .error e ∧ ∃ done, done <+: earlier ∧
      List.Forall₂ (s.SampleStatement table) done (statements trace) := by
  cases h with
  | refused => exact ⟨_, rfl, [], List.nil_prefix, .nil⟩
  | unfetched _ hsamples =>
    obtain ⟨_, -, hdone⟩ := samples_stop hdefect hsamples
    exact ⟨_, rfl, hdone⟩
  | unscored _ hfetched =>
    obtain ⟨_, hfetched, -⟩ := samples_stop hdefect hfetched
    cases hfetched
  | calibrated _ hfetched =>
    obtain ⟨_, hfetched, -⟩ := samples_stop hdefect hfetched
    cases hfetched

theorem calibrate_defective (m : Machine σ)
    (hdefect : s.SubjectDefect table sample.query sample.embedding none none)
    (grid : Option (List Single)) (k : Option UInt32) :
    (s.calibrate table (earlier ++ sample :: later) grid k).FailsForRequest m ∧
      ∃ done, done <+: earlier ∧ List.Forall₂ (s.SampleStatement table) done
        ((s.calibrate table (earlier ++ sample :: later) grid k).run.sent m) := by
  have hruns := (s.calibrate table (earlier ++ sample :: later) grid k).runs_trace m
  have hsurfaces := calibrate_surfaces hruns
  obtain ⟨e, houtcome, hdone⟩ := (calibrate_runs hruns).defective hdefect
  rw [houtcome] at hsurfaces
  rw [Program.sent_eq_statements]
  exact ⟨⟨e, houtcome, fun hfine => (hsurfaces.ofRequest hfine).kind⟩, hdone⟩

end Defective

/-! ### A defect in some part -/

/-- **A part with a defect makes the operation fail, and neither it nor a later part is sent a
    statement.**  What is sent is for the parts before it: for some of the tables, in their order,
    or for the first of the samples.  So nothing is sent if it is the first part. -/
theorem defective_part_fails (s : Service) (m : Machine σ) :
    (∀ (r : HybridSearchRequest) (earlier : List String) (table : String) (later : List String),
      s.HybridDefect { r with table } →
      (s.multiTableSearch (earlier ++ table :: later) r).FailsForRequest m ∧
        (((s.multiTableSearch (earlier ++ table :: later) r).run.sent m).map
          TableStatement.tableName?).Sublist (earlier.map some)) ∧
    ∀ (table : String) (earlier : List CalibrationSample) (sample : CalibrationSample)
      (later : List CalibrationSample) (grid : Option (List Single)) (k : Option UInt32),
      s.SubjectDefect table sample.query sample.embedding none none →
      (s.calibrate table (earlier ++ sample :: later) grid k).FailsForRequest m ∧
        ∃ done, done <+: earlier ∧ List.Forall₂ (s.SampleStatement table) done
          ((s.calibrate table (earlier ++ sample :: later) grid k).run.sent m) :=
  ⟨fun _ _ _ _ hdefect => multiTableSearch_defective m hdefect,
    fun _ _ _ _ grid k hdefect => calibrate_defective m hdefect grid k⟩

/-! ### Notes and a table that is not there -/

/-- A search for notes, to be asked of several tables. -/
def notesEverywhere : HybridSearchRequest :=
  ⟨"notes", "", some (.array [.ofNat 1]), none, none, none, none, some 3⟩

/-- A sample that is in order, and one with a boolean for an embedding. -/
def goodSample : CalibrationSample := ⟨"sea", none, []⟩

def badSample : CalibrationSample := ⟨"sea", some (.bool true), []⟩

theorem nowhere_unknown : notesService.UnknownTable "nowhere" := by
  unfold UnknownTable
  decide

theorem badSample_defect :
    notesService.SubjectDefect "notes" badSample.query badSample.embedding none none := by
  have hfound : notesService.catalog.table "notes" = .ok notes := rfl
  have hboolean : EmbeddingDefect notes (.bool true) := nofun
  exact .embedding hfound rfl nofun hboolean

theorem defective_part_fails_notes :
    ((notesService.multiTableSearch (["notes"] ++ "nowhere" :: []) notesEverywhere).FailsForRequest
        notesMachine ∧
      (((notesService.multiTableSearch (["notes"] ++ "nowhere" :: []) notesEverywhere).run.sent
        notesMachine).map TableStatement.tableName?).Sublist [some "notes"]) ∧
    (notesService.calibrate "notes" ([goodSample] ++ badSample :: []) (some [.half])
      none).FailsForRequest notesMachine := by
  obtain ⟨htables, hsamples⟩ := defective_part_fails notesService notesMachine
  exact ⟨htables notesEverywhere ["notes"] "nowhere" [] (.subject (.table nowhere_unknown)),
    (hsamples "notes" [goodSample] badSample [] (some [.half]) none badSample_defect).1⟩

/-- **A defect of a later part is found after an earlier one was sent a statement**, both for a
    table that is not configured and for a sample that is malformed. -/
theorem sends_before_defect :
    notesService.UnknownTable "nowhere" ∧
      (notesService.multiTableSearch ["notes", "nowhere"] notesEverywhere).run.sent
        notesMachine ≠ [] ∧
      notesService.SubjectDefect "notes" badSample.query badSample.embedding none none ∧
      (notesService.calibrate "notes" [goodSample, badSample] (some [.half]) none).run.sent
        notesMachine ≠ [] := by
  have htables : ((notesService.multiTableSearch ["notes", "nowhere"] notesEverywhere).run.sent
      notesMachine).isEmpty = false := by
    decide +kernel
  have hsamples : ((notesService.calibrate "notes" [goodSample, badSample] (some [.half])
      none).run.sent notesMachine).isEmpty = false := by
    decide +kernel
  exact ⟨nowhere_unknown, by simpa using htables, badSample_defect, by simpa using hsamples⟩

end Service

end KnowledgeSearch
