/-
  KnowledgeSearch/Proofs/Search/Memo.lean
  =======================================
  **A machine with a cache mirrors one without.**

  Two machines with one database, one of them with a cache (`Service.Mirrors`).  What
  carries the comparison is that every entry of the cache is fresh: the search that it
  stands for, asked of the database as it is now, gives the stored results
  (`Service.Fresh`).  An entry stays fresh as long as its table is left alone; eviction and
  expiry only remove entries; a write removes those of its table.

  `Search.Agrees` says that an operation has one outcome on both machines and leaves them
  mirroring each other, and has a rule for each way in which operations are put together.
  The rule that matters is the one for a search that asks the cache first (`agrees_memo`).
-/
import KnowledgeSearch.Proofs.Search.Payload
import KnowledgeSearch.Proofs.Search.Trace
import KnowledgeSearch.Search.Calibration

namespace KnowledgeSearch

/-! ### Databases -/

/-- The table that a statement is about, if it is about one. -/
def TableStatement.tableName? : TableStatement → Option String
  | nearest rows => some rows.table.name
  | candidates rows => some rows.table.name
  | countEmbedded table => some table.name
  | storeEmbedding table _ _ => some table.name
  | dropIndex _ => none
  | createIndex index => some index.table

/-- A database that answers statements from a state which only successful transactions
    change.  A transaction on one table changes the answers for that table only. -/
structure Backend.Lawful {σ : Type} (backend : Backend σ) : Prop where
  executed : ∀ statement mode d, (backend.execute statement mode d).2 = d
  failed : ∀ statements d e, (backend.executeBatch statements d).1 = .error e →
    (backend.executeBatch statements d).2 = d
  apart : ∀ table statements d, (∀ written ∈ statements, written.tableName? = some table) →
    ∀ statement mode, statement.tableName? ≠ some table →
      (backend.execute statement mode (backend.executeBatch statements d).2).1 =
        (backend.execute statement mode d).1

/-- Two machines whose databases answer alike for a table. -/
structure Machine.Alike {σ : Type} (table : String) (m m' : Machine σ) : Prop where
  backend : m'.backend = m.backend
  answers : ∀ statement mode, statement.tableName? = some table →
    (m'.backend.execute statement mode m'.database).1 =
      (m.backend.execute statement mode m.database).1

theorem Machine.Alike.of_eq {σ : Type} {m m' : Machine σ} (table : String)
    (hbackend : m'.backend = m.backend) (hdatabase : m'.database = m.database) :
    m.Alike table m' :=
  ⟨hbackend, fun _ _ _ => by rw [hbackend, hdatabase]⟩

/-! ### Runs -/

namespace Machine

variable {σ : Type}

theorem perform_execute (statement : TableStatement) (mode : FetchMode) (m : Machine σ) :
    m.perform (.execute statement mode) =
      ((m.backend.execute statement mode m.database).1,
        { m with database := (m.backend.execute statement mode m.database).2 }) := rfl

theorem perform_executeBatch (statements : List TableStatement) (m : Machine σ) :
    m.perform (.executeBatch statements) =
      ((m.backend.executeBatch statements m.database).1,
        { m with database := (m.backend.executeBatch statements m.database).2 }) := rfl

end Machine

instance : LawfulMonad Program :=
  LawfulMonad.mk' Program Program.bind_done (fun _ _ => rfl) Program.bind_assoc

namespace Search

variable {α β : Type} {σ : Type} {search : Search α} {next : α → Search β}

theorem run_bind (m : Machine σ) : (search >>= next).run.run m =
    match search.run.run m with
    | (.ok value, m) => (next value).run.run m
    | (.error e, m) => (.error e, m) := by
  have hbind : (search >>= next).run.run m =
      (ExceptT.bindCont (fun value => (next value).run) (search.run.run m).1 : Program _).run
        (search.run.run m).2 := Program.run_bind search.run _ m
  rw [hbind]
  rcases search.run.run m with ⟨_ | value, m'⟩ <;> rfl

theorem run_within (context : String) (m : Machine σ) : (within context search).run.run m =
    (inContext context (search.run.run m).1, (search.run.run m).2) :=
  Program.run_bind search.run _ m

/-- A search that changes nothing, and whose outcome a table's answers decide. -/
structure Reads (table : String) (search : Search α) : Prop where
  keeps : ∀ {σ : Type} {m : Machine σ}, m.backend.Lawful → (search.run.run m).2 = m
  decided : ∀ {σ : Type} {m m' : Machine σ}, m.backend.Lawful → m.Alike table m' →
    (search.run.run m').1 = (search.run.run m).1

theorem Reads.bind {table : String} (h : search.Reads table)
    (hnext : ∀ value, (next value).Reads table) : (search >>= next).Reads table where
  keeps := by
    intro σ m hlawful
    have hm := h.keeps hlawful
    rw [run_bind]
    rcases hrun : search.run.run m with ⟨_ | value, m₁⟩
    · rw [hrun] at hm
      exact hm
    · rw [hrun] at hm
      cases hm
      exact (hnext value).keeps hlawful
  decided := by
    intro σ m m' hlawful halike
    have hm := h.keeps hlawful
    have hm' := h.keeps (halike.backend ▸ hlawful : m'.backend.Lawful)
    have houtcome := h.decided hlawful halike
    rw [run_bind, run_bind]
    rcases hrun : search.run.run m with ⟨outcome, m₁⟩
    rcases hrun' : search.run.run m' with ⟨outcome', m₁'⟩
    rw [hrun] at hm houtcome
    rw [hrun'] at hm' houtcome
    cases hm
    cases hm'
    cases houtcome
    cases outcome with
    | error e => rfl
    | ok value => exact (hnext value).decided hlawful halike

theorem reads_pure (table : String) (value : α) : (pure value : Search α).Reads table :=
  ⟨fun _ => rfl, fun _ _ => rfl⟩

/-- What follows a check knows what it found. -/
theorem Reads.check {table : String} {outcome : Except SearchFault α}
    (hnext : ∀ value, outcome = .ok value → (next value).Reads table) :
    (ofExcept outcome >>= next).Reads table := by
  cases outcome with
  | ok value => exact hnext value rfl
  | error fault => exact ⟨fun _ => rfl, fun _ _ => rfl⟩

theorem reads_rows {table : String} {statement : TableStatement} (mode : FetchMode)
    (h : statement.tableName? = some table) : (rows statement mode).Reads table where
  keeps := by
    intro σ m hlawful
    simp only [rows, ExceptT.run_mk, Program.run, Machine.perform_execute, hlawful.executed]
  decided := by
    intro σ m m' _ halike
    simp only [rows, ExceptT.run_mk, Program.run, Machine.perform_execute,
      halike.answers statement mode h]

end Search

/-! ### Entries -/

namespace Cache

variable {α : Type} {entry : CacheEntry α} {entries : List (CacheEntry α)} {cache : Cache α}

theorem mem_without {key : String} (h : entry ∈ without key entries) : entry ∈ entries :=
  (List.mem_filter.mp h).1

theorem mem_makeRoom {max steps : Nat} (h : entry ∈ makeRoom max steps entries) :
    entry ∈ entries := by
  induction steps generalizing entries with
  | zero => exact h
  | succ steps ih =>
    unfold makeRoom at h
    split at h
    · exact h
    · split at h
      · exact h
      · exact mem_without (ih h)

/-- What a look-up finds was stored under its key, and it adds nothing. -/
theorem get?_cases (cache : Cache α) (now : Instant) (key : String) :
    (∀ entry ∈ (cache.get? now key).2.entries, entry ∈ cache.entries) ∧
      ∀ value, (cache.get? now key).1 = some value →
        ∃ entry ∈ cache.entries, entry.key = key ∧ entry.value = value := by
  unfold get?
  cases hfind : cache.find? key with
  | none => simp
  | some found =>
    dsimp only
    split
    · exact ⟨fun _ => mem_without, fun _ h => by cases h⟩
    · refine ⟨fun _ => id, fun value h => ?_⟩
      cases h
      exact ⟨found, List.mem_of_find?_eq_some hfind, by simpa using List.find?_some hfind, rfl⟩

theorem mem_put {now : Instant} {key table : String} {value : α}
    (h : entry ∈ (cache.put now key table value).entries) :
    entry ∈ cache.entries ∨ entry.key = key ∧ entry.table = table ∧ entry.value = value := by
  unfold put at h
  split at h
  · exact Or.inl h
  · rcases List.mem_append.mp h with h | h
    · left
      have h := mem_without h
      split at h
      · exact h
      · exact mem_makeRoom h
    · cases List.mem_singleton.mp h
      exact Or.inr ⟨rfl, rfl, rfl⟩

theorem mem_invalidate {table : String} (h : entry ∈ (cache.invalidate table).2.entries) :
    entry ∈ cache.entries ∧ entry.table ≠ table := by
  simpa [invalidate] using h

end Cache

/-! ### Caches of machines -/

namespace Machine

variable {σ : Type} {m : Machine σ}

/-- What a machine has stored. -/
def entries (m : Machine σ) : List (CacheEntry (List SearchResult)) :=
  (m.service.cache.map Cache.entries).getD []

/-- A machine that only its cache has changed in, and whose new entries have a property. -/
structure CacheChange (new : CacheEntry (List SearchResult) → Prop) (m m' : Machine σ) : Prop where
  backend : m'.backend = m.backend
  database : m'.database = m.database
  weights : m'.service.weights = m.service.weights
  entries : ∀ entry ∈ m'.entries, entry ∈ m.entries ∨ new entry

theorem lookup_cases (m : Machine σ) (key : String) :
    m.CacheChange (fun _ => False) (m.lookup key).2 ∧
      ∀ results, (m.lookup key).1 = some results →
        ∃ entry ∈ m.entries, entry.key = key ∧ entry.value = results := by
  unfold lookup
  cases hcache : m.service.cache with
  | none => exact ⟨⟨rfl, rfl, rfl, fun _ => Or.inl⟩, fun _ h => by cases h⟩
  | some cache =>
    obtain ⟨hentries, hfound⟩ := cache.get?_cases (m.clock m.readings) key
    have hstored : m.entries = cache.entries := by simp [entries, hcache]
    refine ⟨⟨rfl, rfl, rfl, fun entry h => Or.inl ?_⟩, ?_⟩
    · rw [hstored]
      exact hentries entry h
    · rw [hstored]
      exact hfound

theorem store_change (m : Machine σ) (key table : String) (results : List SearchResult) :
    m.CacheChange (fun entry => entry.key = key ∧ entry.table = table ∧ entry.value = results)
      (m.store key table results) := by
  unfold store
  cases hcache : m.service.cache with
  | none => exact ⟨rfl, rfl, rfl, fun _ => Or.inl⟩
  | some cache =>
    refine ⟨rfl, rfl, rfl, fun entry h => ?_⟩
    have hstored : m.entries = cache.entries := by simp [entries, hcache]
    rw [hstored]
    exact Cache.mem_put h

theorem mem_invalidate {table : String} {entry : CacheEntry (List SearchResult)}
    (h : entry ∈ (m.invalidate table).entries) : entry ∈ m.entries ∧ entry.table ≠ table := by
  cases hcache : m.service.cache with
  | none => simp [invalidate, entries, hcache] at h
  | some cache =>
    have hstored : m.entries = cache.entries := by simp [entries, hcache]
    rw [hstored]
    apply Cache.mem_invalidate
    simpa [invalidate, entries, hcache] using h

/-- A machine without a cache stays as it is. -/
theorem invalidate_of_off (table : String) (h : m.service.cache = none) :
    m.invalidate table = m := by
  obtain ⟨backend, database, ⟨cache, weights⟩, clock, readings⟩ := m
  cases h
  rfl

theorem store_of_off (key table : String) (results : List SearchResult)
    (h : m.service.cache = none) : m.store key table results = m := by
  simp [store, h]

end Machine

/-! ### Mirrors -/

/-- Payloads that their keys tell apart. -/
def CacheKey.Distinct (payloads : List Json) : Prop :=
  ∀ a ∈ payloads, ∀ b ∈ payloads, ofPayload a = ofPayload b → a = b

namespace Service

variable {σ : Type} {s : Service} {payloads : List Json}

theorem nearest_tableName {p : PreparedVector} {filter : Option Json} {statement : TableStatement}
    (h : s.nearest p filter = .ok statement) : statement.tableName? = some p.table.name := by
  obtain ⟨_, _, -, -, rfl⟩ := nearest_eq_ok h
  rfl

theorem candidates_tableName {p : PreparedHybrid} {statement : TableStatement}
    (h : s.candidates p = .ok statement) : statement.tableName? = some p.table.name := by
  obtain ⟨_, -, rfl⟩ := candidates_eq_ok h
  rfl

theorem reads_fetchCandidates (s : Service) (p : PreparedHybrid) :
    (s.fetchCandidates p).Reads p.table.name := by
  apply Search.Reads.check
  intro statement hstatement
  apply (Search.reads_rows .rows (candidates_tableName hstatement)).bind
  exact fun _ => Search.reads_pure _ _

theorem Asks.reads {payload : Json} {table : String} {search : Search (List SearchResult)}
    (h : s.Asks payload table search) : search.Reads table := by
  cases h with
  | vector =>
    apply Search.Reads.check
    intro statement hstatement
    apply (Search.reads_rows .rows (nearest_tableName hstatement)).bind
    exact fun _ => Search.reads_pure _ _
  | @hybrid p => exact (s.reads_fetchCandidates p).bind fun _ => Search.reads_pure _ _

/-- An entry that holds what its search would find now. -/
def Fresh (s : Service) (payloads : List Json) (m : Machine σ)
    (entry : CacheEntry (List SearchResult)) : Prop :=
  ∃ payload ∈ payloads, entry.key = CacheKey.ofPayload payload ∧
    ∃ search, s.Asks payload entry.table search ∧ (search.run.run m).1 = .ok entry.value

/-- An entry stays fresh as long as its table answers as before. -/
theorem Fresh.of_alike {m m' : Machine σ} {entry : CacheEntry (List SearchResult)}
    (h : s.Fresh payloads m entry) (hlawful : m.backend.Lawful)
    (halike : m.Alike entry.table m') : s.Fresh payloads m' entry := by
  obtain ⟨payload, hmem, hkey, search, hasks, hvalue⟩ := h
  refine ⟨payload, hmem, hkey, search, hasks, ?_⟩
  rw [hasks.reads.decided hlawful halike]
  exact hvalue

/-- A machine with a cache and one without, which have one database and the given
    weights, and the entries of the cache are fresh. -/
structure Mirrors (s : Service) (payloads : List Json) (weights : HybridWeights)
    (cached plain : Machine σ) : Prop where
  lawful : plain.backend.Lawful
  backend : cached.backend = plain.backend
  database : cached.database = plain.database
  cachedWeights : cached.service.weights = weights
  plainWeights : plain.service.weights = weights
  finite : weights.Finite
  off : plain.service.cache = none
  fresh : ∀ entry ∈ cached.entries, s.Fresh payloads plain entry

variable {weights : HybridWeights} {cached cached' plain : Machine σ}

theorem Mirrors.change (h : s.Mirrors payloads weights cached plain)
    {new : CacheEntry (List SearchResult) → Prop} (hchange : cached.CacheChange new cached')
    (hnew : ∀ entry, new entry → s.Fresh payloads plain entry) :
    s.Mirrors payloads weights cached' plain where
  lawful := h.lawful
  backend := hchange.backend.trans h.backend
  database := hchange.database.trans h.database
  cachedWeights := hchange.weights.trans h.cachedWeights
  plainWeights := h.plainWeights
  finite := h.finite
  off := h.off
  fresh := fun entry hentry => (hchange.entries entry hentry).elim (h.fresh entry) (hnew entry)

theorem Mirrors.cachedLawful (h : s.Mirrors payloads weights cached plain) :
    cached.backend.Lawful :=
  h.backend ▸ h.lawful

theorem Mirrors.alike (h : s.Mirrors payloads weights cached plain) (table : String) :
    plain.Alike table cached := .of_eq table h.backend h.database

end Service

/-! ### Agreement -/

namespace Search

variable {α β : Type} {s : Service} {payloads : List Json} {weights : HybridWeights}
  {search : Search α} {next : α → Search β}

/-- An operation that has one outcome on machines that mirror each other, and leaves them
    so.  What it succeeds with has a property, together with the weights then. -/
def Agrees (s : Service) (payloads : List Json) (weights : HybridWeights)
    (returns : α → HybridWeights → Prop) (search : Search α) : Prop :=
  ∀ (σ : Type) (cached plain : Machine σ), s.Mirrors payloads weights cached plain →
    (search.run.run cached).1 = (search.run.run plain).1 ∧
      ∃ after, s.Mirrors payloads after (search.run.run cached).2 (search.run.run plain).2 ∧
        ∀ value, (search.run.run plain).1 = .ok value → returns value after

theorem Agrees.bind {middle : α → HybridWeights → Prop} {returns : β → HybridWeights → Prop}
    (h : search.Agrees s payloads weights middle)
    (hnext : ∀ value after, middle value after →
      (next value).Agrees s payloads after returns) :
    (search >>= next).Agrees s payloads weights returns := by
  intro σ cached plain hmirrors
  obtain ⟨houtcome, after, hafter, hmiddle⟩ := h σ cached plain hmirrors
  rw [run_bind, run_bind]
  generalize search.run.run cached = run at houtcome hafter ⊢
  generalize search.run.run plain = run' at houtcome hafter hmiddle ⊢
  obtain ⟨outcome, cached'⟩ := run
  obtain ⟨outcome', plain'⟩ := run'
  cases houtcome
  cases outcome with
  | error e => exact ⟨rfl, after, hafter, fun _ h => by cases h⟩
  | ok value => exact hnext value after (hmiddle value rfl) σ cached' plain' hafter

theorem Agrees.mono {returns returns' : α → HybridWeights → Prop}
    (h : search.Agrees s payloads weights returns)
    (himp : ∀ value after, returns value after → returns' value after) :
    search.Agrees s payloads weights returns' := by
  intro σ cached plain hmirrors
  obtain ⟨houtcome, after, hafter, hreturns⟩ := h σ cached plain hmirrors
  exact ⟨houtcome, after, hafter, fun value hvalue => himp value after (hreturns value hvalue)⟩

theorem Agrees.within {returns : α → HybridWeights → Prop}
    (h : search.Agrees s payloads weights returns) (context : String) :
    (Search.within context search).Agrees s payloads weights returns := by
  intro σ cached plain hmirrors
  obtain ⟨houtcome, after, hafter, hreturns⟩ := h σ cached plain hmirrors
  rw [run_within, run_within, houtcome]
  refine ⟨rfl, after, hafter, ?_⟩
  intro value hvalue
  apply hreturns
  cases hrun : (search.run.run plain).1 with
  | ok found =>
    rw [hrun] at hvalue
    cases hvalue
    rfl
  | error e =>
    rw [hrun] at hvalue
    cases hvalue

theorem agrees_pure {returns : α → HybridWeights → Prop} {value : α} (h : returns value weights) :
    (pure value : Search α).Agrees s payloads weights returns := by
  intro σ cached plain hmirrors
  refine ⟨rfl, weights, hmirrors, ?_⟩
  intro value' hvalue
  cases hvalue
  exact h

theorem agrees_ofExcept (outcome : Except SearchFault α) :
    (ofExcept outcome).Agrees s payloads weights
      fun value after => outcome = .ok value ∧ after = weights := by
  intro σ cached plain hmirrors
  refine ⟨rfl, weights, hmirrors, ?_⟩
  intro value hvalue
  cases outcome with
  | ok found =>
    cases hvalue
    exact ⟨rfl, rfl⟩
  | error fault => cases hvalue

/-- What follows a check knows what it found. -/
theorem Agrees.check {returns : β → HybridWeights → Prop} {outcome : Except SearchFault α}
    (hnext : ∀ value, outcome = .ok value → (next value).Agrees s payloads weights returns) :
    (ofExcept outcome >>= next).Agrees s payloads weights returns := by
  apply (agrees_ofExcept outcome).bind
  rintro value after ⟨hvalue, rfl⟩
  exact hnext value hvalue

theorem agrees_defaultWeights :
    defaultWeights.Agrees s payloads weights
      fun value after => value = weights ∧ after = weights := by
  intro σ cached plain hmirrors
  have hrun (m : Machine σ) : defaultWeights.run.run m = (.ok m.service.weights, m) := rfl
  rw [hrun, hrun, hmirrors.cachedWeights, hmirrors.plainWeights]
  refine ⟨rfl, weights, hmirrors, ?_⟩
  intro value hvalue
  cases hvalue
  exact ⟨rfl, rfl⟩

theorem agrees_setDefaultWeights {chosen : HybridWeights} (h : chosen.Finite) :
    (setDefaultWeights chosen).Agrees s payloads weights fun _ _ => True := by
  intro σ cached plain hmirrors
  refine ⟨rfl, chosen, ?_, fun _ _ => trivial⟩
  exact
    { lawful := hmirrors.lawful
      backend := hmirrors.backend
      database := hmirrors.database
      cachedWeights := rfl
      plainWeights := rfl
      finite := h
      off := hmirrors.off
      fresh := fun entry hentry =>
        (hmirrors.fresh entry hentry).of_alike hmirrors.lawful (.of_eq _ rfl rfl) }

/-- What is read from the database is read alike. -/
theorem Reads.agrees {table : String} (h : search.Reads table) :
    search.Agrees s payloads weights fun _ after => after = weights := by
  intro σ cached plain hmirrors
  rw [h.keeps hmirrors.cachedLawful, h.keeps hmirrors.lawful]
  exact ⟨h.decided hmirrors.lawful (hmirrors.alike table), weights, hmirrors, fun _ _ => rfl⟩

/-- A search that asks the cache first. -/
def memo (payload : Json) (table : String) (search : Search (List SearchResult)) :
    Search (List SearchResult) := do
  match ← lookup (CacheKey.ofPayload payload) with
  | some results => pure results
  | none =>
    let results ← search
    store (CacheKey.ofPayload payload) table results
    pure results

theorem run_memo {σ : Type} (payload : Json) (table : String)
    (search : Search (List SearchResult)) (m : Machine σ) :
    (memo payload table search).run.run m =
      match m.lookup (CacheKey.ofPayload payload) with
      | (some results, m) => (.ok results, m)
      | (none, m) =>
        match search.run.run m with
        | (.ok results, m) => (.ok results, m.store (CacheKey.ofPayload payload) table results)
        | (.error e, m) => (.error e, m) := by
  have hlookup : (lookup (CacheKey.ofPayload payload)).run.run m =
      (.ok (m.lookup (CacheKey.ofPayload payload)).1,
        (m.lookup (CacheKey.ofPayload payload)).2) := rfl
  unfold memo
  rw [run_bind, hlookup]
  rcases m.lookup (CacheKey.ofPayload payload) with ⟨_ | results, m'⟩
  · dsimp only
    rw [run_bind]
    rcases search.run.run m' with ⟨_ | results, m''⟩ <;> rfl
  · rfl

/-- Without a cache, asking it is reading. -/
theorem Reads.run_memo {σ : Type} {table : String} {search : Search (List SearchResult)}
    (h : search.Reads table) (payload : Json) {m : Machine σ} (hlawful : m.backend.Lawful)
    (hoff : m.service.cache = none) :
    (memo payload table search).run.run m = search.run.run m := by
  have hlookup : m.lookup (CacheKey.ofPayload payload) = (none, m) := by
    simp [Machine.lookup, hoff]
  have hm := h.keeps hlawful
  rw [Search.run_memo, hlookup]
  rcases hrun : search.run.run m with ⟨_ | results, m'⟩
  · simp [hrun]
  · rw [hrun] at hm
    cases hm
    simp [hrun, Machine.store_of_off _ _ _ hoff]

/-- **Asking the cache first changes nothing.**  A result that is found was stored under
    the key of one payload only, and it is fresh; one that is not found is read and, as it
    is stored, fresh. -/
theorem agrees_memo {payload : Json} {table : String} {search : Search (List SearchResult)}
    (hasks : s.Asks payload table search) (hmem : payload ∈ payloads)
    (hdistinct : CacheKey.Distinct payloads) :
    (memo payload table search).Agrees s payloads weights fun _ after => after = weights := by
  intro σ cached plain hmirrors
  rw [hasks.reads.run_memo payload hmirrors.lawful hmirrors.off,
    hasks.reads.keeps hmirrors.lawful, run_memo]
  obtain ⟨hchange, hstored⟩ := cached.lookup_cases (CacheKey.ofPayload payload)
  have hafter := hmirrors.change hchange fun _ h => h.elim
  generalize cached.lookup (CacheKey.ofPayload payload) = found at hstored hafter ⊢
  obtain ⟨_ | results, cached'⟩ := found
  · -- nothing is found, so both machines read
    have houtcome := hasks.reads.decided hmirrors.lawful (hafter.alike table)
    have hcached := hasks.reads.keeps hafter.cachedLawful
    dsimp only
    generalize search.run.run cached' = run at hcached houtcome ⊢
    obtain ⟨_ | results, cached''⟩ := run
    · cases hcached
      exact ⟨houtcome, weights, hafter, fun _ _ => rfl⟩
    · refine ⟨houtcome, weights, ?_, fun _ _ => rfl⟩
      cases hcached
      apply hafter.change (cached'.store_change _ table results)
      rintro entry ⟨hkey, rfl, hvalue⟩
      exact ⟨payload, hmem, hkey, search, hasks, by rw [hvalue, ← houtcome]⟩
  · -- an entry is found, and the plain machine reads what it holds
    obtain ⟨entry, hentry, hkey, hvalue⟩ := hstored results rfl
    obtain ⟨payload', hmem', hkey', search', hasks', hfresh⟩ := hmirrors.fresh entry hentry
    have hpayload : payload' = payload :=
      hdistinct payload' hmem' payload hmem (hkey'.symm.trans hkey)
    subst hpayload
    obtain ⟨-, rfl⟩ := hasks.unique hasks'
    refine ⟨?_, weights, hafter, fun _ _ => rfl⟩
    rw [hfresh, hvalue]

/-- A transaction on one table, after which what was read from the table is forgotten. -/
theorem agrees_write {table : String} {statements : List TableStatement}
    (h : ∀ statement ∈ statements, statement.tableName? = some table) :
    (do
      let affected ← batch statements
      invalidate table
      pure affected : Search Nat).Agrees s payloads weights fun _ after => after = weights := by
  intro σ cached plain hmirrors
  have hrun (m : Machine σ) : (do
      let affected ← batch statements
      invalidate table
      pure affected : Search Nat).run.run m =
        match m.backend.executeBatch statements m.database with
        | (.ok affected, database) => (.ok affected, { m with database }.invalidate table)
        | (.error e, database) => (.error (SearchFault.storage e), { m with database }) := by
    rw [run_bind]
    simp only [batch, ExceptT.run_mk, Program.run, Machine.perform_executeBatch]
    rcases m.backend.executeBatch statements m.database with ⟨_ | affected, database⟩ <;> rfl
  have hwritten : cached.backend.executeBatch statements cached.database =
      plain.backend.executeBatch statements plain.database := by
    rw [hmirrors.backend, hmirrors.database]
  rw [hrun, hrun, hwritten]
  have hfailed := hmirrors.lawful.failed statements plain.database
  have hapart := hmirrors.lawful.apart table statements plain.database h
  generalize plain.backend.executeBatch statements plain.database = done at hfailed hapart ⊢
  obtain ⟨e | affected, database⟩ := done
  · cases hfailed e rfl
    have hchange : cached.CacheChange (fun _ => False) { cached with database := plain.database } :=
      ⟨rfl, hmirrors.database.symm, rfl, fun _ => Or.inl⟩
    exact ⟨rfl, weights, hmirrors.change hchange fun _ (h : False) => h.elim, fun _ _ => rfl⟩
  · have hforgotten : { plain with database }.invalidate table = { plain with database } :=
      Machine.invalidate_of_off table hmirrors.off
    refine ⟨rfl, weights, ?_, fun _ _ => rfl⟩
    simp only [hforgotten]
    exact
      { lawful := hmirrors.lawful
        backend := hmirrors.backend
        database := rfl
        cachedWeights := hmirrors.cachedWeights
        plainWeights := hmirrors.plainWeights
        finite := hmirrors.finite
        off := hmirrors.off
        fresh := by
          intro entry hentry
          obtain ⟨hentry, htable⟩ := Machine.mem_invalidate hentry
          apply (hmirrors.fresh entry hentry).of_alike hmirrors.lawful
          refine ⟨rfl, fun statement mode hname => hapart statement mode ?_⟩
          rw [hname]
          exact fun h => htable (Option.some.inj h) }

end Search

end KnowledgeSearch
