/-
  KnowledgeSearch/Proofs/Search/Run.lean
  ======================================
  **Whole runs.**

  What an operation did is the list of its actions with their answers, together with what it
  ended with (`Program.Runs`).  Answers come from outside, so a relation between the two is
  what can be said of an operation itself, and it is inverted the way operations are put
  together: a run of one after another is a run of the first and then, if that one
  succeeded, of the other (`Search.Runs.bind_cases`).

  A machine that runs an operation goes through one of these runs (`Program.runs_trace`) and
  is afterwards as its actions have left it.  Without writes, that is as it was before, but for
  entries of the cache that have expired (`Machine.retained_after`).
-/
import KnowledgeSearch.Proofs.Search.Interleaving

namespace KnowledgeSearch

/-! ### Exchanges -/

/-- Whether an action is a call of what executes statements. -/
def Action.isCall : Action → Bool
  | .execute _ _ => true
  | .executeBatch _ => true
  | _ => false

/-- Whether an action changes what a service keeps, other than by letting it expire. -/
def Action.isWrite : Action → Bool
  | .store _ _ _ => true
  | .invalidate _ => true
  | .writeWeights _ => true
  | _ => false

namespace Exchange

def missed (key : String) : Exchange := ⟨.lookup key, none⟩

def weighed (weights : HybridWeights) : Exchange := ⟨.readWeights, weights⟩

def chose (weights : HybridWeights) : Exchange := ⟨.writeWeights weights, ()⟩

/-- The error of a call that failed. -/
def failure? : Exchange → Option StorageError
  | ⟨.execute _ _, .error e⟩ => some e
  | ⟨.executeBatch _, .error e⟩ => some e
  | _ => none

/-- Whether the cache has answered. -/
def isHit : Exchange → Bool
  | ⟨.lookup _, some _⟩ => true
  | _ => false

end Exchange

/-- The calls among some exchanges. -/
def calls (trace : List Exchange) : List Exchange := trace.filter fun x => x.action.isCall

/-- The statements that some exchanges have sent. -/
def statements (trace : List Exchange) : List TableStatement :=
  trace.flatMap fun x => x.action.statements

theorem statements_append (early late : List Exchange) :
    statements (early ++ late) = statements early ++ statements late :=
  List.flatMap_append

theorem statements_of_no_calls {trace : List Exchange} (h : calls trace = []) :
    statements trace = [] := by
  rw [statements, List.flatMap_eq_nil_iff]
  intro x hx
  have hcall := List.filter_eq_nil_iff.mp h x hx
  obtain ⟨action, answer⟩ := x
  cases action with
  | execute => exact absurd rfl hcall
  | executeBatch => exact absurd rfl hcall
  | _ => rfl

/-! ### Runs of programs -/

namespace Program

variable {σ α β : Type}

/-- One of the runs of a program: what it does, with the answers, and what it ends with. -/
inductive Runs : Program α → List Exchange → α → Prop where
  | done (value : α) : Runs (.done value) [] value
  | act {action : Action} {next : action.Answer → Program α} {answer : action.Answer}
      {rest : List Exchange} {value : α} (h : Runs (next answer) rest value) :
      Runs (.act action next) (⟨action, answer⟩ :: rest) value

theorem Runs.bind_cases {p : Program α} {f : α → Program β} {trace : List Exchange} {value : β}
    (h : (p.bind f).Runs trace value) : ∃ early late middle, trace = early ++ late ∧
      p.Runs early middle ∧ (f middle).Runs late value := by
  induction p generalizing trace with
  | done middle => exact ⟨[], trace, middle, rfl, .done middle, h⟩
  | act action next ih =>
    cases h with
    | @act _ _ answer rest _ h =>
      obtain ⟨early, late, middle, rfl, hfirst, hlater⟩ := ih answer h
      exact ⟨⟨action, answer⟩ :: early, late, middle, rfl, .act hfirst, hlater⟩

/-- What a program does when a machine answers it. -/
def trace : Program α → Machine σ → List Exchange
  | done _, _ => []
  | act action next, m =>
    ⟨action, (m.perform action).1⟩ :: trace (next (m.perform action).1) (m.perform action).2

theorem runs_trace (p : Program α) (m : Machine σ) : p.Runs (p.trace m) (p.run m).1 := by
  induction p generalizing m with
  | done value => exact .done value
  | act action next ih => exact .act (ih _ _)

theorem sent_eq_statements (p : Program α) (m : Machine σ) :
    p.sent m = statements (p.trace m) := by
  induction p generalizing m with
  | done value => rfl
  | act action next ih => simp only [sent, trace, statements, List.flatMap_cons, ih]

end Program

/-- A machine after actions. -/
def Machine.after {σ : Type} (m : Machine σ) (trace : List Exchange) : Machine σ :=
  trace.foldl (fun m x => (m.perform x.action).2) m

theorem Program.run_after {σ α : Type} (p : Program α) (m : Machine σ) :
    (p.run m).2 = m.after (p.trace m) := by
  induction p generalizing m with
  | done value => rfl
  | act action next ih => exact ih _ _

/-! ### Runs of operations that can fail -/

namespace Search

variable {α β : Type} {search : Search α} {next : α → Search β} {trace : List Exchange}

def Runs (search : Search α) (trace : List Exchange) (outcome : Except SearchError α) : Prop :=
  search.run.Runs trace outcome

/-- The run of an operation that a machine goes through. -/
theorem runs_trace {σ : Type} (search : Search α) (m : Machine σ) :
    search.Runs (search.run.trace m) (search.run.run m).1 :=
  Program.runs_trace _ m

theorem Runs.bind_cases {outcome : Except SearchError β}
    (h : (search >>= next).Runs trace outcome) :
    (∃ e, search.Runs trace (.error e) ∧ outcome = .error e) ∨
      ∃ early late value, trace = early ++ late ∧ search.Runs early (.ok value) ∧
        (next value).Runs late outcome := by
  obtain ⟨early, late, middle, rfl, hfirst, hlater⟩ := Program.Runs.bind_cases h
  cases middle with
  | error e =>
    cases hlater
    rw [List.append_nil]
    exact .inl ⟨e, hfirst, rfl⟩
  | ok value => exact .inr ⟨early, late, value, rfl, hfirst, hlater⟩

theorem Runs.pure_eq {value : α} {outcome : Except SearchError α}
    (h : (pure value : Search α).Runs trace outcome) : trace = [] ∧ outcome = .ok value := by
  cases h
  exact ⟨rfl, rfl⟩

/-- A check does nothing; what follows it knows what it found. -/
theorem Runs.check_cases {check : Except SearchFault α} {outcome : Except SearchError β}
    (h : (ofExcept check >>= next).Runs trace outcome) :
    (∃ fault : SearchFault, check = .error fault ∧ trace = [] ∧
      outcome = .error (fault : SearchError)) ∨
      ∃ value, check = .ok value ∧ (next value).Runs trace outcome := by
  cases check with
  | error fault =>
    cases h
    exact .inl ⟨fault, rfl, rfl, rfl⟩
  | ok value => exact .inr ⟨value, rfl, h⟩

theorem Runs.within_cases {context : String} {outcome : Except SearchError α}
    (h : (within context search).Runs trace outcome) :
    ∃ inner, search.Runs trace inner ∧ outcome = inContext context inner := by
  obtain ⟨early, late, inner, rfl, hinner, hrest⟩ := Program.Runs.bind_cases h
  cases hrest
  rw [List.append_nil]
  exact ⟨inner, hinner, rfl⟩

/-- An action that does not fail, and what follows its answer. -/
theorem Runs.asks_cases (action : Action) (give : action.Answer → α)
    {outcome : Except SearchError β}
    (h : (ExceptT.mk (.act action fun answer => .done (.ok (give answer))) >>= next :
      Search β).Runs trace outcome) :
    ∃ answer rest, trace = ⟨action, answer⟩ :: rest ∧ (next (give answer)).Runs rest outcome := by
  cases h with
  | act h => exact ⟨_, _, rfl, h⟩

end Search

/-! ### Parts that are run in turn -/

/-- Parts run one after another, up to the first that fails. -/
inductive InTurn {ι α : Type} (part : ι → List Exchange → Except SearchError α → Prop) :
    List ι → List Exchange → Except SearchError (List α) → Prop where
  | nil : InTurn part [] [] (.ok [])
  | failed {i : ι} {rest : List ι} {trace : List Exchange} {e : SearchError}
      (h : part i trace (.error e)) : InTurn part (i :: rest) trace (.error e)
  | later {i : ι} {rest : List ι} {early late : List Exchange} {value : α} {e : SearchError}
      (h : part i early (.ok value)) (hrest : InTurn part rest late (.error e)) :
      InTurn part (i :: rest) (early ++ late) (.error e)
  | cons {i : ι} {rest : List ι} {early late : List Exchange} {value : α} {values : List α}
      (h : part i early (.ok value)) (hrest : InTurn part rest late (.ok values)) :
      InTurn part (i :: rest) (early ++ late) (.ok (value :: values))

namespace InTurn

variable {ι α : Type} {part : ι → List Exchange → Except SearchError α → Prop} {parts : List ι}
  {trace : List Exchange}

/-- Before a part that fails there are parts that succeed. -/
theorem error_cases {e : SearchError} (h : InTurn part parts trace (.error e)) :
    ∃ earlier i later before last values, parts = earlier ++ i :: later ∧
      trace = before ++ last ∧ InTurn part earlier before (.ok values) ∧
      part i last (.error e) := by
  generalize houtcome : Except.error e = outcome at h
  induction h with
  | nil => cases houtcome
  | @failed i rest trace e' h =>
    cases houtcome
    exact ⟨[], i, rest, [], trace, [], rfl, rfl, .nil, h⟩
  | @later i rest early late value e' h hrest ih =>
    obtain ⟨earlier, j, later, before, last, values, rfl, rfl, hbefore, hlast⟩ := ih houtcome
    exact ⟨i :: earlier, j, later, early ++ before, last, value :: values, rfl,
      (List.append_assoc _ _ _).symm, .cons h hbefore, hlast⟩
  | cons => cases houtcome

/-- A part that never succeeds stops the run, there or earlier. -/
theorem stops {earlier later : List ι} {i : ι} {outcome : Except SearchError (List α)}
    (h : InTurn part (earlier ++ i :: later) trace outcome)
    (hfails : ∀ own value, ¬part i own (.ok value)) :
    ∃ e, outcome = .error e ∧
      ((∃ before last values, trace = before ++ last ∧ InTurn part earlier before (.ok values) ∧
          part i last (.error e)) ∨
        InTurn part earlier trace (.error e)) := by
  induction earlier generalizing trace outcome with
  | nil =>
    cases h with
    | failed h => exact ⟨_, rfl, .inl ⟨[], _, [], rfl, .nil, h⟩⟩
    | later h => exact absurd h (hfails _ _)
    | cons h => exact absurd h (hfails _ _)
  | cons first earlier ih =>
    cases h with
    | failed h => exact ⟨_, rfl, .inr (.failed h)⟩
    | later h hrest =>
      obtain ⟨e, he, ⟨before, last, values, rfl, hbefore, hlast⟩ | hstopped⟩ := ih hrest
      · cases he
        exact ⟨_, rfl, .inl ⟨_, last, _, (List.append_assoc _ _ _).symm, .cons h hbefore, hlast⟩⟩
      · cases he
        exact ⟨_, rfl, .inr (.later h hstopped)⟩
    | cons h hrest =>
      obtain ⟨e, ⟨⟩, -⟩ := ih hrest

end InTurn

/-! ### What a run leaves -/

namespace Cache

variable {α : Type} {cache : Cache α}

theorem find?_without {key other : String} {entries : List (CacheEntry α)} (hne : other ≠ key) :
    (without key entries).find? (fun entry => entry.key = other) =
      entries.find? fun entry => entry.key = other := by
  unfold without
  rw [List.find?_filter]
  congr 1
  funext entry
  by_cases hkey : entry.key = other
  · simp [hkey, hne]
  · simp [hkey]

theorem find?_without_self (key : String) (entries : List (CacheEntry α)) :
    (without key entries).find? (fun entry => entry.key = key) = none := by
  rw [List.find?_eq_none]
  intro entry hentry
  simpa [without] using (List.mem_filter.mp hentry).2

/-- A look-up changes nothing, or it removes an entry that has expired. -/
theorem get?_change (cache : Cache α) (now : Instant) (key : String) :
    (cache.get? now key).2 = cache ∨
      (∃ entry, cache.find? key = some entry ∧ cache.ttl ≤ now - entry.insertedAt) ∧
        (cache.get? now key).2 = { cache with entries := without key cache.entries } := by
  unfold get?
  cases hfind : cache.find? key with
  | none => exact .inl rfl
  | some entry =>
    dsimp only
    split
    · rename_i hexpired
      exact .inr ⟨⟨entry, rfl, hexpired⟩, rfl⟩
    · exact .inl rfl

end Cache

namespace Machine

variable {σ : Type} {m m' m'' : Machine σ}

/-- The entry of a key, which may have expired. -/
def cached? (m : Machine σ) (key : String) : Option (CacheEntry (List SearchResult)) :=
  m.service.cache.bind fun cache => cache.find? key

/-- Whether an entry has not expired by a reading of the clock. -/
def Live (m : Machine σ) (entry : CacheEntry (List SearchResult)) (reading : Nat) : Prop :=
  ∀ ttl ∈ m.service.cache.map Cache.ttl, m.clock reading - entry.insertedAt < ttl

/-- A machine that has kept its weights and what it has cached, but for entries that had expired by
    a reading of the clock in between, and has cached nothing else. -/
structure Retained (m m' : Machine σ) : Prop where
  weights : m'.service.weights = m.service.weights
  clock : m'.clock = m.clock
  readings : m.readings ≤ m'.readings
  ttl : m'.service.cache.map Cache.ttl = m.service.cache.map Cache.ttl
  nothingNew : ∀ key entry, m'.cached? key = some entry → m.cached? key = some entry
  kept : ∀ key entry, m.cached? key = some entry →
    (∀ n, m.readings ≤ n → n < m'.readings → m.Live entry n) → m'.cached? key = some entry

theorem Retained.of_service (hservice : m'.service = m.service) (hclock : m'.clock = m.clock)
    (hreadings : m.readings ≤ m'.readings) : m.Retained m' where
  weights := by rw [hservice]
  clock := hclock
  readings := hreadings
  ttl := by rw [hservice]
  nothingNew := fun _ _ h => by rwa [cached?, hservice] at h
  kept := fun _ _ h _ => by rwa [cached?, hservice]

theorem Retained.trans (h : m.Retained m') (h' : m'.Retained m'') : m.Retained m'' where
  weights := h'.weights.trans h.weights
  clock := h'.clock.trans h.clock
  readings := h.readings.trans h'.readings
  ttl := h'.ttl.trans h.ttl
  nothingNew := fun key entry hentry => h.nothingNew key entry (h'.nothingNew key entry hentry)
  kept := by
    intro key entry hentry hlive
    have hearly := h.kept key entry hentry fun n hn hlast => hlive n hn (hlast.trans_le h'.readings)
    apply h'.kept key entry hearly
    intro n hn hlast
    unfold Live
    rw [h.ttl, h.clock]
    exact hlive n (h.readings.trans hn) hlast

theorem retained_lookup (m : Machine σ) (key : String) : m.Retained (m.lookup key).2 := by
  unfold lookup
  cases hcache : m.service.cache with
  | none => exact .of_service rfl rfl le_rfl
  | some cache =>
    have hbefore (other : String) : m.cached? other = cache.find? other := by
      simp [cached?, hcache]
    dsimp only
    obtain hsame | ⟨⟨expired, hfound, hold⟩, hremoved⟩ :=
      cache.get?_change (m.clock m.readings) key
    · rw [hsame]
      exact .of_service (by rw [← hcache]) rfl (Nat.le_succ _)
    · rw [hremoved]
      refine ⟨rfl, rfl, Nat.le_succ _, by simp [hcache], fun other entry h => ?_,
        fun other entry h hlive => ?_⟩
      · rw [hbefore]
        by_cases hkey : other = key
        · subst hkey
          have hgone := Cache.find?_without_self other cache.entries
          exact absurd (h.symm.trans hgone) (by simp)
        · exact (Cache.find?_without hkey).symm.trans h
      · -- the entry that was removed had expired, so it is not the one that was live
        rw [hbefore] at h
        by_cases hkey : other = key
        · subst hkey
          obtain rfl : expired = entry := Option.some.inj (hfound.symm.trans h)
          have hfresh : m.clock m.readings - expired.insertedAt < cache.ttl :=
            hlive m.readings le_rfl (Nat.lt_succ_self _) cache.ttl (by simp [hcache])
          exact absurd hfresh (Nat.not_lt.mpr hold)
        · exact (Cache.find?_without hkey).trans h

theorem retained_perform (m : Machine σ) {action : Action} (h : action.isWrite = false) :
    m.Retained (m.perform action).2 := by
  cases action with
  | execute statement mode => exact .of_service rfl rfl le_rfl
  | executeBatch statements => exact .of_service rfl rfl le_rfl
  | lookup key => exact m.retained_lookup key
  | readWeights => exact .of_service rfl rfl le_rfl
  | store => cases h
  | invalidate => cases h
  | writeWeights => cases h

/-- **A run without writes keeps the cache and the weights.** -/
theorem retained_after (m : Machine σ) {trace : List Exchange}
    (h : ∀ x ∈ trace, x.action.isWrite = false) : m.Retained (m.after trace) := by
  induction trace generalizing m with
  | nil => exact .of_service rfl rfl le_rfl
  | cons x trace ih =>
    have hstep := m.retained_perform (h x List.mem_cons_self)
    exact hstep.trans (ih _ fun y hy => h y (List.mem_cons_of_mem _ hy))

end Machine

end KnowledgeSearch
