/-
  KnowledgeSearch/Proofs/Search/Interleaving.lean
  ===============================================
  **Operations that run at the same time.**

  An operation waits at every action, and while it waits others go on.  So what happens when
  several operations share one machine is decided by a schedule, the list of the processes in
  the order in which they take their steps (`Execution.run`).  Every step is written down with
  its answer, and all that is said of an execution is said of these events.

  Two sources of facts are kept apart.  What the cache holds follows from the events alone,
  whoever caused them (`Execution.remembers_run`).  What a process may do next follows from
  what it has done itself, whatever the others do in between (`Program.Obeys`), and has rules
  that follow the way in which operations are put together.
-/
import KnowledgeSearch.Proofs.Search.Transparency
import Mathlib.Data.List.Induction
import Mathlib.Logic.Function.Basic

namespace KnowledgeSearch

/-! ### Events -/

/-- An action with its answer. -/
structure Exchange where
  action : Action
  answer : action.Answer

namespace Exchange

/-- A statement that found rows. -/
def read (statement : TableStatement) (output : QueryOutput) : Exchange :=
  ⟨.execute statement .rows, .ok output⟩

def committed (statements : List TableStatement) (affected : Nat) : Exchange :=
  ⟨.executeBatch statements, .ok affected⟩

/-- A look-up that found results. -/
def found (key : String) (results : List SearchResult) : Exchange := ⟨.lookup key, some results⟩

def stored (key table : String) (results : List SearchResult) : Exchange :=
  ⟨.store key table results, ()⟩

def forgot (table : String) : Exchange := ⟨.invalidate table, ()⟩

end Exchange

structure Event where
  process : Nat
  exchange : Exchange

/-- What one process has done among some events. -/
def past (i : Nat) (events : List Event) : List Exchange :=
  (events.filter fun event => event.process = i).map Event.exchange

section Past

variable {i : Nat} {events : List Event} {event : Event} {exchange : Exchange}

theorem past_append_self (h : event.process = i) :
    past i (events ++ [event]) = past i events ++ [event.exchange] := by
  simp [past, List.filter_append, h]

theorem past_append_other (h : event.process ≠ i) : past i (events ++ [event]) = past i events := by
  simp [past, List.filter_append, h]

theorem mem_past (h : exchange ∈ past i events) : ∃ n : Nat, events[n]? = some ⟨i, exchange⟩ := by
  obtain ⟨event, hfiltered, rfl⟩ := List.mem_map.mp h
  obtain ⟨hmem, hprocess⟩ := List.mem_filter.mp hfiltered
  obtain rfl : event.process = i := by simpa using hprocess
  exact List.getElem?_of_mem hmem

theorem past_of_event {n : Nat} (h : events[n]? = some event) :
    event.exchange ∈ past event.process events := by
  apply List.mem_map_of_mem
  simpa using List.mem_of_getElem? h

/-- Events of different actions stand at different positions. -/
theorem position_ne {n m : Nat} {other : Event} (h : events[n]? = some event)
    (hother : events[m]? = some other) (hne : event.exchange.action ≠ other.exchange.action) :
    n ≠ m := by
  rintro rfl
  rw [h] at hother
  injection hother with hother
  exact hne (by rw [hother])

/-- An event of a history that has grown by one is an old event or the new one. -/
theorem snoc_cases {n : Nat} {other : Event} (h : (events ++ [event])[n]? = some other) :
    (n < events.length ∧ events[n]? = some other) ∨ (n = events.length ∧ other = event) := by
  by_cases hold : n < events.length
  · rw [List.getElem?_append_left hold] at h
    exact .inl ⟨hold, h⟩
  · have hbound := (List.getElem?_eq_some_iff.mp h).1
    simp only [List.length_append, List.length_singleton] at hbound
    obtain rfl : n = events.length := by omega
    rw [List.getElem?_concat_length] at h
    exact .inr ⟨rfl, (Option.some.inj h).symm⟩

/-- After the last thing that a process has done come events of others. -/
theorem past_getLast (h : (past i events).getLast? = some exchange) :
    ∃ k : Nat, events[k]? = some ⟨i, exchange⟩ ∧
      ∀ (n : Nat) event, k < n → events[n]? = some event → event.process ≠ i := by
  induction events using List.reverseRecOn with
  | nil => cases h
  | append_singleton events event ih =>
    by_cases hprocess : event.process = i
    · rw [past_append_self hprocess] at h
      obtain rfl : event.exchange = exchange := by simpa using h
      refine ⟨events.length, by simp [← hprocess], fun n other hn hother => ?_⟩
      rcases snoc_cases hother with ⟨hlast, -⟩ | ⟨hlast, -⟩ <;> omega
    · rw [past_append_other hprocess] at h
      obtain ⟨k, hk, hafter⟩ := ih h
      have hbound := (List.getElem?_eq_some_iff.mp hk).1
      refine ⟨k, by rw [List.getElem?_append_left hbound, hk], fun n other hn hother => ?_⟩
      obtain ⟨-, hold⟩ | ⟨-, rfl⟩ := snoc_cases hother
      · exact hafter n other hn hold
      · exact hprocess

end Past

/-! ### Executions -/

/-- A machine, the programs that run on it, and what has happened. -/
structure Execution (σ α : Type) where
  machine : Machine σ
  programs : Nat → Program α
  events : List Event

namespace Execution

variable {σ α : Type}

def start (machine : Machine σ) (programs : Nat → Program α) : Execution σ α :=
  ⟨machine, programs, []⟩

/-- A process performs its next action, if there is one. -/
def step (x : Execution σ α) (i : Nat) : Execution σ α :=
  match x.programs i with
  | .done _ => x
  | .act action next =>
    { machine := (x.machine.perform action).2
      programs := Function.update x.programs i (next (x.machine.perform action).1)
      events := x.events ++ [⟨i, action, (x.machine.perform action).1⟩] }

/-- Processes take steps in the order of a schedule. -/
def run (x : Execution σ α) (schedule : List Nat) : Execution σ α := schedule.foldl step x

variable {x : Execution σ α} {i : Nat}

theorem run_append (x : Execution σ α) (early late : List Nat) :
    x.run (early ++ late) = (x.run early).run late :=
  List.foldl_append

/-- A step changes nothing, or performs an action of its process. -/
theorem step_cases (x : Execution σ α) (i : Nat) :
    x.step i = x ∨ ∃ action next, x.programs i = .act action next ∧
      x.step i =
        { machine := (x.machine.perform action).2
          programs := Function.update x.programs i (next (x.machine.perform action).1)
          events := x.events ++ [⟨i, action, (x.machine.perform action).1⟩] } := by
  unfold step
  cases hprogram : x.programs i with
  | done value => exact .inl rfl
  | act action next => exact .inr ⟨action, next, rfl, rfl⟩

/-- What every step keeps, every schedule keeps. -/
theorem run_induction {P : Execution σ α → Prop} (hstart : P x) (hstep : ∀ y i, P y → P (y.step i))
    (schedule : List Nat) : P (x.run schedule) := by
  induction schedule generalizing x with
  | nil => exact hstart
  | cons i schedule ih => exact ih (hstep x i hstart)

theorem events_prefix (x : Execution σ α) (schedule : List Nat) :
    x.events <+: (x.run schedule).events := by
  apply run_induction (P := fun y => x.events <+: y.events) List.prefix_rfl
  intro y i h
  obtain hsame | ⟨action, next, -, hnext⟩ := y.step_cases i
  · rwa [hsame]
  · rw [hnext]
    exact h.trans (List.prefix_append _ _)

/-- What has happened stays where it is. -/
theorem event_run {n : Nat} {event : Event} (h : x.events[n]? = some event)
    (schedule : List Nat) : (x.run schedule).events[n]? = some event := by
  obtain ⟨more, hmore⟩ := events_prefix x schedule
  rw [← hmore, List.getElem?_append_left (List.getElem?_eq_some_iff.mp h).1, h]

/-- A process that takes no step has done nothing. -/
theorem run_untouched {schedule : List Nat} (h : i ∉ schedule) :
    (x.run schedule).programs i = x.programs i ∧
      past i (x.run schedule).events = past i x.events := by
  induction schedule generalizing x with
  | nil => exact ⟨rfl, rfl⟩
  | cons j schedule ih =>
    obtain ⟨hj, hrest⟩ : i ≠ j ∧ i ∉ schedule := by simpa using h
    obtain ⟨hprogram, hpast⟩ := ih (x := x.step j) hrest
    rw [run, List.foldl_cons, ← run, hprogram, hpast]
    obtain hsame | ⟨action, next, -, hnext⟩ := x.step_cases j
    · rw [hsame]
      exact ⟨rfl, rfl⟩
    · rw [hnext]
      exact ⟨Function.update_of_ne hj _ _, past_append_other (Ne.symm hj)⟩

/-- What a process does that has not started yet comes after what has happened. -/
theorem length_le_of_event {early late : List Nat} (hstarts : i ∉ early)
    (hpast : past i x.events = []) {n : Nat} {exchange : Exchange}
    (h : (x.run (early ++ late)).events[n]? = some ⟨i, exchange⟩) :
    (x.run early).events.length ≤ n := by
  by_contra hearly
  rw [run_append] at h
  obtain ⟨more, hmore⟩ := events_prefix (x.run early) late
  rw [← hmore, List.getElem?_append_left (by omega)] at h
  have hmem := past_of_event h
  rw [(run_untouched hstarts).2, hpast] at hmem
  cases hmem

end Execution

/-! ### What the cache remembers -/

/-- The event at a position stored results, and up to another position the table that they were
    read from was not invalidated. -/
structure StoredAt (events : List Event) (j upto : Nat) (key table : String)
    (results : List SearchResult) : Prop where
  before : j < upto
  stored : ∃ i, events[j]? = some ⟨i, .stored key table results⟩
  kept : ∀ (n i : Nat), j < n → n < upto → events[n]? ≠ some ⟨i, .forgot table⟩

section StoredAt

variable {events : List Event} {j upto : Nat} {key table : String} {results : List SearchResult}

theorem StoredAt.append (h : StoredAt events j upto key table results)
    (hupto : upto ≤ events.length) (more : List Event) :
    StoredAt (events ++ more) j upto key table results where
  before := h.before
  stored := by
    obtain ⟨i, hi⟩ := h.stored
    exact ⟨i, by rw [List.getElem?_append_left (by have := h.before; omega), hi]⟩
  kept n i hj hn := by
    rw [List.getElem?_append_left (by omega)]
    exact h.kept n i hj hn

/-- What is remembered stays so after an event that does not invalidate its table. -/
theorem StoredAt.snoc (h : StoredAt events j events.length key table results) {event : Event}
    (hevent : ∀ i, event ≠ ⟨i, .forgot table⟩) :
    StoredAt (events ++ [event]) j (events ++ [event]).length key table results where
  before := by
    have := h.before
    simp only [List.length_append, List.length_singleton]
    omega
  stored := (h.append le_rfl [event]).stored
  kept n i hj hn := by
    by_cases hlast : n < events.length
    · exact (h.append le_rfl [event]).kept n i hj hlast
    · simp only [List.length_append, List.length_singleton] at hn
      obtain rfl : n = events.length := by omega
      simpa using hevent i

end StoredAt

namespace Machine

variable {σ : Type}

/-- An entry was there before an action that leaves its table alone, or the action stored it. -/
theorem perform_entries (m : Machine σ) (action : Action) {entry : CacheEntry (List SearchResult)}
    (h : entry ∈ (m.perform action).2.entries) :
    (entry ∈ m.entries ∧ action ≠ .invalidate entry.table) ∨
      action = .store entry.key entry.table entry.value := by
  cases action with
  | execute statement mode => exact .inl ⟨h, by simp⟩
  | executeBatch statements => exact .inl ⟨h, by simp⟩
  | lookup key =>
    obtain hmem | hnew := (m.lookup_cases key).1.entries entry h
    · exact .inl ⟨hmem, by simp⟩
    · exact hnew.elim
  | store key table results =>
    obtain hmem | ⟨rfl, rfl, rfl⟩ := (m.store_change key table results).entries entry h
    · exact .inl ⟨hmem, by simp⟩
    · exact .inr rfl
  | invalidate table =>
    obtain ⟨hmem, htable⟩ := mem_invalidate h
    exact .inl ⟨hmem, by simpa using Ne.symm htable⟩
  | readWeights => exact .inl ⟨h, by simp⟩
  | writeWeights weights => exact .inl ⟨h, by simp⟩

end Machine

namespace Execution

variable {σ α : Type}

/-- All that is in the cache, and all that was ever found in it, was stored by some event after
    which its table was not invalidated. -/
structure Remembers (x : Execution σ α) : Prop where
  entries : ∀ entry ∈ x.machine.entries,
    ∃ j, StoredAt x.events j x.events.length entry.key entry.table entry.value
  found : ∀ (n i : Nat) key results, x.events[n]? = some ⟨i, .found key results⟩ →
    ∃ j table, StoredAt x.events j n key table results

theorem remembers_step {x : Execution σ α} (h : x.Remembers) (i : Nat) : (x.step i).Remembers := by
  obtain hsame | ⟨action, next, -, hnext⟩ := x.step_cases i
  · rwa [hsame]
  rw [hnext]
  constructor
  · intro entry hentry
    obtain ⟨hmem, haction⟩ | hstore := x.machine.perform_entries action hentry
    · obtain ⟨j, hj⟩ := h.entries entry hmem
      refine ⟨j, hj.snoc fun k hevent => haction ?_⟩
      exact congrArg (fun event : Event => event.exchange.action) hevent
    · -- the entry is new, and the event that stored it is the last one
      subst hstore
      refine ⟨x.events.length, by simp, ⟨i, List.getElem?_concat_length⟩, fun n k hn hlast => ?_⟩
      simp only [List.length_append, List.length_singleton] at hlast
      omega
  · intro n k key results hn
    obtain ⟨hlast, hold⟩ | ⟨rfl, hnew⟩ := snoc_cases hn
    · obtain ⟨j, table, hj⟩ := h.found n k key results hold
      exact ⟨j, table, hj.append hlast.le _⟩
    · -- the look-up found an entry that is remembered up to now
      injection hnew with hprocess hexchange
      injection hexchange with haction hanswer
      subst haction
      obtain ⟨entry, hentry, hkey, hvalue⟩ :=
        (x.machine.lookup_cases key).2 results (eq_of_heq hanswer).symm
      subst hkey
      subst hvalue
      obtain ⟨j, hj⟩ := h.entries entry hentry
      exact ⟨j, entry.table, hj.append le_rfl _⟩

theorem remembers_run {machine : Machine σ} (hempty : machine.entries = [])
    (programs : Nat → Program α) (schedule : List Nat) :
    ((start machine programs).run schedule).Remembers := by
  apply run_induction
  · constructor
    · intro entry hentry
      rw [start, hempty] at hentry
      cases hentry
    · intro n i key results hn
      cases hn
  · exact fun _ i h => remembers_step h i

end Execution

/-! ### What a process may do -/

namespace Program

variable {α β : Type} {may : List Exchange → Action → Prop}

/-- After what a process has done, its program performs only actions that it may then perform,
    and what it ends with has a property, whatever the answers. -/
def Obeys (may : List Exchange → Action → Prop) (ends : List Exchange → α → Prop) :
    List Exchange → Program α → Prop
  | before, .done value => ends before value
  | before, .act action next =>
    may before action ∧ ∀ answer, Obeys may ends (before ++ [⟨action, answer⟩]) (next answer)

theorem Obeys.mono {ends ends' : List Exchange → α → Prop} {p : Program α}
    {before : List Exchange} (h : p.Obeys may ends before)
    (himp : ∀ after value, ends after value → ends' after value) : p.Obeys may ends' before := by
  induction p generalizing before with
  | done value => exact himp before value h
  | act action next ih => exact ⟨h.1, fun answer => ih answer (h.2 answer)⟩

theorem Obeys.allow {may' : List Exchange → Action → Prop} {ends : List Exchange → α → Prop}
    {p : Program α} {before : List Exchange} (h : p.Obeys may ends before)
    (himp : ∀ before action, may before action → may' before action) :
    p.Obeys may' ends before := by
  induction p generalizing before with
  | done value => exact h
  | act action next ih => exact ⟨himp before action h.1, fun answer => ih answer (h.2 answer)⟩

/-- What a process has done stays done. -/
theorem Obeys.extends {ends : List Exchange → α → Prop} {p : Program α} {before : List Exchange}
    (h : p.Obeys may ends before) :
    p.Obeys may (fun after value => before ⊆ after ∧ ends after value) before := by
  induction p generalizing before with
  | done value => exact ⟨List.Subset.refl _, h⟩
  | act action next ih =>
    refine ⟨h.1, fun answer => (ih answer (h.2 answer)).mono fun after value hafter => ?_⟩
    exact ⟨List.Subset.trans (List.subset_append_left _ _) hafter.1, hafter.2⟩

theorem Obeys.bind {middle : List Exchange → β → Prop} {ends : List Exchange → α → Prop}
    {p : Program β} {f : β → Program α} {before : List Exchange} (h : p.Obeys may middle before)
    (hf : ∀ after b, middle after b → (f b).Obeys may ends after) :
    (p.bind f).Obeys may ends before := by
  induction p generalizing before with
  | done value => exact hf before value h
  | act action next ih => exact ⟨h.1, fun answer => ih answer (h.2 answer)⟩

end Program

theorem Execution.obeys_run {σ α : Type} {may : List Exchange → Action → Prop}
    {ends : Nat → List Exchange → α → Prop} {programs : Nat → Program α}
    (h : ∀ i, (programs i).Obeys may (ends i) []) (machine : Machine σ) (schedule : List Nat) :
    let x := (start machine programs).run schedule
    (∀ i, (x.programs i).Obeys may (ends i) (past i x.events)) ∧
      ∀ (n : Nat) event, x.events[n]? = some event →
        may (past event.process (x.events.take n)) event.exchange.action := by
  apply run_induction (P := fun x : Execution σ α =>
    (∀ i, (x.programs i).Obeys may (ends i) (past i x.events)) ∧
      ∀ (n : Nat) event, x.events[n]? = some event →
        may (past event.process (x.events.take n)) event.exchange.action)
  · exact ⟨h, fun n event hn => by cases hn⟩
  · rintro x i ⟨hprograms, hevents⟩
    obtain hsame | ⟨action, next, hact, hnext⟩ := x.step_cases i
    · rw [hsame]
      exact ⟨hprograms, hevents⟩
    have hi := hprograms i
    rw [hact] at hi
    rw [hnext]
    constructor
    · -- only the program that was stepped has changed, and only its past
      intro j
      by_cases hj : i = j
      · subst hj
        simp only [past_append_self, Function.update_self]
        exact hi.2 _
      · simp only [Function.update_of_ne (Ne.symm hj)]
        rw [past_append_other hj]
        exact hprograms j
    · intro n event hn
      obtain ⟨hlast, hold⟩ | ⟨rfl, rfl⟩ := snoc_cases hn
      · rw [List.take_append_of_le_length hlast.le]
        exact hevents n event hold
      · -- the new event, which its program was allowed after the old ones
        rw [List.take_left]
        exact hi.1

end KnowledgeSearch
