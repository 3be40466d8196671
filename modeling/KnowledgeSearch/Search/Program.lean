/-
  KnowledgeSearch/Search/Program.lean
  ===================================
  **What an operation does, apart from what answers it.**

  An operation of the search service is a `Program`: it ends with a value, or it asks
  for one action and goes on with the answer.  Actions are the only way in which an
  operation reaches the database, the cache and the default weights, so what an
  operation sends, and in which order, can be read off its program.

  `Machine.perform` answers one action from a backend, a cache, the weights and a
  clock; `Program.run` answers them all in turn.  Several operations at a time are
  several programs whose actions one machine performs in some order.
-/
import KnowledgeSearch.Search.Cache
import KnowledgeSearch.Search.Scoring
import KnowledgeSearch.Search.Statement

namespace KnowledgeSearch

/-! ### Programs -/

/-- One thing that an operation asks for. -/
inductive Action where
  | execute (statement : TableStatement) (mode : FetchMode)
  /-- All statements in one transaction. -/
  | executeBatch (statements : List TableStatement)
  | lookup (key : String)
  | store (key : String) (table : String) (results : List SearchResult)
  | invalidate (table : String)
  | readWeights
  | writeWeights (weights : HybridWeights)

def Action.Answer : Action → Type
  | .execute _ _ => Except StorageError QueryOutput
  | .executeBatch _ => Except StorageError Nat
  | .lookup _ => Option (List SearchResult)
  | .store _ _ _ => Unit
  | .invalidate _ => Unit
  | .readWeights => HybridWeights
  | .writeWeights _ => Unit

/-- A value, or an action and what follows its answer. -/
inductive Program (α : Type) where
  | done (value : α)
  | act (action : Action) (next : action.Answer → Program α)

namespace Program

variable {α β : Type}

/-- Follows a program by another. -/
def bind : Program α → (α → Program β) → Program β
  | done value, f => f value
  | act action next, f => act action fun answer => bind (next answer) f

instance : Monad Program where
  pure := done
  bind := bind

def perform (action : Action) : Program action.Answer := act action done

theorem bind_done (p : Program α) : p.bind done = p := by
  induction p with
  | done value => rfl
  | act action next ih => simp only [bind, ih]

theorem bind_assoc {γ : Type} (p : Program α) (f : α → Program β) (g : β → Program γ) :
    (p.bind f).bind g = p.bind fun a => (f a).bind g := by
  induction p with
  | done value => rfl
  | act action next ih => simp only [bind, ih]

end Program

/-! ### Operations that can fail -/

/-- A program that ends with a value or an error. -/
abbrev Search (α : Type) := ExceptT SearchError Program α

namespace Search

variable {α : Type}

def ofExcept (outcome : Except SearchFault α) : Search α :=
  ExceptT.mk <| .done <|
    match outcome with
    | .ok a => .ok a
    | .error fault => .error fault

/-- Puts a context around the error of an operation. -/
def within (context : String) (search : Search α) : Search α :=
  ExceptT.mk (search.run.bind fun outcome => .done (inContext context outcome))

def rows (statement : TableStatement) (mode : FetchMode) : Search (List Row) :=
  ExceptT.mk <| .act (.execute statement mode) fun answer => .done <|
    match answer with
    | .ok output => .ok output.toRows
    | .error e => .error (SearchFault.storage e)

/-- The number of rows that a transaction affects. -/
def batch (statements : List TableStatement) : Search Nat :=
  ExceptT.mk <| .act (.executeBatch statements) fun answer => .done <|
    match answer with
    | .ok count => .ok count
    | .error e => .error (SearchFault.storage e)

/-- What the cache holds under a key. -/
def lookup (key : String) : Search (Option (List SearchResult)) :=
  ExceptT.mk <| .act (.lookup key) fun found => .done (.ok found)

def store (key table : String) (results : List SearchResult) : Search Unit :=
  ExceptT.mk <| .act (.store key table results) fun _ => .done (.ok ())

/-- Removes from the cache what was read from a table. -/
def invalidate (table : String) : Search Unit :=
  ExceptT.mk <| .act (.invalidate table) fun _ => .done (.ok ())

def defaultWeights : Search HybridWeights :=
  ExceptT.mk <| .act .readWeights fun weights => .done (.ok weights)

def setDefaultWeights (weights : HybridWeights) : Search Unit :=
  ExceptT.mk <| .act (.writeWeights weights) fun _ => .done (.ok ())

end Search

/-! ### Machines -/

/-- What executes statements, with a state of its own. -/
structure Backend (σ : Type) where
  execute : TableStatement → FetchMode → σ → Except StorageError QueryOutput × σ
  executeBatch : List TableStatement → σ → Except StorageError Nat × σ

/-- What a service keeps between operations. -/
structure ServiceState where
  /-- The cache, unless it is switched off. -/
  cache : Option (Cache (List SearchResult))
  weights : HybridWeights

/-- Everything that answers actions.  The clock is read once by each action on the
    cache, and every reading moves it on. -/
structure Machine (σ : Type) where
  backend : Backend σ
  database : σ
  service : ServiceState
  clock : Nat → Instant
  readings : Nat

namespace Machine

variable {σ α : Type}

def lookup (m : Machine σ) (key : String) : Option (List SearchResult) × Machine σ :=
  match m.service.cache with
  | none => (none, m)
  | some cache =>
    let (found, cache) := cache.get? (m.clock m.readings) key
    (found, { m with
      service := { m.service with cache := some cache }
      readings := m.readings + 1 })

def store (m : Machine σ) (key table : String) (results : List SearchResult) : Machine σ :=
  match m.service.cache with
  | none => m
  | some cache =>
    { m with
      service := { m.service with
        cache := some (cache.put (m.clock m.readings) key table results) }
      readings := m.readings + 1 }

/-- Removes what was read from a table. -/
def invalidate (m : Machine σ) (table : String) : Machine σ :=
  { m with service := { m.service with
      cache := m.service.cache.map fun cache => (cache.invalidate table).2 } }

def perform (m : Machine σ) : (action : Action) → action.Answer × Machine σ
  | .execute statement mode =>
    let (answer, database) := m.backend.execute statement mode m.database
    (answer, { m with database })
  | .executeBatch statements =>
    let (answer, database) := m.backend.executeBatch statements m.database
    (answer, { m with database })
  | .lookup key => m.lookup key
  | .store key table results => ((), m.store key table results)
  | .invalidate table => ((), m.invalidate table)
  | .readWeights => (m.service.weights, m)
  | .writeWeights weights => ((), { m with service := { m.service with weights } })

end Machine

/-- Answers the actions of a program until it ends. -/
def Program.run {σ α : Type} : Program α → Machine σ → α × Machine σ
  | .done value, m => (value, m)
  | .act action next, m =>
    let (answer, m) := m.perform action
    run (next answer) m

end KnowledgeSearch
