/-
  KnowledgeSearch/Search/Cache.lean
  =================================
  **The cache of results.**

  A bounded first-in-first-out map.  Every entry knows the table it was read from,
  when it was put in and the running number of that put.  A look-up past an entry's
  time to live removes it; a put into a full cache makes room by removing the entry
  with the least number; a write to a table removes the table's entries.  Time is
  given by the caller, as nanoseconds on a clock that does not go back.
-/
import KnowledgeSearch.Hash.Blake3
import KnowledgeSearch.Json.Printer

namespace KnowledgeSearch

/-! ### Keys -/

namespace CacheKey

/-- The key of a request: the digest of the compact text of what decides its
    result. -/
def ofPayload (payload : Json) : String := Blake3.ofString payload.compact

/-- The beginning of a key, to name it in reports. -/
def short (key : String) : String := String.ofList (key.toList.take 12)

end CacheKey

/-! ### Entries -/

/-- A point in time, in nanoseconds. -/
abbrev Instant := Nat

/-- A stored result. -/
structure CacheEntry (α : Type) where
  key : String
  table : String
  /-- The running number of the put that stored it. -/
  seq : UInt64
  insertedAt : Instant
  value : α

structure Cache (α : Type) where
  /-- The age, in nanoseconds, at which an entry has expired. -/
  ttl : Nat
  maxEntries : Nat
  nextSeq : UInt64
  entries : List (CacheEntry α)

namespace Cache

variable {α : Type}

def empty (ttl : Nat) (maxEntries : Nat) : Cache α := ⟨ttl, maxEntries, 0, []⟩

/-- An empty cache whose time to live is given in seconds. -/
def ofSeconds (ttlSecs : UInt64) (maxEntries : UInt64) : Cache α :=
  empty (ttlSecs.toNat * 1000000000) maxEntries.toNat

def size (cache : Cache α) : Nat := cache.entries.length

def find? (cache : Cache α) (key : String) : Option (CacheEntry α) :=
  cache.entries.find? fun entry => entry.key = key

def without (key : String) (entries : List (CacheEntry α)) : List (CacheEntry α) :=
  entries.filter fun entry => entry.key != key

/-- The stored value of a key.  An expired one counts as missing and is removed. -/
def get? (cache : Cache α) (now : Instant) (key : String) : Option α × Cache α :=
  match cache.find? key with
  | none => (none, cache)
  | some entry =>
    if cache.ttl ≤ now - entry.insertedAt then
      (none, { cache with entries := without key cache.entries })
    else (some entry.value, cache)

/-- The entry with the least number. -/
def oldest? : List (CacheEntry α) → Option (CacheEntry α)
  | [] => none
  | entry :: rest =>
    match oldest? rest with
    | none => some entry
    | some other => if other.seq < entry.seq then some other else some entry

/-- Removes the oldest entries, one in each step, until there are fewer than `max`. -/
def makeRoom (max : Nat) : Nat → List (CacheEntry α) → List (CacheEntry α)
  | 0, entries => entries
  | steps + 1, entries =>
    if entries.length < max then entries
    else
      match oldest? entries with
      | none => entries
      | some entry => makeRoom max steps (without entry.key entries)

/-- Stores a value that was read from a table. -/
def put (cache : Cache α) (now : Instant) (key table : String) (value : α) : Cache α :=
  if cache.maxEntries = 0 then cache
  else
    let entries :=
      if (cache.find? key).isSome then cache.entries
      else makeRoom cache.maxEntries cache.entries.length cache.entries
    { cache with
      nextSeq := cache.nextSeq + 1
      entries := without key entries ++ [⟨key, table, cache.nextSeq, now, value⟩] }

/-- Removes what was read from a table, and counts it. -/
def invalidate (cache : Cache α) (table : String) : Nat × Cache α :=
  let kept := cache.entries.filter fun entry => entry.table != table
  (cache.entries.length - kept.length, { cache with entries := kept })

end Cache

end KnowledgeSearch
