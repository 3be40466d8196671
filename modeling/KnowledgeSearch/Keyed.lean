/-
  KnowledgeSearch/Keyed.lean
  ==========================
  **Entries in the order of their keys.**

  The members of a JSON object, the columns that filters may use and the tables of
  a catalog are all entries that are found by name and listed in the order of their
  names, each name once.  `Keyed.ofList` brings any list of entries into that form;
  of several entries of one name the last stays.
-/
namespace KnowledgeSearch

/-- Entries found by a name. -/
abbrev Keyed (α : Type) := List (String × α)

namespace Keyed

variable {α : Type}

/-- Puts an entry at the place of its key, replacing an earlier entry of that key. -/
def insert (key : String) (value : α) : Keyed α → Keyed α
  | [] => [(key, value)]
  | (k, v) :: rest =>
    if key < k then (key, value) :: (k, v) :: rest
    else if key = k then (key, value) :: rest
    else (k, v) :: insert key value rest

/-- Orders entries by key; of several entries of one key the last stays. -/
def ofList (entries : List (String × α)) : Keyed α :=
  entries.foldl (fun sorted entry => insert entry.1 entry.2 sorted) []

def get? (entries : Keyed α) (key : String) : Option α := entries.lookup key

def erase (entries : Keyed α) (key : String) : Keyed α :=
  entries.filter fun entry => entry.1 != key

def keys (entries : Keyed α) : List String := entries.map Prod.fst

end Keyed

end KnowledgeSearch
