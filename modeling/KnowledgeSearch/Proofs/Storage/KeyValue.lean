/-
  KnowledgeSearch/Proofs/Storage/KeyValue.lean
  ============================================
  **Transactions are all or nothing, and steps follow one another.**

  A table is kept as a list of entries.  What it holds is a function of keys
  (`Store.contents`), and on such functions the meaning of a write is plain: whether it
  is refused, how many rows it affects, what it leaves (`Write.refusal?`,
  `Write.affected`, `Write.applied`).  As long as the keys of the list ascend, each
  statement does to the list what its write means (`Write.apply_cases`), so a transaction
  either runs all of its writes or is refused at the first write that does not fit what
  the writes before it have left, and then the table is as it was found
  (`Connection.executeBatch_cases`).

  A run of steps keeps the keys ascending and what the table holds equal to the fold of
  the writes of those steps that have succeeded, whatever came between
  (`Connection.run_linear`).
-/
import KnowledgeSearch.Storage.KeyValue
import Mathlib.Logic.Function.Basic

namespace KnowledgeSearch.KeyValue

/-! ### Contents -/

/-- What a table holds under each key. -/
abbrev Contents := Int64 → Option Cell

namespace Store

def contents (store : Store) : Contents := store.get?

/-- The keys ascend, so each of them is there once. -/
def Ordered (store : Store) : Prop := store.Pairwise fun a b => a.1 < b.1

variable {store : Store} {key : Int64}

theorem contents_cons (entry : Int64 × Cell) (rest : Store) (k : Int64) :
    contents (entry :: rest) k = if k = entry.1 then some entry.2 else rest.contents k := by
  rw [contents, get?, List.lookup_cons]
  by_cases h : k = entry.1
  · simp [h]
  · have hne : (k == entry.1) = false := beq_eq_false_iff_ne.mpr h
    simp [contents, get?, h, hne]

/-- An ordered table holds exactly its entries. -/
theorem contents_eq_some_iff (hordered : store.Ordered) {cell : Cell} :
    store.contents key = some cell ↔ (key, cell) ∈ store := by
  induction store with
  | nil => simp [contents, get?]
  | cons entry rest ih =>
    obtain ⟨hfirst, hrest⟩ := List.pairwise_cons.mp hordered
    rw [contents_cons, List.mem_cons]
    by_cases h : key = entry.1
    · subst h
      rw [if_pos rfl]
      constructor
      · intro hcell
        exact Or.inl (Prod.ext rfl (Option.some.inj hcell).symm)
      · rintro (hentry | hmem)
        · rw [← hentry]
        · exact absurd (hfirst _ hmem) Int64.lt_irrefl
    · rw [if_neg h, ih hrest]
      constructor
      · exact Or.inr
      · rintro (hentry | hmem)
        · exact absurd (congrArg Prod.fst hentry) h
        · exact hmem

theorem contents_insert (habsent : store.contents key = none) (cell : Cell) :
    (store.insert key cell).contents = Function.update store.contents key (some cell) := by
  induction store with
  | nil =>
    funext k
    rw [insert, contents_cons, Function.update_apply]
  | cons entry rest ih =>
    rw [contents_cons] at habsent
    have hne : key ≠ entry.1 := by
      intro h
      rw [if_pos h] at habsent
      cases habsent
    rw [if_neg hne] at habsent
    funext k
    rw [insert]
    by_cases hlt : key < entry.1
    · rw [if_pos hlt, contents_cons, Function.update_apply]
    · rw [if_neg hlt, contents_cons, ih habsent, Function.update_apply, Function.update_apply,
        contents_cons]
      by_cases hk : k = entry.1
      · rw [if_pos hk, if_neg (hk ▸ hne.symm), if_pos hk]
      · rw [if_neg hk, if_neg hk]

theorem contents_update (hpresent : (store.contents key).isSome = true) (cell : Cell) :
    (store.update key cell).contents = Function.update store.contents key (some cell) := by
  have hmap (store : Store) (k : Int64) : (store.update key cell).contents k =
      if k = key then (store.contents k).map fun _ => cell else store.contents k := by
    induction store with
    | nil => simp [update, contents, get?]
    | cons entry rest ih =>
      have hcons : update key cell (entry :: rest) =
          (entry.1, if entry.1 = key then cell else entry.2) :: update key cell rest := by
        unfold update
        rw [List.map_cons]
        by_cases h : entry.1 = key <;> simp [h]
      rw [hcons, contents_cons, contents_cons, ih]
      by_cases hk : k = entry.1
      · subst hk
        by_cases h : entry.1 = key <;> simp [h]
      · simp [hk]
  funext k
  rw [hmap, Function.update_apply]
  by_cases hk : k = key
  · subst hk
    obtain ⟨old, hold⟩ := Option.isSome_iff_exists.mp hpresent
    simp [hold]
  · simp [hk]

theorem contents_erase (store : Store) (key : Int64) :
    (store.erase key).contents = Function.update store.contents key none := by
  funext k
  rw [Function.update_apply]
  induction store with
  | nil => simp [erase, contents, get?]
  | cons entry rest ih =>
    have hcons : erase key (entry :: rest) =
        if entry.1 = key then erase key rest else entry :: erase key rest := by
      unfold erase
      by_cases h : entry.1 = key <;> simp [h]
    rw [hcons, contents_cons]
    by_cases h : entry.1 = key
    · rw [if_pos h, ih]
      by_cases hk : k = key
      · rw [if_pos hk, if_pos hk]
      · rw [if_neg hk, if_neg hk, if_neg (by rwa [h])]
    · rw [if_neg h, contents_cons, ih]
      by_cases hk : k = entry.1
      · rw [if_pos hk, if_pos hk, if_neg (by rwa [hk])]
      · rw [if_neg hk, if_neg hk]

/-! ### Order -/

theorem mem_insert {entry : Int64 × Cell} {cell : Cell} (h : entry ∈ store.insert key cell) :
    entry = (key, cell) ∨ entry ∈ store := by
  induction store with
  | nil => exact Or.inl (List.mem_singleton.mp h)
  | cons first rest ih =>
    rw [insert] at h
    by_cases hlt : key < first.1
    · rw [if_pos hlt] at h
      exact List.mem_cons.mp h
    · rw [if_neg hlt] at h
      rcases List.mem_cons.mp h with rfl | h
      · exact Or.inr List.mem_cons_self
      · exact (ih h).imp id (List.mem_cons_of_mem _)

theorem Ordered.insert (hordered : store.Ordered) (habsent : store.contents key = none)
    (cell : Cell) : (store.insert key cell).Ordered := by
  induction store with
  | nil => exact List.pairwise_singleton _ _
  | cons first rest ih =>
    obtain ⟨hfirst, hrest⟩ := List.pairwise_cons.mp hordered
    rw [contents_cons] at habsent
    rw [Store.insert]
    by_cases hlt : key < first.1
    · rw [if_pos hlt]
      apply List.pairwise_cons.mpr
      refine ⟨?_, hordered⟩
      intro entry hentry
      rcases List.mem_cons.mp hentry with rfl | hentry
      · exact hlt
      · exact Int64.lt_trans hlt (hfirst entry hentry)
    · have hne : key ≠ first.1 := by
        intro h
        rw [if_pos h] at habsent
        cases habsent
      rw [if_neg hne] at habsent
      rw [if_neg hlt]
      apply List.pairwise_cons.mpr
      refine ⟨?_, ih hrest habsent⟩
      intro entry hentry
      rcases mem_insert hentry with rfl | hentry
      · exact Int64.lt_of_le_of_ne (Int64.not_lt.mp hlt) hne.symm
      · exact hfirst entry hentry

theorem Ordered.update (hordered : store.Ordered) (key : Int64) (cell : Cell) :
    (store.update key cell).Ordered := by
  apply List.pairwise_map.mpr
  apply hordered.imp
  intro a b hab
  have hkey (entry : Int64 × Cell) :
      (if entry.1 = key then (entry.1, cell) else (entry.1, entry.2)).1 = entry.1 := by
    split <;> rfl
  rw [hkey, hkey]
  exact hab

theorem Ordered.erase (hordered : store.Ordered) (key : Int64) : (store.erase key).Ordered :=
  hordered.filter _

/-- The entries from a key on, in ascending order. -/
structure Lists (contents : Contents) (key : Int64) (entries : List (Int64 × Cell)) : Prop where
  ascending : entries.Pairwise fun a b => a.1 < b.1
  exactly : ∀ k cell, (k, cell) ∈ entries ↔ key ≤ k ∧ contents k = some cell

theorem Ordered.lists (hordered : store.Ordered) (key : Int64) :
    Lists store.contents key (store.startingAt key) where
  ascending := hordered.filter _
  exactly := by
    intro k cell
    rw [startingAt, List.mem_filter, contents_eq_some_iff hordered, decide_eq_true_eq]
    exact and_comm

end Store

/-! ### What writes mean -/

/-- Why a write is refused. -/
inductive Refusal where
  | duplicateKey
  | missingTable
deriving DecidableEq, Repr

namespace Refusal

def cause : Refusal → String
  | duplicateKey => "error returned from database: (code: 1555) UNIQUE constraint failed: kv.k"
  | missingTable => "error returned from database: (code: 1) no such table: missing_table"

/-- The error that names a refused write: its text and its parameters as they are shown
    in reports. -/
def error (refusal : Refusal) (write : Write) : StorageError :=
  .queryExecution refusal.cause write.query.sql (write.query.params.map Redact.renderParameter)

/-- Neither the causes nor the texts of writes have a secret to mask. -/
theorem error_eq_ofStatement (refusal : Refusal) (write : Write) :
    refusal.error write = .ofStatement write.query refusal.cause := by
  have hcause : Redact.scrub refusal.cause = refusal.cause := by
    cases refusal <;> decide +kernel
  have hsql : Redact.scrub write.query.sql = write.query.sql := by
    have htexts : ∀ text ∈ ["INSERT INTO kv (k, v) VALUES (?, ?)",
        "UPDATE kv SET v = ? WHERE k = ?", "DELETE FROM kv WHERE k = ?",
        "INSERT INTO missing_table (k, v) VALUES (?, ?)"], Redact.scrub text = text := by
      decide +kernel
    apply htexts
    cases write <;> simp [Write.query]
  rw [error, StorageError.ofStatement, hcause, hsql]

end Refusal

namespace Write

variable (contents : Contents)

def refusal? : Write → Option Refusal
  | put key _ => if (contents key).isSome then some .duplicateKey else none
  | putElsewhere _ _ => some .missingTable
  | _ => none

/-- The number of rows that a write affects. -/
def affected : Write → Nat
  | put _ _ => 1
  | set key _ => if (contents key).isSome then 1 else 0
  | delete key => if (contents key).isSome then 1 else 0
  | putElsewhere _ _ => 0

/-- What a write leaves, unless it is refused. -/
def applied : Write → Contents
  | put key value => Function.update contents key (some (.ofParameter value))
  | set key value =>
    if (contents key).isSome then Function.update contents key (some (.ofParameter value))
    else contents
  | delete key => Function.update contents key none
  | putElsewhere _ _ => contents

end Write

/-- A statement does to an ordered table what its write means, or is refused as its write
    is. -/
theorem Write.apply_cases {store : Store} (hordered : store.Ordered) (write : Write) :
    (write.refusal? store.contents = none ∧ ∃ after : Store, after.Ordered ∧
      after.contents = write.applied store.contents ∧
      write.apply store = .ok (write.affected store.contents, after)) ∨
    ∃ refusal, write.refusal? store.contents = some refusal ∧
      write.apply store = .error refusal.cause := by
  have hget (key : Int64) : store.get? key = store.contents key := rfl
  cases write with
  | put key value =>
    by_cases hkey : (store.contents key).isSome = true
    · refine Or.inr ⟨.duplicateKey, if_pos hkey, ?_⟩
      rw [apply, hget, if_pos hkey]
      rfl
    · have habsent : store.contents key = none := Option.not_isSome_iff_eq_none.mp hkey
      refine Or.inl ⟨if_neg hkey, store.insert key (.ofParameter value), ?_, ?_, ?_⟩
      · exact hordered.insert habsent _
      · exact Store.contents_insert habsent _
      · rw [apply, hget, if_neg hkey, affected]
  | set key value =>
    by_cases hkey : (store.contents key).isSome = true
    · refine Or.inl ⟨rfl, store.update key (.ofParameter value), hordered.update key _, ?_, ?_⟩
      · rw [applied, if_pos hkey]
        exact Store.contents_update hkey _
      · rw [apply, hget, if_pos hkey, affected, if_pos hkey]
    · refine Or.inl ⟨rfl, store, hordered, ?_, ?_⟩
      · rw [applied, if_neg hkey]
      · rw [apply, hget, if_neg hkey, affected, if_neg hkey]
  | delete key =>
    by_cases hkey : (store.contents key).isSome = true
    · refine Or.inl ⟨rfl, store.erase key, hordered.erase key, store.contents_erase key, ?_⟩
      rw [apply, hget, if_pos hkey, affected, if_pos hkey]
    · refine Or.inl ⟨rfl, store, hordered, ?_, ?_⟩
      · have habsent : store.contents key = none := Option.not_isSome_iff_eq_none.mp hkey
        rw [applied, ← habsent, Function.update_eq_self]
      · rw [apply, hget, if_neg hkey, affected, if_neg hkey]
  | putElsewhere key value => exact Or.inr ⟨.missingTable, rfl, rfl⟩

/-! ### Transactions -/

/-- Writes that are run one by one, none of them refused, with the rows that each of them
    affects. -/
inductive Runs : Contents → List Write → List Nat → Contents → Prop where
  | nil (contents : Contents) : Runs contents [] [] contents
  | cons {contents after : Contents} {write : Write} {writes : List Write} {counts : List Nat}
      (accepted : write.refusal? contents = none)
      (rest : Runs (write.applied contents) writes counts after) :
      Runs contents (write :: writes) (write.affected contents :: counts) after

theorem Runs.eq_foldl {contents after : Contents} {writes : List Write} {counts : List Nat}
    (h : Runs contents writes counts after) : after = writes.foldl Write.applied contents := by
  induction h with
  | nil => rfl
  | cons _ _ ih => exact ih

/-- The first of some writes that is refused, after those before it were run. -/
def RefusedAt (contents : Contents) (writes : List Write) (write : Write) (refusal : Refusal) :
    Prop :=
  ∃ before later counts between, writes = before ++ write :: later ∧
    Runs contents before counts between ∧ write.refusal? between = some refusal

/-- All statements of a transaction are run, or the first that is refused is reported and
    the table can be had back. -/
theorem Transaction.runAll_cases {t : Transaction} (hordered : t.current.Ordered)
    (writes : List Write) :
    (∃ counts after, Runs t.current.contents writes counts (Store.contents after) ∧
      after.Ordered ∧ t.runAll writes = (.ok counts, { t with current := after })) ∨
    ∃ write refusal current, RefusedAt t.current.contents writes write refusal ∧
      t.runAll writes = (.error (refusal.error write), { t with current := current }) := by
  -- what was found stays, so the induction carries any transaction that has come this far
  induction writes generalizing t with
  | nil => exact Or.inl ⟨[], t.current, .nil _, hordered, rfl⟩
  | cons write writes ih =>
    rcases write.apply_cases hordered with
      ⟨haccepted, between, hbetween, hcontents, happly⟩ | ⟨refusal, hrefused, happly⟩
    · rcases ih (t := { t with current := between }) hbetween with
        ⟨counts, after, hruns, hafter, hall⟩ | ⟨failing, refusal, current, hfailing, hall⟩
      · left
        rw [hcontents] at hruns
        refine ⟨_, after, .cons haccepted hruns, hafter, ?_⟩
        rw [runAll, happly]
        dsimp only
        rw [hall]
      · -- refused later: the accepted write goes before
        right
        obtain ⟨before, later, counts, reached, rfl, hruns, hrefused⟩ := hfailing
        rw [hcontents] at hruns
        refine ⟨failing, refusal, current, ⟨write :: before, later, _, reached, rfl,
          .cons haccepted hruns, hrefused⟩, ?_⟩
        rw [runAll, happly]
        dsimp only
        rw [hall]
    · right
      refine ⟨write, refusal, t.current, ⟨[], writes, [], _, rfl, .nil _, hrefused⟩, ?_⟩
      rw [runAll, happly, refusal.error_eq_ofStatement]

namespace Connection

variable {c : Connection}

/-- **A transaction is all or nothing.** -/
theorem executeBatch_cases (hordered : c.store.Ordered) (hopen : c.closed = false)
    (writes : List Write) :
    (∃ counts after, Runs c.store.contents writes counts (Store.contents after) ∧
      after.Ordered ∧
      c.executeBatch writes = (.ok (counts.foldl (· + ·) 0), { c with store := after })) ∨
    ∃ write refusal, RefusedAt c.store.contents writes write refusal ∧
      c.executeBatch writes = (.error (refusal.error write), c) := by
  have hnotClosed : ¬c.closed = true := by simp [hopen]
  rcases (Transaction.start c.store).runAll_cases hordered writes with
    ⟨counts, after, hruns, hafter, hall⟩ | ⟨write, refusal, current, hrefused, hall⟩
  · left
    refine ⟨counts, after, hruns, hafter, ?_⟩
    rw [executeBatch, if_neg hnotClosed, hall]
    rfl
  · right
    refine ⟨write, refusal, hrefused, ?_⟩
    rw [executeBatch, if_neg hnotClosed, hall]
    rfl

end Connection

/-! ### Steps -/

/-- What is asked of a connection. -/
inductive Step where
  | batch (writes : List Write)
  | write (write : Write)
  | read (read : Read) (mode : FetchMode)
  | close

/-- What a step that succeeds gives back. -/
inductive Reply where
  | affected (count : Nat)
  | output (output : QueryOutput)
  | closed

/-- The writes that take effect if a step succeeds. -/
def Step.writes : Step → List Write
  | .batch all => all
  | .write single => [single]
  | .read _ _ => []
  | .close => []

/-- The writes of those steps that have succeeded, in their order. -/
def committed (history : List (Step × Except StorageError Reply)) : List Write :=
  history.flatMap fun (step, reply) => if reply.isOk then step.writes else []

namespace Connection

def perform (c : Connection) : Step → Except StorageError Reply × Connection
  | .batch writes => (c.executeBatch writes).map (Except.map .affected) id
  | .write write => (c.executeWrite write).map (Except.map .output) id
  | .read read mode => ((c.executeRead read mode).map .output, c)
  | .close => (.ok .closed, c.close)

/-- Steps one after another, with what each of them gave back. -/
def run (c : Connection) : List Step → List (Step × Except StorageError Reply) × Connection
  | [] => ([], c)
  | step :: steps =>
    let (reply, c) := c.perform step
    let (history, c) := run c steps
    ((step, reply) :: history, c)

variable {c : Connection}

theorem executeBatch_of_closed (hclosed : c.closed = true) (writes : List Write) :
    c.executeBatch writes = (.error closedError, c) := by
  rw [executeBatch, if_pos hclosed]

theorem executeWrite_eq (c : Connection) (write : Write) :
    c.executeWrite write =
      ((c.executeBatch [write]).1.map .affected, (c.executeBatch [write]).2) := rfl

/-- A transaction keeps the table ordered, and changes it by its writes if it succeeds. -/
theorem executeBatch_keeps (hordered : c.store.Ordered) (writes : List Write) :
    (c.executeBatch writes).2.store.Ordered ∧
      (c.executeBatch writes).2.store.contents =
        (if (c.executeBatch writes).1.isOk then writes else []).foldl Write.applied
          c.store.contents := by
  cases hclosed : c.closed with
  | true =>
    rw [executeBatch_of_closed hclosed]
    exact ⟨hordered, rfl⟩
  | false =>
    rcases executeBatch_cases hordered hclosed writes with
      ⟨counts, after, hruns, hafter, hbatch⟩ | ⟨write, refusal, -, hbatch⟩
    · rw [hbatch]
      exact ⟨hafter, hruns.eq_foldl⟩
    · rw [hbatch]
      exact ⟨hordered, rfl⟩

/-- A step keeps the table ordered, and changes it by its writes if it succeeds. -/
theorem perform_keeps (hordered : c.store.Ordered) (step : Step) :
    (c.perform step).2.store.Ordered ∧
      (c.perform step).2.store.contents =
        (committed [(step, (c.perform step).1)]).foldl Write.applied c.store.contents := by
  have hcommitted (reply : Except StorageError Reply) :
      committed [(step, reply)] = if reply.isOk then step.writes else [] := by
    rw [committed, List.flatMap_singleton]
  have hisOk {α β : Type} (f : α → β) (outcome : Except StorageError α) :
      (outcome.map f).isOk = outcome.isOk := by
    cases outcome <;> rfl
  rw [hcommitted]
  cases step with
  | batch writes =>
    obtain ⟨hafter, hcontents⟩ := executeBatch_keeps hordered writes
    refine ⟨hafter, ?_⟩
    rw [perform, Prod.map_fst, Prod.map_snd, hisOk, Step.writes]
    exact hcontents
  | write write =>
    obtain ⟨hafter, hcontents⟩ := executeBatch_keeps hordered [write]
    refine ⟨hafter, ?_⟩
    rw [perform, Prod.map_fst, Prod.map_snd, hisOk, executeWrite_eq, hisOk, Step.writes]
    exact hcontents
  | read read mode =>
    refine ⟨hordered, ?_⟩
    rw [Step.writes, ite_self]
    rfl
  | close =>
    refine ⟨hordered, ?_⟩
    rw [Step.writes, ite_self]
    rfl

theorem run_keeps (hordered : c.store.Ordered) (steps : List Step) :
    (c.run steps).2.store.Ordered ∧
      (c.run steps).2.store.contents =
        (committed (c.run steps).1).foldl Write.applied c.store.contents := by
  induction steps generalizing c with
  | nil => exact ⟨hordered, rfl⟩
  | cons step steps ih =>
    obtain ⟨hstep, hcontents⟩ := perform_keeps hordered step
    obtain ⟨hafter, hrest⟩ := ih hstep
    refine ⟨hafter, ?_⟩
    have hsplit : committed (c.run (step :: steps)).1 =
        committed [(step, (c.perform step).1)] ++ committed ((c.perform step).2.run steps).1 := by
      rw [run, committed, List.flatMap_cons, committed, List.flatMap_singleton]
      rfl
    rw [hsplit, List.foldl_append, ← hcontents]
    exact hrest

/-- A connection that is closed stays so. -/
theorem perform_closed (hclosed : c.closed = true) (step : Step) :
    (c.perform step).2.closed = true := by
  cases step with
  | batch writes =>
    rw [perform, executeBatch_of_closed hclosed]
    exact hclosed
  | write write =>
    rw [perform, executeWrite, executeBatch_of_closed hclosed]
    exact hclosed
  | read read mode => exact hclosed
  | close => rfl

theorem run_closed {steps : List Step} (h : c.closed = true ∨ .close ∈ steps) :
    (c.run steps).2.closed = true := by
  induction steps generalizing c with
  | nil =>
    rcases h with h | h
    · exact h
    · cases h
  | cons step steps ih =>
    rw [run]
    apply ih
    rcases h with h | h
    · exact Or.inl (perform_closed h step)
    · rcases List.mem_cons.mp h with rfl | h
      · exact Or.inl rfl
      · exact Or.inr h

/-- On a closed connection every step but closing fails. -/
theorem perform_of_closed (hclosed : c.closed = true) {step : Step} (hstep : step ≠ .close) :
    (c.perform step).1 = .error closedError := by
  cases step with
  | batch writes =>
    rw [perform, executeBatch_of_closed hclosed]
    rfl
  | write write =>
    rw [perform, executeWrite, executeBatch_of_closed hclosed]
    rfl
  | read read mode =>
    rw [perform, executeRead, if_pos hclosed]
    rfl
  | close => exact absurd rfl hstep

/-- A range is read off the table in ascending order, or only its first row. -/
theorem executeRead_range (hordered : c.store.Ordered) (hopen : c.closed = false) (key : Int64) :
    ∃ entries, Store.Lists c.store.contents key entries ∧
      c.executeRead (.range key) .rows = .ok (.rows (entries.map Read.rowOf)) ∧
      c.executeRead (.range key) .first = .ok (.rows ((entries.take 1).map Read.rowOf)) := by
  refine ⟨c.store.startingAt key, hordered.lists key, ?_, ?_⟩
  · rw [executeRead, hopen]
    rfl
  · rw [executeRead, hopen, List.map_take]
    rfl

/-- **Transactions are all or nothing, and runs are linear.**  Writes on an open connection
    are either all run, one by one and in their order, and the rows that they affect are
    counted together, or the first that is refused is reported and the connection is as it
    was.  After any steps the table holds what the writes of those that have succeeded
    leave, and nothing else.  A range is then read off in ascending order, each key once,
    and once the connection is closed every further step fails for want of it. -/
theorem run_linear (hordered : c.store.Ordered) :
    (c.closed = false → ∀ writes,
      (∃ counts after, Runs c.store.contents writes counts (Store.contents after) ∧
        c.executeBatch writes = (.ok (counts.foldl (· + ·) 0), { c with store := after })) ∨
      ∃ write refusal, RefusedAt c.store.contents writes write refusal ∧
        c.executeBatch writes = (.error (refusal.error write), c)) ∧
    ∀ steps, let (history, after) := c.run steps
      after.store.Ordered ∧
      after.store.contents = (committed history).foldl Write.applied c.store.contents ∧
      (after.closed = false → ∀ key, ∃ entries, Store.Lists after.store.contents key entries ∧
        after.executeRead (.range key) .rows = .ok (.rows (entries.map Read.rowOf)) ∧
        after.executeRead (.range key) .first =
          .ok (.rows ((entries.take 1).map Read.rowOf))) ∧
      (.close ∈ steps → ∀ step ≠ .close, ∃ message,
        (after.perform step).1 = .error (.connectionUnavailable message)) := by
  constructor
  · intro hopen writes
    rcases executeBatch_cases hordered hopen writes with
      ⟨counts, after, hruns, -, hbatch⟩ | hrefused
    · exact Or.inl ⟨counts, after, hruns, hbatch⟩
    · exact Or.inr hrefused
  · intro steps
    obtain ⟨hafter, hcontents⟩ := run_keeps hordered steps
    refine ⟨hafter, hcontents, ?_, ?_⟩
    · intro hopen key
      exact executeRead_range hafter hopen key
    · intro hclose step hstep
      exact ⟨_, perform_of_closed (run_closed (Or.inr hclose)) hstep⟩

/-- A connection to a table of two entries. -/
def twoEntries : Connection := ⟨[(1, .integer 10), (5, .text "b")], false⟩

/-- A transaction that is refused at a key which it has put itself, a write, and a transaction
    after the end. -/
def refusedSteps : List Step :=
  [.batch [.put 3 .null, .set 5 (.int 4), .put 3 (.bool true)], .write (.put 7 .null),
    .read (.range 2) .first, .close, .batch []]

/-- Of the steps only the single write takes effect. -/
theorem run_linear_twoEntries :
    twoEntries.store.Ordered ∧ twoEntries.closed = false ∧
      (∃ write refusal, RefusedAt twoEntries.store.contents
          [.put 3 .null, .set 5 (.int 4), .put 3 (.bool true)] write refusal ∧
        twoEntries.executeBatch [.put 3 .null, .set 5 (.int 4), .put 3 (.bool true)] =
          (.error (refusal.error write), twoEntries)) ∧
      (twoEntries.run refusedSteps).2.store.contents =
        [Write.put 7 .null].foldl Write.applied twoEntries.store.contents ∧
      ∃ message, ((twoEntries.run refusedSteps).2.perform (.write (.delete 1))).1 =
        .error (.connectionUnavailable message) := by
  have hordered : twoEntries.store.Ordered := by
    simp only [twoEntries, Store.Ordered, List.pairwise_pair]
    decide
  obtain ⟨hbatch, hrun⟩ := run_linear hordered
  obtain ⟨-, hcontents, -, hclosed⟩ := hrun refusedSteps
  refine ⟨hordered, rfl, ?_, hcontents, ?_⟩
  · rcases hbatch rfl [.put 3 .null, .set 5 (.int 4), .put 3 (.bool true)] with
      ⟨counts, after, -, hdone⟩ | hrefused
    · have hfails : (twoEntries.executeBatch
          [.put 3 .null, .set 5 (.int 4), .put 3 (.bool true)]).1.isOk = false := by rfl
      rw [hdone] at hfails
      cases hfails
    · exact hrefused
  · apply hclosed
    · simp [refusedSteps]
    · simp

end Connection

end KnowledgeSearch.KeyValue
