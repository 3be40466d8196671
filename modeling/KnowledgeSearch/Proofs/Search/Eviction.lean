/-
  KnowledgeSearch/Proofs/Search/Eviction.lean
  ===========================================
  **A cache gives up first what was put in first.**

  A cache is what calls have made of an empty one (`Cache.after`), so everything about it
  is said of the calls.  An entry stands for one of the puts: the latest of its key, with
  no invalidation of its table since (`CacheEntry.StandsFor`).  The running number of an
  entry is the number of puts before that one, and the entries are kept in the order of
  these numbers (`Cache.Follows`).  Every call preserves this, as long as the numbers do not
  start again from zero, and it makes the first entry the one with the least number.

  From there on no number is looked at any more: the entry that leaves a full cache was
  put before all others (`Cache.firstInFirstOut_after`).
-/
import KnowledgeSearch.Proofs.Search.Run

namespace KnowledgeSearch

/-! ### Calls -/

/-- A call of a cache, with what the clock shows then. -/
inductive CacheCall (α : Type) where
  | get (now : Instant) (key : String)
  | put (now : Instant) (key table : String) (value : α)
  | invalidate (table : String)

namespace CacheCall

variable {α : Type}

def time? : CacheCall α → Option Instant
  | get now _ => some now
  | put now _ _ _ => some now
  | invalidate _ => none

def isPut : CacheCall α → Bool
  | put _ _ _ _ => true
  | _ => false

/-- Calls during which the clock does not go back. -/
def Forward (calls : List (CacheCall α)) : Prop := (calls.filterMap time?).Pairwise (· ≤ ·)

instance (calls : List (CacheCall α)) : Decidable (Forward calls) :=
  inferInstanceAs (Decidable ((calls.filterMap time?).Pairwise (· ≤ ·)))

/-- The number of puts. -/
def puts (calls : List (CacheCall α)) : Nat := calls.countP isPut

theorem puts_concat (calls : List (CacheCall α)) (call : CacheCall α) :
    puts (calls ++ [call]) = puts calls + if call.isPut then 1 else 0 := by
  simp [puts, List.countP_append, List.countP_singleton]

end CacheCall

open CacheCall

namespace Cache

variable {α : Type}

def call (cache : Cache α) : CacheCall α → Cache α
  | .get now key => (cache.get? now key).2
  | .put now key table value => cache.put now key table value
  | .invalidate table => (cache.invalidate table).2

/-- What some calls make of an empty cache. -/
def after (ttl maxEntries : Nat) (calls : List (CacheCall α)) : Cache α :=
  calls.foldl call (empty ttl maxEntries)

theorem after_concat (ttl maxEntries : Nat) (calls : List (CacheCall α)) (last : CacheCall α) :
    after ttl maxEntries (calls ++ [last]) = (after ttl maxEntries calls).call last := by
  simp [after]

end Cache

/-! ### The put behind an entry -/

/-- An entry stands for the put at a position: it is the latest one of its key, and the
    table has not been invalidated since. -/
structure CacheEntry.StandsFor {α : Type} (entry : CacheEntry α) (calls : List (CacheCall α))
    (position : Nat) : Prop where
  stored : calls[position]? = some (.put entry.insertedAt entry.key entry.table entry.value)
  latest : ∀ now table value, .put now entry.key table value ∉ calls.drop (position + 1)
  valid : .invalidate entry.table ∉ calls.drop (position + 1)

namespace CacheEntry

variable {α : Type} {entry other : CacheEntry α} {calls : List (CacheCall α)}
  {position later : Nat}

theorem StandsFor.lt_length (h : entry.StandsFor calls position) : position < calls.length :=
  (List.getElem?_eq_some_iff.mp h.stored).1

theorem standsFor_concat (now : Instant) (key table : String) (seq : UInt64) (value : α) :
    (⟨key, table, seq, now, value⟩ : CacheEntry α).StandsFor
      (calls ++ [.put now key table value]) calls.length where
  stored := by simp
  latest := by simp
  valid := by simp

/-- An entry goes on standing for its put when a call neither puts its key again nor
    invalidates its table. -/
theorem StandsFor.concat (h : entry.StandsFor calls position) {call : CacheCall α}
    (hput : ∀ now table value, call ≠ .put now entry.key table value)
    (hinvalidate : call ≠ .invalidate entry.table) :
    entry.StandsFor (calls ++ [call]) position := by
  have hdrop : (calls ++ [call]).drop (position + 1) = calls.drop (position + 1) ++ [call] :=
    List.drop_append_of_le_length h.lt_length
  refine ⟨?_, ?_, ?_⟩
  · rw [List.getElem?_append_left h.lt_length]
    exact h.stored
  · intro now table value hmem
    rw [hdrop, List.mem_append, List.mem_singleton] at hmem
    exact hmem.elim (h.latest now table value) fun heq => hput now table value heq.symm
  · intro hmem
    rw [hdrop, List.mem_append, List.mem_singleton] at hmem
    exact hmem.elim h.valid fun heq => hinvalidate heq.symm

theorem StandsFor.puts_take_lt (h : entry.StandsFor calls position) :
    puts (calls.take position) < puts calls := by
  obtain ⟨hlt, hcall⟩ := List.getElem?_eq_some_iff.mp h.stored
  have htake : calls.take (position + 1) = calls.take position ++ [calls[position]] :=
    (List.take_concat_get' calls position hlt).symm
  have hcount : puts (calls.take (position + 1)) = puts (calls.take position) + 1 := by
    rw [htake, puts_concat, hcall]
    rfl
  have hle : puts (calls.take (position + 1)) ≤ puts calls :=
    (List.take_sublist _ _).countP_le
  omega

/-- More puts before it is later. -/
theorem position_lt_of_puts_lt
    (h : puts (calls.take position) < puts (calls.take later)) : position < later := by
  by_contra hle
  have hshorter : (calls.take later).Sublist (calls.take position) :=
    (List.take_prefix_take_left (Nat.le_of_not_lt hle)).sublist
  exact absurd (hshorter.countP_le (p := isPut)) (Nat.not_le.mpr h)

theorem StandsFor.insertedAt_le (h : entry.StandsFor calls position)
    (hlater : other.StandsFor calls later) (hlt : position < later) (hforward : Forward calls) :
    entry.insertedAt ≤ other.insertedAt := by
  rw [Forward, List.pairwise_filterMap, List.pairwise_iff_getElem] at hforward
  obtain ⟨hposition, hcall⟩ := List.getElem?_eq_some_iff.mp h.stored
  obtain ⟨hlater, hcall'⟩ := List.getElem?_eq_some_iff.mp hlater.stored
  apply hforward position later hposition hlater hlt
  · rw [hcall]
    rfl
  · rw [hcall']
    rfl

theorem StandsFor.insertedAt_le_now (h : entry.StandsFor calls position) {call : CacheCall α}
    {now : Instant} (hnow : call.time? = some now) (hforward : Forward (calls ++ [call])) :
    entry.insertedAt ≤ now := by
  rw [Forward, List.filterMap_append, List.pairwise_append] at hforward
  apply hforward.2.2
  · exact List.mem_filterMap.mpr ⟨_, List.mem_of_getElem? h.stored, rfl⟩
  · simp [hnow]

end CacheEntry

/-! ### The order of the entries -/

namespace Cache

variable {α : Type} {cache : Cache α} {calls : List (CacheCall α)} {entry : CacheEntry α}
  {entries kept : List (CacheEntry α)}

/-- A cache after some calls: each entry stands for a put, their numbers count the puts
    before, and they are kept in this order. -/
structure Follows (cache : Cache α) (calls : List (CacheCall α)) : Prop where
  size_le : cache.size ≤ cache.maxEntries
  keys : cache.entries.Pairwise fun first later => first.key ≠ later.key
  seqs : cache.entries.Pairwise fun first later => first.seq < later.seq
  next : cache.maxEntries ≠ 0 → cache.nextSeq.toNat = puts calls % 2 ^ 64
  stands : ∀ entry ∈ cache.entries, ∃ position, entry.StandsFor calls position ∧
    entry.seq.toNat = puts (calls.take position)

theorem follows_empty (ttl maxEntries : Nat) : (empty ttl maxEntries : Cache α).Follows [] where
  size_le := Nat.zero_le _
  keys := .nil
  seqs := .nil
  next := fun _ => rfl
  stands := fun _ h => absurd h List.not_mem_nil

theorem Follows.seq_lt (h : cache.Follows calls) (hentry : entry ∈ cache.entries) :
    entry.seq.toNat < puts calls := by
  obtain ⟨position, hstands, hseq⟩ := h.stands entry hentry
  rw [hseq]
  exact hstands.puts_take_lt

/-- A call that is no put, and keeps only what it leaves standing. -/
theorem Follows.narrow (h : cache.Follows calls) {call : CacheCall α} (hcall : call.isPut = false)
    (hkept : kept.Sublist cache.entries)
    (hvalid : ∀ entry ∈ kept, call ≠ .invalidate entry.table) :
    { cache with entries := kept }.Follows (calls ++ [call]) where
  size_le := hkept.length_le.trans h.size_le
  keys := h.keys.sublist hkept
  seqs := h.seqs.sublist hkept
  next := by
    simpa [puts_concat, hcall] using h.next
  stands := by
    intro entry hentry
    obtain ⟨position, hstands, hseq⟩ := h.stands entry (hkept.subset hentry)
    refine ⟨position, hstands.concat ?_ (hvalid entry hentry), ?_⟩
    · rintro now table value rfl
      cases hcall
    · rw [hseq, List.take_append_of_le_length hstands.lt_length.le]

/-- A put that keeps some of the other entries. -/
theorem Follows.extend (h : cache.Follows calls) {now : Instant} {key table : String} {value : α}
    (hkept : kept.Sublist cache.entries) (hkey : ∀ entry ∈ kept, entry.key ≠ key)
    (hsize : kept.length < cache.maxEntries)
    (hputs : puts (calls ++ [.put now key table value]) ≤ 2 ^ 64) :
    Follows
      { cache with
        nextSeq := cache.nextSeq + 1
        entries := kept ++ [⟨key, table, cache.nextSeq, now, value⟩] }
      (calls ++ [.put now key table value]) := by
  have hcount : puts (calls ++ [.put now key table value]) = puts calls + 1 := puts_concat _ _
  have hnext : cache.nextSeq.toNat = puts calls % 2 ^ 64 := h.next (by omega)
  have hseq : cache.nextSeq.toNat = puts calls := by
    rw [hnext]
    exact Nat.mod_eq_of_lt (by omega)
  refine ⟨?_, ?_, ?_, ?_, ?_⟩
  · simpa [size] using Nat.succ_le_of_lt hsize
  · rw [List.pairwise_append]
    refine ⟨h.keys.sublist hkept, List.pairwise_singleton _ _, ?_⟩
    simpa using hkey
  · rw [List.pairwise_append]
    refine ⟨h.seqs.sublist hkept, List.pairwise_singleton _ _, ?_⟩
    intro entry hentry last hlast
    cases List.mem_singleton.mp hlast
    rw [UInt64.lt_iff_toNat_lt, hseq]
    exact h.seq_lt (hkept.subset hentry)
  · intro _
    rw [hcount, UInt64.toNat_add, hseq]
    rfl
  · intro entry hmem
    rcases List.mem_append.mp hmem with hentry | hlast
    · obtain ⟨position, hstands, hposition⟩ := h.stands entry (hkept.subset hentry)
      refine ⟨position, hstands.concat ?_ (fun heq => by cases heq), ?_⟩
      · rintro now' table' value' heq
        cases heq
        exact hkey entry hentry rfl
      · rw [hposition, List.take_append_of_le_length hstands.lt_length.le]
    · cases List.mem_singleton.mp hlast
      refine ⟨calls.length, CacheEntry.standsFor_concat now key table _ value, ?_⟩
      rw [List.take_left]
      exact hseq

/-! ### What one call does -/

theorem find?_eq_some_iff (hkeys : cache.entries.Pairwise fun first later => first.key ≠ later.key)
    {key : String} : cache.find? key = some entry ↔ entry ∈ cache.entries ∧ entry.key = key := by
  constructor
  · intro h
    exact ⟨List.mem_of_find?_eq_some h, by simpa using List.find?_some h⟩
  · rintro ⟨hmem, rfl⟩
    obtain ⟨before, since, hsplit⟩ := List.append_of_mem hmem
    rw [hsplit, List.pairwise_append] at hkeys
    rw [find?, hsplit, List.find?_append, List.find?_eq_none.mpr]
    · simp
    · intro other hother
      simpa using hkeys.2.2 other hother entry List.mem_cons_self

theorem find?_eq_none_iff {key : String} :
    cache.find? key = none ↔ ∀ entry ∈ cache.entries, entry.key ≠ key := by
  simp [find?]

theorem mem_of_oldest? (h : oldest? entries = some entry) : entry ∈ entries := by
  induction entries with
  | nil => cases h
  | cons first rest ih =>
    unfold oldest? at h
    split at h
    · cases h
      exact List.mem_cons_self
    · rename_i other hother
      split at h <;> cases h
      · exact List.mem_cons_of_mem _ (ih hother)
      · exact List.mem_cons_self

theorem oldest?_cons (h : ∀ other ∈ entries, entry.seq < other.seq) :
    oldest? (entry :: entries) = some entry := by
  unfold oldest?
  split
  · rfl
  · rename_i other hother
    exact if_neg (UInt64.lt_asymm (h other (mem_of_oldest? hother)))

theorem without_eq_self {key : String} (h : ∀ entry ∈ entries, entry.key ≠ key) :
    without key entries = entries := by
  rw [without, List.filter_eq_self]
  simpa using h

theorem makeRoom_of_lt {max : Nat} (h : entries.length < max) (steps : Nat) :
    makeRoom max steps entries = entries := by
  cases steps with
  | zero => rfl
  | succ steps => exact if_pos h

/-- A full cache gives up its first entry. -/
theorem makeRoom_of_full (hkeys : ∀ other ∈ kept, entry.key ≠ other.key)
    (hseqs : ∀ other ∈ kept, entry.seq < other.seq) :
    makeRoom (entry :: kept).length (entry :: kept).length (entry :: kept) = kept := by
  have hwithout : without entry.key (entry :: kept) = kept := by
    rw [without, List.filter_cons_of_neg (by simp)]
    exact without_eq_self fun other hother => (hkeys other hother).symm
  have hfull : ¬(entry :: kept).length < kept.length + 1 := Nat.lt_irrefl _
  rw [List.length_cons, makeRoom, if_neg hfull, oldest?_cons hseqs]
  simp only [hwithout]
  exact makeRoom_of_lt (Nat.lt_succ_self _) _

/-- What a put into a cache keeps: every entry of another key when there is room or the key
    is taken, and otherwise every entry but the first. -/
theorem Follows.put_cases (h : cache.Follows calls) (hmax : cache.maxEntries ≠ 0) (now : Instant)
    (key table : String) (value : α) :
    ∃ kept, cache.put now key table value =
        { cache with
          nextSeq := cache.nextSeq + 1
          entries := kept ++ [⟨key, table, cache.nextSeq, now, value⟩] } ∧
      kept.Sublist cache.entries ∧ (∀ entry ∈ kept, entry.key ≠ key) ∧
      kept.length < cache.maxEntries ∧
      ((((cache.find? key).isSome ∨ cache.size < cache.maxEntries) ∧
          kept = without key cache.entries) ∨
        (cache.find? key = none ∧ cache.size = cache.maxEntries ∧
          ∃ victim, cache.entries = victim :: kept)) := by
  have hothers : ∀ entry ∈ without key cache.entries, entry.key ≠ key := fun entry hentry => by
    simpa using (List.mem_filter.mp hentry).2
  unfold put
  rw [if_neg hmax]
  cases hfound : cache.find? key with
  | some entry =>
    obtain ⟨hmem, hkey⟩ := (find?_eq_some_iff h.keys).mp hfound
    have hsize : (without key cache.entries).length < cache.entries.length :=
      List.length_filter_lt_length_iff_exists.mpr ⟨entry, hmem, by simp [hkey]⟩
    exact ⟨_, rfl, List.filter_sublist, hothers, hsize.trans_le h.size_le, .inl ⟨.inl rfl, rfl⟩⟩
  | none =>
    rw [if_neg (by simp)]
    by_cases hroom : cache.size < cache.maxEntries
    · rw [makeRoom_of_lt hroom]
      have hsize : (without key cache.entries).length ≤ cache.size := List.length_filter_le _ _
      exact ⟨_, rfl, List.filter_sublist, hothers, hsize.trans_lt hroom, .inl ⟨.inr hroom, rfl⟩⟩
    · have hfull : cache.size = cache.maxEntries :=
        Nat.le_antisymm h.size_le (Nat.le_of_not_lt hroom)
      cases hentries : cache.entries with
      | nil =>
        rw [size, hentries] at hfull
        exact absurd hfull.symm hmax
      | cons victim kept =>
        obtain ⟨hkeys, -⟩ := List.pairwise_cons.mp (hentries ▸ h.keys)
        obtain ⟨hseqs, -⟩ := List.pairwise_cons.mp (hentries ▸ h.seqs)
        have hothers : ∀ entry ∈ kept, entry.key ≠ key := fun entry hentry =>
          find?_eq_none_iff.mp hfound entry (hentries ▸ List.mem_cons_of_mem _ hentry)
        have hsize : kept.length < cache.maxEntries := by
          rw [← hfull, size, hentries]
          exact Nat.lt_succ_self _
        refine ⟨kept, ?_, List.sublist_cons_self _ _, hothers, hsize,
          .inr ⟨rfl, hfull, victim, rfl⟩⟩
        rw [← hfull, size, hentries, makeRoom_of_full hkeys hseqs]
        dsimp only
        rw [without_eq_self hothers]

theorem Follows.call (h : cache.Follows calls) (last : CacheCall α)
    (hputs : puts (calls ++ [last]) ≤ 2 ^ 64) : (cache.call last).Follows (calls ++ [last]) := by
  cases last with
  | get now key =>
    rw [Cache.call]
    rcases cache.get?_change now key with hsame | ⟨-, hgone⟩
    · rw [hsame]
      exact h.narrow rfl (.refl _) nofun
    · rw [hgone]
      exact h.narrow rfl List.filter_sublist nofun
  | put now key table value =>
    rw [Cache.call]
    by_cases hmax : cache.maxEntries = 0
    · have hnil : cache.entries = [] :=
        List.eq_nil_of_length_eq_zero (Nat.le_zero.mp (hmax ▸ h.size_le))
      rw [put, if_pos hmax]
      exact ⟨h.size_le, h.keys, h.seqs, fun hne => absurd hmax hne, by simp [hnil]⟩
    · obtain ⟨kept, hput, hkept, hkey, hsize, -⟩ := h.put_cases hmax now key table value
      rw [hput]
      exact h.extend hkept hkey hsize hputs
  | invalidate table =>
    apply h.narrow rfl List.filter_sublist
    intro entry hentry heq
    cases heq
    simpa using (List.mem_filter.mp hentry).2

theorem follows_after (ttl maxEntries : Nat) (hputs : puts calls ≤ 2 ^ 64) :
    (after ttl maxEntries calls).Follows calls := by
  induction calls using List.reverseRecOn with
  | nil => exact follows_empty ttl maxEntries
  | append_singleton calls last ih =>
    have hfewer : puts calls ≤ puts (calls ++ [last]) := (List.sublist_append_left _ _).countP_le
    rw [after_concat]
    exact (ih (hfewer.trans hputs)).call last hputs

theorem call_settings (cache : Cache α) (last : CacheCall α) :
    (cache.call last).ttl = cache.ttl ∧ (cache.call last).maxEntries = cache.maxEntries := by
  cases last with
  | get now key =>
    rcases cache.get?_change now key with hsame | ⟨-, hgone⟩
    · rw [call, hsame]
      exact ⟨rfl, rfl⟩
    · rw [call, hgone]
      exact ⟨rfl, rfl⟩
  | put now key table value =>
    by_cases hmax : cache.maxEntries = 0 <;> simp [call, put, hmax]
  | invalidate table => exact ⟨rfl, rfl⟩

theorem after_settings (ttl maxEntries : Nat) (calls : List (CacheCall α)) :
    (after ttl maxEntries calls).ttl = ttl ∧
      (after ttl maxEntries calls).maxEntries = maxEntries := by
  induction calls using List.reverseRecOn with
  | nil => exact ⟨rfl, rfl⟩
  | append_singleton calls last ih =>
    obtain ⟨httl, hmax⟩ := call_settings (after ttl maxEntries calls) last
    rw [after_concat]
    exact ⟨httl.trans ih.1, hmax.trans ih.2⟩

/-! ### First in, first out -/

/-- The next cache has lost one entry to a put at some time, the one that was put before all
    others.  An entry that stays has expired only if that one has. -/
structure Evicts (cache next : Cache α) (calls : List (CacheCall α)) (now : Instant)
    (key : String) (victim : CacheEntry α) : Prop where
  held : cache.find? victim.key = some victim
  gone : next.find? victim.key = none
  others : ∀ other, other ≠ key → other ≠ victim.key → next.find? other = cache.find? other
  oldest : ∃ position, victim.StandsFor calls position ∧
    ∀ entry ∈ cache.entries, entry.key ≠ victim.key →
      ∃ later, position < later ∧ entry.StandsFor calls later
  expired : ∀ entry ∈ next.entries, cache.ttl ≤ now - entry.insertedAt →
    cache.ttl ≤ now - victim.insertedAt

/-- A bounded map, after some calls, that gives up first what was put in first. -/
structure FirstInFirstOut (ttl maxEntries : Nat) (calls : List (CacheCall α))
    (cache : Cache α) : Prop where
  size_le : cache.size ≤ maxEntries
  keys_nodup : (cache.entries.map CacheEntry.key).Nodup
  seqs_nodup : (cache.entries.map CacheEntry.seq).Nodup
  /-- What a look-up gives is what the latest put of the key has stored, not too long ago. -/
  get : ∀ now key value, Forward (calls ++ [.get now key]) →
    (cache.get? now key).1 = some value →
      ∃ (entry : CacheEntry α) (position : Nat), entry.StandsFor calls position ∧ entry.key = key ∧
        entry.value = value ∧ entry.insertedAt ≤ now ∧ now < entry.insertedAt + ttl
  put_stores : maxEntries ≠ 0 → ∀ now key table value,
    (cache.put now key table value).find? key = some ⟨key, table, cache.nextSeq, now, value⟩
  /-- Nothing else goes when the key is taken or there is room. -/
  put_keeps : ∀ now key table value, (cache.find? key).isSome ∨ cache.size < maxEntries →
    ∀ other, other ≠ key → (cache.put now key table value).find? other = cache.find? other
  /-- One entry goes when a new key finds the cache full. -/
  put_evicts : maxEntries ≠ 0 → ∀ now key table value,
    Forward (calls ++ [.put now key table value]) →
      cache.find? key = none → cache.size = maxEntries →
        ∃ victim, cache.Evicts (cache.put now key table value) calls now key victim
  invalidate : ∀ table key, (cache.invalidate table).2.find? key =
    (cache.find? key).filter fun entry => entry.table ≠ table
  invalidate_count : ∀ table, (cache.invalidate table).1 =
    cache.entries.countP fun entry => entry.table = table

variable {key table : String} {now : Instant} {value : α}

theorem Follows.get (h : cache.Follows calls) (hforward : Forward (calls ++ [.get now key]))
    (hget : (cache.get? now key).1 = some value) :
    ∃ (entry : CacheEntry α) (position : Nat), entry.StandsFor calls position ∧
      entry.key = key ∧ entry.value = value ∧ entry.insertedAt ≤ now ∧
        now < entry.insertedAt + cache.ttl := by
  unfold get? at hget
  cases hfind : cache.find? key with
  | none => simp [hfind] at hget
  | some entry =>
    simp only [hfind] at hget
    split at hget
    · cases hget
    · rename_i hyoung
      obtain ⟨hmem, hkey⟩ := (find?_eq_some_iff h.keys).mp hfind
      obtain ⟨position, hstands, -⟩ := h.stands entry hmem
      have hnow : entry.insertedAt ≤ now := hstands.insertedAt_le_now rfl hforward
      have hage : now < entry.insertedAt + cache.ttl :=
        (Nat.sub_lt_iff_lt_add' hnow).mp (Nat.lt_of_not_le hyoung)
      exact ⟨entry, position, hstands, hkey, Option.some.inj hget, hnow, hage⟩

/-- What a put adds is not seen by a look-up of another key. -/
theorem find?_concat_of_ne {last : CacheEntry α} {other : String} (hne : other ≠ last.key)
    (kept : List (CacheEntry α)) :
    ((kept ++ [last]).find? fun entry => entry.key = other) =
      kept.find? fun entry => entry.key = other := by
  rw [List.find?_append, List.find?_singleton, if_neg (by simpa using hne.symm), Option.or_none]

theorem Follows.put_keeps (h : cache.Follows calls)
    (hroom : (cache.find? key).isSome ∨ cache.size < cache.maxEntries) {other : String}
    (hne : other ≠ key) : (cache.put now key table value).find? other = cache.find? other := by
  by_cases hmax : cache.maxEntries = 0
  · rw [put, if_pos hmax]
  · obtain ⟨kept, hput, -, -, -, ⟨-, rfl⟩ | ⟨hnone, hfull, -⟩⟩ :=
      h.put_cases hmax now key table value
    · rw [hput, find?, find?_concat_of_ne hne, find?_without hne, find?]
    · rcases hroom with hfound | hroom
      · simp [hnone] at hfound
      · exact absurd hfull hroom.ne

theorem Follows.put_stores (h : cache.Follows calls) (hmax : cache.maxEntries ≠ 0) :
    (cache.put now key table value).find? key = some ⟨key, table, cache.nextSeq, now, value⟩ := by
  obtain ⟨kept, hput, -, hothers, -⟩ := h.put_cases hmax now key table value
  rw [hput, find?, List.find?_append, List.find?_eq_none.mpr (by simpa using hothers)]
  simp

/-- The first entry was put before all others. -/
theorem Follows.first_stands (h : cache.Follows calls) {victim : CacheEntry α}
    (hentries : cache.entries = victim :: kept) :
    ∃ position, victim.StandsFor calls position ∧
      ∀ entry ∈ kept, ∃ later, position < later ∧ entry.StandsFor calls later := by
  obtain ⟨position, hstands, hposition⟩ := h.stands victim (hentries ▸ List.mem_cons_self)
  refine ⟨position, hstands, fun entry hentry => ?_⟩
  obtain ⟨later, hother, hseq⟩ := h.stands entry (hentries ▸ List.mem_cons_of_mem _ hentry)
  have hseqs := (List.pairwise_cons.mp (hentries ▸ h.seqs)).1
  have hlt : puts (calls.take position) < puts (calls.take later) := by
    rw [← hposition, ← hseq]
    exact hseqs entry hentry
  exact ⟨later, CacheEntry.position_lt_of_puts_lt hlt, hother⟩

theorem Follows.put_evicts (h : cache.Follows calls) (hmax : cache.maxEntries ≠ 0)
    (hforward : Forward (calls ++ [.put now key table value])) (hnone : cache.find? key = none)
    (hfull : cache.size = cache.maxEntries) :
    ∃ victim, cache.Evicts (cache.put now key table value) calls now key victim := by
  obtain ⟨kept, hput, -, -, -, ⟨hroom, -⟩ | ⟨-, -, victim, hentries⟩⟩ :=
    h.put_cases hmax now key table value
  · simp [hnone, hfull] at hroom
  · have hvictim : victim ∈ cache.entries := hentries ▸ List.mem_cons_self
    have hkey : victim.key ≠ key := find?_eq_none_iff.mp hnone victim hvictim
    obtain ⟨hkeys, -⟩ := List.pairwise_cons.mp (hentries ▸ h.keys)
    obtain ⟨position, hstands, hlater⟩ := h.first_stands hentries
    refine ⟨victim, ?_, ?_, ?_, ?_, ?_⟩
    · exact (find?_eq_some_iff h.keys).mpr ⟨hvictim, rfl⟩
    · rw [hput, find?, find?_concat_of_ne hkey, List.find?_eq_none]
      intro entry hentry
      simpa using (hkeys entry hentry).symm
    · intro other hother hne
      rw [hput, find?, find?_concat_of_ne hother, find?, hentries, List.find?_cons_of_neg]
      simpa using hne.symm
    · refine ⟨position, hstands, ?_⟩
      intro entry hentry hne
      rw [hentries] at hentry
      rcases List.mem_cons.mp hentry with rfl | hentry
      · exact absurd rfl hne
      · exact hlater entry hentry
    · intro entry hentry hexpired
      rw [hput] at hentry
      rcases List.mem_append.mp hentry with hentry | hlast
      · obtain ⟨later, hlt, hother⟩ := hlater entry hentry
        have hforward' : Forward calls := by
          rw [Forward, List.filterMap_append, List.pairwise_append] at hforward
          exact hforward.1
        have hage := hstands.insertedAt_le hother hlt hforward'
        exact hexpired.trans (Nat.sub_le_sub_left hage now)
      · cases List.mem_singleton.mp hlast
        have hage : victim.insertedAt ≤ now := hstands.insertedAt_le_now rfl hforward
        exact hexpired.trans (Nat.sub_le_sub_left hage now)

theorem Follows.find?_invalidate (h : cache.Follows calls) (table key : String) :
    (cache.invalidate table).2.find? key =
      (cache.find? key).filter fun entry => entry.table ≠ table := by
  have hkept := h.keys.sublist (List.filter_sublist (p := fun entry => entry.table != table))
  ext entry
  rw [find?_eq_some_iff hkept, Option.filter_eq_some_iff, find?_eq_some_iff h.keys]
  simp [invalidate, and_comm, and_left_comm]

theorem invalidate_count (cache : Cache α) (table : String) :
    (cache.invalidate table).1 = cache.entries.countP fun entry => entry.table = table := by
  have hkept : (cache.entries.filter fun entry => entry.table != table).length =
      cache.entries.countP fun entry => ¬decide (entry.table = table) := by
    rw [← List.countP_eq_length_filter]
    exact List.countP_congr fun entry _ => by simp
  have hsplit : cache.entries.length =
      (cache.entries.countP fun entry => entry.table = table) +
        cache.entries.countP fun entry => ¬decide (entry.table = table) :=
    List.length_eq_countP_add_countP _
  simp only [invalidate, hkept]
  omega

/-- **A cache gives up first what was put in first.**  Whatever the calls were, it is a map of
    at most `maxEntries` entries with distinct numbers, as long as there were no more puts than
    numbers.  What it answers is what the latest put of the key has stored, less than `ttl` ago,
    and the table has not been invalidated since.  A put takes another key's entry away only
    from a full cache without the key: the one whose latest put is the oldest, so a live entry
    never goes before an expired one. -/
theorem firstInFirstOut_after (ttl maxEntries : Nat) (hputs : puts calls ≤ 2 ^ 64) :
    FirstInFirstOut ttl maxEntries calls (after ttl maxEntries calls) := by
  have h : (after ttl maxEntries calls).Follows calls := follows_after ttl maxEntries hputs
  obtain ⟨httl, hmax⟩ := after_settings ttl maxEntries calls
  generalize after ttl maxEntries calls = cache at h httl hmax
  subst httl hmax
  exact
    { size_le := h.size_le
      keys_nodup := List.pairwise_map.mpr h.keys
      seqs_nodup := List.pairwise_map.mpr (h.seqs.imp fun hlt => UInt64.ne_of_lt hlt)
      get := fun _ _ _ => h.get
      put_stores := fun hne _ _ _ _ => h.put_stores hne
      put_keeps := fun _ _ _ _ hroom _ => h.put_keeps hroom
      put_evicts := fun hne _ _ _ _ => h.put_evicts hne
      invalidate := h.find?_invalidate
      invalidate_count := invalidate_count cache }

/-- Three keys for a cache of two, and the first one is put again in time. -/
def replacement : List (CacheCall Nat) :=
  [.put 0 "a" "t" 1, .put 1 "b" "t" 2, .put 2 "a" "t" 3, .put 3 "c" "u" 4, .get 3 "a"]

theorem firstInFirstOut_replacement :
    puts replacement ≤ 2 ^ 64 ∧
      FirstInFirstOut 60 2 replacement (after 60 2 replacement) ∧
      (after 60 2 replacement).entries.map CacheEntry.key = ["a", "c"] :=
  ⟨by decide, firstInFirstOut_after 60 2 (by decide), by decide⟩

end Cache

end KnowledgeSearch
