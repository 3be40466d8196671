/-
  KnowledgeSearch/Proofs/Keyed.lean
  =================================
  **Entries that are found by name.**

  Ordering entries by name adds none, and every name is still found.  Where the names are
  distinct nothing is lost either: the ordered entries are the entries in another order
  (`Keyed.ofList_perm`).
-/
import KnowledgeSearch.Keyed

namespace KnowledgeSearch.Keyed

/-! ### Entries that are there -/

variable {α : Type} {entries : List (String × α)} {entry : String × α}

theorem mem_insert {key : String} {value : α} (h : entry ∈ insert key value entries) :
    entry = (key, value) ∨ entry ∈ entries := by
  induction entries with
  | nil => exact Or.inl (List.mem_singleton.mp h)
  | cons first rest ih =>
    unfold insert at h
    split at h
    · exact List.mem_cons.mp h
    · split at h
      · rcases List.mem_cons.mp h with h | h
        · exact Or.inl h
        · exact Or.inr (List.mem_cons_of_mem _ h)
      · rcases List.mem_cons.mp h with h | h
        · rw [h]
          exact Or.inr List.mem_cons_self
        · rcases ih h with h | h
          · exact Or.inl h
          · exact Or.inr (List.mem_cons_of_mem _ h)

/-- Ordering entries adds none. -/
theorem mem_ofList (h : entry ∈ ofList entries) : entry ∈ entries := by
  have go (entries sorted : List (String × α))
      (h : entry ∈ entries.foldl (fun sorted entry => insert entry.1 entry.2 sorted) sorted) :
      entry ∈ entries ∨ entry ∈ sorted := by
    induction entries generalizing sorted with
    | nil => exact Or.inr h
    | cons first rest ih =>
      rcases ih _ h with h | h
      · exact Or.inl (List.mem_cons_of_mem _ h)
      · rcases mem_insert h with h | h
        · rw [h]
          exact Or.inl List.mem_cons_self
        · exact Or.inr h
  rcases go entries [] h with h | h
  · exact h
  · cases h

theorem mem_of_get? {key : String} {value : α} (h : get? entries key = some value) :
    (key, value) ∈ entries := by
  unfold get? at h
  induction entries with
  | nil => cases h
  | cons first rest ih =>
    obtain ⟨k, v⟩ := first
    rw [List.lookup_cons] at h
    by_cases hk : key = k
    · subst hk
      simp only [beq_self_eq_true] at h
      injection h with h
      subst h
      exact List.mem_cons_self
    · have hne : (key == k) = false := beq_eq_false_iff_ne.mpr hk
      rw [hne] at h
      exact List.mem_cons_of_mem _ (ih h)

theorem get?_cons (k : String) (v : α) (rest : Keyed α) (key : String) :
    get? ((k, v) :: rest) key = if key = k then some v else get? rest key := by
  unfold get?
  rw [List.lookup_cons]
  by_cases hk : key = k
  · simp [hk]
  · simp [hk, beq_eq_false_iff_ne.mpr hk]

theorem get?_insert (key : String) (value : α) (entries : Keyed α) (other : String) :
    get? (insert key value entries) other =
      if other = key then some value else get? entries other := by
  induction entries with
  | nil => exact get?_cons key value [] other
  | cons first rest ih =>
    obtain ⟨k, v⟩ := first
    unfold insert
    split
    · exact get?_cons key value ((k, v) :: rest) other
    · split
      · rename_i hkey
        subst hkey
        rw [get?_cons, get?_cons]
        split <;> rfl
      · rename_i hkey
        rw [get?_cons, get?_cons, ih]
        by_cases hother : other = k
        · subst hother
          simp [Ne.symm hkey]
        · simp [hother]

/-- An entry's name is found, though an entry of the same name may have replaced it. -/
theorem get?_ofList_of_mem (h : entry ∈ entries) :
    ∃ value, get? (ofList entries) entry.1 = some value := by
  have go (entries sorted : List (String × α))
      (h : entry ∈ entries ∨ ∃ value, get? sorted entry.1 = some value) :
      ∃ value, get? (entries.foldl (fun sorted entry => insert entry.1 entry.2 sorted) sorted)
        entry.1 = some value := by
    induction entries generalizing sorted with
    | nil =>
      rcases h with h | h
      · cases h
      · exact h
    | cons first rest ih =>
      apply ih
      rcases h with h | ⟨value, h⟩
      · rcases List.mem_cons.mp h with rfl | h
        · exact .inr ⟨entry.2, by simp [get?_insert]⟩
        · exact .inl h
      · right
        rw [get?_insert]
        split
        · exact ⟨_, rfl⟩
        · exact ⟨value, h⟩
  exact go entries [] (.inl h)

theorem exists_of_mem_keys {key : String} (h : key ∈ keys entries) :
    ∃ value, get? entries key = some value := by
  induction entries with
  | nil => cases h
  | cons first rest ih =>
    obtain ⟨k, v⟩ := first
    rw [get?_cons]
    by_cases hkey : key = k
    · exact ⟨v, if_pos hkey⟩
    · rw [if_neg hkey]
      exact ih ((List.mem_cons.mp h).resolve_left hkey)

/-! ### The order of names -/

/-- The names ascend, so each of them is there once. -/
def Ascending (entries : Keyed α) : Prop := entries.Pairwise fun a b => a.1 < b.1

theorem Ascending.nodup_keys {entries : Keyed α} (h : Ascending entries) :
    (keys entries).Nodup := by
  refine List.pairwise_map.mpr (h.imp ?_)
  intro a b hlt heq
  rw [heq] at hlt
  exact String.lt_irrefl _ hlt

theorem Ascending.insert {entries : Keyed α} (h : Ascending entries) (key : String) (value : α) :
    Ascending (insert key value entries) := by
  induction entries with
  | nil => exact List.pairwise_singleton _ _
  | cons first rest ih =>
    obtain ⟨k, v⟩ := first
    obtain ⟨hfirst, hrest⟩ := List.pairwise_cons.mp h
    unfold Keyed.insert
    split
    · rename_i hlt
      refine List.pairwise_cons.mpr ⟨?_, h⟩
      intro other hother
      rcases List.mem_cons.mp hother with rfl | hother
      · exact hlt
      · exact String.lt_trans hlt (hfirst other hother)
    · rename_i hnot
      split
      · rename_i hkey
        subst hkey
        exact List.pairwise_cons.mpr ⟨hfirst, hrest⟩
      · rename_i hne
        refine List.pairwise_cons.mpr ⟨?_, ih hrest⟩
        intro other hother
        rcases mem_insert hother with rfl | hother
        · exact Std.lt_of_le_of_ne (String.not_lt.mp hnot) (Ne.symm hne)
        · exact hfirst other hother

theorem ascending_ofList (entries : List (String × α)) : Ascending (ofList entries) := by
  have go (sorted : Keyed α) (h : Ascending sorted) :
      Ascending (entries.foldl (fun sorted entry => insert entry.1 entry.2 sorted) sorted) := by
    induction entries generalizing sorted with
    | nil => exact h
    | cons first rest ih => exact ih _ (h.insert first.1 first.2)
  exact go [] List.Pairwise.nil

/-! ### Distinct names -/

theorem insert_perm {key : String} {value : α} {entries : Keyed α} (h : key ∉ keys entries) :
    (insert key value entries).Perm ((key, value) :: entries) := by
  induction entries with
  | nil => exact List.Perm.refl _
  | cons first rest ih =>
    obtain ⟨k, v⟩ := first
    have hne : key ≠ k := fun heq => h (heq ▸ List.mem_cons_self)
    have hrest : key ∉ keys rest := fun hmem => h (List.mem_cons_of_mem _ hmem)
    rw [insert, if_neg hne]
    split
    · exact List.Perm.refl _
    · exact ((ih hrest).cons (k, v)).trans (List.Perm.swap _ _ _)

/-- Ordering entries of distinct names keeps all of them. -/
theorem ofList_perm (h : (keys entries).Nodup) : (ofList entries).Perm entries := by
  have go (entries sorted : List (String × α)) (h : (keys (entries ++ sorted)).Nodup) :
      (entries.foldl (fun sorted entry => insert entry.1 entry.2 sorted) sorted).Perm
        (entries ++ sorted) := by
    induction entries generalizing sorted with
    | nil => exact List.Perm.refl _
    | cons first rest ih =>
      have hmiddle : (rest ++ first :: sorted).Perm (first :: rest ++ sorted) := List.perm_middle
      have hnodup : (keys (rest ++ first :: sorted)).Nodup :=
        (hmiddle.map Prod.fst).nodup_iff.mpr h
      have hnew : first.1 ∉ keys sorted := by
        rw [keys, List.map_append, List.map_cons] at hnodup
        exact (List.nodup_cons.mp (List.nodup_append.mp hnodup).2.1).1
      have hinsert : (rest ++ insert first.1 first.2 sorted).Perm (rest ++ first :: sorted) :=
        (insert_perm hnew).append_left rest
      have hrest := ih _ ((hinsert.map Prod.fst).nodup_iff.mpr hnodup)
      exact (hrest.trans hinsert).trans hmiddle
  have hperm := go entries [] (by rwa [List.append_nil])
  rwa [List.append_nil] at hperm

end KnowledgeSearch.Keyed
