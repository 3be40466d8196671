/-
  KnowledgeSearch/Proofs/Steps.lean
  =================================
  **Steps that succeed, one after another.**

  Checks and readers go through lists and stop at the first element that fails.  If all
  succeed, the results stand in the order of the elements, each related to its own.
-/
import Mathlib.Data.List.Forall2

namespace KnowledgeSearch

/-! ### Lists, element by element -/

/-- What is related to a list, element by element, has all its elements from there. -/
theorem exists_of_forall₂_of_mem {α β : Type} {related : α → β → Prop} {xs : List α} {ys : List β}
    (h : List.Forall₂ related xs ys) {y : β} (hy : y ∈ ys) : ∃ x ∈ xs, related x y := by
  induction h with
  | nil => cases hy
  | @cons x _ xs _ hfirst _ ih =>
    rcases List.mem_cons.mp hy with rfl | hy
    · exact ⟨x, List.mem_cons_self, hfirst⟩
    · obtain ⟨other, hmem, hother⟩ := ih hy
      exact ⟨other, List.mem_cons_of_mem _ hmem, hother⟩

theorem forall_mem_iff {α β : Type} {R : α → β → Prop} {P : α → Prop} {Q : β → Prop}
    {xs : List α} {ys : List β} (h : List.Forall₂ R xs ys) (hpq : ∀ x y, R x y → (P x ↔ Q y)) :
    (∀ x ∈ xs, P x) ↔ ∀ y ∈ ys, Q y := by
  induction h with
  | nil => simp
  | cons hxy _ ih => rw [List.forall_mem_cons, List.forall_mem_cons, hpq _ _ hxy, ih]

theorem forall₂_filterMap {α β : Type} {f : α → Option β} {l : List α}
    (h : ∀ a ∈ l, ∃ b, f a = some b) :
    List.Forall₂ (fun a b => f a = some b) l (l.filterMap f) := by
  induction l with
  | nil => exact .nil
  | cons a l ih =>
    obtain ⟨b, hb⟩ := h a List.mem_cons_self
    rw [List.filterMap_cons_some hb]
    exact .cons hb (ih fun a ha => h a (List.mem_cons_of_mem _ ha))

/-! ### Steps -/

theorem bind_eq_ok {ε α β : Type} {result : Except ε α} {next : α → Except ε β} {b : β}
    (h : result >>= next = .ok b) : ∃ a, result = .ok a ∧ next a = .ok b := by
  cases result with
  | error e => cases h
  | ok a => exact ⟨a, rfl, h⟩

/-- The results of checks that are all passed stand in the order of the checks. -/
theorem forall₂_of_mapM_eq_ok {ε α β : Type} {check : α → Except ε β} {xs : List α} {ys : List β}
    (h : xs.mapM check = .ok ys) : List.Forall₂ (fun x y => check x = .ok y) xs ys := by
  induction xs generalizing ys with
  | nil =>
    cases h
    exact .nil
  | cons x xs ih =>
    rw [List.mapM_cons] at h
    obtain ⟨y, hy, h⟩ := bind_eq_ok h
    obtain ⟨rest, hrest, h⟩ := bind_eq_ok h
    cases h
    exact .cons hy (ih hrest)

theorem exists_mapM_eq_ok {ε α β : Type} {check : α → Except ε β} {xs : List α}
    (h : ∀ x ∈ xs, ∃ y, check x = .ok y) : ∃ ys, xs.mapM check = .ok ys := by
  induction xs with
  | nil => exact ⟨[], rfl⟩
  | cons x xs ih =>
    obtain ⟨y, hy⟩ := h x List.mem_cons_self
    obtain ⟨ys, hys⟩ := ih fun other hmem => h other (List.mem_cons_of_mem _ hmem)
    exact ⟨y :: ys, by rw [List.mapM_cons, hy, hys]; rfl⟩

/-- The values of a list are all found, or one of them is not. -/
theorem mapM_cases {α β : Type} (f : α → Option β) (xs : List α) :
    ((∀ x ∈ xs, (f x).isSome) ∧
      ∃ ys, xs.mapM f = some ys ∧ List.Forall₂ (fun x y => f x = some y) xs ys) ∨
    ((∃ x ∈ xs, f x = none) ∧ xs.mapM f = none) := by
  induction xs with
  | nil => exact Or.inl ⟨by simp, [], rfl, .nil⟩
  | cons x xs ih =>
    cases hx : f x with
    | none => exact Or.inr ⟨⟨x, List.mem_cons_self, hx⟩, by simp [hx]⟩
    | some y =>
      rcases ih with ⟨hfound, ys, hys, hall⟩ | ⟨⟨z, hz, hf⟩, hnone⟩
      · refine Or.inl ⟨?_, y :: ys, by simp [hx, hys], .cons hx hall⟩
        simpa [hx] using hfound
      · exact Or.inr ⟨⟨z, List.mem_cons_of_mem _ hz, hf⟩, by simp [hx, hnone]⟩

theorem forall₂_of_mapM_eq_some {α β : Type} {f : α → Option β} {xs : List α} {ys : List β}
    (h : xs.mapM f = some ys) : List.Forall₂ (fun x y => f x = some y) xs ys := by
  rcases mapM_cases f xs with ⟨-, found, hfound, hall⟩ | ⟨-, hnone⟩
  · rw [hfound, Option.some_inj] at h
    rwa [← h]
  · rw [hnone] at h
    cases h

end KnowledgeSearch
