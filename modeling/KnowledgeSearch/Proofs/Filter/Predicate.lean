/-
  KnowledgeSearch/Proofs/Filter/Predicate.lean
  ============================================
  **Predicates: induction, meaning, leaves.**

  What is said of predicates apart from any statement: a proof by induction with one
  case for each kind of predicate, the three-valued meaning that a predicate has once
  its leaves have one, its leaves in order, and the predicate that is left when some
  leaves are taken away.

  Two conventions about empty groups decide everything else.  A group that is written
  empty is satisfied by no row, whether all or any of its children have to hold.  A
  group that taking leaves away empties is not such a group: it goes away with them.
-/
import KnowledgeSearch.Search.Catalog
import KnowledgeSearch.Sql.Truth

namespace KnowledgeSearch.Predicate

/-! ### Induction -/

/-- A property of all predicates that groups and negations take over from what they
    are made of. -/
@[induction_eliminator]
theorem induct {motive : Predicate → Prop} (leaf : ∀ l, motive (.leaf l))
    (all : ∀ children, (∀ child ∈ children, motive child) → motive (.all children))
    (any : ∀ children, (∀ child ∈ children, motive child) → motive (.any children))
    (not : ∀ child, motive child → motive (.not child)) (p : Predicate) : motive p :=
  @Predicate.rec motive (fun children => ∀ child ∈ children, motive child)
    leaf all any not
    (fun _ h => nomatch h)
    (fun _ _ ihHead ihTail child h => by
      rcases List.mem_cons.mp h with rfl | h
      · exact ihHead
      · exact ihTail child h)
    p

theorem combineEach_eq_map {α : Type} (c : Connectives α) (leafOutcome : Leaf → Outcome α)
    (children : List Predicate) :
    combineEach c leafOutcome children = children.map (combine c leafOutcome) := by
  induction children with
  | nil => rfl
  | cons child children ih => simp [combineEach, ih]

/-! ### Meaning -/

section Meaning

variable (truth : Leaf → Truth)

mutual

/-- The truth of a predicate, given the truth of its leaves. -/
def meaning : Predicate → Truth
  | .leaf l => truth l
  | .all children => if children.isEmpty then .no else .all (meanings children)
  | .any children => .any (meanings children)
  | .not child => (meaning child).negate

def meanings : List Predicate → List Truth
  | [] => []
  | child :: children => meaning child :: meanings children

end

theorem meanings_eq_map (children : List Predicate) :
    meanings truth children = children.map (meaning truth) := by
  induction children with
  | nil => rfl
  | cons child children ih => simp [meanings, ih]

theorem meaning_leaf (l : Leaf) : meaning truth (.leaf l) = truth l := by simp [meaning]

theorem meaning_all {children : List Predicate} (h : children ≠ []) :
    meaning truth (.all children) = .all (children.map (meaning truth)) := by
  simp [meaning, meanings_eq_map, h]

theorem meaning_any (children : List Predicate) :
    meaning truth (.any children) = .any (children.map (meaning truth)) := by
  simp [meaning, meanings_eq_map]

theorem meaning_not (child : Predicate) :
    meaning truth (.not child) = (meaning truth child).negate := by
  simp [meaning]

/-- A group that is written empty is satisfied by no row. -/
theorem meaning_empty : meaning truth (.all []) = .no ∧ meaning truth (.any []) = .no := by
  simp [meaning, meanings, Truth.any]

end Meaning

/-! ### Leaves -/

mutual

/-- The leaves of a predicate, from left to right. -/
def leaves : Predicate → List Leaf
  | .leaf l => [l]
  | .all children => leavesEach children
  | .any children => leavesEach children
  | .not child => leaves child

def leavesEach : List Predicate → List Leaf
  | [] => []
  | child :: children => leaves child ++ leavesEach children

end

theorem leavesEach_eq_flatMap (children : List Predicate) :
    leavesEach children = children.flatMap leaves := by
  induction children with
  | nil => rfl
  | cons child children ih => simp [leavesEach, ih]

/-! ### Taking leaves away -/

section Keeping

variable (keep : Leaf → Bool)

mutual

/-- What is left of a predicate without some of its leaves. -/
def keeping? : Predicate → Option Predicate
  | .leaf l => if keep l then some (.leaf l) else none
  | .all children => (leftOver? children (keepingEach children)).map .all
  | .any children => (leftOver? children (keepingEach children)).map .any
  | .not child => (keeping? child).map .not

/-- What is left of some predicates. -/
def keepingEach : List Predicate → List Predicate
  | [] => []
  | child :: children => (keeping? child).toList ++ keepingEach children

end

theorem keepingEach_eq_filterMap (children : List Predicate) :
    keepingEach keep children = children.filterMap (keeping? keep) := by
  induction children with
  | nil => rfl
  | cons child children ih =>
    cases h : keeping? keep child with
    | none => simp [keepingEach, h, ih]
    | some kept => simp [keepingEach, h, ih]

/-- A group stays if it was written empty, or if one of its children does. -/
theorem leftOver?_eq_some {children kept : List Predicate} (h : children = [] ∨ kept ≠ []) :
    leftOver? children kept = some kept := by
  rcases h with h | h <;> simp [leftOver?, h]

theorem leftOver?_eq_none {children : List Predicate} (h : children ≠ []) :
    leftOver? children [] = none := by
  simp [leftOver?, h]

end Keeping

end KnowledgeSearch.Predicate
