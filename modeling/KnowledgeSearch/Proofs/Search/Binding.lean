/-
  KnowledgeSearch/Proofs/Search/Binding.lean
  ==========================================
  **What conditions bind.**

  The values that a condition binds are looked at apart from its text: a leaf binds what it
  is compared with (`Leaf.params_of_plain`), the condition of a predicate nothing but what
  its leaves bind, in their order (`Predicate.params_compile`).  Connectives bind nothing of
  their own, and may leave out conditions that no longer matter.
-/
import KnowledgeSearch.Proofs.Filter.Question
import KnowledgeSearch.Proofs.Search.Restriction

namespace KnowledgeSearch

/-! ### Fragments -/

namespace Fragment

theorem params_parens (f : Fragment) : f.parens.params = f.params := by
  simp [parens, params, params_append]

theorem params_join (separator : String) (parts : List Fragment) :
    (join separator parts).params = parts.flatMap params := by
  induction parts with
  | nil => rfl
  | cons first rest ih =>
    cases rest with
    | nil => simp [join]
    | cons second rest => simp [join, params_append, params, ih]

end Fragment

/-! ### Leaves -/

theorem Test.values_comparison {operand : Json} {comparison : Comparison} {test : Test}
    (h : operand.scalar?.map (.compare comparison) = some test) :
    List.Forall₂ (fun raw value => raw.scalar? = some value) [operand] test.values := by
  obtain ⟨value, hvalue, rfl⟩ := Option.map_eq_some_iff.mp h
  exact .cons hvalue .nil

theorem Test.values_membership {operand : Json} {negated : Bool} {test : Test}
    (h : (operand.toList?.bind fun items => (items.mapM Json.scalar?).map
      (.membership negated)) = some test) :
    List.Forall₂ (fun raw value => raw.scalar? = some value) (operand.toList?.getD [])
      test.values := by
  obtain ⟨items, hitems, h⟩ := Option.bind_eq_some_iff.mp h
  obtain ⟨values, hvalues, rfl⟩ := Option.map_eq_some_iff.mp h
  rw [hitems]
  exact forall₂_of_mapM_eq_some hvalues

/-- The values of the test that a question makes are the scalars of its operands. -/
theorem Question.Asks.values {q : Question} {l : Leaf} (h : q.Asks l) :
    List.Forall₂ (fun raw value => raw.scalar? = some value) q.operands l.test.values := by
  obtain ⟨-, htest⟩ := h
  obtain ⟨name, operator, operand⟩ := q
  obtain ⟨field, test⟩ := l
  dsimp only at htest ⊢
  cases operator with
  | eq => exact Test.values_comparison htest
  | ne => exact Test.values_comparison htest
  | gt => exact Test.values_comparison htest
  | gte => exact Test.values_comparison htest
  | lt => exact Test.values_comparison htest
  | lte => exact Test.values_comparison htest
  | like => exact Test.values_comparison htest
  | ilike => exact Test.values_comparison htest
  | isIn => exact Test.values_membership htest
  | notIn => exact Test.values_membership htest
  | isPresent =>
    obtain ⟨expected, -, rfl⟩ := Option.map_eq_some_iff.mp htest
    exact .nil
  | contains =>
    cases htest
    exact .nil
  | containedBy =>
    cases htest
    exact .nil
  | pathExists =>
    obtain ⟨path, -, rfl⟩ := Option.map_eq_some_iff.mp htest
    exact .nil

/-- The values that the condition of a leaf binds, if it comes to one. -/
def Leaf.params (d : Dialect) (l : Leaf) : List Parameter :=
  ((l.test.outcome l.field d).condition?.map Fragment.params).getD []

theorem FieldPath.params_comparison {field : FieldPath} (hpath : field.path = []) (d : Dialect)
    (comparison : Comparison) (value : Scalar) :
    (field.comparisonCondition d comparison value).params =
      ([value].filter fun v => !v.isNull).map Parameter.ofScalar := by
  have hfield : field.isJsonPath = false := by simp [isJsonPath, hpath]
  unfold comparisonCondition
  by_cases hnull : value.isNull = true
  · simp [hnull, Fragment.params]
  · by_cases hilike : comparison = .ilike
    · cases d <;> simp [hnull, hilike, Dialect.ilike, Fragment.params, Fragment.bind, parameter,
        hfield]
    · simp [hnull, hilike, hfield, Fragment.params, parameter]

/-- Membership in a list binds the values of the list, but for null, in their order. -/
theorem FieldPath.params_membership (field : FieldPath) (d : Dialect) (negated : Bool)
    (values : List Scalar) :
    ((field.membershipOutcome d negated values).condition?.map Fragment.params).getD [] =
      (values.filter fun v => !v.isNull).map field.parameter := by
  have hlisted (present : List Scalar) :
      (Fragment.join ", " (present.map fun value => .bind (field.parameter value))).params =
        present.map field.parameter := by
    rw [Fragment.params_join, List.flatMap_map]
    exact List.flatMap_pure_eq_map _ _
  unfold membershipOutcome
  dsimp only
  split
  · rename_i hempty
    rw [List.isEmpty_iff.mp hempty]
    cases negated <;> rfl
  · split
    · simp [Outcome.condition?, Fragment.params, Fragment.params_append, hlisted]
    · split
      · rename_i hpresent
        rw [List.isEmpty_iff.mp hpresent]
        rfl
      · simp [Outcome.condition?, Fragment.params, Fragment.params_append, Fragment.params_parens,
          hlisted]

theorem FieldPath.parameter_of_plain {field : FieldPath} (hpath : field.path = []) :
    field.parameter = Parameter.ofScalar := by
  funext value
  simp [parameter, isJsonPath, hpath]

/-- A plain column binds the values that it is compared with, in their order. -/
theorem Leaf.params_of_plain {l : Leaf} (hpath : l.field.path = [])
    (hjson : l.test.operator.isJson = false) (d : Dialect) :
    l.params d = (l.test.values.filter fun v => !v.isNull).map Parameter.ofScalar := by
  have hsupported : d.supports l.test.operator = true := by
    cases d <;> simp [Dialect.supports, hjson]
  obtain ⟨field, test⟩ := l
  unfold params Test.outcome
  rw [if_neg (by simp [hsupported])]
  cases test with
  | compare comparison value => exact field.params_comparison hpath d comparison value
  | membership negated values =>
    exact (field.params_membership d negated values).trans
      (by rw [FieldPath.parameter_of_plain hpath]; rfl)
  | presence expected =>
    have hplain : field.isJsonPath = false := by simpa [FieldPath.isJsonPath] using hpath
    simp [Outcome.condition?, FieldPath.presenceCondition, hplain, Fragment.params, Test.values]
  | _ => cases hjson

/-! ### Predicates -/

namespace Predicate

variable (d : Dialect)

/-- A condition made of the conditions of some predicates binds what they bind. -/
theorem params_children {children : List Predicate}
    (ih : ∀ child ∈ children, ∀ f, child.outcome d = .condition f →
      f.params.Sublist (child.leaves.flatMap (Leaf.params d))) :
    (((outcomes d children).filterMap Outcome.condition?).flatMap Fragment.params).Sublist
      ((leavesEach children).flatMap (Leaf.params d)) := by
  induction children with
  | nil => exact List.Sublist.refl _
  | cons child children ihChildren =>
    have hrest := ihChildren fun c hc => ih c (List.mem_cons_of_mem _ hc)
    have hchild := ih child List.mem_cons_self
    have hsplit : outcomes d (child :: children) = child.outcome d :: outcomes d children := rfl
    rw [hsplit, leavesEach, List.flatMap_append]
    cases houtcome : child.outcome d with
    | condition f =>
      exact (hchild f houtcome).append hrest
    | _ => exact hrest.trans (List.sublist_append_right _ _)

/-- The condition of a predicate binds nothing but what its leaves bind, in their order. -/
theorem params_outcome (p : Predicate) : ∀ f, p.outcome d = .condition f →
    f.params.Sublist (p.leaves.flatMap (Leaf.params d)) := by
  have hnever {l : List Parameter} : Fragment.never.params.Sublist l := List.nil_sublist l
  have hjoin (separator : String) (parts : List Fragment) :
      (Fragment.join separator (parts.map Fragment.parens)).params =
        parts.flatMap Fragment.params := by
    simp [Fragment.params_join, List.flatMap_map, Fragment.params_parens]
  induction p with
  | leaf l =>
    intro f hf
    have hparams : l.params d = f.params := by
      have hleaf : l.test.outcome l.field d = .condition f := hf
      rw [Leaf.params, hleaf]
      rfl
    simp [leaves, hparams]
  | all children ih =>
    intro f hf
    rw [leaves]
    rcases Outcome.conjoin_eq_condition hf with rfl | ⟨-, rfl⟩
    · exact hnever
    · change (Fragment.join " AND " _).params.Sublist _
      rw [hjoin]
      exact params_children d ih
  | any children ih =>
    intro f hf
    rw [leaves]
    rcases Outcome.disjoin_eq_condition hf with rfl | ⟨-, rfl⟩
    · exact hnever
    · change (Fragment.join " OR " _).params.Sublist _
      rw [hjoin]
      exact params_children d ih
  | not child ih =>
    intro f hf
    rw [leaves]
    have hnegate : (child.outcome d).negate Fragment.connectives = .condition f := hf
    cases houtcome : child.outcome d with
    | ignored =>
      rw [houtcome] at hnegate
      cases hnegate
    | always =>
      rw [houtcome] at hnegate
      cases hnegate
      exact hnever
    | condition inner =>
      rw [houtcome] at hnegate
      cases hnegate
      simpa [Fragment.connectives, Fragment.params, Fragment.params_append] using
        ih inner houtcome

/-- A statement's filter binds nothing but what the leaves of its predicate bind. -/
theorem params_compile (p : Option Predicate) :
    (compile d p).params.Sublist ((p.toList.flatMap leaves).flatMap (Leaf.params d)) := by
  change ((condition? d p).getD Fragment.trivial).params.Sublist _
  cases hcondition : condition? d p with
  | none => exact List.nil_sublist _
  | some f =>
    obtain ⟨p, rfl, hp⟩ := Option.bind_eq_some_iff.mp hcondition
    simpa using p.params_outcome d f (Outcome.condition?_eq_some.mp hp)

end Predicate

end KnowledgeSearch
