/-
  KnowledgeSearch/Proofs/Search/Limits.lean
  =========================================
  **What the limits of filter documents come to.**

  Reading limits the nodes of a document, the length of its lists and the size of its texts.
  The outermost object is a node without a question of its own and every question is a node
  (`Json.length_filterQuestions_lt`), so a predicate has fewer leaves than a document can have
  nodes.  A leaf binds no more values than its list is long, or one
  (`Leaf.length_params_le`), and neither a table nor a connective adds any.

  So a filter never binds more values than a statement of PostgreSQL can have
  (`Predicate.limits_of_ofJson`).
-/
import KnowledgeSearch.Proofs.Search.Binding

namespace KnowledgeSearch

open Text (isIdentifier)

/-! ### Questions are nodes -/

namespace Json

theorem length_fieldQuestions (name : String) (raw : Json) :
    (raw.fieldQuestions name).length = Filter.fieldVisits raw := by
  cases raw with
  | object operators =>
    simp only [fieldQuestions, Filter.fieldVisits, List.length_filterMap_eq_countP,
      Option.isSome_map]
  | _ => rfl

theorem length_itemQuestions_le {items : List Json}
    (ih : ∀ item ∈ items, item.filterQuestions.length ≤ Filter.visits item) :
    (itemQuestions items).length ≤ Filter.itemVisits items := by
  induction items with
  | nil => exact Nat.le_refl _
  | cons item items ihItems =>
    rw [itemQuestions, Filter.itemVisits, List.length_append]
    exact Nat.add_le_add (ih item List.mem_cons_self)
      (ihItems fun i hi => ih i (List.mem_cons_of_mem _ hi))

theorem length_memberQuestions_le {members : List (String × Json)}
    (ih : ∀ member ∈ members, member.2.filterQuestions.length ≤ Filter.visits member.2 ∧
      member.2.arrayQuestions.length ≤ Filter.arrayVisits member.2) :
    (memberQuestions members).length ≤ Filter.memberVisits members := by
  induction members with
  | nil => exact Nat.le_refl _
  | cons member rest ihMembers =>
    obtain ⟨key, raw⟩ := member
    obtain ⟨hfilter, hitems⟩ := ih (key, raw) List.mem_cons_self
    rw [memberQuestions, Filter.memberVisits, List.length_append]
    refine Nat.add_le_add ?_ (ihMembers fun m hm => ih m (List.mem_cons_of_mem _ hm))
    unfold questionsOfMember
    split
    · exact hitems
    · split
      · exact hfilter
      · split
        · exact Nat.le_refl _
        · exact Nat.le_of_eq (length_fieldQuestions key raw)

theorem length_filterQuestions_le (document : Json) :
    document.filterQuestions.length ≤ Filter.visits document ∧
      document.arrayQuestions.length ≤ Filter.arrayVisits document := by
  induction document using Json.induct with
  | object members ih =>
    refine ⟨?_, Nat.le_refl _⟩
    rw [filterQuestions, Filter.visits]
    exact Nat.le_add_left_of_le (length_memberQuestions_le ih)
  | array items ih => exact ⟨Nat.le_refl _, length_itemQuestions_le fun item h => (ih item h).1⟩
  | _ => exact ⟨Nat.le_refl _, Nat.le_refl _⟩

/-- An object is a node itself. -/
theorem length_filterQuestions_lt {depth : Nat} {document : Json}
    (h : Filter.WellFormed depth document) :
    document.filterQuestions.length < Filter.visits document := by
  cases h with
  | @object _ members _ _ =>
    rw [filterQuestions, Filter.visits, Nat.add_comm]
    exact Nat.lt_succ_of_le
      (length_memberQuestions_le fun member _ => length_filterQuestions_le member.2)

end Json

/-! ### Leaves within limits -/

def Scalar.WithinLimits : Scalar → Prop
  | .text s => s.utf8ByteSize ≤ Filter.maxStringBytes
  | _ => True

/-- A test whose values the limits of filter documents let through. -/
def Test.WithinLimits : Test → Prop
  | .compare comparison value =>
    value.WithinLimits ∧ (comparison.isRange = true → value.isNull = false) ∧
      (comparison.isPattern = true → ∃ text, value = .text text)
  | .membership _ values =>
    values.length ≤ Filter.maxListItems ∧ ∀ value ∈ values, value.WithinLimits
  | .pathExists path => path.utf8ByteSize ≤ Filter.maxStringBytes
  | _ => True

/-- A leaf about a plain field whose test is within limits. -/
structure Leaf.WithinLimits (l : Leaf) : Prop where
  column : isIdentifier l.field.column = true
  keys : ∀ key ∈ l.field.path, isIdentifier key = true
  test : l.test.WithinLimits

theorem Json.withinLimits_scalar? {raw : Json} {value : Scalar} (h : raw.IsScalar)
    (hvalue : raw.scalar? = some value) : value.WithinLimits := by
  cases raw with
  | string text =>
    cases hvalue
    exact h
  | number n =>
    cases hvalue
    cases n.toInt64? <;> exact True.intro
  | _ => cases hvalue <;> exact True.intro

namespace Test

variable {operand : Json} {test : Test}

theorem withinLimits_comparison {comparison : Comparison} (hscalar : operand.IsScalar)
    (hrange : comparison.isRange = true → operand ≠ .null) (hpattern : comparison.isPattern = false)
    (htest : operand.scalar?.map (.compare comparison) = some test) : test.WithinLimits := by
  obtain ⟨value, hvalue, rfl⟩ := Option.map_eq_some_iff.mp htest
  refine ⟨Json.withinLimits_scalar? hscalar hvalue, fun hr => ?_, by simp [hpattern]⟩
  exact Bool.not_eq_true _ ▸ mt (Filter.isNull_scalar? hvalue).mp (hrange hr)

theorem withinLimits_pattern {comparison : Comparison} (htext : operand.IsShortText)
    (htest : operand.scalar?.map (.compare comparison) = some test) : test.WithinLimits := by
  obtain ⟨value, hvalue, rfl⟩ := Option.map_eq_some_iff.mp htest
  cases operand with
  | string text =>
    cases hvalue
    exact ⟨htext, fun _ => rfl, fun _ => ⟨text, rfl⟩⟩
  | _ => cases htext

theorem withinLimits_membership {negated : Bool} (hlist : operand.IsScalarList)
    (htest : (operand.toList?.bind fun items => (items.mapM Json.scalar?).map
      (.membership negated)) = some test) : test.WithinLimits := by
  cases operand with
  | array items =>
    obtain ⟨values, hvalues, rfl⟩ := Option.map_eq_some_iff.mp htest
    have hall := forall₂_of_mapM_eq_some hvalues
    refine ⟨hall.length_eq ▸ hlist.1, fun value hmem => ?_⟩
    obtain ⟨item, hitem, hvalue⟩ := exists_of_forall₂_of_mem hall hmem
    exact Json.withinLimits_scalar? (hlist.2 item hitem) hvalue
  | _ => cases hlist

end Test

/-- What an operator makes of an operand that it takes is within limits. -/
theorem Operator.withinLimits_test? {operator : Operator} {operand : Json} {test : Test}
    (h : operator.Takes operand) (htest : operator.test? operand = some test) :
    test.WithinLimits := by
  cases operator with
  | eq => exact Test.withinLimits_comparison h (by simp [Comparison.isRange]) rfl htest
  | ne => exact Test.withinLimits_comparison h (by simp [Comparison.isRange]) rfl htest
  | gt => exact Test.withinLimits_comparison h.1 (fun _ => h.2) rfl htest
  | gte => exact Test.withinLimits_comparison h.1 (fun _ => h.2) rfl htest
  | lt => exact Test.withinLimits_comparison h.1 (fun _ => h.2) rfl htest
  | lte => exact Test.withinLimits_comparison h.1 (fun _ => h.2) rfl htest
  | like => exact Test.withinLimits_pattern h htest
  | ilike => exact Test.withinLimits_pattern h htest
  | isIn => exact Test.withinLimits_membership h htest
  | notIn => exact Test.withinLimits_membership h htest
  | isPresent =>
    obtain ⟨expected, -, rfl⟩ := Option.map_eq_some_iff.mp htest
    exact True.intro
  | contains =>
    cases htest
    exact True.intro
  | containedBy =>
    cases htest
    exact True.intro
  | pathExists =>
    cases operand with
    | string text =>
      cases htest
      exact h
    | _ => cases h

theorem Test.WithinLimits.length_values_le {test : Test} (h : test.WithinLimits) :
    test.values.length ≤ Filter.maxListItems := by
  cases test with
  | membership negated values => exact h.1
  | compare comparison value => exact (by decide : 1 ≤ Filter.maxListItems)
  | _ => exact Nat.zero_le _

/-! ### Bound values -/

namespace FieldPath

theorem length_params_comparison_le (field : FieldPath) (d : Dialect) (comparison : Comparison)
    (value : Scalar) : (field.comparisonCondition d comparison value).params.length ≤ 1 := by
  unfold comparisonCondition
  dsimp only
  split
  · simp [Fragment.params]
  · split
    · cases d <;> simp [Dialect.ilike, Fragment.params, Fragment.bind]
    · split <;> simp [Fragment.params]

theorem length_params_membership_le (field : FieldPath) (d : Dialect) (negated : Bool)
    (values : List Scalar) (f : Fragment)
    (h : field.membershipOutcome d negated values = .condition f) :
    f.params.length ≤ values.length := by
  have hparams := field.params_membership d negated values
  rw [h] at hparams
  change f.params = _ at hparams
  rw [hparams, List.length_map]
  exact List.length_filter_le _ _

end FieldPath

/-- A leaf binds no more values than it is compared with, or one. -/
theorem Leaf.length_params_le (d : Dialect) (l : Leaf) :
    (l.params d).length ≤ max 1 l.test.values.length := by
  obtain ⟨field, test⟩ := l
  cases houtcome : test.outcome field d with
  | condition f =>
    have hparams : Leaf.params d ⟨field, test⟩ = f.params := by
      rw [params, houtcome]
      rfl
    rw [hparams]
    unfold Test.outcome at houtcome
    split at houtcome
    · cases houtcome
    · cases test with
      | compare comparison value =>
        cases houtcome
        exact field.length_params_comparison_le d comparison value
      | membership negated values =>
        exact Nat.le_trans (field.length_params_membership_le d negated values f houtcome)
          (Nat.le_max_right _ _)
      | presence expected =>
        cases houtcome
        unfold FieldPath.presenceCondition
        split <;> split <;> simp [Fragment.params]
      | _ =>
        cases houtcome
        exact Nat.le_max_left _ _
  | _ => simp [params, houtcome, Outcome.condition?]

theorem length_flatMap_le {α β : Type} {f : α → List β} {items : List α} {m : Nat}
    (h : ∀ item ∈ items, (f item).length ≤ m) : (items.flatMap f).length ≤ items.length * m := by
  induction items with
  | nil => simp
  | cons item items ih =>
    have hitem := h item List.mem_cons_self
    have hrest := ih fun i hi => h i (List.mem_cons_of_mem _ hi)
    rw [List.flatMap_cons, List.length_append, List.length_cons, Nat.succ_mul]
    omega

namespace Predicate

/-- A condition binds no more values than its leaves have, counted with the longest list. -/
theorem length_params_compile_le {p : Option Predicate} {n m : Nat} (hm : 1 ≤ m)
    (hleaves : (p.toList.flatMap leaves).length ≤ n)
    (hvalues : ∀ l ∈ p.toList.flatMap leaves, l.test.values.length ≤ m) (d : Dialect) :
    (compile d p).params.length ≤ n * m := by
  have hparams : ∀ l ∈ p.toList.flatMap leaves, (l.params d).length ≤ m := fun l hl =>
    Nat.le_trans (l.length_params_le d) (Nat.max_le.mpr ⟨hm, hvalues l hl⟩)
  calc
    (compile d p).params.length ≤ ((p.toList.flatMap leaves).flatMap (Leaf.params d)).length :=
      (params_compile d p).length_le
    _ ≤ (p.toList.flatMap leaves).length * m := length_flatMap_le hparams
    _ ≤ n * m := Nat.mul_le_mul_right m hleaves

/-- What a table lets through has no more leaves, and none with a longer list. -/
theorem restrict?_limits (table : Table) {p : Option Predicate} {n m : Nat}
    (hleaves : (p.toList.flatMap leaves).length ≤ n)
    (hvalues : ∀ l ∈ p.toList.flatMap leaves, l.test.values.length ≤ m) :
    ((p.bind (restrict? table)).toList.flatMap leaves).length ≤ n ∧
      ∀ l ∈ (p.bind (restrict? table)).toList.flatMap leaves, l.test.values.length ≤ m := by
  cases p with
  | none => exact ⟨Nat.zero_le _, fun _ h => nomatch h⟩
  | some p =>
    have hrestricted : Leaves table p (p.restrict? table) := p.restrict?_leaves
    have hkept := hrestricted.kept
    simp only [Option.toList_some, List.flatMap_singleton] at hleaves hvalues
    constructor
    · have hlength := hkept.length_eq
      have hfilter := List.length_filter_le (Leaf.Keepable table ·) p.leaves
      change ((p.restrict? table).toList.flatMap leaves).length ≤ n
      omega
    · intro k hk
      obtain ⟨l, hl, hlk⟩ := exists_of_forall₂_of_mem hkept hk
      obtain ⟨hl, hkeep⟩ := List.mem_filter.mp hl
      obtain ⟨kind, hkind, -⟩ : l.Keepable table := by simpa using hkeep
      rw [← (hlk.coerced kind hkind).length_eq]
      exact hvalues l hl

/-- **Everything that a filter sends is bounded.**  The predicate of an accepted document has
    at most 127 leaves.  Each is about a plain column or a path of plain keys; its list has
    at most 512 values, its texts at most 4096 bytes, ranges are not compared with null and
    patterns are texts, as are all operands that stand for a pattern or a path.  With or
    without the columns that a table lists, no dialect binds more than 65024 values for it,
    fewer than the 65535 that a statement of PostgreSQL can have. -/
theorem limits_of_ofJson {document : Json} {p : Option Predicate} (h : ofJson document = .ok p) :
    (p.toList.flatMap leaves).length ≤ 127 ∧
      (∀ l ∈ p.toList.flatMap leaves, l.WithinLimits) ∧
      (∀ q ∈ document.filterQuestions,
        q.operator = .like ∨ q.operator = .ilike ∨ q.operator = .pathExists →
          ∃ text, q.operand = .string text) ∧
      ∀ d q, (q = p ∨ ∃ table, q = p.bind (restrict? table)) →
        (compile d q).params.length ≤ 127 * 512 ∧ (compile d q).params.length < 65535 := by
  obtain ⟨after, hread⟩ := Filter.readFilter_of_ofJson h
  obtain ⟨hwell, hafter, hroom⟩ :=
    (Filter.counts_readFilter document [] 1 0 (Nat.zero_le _)).1 p after hread
  have htakes := (document.filterQuestions_takes).1 1 hwell
  have hasks := asks_of_ofJson h
  have hleaves : (p.toList.flatMap leaves).length ≤ 127 := by
    have hquestions := Json.length_filterQuestions_lt hwell
    rw [← hasks.length_eq]
    change after ≤ 128 at hroom
    omega
  have hlimits : ∀ l ∈ p.toList.flatMap leaves, l.WithinLimits := by
    intro l hl
    obtain ⟨q, hq, hql⟩ := exists_of_forall₂_of_mem hasks hl
    exact ⟨l.field.plain.1, List.all_eq_true.mp l.field.plain.2,
      Operator.withinLimits_test? (htakes q hq) hql.2⟩
  have hvalues : ∀ l ∈ p.toList.flatMap leaves, l.test.values.length ≤ 512 :=
    fun l hl => (hlimits l hl).test.length_values_le
  refine ⟨hleaves, hlimits, ?_, ?_⟩
  · intro q hq hoperator
    have htext : q.operand.IsShortText := by
      have htake := htakes q hq
      rcases hoperator with hop | hop | hop <;> rw [hop] at htake <;> exact htake
    cases hoperand : q.operand with
    | string text => exact ⟨text, rfl⟩
    | _ =>
      rw [hoperand] at htext
      cases htext
  · intro d q hq
    have hbound : (compile d q).params.length ≤ 127 * 512 := by
      rcases hq with rfl | ⟨table, rfl⟩
      · exact length_params_compile_le (by decide) hleaves hvalues d
      · obtain ⟨hkept, hkeptValues⟩ := restrict?_limits table hleaves hvalues
        exact length_params_compile_le (by decide) hkept hkeptValues d
    exact ⟨hbound, Nat.lt_of_le_of_lt hbound (by decide)⟩

/-- A list with null and a pattern inside a negation. -/
theorem limits_listAndPattern :
    ∃ p, ofJson (.object [("$not", .object [("title", .object [("$like", .string "a%")])]),
        ("level", .array [.ofNat 1, .null])]) = .ok (some p) ∧
      p.leaves.length = 2 ∧ (∀ l ∈ p.leaves, l.WithinLimits) ∧
      ∀ d table, (compile d ((some p).bind (restrict? table))).params.length < 65535 := by
  let read : Predicate :=
    .all [.not (.leaf ⟨⟨"title", [], by decide⟩, .compare .like (.text "a%")⟩),
      .leaf ⟨⟨"level", [], by decide⟩, .membership false [.int 1, .null]⟩]
  have hread : ofJson (.object [("$not", .object [("title", .object [("$like", .string "a%")])]),
      ("level", .array [.ofNat 1, .null])]) = .ok (some read) := rfl
  obtain ⟨-, hlimits, -, hparams⟩ := limits_of_ofJson hread
  refine ⟨read, hread, rfl, fun l hl => hlimits l (by simpa using hl), fun d table => ?_⟩
  exact (hparams d _ (Or.inr ⟨table, rfl⟩)).2

end Predicate

end KnowledgeSearch
