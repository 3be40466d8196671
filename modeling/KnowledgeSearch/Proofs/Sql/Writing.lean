/-
  KnowledgeSearch/Proofs/Sql/Writing.lean
  =======================================
  **Writing in place leaves nothing behind.**

  The writer of `Sql/Writing.lean` appends before it knows what a node comes to, and
  cuts the statement back where it comes to nothing.  Every writer is held against the
  outcome of what it writes (`Statement.after`): it reports that outcome, and what is
  left is the statement with the outcome's condition appended, or the statement itself.

  For a group this is an invariant of its loop (`writeGroup_after`).  Between two
  children the statement is the one in which the group began with the conditions so
  far appended; a child that comes to nothing is cut off with its separator and its
  bracket, and a child that decides the group is cut off with everything before it.
-/
import KnowledgeSearch.Proofs.Sql.Condition
import KnowledgeSearch.Sql.Writing

namespace KnowledgeSearch

namespace Statement

variable (s : Statement)

/-! ### Appending and cutting back -/

@[simp] theorem append_dialect (f : Fragment) : (s.append f).dialect = s.dialect := rfl

theorem append_nil : s.append [] = s := by
  simp [append, Fragment.render, Fragment.params]

theorem append_append (f g : Fragment) : (s.append f).append g = s.append (f ++ g) := by
  simp [append, Fragment.render_append, Fragment.params_append, String.append_assoc,
    Nat.add_right_comm]

theorem push_eq_append (text : String) : s.push text = s.append [.text text] := by
  simp [push, append, Fragment.render, Fragment.params]

/-- Cut back to a mark, a statement is what it was when the mark was set. -/
theorem reset_append (f : Fragment) : (s.append f).reset s.mark = s := by
  simp [append, reset, mark]

/-! ### Leaves -/

theorem writeListed_eq (field : FieldPath) (values : List Scalar) :
    writeListed field values s =
      s.append (Fragment.join ", " (values.map fun value => .bind (field.parameter value))) := by
  induction values generalizing s with
  | nil => exact s.append_nil.symm
  | cons value rest ih =>
    cases rest with
    | nil => rfl
    | cons second rest =>
      rw [writeListed, ih, push_eq_append, pushParam, append_append, append_append]
      · simp [Fragment.join]
      · exact List.cons_ne_nil _ _

theorem writeMembership_after (field : FieldPath) (negated : Bool) (values : List Scalar) :
    s.writeMembership field negated values =
      s.after (field.membershipOutcome s.dialect negated values) := by
  -- what is appended is pushed piece by piece
  have pieces (s : Statement) (text : String) (f : Fragment) :
      s.append (.text text :: f) = (s.push text).append f := by
    rw [push_eq_append, append_append, List.singleton_append]
  have halves (s : Statement) (a b : String) : s.push (a ++ b) = (s.push a).push b := by
    simp [push, String.append_assoc]
  unfold writeMembership FieldPath.membershipOutcome
  cases hvalues : values.isEmpty with
  | true => cases negated <;> simp [after, push_eq_append, Fragment.never]
  | false =>
    cases hnull : values.any Scalar.isNull with
    | false =>
      have hpresent : (values.filter fun value => !value.isNull).isEmpty = false := by
        have hall : (values.filter fun value => !value.isNull) = values :=
          List.filter_eq_self.mpr fun value hvalue => by
            simpa using List.any_eq_false.mp hnull value hvalue
        rw [hall, hvalues]
      simp [after, hpresent, writeListed_eq, pieces, halves, ← append_append, append_nil]
    | true =>
      cases hpresent : (values.filter fun value => !value.isNull).isEmpty <;>
        simp [after, hpresent, writeListed_eq, Fragment.parens, pieces, halves, ← append_append,
          append_nil]

theorem writeLeaf_after (l : Leaf) :
    s.writeLeaf l = s.after (l.test.outcome l.field s.dialect) := by
  obtain ⟨field, test⟩ := l
  cases test with
  | membership negated values =>
    simp only [writeLeaf, Test.outcome, writeMembership_after]
    split <;> rfl
  | _ => rfl

/-! ### Groups -/

/-- The conditions of a group that are written so far. -/
def joined (any : Bool) (written : List Fragment) : Fragment :=
  Fragment.join (separator any) (written.map Fragment.parens)

/-- What a group comes to, of which some conditions are written, a child may have been
    satisfied by every row, and children with the given outcomes are left. -/
def groupOutcome (any : Bool) (written : List Fragment) (always : Bool)
    (outcomes : List (Outcome Fragment)) : Outcome Fragment :=
  if any && outcomes.any Outcome.isAlways then .always
  else
    match written ++ outcomes.filterMap Outcome.condition? with
    | [] => if always || outcomes.any Outcome.isAlways then .always else .ignored
    | conditions => .condition (joined any conditions)

/-- What a group comes to, given what its children come to. -/
def combined (any : Bool) (outcomes : List (Outcome Fragment)) : Outcome Fragment :=
  if any then .disjoin Fragment.connectives outcomes
  else .conjoin Fragment.connectives outcomes

section GroupOutcome

variable (any : Bool) (written : List Fragment) (always : Bool) (outcomes : List (Outcome Fragment))

theorem groupOutcome_condition (f : Fragment) :
    groupOutcome any written always (.condition f :: outcomes) =
      groupOutcome any (written ++ [f]) always outcomes := by
  simp [groupOutcome, Outcome.condition?, Outcome.isAlways]

theorem groupOutcome_ignored :
    groupOutcome any written always (.ignored :: outcomes) =
      groupOutcome any written always outcomes := by
  simp [groupOutcome, List.filterMap_cons, Outcome.condition?, Outcome.isAlways]

theorem groupOutcome_always_all :
    groupOutcome false written always (.always :: outcomes) =
      groupOutcome false written true outcomes := by
  simp [groupOutcome, List.filterMap_cons, Outcome.condition?, Outcome.isAlways]

theorem groupOutcome_always_any :
    groupOutcome true written always (.always :: outcomes) = .always := by
  simp [groupOutcome, Outcome.isAlways]

/-- At its beginning, a group has all that it comes to before it. -/
theorem groupOutcome_start {outcomes : List (Outcome Fragment)} (h : outcomes ≠ []) :
    groupOutcome any [] false outcomes = combined any outcomes := by
  cases any with
  | false =>
    cases hconditions : outcomes.filterMap Outcome.condition? <;>
      simp [groupOutcome, combined, Outcome.conjoin, Fragment.connectives, joined, separator, h,
        hconditions]
  | true =>
    cases halways : outcomes.any Outcome.isAlways <;>
      cases hconditions : outcomes.filterMap Outcome.condition? <;>
        simp [groupOutcome, combined, Outcome.disjoin, Fragment.connectives, joined, separator, h,
          halways, hconditions]

end GroupOutcome

/-- What is written before a child is appended as well, and with a condition behind it
    makes the next condition of the group. -/
theorem exists_opening (any : Bool) (written : List Fragment) :
    ∃ opening : Fragment,
      (if 0 < written.length then (s.append (joined any written)).push (separator any)
        else s.append (joined any written)).push "(" =
          (s.append (joined any written)).append opening ∧
      ∀ f, (((s.append (joined any written)).append opening).append f).push ")" =
        s.append (joined any (written ++ [f])) := by
  cases written with
  | nil =>
    refine ⟨[.text "("], by simp [push_eq_append], fun f => ?_⟩
    simp [push_eq_append, append_append, joined, Fragment.join, Fragment.parens]
  | cons first rest =>
    refine ⟨[.text (separator any), .text "("], by simp [push_eq_append, append_append],
      fun f => ?_⟩
    rw [joined, joined, List.map_append, Fragment.join_append (by simp) (by simp)]
    simp [push_eq_append, append_append, Fragment.join, Fragment.parens]

/-- The loop of a group: it goes on from the conditions written so far, and comes to what
    the group comes to. -/
theorem writeGroup_after (any : Bool) {children : List Predicate}
    (hwrite : ∀ child ∈ children, ∀ t, write child t = t.after (child.outcome t.dialect))
    (written : List Fragment) (always : Bool) :
    writeGroup any s.mark children written.length always (s.append (joined any written)) =
      s.after (groupOutcome any written always (children.map (Predicate.outcome s.dialect))) := by
  induction children generalizing written always with
  | nil =>
    cases written <;> cases always <;>
      simp [writeGroup, groupOutcome, after, append_nil, joined, Fragment.join]
  | cons child children ih =>
    have ih := ih fun c hc => hwrite c (List.mem_cons_of_mem _ hc)
    obtain ⟨opening, hopening, hnext⟩ := s.exists_opening any written
    simp only [writeGroup, hopening, hwrite child List.mem_cons_self, append_dialect,
      List.map_cons]
    cases child.outcome s.dialect with
    | condition f =>
      rw [groupOutcome_condition, ← ih, List.length_append, List.length_singleton, ← hnext f]
      rfl
    | always =>
      cases any with
      | true =>
        rw [groupOutcome_always_any]
        simp [after, append_append, reset_append]
      | false =>
        rw [groupOutcome_always_all, ← ih]
        simp [after, reset_append]
    | ignored =>
      rw [groupOutcome_ignored, ← ih]
      simp [after, reset_append]

theorem writeGroup_combined (any : Bool) {children : List Predicate}
    (hwrite : ∀ child ∈ children, ∀ t, write child t = t.after (child.outcome t.dialect)) :
    (if children.isEmpty then (.condition (), s.push "1 = 0")
      else writeGroup any s.mark children 0 false s) =
        s.after (combined any (children.map (Predicate.outcome s.dialect))) := by
  cases children with
  | nil =>
    cases any <;>
      simp [combined, Outcome.conjoin, Outcome.disjoin, Fragment.connectives, Fragment.never, after,
        push_eq_append]
  | cons child rest =>
    have hgroup := s.writeGroup_after any hwrite [] false
    rw [groupOutcome_start any (by simp)] at hgroup
    simpa [joined, Fragment.join, append_nil] using hgroup

/-! ### Predicates -/

/-- **Writing in place comes to what the predicate comes to.** -/
theorem write_after (p : Predicate) : write p s = s.after (p.outcome s.dialect) := by
  induction p generalizing s with
  | leaf l => exact s.writeLeaf_after l
  | all children ih =>
    rw [write, s.writeGroup_combined false ih, Predicate.outcome, Predicate.combine,
      Predicate.combineEach_eq_map]
    rfl
  | any children ih =>
    rw [write, s.writeGroup_combined true ih, Predicate.outcome, Predicate.combine,
      Predicate.combineEach_eq_map]
    rfl
  | not child ih =>
    have houtcome : child.not.outcome s.dialect =
        (child.outcome s.dialect).negate Fragment.connectives := rfl
    have hchild := ih (s.push "NOT (")
    rw [push_eq_append, append_dialect] at hchild
    rw [write, push_eq_append, hchild, houtcome]
    cases child.outcome s.dialect <;>
      simp [after, Outcome.negate, Fragment.connectives, Fragment.never, reset_append,
        append_append, push_eq_append]

theorem writePredicate_eq (p : Predicate) : s.writePredicate p = s.pushPredicate p := by
  rw [writePredicate, write_after, pushPredicate]
  cases p.outcome s.dialect <;> rfl

theorem writeCondition_eq (before : String) (p : Option Predicate) :
    s.writeCondition before p = s.pushCondition before p := by
  cases p with
  | none => rfl
  | some p =>
    have hwritten := ((s.push before).push "(").write_after p
    rw [push_eq_append, push_eq_append, append_append, append_dialect] at hwritten
    rw [writeCondition, push_eq_append, push_eq_append, append_append, hwritten, pushCondition,
      Predicate.condition?, Option.bind_some]
    cases p.outcome s.dialect <;>
      simp [after, Outcome.condition?, reset_append, push_eq_append, append_append,
        Fragment.parens]

end Statement

/-! ### Conditions are not empty -/

/-- A fragment that begins with a text of its own. -/
def Fragment.Begins : Fragment → Prop
  | .text text :: _ => text ≠ ""
  | _ => False

theorem Fragment.Begins.render_ne_empty {f : Fragment} (h : f.Begins) (d : Dialect) (n : Nat) :
    f.render d n ≠ "" := by
  match f, h with
  | .text text :: rest, h =>
    intro hempty
    exact h (String.append_eq_empty_iff.mp hempty).1

theorem Fragment.begins_never : Fragment.never.Begins := by simp [Begins, never]

theorem Fragment.begins_join_parens (separator : String) {conditions : List Fragment}
    (h : conditions ≠ []) : (join separator (conditions.map parens)).Begins := by
  match conditions with
  | [single] => simp [join, parens, Begins]
  | first :: second :: rest => simp [join, parens, Begins]

theorem FieldPath.begins_comparisonCondition (field : FieldPath) (d : Dialect)
    (comparison : Comparison) (value : Scalar) :
    (field.comparisonCondition d comparison value).Begins := by
  unfold comparisonCondition
  dsimp only
  split
  · simp only [Fragment.Begins]
    split <;> simp
  · split
    · cases d <;> simp [Dialect.ilike, Fragment.Begins]
    · split <;> simp [Fragment.Begins]

theorem FieldPath.begins_membershipOutcome {field : FieldPath} {d : Dialect} {negated : Bool}
    {values : List Scalar} {f : Fragment}
    (h : field.membershipOutcome d negated values = .condition f) : f.Begins := by
  have hlisted (present : List Scalar) : (field.listed d negated present).Begins := by
    cases negated <;> simp [listed, Fragment.Begins]
  have hnull : (field.nullTest d negated).Begins := by
    cases negated <;> simp [nullTest, Fragment.Begins]
  exact field.membershipOutcome_cases d h Fragment.begins_never hlisted hnull fun _ => by
    simp [Fragment.parens, Fragment.Begins]

theorem FieldPath.begins_presenceCondition (field : FieldPath) (d : Dialect) (expected : Bool) :
    (field.presenceCondition d expected).Begins := by
  unfold presenceCondition
  dsimp only
  split
  · cases expected <;> cases d <;> simp [Fragment.Begins, Dialect.jsonKeyPresent]
  · cases expected <;> simp [Fragment.Begins]

theorem Test.begins_outcome {field : FieldPath} {d : Dialect} {test : Test} {f : Fragment}
    (h : test.outcome field d = .condition f) : f.Begins := by
  unfold Test.outcome at h
  split at h
  · cases h
  · cases test with
    | compare comparison value =>
      injection h with h
      exact h ▸ field.begins_comparisonCondition d comparison value
    | membership negated values => exact FieldPath.begins_membershipOutcome h
    | presence expected =>
      injection h with h
      exact h ▸ field.begins_presenceCondition d expected
    | _ =>
      injection h with h
      subst h
      simp [Fragment.Begins]

/-- Conditions of groups begin with a bracket. -/
theorem Predicate.begins_outcome {d : Dialect} {p : Predicate} {f : Fragment}
    (h : p.outcome d = .condition f) : f.Begins := by
  cases p with
  | leaf l => exact Test.begins_outcome h
  | all children =>
    rcases Outcome.conjoin_eq_condition h with rfl | ⟨hsome, rfl⟩
    · exact Fragment.begins_never
    · exact Fragment.begins_join_parens _ hsome
  | any children =>
    rcases Outcome.disjoin_eq_condition h with rfl | ⟨hsome, rfl⟩
    · exact Fragment.begins_never
    · exact Fragment.begins_join_parens _ hsome
  | not child =>
    change (child.outcome d).negate Fragment.connectives = .condition f at h
    cases hchild : child.outcome d with
    | ignored => rw [hchild] at h; cases h
    | always =>
      rw [hchild] at h
      injection h with h
      exact h ▸ Fragment.begins_never
    | condition inner =>
      rw [hchild] at h
      injection h with h
      subst h
      simp [Fragment.connectives, Fragment.Begins]

/-! ### What is pushed -/

namespace Statement

/-- **A predicate is written whole or not at all.**  For every statement under
    construction, every text and every predicate: the writer that works in place does what
    `pushPredicate` and `pushCondition` say.  Either the predicate comes to no condition
    and both report that and leave the statement as it was, or there is a text that is not
    empty and a list of values such that both report a condition, `pushPredicate` has
    appended the text and the values, and `pushCondition` the text in brackets behind the
    given text, and the values.  The same text and values are appended to any statement of
    the dialect with as many values bound. -/
theorem write_whole_or_not (s : Statement) (before : String) (p : Predicate) :
    s.writePredicate p = s.pushPredicate p ∧
      s.writeCondition before (some p) = s.pushCondition before (some p) ∧
      s.writeCondition before none = (false, s) ∧
      (s.writePredicate p = (false, s) ∧ s.writeCondition before (some p) = (false, s) ∨
        ∃ (condition : String) (values : List Parameter), condition ≠ "" ∧
          s.writeCondition before (some p) =
            (true, { s with
              sql := s.sql ++ (before ++ "(" ++ condition ++ ")")
              params := s.params ++ values }) ∧
          ∀ t : Statement, t.dialect = s.dialect → t.params.length = s.params.length →
            t.writePredicate p =
              (true, { t with sql := t.sql ++ condition, params := t.params ++ values })) := by
  refine ⟨s.writePredicate_eq p, s.writeCondition_eq before (some p), rfl, ?_⟩
  simp only [writePredicate_eq, writeCondition_eq]
  cases houtcome : p.outcome s.dialect with
  | condition f =>
    refine Or.inr ⟨f.render s.dialect (s.params.length + 1), f.params,
      (Predicate.begins_outcome houtcome).render_ne_empty _ _, ?_, ?_⟩
    · simp [pushCondition, Predicate.condition?, houtcome, Outcome.condition?, push, append,
        Fragment.parens, Fragment.render, Fragment.params, Fragment.render_append,
        Fragment.params_append, String.append_assoc]
    · intro t hdialect hparams
      rw [pushPredicate, hdialect, houtcome]
      simp [Outcome.condition?, append, hdialect, hparams]
  | _ =>
    exact Or.inl ⟨by simp [pushPredicate, houtcome, Outcome.condition?],
      by simp [pushCondition, Predicate.condition?, houtcome, Outcome.condition?]⟩

end Statement

end KnowledgeSearch
