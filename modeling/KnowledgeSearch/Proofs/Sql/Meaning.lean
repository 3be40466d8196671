/-
  KnowledgeSearch/Proofs/Sql/Meaning.lean
  =======================================
  **A written condition means what its predicate means.**

  The text of a condition is read back with the values that its placeholders stand for,
  and has a truth as soon as every comparison in it has one.  That is the truth of the
  predicate without the leaves that the dialect does not have, whatever the comparisons
  come to (`compile_meaning`).

  Writing and reading meet in `Fragment.Writes`: a fragment that writes a condition of
  a known truth.  Leaves write comparisons or a few of them joined, and brackets keep
  what is in them together, so connectives act on the truths as they do on conditions.
  What the writer leaves out (leaves that are ignored, leaves that every row satisfies)
  is accounted for by `Outcome.Says`.
-/
import Mathlib.Data.List.ReduceOption
import KnowledgeSearch.Proofs.Sql.Comparison

namespace KnowledgeSearch

open Fragment (Spelled Completed Separate Compares)

/-! ### Fragments that write conditions -/

/-- The truth of every comparison. -/
abbrev Assignment := List BoundToken → Truth

namespace Fragment

/-- A fragment that writes a condition with a given truth. -/
def Writes (d : Dialect) (fragment : Fragment) (truth : Assignment → Truth) : Prop :=
  ∃ tokens c, Spelled d fragment tokens ∧ Parses tokens c ∧
    ∀ assign, c.truth assign = truth assign

/-- A fragment that writes an operand with a given truth. -/
def WritesOperand (d : Dialect) (fragment : Fragment) (truth : Assignment → Truth) : Prop :=
  ∃ tokens c, Spelled d fragment tokens ∧ Operates tokens c ∧
    ∀ assign, c.truth assign = truth assign

section Writes

variable {d : Dialect} {f g : Fragment} {truth truth' : Assignment → Truth}

theorem WritesOperand.writes (h : WritesOperand d f truth) : Writes d f truth := by
  obtain ⟨tokens, c, hspelled, hoperates, htruth⟩ := h
  exact ⟨tokens, c, hspelled, hoperates.parses, htruth⟩

/-- A comparison has the truth that is assigned to its tokens. -/
theorem Compares.writesOperand (h : Compares d f) :
    WritesOperand d f fun assign => assign (f.tokens d) := by
  obtain ⟨tokens, hspelled, hopens⟩ := h
  refine ⟨tokens, .comparison tokens, hspelled, hopens.operates, ?_⟩
  intro assign
  rw [Condition.truth_comparison hopens, hspelled.tokens_eq]

/-- Brackets make an operand of a condition. -/
theorem Writes.parens (h : Writes d f truth) : WritesOperand d f.parens truth := by
  obtain ⟨tokens, c, hspelled, hparses, htruth⟩ := h
  have hopen : Completed d [.text "("] ([] ++ [.sign '(']) := by
    cases d <;> exact Completed.text rfl rfl
  exact ⟨bracket tokens, c, (hspelled.inBrackets hopen).spelled, hparses.operates, htruth⟩

theorem Writes.negated (h : Writes d f truth) :
    WritesOperand d (.text "NOT (" :: (f ++ [.text ")"])) fun assign => (truth assign).negate := by
  obtain ⟨tokens, c, hspelled, hparses, htruth⟩ := h
  have hopen : Completed d [.text "NOT ("] ([.word ['N', 'O', 'T']] ++ [.sign '(']) := by
    cases d <;> exact Completed.text rfl rfl
  refine ⟨_, .not c, (hspelled.inBrackets hopen).spelled, hparses.negated rfl, ?_⟩
  intro assign
  rw [Condition.truth, htruth]

/-- The condition that no row satisfies is false. -/
theorem Writes.never : Writes d Fragment.never fun _ => .no := by
  have hread : Spelled d Fragment.never [.word ['1'], .sign '=', .word ['0']] := by
    cases d <;> exact Spelled.text rfl ⟨rfl, rfl⟩
  refine ⟨_, .comparison [.word ['1'], .sign '=', .word ['0']], hread, ?_, ?_⟩
  · intro rest
    exact ⟨_, rfl, rfl, rfl⟩
  · intro assign
    rfl

/-- The condition that every row satisfies is true. -/
theorem Writes.trivial : Writes d Fragment.trivial fun _ => .yes := by
  have hread : Spelled d Fragment.trivial [.word ['1'], .sign '=', .word ['1']] := by
    cases d <;> exact Spelled.text rfl ⟨rfl, rfl⟩
  refine ⟨_, .comparison [.word ['1'], .sign '=', .word ['1']], hread, ?_, ?_⟩
  · intro rest
    exact ⟨_, rfl, rfl, rfl⟩
  · intro assign
    rfl

end Writes

end Fragment

/-- The text between joined operands. -/
def Junction.text : Junction → String
  | and => " AND "
  | or => " OR "

/-- The word between joined operands. -/
def Junction.token : Junction → BoundToken
  | and => .word ['A', 'N', 'D']
  | or => .word ['O', 'R']

namespace Fragment

variable {d : Dialect}

/-- **Joined operands write the condition that has their joined truth.** -/
theorem WritesOperand.join (junction : Junction) {parts : List Fragment}
    {truths : List (Assignment → Truth)} (h : List.Forall₂ (WritesOperand d) parts truths)
    (hne : parts ≠ []) : Writes d (Fragment.join junction.text parts) fun assign =>
      junction.truth (truths.map fun truth => truth assign) := by
  have hsep : junction.isWritten junction.token = true := by cases junction <;> rfl
  have hread : Completed d [.text junction.text] [junction.token] := by
    cases junction <;> cases d <;> exact Completed.text rfl rfl
  have hblank : junction.text.toList.head? = some ' ' := by cases junction <;> rfl
  -- the parts are spelled as operands that have the truths
  have hparts : ∃ operands cs, List.Forall₂ Operates operands cs ∧
      Spelled d (Fragment.join junction.text parts) (joined junction.token operands) ∧
      operands.length = parts.length ∧
      ∀ assign, cs.map (Condition.truth assign) = truths.map fun truth => truth assign := by
    clear hne
    induction h with
    | nil =>
      have hempty : Spelled d [] [] := ⟨rfl, fun k => ⟨rfl, rfl⟩⟩
      exact ⟨[], [], .nil, hempty, rfl, fun _ => rfl⟩
    | @cons part truth parts truths hpart hparts ih =>
      obtain ⟨tokens, c, hspelled, hoperates, htruth⟩ := hpart
      obtain ⟨operands, cs, hall, hjoined, hlength, htruths⟩ := ih
      refine ⟨tokens :: operands, c :: cs, .cons hoperates hall, ?_, ?_, ?_⟩
      · cases hall with
        | nil =>
          have hnone : parts = [] := List.length_eq_zero_iff.mp hlength.symm
          subst hnone
          exact hspelled
        | @cons second c' operands cs _ _ =>
          rcases parts with _ | ⟨part', parts⟩
          · cases hlength
          · exact hspelled.append (hread.append_spelled hjoined) (Separate.of_head hblank rfl)
      · rw [List.length_cons, List.length_cons, hlength]
      · intro assign
        rw [List.map_cons, List.map_cons, htruth, htruths]
  obtain ⟨operands, cs, hall, hjoined, hlength, htruths⟩ := hparts
  cases hall with
  | nil => exact absurd (List.length_eq_zero_iff.mp hlength.symm) hne
  | @cons first c operands cs hfirst hrest =>
    obtain ⟨whole, hparses, hchain⟩ := Parses.joined hsep (.cons hfirst hrest)
    refine ⟨_, whole, hjoined, hparses, ?_⟩
    intro assign
    rw [junction.truth_chain assign c whole cs hchain, htruths]

end Fragment

/-! ### Leaves -/

/-- The truth of a leaf, given the truth of comparisons.  Most leaves are one comparison.
    A list is looked up apart from null, and an absent key is the negation of a present
    one. -/
def Leaf.truth (d : Dialect) (assign : Assignment) (l : Leaf) : Truth :=
  let compared : Fragment → Truth := fun fragment => assign (fragment.tokens d)
  match l.test with
  | .compare comparison value => compared (l.field.comparisonCondition d comparison value)
  | .membership negated values =>
    let present := values.filter fun value => !value.isNull
    let listed := if present.isEmpty then [] else [compared (l.field.listed d negated present)]
    let null := if values.any Scalar.isNull then [compared (l.field.nullTest d negated)] else []
    if negated then .all (listed ++ null) else .any (listed ++ null)
  | .presence expected =>
    if l.field.isJsonPath then
      let present := compared [.text (d.jsonKeyPresent l.field.column l.field.path)]
      if expected then present else present.negate
    else compared [.text (l.field.column ++ if expected then " IS NOT NULL" else " IS NULL")]
  | .contains value => compared [.text (l.field.jsonOperand d ++ " @> "), .bind (.json value)]
  | .containedBy value => compared [.text (l.field.jsonOperand d ++ " <@ "), .bind (.json value)]
  | .pathExists path =>
    compared [.text ("jsonb_path_exists(" ++ l.field.jsonOperand d ++ ", "), .bind (.text path),
      .text "::jsonpath)"]

/-- What an outcome says of the truth of what is left: it is always true, or written. -/
def Outcome.Says (d : Dialect) : Outcome Fragment → Option (Assignment → Truth) → Prop
  | .ignored, none => True
  | .always, some truth => ∀ assign, truth assign = .yes
  | .condition fragment, some truth => fragment.Writes d truth
  | _, _ => False

section Leaves

variable (d : Dialect) (field : FieldPath)

theorem Fragment.Writes.congr {fragment : Fragment} {truth truth' : Assignment → Truth}
    (h : fragment.Writes d truth) (heq : ∀ assign, truth assign = truth' assign) :
    fragment.Writes d truth' := by
  obtain ⟨tokens, c, hspelled, hparses, htruth⟩ := h
  exact ⟨tokens, c, hspelled, hparses, fun assign => (htruth assign).trans (heq assign)⟩

/-- A list is written as one comparison or two, and an empty one as what it decides. -/
theorem Outcome.says_membership (negated : Bool) (values : List Scalar) :
    Outcome.Says d (field.membershipOutcome d negated values)
      (some fun assign => Leaf.truth d assign ⟨field, .membership negated values⟩) := by
  have hnull : Fragment.WritesOperand d (field.nullTest d negated)
      fun assign => assign ((field.nullTest d negated).tokens d) :=
    (FieldPath.compares_null d (Compares.operand d field) negated).writesOperand
  have hlisted (present : List Scalar) :
      Fragment.WritesOperand d (field.listed d negated present) _ :=
    (field.compares_listed d negated present).writesOperand
  unfold FieldPath.membershipOutcome
  dsimp only
  by_cases hempty : values.isEmpty = true
  · have hvalues : values = [] := List.isEmpty_iff.mp hempty
    subst hvalues
    cases negated with
    | false => exact Fragment.Writes.never
    | true =>
      intro assign
      rfl
  · rw [if_neg hempty]
    by_cases hany : values.any Scalar.isNull = true
    · rw [if_neg (by simp [hany])]
      by_cases hpresent : (values.filter fun value => !value.isNull).isEmpty = true
      · rw [if_pos hpresent]
        refine hnull.writes.congr d ?_
        intro assign
        simp only [Leaf.truth, hpresent, hany, if_true, List.nil_append]
        cases negated <;> simp [Truth.all, Truth.any]
      · rw [if_neg hpresent]
        have hboth := Fragment.WritesOperand.join (if negated then Junction.and else .or)
          (.cons (hlisted (values.filter fun value => !value.isNull)) (.cons hnull .nil))
          (List.cons_ne_nil _ _)
        have htext : (if negated then Junction.and else .or).text =
            if negated then " AND " else " OR " := by cases negated <;> rfl
        rw [htext] at hboth
        refine hboth.parens.writes.congr d ?_
        intro assign
        simp only [Leaf.truth, hpresent, hany, if_true, if_false, Bool.false_eq_true]
        cases negated <;> rfl
    · have hpresent : (values.filter fun value => !value.isNull) = values := by
        rw [List.filter_eq_self]
        intro value hvalue
        have hall := hany
        simp only [List.any_eq_true, not_exists, not_and] at hall
        simpa using hall value hvalue
      rw [if_pos (by simp [hany]), hpresent]
      refine (hlisted values).writes.congr d ?_
      intro assign
      simp only [Leaf.truth, hpresent, hempty, hany, if_false, Bool.false_eq_true, List.append_nil]
      cases negated <;> simp [Truth.all, Truth.any]

/-- Presence is written as one comparison or its negation. -/
theorem Fragment.Writes.presence (expected : Bool) :
    (field.presenceCondition d expected).Writes d
      fun assign => Leaf.truth d assign ⟨field, .presence expected⟩ := by
  have hkey : Fragment.WritesOperand d [.text (d.jsonKeyPresent field.column field.path)] _ :=
    (Compares.jsonKeyPresent d field).writesOperand
  unfold FieldPath.presenceCondition Leaf.truth
  by_cases hpath : field.isJsonPath = true
  · simp only [hpath, if_true]
    cases expected with
    | true => exact hkey.writes
    | false =>
      obtain ⟨tokens, c, hspelled, hoperates, htruth⟩ := hkey.writes.negated.writes
      exact ⟨tokens, c, hspelled.merge.merge, hoperates, htruth⟩
  · have hname := Compares.name d field.isIdentifier_column
    simp only [hpath, if_false, Bool.false_eq_true]
    have hnull := FieldPath.compares_null d hname expected
    exact hnull.writesOperand.writes

/-- What a leaf comes to says its truth, if the dialect has its operator. -/
theorem Test.says_outcome (test : Test) :
    Outcome.Says d (test.outcome field d)
      (if d.supports test.operator then some fun assign => Leaf.truth d assign ⟨field, test⟩
        else none) := by
  have hoperand := Compares.jsonOperand d field
  unfold Test.outcome
  cases hsupported : d.supports test.operator with
  | false => exact True.intro
  | true =>
    simp only [Bool.not_true, Bool.false_eq_true, if_false, if_true]
    cases test with
    | compare comparison value =>
      exact (field.compares_comparison d comparison value).writesOperand.writes
    | membership negated values => exact Outcome.says_membership d field negated values
    | presence expected => exact Fragment.Writes.presence d field expected
    | contains value =>
      have hsign : Completed d [.text " @> "] [.sign '@', .sign '>'] := by
        cases d <;> exact Completed.text rfl rfl
      exact (hoperand.value hsign (List.all_eq_true.mp rfl)
        (Separate.of_head (c := ' ') rfl rfl) _).writesOperand.writes
    | containedBy value =>
      have hsign : Completed d [.text " <@ "] [.sign '<', .sign '@'] := by
        cases d <;> exact Completed.text rfl rfl
      exact (hoperand.value hsign (List.all_eq_true.mp rfl)
        (Separate.of_head (c := ' ') rfl rfl) _).writesOperand.writes
    | pathExists path =>
      exact (FieldPath.compares_pathExists d hoperand (.text path)).writesOperand.writes

end Leaves

/-! ### Groups -/

namespace Truth

theorem all_cons (truth : Truth) (truths : List Truth) :
    all (truth :: truths) = truth.and (all truths) := rfl

theorem any_of_yes {truths : List Truth} (h : .yes ∈ truths) : any truths = .yes := by
  induction truths with
  | nil => cases h
  | cons first truths ih =>
    show first.or (any truths) = .yes
    rcases List.mem_cons.mp h with rfl | h
    · rfl
    · rw [ih h]
      cases first <;> rfl

end Truth

namespace Outcome

variable {d : Dialect} {outcomes : List (Outcome Fragment)}
  {truths : List (Option (Assignment → Truth))}

theorem Says.negate {outcome : Outcome Fragment} {truth : Option (Assignment → Truth)}
    (h : outcome.Says d truth) :
    (outcome.negate Fragment.connectives).Says d
      (truth.map fun truth assign => (truth assign).negate) := by
  cases outcome with
  | ignored =>
    cases truth with
    | none => exact True.intro
    | some truth => exact h.elim
  | always =>
    cases truth with
    | none => exact h.elim
    | some truth =>
      have hyes : ∀ assign, truth assign = .yes := h
      refine Fragment.Writes.never.congr d ?_
      intro assign
      show Truth.no = (truth assign).negate
      rw [hyes]
      rfl
  | condition fragment =>
    cases truth with
    | none => exact h.elim
    | some truth =>
      have hwrites : fragment.Writes d truth := h
      exact hwrites.negated.writes

/-- What is written of the children of a group that are left: all but some that are always
    true. -/
structure WritesChildren (d : Dialect) (outcomes : List (Outcome Fragment))
    (left written : List (Assignment → Truth)) : Prop where
  writes : List.Forall₂ (Fragment.Writes d) (outcomes.filterMap condition?) written
  sublist : written.Sublist left
  all : ∀ assign, Truth.all (left.map fun truth => truth assign) =
    Truth.all (written.map fun truth => truth assign)
  eq : outcomes.any isAlways = false → left = written
  yes : outcomes.any isAlways = true → ∃ truth ∈ left, ∀ assign, truth assign = .yes

theorem writesChildren (h : List.Forall₂ (Says d) outcomes truths) :
    ∃ written, WritesChildren d outcomes truths.reduceOption written := by
  induction h with
  | nil => exact ⟨[], .nil, .slnil, fun _ => rfl, fun _ => rfl, fun h => nomatch h⟩
  | @cons outcome truth outcomes truths hsays _ ih =>
    obtain ⟨written, ih⟩ := ih
    cases outcome with
    | ignored =>
      cases truth with
      | some truth => exact hsays.elim
      | none => exact ⟨written, ih.writes, ih.sublist, ih.all, ih.eq, ih.yes⟩
    | always =>
      cases truth with
      | none => exact hsays.elim
      | some truth =>
        have hyes : ∀ assign, truth assign = .yes := hsays
        rw [List.reduceOption_cons_of_some]
        refine ⟨written, ih.writes, ih.sublist.cons _, ?_, ?_, ?_⟩
        · intro assign
          rw [List.map_cons, Truth.all_cons, hyes, ih.all]
          rfl
        · intro h
          cases h
        · intro _
          exact ⟨truth, List.mem_cons_self, hyes⟩
    | condition fragment =>
      cases truth with
      | none => exact hsays.elim
      | some truth =>
        rw [List.reduceOption_cons_of_some]
        refine ⟨truth :: written, .cons hsays ih.writes, ih.sublist.cons_cons _, ?_, ?_, ?_⟩
        · intro assign
          rw [List.map_cons, List.map_cons, Truth.all_cons, Truth.all_cons, ih.all]
        · intro h
          rw [ih.eq h]
        · intro h
          obtain ⟨yes, hmem, hyes⟩ := ih.yes h
          exact ⟨yes, List.mem_cons_of_mem _ hmem, hyes⟩

theorem writes_joined (junction : Junction) {conditions : List Fragment}
    {written : List (Assignment → Truth)} (hne : conditions ≠ [])
    (h : List.Forall₂ (Fragment.Writes d) conditions written) :
    Fragment.Writes d (Fragment.join junction.text (conditions.map Fragment.parens))
      fun assign => junction.truth (written.map fun truth => truth assign) := by
  have hoperands : List.Forall₂ (Fragment.WritesOperand d) (conditions.map Fragment.parens)
      written := by
    rw [List.forall₂_map_left_iff]
    exact h.imp fun _ _ hwrites => hwrites.parens
  exact Fragment.WritesOperand.join junction hoperands (by simpa using hne)

/-- All of some outcomes say that all of what is left is true. -/
theorem says_conjoin (h : List.Forall₂ (Says d) outcomes truths) (hne : outcomes ≠ []) :
    (conjoin Fragment.connectives outcomes).Says d
      (if truths.reduceOption = [] then none
        else some fun assign => .all (truths.reduceOption.map fun truth => truth assign)) := by
  obtain ⟨written, hwritten⟩ := writesChildren h
  have hwrites := hwritten.writes
  unfold conjoin
  rw [if_neg (by simpa using hne)]
  rcases hconditions : outcomes.filterMap condition? with _ | ⟨first, rest⟩
  · rw [hconditions] at hwrites
    cases hwrites
    cases halways : outcomes.any isAlways with
    | true =>
      obtain ⟨truth, hmem, -⟩ := hwritten.yes halways
      rw [if_neg (List.ne_nil_of_mem hmem)]
      exact hwritten.all
    | false =>
      rw [if_pos (hwritten.eq halways)]
      exact True.intro
  · rw [hconditions] at hwrites
    have hleft : truths.reduceOption ≠ [] := by
      intro hempty
      have hsublist := hwritten.sublist
      rw [hempty] at hsublist
      cases List.sublist_nil.mp hsublist
      cases hwrites
    rw [if_neg hleft]
    have hjoined := writes_joined .and (List.cons_ne_nil _ _) hwrites
    exact hjoined.congr d fun assign => (hwritten.all assign).symm

/-- Any of some outcomes say that any of what is left is true. -/
theorem says_disjoin (h : List.Forall₂ (Says d) outcomes truths) (hne : outcomes ≠ []) :
    (disjoin Fragment.connectives outcomes).Says d
      (if truths.reduceOption = [] then none
        else some fun assign => .any (truths.reduceOption.map fun truth => truth assign)) := by
  obtain ⟨written, hwritten⟩ := writesChildren h
  have hwrites := hwritten.writes
  unfold disjoin
  rw [if_neg (by simpa using hne)]
  cases halways : outcomes.any isAlways with
  | true =>
    obtain ⟨truth, hmem, hyes⟩ := hwritten.yes halways
    rw [if_neg (List.ne_nil_of_mem hmem)]
    intro assign
    exact Truth.any_of_yes (List.mem_map.mpr ⟨truth, hmem, hyes assign⟩)
  | false =>
    rw [hwritten.eq halways]
    rcases hconditions : outcomes.filterMap condition? with _ | ⟨first, rest⟩
    · rw [hconditions] at hwrites
      cases hwrites
      exact True.intro
    · rw [hconditions] at hwrites
      have hleft : written ≠ [] := by
        rintro rfl
        cases hwrites
      rw [if_neg hleft]
      exact writes_joined .or (List.cons_ne_nil _ _) hwrites

end Outcome

/-! ### Predicates -/

namespace Predicate

variable (d : Dialect)

def expresses (l : Leaf) : Bool := d.supports l.test.operator

/-- The truth of what is left of a predicate, given the truth of comparisons. -/
def leftTruth? (p : Predicate) : Option (Assignment → Truth) :=
  (p.keeping? (expresses d)).map fun left assign => left.meaning (Leaf.truth d assign)

theorem reduceOption_leftTruth? (children : List Predicate) :
    (children.map (leftTruth? d)).reduceOption =
      (children.filterMap (keeping? (expresses d))).map fun left assign =>
        left.meaning (Leaf.truth d assign) := by
  simp [List.reduceOption, List.filterMap_map, List.map_filterMap, leftTruth?, Function.comp_def]

/-- What is left of a group that is not written empty. -/
theorem leftTruth?_group {group : List Predicate → Predicate} {join : List Truth → Truth}
    {children : List Predicate} (h : children ≠ [])
    (hkeeping : keeping? (expresses d) (group children) =
      (leftOver? children (keepingEach (expresses d) children)).map group)
    (hmeaning : ∀ truth left, left ≠ [] →
      meaning truth (group left) = join (left.map (meaning truth))) :
    leftTruth? d (group children) =
      if (children.map (leftTruth? d)).reduceOption = [] then none
      else some fun assign =>
        join ((children.map (leftTruth? d)).reduceOption.map fun truth => truth assign) := by
  rw [reduceOption_leftTruth?]
  simp only [leftTruth?, hkeeping, keepingEach_eq_filterMap, List.map_eq_nil_iff]
  split
  · rename_i hleft
    rw [hleft, leftOver?_eq_none h]
    rfl
  · rename_i hleft
    rw [leftOver?_eq_some (.inr hleft)]
    simp only [Option.map_some, hmeaning _ _ hleft, List.map_map, Function.comp_def]

/-- **What a predicate comes to says the truth of what is left of it.** -/
theorem says_outcome (p : Predicate) : (p.outcome d).Says d (p.leftTruth? d) := by
  -- the outcomes of a group's children say what is left of them
  have children {ps : List Predicate} (ih : ∀ p ∈ ps, (p.outcome d).Says d (p.leftTruth? d)) :
      List.Forall₂ (Outcome.Says d)
        (combineEach Fragment.connectives (fun l => l.test.outcome l.field d) ps)
        (ps.map (leftTruth? d)) := by
    rw [combineEach_eq_map, List.forall₂_map_left_iff, List.forall₂_map_right_iff,
      List.forall₂_same]
    exact ih
  have nonempty {ps : List Predicate} (h : ps ≠ []) :
      combineEach Fragment.connectives (fun l => l.test.outcome l.field d) ps ≠ [] := by
    rw [combineEach_eq_map]
    simpa using h
  induction p with
  | leaf l =>
    have hleaf := Test.says_outcome d l.field l.test
    cases hsupported : d.supports l.test.operator with
    | true =>
      simpa [outcome, combine, leftTruth?, keeping?, expresses, hsupported, meaning] using hleaf
    | false => simpa [outcome, combine, leftTruth?, keeping?, expresses, hsupported] using hleaf
  | all ps ih =>
    by_cases hempty : ps = []
    · subst hempty
      exact Fragment.Writes.never
    · rw [leftTruth?_group d hempty (by simp [keeping?]) fun truth left => meaning_all truth]
      exact Outcome.says_conjoin (children ih) (nonempty hempty)
  | any ps ih =>
    by_cases hempty : ps = []
    · subst hempty
      exact Fragment.Writes.never
    · rw [leftTruth?_group d hempty (by simp [keeping?]) fun truth left _ =>
        meaning_any truth left]
      exact Outcome.says_disjoin (children ih) (nonempty hempty)
  | not p ih =>
    have hnegated := Outcome.Says.negate ih
    have hleft : leftTruth? d (.not p) =
        (leftTruth? d p).map fun truth assign => (truth assign).negate := by
      simp only [leftTruth?, keeping?, Option.map_map, Function.comp_def, meaning_not]
    rw [hleft]
    exact hnegated

end Predicate

/-- A fragment that writes a condition is read back as one with that truth. -/
theorem Fragment.Writes.condition? {d : Dialect} {fragment : Fragment}
    {truth : Assignment → Truth} (h : fragment.Writes d truth) :
    ∃ c, (fragment.toQuery d).condition? d = some c ∧
      ∀ assign, c.truth assign = truth assign := by
  obtain ⟨tokens, c, hspelled, hparses, htruth⟩ := h
  refine ⟨c, ?_, htruth⟩
  have htokens : (fragment.toQuery d).tokens d = tokens := hspelled.tokens_eq
  rw [Query.condition?, htokens]
  exact hparses.ofTokens?

/-- **Compilation preserves meaning.**  Take away the leaves of a predicate that the
    dialect does not have, and negations and groups that this leaves with nothing.  If
    nothing is left, the statement's condition is the one that every row satisfies.
    Otherwise its text is a condition that has, whatever its comparisons come to, the
    three-valued truth of what is left. -/
theorem Predicate.compile_meaning (d : Dialect) (p : Predicate) :
    match p.keeping? fun l => d.supports l.test.operator with
    | none => compile d (some p) = ⟨"1 = 1", []⟩
    | some left =>
      ∃ c, (compile d (some p)).condition? d = some c ∧
        ∀ assign, c.truth assign = left.meaning (Leaf.truth d assign) := by
  have hsays := says_outcome d p
  have hcompile : compile d (some p) =
      (((p.outcome d).condition?).getD Fragment.trivial).toQuery d := rfl
  have htrivial : Fragment.trivial.toQuery d = ⟨"1 = 1", []⟩ := by
    simp [Fragment.toQuery, Fragment.trivial, Fragment.render, Fragment.params]
  unfold leftTruth? at hsays
  show match p.keeping? (expresses d) with
    | none => _
    | some left => _
  rw [hcompile]
  cases hleft : p.keeping? (expresses d) with
  | none =>
    rw [hleft] at hsays
    cases houtcome : p.outcome d with
    | ignored => exact htrivial
    | always =>
      rw [houtcome] at hsays
      exact hsays.elim
    | condition fragment =>
      rw [houtcome] at hsays
      exact hsays.elim
  | some left =>
    rw [hleft] at hsays
    cases houtcome : p.outcome d with
    | ignored =>
      rw [houtcome] at hsays
      exact hsays.elim
    | always =>
      rw [houtcome] at hsays
      have hyes : ∀ assign, left.meaning (Leaf.truth d assign) = .yes := hsays
      exact (Fragment.Writes.trivial.congr d fun assign => (hyes assign).symm).condition?
    | condition fragment =>
      rw [houtcome] at hsays
      exact Fragment.Writes.condition? hsays

end KnowledgeSearch
