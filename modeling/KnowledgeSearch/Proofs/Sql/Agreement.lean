/-
  KnowledgeSearch/Proofs/Sql/Agreement.lean
  =========================================
  **The dialects agree about which clauses apply.**

  A dialect without containment operators leaves clauses out while it writes; the catalog
  takes leaves away before anything is written.  Both come to the same statement: what is
  written for a predicate is what is written for the predicate with those leaves taken away
  (`Predicate.combine_keeping`).  The reason is that groups and negations are ignored exactly
  when taking leaves away empties them, and that a group does not see its ignored children
  unless it has no others.

  Where no leaf asks for such an operator, the dialects write one template
  (`Predicate.template`).  A template is a condition in which the expression of a leaf and
  the place of its value are slots that show the number of the leaf; only what stands in a
  slot depends on the dialect.
-/
import KnowledgeSearch.Proofs.Sql.Noninterference

namespace KnowledgeSearch

/-! ### What is left out -/

namespace Outcome

variable {α : Type}

/-- Whether an outcome says anything of a row. -/
def isSaid : Outcome α → Bool
  | .ignored => false
  | _ => true

@[simp] theorem isSaid_eq_false {outcome : Outcome α} :
    outcome.isSaid = false ↔ outcome = .ignored := by
  cases outcome <;> simp [isSaid]

theorem conditions_said (outcomes : List (Outcome α)) :
    (outcomes.filter isSaid).filterMap condition? = outcomes.filterMap condition? := by
  induction outcomes with
  | nil => rfl
  | cons outcome outcomes ih =>
    cases outcome with
    | ignored => exact ih
    | always => exact ih
    | condition inner => exact congrArg (inner :: ·) ih

theorem any_isAlways_said (outcomes : List (Outcome α)) :
    (outcomes.filter isSaid).any isAlways = outcomes.any isAlways := by
  induction outcomes with
  | nil => rfl
  | cons outcome outcomes ih =>
    cases outcome with
    | ignored => exact ih
    | always => rfl
    | condition inner => exact ih

/-- Outcomes without a condition and without one that always holds are all ignored. -/
theorem said_eq_nil {outcomes : List (Outcome α)} (hconditions : outcomes.filterMap condition? = [])
    (halways : outcomes.any isAlways = false) : outcomes.filter isSaid = [] := by
  induction outcomes with
  | nil => rfl
  | cons outcome outcomes ih =>
    cases outcome with
    | ignored => exact ih hconditions halways
    | always => simp [isAlways] at halways
    | condition inner => simp [condition?] at hconditions

/-- A way of putting outcomes together that sees ignored ones only if there are no others. -/
structure SkipsIgnored (group : List (Outcome α) → Outcome α) : Prop where
  empty : group [] ≠ .ignored
  said : ∀ outcomes, outcomes.filter isSaid ≠ [] →
    group (outcomes.filter isSaid) = group outcomes ∧ group outcomes ≠ .ignored
  silent : ∀ outcomes, outcomes ≠ [] → outcomes.filter isSaid = [] → group outcomes = .ignored

/-- What only looks at the conditions and at whether one always holds, and is ignored without
    either, sees no ignored ones. -/
theorem skipsIgnored {group : List (Outcome α) → Outcome α} {empty : Outcome α}
    (combined : Bool → List α → Outcome α)
    (hgroup : ∀ outcomes, group outcomes = if outcomes.isEmpty then empty
      else combined (outcomes.any isAlways) (outcomes.filterMap condition?))
    (hempty : empty ≠ .ignored) (hsilent : combined false [] = .ignored)
    (hsaid : ∀ always conditions, combined always conditions = .ignored →
      conditions = [] ∧ always = false) : SkipsIgnored group where
  empty := by
    rw [hgroup]
    exact hempty
  said outcomes hne := by
    have hall : outcomes ≠ [] := by
      rintro rfl
      exact hne rfl
    rw [hgroup, hgroup, conditions_said, any_isAlways_said, if_neg (by simpa using hne),
      if_neg (by simpa using hall)]
    refine ⟨rfl, fun h => hne ?_⟩
    obtain ⟨hconditions, halways⟩ := hsaid _ _ h
    exact said_eq_nil hconditions halways
  silent outcomes hne hnothing := by
    have hconditions : outcomes.filterMap condition? = [] := by
      rw [← conditions_said, hnothing]
      rfl
    have halways : outcomes.any isAlways = false := by
      rw [← any_isAlways_said, hnothing]
      rfl
    rw [hgroup, if_neg (by simpa using hne), hconditions, halways, hsilent]

variable (c : Connectives α)

/-- A conjunction, by whether one of its outcomes always holds and by the conditions among them. -/
def conjoined (always : Bool) : List α → Outcome α
  | [] => if always then .always else .ignored
  | conditions => .condition (c.all conditions)

def disjoined (always : Bool) (conditions : List α) : Outcome α :=
  if always then .always
  else if conditions.isEmpty then .ignored
  else .condition (c.any conditions)

theorem conjoin_skipsIgnored : SkipsIgnored (conjoin c) := by
  refine skipsIgnored (conjoined c) (fun _ => rfl) (by simp) rfl ?_
  intro always conditions h
  cases conditions with
  | nil => cases always with
    | true => cases h
    | false => exact ⟨rfl, rfl⟩
  | cons first rest => cases h

theorem disjoin_skipsIgnored : SkipsIgnored (disjoin c) := by
  have hgroup (outcomes : List (Outcome α)) : disjoin c outcomes =
      if outcomes.isEmpty then .condition c.never
      else disjoined c (outcomes.any isAlways) (outcomes.filterMap condition?) := by
    unfold disjoin disjoined
    cases outcomes.filterMap condition? <;> rfl
  refine skipsIgnored (disjoined c) hgroup (by simp) rfl ?_
  intro always conditions h
  cases always with
  | true => cases h
  | false => cases conditions with
    | nil => exact ⟨rfl, rfl⟩
    | cons first rest => cases h

end Outcome

namespace Predicate

section Keeping

variable {α : Type} (c : Connectives α) (leafOutcome : Leaf → Outcome α) (keep : Leaf → Bool)

/-- What is left of a predicate comes to what the predicate comes to; if nothing is left, the
    predicate is ignored. -/
structure StandsFor (kept : Option Predicate) (p : Predicate) : Prop where
  left : ∀ q, kept = some q →
    q.combine c leafOutcome = p.combine c leafOutcome ∧ p.combine c leafOutcome ≠ .ignored
  nothing : kept = none → p.combine c leafOutcome = .ignored

variable {c leafOutcome keep}

/-- What is left of some predicates comes to what the predicates say. -/
theorem map_combine_keeping {children : List Predicate}
    (h : ∀ child ∈ children, StandsFor c leafOutcome (child.keeping? keep) child) :
    (children.filterMap (keeping? keep)).map (combine c leafOutcome) =
      (children.map (combine c leafOutcome)).filter Outcome.isSaid := by
  induction children with
  | nil => rfl
  | cons child children ih =>
    have hchild := h child List.mem_cons_self
    have hrest := ih fun p hp => h p (List.mem_cons_of_mem _ hp)
    rcases hkept : keeping? keep child with _ | q
    · simp [hkept, hrest, hchild.nothing hkept, Outcome.isSaid]
    · obtain ⟨hsame, hsaid⟩ := hchild.left q hkept
      have hsaid : (combine c leafOutcome child).isSaid = true := by
        rw [← Bool.not_eq_false]
        exact fun h => hsaid (Outcome.isSaid_eq_false.mp h)
      simp [hkept, hrest, hsame, hsaid]

theorem standsFor_group {make : List Predicate → Predicate}
    {group : List (Outcome α) → Outcome α} (hgroup : Outcome.SkipsIgnored group)
    (hmake : ∀ children,
      (make children).combine c leafOutcome = group (children.map (combine c leafOutcome)))
    {children : List Predicate}
    (h : ∀ child ∈ children, StandsFor c leafOutcome (child.keeping? keep) child) :
    StandsFor c leafOutcome
      ((leftOver? children (children.filterMap (keeping? keep))).map make) (make children) := by
  have hkept := map_combine_keeping h
  by_cases hchildren : children = []
  · subst hchildren
    constructor
    · rintro q hq
      obtain rfl : make [] = q := by simpa [leftOver?] using hq
      refine ⟨rfl, ?_⟩
      rw [hmake]
      exact hgroup.empty
    · intro hnone
      simp [leftOver?] at hnone
  · have hne : children.map (combine c leafOutcome) ≠ [] := by simpa using hchildren
    by_cases hleft : children.filterMap (keeping? keep) = []
    · constructor
      · intro q hq
        rw [hleft, leftOver?_eq_none hchildren] at hq
        cases hq
      · intro _
        rw [hmake]
        apply hgroup.silent _ hne
        rw [← hkept, hleft]
        rfl
    · have hsaid : (children.map (combine c leafOutcome)).filter Outcome.isSaid ≠ [] := by
        rw [← hkept]
        simpa using hleft
      obtain ⟨hsame, hnot⟩ := hgroup.said _ hsaid
      rw [leftOver?_eq_some (.inr hleft)]
      constructor
      · rintro q hq
        obtain rfl : make (children.filterMap (keeping? keep)) = q := by simpa using hq
        rw [hmake, hmake, hkept]
        exact ⟨hsame, hnot⟩
      · intro hnone
        cases hnone

/-- If the leaves that are taken away are those that are ignored, nothing that is written
    changes. -/
theorem combine_keeping (hkeep : ∀ l, keep l = false ↔ leafOutcome l = .ignored) (p : Predicate) :
    StandsFor c leafOutcome (p.keeping? keep) p := by
  induction p with
  | leaf l =>
    rcases hl : keep l
    · constructor
      · intro q hq
        simp [keeping?, hl] at hq
      · intro _
        rw [combine]
        exact (hkeep l).mp hl
    · constructor
      · intro q hq
        obtain rfl : Predicate.leaf l = q := by simpa [keeping?, hl] using hq
        refine ⟨rfl, fun h => ?_⟩
        rw [combine] at h
        rw [(hkeep l).mpr h] at hl
        cases hl
      · intro hnone
        simp [keeping?, hl] at hnone
  | all children ih =>
    rw [keeping?, keepingEach_eq_filterMap]
    exact standsFor_group (Outcome.conjoin_skipsIgnored c)
      (fun ps => by rw [combine, combineEach_eq_map]) ih
  | any children ih =>
    rw [keeping?, keepingEach_eq_filterMap]
    exact standsFor_group (Outcome.disjoin_skipsIgnored c)
      (fun ps => by rw [combine, combineEach_eq_map]) ih
  | not child ih =>
    rw [keeping?]
    constructor
    · intro q hq
      obtain ⟨kept, hkept, rfl⟩ := Option.map_eq_some_iff.mp hq
      obtain ⟨hsame, hsaid⟩ := ih.left kept hkept
      rw [combine, combine, hsame]
      refine ⟨rfl, ?_⟩
      rcases hchild : combine c leafOutcome child with _ | _ | inner
      · exact absurd hchild hsaid
      · simp [Outcome.negate]
      · simp [Outcome.negate]
    · intro hnone
      rw [combine, ih.nothing (Option.map_eq_none_iff.mp hnone)]
      rfl

end Keeping

end Predicate

/-! ### Texts without their cuts -/

namespace Fragment

/-- The characters and the values that a fragment writes, in order.  How its texts are cut
    into pieces does not show. -/
def symbols : Fragment → List (Char ⊕ Parameter)
  | [] => []
  | .text text :: rest => text.toList.map .inl ++ symbols rest
  | .bind value :: rest => .inr value :: symbols rest

def writeSymbols (d : Dialect) : Nat → List (Char ⊕ Parameter) → List Char
  | _, [] => []
  | n, .inl c :: rest => c :: writeSymbols d n rest
  | n, .inr value :: rest => (d.placeholder n value).toList ++ writeSymbols d (n + 1) rest

@[simp] theorem symbols_nil : symbols [] = [] := rfl

@[simp] theorem symbols_text (text : String) (rest : Fragment) :
    symbols (.text text :: rest) = text.toList.map .inl ++ symbols rest := rfl

@[simp] theorem symbols_bind (value : Parameter) (rest : Fragment) :
    symbols (.bind value :: rest) = .inr value :: symbols rest := rfl

@[simp] theorem symbols_append (a b : Fragment) : symbols (a ++ b) = symbols a ++ symbols b := by
  induction a with
  | nil => rfl
  | cons piece a ih => cases piece <;> simp [ih]

theorem writeSymbols_text (d : Dialect) (n : Nat) (text : List Char)
    (rest : List (Char ⊕ Parameter)) :
    writeSymbols d n (text.map .inl ++ rest) = text ++ writeSymbols d n rest := by
  induction text with
  | nil => rfl
  | cons c text ih => exact congrArg (c :: ·) ih

theorem render_eq_writeSymbols (d : Dialect) (n : Nat) (f : Fragment) :
    (f.render d n).toList = writeSymbols d n f.symbols := by
  induction f generalizing n with
  | nil => rfl
  | cons piece f ih =>
    cases piece with
    | text text => rw [render, String.toList_append, symbols_text, writeSymbols_text, ih]
    | bind value => rw [render, String.toList_append, symbols_bind, writeSymbols, ih]

theorem params_eq_symbols (f : Fragment) : f.params = f.symbols.filterMap Sum.getRight? := by
  induction f with
  | nil => rfl
  | cons piece f ih =>
    cases piece with
    | text text => simp [params, ih, List.filterMap_append, List.filterMap_map]
    | bind value => simp [params, ih]

theorem toQuery_congr (d : Dialect) {f g : Fragment} (h : f.symbols = g.symbols) :
    f.toQuery d = g.toQuery d := by
  have hsql : f.render d 1 = g.render d 1 := by
    apply String.toList_injective
    rw [render_eq_writeSymbols, render_eq_writeSymbols, h]
  rw [toQuery, toQuery, hsql, params_eq_symbols, params_eq_symbols, h]

end Fragment

/-! ### Templates -/

/-- What of a leaf stands in a condition. -/
inductive Slot where
  /-- The field as an operand of comparisons. -/
  | operand
  /-- The field read as a number. -/
  | numeric
  /-- The presence of the field's path in its column. -/
  | present
  /-- The placeholder of a value. -/
  | bound (value : Parameter)
  /-- The match of the field with a pattern, without case. -/
  | pattern (value : Parameter)

/-- How a dialect writes what stands in a slot. -/
def Slot.fragment (field : FieldPath) (d : Dialect) : Slot → Fragment
  | .operand => [.text (field.operand d)]
  | .numeric => [.text (d.numeric (field.operand d))]
  | .present => [.text (d.jsonKeyPresent field.column field.path)]
  | .bound value => .bind value
  | .pattern value => d.ilike (field.operand d) (.bind value)

/-- A text that all dialects write alike, or a slot with the number of its leaf. -/
inductive TemplatePart where
  | text (text : String)
  | slot (leaf : Nat) (slot : Slot)

/-- A condition in which the expressions and the placeholders of leaves are slots. -/
abbrev Template := List TemplatePart

namespace Template

variable (leaves : List Leaf) (d : Dialect)

/-- The condition that a template is in a dialect, given the leaves by their numbers. -/
def fill : Template → Fragment
  | [] => []
  | .text text :: rest => .text text :: fill rest
  | .slot n slot :: rest =>
    match leaves[n]? with
    | some l => slot.fragment l.field d ++ fill rest
    | none => fill rest

def parens (inner : Template) : Template := .text "(" :: (inner ++ [.text ")"])

def join (separator : String) : List Template → Template
  | [] => []
  | [single] => single
  | first :: rest => first ++ .text separator :: join separator rest

def never : Template := [.text "1 = 0"]

def trivial : Template := [.text "1 = 1"]

def connectives : Connectives Template where
  never := never
  negate condition := .text "NOT (" :: (condition ++ [.text ")"])
  all conditions := join " AND " (conditions.map parens)
  any conditions := join " OR " (conditions.map parens)

end Template

namespace FieldPath

variable (field : FieldPath) (n : Nat)

def comparisonTemplate (comparison : Comparison) (value : Scalar) : Template :=
  if value.isNull then
    [.slot n .operand, .text (if comparison = .ne then " IS NOT NULL" else " IS NULL")]
  else if comparison = .ilike then [.slot n (.pattern (field.parameter value))]
  else if comparison.isRange && field.isJsonPath && value.isNumeric then
    [.slot n .numeric, .text (" " ++ comparison.sign ++ " "),
      .slot n (.bound (.ofScalar value))]
  else
    [.slot n .operand, .text (" " ++ comparison.sign ++ " "),
      .slot n (.bound (field.parameter value))]

def membershipTemplate (negated : Bool) (values : List Scalar) : Outcome Template :=
  let present := values.filter fun value => !value.isNull
  let listed : Template :=
    .slot n .operand :: .text (if negated then " NOT IN (" else " IN (") ::
      (Template.join ", " (present.map fun value => [.slot n (.bound (field.parameter value))]) ++
        [.text ")"])
  let nullTest : Template :=
    [.slot n .operand, .text (if negated then " IS NOT NULL" else " IS NULL")]
  if values.isEmpty then if negated then .always else .condition Template.never
  else if !values.any Scalar.isNull then .condition listed
  else if present.isEmpty then .condition nullTest
  else
    .condition <| Template.parens <|
      listed ++ .text (if negated then " AND " else " OR ") :: nullTest

def presenceTemplate (expected : Bool) : Template :=
  if field.isJsonPath then
    if expected then [.slot n .present] else [.text "NOT (", .slot n .present, .text ")"]
  else [.slot n .operand, .text (if expected then " IS NOT NULL" else " IS NULL")]

end FieldPath

/-- What the leaf with a number comes to in every dialect; the operators that not every dialect
    has come to nothing. -/
def Leaf.template (n : Nat) (l : Leaf) : Outcome Template :=
  match l.test with
  | .compare comparison value => .condition (l.field.comparisonTemplate n comparison value)
  | .membership negated values => l.field.membershipTemplate n negated values
  | .presence expected => .condition (l.field.presenceTemplate n expected)
  | .contains _ | .containedBy _ | .pathExists _ => .ignored

namespace Predicate

mutual

/-- What a predicate comes to in every dialect, its leaves numbered from left to right. -/
def templateFrom (n : Nat) : Predicate → Outcome Template
  | .leaf l => l.template n
  | .all children => .conjoin Template.connectives (templatesFrom n children)
  | .any children => .disjoin Template.connectives (templatesFrom n children)
  | .not child => .negate Template.connectives (templateFrom n child)

def templatesFrom (n : Nat) : List Predicate → List (Outcome Template)
  | [] => []
  | child :: children =>
    templateFrom n child :: templatesFrom (n + child.leaves.length) children

end

/-- The condition that all dialects write for a predicate, but for what stands in its slots. -/
def template (p : Predicate) : Template :=
  (p.templateFrom 0).condition?.getD Template.trivial

end Predicate

/-! ### Filled templates -/

namespace Template

section Fill

variable {leaves : List Leaf} {d : Dialect}

@[simp] theorem fill_nil : fill leaves d [] = [] := rfl

@[simp] theorem fill_text (text : String) (rest : Template) :
    fill leaves d (.text text :: rest) = .text text :: fill leaves d rest := rfl

theorem fill_slot {n : Nat} {l : Leaf} (h : leaves[n]? = some l) (slot : Slot) (rest : Template) :
    fill leaves d (.slot n slot :: rest) = slot.fragment l.field d ++ fill leaves d rest := by
  rw [fill, h]

@[simp] theorem fill_append (s t : Template) :
    fill leaves d (s ++ t) = fill leaves d s ++ fill leaves d t := by
  induction s with
  | nil => rfl
  | cons part s ih =>
    cases part with
    | text text => simp [ih]
    | slot n slot =>
      rw [List.cons_append, fill, fill, ih]
      split <;> simp

/-- The values that a filled template binds are those in its slots. -/
theorem params_fill (leaves : List Leaf) (d d' : Dialect) (t : Template) :
    (t.fill leaves d).params = (t.fill leaves d').params := by
  have hslot (field : FieldPath) (slot : Slot) :
      (slot.fragment field d).params = (slot.fragment field d').params := by
    cases slot with
    | pattern value => cases d <;> cases d' <;> rfl
    | _ => rfl
  induction t with
  | nil => rfl
  | cons part t ih =>
    cases part with
    | text text => exact ih
    | slot n slot =>
      rw [fill, fill]
      split
      · rw [Fragment.params_append, Fragment.params_append, hslot, ih]
      · exact ih

variable (leaves d) in
/-- A fragment that writes what a filled template writes. -/
def Writes (f : Fragment) (t : Template) : Prop := f.symbols = (t.fill leaves d).symbols

theorem Writes.negate {f : Fragment} {t : Template} (h : Writes leaves d f t) :
    Writes leaves d (Fragment.connectives.negate f) (connectives.negate t) := by
  unfold Writes at *
  simp [Fragment.connectives, connectives, h]

theorem Writes.parens {f : Fragment} {t : Template} (h : Writes leaves d f t) :
    Writes leaves d f.parens t.parens := by
  unfold Writes at *
  simp [Fragment.parens, Template.parens, h]

theorem Writes.join (separator : String) {fs : List Fragment} {ts : List Template}
    (h : List.Forall₂ (Writes leaves d) fs ts) :
    Writes leaves d (Fragment.join separator fs) (Template.join separator ts) := by
  induction h with
  | nil => rfl
  | cons hhead htail ih =>
    unfold Writes at *
    cases htail with
    | nil => exact hhead
    | cons hsecond htail => simp [Fragment.join, Template.join, hhead, ih]

theorem Writes.joinParens (separator : String) {fs : List Fragment} {ts : List Template}
    (h : List.Forall₂ (Writes leaves d) fs ts) :
    Writes leaves d (Fragment.join separator (fs.map Fragment.parens))
      (Template.join separator (ts.map Template.parens)) := by
  apply Writes.join
  rw [List.forall₂_map_left_iff, List.forall₂_map_right_iff]
  exact h.imp fun _ _ => Writes.parens

end Fill

end Template

open Template (Writes)

namespace FieldPath

variable (field : FieldPath) (d : Dialect) {leaves : List Leaf} {n : Nat} {test : Test}

theorem comparison_writes (h : leaves[n]? = some ⟨field, test⟩) (comparison : Comparison)
    (value : Scalar) :
    Writes leaves d (field.comparisonCondition d comparison value)
      (field.comparisonTemplate n comparison value) := by
  unfold Writes comparisonCondition comparisonTemplate
  dsimp only
  split
  · simp [Template.fill_slot h, Slot.fragment]
  · split
    · simp [Template.fill_slot h, Slot.fragment]
    · split <;> simp [Template.fill_slot h, Slot.fragment, Fragment.bind]

theorem values_write (h : leaves[n]? = some ⟨field, test⟩) (values : List Scalar) :
    Writes leaves d
      (Fragment.join ", " (values.map fun value => .bind (field.parameter value)))
      (Template.join ", "
        (values.map fun value => [.slot n (.bound (field.parameter value))])) := by
  apply Writes.join
  induction values with
  | nil => exact .nil
  | cons value values ih =>
    refine .cons ?_ ih
    simp [Writes, Template.fill_slot h, Slot.fragment]

theorem membership_writes (h : leaves[n]? = some ⟨field, test⟩) (negated : Bool)
    (values : List Scalar) :
    (field.membershipOutcome d negated values).Related (Writes leaves d)
      (field.membershipTemplate n negated values) := by
  have hvalues := field.values_write d h (values.filter fun value => !value.isNull)
  unfold membershipOutcome membershipTemplate
  dsimp only
  split
  · split
    · exact .always
    · exact .condition rfl
  · unfold Writes at *
    split
    · refine .condition ?_
      simp [Template.fill_slot h, Slot.fragment, hvalues]
    · split
      · refine .condition ?_
        simp [Template.fill_slot h, Slot.fragment]
      · refine .condition (Writes.parens ?_)
        simp [Writes, Template.fill_slot h, Slot.fragment, hvalues]

theorem presence_writes (h : leaves[n]? = some ⟨field, test⟩) (expected : Bool) :
    Writes leaves d (field.presenceCondition d expected) (field.presenceTemplate n expected) := by
  unfold Writes presenceCondition presenceTemplate
  dsimp only
  split
  · split <;> simp [Template.fill_slot h, Slot.fragment]
  · rename_i hcolumn
    simp [Template.fill_slot h, Slot.fragment, operand, hcolumn]

end FieldPath

/-- Whether every dialect has the operator of a leaf. -/
def Leaf.isCommon (l : Leaf) : Bool := !l.test.operator.isJson

theorem FieldPath.membershipOutcome_ne_ignored (field : FieldPath) (d : Dialect) (negated : Bool)
    (values : List Scalar) : field.membershipOutcome d negated values ≠ .ignored := by
  unfold membershipOutcome
  dsimp only
  split
  · cases negated <;> simp
  · split
    · simp
    · split <;> simp

/-- The leaves that `lite` ignores. -/
theorem Leaf.outcome_lite_ignored (l : Leaf) :
    l.isCommon = false ↔ l.test.outcome l.field .lite = .ignored := by
  obtain ⟨field, test⟩ := l
  unfold Test.outcome isCommon
  cases hjson : test.operator.isJson with
  | true => simp [Dialect.supports, hjson]
  | false =>
    rw [if_neg (by simp [Dialect.supports, hjson])]
    cases test with
    | membership negated values => simp [field.membershipOutcome_ne_ignored]
    | contains value => cases hjson
    | containedBy value => cases hjson
    | pathExists path => cases hjson
    | _ => simp

/-- A leaf is written as its template in a dialect that has its operator, or that lacks it as
    not every dialect has it. -/
theorem Leaf.outcome_writes {d : Dialect} {l : Leaf}
    (hsupports : d.supports l.test.operator = l.isCommon) {leaves : List Leaf} {n : Nat}
    (h : leaves[n]? = some l) :
    (l.test.outcome l.field d).Related (Writes leaves d) (l.template n) := by
  obtain ⟨field, test⟩ := l
  unfold Test.outcome
  rw [hsupports, Leaf.template]
  cases test with
  | compare comparison value =>
    rw [if_neg (by cases comparison <;> simp [isCommon, Test.operator, Comparison.operator,
      Operator.isJson])]
    exact .condition (field.comparison_writes d h comparison value)
  | membership negated values =>
    rw [if_neg (by cases negated <;> simp [isCommon, Test.operator, Operator.isJson])]
    exact field.membership_writes d h negated values
  | presence expected => exact .condition (field.presence_writes d h expected)
  | contains value => exact .ignored
  | containedBy value => exact .ignored
  | pathExists path => exact .ignored

namespace Predicate

theorem outcomes_write {d : Dialect} {ps : List Predicate} (before after : List Leaf)
    (hsupports : ∀ l ∈ leavesEach ps, d.supports l.test.operator = l.isCommon)
    (h : ∀ p ∈ ps, ∀ before after : List Leaf,
      (∀ l ∈ p.leaves, d.supports l.test.operator = l.isCommon) →
      (p.outcome d).Related (Writes (before ++ p.leaves ++ after) d)
        (p.templateFrom before.length)) :
    List.Forall₂ (Outcome.Related (Writes (before ++ leavesEach ps ++ after) d))
      (outcomes d ps) (templatesFrom before.length ps) := by
  induction ps generalizing before with
  | nil => exact .nil
  | cons p ps ih =>
    simp only [leavesEach, List.mem_append] at hsupports
    have hhead := h p List.mem_cons_self before (leavesEach ps ++ after)
      fun l hl => hsupports l (.inl hl)
    -- for what follows, the leaves of `p` stand before
    have htail := ih (before ++ p.leaves) (fun l hl => hsupports l (.inr hl))
      fun q hq => h q (List.mem_cons_of_mem _ hq)
    rw [List.length_append] at htail
    simp only [leavesEach, List.append_assoc] at hhead htail ⊢
    exact .cons hhead htail

theorem outcome_writes {d : Dialect} (p : Predicate) (before after : List Leaf)
    (hsupports : ∀ l ∈ p.leaves, d.supports l.test.operator = l.isCommon) :
    (p.outcome d).Related (Writes (before ++ p.leaves ++ after) d)
      (p.templateFrom before.length) := by
  induction p generalizing before after with
  | leaf l =>
    exact Leaf.outcome_writes (hsupports l (by simp [leaves])) (by simp [leaves])
  | all ps ih =>
    exact Outcome.Related.conjoin rfl (fun _ _ => Writes.joinParens " AND ")
      (outcomes_write before after hsupports ih)
  | any ps ih =>
    exact Outcome.Related.disjoin rfl (fun _ _ => Writes.joinParens " OR ")
      (outcomes_write before after hsupports ih)
  | not p ih =>
    have hchild := ih before after hsupports
    unfold outcome at *
    rw [combine, templateFrom, leaves]
    generalize combine Fragment.connectives _ p = outcome at hchild ⊢
    generalize templateFrom before.length p = outcome' at hchild ⊢
    cases hchild with
    | ignored => exact .ignored
    | always => exact .condition rfl
    | condition h => exact .condition h.negate

/-- A predicate is written as its template. -/
theorem compile_template {d : Dialect} (p : Predicate)
    (hsupports : ∀ l ∈ p.leaves, d.supports l.test.operator = l.isCommon) :
    compile d (some p) = (p.template.fill p.leaves d).toQuery d := by
  have h := p.outcome_writes [] [] hsupports
  rw [List.nil_append, List.append_nil, List.length_nil] at h
  apply Fragment.toQuery_congr
  unfold condition? template
  rw [Option.bind_some]
  generalize p.outcome d = outcome at h ⊢
  generalize p.templateFrom 0 = outcome' at h ⊢
  cases h with
  | ignored => rfl
  | always => rfl
  | condition h => exact h

/-! ### Both dialects -/

/-- The two ways of leaving clauses out agree, and so do the two dialects.

    For every predicate, what `lite` writes is what it writes once the leaves whose operators
    only `postgres` has are taken away, with the groups and negations that this empties.
    Without such leaves both dialects write one template, with the same parameters. -/
theorem compile_agree (p : Predicate) :
    compile .lite none = ⟨"1 = 1", []⟩ ∧
      compile .lite (some p) = compile .lite (p.keeping? Leaf.isCommon) ∧
      ((∀ l ∈ p.leaves, l.isCommon = true) →
        (compile .lite (some p)).params = (compile .postgres (some p)).params ∧
        ∀ d, compile d (some p) = (p.template.fill p.leaves d).toQuery d) := by
  refine ⟨rfl, ?_, ?_⟩
  · have h : StandsFor Fragment.connectives (fun l => l.test.outcome l.field .lite)
        (p.keeping? Leaf.isCommon) p := combine_keeping Leaf.outcome_lite_ignored p
    unfold compile condition? outcome
    rcases hkept : p.keeping? Leaf.isCommon with _ | q
    · rw [Option.bind_some, h.nothing hkept]
      rfl
    · rw [Option.bind_some, Option.bind_some, (h.left q hkept).1]
  · intro hcommon
    have hboth (d : Dialect) : compile d (some p) = (p.template.fill p.leaves d).toQuery d := by
      apply p.compile_template
      intro l hl
      rw [hcommon l hl]
      cases d with
      | lite => exact hcommon l hl
      | postgres => rfl
    refine ⟨?_, hboth⟩
    rw [hboth, hboth]
    exact Template.params_fill _ _ _ _

/-- A level of at least 2 inside a column, or a title that is neither absent nor `x`. -/
def levelOrTitle : Predicate :=
  .any [.leaf ⟨⟨"meta", ["level"], by decide⟩, .compare .gte (.int 2)⟩,
    .not (.leaf ⟨⟨"title", [], by decide⟩, .membership false [.null, .text "x"]⟩)]

theorem compile_agree_levelOrTitle :
    (∀ l ∈ levelOrTitle.leaves, l.isCommon = true) ∧
      (compile .lite (some levelOrTitle)).params = (compile .postgres (some levelOrTitle)).params ∧
      levelOrTitle.template =
        [.text "(", .slot 0 .numeric, .text " >= ", .slot 0 (.bound (.int 2)), .text ")",
          .text " OR ", .text "(", .text "NOT (", .text "(", .slot 1 .operand, .text " IN (",
          .slot 1 (.bound (.text "x")), .text ")", .text " OR ", .slot 1 .operand,
          .text " IS NULL", .text ")", .text ")", .text ")"] := by
  have hcommon : ∀ l ∈ levelOrTitle.leaves, l.isCommon = true := by decide
  exact ⟨hcommon, ((compile_agree levelOrTitle).2.2 hcommon).1, rfl⟩

end Predicate

end KnowledgeSearch
