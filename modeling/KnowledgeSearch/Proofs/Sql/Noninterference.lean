/-
  KnowledgeSearch/Proofs/Sql/Noninterference.lean
  ===============================================
  **Values leave no trace in a statement's text.**

  Two fragments are alike if they differ in the values that they bind and in nothing
  else, where a value may only be exchanged for one that needs the same cast.  Alike
  fragments are written as the same text (`Fragment.Alike.render_eq`), so all that is to
  be seen is that alike predicates come to alike conditions, and alike searches to alike
  statements.

  What a predicate comes to is put together in the same way whatever its conditions are,
  so relatedness of two predicates passes through `Predicate.combine` once and for all
  relations that connectives keep (`Predicate.combine_related`).
-/
import KnowledgeSearch.Proofs.Filter.Predicate
import KnowledgeSearch.Proofs.Sql.Placeholder
import KnowledgeSearch.Search.Statement
import Mathlib.Data.List.Forall2

namespace KnowledgeSearch

/-! ### Related predicates -/

namespace Predicate

/-- Two predicates of one shape with related leaves. -/
inductive Related (related : Leaf → Leaf → Prop) : Predicate → Predicate → Prop where
  | leaf {l k : Leaf} (h : related l k) : Related related (.leaf l) (.leaf k)
  | all {ps qs : List Predicate} (h : List.Forall₂ (Related related) ps qs) :
      Related related (.all ps) (.all qs)
  | any {ps qs : List Predicate} (h : List.Forall₂ (Related related) ps qs) :
      Related related (.any ps) (.any qs)
  | not {p q : Predicate} (h : Related related p q) : Related related (.not p) (.not q)

end Predicate

namespace Outcome

variable {α β : Type}

/-- Two outcomes of one kind with related conditions. -/
inductive Related (related : α → β → Prop) : Outcome α → Outcome β → Prop where
  | ignored : Related related .ignored .ignored
  | always : Related related .always .always
  | condition {a : α} {b : β} (h : related a b) : Related related (.condition a) (.condition b)

section Groups

variable {related : α → β → Prop} {c : Connectives α} {c' : Connectives β}
  {outcomes : List (Outcome α)} {outcomes' : List (Outcome β)}

theorem Related.conditions (h : List.Forall₂ (Related related) outcomes outcomes') :
    List.Forall₂ related (outcomes.filterMap condition?) (outcomes'.filterMap condition?) := by
  induction h with
  | nil => exact .nil
  | cons hhead _ ih =>
    cases hhead with
    | ignored => exact ih
    | always => exact ih
    | condition h => exact .cons h ih

theorem Related.any_isAlways (h : List.Forall₂ (Related related) outcomes outcomes') :
    outcomes.any isAlways = outcomes'.any isAlways := by
  induction h with
  | nil => rfl
  | cons hhead _ ih =>
    rw [List.any_cons, List.any_cons, ih]
    cases hhead <;> rfl

theorem isEmpty_eq {γ δ : Type} {R : γ → δ → Prop} {xs : List γ} {ys : List δ}
    (h : List.Forall₂ R xs ys) : xs.isEmpty = ys.isEmpty := by
  cases h <;> rfl

theorem Related.conjoin (hnever : related c.never c'.never)
    (hall : ∀ as bs, List.Forall₂ related as bs → related (c.all as) (c'.all bs))
    (h : List.Forall₂ (Related related) outcomes outcomes') :
    Related related (conjoin c outcomes) (conjoin c' outcomes') := by
  have hconditions := Related.conditions h
  unfold Outcome.conjoin
  rw [isEmpty_eq h, Related.any_isAlways h]
  split
  · exact .condition hnever
  · generalize outcomes.filterMap condition? = as at hconditions
    generalize outcomes'.filterMap condition? = bs at hconditions
    cases hconditions with
    | nil =>
      dsimp only
      split
      · exact .always
      · exact .ignored
    | cons hhead htail => exact .condition (hall _ _ (.cons hhead htail))

theorem Related.disjoin (hnever : related c.never c'.never)
    (hany : ∀ as bs, List.Forall₂ related as bs → related (c.any as) (c'.any bs))
    (h : List.Forall₂ (Related related) outcomes outcomes') :
    Related related (disjoin c outcomes) (disjoin c' outcomes') := by
  have hconditions := Related.conditions h
  unfold Outcome.disjoin
  rw [isEmpty_eq h, Related.any_isAlways h]
  split
  · exact .condition hnever
  · split
    · exact .always
    · generalize outcomes.filterMap condition? = as at hconditions
      generalize outcomes'.filterMap condition? = bs at hconditions
      cases hconditions with
      | nil => exact .ignored
      | cons hhead htail => exact .condition (hany _ _ (.cons hhead htail))

end Groups

end Outcome

/-- What two predicates come to is related if their leaves come to related outcomes and
    connectives keep the relation. -/
theorem Predicate.combine_related {α β : Type} {relatedLeaves : Leaf → Leaf → Prop}
    {related : α → β → Prop} {c : Connectives α} {c' : Connectives β}
    {leafOutcome : Leaf → Outcome α} {leafOutcome' : Leaf → Outcome β}
    (never : related c.never c'.never)
    (negate : ∀ a b, related a b → related (c.negate a) (c'.negate b))
    (all : ∀ as bs, List.Forall₂ related as bs → related (c.all as) (c'.all bs))
    (any : ∀ as bs, List.Forall₂ related as bs → related (c.any as) (c'.any bs))
    (leaf : ∀ l k, relatedLeaves l k → (leafOutcome l).Related related (leafOutcome' k))
    {p q : Predicate} (h : p.Related relatedLeaves q) :
    (p.combine c leafOutcome).Related related (q.combine c' leafOutcome') := by
  have children {ps qs : List Predicate} (hps : List.Forall₂ (Related relatedLeaves) ps qs)
      (ih : ∀ p ∈ ps, ∀ q, p.Related relatedLeaves q →
        (p.combine c leafOutcome).Related related (q.combine c' leafOutcome')) :
      List.Forall₂ (Outcome.Related related) (combineEach c leafOutcome ps)
        (combineEach c' leafOutcome' qs) := by
    induction hps with
    | nil => exact .nil
    | cons hhead _ ihTail =>
      exact .cons (ih _ List.mem_cons_self _ hhead)
        (ihTail fun p hp => ih p (List.mem_cons_of_mem _ hp))
  induction p generalizing q with
  | leaf l =>
    cases h with
    | leaf h => exact leaf l _ h
  | all ps ih =>
    cases h with
    | all h => exact Outcome.Related.conjoin never all (children h fun p hp q hq => ih p hp hq)
  | any ps ih =>
    cases h with
    | any h => exact Outcome.Related.disjoin never any (children h fun p hp q hq => ih p hp hq)
  | not p ih =>
    cases h with
    | not h =>
      have hchild := ih h
      rw [combine, combine]
      generalize combine c leafOutcome p = outcome at hchild
      generalize combine c' leafOutcome' _ = outcome' at hchild ⊢
      cases hchild with
      | ignored => exact .ignored
      | always => exact .condition never
      | condition hinner => exact .condition (negate _ _ hinner)

/-! ### Alike fragments -/

/-- Two pieces of a text that differ in a bound value at most. -/
inductive Piece.Alike : Piece → Piece → Prop where
  | text (text : String) : Alike (.text text) (.text text)
  | bind {v w : Parameter} (h : v.castText = w.castText) : Alike (.bind v) (.bind w)

theorem Dialect.placeholder_congr (d : Dialect) (ordinal : Nat) {v w : Parameter}
    (h : v.castText = w.castText) : d.placeholder ordinal v = d.placeholder ordinal w := by
  cases d with
  | lite => rfl
  | postgres =>
    apply String.toList_injective
    rw [placeholder_postgres, placeholder_postgres, h]

namespace Fragment

/-- Two fragments that differ in their values at most. -/
def Alike (f g : Fragment) : Prop := List.Forall₂ Piece.Alike f g

theorem Alike.render_eq {f g : Fragment} (h : Alike f g) (d : Dialect) (n : Nat) :
    f.render d n = g.render d n := by
  induction h generalizing n with
  | nil => rfl
  | cons hpiece _ ih =>
    cases hpiece with
    | text text => rw [render, render, ih]
    | bind hcast => rw [render, render, d.placeholder_congr n hcast, ih]

section Alike

variable {f g f' g' : Fragment}

theorem Alike.refl (f : Fragment) : Alike f f := by
  induction f with
  | nil => exact .nil
  | cons piece f ih =>
    cases piece with
    | text text => exact .cons (.text text) ih
    | bind value => exact .cons (.bind rfl) ih

theorem Alike.append (h : Alike f g) (h' : Alike f' g') : Alike (f ++ f') (g ++ g') :=
  List.rel_append h h'

theorem Alike.text (sql : String) (h : Alike f g) : Alike (.text sql :: f) (.text sql :: g) :=
  .cons (.text sql) h

theorem Alike.bind {v w : Parameter} (hcast : v.castText = w.castText) (h : Alike f g) :
    Alike (.bind v :: f) (.bind w :: g) :=
  .cons (.bind hcast) h

/-- Alike fragments between two texts. -/
theorem Alike.between (before after : String) (h : Alike f g) :
    Alike (.text before :: (f ++ [.text after])) (.text before :: (g ++ [.text after])) :=
  Alike.text before (h.append (Alike.refl _))

theorem Alike.join (separator : String) {fs gs : List Fragment} (h : List.Forall₂ Alike fs gs) :
    Alike (Fragment.join separator fs) (Fragment.join separator gs) := by
  induction h with
  | nil => exact .nil
  | cons hhead htail ih =>
    cases htail with
    | nil => exact hhead
    | cons hsecond htail => exact hhead.append (Alike.text separator ih)

end Alike

end Fragment

/-! ### Alike predicates -/

/-- Two values of which each can take the place of the other: both null or neither, both
    numbers or neither. -/
def Scalar.Alike (v w : Scalar) : Prop := v.isNull = w.isNull ∧ v.isNumeric = w.isNumeric

/-- Two tests that differ in their values at most.  Lists are as long as each other but
    for null, which both have or neither has. -/
inductive Test.Alike : Test → Test → Prop where
  | compare (comparison : Comparison) {v w : Scalar} (h : v.Alike w) :
      Alike (.compare comparison v) (.compare comparison w)
  | membership (negated : Bool) {vs ws : List Scalar}
      (hpresent : vs.countP (!·.isNull) = ws.countP (!·.isNull))
      (hnull : vs.any Scalar.isNull = ws.any Scalar.isNull) :
      Alike (.membership negated vs) (.membership negated ws)
  | presence (expected : Bool) : Alike (.presence expected) (.presence expected)
  | contains (v w : Json) : Alike (.contains v) (.contains w)
  | containedBy (v w : Json) : Alike (.containedBy v) (.containedBy w)
  | pathExists (v w : String) : Alike (.pathExists v) (.pathExists w)

/-- Two leaves that ask the same field alike. -/
structure Leaf.Alike (l k : Leaf) : Prop where
  field : l.field = k.field
  test : l.test.Alike k.test

/-- Two predicates that differ in their values at most. -/
def Predicate.Alike (p q : Predicate) : Prop := p.Related Leaf.Alike q

open Fragment (Alike)

namespace FieldPath

variable (field : FieldPath) (d : Dialect)

/-- What a field is compared with needs no cast. -/
theorem castText_parameter (value : Scalar) : (field.parameter value).castText = [] := by
  unfold parameter
  split
  · split <;> rfl
  · cases value <;> rfl

theorem castText_ofScalar (value : Scalar) : (Parameter.ofScalar value).castText = [] := by
  cases value <;> rfl

theorem alike_comparison (comparison : Comparison) {v w : Scalar} (h : v.Alike w) :
    Alike (field.comparisonCondition d comparison v) (field.comparisonCondition d comparison w) := by
  obtain ⟨hnull, hnumeric⟩ := h
  have hparameter : (field.parameter v).castText = (field.parameter w).castText := by
    rw [castText_parameter, castText_parameter]
  have hscalar : (Parameter.ofScalar v).castText = (Parameter.ofScalar w).castText := by
    rw [castText_ofScalar, castText_ofScalar]
  unfold comparisonCondition
  rw [hnull, hnumeric]
  dsimp only
  split
  · exact Alike.refl _
  · split
    · cases d with
      | lite => exact Alike.text _ (Alike.bind hparameter (Alike.refl _))
      | postgres => exact Alike.text _ (Alike.bind hparameter .nil)
    · split
      · exact Alike.text _ (Alike.bind hscalar .nil)
      · exact Alike.text _ (Alike.bind hparameter .nil)

/-- Values in brackets, as many as each other. -/
theorem alike_values {vs ws : List Scalar} (h : vs.length = ws.length) :
    List.Forall₂ Alike (vs.map fun value => [Piece.bind (field.parameter value)])
      (ws.map fun value => [Piece.bind (field.parameter value)]) := by
  induction vs generalizing ws with
  | nil =>
    cases ws with
    | nil => exact .nil
    | cons w ws => cases h
  | cons v vs ih =>
    cases ws with
    | nil => cases h
    | cons w ws =>
      have hcast : (field.parameter v).castText = (field.parameter w).castText := by
        rw [castText_parameter, castText_parameter]
      exact .cons (Alike.bind hcast .nil) (ih (Nat.succ.inj h))

theorem isEmpty_eq_of_length {vs ws : List Scalar} (h : vs.length = ws.length) :
    vs.isEmpty = ws.isEmpty := by
  cases vs <;> cases ws <;> first | rfl | cases h

theorem isEmpty_eq_present (vs : List Scalar) :
    vs.isEmpty = ((vs.filter (!·.isNull)).isEmpty && !vs.any Scalar.isNull) := by
  cases vs with
  | nil => rfl
  | cons v vs => cases hv : v.isNull <;> simp [hv]

theorem alike_membership (negated : Bool) {vs ws : List Scalar}
    (hpresent : vs.countP (!·.isNull) = ws.countP (!·.isNull))
    (hnull : vs.any Scalar.isNull = ws.any Scalar.isNull) :
    (field.membershipOutcome d negated vs).Related Alike
      (field.membershipOutcome d negated ws) := by
  have hlength : (vs.filter (!·.isNull)).length = (ws.filter (!·.isNull)).length := by
    rw [← List.countP_eq_length_filter, ← List.countP_eq_length_filter, hpresent]
  have hpresentEmpty := isEmpty_eq_of_length hlength
  have hempty : vs.isEmpty = ws.isEmpty := by
    rw [isEmpty_eq_present vs, isEmpty_eq_present ws, hpresentEmpty, hnull]
  have hlisted := (Alike.join ", " (field.alike_values hlength)).between
    (field.operand d ++ if negated then " NOT IN (" else " IN (") ")"
  unfold membershipOutcome
  dsimp only
  rw [hempty, hnull, hpresentEmpty]
  split
  · split
    · exact .always
    · exact .condition (Alike.refl _)
  · split
    · exact .condition hlisted
    · split
      · exact .condition (Alike.refl _)
      · exact .condition ((hlisted.append (Alike.refl _)).between "(" ")")

end FieldPath

theorem Test.alike_outcome (field : FieldPath) (d : Dialect) {t u : Test} (h : t.Alike u) :
    (t.outcome field d).Related Fragment.Alike (u.outcome field d) := by
  have hoperator : t.operator = u.operator := by
    cases h with
    | membership negated => cases negated <;> rfl
    | _ => rfl
  unfold outcome
  rw [hoperator]
  split
  · exact .ignored
  · cases h with
    | compare comparison h => exact .condition (field.alike_comparison d comparison h)
    | membership negated hpresent hnull => exact field.alike_membership d negated hpresent hnull
    | presence expected => exact .condition (Alike.refl _)
    | contains v w => exact .condition (Alike.text _ (Alike.bind rfl .nil))
    | containedBy v w => exact .condition (Alike.text _ (Alike.bind rfl .nil))
    | pathExists v w => exact .condition (Alike.text _ (Alike.bind rfl (Alike.refl _)))

namespace Predicate

/-- Alike predicates come to alike conditions. -/
theorem alike_outcome (d : Dialect) {p q : Predicate} (h : p.Alike q) :
    (p.outcome d).Related Fragment.Alike (q.outcome d) := by
  have parens {as bs : List Fragment} (h : List.Forall₂ Fragment.Alike as bs) :
      List.Forall₂ Fragment.Alike (as.map Fragment.parens) (bs.map Fragment.parens) := by
    induction h with
    | nil => exact .nil
    | cons hhead _ ih => exact .cons (hhead.between "(" ")") ih
  refine combine_related (Fragment.Alike.refl _) ?_ ?_ ?_ ?_ h
  · intro a b hab
    exact hab.between "NOT (" ")"
  · intro as bs h
    exact Fragment.Alike.join " AND " (parens h)
  · intro as bs h
    exact Fragment.Alike.join " OR " (parens h)
  · rintro ⟨field, test⟩ ⟨_, test'⟩ ⟨rfl, htest⟩
    exact Test.alike_outcome field d htest

theorem alike_condition? (d : Dialect) {p q : Option Predicate} (h : Option.Rel Alike p q) :
    Option.Rel Fragment.Alike (condition? d p) (condition? d q) := by
  cases h with
  | none => exact .none
  | some h =>
    have houtcome := alike_outcome d h
    unfold condition?
    rw [Option.bind_some, Option.bind_some]
    generalize outcome d _ = a at houtcome
    generalize outcome d _ = b at houtcome ⊢
    cases houtcome with
    | ignored => exact .none
    | always => exact .none
    | condition h => exact .some h

/-- Alike predicates are written as one text. -/
theorem compile_alike (d : Dialect) {p q : Option Predicate} (h : Option.Rel Alike p q) :
    (compile d p).sql = (compile d q).sql := by
  have hcondition := alike_condition? d h
  unfold compile Fragment.toQuery
  generalize condition? d p = f at hcondition
  generalize condition? d q = g at hcondition ⊢
  cases hcondition with
  | none => rfl
  | some h => exact h.render_eq d 1

end Predicate

/-! ### Alike statements -/

section Statements

variable (d : Dialect)

/-- A condition behind a word, in brackets. -/
theorem Predicate.alike_clause (word : String) {p q : Option Predicate}
    (h : Option.Rel Predicate.Alike p q) :
    Fragment.Alike
      (match Predicate.condition? d p with
        | some condition => .text word :: condition.parens
        | none => [])
      (match Predicate.condition? d q with
        | some condition => .text word :: condition.parens
        | none => []) := by
  have hcondition := Predicate.alike_condition? d h
  generalize Predicate.condition? d p = f at hcondition
  generalize Predicate.condition? d q = g at hcondition
  cases hcondition with
  | none => exact .nil
  | some h => exact Fragment.Alike.text word (h.between "(" ")")

/-- Searches for the nearest rows that differ in the embedding, the values of the filter and
    the limit at most. -/
theorem NearestRows.alike {rows rows' : NearestRows} (htable : rows.table = rows'.table)
    (hdistance : Fragment.Alike rows.distance rows'.distance)
    (hfilter : Option.Rel Predicate.Alike rows.filter rows'.filter) :
    Fragment.Alike (rows.toFragment d) (rows'.toFragment d) := by
  have hclause : Fragment.Alike (rows.furtherCondition d) (rows'.furtherCondition d) :=
    Predicate.alike_clause d " AND " hfilter
  unfold toFragment
  rw [htable]
  refine (((Fragment.Alike.text _ hdistance).append (Fragment.Alike.refl _)).append hclause).append ?_
  exact Fragment.Alike.text _ (Fragment.Alike.bind rfl .nil)

namespace CandidateRows

/-- Two searches for candidates that differ in the embedding, the text that is searched for,
    the values of the filter and the number of rows at most. -/
structure Alike (rows rows' : CandidateRows) : Prop where
  table : rows.table = rows'.table
  query : rows.query.isEmpty = rows'.query.isEmpty
  textFields : rows.textFields = rows'.textFields
  config : rows.textSearchConfig = rows'.textSearchConfig
  distance : Option.Rel Fragment.Alike rows.distance rows'.distance
  filter : Option.Rel Predicate.Alike rows.filter rows'.filter

variable {d : Dialect}

theorem alike_textMatch (field config : String) {f g : Fragment} (h : Fragment.Alike f g) :
    Fragment.Alike (d.textMatch field f config) (d.textMatch field g config) := by
  cases d with
  | lite => exact h.between _ _
  | postgres => exact h.between _ _

theorem alike_textRank (field config : String) {f g : Fragment} (h : Fragment.Alike f g) :
    Fragment.Alike (d.textRank field f config) (d.textRank field g config) := by
  cases d with
  | lite => exact (alike_textMatch field config h).between _ _
  | postgres => exact h.between _ _

theorem alike_greatest {fs gs : List Fragment} (h : List.Forall₂ Fragment.Alike fs gs) :
    Fragment.Alike (d.greatest fs) (d.greatest gs) := by
  cases h with
  | nil => exact Fragment.Alike.refl _
  | cons hhead htail =>
    cases htail with
    | nil => exact hhead
    | cons hsecond htail =>
      exact (Fragment.Alike.join ", " (.cons hhead (.cons hsecond htail))).between _ _

theorem castText_textQuery (query query' : String) :
    (d.textQuery query).castText = (d.textQuery query').castText := by
  cases d <;> simp only [Dialect.textQuery, Parameter.castText]

variable {rows rows' : CandidateRows}

theorem Alike.rank? (h : rows.Alike rows') :
    Option.Rel Fragment.Alike (rows.rank? d) (rows'.rank? d) := by
  have hquery : Fragment.Alike [.bind (d.textQuery rows.query)] [.bind (d.textQuery rows'.query)] :=
    Fragment.Alike.bind (castText_textQuery rows.query rows'.query) .nil
  have hranks (fields : List String) : List.Forall₂ Fragment.Alike
      (fields.map fun field => d.textRank field [.bind (d.textQuery rows.query)]
        rows'.textSearchConfig)
      (fields.map fun field => d.textRank field [.bind (d.textQuery rows'.query)]
        rows'.textSearchConfig) := by
    induction fields with
    | nil => exact .nil
    | cons field fields ih => exact .cons (alike_textRank field _ hquery) ih
  unfold CandidateRows.rank?
  rw [h.query, h.textFields, h.config]
  split
  · exact .none
  · exact .some (alike_greatest (hranks _))

theorem Alike.guardedDistance? (h : rows.Alike rows') :
    Option.Rel Fragment.Alike (rows.guardedDistance? d) (rows'.guardedDistance? d) := by
  have hdistance := h.distance
  unfold CandidateRows.guardedDistance?
  rw [h.table]
  generalize rows.distance = f at hdistance
  generalize rows'.distance = g at hdistance
  cases hdistance with
  | none => exact .none
  | some hdistance =>
    cases d with
    | lite => exact .some (hdistance.between _ _)
    | postgres => exact .some hdistance

theorem isSome_eq {f g : Option Fragment} (h : Option.Rel Fragment.Alike f g) :
    f.isSome = g.isSome := by
  cases h <;> rfl

theorem Alike.getD {f g : Option Fragment} (h : Option.Rel Fragment.Alike f g)
    (default : Fragment) : Fragment.Alike (f.getD default) (g.getD default) := by
  cases h with
  | none => exact Fragment.Alike.refl default
  | some h => exact h

theorem Alike.sides (h : rows.Alike rows') :
    List.Forall₂ Fragment.Alike (rows.sides d) (rows'.sides d) := by
  have hside (condition order part : String) :
      Fragment.Alike (rows.side condition order part) (rows'.side condition order part) := by
    unfold CandidateRows.side
    rw [h.table]
    exact Fragment.Alike.text _ (Fragment.Alike.bind rfl (Fragment.Alike.refl _))
  unfold CandidateRows.sides
  rw [isSome_eq h.guardedDistance?, isSome_eq h.rank?]
  apply List.rel_append
  · split
    · exact .cons (hside _ _ _) .nil
    · exact .nil
  · split
    · exact .cons (hside _ _ _) .nil
    · exact .nil

theorem Alike.toFragment (h : rows.Alike rows') :
    Fragment.Alike (rows.toFragment d) (rows'.toFragment d) := by
  have hrank := Alike.getD (h.rank? (d := d)) [.text "0.0"]
  have hdistance := Alike.getD (h.guardedDistance? (d := d)) [.text "NULL"]
  have hclause : Fragment.Alike (rows.whereClause d) (rows'.whereClause d) :=
    Predicate.alike_clause d " WHERE " h.filter
  have hsides := Fragment.Alike.join " UNION " (h.sides (d := d))
  unfold CandidateRows.toFragment
  rw [h.table]
  exact ((((Fragment.Alike.text _ hrank).append (Fragment.Alike.text _ hdistance)).append
    (Fragment.Alike.text _ hclause)).append (Fragment.Alike.text _ hsides)).append
    (Fragment.Alike.refl _)

end CandidateRows

end Statements

end KnowledgeSearch
