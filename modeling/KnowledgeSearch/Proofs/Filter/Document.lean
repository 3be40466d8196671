/-
  KnowledgeSearch/Proofs/Filter/Document.lean
  ===========================================
  **A filter document and the predicate that it is read as.**

  A document has a meaning of its own, by recursion on the JSON value: its members all
  have to hold, as far as they ask for anything.  `filterTruth?` gives its truth from
  that of the conditions on its fields, and nothing where the document asks for nothing;
  `filterConditions` lists the conditions as they stand in it.

  A predicate is put together differently: the conditions of all members are one flat
  list, a list of one is the condition itself, and groups that ask for nothing are left
  out.  `Predicate.ofJson_meaning` says that none of this changes the meaning, the order
  of the conditions, or which documents ask for nothing.
-/
import KnowledgeSearch.Filter.Document
import KnowledgeSearch.Proofs.Filter.Predicate
import KnowledgeSearch.Proofs.Steps

namespace KnowledgeSearch

/-! ### The conditions on a field -/

def Json.scalar? : Json → Option Scalar
  | .null => some .null
  | .bool b => some (.bool b)
  | .number n => some <| match n.toInt64? with
    | some i => .int i
    | none => .float n.toDouble
  | .string text => some (.text text)
  | .array _ | .object _ => none

def Operator.test? (operator : Operator) (operand : Json) : Option Test :=
  match operator with
  | .eq => operand.scalar?.map (.compare .eq)
  | .ne => operand.scalar?.map (.compare .ne)
  | .gt => operand.scalar?.map (.compare .gt)
  | .gte => operand.scalar?.map (.compare .gte)
  | .lt => operand.scalar?.map (.compare .lt)
  | .lte => operand.scalar?.map (.compare .lte)
  | .like => operand.scalar?.map (.compare .like)
  | .ilike => operand.scalar?.map (.compare .ilike)
  | .isIn => operand.toList?.bind fun items => (items.mapM Json.scalar?).map (.membership false)
  | .notIn => operand.toList?.bind fun items => (items.mapM Json.scalar?).map (.membership true)
  | .isPresent => operand.toBool?.map .presence
  | .contains => some (.contains operand)
  | .containedBy => some (.containedBy operand)
  | .pathExists => operand.toString?.map .pathExists

namespace Json

/-- The tests that a document asks of a field: equality with a scalar, membership in a
    list, or the operators of an object that are known. -/
def fieldTests : Json → List Test
  | .object operators => operators.filterMap fun member =>
    (Operator.ofKey? member.1).bind fun operator => operator.test? member.2
  | .array items => ((items.mapM scalar?).map (Test.membership false)).toList
  | scalar => (scalar.scalar?.map (Test.compare .eq)).toList

end Json

/-! ### The meaning of a document -/

/-- All of what is asked for, or any of it, if anything is asked for. -/
def Truth.joined? (join : List Truth → Truth) (truths : List Truth) : Option Truth :=
  if truths.isEmpty then none else some (join truths)

namespace Json

def isEmptyArray : Json → Bool
  | .array [] => true
  | _ => false

/-- What a member of a filter asks for, given what its value asks for as a filter and as a
    list of filters.  A group that is written empty is satisfied by no row. -/
def memberTruth? (truth : String → Test → Truth) (key : String) (raw : Json)
    (filter : Option Truth) (items : List Truth) : Option Truth :=
  if key = "$and" then if raw.isEmptyArray then some .no else Truth.joined? .all items
  else if key = "$or" then if raw.isEmptyArray then some .no else Truth.joined? .any items
  else if key = "$not" then filter.map Truth.negate
  else if Filter.isReserved key then none
  else Truth.joined? .all (raw.fieldTests.map (truth key))

section Meaning

variable (truth : String → Test → Truth)

mutual

/-- The truth of a filter, given the truth of the tests of its fields; nothing if it asks
    for nothing. -/
def filterTruth? : Json → Option Truth
  | .object members => Truth.joined? .all (memberTruths members)
  | _ => none

/-- The truths of the members of a filter that ask for something. -/
def memberTruths : List (String × Json) → List Truth
  | [] => []
  | (key, raw) :: rest =>
    (memberTruth? truth key raw (filterTruth? raw) (arrayTruths raw)).toList ++ memberTruths rest

/-- The truths of the filters of an array that ask for something. -/
def arrayTruths : Json → List Truth
  | .array items => itemTruths items
  | _ => []

/-- The truths of the filters of a list that ask for something. -/
def itemTruths : List Json → List Truth
  | [] => []
  | item :: items => (filterTruth? item).toList ++ itemTruths items

end

end Meaning

/-- The conditions of a member of a filter, given those of its value as a filter and as a
    list of filters. -/
def conditionsOfMember (key : String) (raw : Json) (filter items : List (String × Test)) :
    List (String × Test) :=
  if key = "$and" ∨ key = "$or" then items
  else if key = "$not" then filter
  else if Filter.isReserved key then []
  else raw.fieldTests.map (Prod.mk key)

mutual

/-- The conditions of a filter in the order of the document, each with the name of its
    field. -/
def filterConditions : Json → List (String × Test)
  | .object members => memberConditions members
  | _ => []

def memberConditions : List (String × Json) → List (String × Test)
  | [] => []
  | (key, raw) :: rest =>
    conditionsOfMember key raw (filterConditions raw) (arrayConditions raw) ++
      memberConditions rest

def arrayConditions : Json → List (String × Test)
  | .array items => itemConditions items
  | _ => []

def itemConditions : List Json → List (String × Test)
  | [] => []
  | item :: items => filterConditions item ++ itemConditions items

end

end Json

def FieldPath.name (field : FieldPath) : String :=
  String.intercalate "." (field.column :: field.path)

def Leaf.condition (l : Leaf) : String × Test := (l.field.name, l.test)

/-! ### Reading that succeeds -/

namespace Filter

variable {α β : Type}

/-- What a reader can give, whatever the number of nodes that have been read. -/
def Yields (reading : Reading α) (a : α) : Prop :=
  ∃ before after, reading before = .ok (a, after)

theorem Yields.bind {reading : Reading α} {next : α → Reading β} {b : β}
    (h : Yields (reading >>= next) b) : ∃ a, Yields reading a ∧ Yields (next a) b := by
  obtain ⟨before, after, h⟩ := h
  change (reading before >>= fun step => next step.1 step.2) = .ok (b, after) at h
  obtain ⟨⟨a, middle⟩, hread, h⟩ := bind_eq_ok h
  exact ⟨a, ⟨before, middle, hread⟩, middle, after, h⟩

theorem Yields.pure {a b : α} (h : Yields (pure a) b) : b = a := by
  obtain ⟨before, after, h⟩ := h
  cases h
  rfl

theorem Yields.throw {e : FilterError} {a : α} (h : Yields (throw e) a) : False := by
  obtain ⟨before, after, h⟩ := h
  cases h

theorem Yields.lift {result : Except FilterError α} {a : α}
    (h : Yields (liftM result : Reading α) a) : result = .ok a := by
  obtain ⟨before, after, h⟩ := h
  cases result with
  | error e => cases h
  | ok b =>
    cases h
    rfl

/-! ### Operands and fields -/

theorem map_eq_ok {f : α → β} {result : Except FilterError α} {b : β}
    (h : f <$> result = .ok b) : ∃ a, result = .ok a ∧ f a = b := by
  cases result with
  | error e => cases h
  | ok a =>
    injection h with h
    exact ⟨a, rfl, h⟩

theorem readString_eq_ok {path : List Step} {raw : Json} {text : String}
    (h : readString path raw = .ok text) : raw = .string text := by
  cases raw with
  | string s =>
    rw [readString] at h
    split at h
    · cases h
    · injection h with h
      rw [h]
  | _ => cases h

theorem readScalar_eq_ok {path : List Step} {raw : Json} {value : Scalar}
    (h : readScalar path raw = .ok value) : raw.scalar? = some value := by
  cases raw with
  | string s =>
    obtain ⟨text, hread, rfl⟩ := map_eq_ok h
    rw [readString_eq_ok hread]
    rfl
  | array items => cases h
  | object members => cases h
  | _ =>
    cases h
    rfl

theorem readScalars_eq_ok {path : List Step} {position : Nat} {items : List Json}
    {values : List Scalar} (h : readScalars path position items = .ok values) :
    items.mapM Json.scalar? = some values := by
  induction items generalizing position values with
  | nil =>
    cases h
    rfl
  | cons item items ih =>
    rw [readScalars] at h
    obtain ⟨value, hfirst, h⟩ := bind_eq_ok h
    obtain ⟨rest, hrest, h⟩ := bind_eq_ok h
    cases h
    simp [List.mapM_cons, readScalar_eq_ok hfirst, ih hrest]

theorem readList_eq_ok {path : List Step} {items : List Json} {values : List Scalar}
    (h : readList path items = .ok values) : items.mapM Json.scalar? = some values := by
  unfold readList at h
  split at h
  · cases h
  · exact readScalars_eq_ok h

section Tests

variable {path : List Step} {raw : Json} {test : Test}

theorem comparison_eq_ok {comparison : Comparison}
    (h : Test.compare comparison <$> readScalar path raw = .ok test) :
    raw.scalar?.map (.compare comparison) = some test := by
  obtain ⟨value, hread, rfl⟩ := map_eq_ok h
  rw [readScalar_eq_ok hread]
  rfl

theorem range_eq_ok {comparison : Comparison}
    (h : (do
      let value ← readScalar path raw
      if value.isNull then throw ⟨path, .rangeWithNull⟩
      else pure (Test.compare comparison value) : Except FilterError Test) = .ok test) :
    raw.scalar?.map (.compare comparison) = some test := by
  obtain ⟨value, hread, h⟩ := bind_eq_ok h
  split at h
  · cases h
  · cases h
    rw [readScalar_eq_ok hread]
    rfl

theorem pattern_eq_ok {comparison : Comparison}
    (h : (fun text => Test.compare comparison (.text text)) <$> readString path raw = .ok test) :
    raw.scalar?.map (.compare comparison) = some test := by
  obtain ⟨text, hread, rfl⟩ := map_eq_ok h
  rw [readString_eq_ok hread]
  rfl

theorem membership_eq_ok {negated : Bool} {violation : Violation}
    (h : (match raw with
      | .array items => Test.membership negated <$> readList path items
      | _ => throw ⟨path, violation⟩ : Except FilterError Test) = .ok test) :
    (raw.toList?.bind fun items => (items.mapM Json.scalar?).map (.membership negated)) =
      some test := by
  cases raw with
  | array items =>
    obtain ⟨values, hread, rfl⟩ := map_eq_ok h
    simp [Json.toList?, readList_eq_ok hread]
  | _ => cases h

theorem json_eq_ok {make : Json → Test} {violation : Violation}
    (h : (if raw.isNull then throw ⟨path, violation⟩ else pure (make raw) :
      Except FilterError Test) = .ok test) : some (make raw) = some test := by
  split at h
  · cases h
  · cases h
    rfl

/-- A test that is read is the one that the operator makes with its operand. -/
theorem readTest_eq_ok {operator : Operator} (h : readTest path operator raw = .ok test) :
    operator.test? raw = some test := by
  cases operator with
  | eq => exact comparison_eq_ok h
  | ne => exact comparison_eq_ok h
  | gt => exact range_eq_ok h
  | gte => exact range_eq_ok h
  | lt => exact range_eq_ok h
  | lte => exact range_eq_ok h
  | like => exact pattern_eq_ok h
  | ilike => exact pattern_eq_ok h
  | isIn => exact membership_eq_ok h
  | notIn => exact membership_eq_ok h
  | isPresent =>
    cases raw with
    | bool expected =>
      cases h
      rfl
    | _ => cases h
  | contains => exact json_eq_ok h
  | containedBy => exact json_eq_ok h
  | pathExists =>
    obtain ⟨text, hread, rfl⟩ := map_eq_ok h
    rw [readString_eq_ok hread]
    rfl

end Tests

def leavesOf (field : FieldPath) (tests : List Test) : List Predicate :=
  tests.map fun test => .leaf ⟨field, test⟩

theorem readOperators_yields {field : FieldPath} {path : List Step} {depth : Nat}
    {operators : List (String × Json)} {clauses : List Predicate}
    (h : Yields (readOperators field path depth operators) clauses) :
    clauses = leavesOf field (Json.object operators).fieldTests := by
  induction operators generalizing clauses with
  | nil => exact h.pure
  | cons member rest ih =>
    obtain ⟨key, raw⟩ := member
    rw [readOperators] at h
    cases hkey : Operator.ofKey? key with
    | none =>
      rw [hkey] at h
      rw [ih h]
      simp [Json.fieldTests, hkey]
    | some operator =>
      rw [hkey] at h
      obtain ⟨-, -, h⟩ := h.bind
      obtain ⟨test, htest, h⟩ := h.bind
      obtain ⟨others, hothers, h⟩ := h.bind
      rw [h.pure, ih hothers]
      simp [Json.fieldTests, leavesOf, hkey, readTest_eq_ok htest.lift]

theorem ofString?_name {name : String} {field : FieldPath}
    (h : FieldPath.ofString? name = some field) : field.name = name := by
  unfold FieldPath.ofString? at h
  split at h
  · cases h
  · rename_i column path hparts
    split at h
    · cases h
      have hjoin := Text.intercalate_splitAt '.' name.toList
      apply String.toList_injective
      rw [FieldPath.name, String.toList_intercalate, ← hparts]
      simpa [List.map_map, Function.comp_def] using hjoin
    · cases h

/-- What is read of a field are the tests that the document asks of it. -/
theorem readField_yields {name : String} {path : List Step} {depth : Nat} {raw : Json}
    {clauses : List Predicate} (h : Yields (readField name path depth raw) clauses) :
    ∃ field : FieldPath, field.name = name ∧ clauses = leavesOf field raw.fieldTests := by
  unfold readField at h
  cases hfield : FieldPath.ofString? name with
  | none =>
    rw [hfield] at h
    exact h.throw.elim
  | some field =>
    rw [hfield] at h
    refine ⟨field, ofString?_name hfield, ?_⟩
    have scalar (h : Yields (do
        visit path (depth + 1)
        let value ← readScalar path raw
        pure [.leaf ⟨field, .compare .eq value⟩] : Reading (List Predicate)) clauses) :
        clauses = leavesOf field (raw.scalar?.map (Test.compare .eq)).toList := by
      obtain ⟨-, -, h⟩ := h.bind
      obtain ⟨value, hvalue, h⟩ := h.bind
      rw [h.pure, readScalar_eq_ok hvalue.lift]
      rfl
    cases raw with
    | object operators => exact readOperators_yields h
    | array items =>
      obtain ⟨-, -, h⟩ := h.bind
      obtain ⟨values, hvalues, h⟩ := h.bind
      rw [h.pure, Json.fieldTests, readList_eq_ok hvalues.lift]
      rfl
    | null => exact scalar h
    | bool b => exact scalar h
    | number n => exact scalar h
    | string s => exact scalar h

/-! ### Members and items -/

def Groups (key : String) (group : List Predicate → Predicate) : Prop :=
  (key = "$and" ∧ group = .all) ∨ (key = "$or" ∧ group = .any)

/-- Reads one member of a filter, whatever comes after it. -/
def readMember (path : List Step) (depth : Nat) (key : String) (raw : Json) :
    Reading (List Predicate) :=
  if key = "$and" ∨ key = "$or" then
    match raw with
    | .array [] => pure [(if key = "$and" then Predicate.all else Predicate.any) []]
    | .array (item :: items) => do
      let children ← readItems (path ++ [.member key]) 0 (depth + 1) (item :: items)
      pure (if children.isEmpty then []
        else [(if key = "$and" then Predicate.all else Predicate.any) children])
    | _ => throw ⟨path ++ [.member key], .notAnArray key⟩
  else if key = "$not" then do
    let child ← readFilter (path ++ [.member key]) (depth + 1) raw
    pure (child.map Predicate.not).toList
  else if isReserved key then pure []
  else readField key (path ++ [.member key]) depth raw

theorem readMembers_cons (path : List Step) (depth : Nat) (key : String) (raw : Json)
    (rest : List (String × Json)) : readMembers path depth ((key, raw) :: rest) =
      readMember path depth key raw >>= fun own =>
        readMembers path depth rest >>= fun others => pure (own ++ others) := by
  rw [readMembers]
  unfold readMember
  by_cases hgroup : key = "$and" ∨ key = "$or"
  · simp only [if_pos hgroup]
    cases raw with
    | array items =>
      cases items with
      | nil => rfl
      | cons item items => exact (bind_assoc ..).symm
    | _ => rfl
  · simp only [if_neg hgroup]
    by_cases hnot : key = "$not"
    · simp only [if_pos hnot]
      exact (bind_assoc ..).symm
    · simp only [if_neg hnot]
      cases isReserved key <;> rfl

/-- What a member of a filter is read as. -/
inductive MemberYields (path : List Step) (depth : Nat) (key : String) :
    Json → List Predicate → Prop where
  | empty {group : List Predicate → Predicate} (hkey : Groups key group) :
      MemberYields path depth key (.array []) [group []]
  | group {group : List Predicate → Predicate} {items : List Json} {children : List Predicate}
      (hkey : Groups key group) (hne : items ≠ [])
      (h : Yields (readItems (path ++ [.member key]) 0 (depth + 1) items) children) :
      MemberYields path depth key (.array items) (if children.isEmpty then [] else [group children])
  | not {raw : Json} {child : Option Predicate} (hkey : key = "$not")
      (h : Yields (readFilter (path ++ [.member key]) (depth + 1) raw) child) :
      MemberYields path depth key raw (child.map Predicate.not).toList
  | reserved {raw : Json} (hgroup : key ≠ "$and" ∧ key ≠ "$or" ∧ key ≠ "$not")
      (hkey : isReserved key = true) : MemberYields path depth key raw []
  | field {raw : Json} {clauses : List Predicate}
      (hgroup : key ≠ "$and" ∧ key ≠ "$or" ∧ key ≠ "$not") (hkey : isReserved key = false)
      (h : Yields (readField key (path ++ [.member key]) depth raw) clauses) :
      MemberYields path depth key raw clauses

theorem readMember_yields {path : List Step} {depth : Nat} {key : String} {raw : Json}
    {own : List Predicate} (h : Yields (readMember path depth key raw) own) :
    MemberYields path depth key raw own := by
  unfold readMember at h
  by_cases hgroup : key = "$and" ∨ key = "$or"
  · rw [if_pos hgroup] at h
    have hkey : Groups key (if key = "$and" then Predicate.all else Predicate.any) := by
      rcases hgroup with rfl | rfl
      · exact .inl ⟨rfl, rfl⟩
      · exact .inr ⟨rfl, rfl⟩
    cases raw with
    | array items =>
      cases items with
      | nil =>
        rw [h.pure]
        exact .empty hkey
      | cons item items =>
        obtain ⟨children, hchildren, h⟩ := h.bind
        rw [h.pure]
        exact .group hkey (List.cons_ne_nil _ _) hchildren
    | _ => exact h.throw.elim
  · rw [if_neg hgroup] at h
    rw [not_or] at hgroup
    by_cases hnot : key = "$not"
    · rw [if_pos hnot] at h
      obtain ⟨child, hchild, h⟩ := h.bind
      rw [h.pure]
      exact .not hnot hchild
    · rw [if_neg hnot] at h
      cases hkey : isReserved key with
      | true =>
        rw [if_pos hkey] at h
        rw [h.pure]
        exact .reserved ⟨hgroup.1, hgroup.2, hnot⟩ hkey
      | false =>
        rw [if_neg (Bool.eq_false_iff.mp hkey)] at h
        exact .field ⟨hgroup.1, hgroup.2, hnot⟩ hkey h

theorem readMembers_yields {path : List Step} {depth : Nat} {key : String} {raw : Json}
    {rest : List (String × Json)} {clauses : List Predicate}
    (h : Yields (readMembers path depth ((key, raw) :: rest)) clauses) :
    ∃ own others, clauses = own ++ others ∧ MemberYields path depth key raw own ∧
      Yields (readMembers path depth rest) others := by
  rw [readMembers_cons] at h
  obtain ⟨own, hown, h⟩ := h.bind
  obtain ⟨others, hothers, h⟩ := h.bind
  exact ⟨own, others, h.pure, readMember_yields hown, hothers⟩

end Filter

/-! ### Agreement -/

/-- A property of all JSON values that arrays and objects take over from what they are
    made of. -/
theorem Json.induct {motive : Json → Prop} (null : motive .null) (bool : ∀ b, motive (.bool b))
    (number : ∀ n, motive (.number n)) (string : ∀ text, motive (.string text))
    (array : ∀ items, (∀ item ∈ items, motive item) → motive (.array items))
    (object : ∀ members, (∀ member ∈ members, motive member.2) → motive (.object members))
    (document : Json) : motive document :=
  @Json.rec motive (fun items => ∀ item ∈ items, motive item)
    (fun members => ∀ member ∈ members, motive member.2) (fun member => motive member.2)
    null bool number string array object
    (fun _ h => nomatch h)
    (fun _ _ ihHead ihTail item h => by
      rcases List.mem_cons.mp h with rfl | h
      · exact ihHead
      · exact ihTail item h)
    (fun _ h => nomatch h)
    (fun _ _ ihHead ihTail member h => by
      rcases List.mem_cons.mp h with rfl | h
      · exact ihHead
      · exact ihTail member h)
    (fun _ _ ih => ih)
    document

/-- A property of all documents that an object takes over from the filters in it: the values of its
    members, and the items of those that are arrays. -/
theorem Json.filter_induct {motive : Json → Prop}
    (object : ∀ members, (∀ member ∈ members, motive member.2 ∧
      ∀ items, member.2 = .array items → ∀ item ∈ items, motive item) → motive (.object members))
    (other : ∀ document, (∀ members, document ≠ .object members) → motive document)
    (document : Json) : motive document := by
  have both : motive document ∧
      ∀ items, document = .array items → ∀ item ∈ items, motive item := by
    induction document using Json.induct with
    | object members ih => exact ⟨object members ih, nofun⟩
    | array items ih =>
      refine ⟨other _ nofun, ?_⟩
      rintro _ ⟨⟩ item hitem
      exact (ih item hitem).1
    | _ => exact ⟨other _ nofun, nofun⟩
  exact both.1

/-- Only objects are filters. -/
theorem Filter.readFilter_of_ne_object {document : Json} (path : List Step) (depth : Nat)
    (h : ∀ members, document ≠ .object members) : readFilter path depth document = (do
      visit path depth
      throw ⟨path, .notAnObject⟩) := by
  cases document with
  | object members => exact absurd rfl (h members)
  | _ => rw [readFilter]; exact h

namespace Truth

theorem all_append (a b : List Truth) : all (a ++ b) = (all a).and (all b) := by
  induction a with
  | nil => rfl
  | cons truth a ih =>
    show truth.and (all (a ++ b)) = (truth.and (all a)).and (all b)
    rw [ih]
    cases truth <;> cases all a <;> cases all b <;> rfl

theorem all_singleton (truth : Truth) : all [truth] = truth := by cases truth <;> rfl

end Truth

namespace Predicate

/-- The truth of a predicate, given the truth of the tests of fields by name. -/
def truthByName (truth : String → Test → Truth) (p : Predicate) : Truth :=
  p.meaning fun l => truth l.field.name l.test

theorem truth_leaves (truth : String → Test → Truth) (field : FieldPath) (tests : List Test) :
    (Filter.leavesOf field tests).map (truthByName truth) = tests.map (truth field.name) := by
  simp [Filter.leavesOf, truthByName, meaning_leaf, Function.comp_def]

theorem truth_all (truth : String → Test → Truth) {children : List Predicate}
    (h : children ≠ []) :
    truthByName truth (.all children) = .all (children.map (truthByName truth)) :=
  meaning_all _ h

theorem truth_any (truth : String → Test → Truth) (children : List Predicate) :
    truthByName truth (.any children) = .any (children.map (truthByName truth)) :=
  meaning_any _ children

/-- A predicate, if there is one, agrees with a document: it has the truth of the document
    and its conditions in their order. -/
structure Agrees (document : Json) (p : Option Predicate) : Prop where
  truth : ∀ truth, p.map (truthByName truth) = document.filterTruth? truth
  conditions : (p.toList.flatMap leaves).map Leaf.condition = document.filterConditions

/-- Clauses agree with what members ask for: all of the ones is all of the others, neither
    are none without the others, and the conditions are the same. -/
structure Clauses (clauses : List Predicate) (truths : (String → Test → Truth) → List Truth)
    (conditions : List (String × Test)) : Prop where
  all : ∀ truth, Truth.all (clauses.map (truthByName truth)) = Truth.all (truths truth)
  empty : ∀ truth, clauses = [] ↔ truths truth = []
  conditions : (clauses.flatMap leaves).map Leaf.condition = conditions

theorem Clauses.append {a b : List Predicate} {s t : (String → Test → Truth) → List Truth}
    {c e : List (String × Test)} (ha : Clauses a s c) (hb : Clauses b t e) :
    Clauses (a ++ b) (fun truth => s truth ++ t truth) (c ++ e) := by
  refine ⟨?_, ?_, ?_⟩
  · intro truth
    rw [List.map_append, Truth.all_append, Truth.all_append, ha.all, hb.all]
  · intro truth
    rw [List.append_eq_nil_iff, List.append_eq_nil_iff, ha.empty truth, hb.empty truth]
  · rw [List.flatMap_append, List.map_append, ha.conditions, hb.conditions]

/-- The conjunction of clauses agrees with the object whose members they agree with. -/
theorem Clauses.agrees {members : List (String × Json)} {clauses : List Predicate}
    (h : Clauses clauses (fun truth => Json.memberTruths truth members)
      (Json.memberConditions members)) :
    Agrees (.object members) (Filter.conjunction clauses) := by
  constructor
  · intro truth
    have hall := h.all truth
    have hempty := h.empty truth
    rw [Json.filterTruth?, Truth.joined?]
    rcases clauses with _ | ⟨first, _ | ⟨second, rest⟩⟩
    · rw [hempty.mp rfl]
      rfl
    · have hne : Json.memberTruths truth members ≠ [] := fun h => by
        cases hempty.mpr h
      rw [if_neg (by simpa using hne), ← hall]
      simp [Filter.conjunction, Truth.all_singleton]
    · have hne : Json.memberTruths truth members ≠ [] := fun h => by
        cases hempty.mpr h
      rw [if_neg (by simpa using hne), ← hall]
      exact congrArg some (truth_all truth (List.cons_ne_nil _ _))
  · have hconditions := h.conditions
    rw [Json.filterConditions, ← hconditions]
    rcases clauses with _ | ⟨first, _ | ⟨second, rest⟩⟩
    · rfl
    · rfl
    · simp [Filter.conjunction, leaves, leavesEach_eq_flatMap]

theorem Clauses.congr {clauses : List Predicate} {s t : (String → Test → Truth) → List Truth}
    {c e : List (String × Test)} (h : Clauses clauses s c) (hst : ∀ truth, s truth = t truth)
    (hce : c = e) : Clauses clauses t e := by
  refine ⟨?_, ?_, ?_⟩
  · intro truth
    rw [← hst, h.all]
  · intro truth
    rw [← hst, h.empty]
  · rw [← hce, h.conditions]

theorem Clauses.nil : Clauses [] (fun _ => []) [] :=
  ⟨fun _ => rfl, fun _ => ⟨fun _ => rfl, fun _ => rfl⟩, rfl⟩

theorem Clauses.option {p : Option Predicate} {truth? : (String → Test → Truth) → Option Truth}
    {conditions : List (String × Test)}
    (htruth : ∀ truth, p.map (truthByName truth) = truth? truth)
    (hconditions : (p.toList.flatMap leaves).map Leaf.condition = conditions) :
    Clauses p.toList (fun truth => (truth? truth).toList) conditions := by
  refine ⟨?_, ?_, hconditions⟩
  · intro truth
    rw [← htruth]
    cases p <;> rfl
  · intro truth
    rw [← htruth]
    cases p <;> simp

theorem Clauses.field (field : FieldPath) (tests : List Test) :
    Clauses (Filter.leavesOf field tests)
      (fun truth => (Truth.joined? .all (tests.map (truth field.name))).toList)
      (tests.map (Prod.mk field.name)) := by
  refine ⟨?_, ?_, ?_⟩
  · intro truth
    rw [truth_leaves, Truth.joined?]
    split
    · rename_i h
      rw [List.isEmpty_iff.mp h]
      rfl
    · exact (Truth.all_singleton _).symm
  · intro truth
    cases tests <;> simp [Filter.leavesOf, Truth.joined?]
  · induction tests with
    | nil => rfl
    | cons test tests ih =>
      rw [List.map_cons, ← ih]
      rfl

/-- A key of a filter whose items become one predicate: what the predicate means, and what the
    document asks for with that key. -/
structure Joins (key : String) (group : List Predicate → Predicate)
    (join : List Truth → Truth) : Prop where
  empty : ∀ truth, truthByName truth (group []) = .no
  truth : ∀ truth {children}, children ≠ [] →
    truthByName truth (group children) = join (children.map (truthByName truth))
  leaves : ∀ children, (group children).leaves = children.flatMap Predicate.leaves
  member : ∀ truth raw filter items, Json.memberTruth? truth key raw filter items =
    if raw.isEmptyArray then some .no else Truth.joined? join items
  conditions : ∀ raw filter items, Json.conditionsOfMember key raw filter items = items

theorem joins_of_groups {key : String} {group : List Predicate → Predicate}
    (h : Filter.Groups key group) : ∃ join, Joins key group join := by
  rcases h with ⟨rfl, rfl⟩ | ⟨rfl, rfl⟩
  · exact ⟨.all, fun _ => rfl, fun truth _ h => truth_all truth h,
      fun _ => by rw [leaves, leavesEach_eq_flatMap], fun _ _ _ _ => rfl, fun _ _ _ => rfl⟩
  · exact ⟨.any, fun _ => rfl, fun truth children _ => truth_any truth children,
      fun _ => by rw [leaves, leavesEach_eq_flatMap], fun _ _ _ _ => rfl, fun _ _ _ => rfl⟩

/-- A group whose children are the items that ask for something, as a clause. -/
theorem Clauses.group {key : String} {group : List Predicate → Predicate}
    {join : List Truth → Truth} (hjoins : Joins key group join) {children : List Predicate}
    {items : (String → Test → Truth) → List Truth}
    (hitems : ∀ truth, children.map (truthByName truth) = items truth) :
    Clauses (if children.isEmpty then [] else [group children])
      (fun truth => (Truth.joined? join (items truth)).toList)
      ((children.flatMap leaves).map Leaf.condition) := by
  rcases children with _ | ⟨first, rest⟩
  · refine Clauses.nil.congr ?_ rfl
    intro truth
    rw [← hitems truth]
    rfl
  · have hne : first :: rest ≠ [] := List.cons_ne_nil _ _
    refine ⟨?_, ?_, ?_⟩
    · intro truth
      rw [← hitems truth]
      show Truth.all [truthByName truth (group (first :: rest))] = Truth.all [join _]
      rw [hjoins.truth truth hne]
    · intro truth
      rw [← hitems truth]
      simp [Truth.joined?]
    · simp [hjoins.leaves]

/-- The negation of what a filter is read as, as a clause. -/
theorem Clauses.not {raw : Json} {child : Option Predicate} (h : Agrees raw child) :
    Clauses (child.map Predicate.not).toList
      (fun truth => ((raw.filterTruth? truth).map Truth.negate).toList) raw.filterConditions := by
  refine Clauses.option ?_ ?_
  · intro truth
    rw [← h.truth]
    cases child with
    | none => rfl
    | some child => exact congrArg some (meaning_not _ child)
  · rw [← h.conditions]
    cases child <;> rfl

/-- The predicates of a list agree with what its items ask for, one by one. -/
theorem items_agree {path : List Step} {depth : Nat} {items : List Json}
    (ih : ∀ item ∈ items, ∀ path depth p,
      Filter.Yields (Filter.readFilter path depth item) p → Agrees item p)
    {position : Nat} {children : List Predicate}
    (h : Filter.Yields (Filter.readItems path position depth items) children) :
    (∀ truth, children.map (truthByName truth) = Json.itemTruths truth items) ∧
      (children.flatMap leaves).map Leaf.condition = Json.itemConditions items := by
  induction items generalizing position children with
  | nil =>
    rw [h.pure]
    exact ⟨fun _ => rfl, rfl⟩
  | cons item items ihItems =>
    rw [Filter.readItems] at h
    obtain ⟨child, hchild, h⟩ := h.bind
    obtain ⟨others, hothers, h⟩ := h.bind
    have hitem := ih item List.mem_cons_self _ _ _ hchild
    have hrest := ihItems (fun i hi => ih i (List.mem_cons_of_mem _ hi)) hothers
    rw [h.pure]
    constructor
    · intro truth
      rw [List.map_append, hrest.1, Json.itemTruths, ← hitem.truth]
      cases child <;> rfl
    · rw [List.flatMap_append, List.map_append, hrest.2, hitem.conditions, Json.itemConditions]

/-- What a member is read as agrees with what it asks for. -/
theorem member_agrees {path : List Step} {depth : Nat} {key : String} {raw : Json}
    {own : List Predicate}
    (ihRaw : ∀ path depth p, Filter.Yields (Filter.readFilter path depth raw) p → Agrees raw p)
    (ihItems : ∀ items, raw = .array items → ∀ item ∈ items, ∀ path depth p,
      Filter.Yields (Filter.readFilter path depth item) p → Agrees item p)
    (h : Filter.MemberYields path depth key raw own) :
    Clauses own
      (fun truth => (Json.memberTruth? truth key raw (raw.filterTruth? truth)
        (Json.arrayTruths truth raw)).toList)
      (Json.conditionsOfMember key raw raw.filterConditions (Json.arrayConditions raw)) := by
  cases h with
  | @empty group hkey =>
    obtain ⟨join, hjoins⟩ := joins_of_groups hkey
    have hown : Clauses [group []] (fun _ => [.no]) [] := by
      refine ⟨fun truth => ?_, by simp, by simp [hjoins.leaves]⟩
      rw [List.map_singleton, hjoins.empty]
    refine hown.congr (fun truth => ?_) ?_
    · rw [hjoins.member]
      rfl
    · rw [hjoins.conditions]
      rfl
  | @group group items children hkey hne hread =>
    obtain ⟨join, hjoins⟩ := joins_of_groups hkey
    obtain ⟨htruths, hconditions⟩ := items_agree (ihItems items rfl) hread
    have harray : (Json.array items).isEmptyArray = false := by
      cases items with
      | nil => exact absurd rfl hne
      | cons item items => rfl
    refine (Clauses.group hjoins htruths).congr (fun truth => ?_) ?_
    · rw [hjoins.member, harray]
      rfl
    · rw [hjoins.conditions, hconditions]
      rfl
  | not hkey hread =>
    subst hkey
    exact Clauses.not (ihRaw _ _ _ hread)
  | reserved hgroup hkey =>
    refine Clauses.nil.congr (fun truth => ?_) ?_
    · simp [Json.memberTruth?, hgroup, hkey]
    · simp [Json.conditionsOfMember, hgroup, hkey]
  | field hgroup hkey hread =>
    obtain ⟨field, rfl, rfl⟩ := Filter.readField_yields hread
    refine (Clauses.field field raw.fieldTests).congr (fun truth => ?_) ?_
    · simp [Json.memberTruth?, hgroup, hkey]
    · simp [Json.conditionsOfMember, hgroup, hkey]

/-- The clauses of members agree with what the members ask for. -/
theorem members_agree {path : List Step} {depth : Nat} {members : List (String × Json)}
    (ih : ∀ member ∈ members, (∀ path depth p,
      Filter.Yields (Filter.readFilter path depth member.2) p → Agrees member.2 p) ∧
      ∀ items, member.2 = .array items → ∀ item ∈ items, ∀ path depth p,
        Filter.Yields (Filter.readFilter path depth item) p → Agrees item p)
    {clauses : List Predicate} (h : Filter.Yields (Filter.readMembers path depth members) clauses) :
    Clauses clauses (fun truth => Json.memberTruths truth members)
      (Json.memberConditions members) := by
  induction members generalizing clauses with
  | nil =>
    rw [h.pure]
    exact Clauses.nil
  | cons member rest ihMembers =>
    obtain ⟨key, raw⟩ := member
    obtain ⟨own, others, rfl, hown, hothers⟩ := Filter.readMembers_yields h
    have hrest := ihMembers (fun m hm => ih m (List.mem_cons_of_mem _ hm)) hothers
    have hraw := ih (key, raw) List.mem_cons_self
    exact (member_agrees hraw.1 hraw.2 hown).append hrest

/-- **What is read of a filter agrees with it.** -/
theorem readFilter_agrees (document : Json) : ∀ path depth p,
    Filter.Yields (Filter.readFilter path depth document) p → Agrees document p := by
  induction document using Json.filter_induct with
  | object members ih =>
    intro path depth p h
    rw [Filter.readFilter] at h
    obtain ⟨-, -, h⟩ := h.bind
    obtain ⟨clauses, hclauses, h⟩ := h.bind
    rw [h.pure]
    exact (members_agree ih hclauses).agrees
  | other document hobject =>
    intro path depth p h
    rw [Filter.readFilter_of_ne_object path depth hobject] at h
    obtain ⟨-, -, h⟩ := h.bind
    exact h.throw.elim

/-- **A filter means what the document says.**  Whatever the tests of fields come to, the
    predicate that an accepted document is read as has the truth of the document; there is
    none exactly if the document asks for nothing; and its leaves are the conditions of the
    document in their order. -/
theorem ofJson_meaning {document : Json} {p : Option Predicate}
    (h : ofJson document = .ok p) :
    (∀ truth : String → Test → Truth,
      p.map (meaning fun l => truth l.field.name l.test) = document.filterTruth? truth) ∧
    (p = none ↔ ∀ truth, document.filterTruth? truth = none) ∧
    (p.toList.flatMap leaves).map (fun l => (l.field.name, l.test)) =
      document.filterConditions := by
  have hyields : Filter.Yields (Filter.readFilter [] 1 document) p := by
    unfold ofJson at h
    change Prod.fst <$> Filter.readFilter [] 1 document 0 = .ok p at h
    obtain ⟨⟨q, after⟩, hread, rfl⟩ := Filter.map_eq_ok h
    exact ⟨0, after, hread⟩
  have hagrees := readFilter_agrees document _ _ _ hyields
  refine ⟨hagrees.truth, ?_, hagrees.conditions⟩
  constructor
  · intro hnone truth
    rw [← hagrees.truth, hnone]
    rfl
  · intro hnone
    have h := hagrees.truth fun _ _ => .unknown
    rw [hnone] at h
    exact Option.map_eq_none_iff.mp h

/-- Keys and operators that are not known, a negation of nothing, an empty group, and a list
    with null. -/
theorem ofJson_meaning_ignoring :
    ∃ p, ofJson (.object
        [("$and", .array [.object [("$new", .null)],
          .object [("age", .object [("$ne", .null), ("$near", .null)])],
          .object [("$or", .array [])]]),
        ("$not", .object [("$or", .array [.object []])]),
        ("tags.kind", .array [.string "note", .null])]) = .ok (some p) ∧
      ∀ truth : String → Test → Truth,
        some (p.meaning fun l => truth l.field.name l.test) =
          some (.all [.all [truth "age" (.compare .ne .null), .no],
            truth "tags.kind" (.membership false [.text "note", .null])]) := by
  let read : Predicate :=
    .all [.all [.leaf ⟨⟨"age", [], by decide⟩, .compare .ne .null⟩, .any []],
      .leaf ⟨⟨"tags", ["kind"], by decide⟩, .membership false [.text "note", .null]⟩]
  have agrees {document : Json} {own : (String → Test → Truth) → Truth}
      (h : ofJson document = .ok (some read))
      (hown : ∀ truth, document.filterTruth? truth = some (own truth)) :
      ∃ p, ofJson document = .ok (some p) ∧ ∀ truth : String → Test → Truth,
        some (p.meaning fun l => truth l.field.name l.test) = some (own truth) :=
    ⟨read, h, fun truth => ((ofJson_meaning h).1 truth).trans (hown truth)⟩
  refine agrees rfl ?_
  intro truth
  -- every object is a conjunction of its own, be it of one member
  show some (Truth.all [.all [.all [.all [truth "age" (.compare .ne .null)]], .all [.no]],
    .all [truth "tags.kind" (.membership false [.text "note", .null])]]) = _
  simp only [Truth.all_singleton]

end Predicate

end KnowledgeSearch
