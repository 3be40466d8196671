/-
  KnowledgeSearch/Proofs/Filter/Question.lean
  ===========================================
  **Where the leaves of a filter come from.**

  A condition of a filter document holds a test, and a test no longer tells what the
  document writes: a number is a 64-bit integer or a double by then.  A `Question` is what
  the document itself holds at that place, a name with an operator and an operand, and
  `Json.filterQuestions` lists the questions of a document as they stand in it.

  Conditions are made of questions (`Json.filterConditions_eq`), and a question of a
  document that is accepted always makes one (`Json.filterQuestions_takes`).  So the leaves
  of the predicate that is read answer to the questions one by one
  (`Predicate.asks_of_ofJson`).
-/
import KnowledgeSearch.Proofs.Filter.Grammar
import KnowledgeSearch.Proofs.Steps

namespace KnowledgeSearch

/-- What a filter document asks of a field. -/
structure Question where
  field : String
  operator : Operator
  operand : Json

namespace Question

/-- The condition that a question makes, if its operand suits its operator. -/
def condition? (q : Question) : Option (String × Test) :=
  (q.operator.test? q.operand).map (Prod.mk q.field)

/-- A leaf puts a question: it is about the same field and makes the same test. -/
def Asks (q : Question) (l : Leaf) : Prop :=
  l.field.name = q.field ∧ q.operator.test? q.operand = some l.test

/-- The values that the document writes for a question to compare with. -/
def operands (q : Question) : List Json :=
  match q.operator with
  | .isIn | .notIn => q.operand.toList?.getD []
  | .isPresent | .contains | .containedBy | .pathExists => []
  | _ => [q.operand]

end Question

namespace Json

def fieldQuestions (name : String) : Json → List Question
  | .object operators => operators.filterMap fun member =>
    (Operator.ofKey? member.1).map fun operator => ⟨name, operator, member.2⟩
  | .array items => [⟨name, .isIn, .array items⟩]
  | scalar => [⟨name, .eq, scalar⟩]

/-- The questions of a member of a filter, given those of its value as a filter and as a list
    of filters. -/
def questionsOfMember (key : String) (raw : Json) (filter items : List Question) :
    List Question :=
  if key = "$and" ∨ key = "$or" then items
  else if key = "$not" then filter
  else if Filter.isReserved key then []
  else raw.fieldQuestions key

mutual

/-- The questions of a filter in the order of the document. -/
def filterQuestions : Json → List Question
  | .object members => memberQuestions members
  | _ => []

def memberQuestions : List (String × Json) → List Question
  | [] => []
  | (key, raw) :: rest =>
    questionsOfMember key raw (filterQuestions raw) (arrayQuestions raw) ++ memberQuestions rest

def arrayQuestions : Json → List Question
  | .array items => itemQuestions items
  | _ => []

def itemQuestions : List Json → List Question
  | [] => []
  | item :: items => filterQuestions item ++ itemQuestions items

end

/-! ### Conditions are made of questions -/

theorem fieldTests_eq (name : String) (raw : Json) :
    raw.fieldTests.map (Prod.mk name) =
      (raw.fieldQuestions name).filterMap Question.condition? := by
  cases raw with
  | object operators =>
    simp only [fieldTests, fieldQuestions, List.map_filterMap, List.filterMap_filterMap]
    congr 1
    funext member
    cases Operator.ofKey? member.1 <;> rfl
  | array items =>
    have htest : Operator.isIn.test? (.array items) =
        (items.mapM scalar?).map (.membership false) := rfl
    simp only [fieldTests, fieldQuestions, List.filterMap_cons, Question.condition?, htest]
    cases items.mapM scalar? <;> rfl
  | _ => rfl

theorem conditionsOfMember_eq {key : String} {raw : Json} {filter items : List Question} :
    conditionsOfMember key raw (filter.filterMap Question.condition?)
        (items.filterMap Question.condition?) =
      (questionsOfMember key raw filter items).filterMap Question.condition? := by
  unfold conditionsOfMember questionsOfMember
  split
  · rfl
  · split
    · rfl
    · split
      · rfl
      · exact fieldTests_eq key raw

theorem itemConditions_eq {items : List Json}
    (ih : ∀ item ∈ items, item.filterConditions =
      item.filterQuestions.filterMap Question.condition?) :
    itemConditions items = (itemQuestions items).filterMap Question.condition? := by
  induction items with
  | nil => rfl
  | cons item items ihItems =>
    rw [itemConditions, itemQuestions, List.filterMap_append, ih item List.mem_cons_self,
      ihItems fun i hi => ih i (List.mem_cons_of_mem _ hi)]

theorem memberConditions_eq {members : List (String × Json)}
    (ih : ∀ member ∈ members,
      member.2.filterConditions = member.2.filterQuestions.filterMap Question.condition? ∧
      member.2.arrayConditions = member.2.arrayQuestions.filterMap Question.condition?) :
    memberConditions members = (memberQuestions members).filterMap Question.condition? := by
  induction members with
  | nil => rfl
  | cons member rest ihMembers =>
    obtain ⟨key, raw⟩ := member
    obtain ⟨hfilter, hitems⟩ := ih (key, raw) List.mem_cons_self
    dsimp only at hfilter hitems
    rw [memberConditions, memberQuestions, List.filterMap_append, hfilter, hitems,
      conditionsOfMember_eq, ihMembers fun m hm => ih m (List.mem_cons_of_mem _ hm)]

/-- The conditions of a filter are those that its questions make. -/
theorem filterConditions_eq (document : Json) :
    document.filterConditions = document.filterQuestions.filterMap Question.condition? ∧
      document.arrayConditions = document.arrayQuestions.filterMap Question.condition? := by
  induction document using Json.induct with
  | object members ih => exact ⟨memberConditions_eq ih, rfl⟩
  | array items ih => exact ⟨rfl, itemConditions_eq fun item hitem => (ih item hitem).1⟩
  | _ => exact ⟨rfl, rfl⟩

/-! ### Questions of accepted documents -/

theorem mem_itemQuestions {items : List Json} {q : Question} :
    q ∈ itemQuestions items ↔ ∃ item ∈ items, q ∈ item.filterQuestions := by
  induction items with
  | nil => simp [itemQuestions]
  | cons item items ih => simp [itemQuestions, ih]

theorem mem_memberQuestions {members : List (String × Json)} {q : Question} :
    q ∈ memberQuestions members ↔ ∃ member ∈ members,
      q ∈ questionsOfMember member.1 member.2 member.2.filterQuestions
        member.2.arrayQuestions := by
  induction members with
  | nil => simp [memberQuestions]
  | cons member rest ih =>
    obtain ⟨key, raw⟩ := member
    simp [memberQuestions, ih]

theorem fieldQuestions_takes {name : String} {depth : Nat} {raw : Json}
    (h : Filter.IsFieldValue depth raw) :
    ∀ q ∈ raw.fieldQuestions name, q.operator.Takes q.operand := by
  intro q hq
  cases raw with
  | object operators =>
    obtain ⟨member, hmember, hq⟩ := List.mem_filterMap.mp hq
    obtain ⟨operator, hkey, rfl⟩ := Option.map_eq_some_iff.mp hq
    exact (h member hmember operator hkey).2
  | _ =>
    rw [List.mem_singleton.mp hq]
    exact h.2

theorem questionsOfMember_takes {depth : Nat} {key : String} {raw : Json}
    {filter items : List Question} (h : Filter.WellFormedMember depth key raw)
    (hfilter : Filter.WellFormed (depth + 1) raw → ∀ q ∈ filter, q.operator.Takes q.operand)
    (hitems : ∀ own, raw = .array own → (∀ item ∈ own, Filter.WellFormed (depth + 1) item) →
      ∀ q ∈ items, q.operator.Takes q.operand) :
    ∀ q ∈ questionsOfMember key raw filter items, q.operator.Takes q.operand := by
  intro q hq
  rw [Filter.wellFormedMember_iff] at h
  unfold questionsOfMember at hq
  split at hq
  · rename_i hgroup
    rw [if_pos hgroup] at h
    obtain ⟨own, rfl, hown⟩ := h
    exact hitems own rfl hown q hq
  · rename_i hgroup
    rw [if_neg hgroup] at h
    split at hq
    · rename_i hnot
      rw [if_pos hnot] at h
      exact hfilter h q hq
    · rename_i hnot
      rw [if_neg hnot] at h
      split at hq
      · cases hq
      · rename_i hkey
        exact fieldQuestions_takes (h.resolve_left hkey).2 q hq

/-- Every operator of a document that is in order takes its operand. -/
theorem filterQuestions_takes (document : Json) :
    (∀ depth, Filter.WellFormed depth document →
      ∀ q ∈ document.filterQuestions, q.operator.Takes q.operand) ∧
    ∀ items, document = .array items → ∀ depth, (∀ item ∈ items, Filter.WellFormed depth item) →
      ∀ q ∈ document.arrayQuestions, q.operator.Takes q.operand := by
  induction document using Json.induct with
  | object members ih =>
    refine ⟨?_, fun _ h => nomatch h⟩
    rintro depth ⟨-, hmembers⟩ q hq
    obtain ⟨member, hmember, hq⟩ := mem_memberQuestions.mp hq
    obtain ⟨hfilter, hitems⟩ := ih member hmember
    exact questionsOfMember_takes (hmembers member hmember) (hfilter (depth + 1))
      (fun own hown => hitems own hown (depth + 1)) q hq
  | array items ih =>
    refine ⟨fun _ h => (nomatch h), ?_⟩
    rintro items' ⟨⟩ depth hitems q hq
    obtain ⟨item, hitem, hq⟩ := mem_itemQuestions.mp hq
    exact (ih item hitem).1 depth (hitems item hitem) q hq
  | _ => exact ⟨fun _ h => (nomatch h), fun _ h => (nomatch h)⟩

end Json

/-! ### Leaves -/

/-- An operator makes a test with every operand that it takes. -/
theorem Operator.exists_test {operator : Operator} {operand : Json}
    (h : operator.Takes operand) : ∃ test, operator.test? operand = some test := by
  obtain ⟨test, htest⟩ := (@Filter.readTest_isOk_iff [] operator operand).mpr h
  exact ⟨test, Filter.readTest_eq_ok htest⟩

theorem Question.exists_condition {q : Question} (h : q.operator.Takes q.operand) :
    ∃ condition, q.condition? = some condition := by
  obtain ⟨test, htest⟩ := Operator.exists_test h
  exact ⟨(q.field, test), by rw [condition?, htest]; rfl⟩

theorem Question.asks_iff {q : Question} {l : Leaf} :
    q.Asks l ↔ q.condition? = some l.condition := by
  rw [Asks, condition?, Option.map_eq_some_iff, Leaf.condition]
  constructor
  · rintro ⟨hfield, htest⟩
    exact ⟨l.test, htest, by rw [hfield]⟩
  · rintro ⟨test, htest, h⟩
    injection h with hfield hmade
    exact ⟨hfield.symm, by rw [htest, hmade]⟩

theorem Filter.readFilter_of_ofJson {document : Json} {p : Option Predicate}
    (h : Predicate.ofJson document = .ok p) :
    ∃ after, readFilter [] 1 document 0 = .ok (p, after) := by
  unfold Predicate.ofJson at h
  change Prod.fst <$> readFilter [] 1 document 0 = .ok p at h
  obtain ⟨⟨q, after⟩, hread, rfl⟩ := map_eq_ok h
  exact ⟨after, hread⟩

/-- Every operator of an accepted document takes its operand. -/
theorem Predicate.takes_of_ofJson {document : Json} {p : Option Predicate}
    (h : ofJson document = .ok p) : ∀ q ∈ document.filterQuestions, q.operator.Takes q.operand := by
  obtain ⟨after, hread⟩ := Filter.readFilter_of_ofJson h
  have hwell := ((Filter.counts_readFilter document [] 1 0 (Nat.zero_le _)).1 p after hread).1
  exact (document.filterQuestions_takes).1 1 hwell

/-- **The leaves of a predicate that is read put the questions of the document**, one by one
    and in their order. -/
theorem Predicate.asks_of_ofJson {document : Json} {p : Option Predicate}
    (h : ofJson document = .ok p) :
    List.Forall₂ Question.Asks document.filterQuestions (p.toList.flatMap leaves) := by
  obtain ⟨after, hread⟩ := Filter.readFilter_of_ofJson h
  have hconditions := (readFilter_agrees document _ _ _ ⟨0, after, hread⟩).conditions
  have hmade : ∀ q ∈ document.filterQuestions, ∃ condition, q.condition? = some condition :=
    fun q hq => Question.exists_condition (takes_of_ofJson h q hq)
  have hall := forall₂_filterMap hmade
  rw [← document.filterConditions_eq.1, ← hconditions, List.forall₂_map_right_iff] at hall
  exact hall.imp fun _ _ => Question.asks_iff.mpr

end KnowledgeSearch
