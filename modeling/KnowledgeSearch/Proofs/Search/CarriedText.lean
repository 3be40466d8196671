/-
  KnowledgeSearch/Proofs/Search/CarriedText.lean
  ==============================================
  **The texts that a predicate carries.**

  Reading a filter document limits the size of every text that it takes for a value of its
  own: scalars, the items of lists, patterns and paths.  What a JSON column is to contain or
  to be contained in is a value of the document that is taken over as it stands, whatever
  texts are in it and however deep.

  So the limit holds of everything that a predicate carries exactly if it holds of these
  payloads (`Predicate.texts_of_ofJson`), and a payload can be any value but null
  (`Predicate.ofJson_operator`).
-/
import KnowledgeSearch.Proofs.Search.Limits

namespace KnowledgeSearch

/-! ### Texts -/

namespace Json

mutual

/-- The texts among the values of a document, at any depth. -/
def texts : Json → List String
  | .string text => [text]
  | .array items => itemTexts items
  | .object members => memberTexts members
  | _ => []

def itemTexts : List Json → List String
  | [] => []
  | item :: items => texts item ++ itemTexts items

def memberTexts : List (String × Json) → List String
  | [] => []
  | (_, value) :: members => texts value ++ memberTexts members

end

end Json

/-- A text that the limits of filter documents let through. -/
def IsShort (text : String) : Prop := text.utf8ByteSize ≤ Filter.maxStringBytes

def Scalar.texts : Scalar → List String
  | .text s => [s]
  | _ => []

theorem Scalar.WithinLimits.isShort {value : Scalar} (h : value.WithinLimits) :
    ∀ text ∈ value.texts, IsShort text := by
  intro text htext
  cases value with
  | text s =>
    rw [List.mem_singleton.mp htext]
    exact h
  | _ => cases htext

/-- The operators whose operands are taken over as they stand. -/
def Operator.TakesOver (operator : Operator) : Prop :=
  operator = .contains ∨ operator = .containedBy

namespace Test

/-- The JSON value that a test carries. -/
def payload? : Test → Option Json
  | .contains value | .containedBy value => some value
  | _ => none

/-- The texts that a test carries. -/
def texts : Test → List String
  | .compare _ value => value.texts
  | .membership _ values => values.flatMap Scalar.texts
  | .presence _ => []
  | .contains value | .containedBy value => value.texts
  | .pathExists path => [path]

theorem texts_of_payload {test : Test} {payload : Json} (h : test.payload? = some payload) :
    test.texts = payload.texts := by
  cases test with
  | contains value | containedBy value =>
    cases h
    rfl
  | _ => cases h

/-- Without a payload, a test within limits carries short texts only. -/
theorem WithinLimits.isShort {test : Test} (h : test.WithinLimits)
    (hpayload : test.payload? = none) : ∀ text ∈ test.texts, IsShort text := by
  intro text htext
  cases test with
  | compare comparison value => exact h.1.isShort text htext
  | membership negated values =>
    obtain ⟨value, hvalue, htext⟩ := List.mem_flatMap.mp htext
    exact (h.2 value hvalue).isShort text htext
  | presence expected => cases htext
  | contains value | containedBy value => cases hpayload
  | pathExists path =>
    rw [List.mem_singleton.mp htext]
    exact h

end Test

/-- A test has a payload exactly if its operator takes its operand over, and then the payload
    is the operand. -/
theorem Operator.payload?_eq_some_iff {operator : Operator} {operand payload : Json} {test : Test}
    (htest : operator.test? operand = some test) :
    test.payload? = some payload ↔ operator.TakesOver ∧ operand = payload := by
  have compare {comparison : Comparison}
      (htest : operand.scalar?.map (.compare comparison) = some test) : test.payload? = none := by
    obtain ⟨value, -, rfl⟩ := Option.map_eq_some_iff.mp htest
    rfl
  have membership {negated : Bool}
      (htest : (operand.toList?.bind fun items => (items.mapM Json.scalar?).map
        (.membership negated)) = some test) : test.payload? = none := by
    obtain ⟨items, -, hitems⟩ := Option.bind_eq_some_iff.mp htest
    obtain ⟨values, -, rfl⟩ := Option.map_eq_some_iff.mp hitems
    rfl
  cases operator with
  | contains | containedBy =>
    cases htest
    simp [Test.payload?, TakesOver]
  | isIn | notIn => simp [membership htest, TakesOver]
  | isPresent | pathExists =>
    obtain ⟨value, -, rfl⟩ := Option.map_eq_some_iff.mp htest
    simp [Test.payload?, TakesOver]
  | _ => simp [compare htest, TakesOver]

/-! ### Bound texts -/

/-- The texts that a parameter brings to the database as values. -/
def Parameter.texts : Parameter → List String
  | .text s => [s]
  | .json value => value.texts
  | _ => []

theorem Parameter.texts_ofScalar (value : Scalar) : (ofScalar value).texts = value.texts := by
  cases value <;> rfl

/-- Inside a JSON column, numbers and truth values are compared as texts that are made of
    them. -/
theorem FieldPath.mem_texts_parameter {field : FieldPath} {value : Scalar} {text : String}
    (h : text ∈ (field.parameter value).texts) :
    text ∈ value.texts ∨ value.texts = [] ∧ value.toText? = some text := by
  unfold parameter at h
  split at h
  · cases value with
    | text s => exact Or.inl h
    | null => cases h
    | bool b => cases b <;> exact Or.inr ⟨rfl, by rw [List.mem_singleton.mp h]; rfl⟩
    | int n => exact Or.inr ⟨rfl, by rw [List.mem_singleton.mp h]; rfl⟩
    | float x => exact Or.inr ⟨rfl, by rw [List.mem_singleton.mp h]; rfl⟩
  · exact Or.inl (Parameter.texts_ofScalar value ▸ h)

namespace FieldPath

variable {field : FieldPath} {d : Dialect} {parameter : Parameter}

theorem mem_params_comparison {comparison : Comparison} {value : Scalar}
    (h : parameter ∈ (field.comparisonCondition d comparison value).params) :
    parameter = field.parameter value ∨ parameter = .ofScalar value := by
  unfold comparisonCondition at h
  dsimp only at h
  split at h
  · cases h
  · split at h
    · cases d <;> exact Or.inl (by simpa [Dialect.ilike, Fragment.params, Fragment.bind] using h)
    · split at h
      · exact Or.inr (by simpa [Fragment.params] using h)
      · exact Or.inl (by simpa [Fragment.params] using h)

end FieldPath

/-- A leaf binds no texts but its own and those made of the numbers and truth values that it
    compares with. -/
theorem Leaf.mem_texts_params {l : Leaf} {d : Dialect} {parameter : Parameter} {text : String}
    (hparameter : parameter ∈ l.params d) (htext : text ∈ parameter.texts) :
    text ∈ l.test.texts ∨
      ∃ value ∈ l.test.values, value.texts = [] ∧ value.toText? = some text := by
  obtain ⟨field, test⟩ := l
  unfold params Test.outcome at hparameter
  split at hparameter
  · cases hparameter
  · cases test with
    | compare comparison value =>
      have hmade : text ∈ value.texts ∨ value.texts = [] ∧ value.toText? = some text := by
        rcases FieldPath.mem_params_comparison hparameter with rfl | rfl
        · exact FieldPath.mem_texts_parameter htext
        · exact Or.inl (Parameter.texts_ofScalar value ▸ htext)
      exact hmade.imp_right fun h => ⟨value, List.mem_singleton_self _, h⟩
    | membership negated values =>
      have hmem : parameter ∈ (values.filter fun v => !v.isNull).map field.parameter := by
        rw [← field.params_membership d negated values]
        exact hparameter
      obtain ⟨value, hvalue, rfl⟩ := List.mem_map.mp hmem
      have hvalue := List.mem_of_mem_filter hvalue
      rcases FieldPath.mem_texts_parameter htext with htext | hmade
      · exact Or.inl (List.mem_flatMap.mpr ⟨value, hvalue, htext⟩)
      · exact Or.inr ⟨value, hvalue, hmade⟩
    | presence expected =>
      -- presence binds nothing
      exfalso
      revert hparameter
      simp only [Outcome.condition?, FieldPath.presenceCondition]
      split <;> split <;> simp [Fragment.params]
    | contains value | containedBy value | pathExists path =>
      rw [List.mem_singleton.mp hparameter] at htext
      exact Or.inl htext

namespace Predicate

/-! ### Payloads -/

/-- A document with one operator of one field is its test, if the operator takes the operand. -/
theorem ofJson_operator {name : String} {field : FieldPath}
    (hfield : FieldPath.ofString? name = some field) {operator : Operator} {operand : Json}
    (htakes : operator.Takes operand) {test : Test} (htest : operator.test? operand = some test) :
    ofJson (.object [(name, .object [(operator.key, operand)])]) =
      .ok (some (.leaf ⟨field, test⟩)) := by
  have hread (path : List Step) : Filter.readTest path operator operand = .ok test := by
    obtain ⟨found, hfound⟩ := Filter.readTest_isOk_iff.mpr htakes
    rw [hfound, Option.some_inj.mp ((Filter.readTest_eq_ok hfound).symm.trans htest)]
  have hvisit (path : List Step) : Filter.visit path (1 + 1) 1 = .ok ((), 2) := by
    rw [Filter.visit_eq, if_neg (by decide), if_neg (by decide)]
  have hfieldRead : Filter.readField name [.member name] 1 (.object [(operator.key, operand)]) 1 =
      .ok ([.leaf ⟨field, test⟩], 2) := by
    rw [Filter.readField, hfield]
    simp only [Filter.readOperators, Operator.ofKey?_key, hread]
    rw [Filter.bind_eq_of_ok (hvisit _)]
    rfl
  exact ofJson_field hfield hfieldRead

/-! ### Carried texts -/

/-- The texts that a predicate carries. -/
def texts (p : Option Predicate) : List String :=
  (p.toList.flatMap leaves).flatMap fun l => l.test.texts

/-- **The limit on texts holds of all that a predicate carries, its payloads apart.**  In the
    predicate of an accepted document every text outside a payload has at most 4096 bytes.  The
    payloads are the operands of the operators that take them over, as they stand in the
    document, so all texts that the predicate carries are within the limit exactly if all
    texts in these operands are.  A condition of the predicate binds no other texts in either
    dialect, but for those made of numbers and truth values. -/
theorem texts_of_ofJson {document : Json} {p : Option Predicate} (h : ofJson document = .ok p) :
    (∀ l ∈ p.toList.flatMap leaves, l.test.payload? = none →
      ∀ text ∈ l.test.texts, IsShort text) ∧
    (∀ payload, (∃ l ∈ p.toList.flatMap leaves, l.test.payload? = some payload) ↔
      ∃ q ∈ document.filterQuestions, q.operator.TakesOver ∧ q.operand = payload) ∧
    ((∀ text ∈ texts p, IsShort text) ↔
      ∀ q ∈ document.filterQuestions, q.operator.TakesOver →
        ∀ text ∈ q.operand.texts, IsShort text) ∧
    ∀ d, ∀ parameter ∈ (compile d p).params, ∀ text ∈ parameter.texts,
      text ∈ texts p ∨
        ∃ l ∈ p.toList.flatMap leaves, ∃ value ∈ l.test.values,
          value.texts = [] ∧ value.toText? = some text := by
  have hasks := asks_of_ofJson h
  have htakes := takes_of_ofJson h
  have hshort : ∀ l ∈ p.toList.flatMap leaves, l.test.payload? = none →
      ∀ text ∈ l.test.texts, IsShort text := by
    intro l hl
    obtain ⟨q, hq, hql⟩ := exists_of_forall₂_of_mem hasks hl
    exact (Operator.withinLimits_test? (htakes q hq) hql.2).isShort
  have hpayload : ∀ payload, (∃ l ∈ p.toList.flatMap leaves, l.test.payload? = some payload) ↔
      ∃ q ∈ document.filterQuestions, q.operator.TakesOver ∧ q.operand = payload := by
    intro payload
    constructor
    · rintro ⟨l, hl, hcarries⟩
      obtain ⟨q, hq, hql⟩ := exists_of_forall₂_of_mem hasks hl
      exact ⟨q, hq, (Operator.payload?_eq_some_iff hql.2).mp hcarries⟩
    · rintro ⟨q, hq, hoperand⟩
      obtain ⟨l, hl, hql⟩ := exists_of_forall₂_of_mem hasks.flip hq
      exact ⟨l, hl, (Operator.payload?_eq_some_iff hql.2).mpr hoperand⟩
  refine ⟨hshort, hpayload, ⟨?_, ?_⟩, ?_⟩
  · intro hall q hq htakesOver text htext
    obtain ⟨l, hl, hcarries⟩ := (hpayload q.operand).mpr ⟨q, hq, htakesOver, rfl⟩
    rw [← Test.texts_of_payload hcarries] at htext
    exact hall text (List.mem_flatMap.mpr ⟨l, hl, htext⟩)
  · intro hall text htext
    obtain ⟨l, hl, htext⟩ := List.mem_flatMap.mp htext
    cases hcarries : l.test.payload? with
    | none => exact hshort l hl hcarries text htext
    | some payload =>
      obtain ⟨q, hq, htakesOver, rfl⟩ := (hpayload payload).mp ⟨l, hl, hcarries⟩
      rw [Test.texts_of_payload hcarries] at htext
      exact hall q hq htakesOver text htext
  · intro d parameter hparameter text htext
    obtain ⟨l, hl, hbound⟩ := List.mem_flatMap.mp ((params_compile d p).subset hparameter)
    rcases l.mem_texts_params hbound htext with hown | hmade
    · exact Or.inl (List.mem_flatMap.mpr ⟨l, hl, hown⟩)
    · exact Or.inr ⟨l, hl, hmade⟩

/-- A filter with a text inside a payload, and a pattern. -/
def notedFilter : Json :=
  .object [("data", .object [("$jsonb_contains", .object [("note", .string "sea")])]),
    ("title", .object [("$like", .string "a%")])]

/-- Both of its texts are short, since the one in the payload is. -/
theorem texts_of_ofJson_noted :
    ∃ p, ofJson notedFilter = .ok (some p) ∧ texts (some p) = ["sea", "a%"] ∧
      ∀ text ∈ texts (some p), IsShort text := by
  let read : Predicate :=
    .all [.leaf ⟨⟨"data", [], by decide⟩, .contains (.object [("note", .string "sea")])⟩,
      .leaf ⟨⟨"title", [], by decide⟩, .compare .like (.text "a%")⟩]
  have hread : ofJson notedFilter = .ok (some read) := rfl
  have hquestions : notedFilter.filterQuestions =
      [⟨"data", .contains, .object [("note", .string "sea")]⟩,
        ⟨"title", .like, .string "a%"⟩] := rfl
  obtain ⟨-, -, hshort, -⟩ := texts_of_ofJson hread
  refine ⟨read, hread, rfl, hshort.mpr ?_⟩
  rw [hquestions]
  intro q hq htakesOver text htext
  rcases List.mem_pair.mp hq with rfl | rfl
  · rw [List.mem_singleton.mp htext]
    exact (by decide : 3 ≤ 4096)
  · rcases htakesOver with h | h <;> cases h

theorem utf8ByteSize_replicate (n : Nat) (c : Char) :
    (String.ofList (List.replicate n c)).utf8ByteSize = n * c.utf8Size := by
  induction n with
  | zero => rw [Nat.zero_mul]; rfl
  | succ n ih =>
    rw [List.replicate_succ', String.ofList_append, String.utf8ByteSize_append, ih, Nat.succ_mul]
    simp

/-- A text of 4097 bytes that a JSON column is to contain is accepted and bound. -/
theorem texts_exceed_limit :
    ∃ p text, ofJson (.object [("data", .object [("$jsonb_contains",
        .string (String.ofList (List.replicate 4097 'x')))])]) = .ok (some p) ∧
      text ∈ texts (some p) ∧ ¬IsShort text ∧
      (compile .postgres (some p)).params = [.json (.string text)] := by
  have hfield : FieldPath.ofString? "data" = some ⟨"data", [], by decide⟩ := by decide +kernel
  generalize htext : String.ofList (List.replicate 4097 'x') = text
  have htakes : Operator.contains.Takes (.string text) := nofun
  have htest : Operator.contains.test? (.string text) = some (.contains (.string text)) := rfl
  have hread := ofJson_operator hfield htakes htest
  refine ⟨_, text, hread, List.mem_singleton_self _, ?_, rfl⟩
  rw [IsShort, ← htext, utf8ByteSize_replicate]
  decide

end Predicate

end KnowledgeSearch
