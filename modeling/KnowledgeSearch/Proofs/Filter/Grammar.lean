/-
  KnowledgeSearch/Proofs/Filter/Grammar.lean
  ==========================================
  **The filter documents that are accepted.**

  Which documents are filters is said here twice.  `Filter.WellFormed` is the grammar: it
  follows the document downwards and knows the depth at which it stands, but nothing of
  reading.  `Filter.visits` counts the nodes of a document: its objects that stand for a
  filter, its fields with a scalar or a list, and the operators that are known.

  Reading does both at once, in the order of the document, and gives up at the first
  fault.  `Counts` is what makes the two accounts agree: whatever has been counted before,
  a reader succeeds exactly if what it reads is in order and its nodes still have room, and
  then it has counted just those.  It is kept when readers follow each other, so one
  induction over the document is enough (`Predicate.ofJson_isOk_iff`).
-/
import KnowledgeSearch.Proofs.Filter.Document
import KnowledgeSearch.Proofs.Text.Identifier

namespace KnowledgeSearch

/-! ### Operands -/

namespace Json

def IsShortText : Json → Prop
  | .string text => text.utf8ByteSize ≤ Filter.maxStringBytes
  | _ => False

def IsScalar : Json → Prop
  | .string text => text.utf8ByteSize ≤ Filter.maxStringBytes
  | .array _ | .object _ => False
  | _ => True

def IsScalarList : Json → Prop
  | .array items => items.length ≤ Filter.maxListItems ∧ ∀ item ∈ items, item.IsScalar
  | _ => False

end Json

/-- Whether an operator can be asked with an operand. -/
def Operator.Takes (operator : Operator) (operand : Json) : Prop :=
  match operator with
  | .eq | .ne => operand.IsScalar
  | .gt | .gte | .lt | .lte => operand.IsScalar ∧ operand ≠ .null
  | .like | .ilike | .pathExists => operand.IsShortText
  | .isIn | .notIn => operand.IsScalarList
  | .isPresent => ∃ expected, operand = .bool expected
  | .contains | .containedBy => operand ≠ .null

/-! ### The grammar -/

namespace Filter

/-- Plain identifiers with dots between them. -/
def IsFieldName (name : String) : Prop :=
  ∃ parts : List String, parts ≠ [] ∧ (∀ part ∈ parts, Text.isIdentifier part = true) ∧
    name = String.intercalate "." parts

/-- Whether a field can be asked for a value at a depth.  An object of operators stands
    there with those of them that are known, and unknown ones may be anything. -/
def IsFieldValue (depth : Nat) : Json → Prop
  | .object operators => ∀ member ∈ operators, ∀ operator,
      Operator.ofKey? member.1 = some operator → depth ≤ maxDepth ∧ operator.Takes member.2
  | .array items => depth ≤ maxDepth ∧ (Json.array items).IsScalarList
  | scalar => depth ≤ maxDepth ∧ scalar.IsScalar

mutual

/-- The documents that are filters at a depth. -/
inductive WellFormed : Nat → Json → Prop where
  | object {depth : Nat} {members : List (String × Json)} (hdepth : depth ≤ maxDepth)
      (h : ∀ member ∈ members, WellFormedMember depth member.1 member.2) :
      WellFormed depth (.object members)

/-- The members that the object of a filter can have. -/
inductive WellFormedMember : Nat → String → Json → Prop where
  | group {depth : Nat} {key : String} {items : List Json} (hkey : key = "$and" ∨ key = "$or")
      (h : ∀ item ∈ items, WellFormed (depth + 1) item) :
      WellFormedMember depth key (.array items)
  | not {depth : Nat} {raw : Json} (h : WellFormed (depth + 1) raw) :
      WellFormedMember depth "$not" raw
  | reserved {depth : Nat} {key : String} {raw : Json}
      (hgroup : key ≠ "$and" ∧ key ≠ "$or" ∧ key ≠ "$not") (hkey : isReserved key = true) :
      WellFormedMember depth key raw
  | field {depth : Nat} {key : String} {raw : Json} (hkey : isReserved key = false)
      (hname : IsFieldName key) (h : IsFieldValue (depth + 1) raw) :
      WellFormedMember depth key raw

end

/-! ### Nodes -/

def fieldVisits : Json → Nat
  | .object operators => operators.countP fun member => (Operator.ofKey? member.1).isSome
  | _ => 1

mutual

/-- The number of nodes of a filter. -/
def visits : Json → Nat
  | .object members => 1 + memberVisits members
  | _ => 0

def memberVisits : List (String × Json) → Nat
  | [] => 0
  | (key, raw) :: rest =>
    (if key = "$and" ∨ key = "$or" then arrayVisits raw
      else if key = "$not" then visits raw
      else if isReserved key then 0
      else fieldVisits raw) + memberVisits rest

def arrayVisits : Json → Nat
  | .array items => itemVisits items
  | _ => 0

def itemVisits : List Json → Nat
  | [] => 0
  | item :: items => visits item + itemVisits items

end

/-! ### Readers that count -/

section Counts

variable {α β : Type} {P Q : Prop} {a b : Nat}

/-- A reader that succeeds exactly if what it reads is in order and there is room for its
    nodes, which it then has counted. -/
def Counts (reading : Reading α) (fits : Prop) (count : Nat) : Prop :=
  ∀ nodes, nodes ≤ maxNodes →
    (∀ value after, reading nodes = .ok (value, after) →
      fits ∧ after = nodes + count ∧ after ≤ maxNodes) ∧
    (fits → nodes + count ≤ maxNodes → ∃ value, reading nodes = .ok (value, nodes + count))

theorem Counts.congr {reading : Reading α} (h : Counts reading P a) (hfits : P ↔ Q)
    (hcount : P → a = b) : Counts reading Q b := by
  intro nodes hnodes
  obtain ⟨hread, hfit⟩ := h nodes hnodes
  constructor
  · intro value after hok
    obtain ⟨hp, rfl, hroom⟩ := hread value after hok
    exact ⟨hfits.mp hp, by rw [hcount hp], hroom⟩
  · intro hq hroom
    have hp := hfits.mpr hq
    rw [← hcount hp] at hroom ⊢
    exact hfit hp hroom

/-- Readers that follow each other count one after the other. -/
theorem Counts.bind {reading : Reading α} {next : α → Reading β} (h : Counts reading P a)
    (hnext : ∀ value, Counts (next value) Q b) : Counts (reading >>= next) (P ∧ Q) (a + b) := by
  intro nodes hnodes
  obtain ⟨hread, hfit⟩ := h nodes hnodes
  have hbind : (reading >>= next) nodes = reading nodes >>= fun step => next step.1 step.2 := rfl
  constructor
  · intro value after hok
    rw [hbind] at hok
    obtain ⟨⟨first, middle⟩, hfirst, hok⟩ := bind_eq_ok hok
    obtain ⟨hp, rfl, hroom⟩ := hread first middle hfirst
    obtain ⟨hq, rfl, hroom⟩ := (hnext first _ hroom).1 value after hok
    exact ⟨⟨hp, hq⟩, by omega, hroom⟩
  · rintro ⟨hp, hq⟩ hroom
    obtain ⟨first, hfirst⟩ := hfit hp (by omega)
    obtain ⟨value, hvalue⟩ := (hnext first (nodes + a) (by omega)).2 hq (by omega)
    refine ⟨value, ?_⟩
    rw [hbind, hfirst, ← Nat.add_assoc]
    exact hvalue

theorem Counts.pure (value : α) : Counts (pure value) True 0 := by
  intro nodes hnodes
  constructor
  · intro value' after hok
    cases hok
    exact ⟨True.intro, rfl, hnodes⟩
  · intro _ _
    exact ⟨value, rfl⟩

theorem Counts.throw (e : FilterError) (count : Nat) :
    Counts (throw e : Reading α) False count := by
  intro nodes _
  exact ⟨fun _ _ hok => (nomatch hok), fun h => h.elim⟩

/-- A check that counts nothing. -/
theorem Counts.lift {result : Except FilterError α} (h : (∃ value, result = .ok value) ↔ P) :
    Counts (liftM result : Reading α) P 0 := by
  intro nodes hnodes
  constructor
  · intro value after hok
    cases hresult : result with
    | error e =>
      rw [hresult] at hok
      cases hok
    | ok found =>
      rw [hresult] at hok
      cases hok
      exact ⟨h.mp ⟨_, hresult⟩, rfl, hnodes⟩
  · intro hp _
    obtain ⟨value, hvalue⟩ := h.mpr hp
    exact ⟨value, by rw [hvalue]; rfl⟩

/-- A reader that succeeds hands its count on. -/
theorem bind_eq_of_ok {reading : Reading α} {next : α → Reading β} {before after : Nat} {a : α}
    (h : reading before = .ok (a, after)) : (reading >>= next) before = next a after := by
  change Except.bind (reading before) _ = _
  rw [h]
  rfl

/-- A node counts before there is a look at the limits. -/
theorem visit_eq (path : List Step) (depth nodes : Nat) : visit path depth nodes =
    if maxNodes < nodes + 1 then .error ⟨path, .tooManyNodes (nodes + 1)⟩
    else if maxDepth < depth then .error ⟨path, .tooDeep depth⟩
    else .ok ((), nodes + 1) := by
  change (ite (maxNodes < nodes + 1) _ _ : Reading Unit) (nodes + 1) = _
  by_cases hroom : maxNodes < nodes + 1
  · rw [if_pos hroom, if_pos hroom]
    by_cases hdepth : maxDepth < depth <;> simp only [hdepth, if_true, if_false] <;> rfl
  · rw [if_neg hroom, if_neg hroom]
    by_cases hdepth : maxDepth < depth <;> simp only [hdepth, if_true, if_false] <;> rfl

theorem Counts.visit (path : List Step) (depth : Nat) :
    Counts (visit path depth) (depth ≤ maxDepth) 1 := by
  intro nodes _
  rw [visit_eq]
  constructor
  · intro value after hok
    split at hok
    · cases hok
    · split at hok
      · cases hok
      · cases hok
        omega
  · intro hdepth hroom
    rw [if_neg (by omega), if_neg (by omega)]
    exact ⟨(), rfl⟩

end Counts

/-! ### Operands and fields -/

section Operands

variable {α β : Type} {path : List Step}

theorem isOk_pure {a : α} : ∃ b, (pure a : Except FilterError α) = .ok b := ⟨a, rfl⟩

theorem map_isOk_iff {f : α → β} {result : Except FilterError α} :
    (∃ b, f <$> result = .ok b) ↔ ∃ a, result = .ok a := by
  cases result with
  | error e => exact ⟨fun ⟨_, h⟩ => (nomatch h), fun ⟨_, h⟩ => (nomatch h)⟩
  | ok a => exact ⟨fun _ => ⟨a, rfl⟩, fun _ => ⟨f a, rfl⟩⟩

theorem readString_isOk_iff {raw : Json} :
    (∃ text, readString path raw = .ok text) ↔ raw.IsShortText := by
  cases raw with
  | string text =>
    by_cases hlong : maxStringBytes < text.utf8ByteSize
    · simp [readString, Json.IsShortText, hlong]
    · simp [readString, Json.IsShortText, hlong, Nat.le_of_not_lt hlong, isOk_pure]
  | _ => simp [readString, Json.IsShortText]

theorem readScalar_isOk_iff {raw : Json} :
    (∃ value, readScalar path raw = .ok value) ↔ raw.IsScalar := by
  cases raw with
  | string text => exact map_isOk_iff.trans (@readString_isOk_iff path (.string text))
  | array items => simp [readScalar, Json.IsScalar]
  | object members => simp [readScalar, Json.IsScalar]
  | _ => simp [readScalar, Json.IsScalar, isOk_pure]

theorem readScalars_isOk_iff {position : Nat} {items : List Json} :
    (∃ values, readScalars path position items = .ok values) ↔
      ∀ item ∈ items, item.IsScalar := by
  induction items generalizing position with
  | nil => simp [readScalars, isOk_pure]
  | cons item items ih =>
    rw [List.forall_mem_cons, ← @readScalar_isOk_iff (path ++ [.index position]), ← @ih (position + 1),
      readScalars]
    cases readScalar (path ++ [.index position]) item with
    | error e =>
      constructor
      · rintro ⟨_, h⟩
        cases h
      · rintro ⟨⟨_, h⟩, -⟩
        cases h
    | ok value =>
      cases readScalars path (position + 1) items with
      | error e =>
        constructor
        · rintro ⟨_, h⟩
          cases h
        · rintro ⟨-, _, h⟩
          cases h
      | ok values => exact ⟨fun _ => ⟨⟨_, rfl⟩, _, rfl⟩, fun _ => ⟨_, rfl⟩⟩

theorem readList_isOk_iff {items : List Json} :
    (∃ values, readList path items = .ok values) ↔ (Json.array items).IsScalarList := by
  unfold readList
  by_cases hlong : maxListItems < items.length
  · rw [if_pos hlong]
    exact ⟨fun ⟨_, h⟩ => (nomatch h), fun h => absurd h.1 (Nat.not_le.mpr hlong)⟩
  · rw [if_neg hlong, readScalars_isOk_iff]
    exact ⟨fun h => ⟨Nat.le_of_not_lt hlong, h⟩, fun h => h.2⟩

theorem isNull_scalar? {raw : Json} {value : Scalar} (h : raw.scalar? = some value) :
    value.isNull = true ↔ raw = .null := by
  cases raw with
  | null =>
    cases h
    exact ⟨fun _ => rfl, fun _ => rfl⟩
  | number n =>
    cases h
    cases n.toInt64? <;> simp [Scalar.isNull]
  | _ => cases h <;> simp [Scalar.isNull]

theorem range_isOk_iff {comparison : Comparison} {raw : Json} :
    (∃ test, (do
      let value ← readScalar path raw
      if value.isNull then throw ⟨path, .rangeWithNull⟩
      else pure (Test.compare comparison value) : Except FilterError Test) = .ok test) ↔
      raw.IsScalar ∧ raw ≠ .null := by
  rw [← @readScalar_isOk_iff path]
  cases hread : readScalar path raw with
  | error e => exact ⟨fun ⟨_, h⟩ => (nomatch h), fun ⟨⟨_, h⟩, _⟩ => (nomatch h)⟩
  | ok value =>
    have hnull : value.isNull = true ↔ raw = .null := isNull_scalar? (readScalar_eq_ok hread)
    change (∃ test, (if value.isNull then throw _ else pure _ : Except FilterError Test) =
      .ok test) ↔ _
    by_cases hraw : raw = .null
    · simp [hnull.mpr hraw, hraw]
    · simp [mt hnull.mp hraw, hraw, isOk_pure]

theorem membership_isOk_iff {negated : Bool} {violation : Violation} {raw : Json} :
    (∃ test, (match raw with
      | .array items => Test.membership negated <$> readList path items
      | _ => throw ⟨path, violation⟩ : Except FilterError Test) = .ok test) ↔
      raw.IsScalarList := by
  cases raw with
  | array items => exact map_isOk_iff.trans readList_isOk_iff
  | _ => exact ⟨fun ⟨_, h⟩ => (nomatch h), fun h => h.elim⟩

theorem json_isOk_iff {make : Json → Test} {violation : Violation} {raw : Json} :
    (∃ test, (if raw.isNull then throw ⟨path, violation⟩ else pure (make raw) :
      Except FilterError Test) = .ok test) ↔ raw ≠ .null := by
  cases raw <;> simp [Json.isNull, isOk_pure]

/-- An operator is read exactly if it takes its operand. -/
theorem readTest_isOk_iff {operator : Operator} {raw : Json} :
    (∃ test, readTest path operator raw = .ok test) ↔ operator.Takes raw := by
  cases operator with
  | eq => exact map_isOk_iff.trans readScalar_isOk_iff
  | ne => exact map_isOk_iff.trans readScalar_isOk_iff
  | gt => exact range_isOk_iff
  | gte => exact range_isOk_iff
  | lt => exact range_isOk_iff
  | lte => exact range_isOk_iff
  | like => exact map_isOk_iff.trans readString_isOk_iff
  | ilike => exact map_isOk_iff.trans readString_isOk_iff
  | isIn => exact membership_isOk_iff
  | notIn => exact membership_isOk_iff
  | isPresent => cases raw <;> simp [readTest, Operator.Takes, isOk_pure]
  | contains => exact json_isOk_iff
  | containedBy => exact json_isOk_iff
  | pathExists => exact map_isOk_iff.trans readString_isOk_iff

end Operands

theorem isFieldName_iff {name : String} :
    (∃ field, FieldPath.ofString? name = some field) ↔ IsFieldName name := by
  constructor
  · rintro ⟨field, hfield⟩
    refine ⟨field.column :: field.path, List.cons_ne_nil _ _, ?_, (ofString?_name hfield).symm⟩
    intro part hpart
    rcases List.mem_cons.mp hpart with rfl | hpart
    · exact field.plain.1
    · exact List.all_eq_true.mp field.plain.2 part hpart
  · rintro ⟨parts, hne, hparts, rfl⟩
    have hdots : ∀ part ∈ parts.map String.toList, '.' ∉ part := by
      intro part hpart
      obtain ⟨name, hname, rfl⟩ := List.mem_map.mp hpart
      exact not_mem_of_isIdentifier (hparts name hname) rfl
    have hsplit := Text.splitAt_intercalate (by simpa using hne) hdots
    have hread : (Text.splitAt '.' (String.intercalate "." parts).toList).map String.ofList =
        parts := by
      rw [String.toList_intercalate]
      change (Text.splitAt '.' (List.intercalate ['.'] (parts.map String.toList))).map _ = _
      rw [hsplit]
      simp
    unfold FieldPath.ofString?
    rw [hread]
    cases parts with
    | nil => exact absurd rfl hne
    | cons column keys =>
      have hplain : Text.isIdentifier column = true ∧ keys.all Text.isIdentifier = true :=
        ⟨hparts column List.mem_cons_self,
          List.all_eq_true.mpr fun key hkey => hparts key (List.mem_cons_of_mem _ hkey)⟩
      exact ⟨⟨column, keys, hplain⟩, dif_pos hplain⟩

theorem counts_readOperators (field : FieldPath) (path : List Step) (depth : Nat)
    (operators : List (String × Json)) :
    Counts (readOperators field path depth operators) (IsFieldValue depth (.object operators))
      (fieldVisits (.object operators)) := by
  induction operators with
  | nil => exact (Counts.pure _).congr (by simp [IsFieldValue]) fun _ => rfl
  | cons member rest ih =>
    obtain ⟨key, raw⟩ := member
    rw [readOperators]
    cases hkey : Operator.ofKey? key with
    | none =>
      refine ih.congr ?_ ?_
      · simp [IsFieldValue, hkey]
      · simp [fieldVisits, hkey]
    | some operator =>
      have htest := @readTest_isOk_iff (path ++ [.member key]) operator raw
      have hread := (Counts.visit (path ++ [.member key]) depth).bind fun _ =>
        (Counts.lift htest).bind fun test =>
          ih.bind fun others => Counts.pure (Predicate.leaf ⟨field, test⟩ :: others)
      refine hread.congr ?_ ?_
      · simp [IsFieldValue, hkey, and_assoc]
      · simp [fieldVisits, hkey]
        omega

/-- A field is read exactly if it has a name and a value in order. -/
theorem counts_readField (name : String) (path : List Step) (depth : Nat) (raw : Json) :
    Counts (readField name path depth raw) (IsFieldName name ∧ IsFieldValue (depth + 1) raw)
      (fieldVisits raw) := by
  unfold readField
  cases hname : FieldPath.ofString? name with
  | none =>
    refine (Counts.throw _ 0).congr ?_ fun h => h.elim
    rw [← isFieldName_iff, hname]
    simp
  | some field =>
    have hfield : IsFieldName name := isFieldName_iff.mp ⟨field, hname⟩
    have scalar : Counts (do
        visit path (depth + 1)
        let value ← readScalar path raw
        pure [.leaf ⟨field, .compare .eq value⟩] : Reading (List Predicate))
        (depth + 1 ≤ maxDepth ∧ raw.IsScalar) 1 := by
      have hread := (Counts.visit path (depth + 1)).bind fun _ =>
        (Counts.lift (@readScalar_isOk_iff path raw)).bind fun value =>
          Counts.pure [Predicate.leaf ⟨field, .compare .eq value⟩]
      exact hread.congr (by simp) fun _ => rfl
    refine Counts.congr (P := IsFieldValue (depth + 1) raw) ?_ (by simp [hfield]) fun _ => rfl
    cases raw with
    | object operators => exact counts_readOperators field path (depth + 1) operators
    | array items =>
      have hread := (Counts.visit path (depth + 1)).bind fun _ =>
        (Counts.lift (@readList_isOk_iff path items)).bind fun values =>
          Counts.pure [Predicate.leaf ⟨field, .membership false values⟩]
      exact hread.congr (by simp [IsFieldValue]) fun _ => rfl
    | null => exact scalar
    | bool b => exact scalar
    | number n => exact scalar
    | string text => exact scalar

/-! ### Documents -/

theorem counts_readItems {items : List Json} {depth : Nat}
    (ih : ∀ item ∈ items, ∀ path depth, Counts (readFilter path depth item)
      (WellFormed depth item) (visits item)) (path : List Step) (position : Nat) :
    Counts (readItems path position depth items) (∀ item ∈ items, WellFormed depth item)
      (itemVisits items) := by
  induction items generalizing position with
  | nil => exact (Counts.pure _).congr (by simp) fun _ => rfl
  | cons item items ihItems =>
    rw [readItems]
    have hread := (ih item List.mem_cons_self (path ++ [.index position]) depth).bind fun child =>
      (ihItems (fun i hi => ih i (List.mem_cons_of_mem _ hi)) (position + 1)).bind fun others =>
        Counts.pure (child.toList ++ others)
    exact hread.congr (by simp) fun _ => rfl

/-- What a member is, by its key. -/
theorem wellFormedMember_iff {depth : Nat} {key : String} {raw : Json} :
    WellFormedMember depth key raw ↔
      if key = "$and" ∨ key = "$or" then
        ∃ items, raw = .array items ∧ ∀ item ∈ items, WellFormed (depth + 1) item
      else if key = "$not" then WellFormed (depth + 1) raw
      else isReserved key = true ∨ IsFieldName key ∧ IsFieldValue (depth + 1) raw := by
  constructor
  · intro h
    cases h with
    | group hkey h => rw [if_pos hkey]; exact ⟨_, rfl, h⟩
    | not h => exact h
    | reserved hgroup hkey => simp [hgroup, hkey]
    | field hkey hname h =>
      have hand : key ≠ "$and" := by rintro rfl; cases hkey
      have hor : key ≠ "$or" := by rintro rfl; cases hkey
      have hnot : key ≠ "$not" := by rintro rfl; cases hkey
      simp [hand, hor, hnot, hname, h]
  · intro h
    split at h
    · rename_i hkey
      obtain ⟨items, rfl, h⟩ := h
      exact .group hkey h
    · rename_i hgroup
      rw [not_or] at hgroup
      split at h
      · rename_i hnot
        subst hnot
        exact .not h
      · rename_i hnot
        cases hkey : isReserved key with
        | true => exact .reserved ⟨hgroup.1, hgroup.2, hnot⟩ hkey
        | false =>
          rcases h with h | ⟨hname, h⟩
          · rw [hkey] at h; cases h
          · exact .field hkey hname h

theorem counts_readMember (path : List Step) (depth : Nat) (key : String) {raw : Json}
    (hraw : ∀ path depth, Counts (readFilter path depth raw) (WellFormed depth raw) (visits raw))
    (hitems : ∀ items, raw = .array items → ∀ item ∈ items, ∀ path depth,
      Counts (readFilter path depth item) (WellFormed depth item) (visits item)) :
    Counts (readMember path depth key raw) (WellFormedMember depth key raw)
      (if key = "$and" ∨ key = "$or" then arrayVisits raw
        else if key = "$not" then visits raw
        else if isReserved key then 0
        else fieldVisits raw) := by
  rw [wellFormedMember_iff]
  unfold readMember
  by_cases hgroup : key = "$and" ∨ key = "$or"
  · simp only [if_pos hgroup]
    cases raw with
    | array items =>
      have hfits : (∃ items', Json.array items = .array items' ∧
          ∀ item ∈ items', WellFormed (depth + 1) item) ↔
          ∀ item ∈ items, WellFormed (depth + 1) item := by simp
      rw [hfits, arrayVisits]
      cases items with
      | nil => exact (Counts.pure _).congr (by simp) fun _ => rfl
      | cons item items =>
        have hread := (@counts_readItems (item :: items) (depth + 1) (hitems _ rfl)
            (path ++ [.member key]) 0).bind fun children =>
          Counts.pure (if children.isEmpty then []
            else [(if key = "$and" then Predicate.all else Predicate.any) children])
        exact hread.congr (and_iff_left True.intro) fun _ => rfl
    | _ => exact (Counts.throw _ 0).congr (by simp) fun h => h.elim
  · simp only [if_neg hgroup]
    by_cases hnot : key = "$not"
    · simp only [if_pos hnot]
      have hread := (hraw (path ++ [.member key]) (depth + 1)).bind fun child =>
        Counts.pure (child.map Predicate.not).toList
      exact hread.congr (and_iff_left True.intro) fun _ => rfl
    · simp only [if_neg hnot]
      cases isReserved key with
      | true => exact (Counts.pure []).congr (by simp) fun _ => rfl
      | false =>
        have hread := counts_readField key (path ++ [.member key]) depth raw
        exact hread.congr (by simp) fun _ => rfl

theorem counts_readMembers {members : List (String × Json)} {depth : Nat}
    (ih : ∀ member ∈ members,
      (∀ path depth, Counts (readFilter path depth member.2) (WellFormed depth member.2)
        (visits member.2)) ∧
      ∀ items, member.2 = .array items → ∀ item ∈ items, ∀ path depth,
        Counts (readFilter path depth item) (WellFormed depth item) (visits item))
    (path : List Step) :
    Counts (readMembers path depth members)
      (∀ member ∈ members, WellFormedMember depth member.1 member.2) (memberVisits members) := by
  induction members with
  | nil =>
    rw [readMembers]
    exact (Counts.pure _).congr (by simp) fun _ => rfl
  | cons member rest ihMembers =>
    obtain ⟨key, raw⟩ := member
    obtain ⟨hraw, hitems⟩ := ih (key, raw) List.mem_cons_self
    have hrest := ihMembers fun m hm => ih m (List.mem_cons_of_mem _ hm)
    have hread := (counts_readMember path depth key hraw hitems).bind fun own =>
      hrest.bind fun others => Counts.pure (own ++ others)
    rw [readMembers_cons, List.forall_mem_cons, memberVisits]
    exact hread.congr (by simp) fun _ => rfl

/-- Reading a filter succeeds exactly if it is well formed and its nodes have room. -/
theorem counts_readFilter (document : Json) : ∀ path depth,
    Counts (readFilter path depth document) (WellFormed depth document) (visits document) := by
  induction document using Json.filter_induct with
  | object members ih =>
    intro path depth
    rw [readFilter]
    have hread := (Counts.visit path depth).bind fun _ =>
      (@counts_readMembers members depth ih path).bind fun clauses =>
        Counts.pure (conjunction clauses)
    refine hread.congr ?_ fun _ => rfl
    constructor
    · rintro ⟨hdepth, h, -⟩
      exact .object hdepth h
    · rintro ⟨hdepth, h⟩
      exact ⟨hdepth, h, True.intro⟩
  | other document hobject =>
    intro path depth
    rw [readFilter_of_ne_object path depth hobject]
    refine ((Counts.visit path depth).bind fun _ => Counts.throw _ 0).congr ?_ fun h => h.2.elim
    refine ⟨fun h => h.2.elim, ?_⟩
    rintro ⟨⟩
    exact absurd rfl (hobject _)

end Filter

/-! ### Documents with one field -/

/-- No name of a field begins with a dollar sign. -/
theorem FieldPath.isReserved_eq_false {name : String} {field : FieldPath}
    (h : FieldPath.ofString? name = some field) : Filter.isReserved name = false := by
  have hdollar (part : List Char) : Text.isIdentifier (String.ofList ('$' :: part)) = false := by
    simp [Text.isIdentifier, Text.isIdentifierStart]
  rw [Filter.isReserved, beq_eq_false_iff_ne]
  intro hhead
  obtain ⟨rest, hname⟩ : ∃ rest, name.toList = '$' :: rest := List.head?_eq_some_iff.mp hhead
  have hsplit : ∃ part parts, Text.splitAt '.' ('$' :: rest) = ('$' :: part) :: parts := by
    rw [Text.splitAt, if_neg (by decide)]
    split
    · exact ⟨_, _, rfl⟩
    · exact ⟨_, _, rfl⟩
  obtain ⟨part, parts, hparts⟩ := hsplit
  rw [ofString?, hname, hparts, List.map_cons] at h
  dsimp only at h
  rw [dif_neg fun hplain => absurd hplain.1 (by rw [hdollar]; decide)] at h
  cases h

/-- A document with one field asks for what is read of the field. -/
theorem Predicate.ofJson_field {name : String} {field : FieldPath}
    (hfield : FieldPath.ofString? name = some field) {raw : Json} {clauses : List Predicate}
    {after : Nat}
    (hread : Filter.readField name [.member name] 1 raw 1 = .ok (clauses, after)) :
    ofJson (.object [(name, raw)]) = .ok (Filter.conjunction clauses) := by
  have hreserved := FieldPath.isReserved_eq_false hfield
  have hgroup (key : String) (hkey : Filter.isReserved key = true) : name ≠ key := by
    rintro rfl
    rw [hreserved] at hkey
    cases hkey
  rw [ofJson, Filter.readFilter, Filter.readMembers, Filter.readMembers]
  simp only [hgroup "$and" rfl, hgroup "$or" rfl, hgroup "$not" rfl, hreserved, or_self, if_false,
    Bool.false_eq_true]
  change Prod.fst <$> (Except.bind (Filter.visit [] 1 0) fun visited =>
    Except.bind (Except.bind (Filter.readField name ([] ++ [.member name]) 1 raw visited.2)
      fun read => .ok (read.1 ++ [], read.2)) fun read =>
        .ok (Filter.conjunction read.1, read.2)) = _
  rw [Filter.visit_eq, if_neg (by decide), if_neg (by decide), Except.bind]
  dsimp only [List.nil_append]
  rw [hread]
  change Except.ok (Filter.conjunction (clauses ++ [])) = _
  rw [List.append_nil]

/-! ### Acceptance -/

/-- **Exactly the grammar is accepted.**  A document is read without a fault if and only if
    it is well formed as a filter and has no more nodes than filters can have. -/
theorem Predicate.ofJson_isOk_iff (document : Json) :
    (∃ p, ofJson document = .ok p) ↔
      Filter.WellFormed 1 document ∧ Filter.visits document ≤ Filter.maxNodes := by
  obtain ⟨hread, hfit⟩ := Filter.counts_readFilter document [] 1 0 (Nat.zero_le _)
  rw [Nat.zero_add] at hfit hread
  have hrun : (∃ p, ofJson document = .ok p) ↔
      ∃ p after, Filter.readFilter [] 1 document 0 = .ok (p, after) := by
    unfold ofJson
    change (∃ p, Prod.fst <$> Filter.readFilter [] 1 document 0 = .ok p) ↔ _
    rw [Filter.map_isOk_iff]
    simp
  rw [hrun]
  constructor
  · rintro ⟨p, after, hok⟩
    obtain ⟨hwell, rfl, hroom⟩ := hread p after hok
    exact ⟨hwell, hroom⟩
  · rintro ⟨hwell, hroom⟩
    obtain ⟨p, hok⟩ := hfit hwell hroom
    exact ⟨p, _, hok⟩

end KnowledgeSearch
