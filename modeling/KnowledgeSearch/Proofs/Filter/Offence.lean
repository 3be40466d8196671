/-
  KnowledgeSearch/Proofs/Filter/Offence.lean
  ==========================================
  **Where a filter document first breaks a rule.**

  `Filter.places` walks through a JSON value depth first and lists everything in it: each
  value comes before what it holds, and what an object holds comes in the order of its keys.
  On the way down it is known what a value is there for (`Filter.Part`), and with that the
  rules that it can break by itself; how many nodes come before it decides whether it is one
  node too many.

  Readers do not walk through a list.  They call each other, carry their place along and
  raise a fault in the midst of reading.  `Walks` says that a reader fails as a walk through
  some places does, and counts the same nodes otherwise; one reader after another walks
  through the places of both.  So what is reported of a rejected document is the first
  offence of the walk through all of it (`Predicate.ofJson_firstOffence`).
-/
import KnowledgeSearch.Proofs.Filter.Grammar
import KnowledgeSearch.Proofs.Keyed
import Mathlib.Data.List.Lex

namespace KnowledgeSearch

/-! ### Steps into a document -/

/-- The text of a step behind the place where it is taken. -/
def Step.text : Step → String
  | .member key => "." ++ key
  | .index position => "[" ++ toString position ++ "]"

/-- Whether one of two steps from the same value is taken first: to the member with the
    smaller key, or to the item before. -/
def Step.Before : Step → Step → Prop
  | .member a, .member b => a < b
  | .index i, .index j => i < j
  | _, _ => False

/-- Whether a value is met before another one: on the way to it, or where their ways part. -/
def Step.Earlier : List Step → List Step → Prop := List.Lex Step.Before

theorem Step.render_eq (steps : List Step) :
    render steps = "$" ++ String.join (steps.map text) := by
  have go (front : String) : steps.foldl (fun text step => match step with
      | .member key => text ++ "." ++ key
      | .index position => text ++ "[" ++ toString position ++ "]") front =
      front ++ String.join (steps.map Step.text) := by
    induction steps generalizing front with
    | nil => simp [String.join]
    | cons step steps ih =>
      rw [List.foldl_cons, ih, List.map_cons]
      cases step with
      | member key => simp [Step.text, String.append_assoc]
      | index position => simp [Step.text, String.append_assoc]
  exact go "$"

namespace Json

/-- The steps that lead from a value to one that is part of it. -/
inductive Leads : Json → List Step → Json → Prop where
  | here (value : Json) : Leads value [] value
  | member {members : List (String × Json)} {key : String} {raw value : Json} {steps : List Step}
      (hmember : (key, raw) ∈ members) (h : Leads raw steps value) :
      Leads (.object members) (.member key :: steps) value
  | index {items : List Json} {position : Nat} {item value : Json} {steps : List Step}
      (hitem : items[position]? = some item) (h : Leads item steps value) :
      Leads (.array items) (.index position :: steps) value

/-- The members of every object stand in the order of their keys, each key once. -/
def Ordered (document : Json) : Prop :=
  ∀ steps members, document.Leads steps (.object members) → Keyed.Ascending members

end Json

namespace Filter

/-! ### Parts and their rules -/

/-- What a value is there for in a filter document. -/
inductive Part where
  | filter (depth : Nat)
  /-- The filters of a group. -/
  | group (key : String) (depth : Nat)
  | field (name : String) (depth : Nat)
  | operand (operator : Operator) (depth : Nat)
  /-- An item of a list that a field is compared with. -/
  | listed

namespace Part

/-- What a member is there for. -/
def member? (key : String) : Part → Option Part
  | .filter depth =>
    if key = "$and" ∨ key = "$or" then some (.group key (depth + 1))
    else if key = "$not" then some (.filter (depth + 1))
    else if isReserved key then none
    else some (.field key (depth + 1))
  | .field _ depth => (Operator.ofKey? key).map fun operator => .operand operator depth
  | _ => none

/-- What an item is there for. -/
def item? : Part → Option Part
  | .group _ depth => some (.filter depth)
  | .field .. => some .listed
  | .operand .isIn _ | .operand .notIn _ => some .listed
  | _ => none

end Part

instance : DecidablePred IsFieldName := fun name =>
  decidable_of_iff ((FieldPath.ofString? name).isSome = true)
    (Option.isSome_iff_exists.trans isFieldName_iff)

end Filter

namespace Json

open KnowledgeSearch.Filter (maxStringBytes maxListItems)

/-- Why a value is not a text that can be bound. -/
def textFault? : Json → Option Violation
  | .string text => if maxStringBytes < text.utf8ByteSize then some .stringTooLong else none
  | _ => some .notAString

/-- Why a value is not one that a field can be compared with. -/
def scalarFault? : Json → Option Violation
  | .string text => textFault? (.string text)
  | .array _ | .object _ => some .notAScalar
  | _ => none

/-- Why a value is not a list that a field can be compared with, apart from its items. -/
def listFault? (key : String) : Json → Option Violation
  | .array items => if maxListItems < items.length then some (.listTooLong items.length) else none
  | _ => some (.notAnArray key)

end Json

/-- Why an operator cannot be asked with an operand. -/
def Operator.fault? (operator : Operator) (operand : Json) : Option Violation :=
  match operator with
  | .eq | .ne => operand.scalarFault?
  | .gt | .gte | .lt | .lte =>
    if operand.isNull then some .rangeWithNull else operand.scalarFault?
  | .like | .ilike | .pathExists => operand.textFault?
  | .isIn | .notIn => operand.listFault? operator.key
  | .isPresent => match operand with
    | .bool _ => none
    | _ => some .presenceNotBoolean
  | .contains | .containedBy => if operand.isNull then some (.missingJson operator.key) else none

namespace Filter

/-- Why there is no room for a node, with some nodes before it. -/
def roomFault? (nodes depth : Nat) : Option Violation :=
  if maxNodes < nodes + 1 then some (.tooManyNodes (nodes + 1))
  else if maxDepth < depth then some (.tooDeep depth)
  else none

namespace Part

/-- Whether a value counts as a node: a field does not if it holds operators, which do. -/
def isNode : Part → Json → Bool
  | .filter _, _ | .operand .., _ => true
  | .field .., .object _ => false
  | .field .., _ => true
  | .group .., _ | .listed, _ => false

/-- The first rule that a value breaks by itself, with some nodes before it. -/
def offence? (nodes : Nat) : Part → Json → Option Violation
  | .filter depth, .object _ => roomFault? nodes depth
  | .filter depth, _ => (roomFault? nodes depth).or (some .notAnObject)
  | .group _ _, .array _ => none
  | .group key _, _ => some (.notAnArray key)
  | .field name depth, value =>
    if IsFieldName name then
      match value with
      | .object _ => none
      | .array items => (roomFault? nodes depth).or (Operator.isIn.fault? (.array items))
      | scalar => (roomFault? nodes depth).or (Operator.eq.fault? scalar)
    else some (.invalidField name)
  | .operand operator depth, value => (roomFault? nodes depth).or (operator.fault? value)
  | .listed, value => value.scalarFault?

end Part

/-! ### Places -/

/-- A value in a document, with the steps that lead to it and what it is there for.  What is
    left to a later version, or belongs to a JSON operand, is there for nothing. -/
structure Place where
  path : List Step
  part : Option Part
  value : Json

namespace Place

def isNode (place : Place) : Bool := place.part.any fun part => part.isNode place.value

/-- The first rule that is broken at a place, with some nodes before it. -/
def offence? (nodes : Nat) (place : Place) : Option Violation :=
  place.part.bind fun part => part.offence? nodes place.value

end Place

mutual

/-- Everything in a value, depth first. -/
def places (path : List Step) (part : Option Part) : Json → List Place
  | .object members => ⟨path, part, .object members⟩ :: memberPlaces path part members
  | .array items => ⟨path, part, .array items⟩ :: itemPlaces path part 0 items
  | scalar => [⟨path, part, scalar⟩]

def memberPlaces (path : List Step) (part : Option Part) : List (String × Json) → List Place
  | [] => []
  | (key, raw) :: rest =>
    places (path ++ [.member key]) (part.bind (Part.member? key)) raw ++
      memberPlaces path part rest

def itemPlaces (path : List Step) (part : Option Part) (position : Nat) :
    List Json → List Place
  | [] => []
  | item :: items =>
    places (path ++ [.index position]) (part.bind Part.item?) item ++
      itemPlaces path part (position + 1) items

end

/-- Everything in a filter document, depth first. -/
def documentPlaces (document : Json) : List Place := places [] (some (.filter 1)) document

/-- What a value holds, depth first. -/
def innerPlaces (path : List Step) (part : Option Part) : Json → List Place
  | .object members => memberPlaces path part members
  | .array items => itemPlaces path part 0 items
  | _ => []

theorem places_eq (path : List Step) (part : Option Part) (value : Json) :
    places path part value = ⟨path, part, value⟩ :: innerPlaces path part value := by
  cases value <;> rfl

/-! ### All values, in their order -/

section Order

variable {path : List Step} {part : Option Part} {place : Place}

theorem mem_itemPlaces {items : List Json} (ih : ∀ item ∈ items, ∀ path part, ∀ place ∈
      places path part item, ∃ steps, place.path = path ++ steps ∧ item.Leads steps place.value)
    {position : Nat} (h : place ∈ itemPlaces path part position items) :
    ∃ i item steps, items[i]? = some item ∧
      place.path = path ++ .index (position + i) :: steps ∧ item.Leads steps place.value := by
  induction items generalizing position with
  | nil => cases h
  | cons item items ihItems =>
    rw [itemPlaces, List.mem_append] at h
    rcases h with h | h
    · obtain ⟨steps, hpath, hleads⟩ := ih item List.mem_cons_self _ _ _ h
      exact ⟨0, item, steps, rfl, by simp [hpath], hleads⟩
    · obtain ⟨i, found, steps, hitem, hpath, hleads⟩ :=
        ihItems (fun i hi => ih i (List.mem_cons_of_mem _ hi)) h
      refine ⟨i + 1, found, steps, hitem, ?_, hleads⟩
      rw [hpath, Nat.add_right_comm, Nat.add_assoc]

theorem mem_memberPlaces {members : List (String × Json)} (ih : ∀ member ∈ members,
      ∀ path part, ∀ place ∈ places path part member.2,
        ∃ steps, place.path = path ++ steps ∧ member.2.Leads steps place.value)
    (h : place ∈ memberPlaces path part members) :
    ∃ key raw steps, (key, raw) ∈ members ∧ place.path = path ++ .member key :: steps ∧
      raw.Leads steps place.value := by
  induction members with
  | nil => cases h
  | cons member members ihMembers =>
    obtain ⟨key, raw⟩ := member
    rw [memberPlaces, List.mem_append] at h
    rcases h with h | h
    · obtain ⟨steps, hpath, hleads⟩ := ih (key, raw) List.mem_cons_self _ _ _ h
      exact ⟨key, raw, steps, List.mem_cons_self, by simp [hpath], hleads⟩
    · obtain ⟨found, other, steps, hmem, hpath, hleads⟩ :=
        ihMembers (fun m hm => ih m (List.mem_cons_of_mem _ hm)) h
      exact ⟨found, other, steps, List.mem_cons_of_mem _ hmem, hpath, hleads⟩

/-- The steps of a place lead to its value. -/
theorem leads_of_mem_places (value : Json) : ∀ path part, ∀ place ∈ places path part value,
    ∃ steps, place.path = path ++ steps ∧ value.Leads steps place.value := by
  have own {value : Json} {path : List Step} {part : Option Part} :
      ∃ steps, (⟨path, part, value⟩ : Place).path = path ++ steps ∧ value.Leads steps value :=
    ⟨[], (List.append_nil path).symm, .here value⟩
  induction value using Json.induct with
  | object members ih =>
    intro path part place h
    rcases List.mem_cons.mp h with rfl | h
    · exact own
    · obtain ⟨key, raw, steps, hmem, hpath, hleads⟩ := mem_memberPlaces ih h
      exact ⟨_, hpath, .member hmem hleads⟩
  | array items ih =>
    intro path part place h
    rcases List.mem_cons.mp h with rfl | h
    · exact own
    · obtain ⟨i, item, steps, hitem, hpath, hleads⟩ := mem_itemPlaces ih h
      rw [Nat.zero_add] at hpath
      exact ⟨_, hpath, .index hitem hleads⟩
  | _ =>
    intro path part place h
    rw [List.mem_singleton.mp h]
    exact own

theorem places_subset_memberPlaces {members : List (String × Json)} {key : String} {raw : Json}
    (h : (key, raw) ∈ members) : places (path ++ [.member key]) (part.bind (Part.member? key)) raw ⊆
      memberPlaces path part members := by
  induction members with
  | nil => cases h
  | cons member members ih =>
    intro place hplace
    rw [memberPlaces, List.mem_append]
    rcases List.mem_cons.mp h with rfl | h
    · exact .inl hplace
    · exact .inr (ih h hplace)

theorem places_subset_itemPlaces {items : List Json} {i : Nat} {item : Json}
    (h : items[i]? = some item) (position : Nat) :
    places (path ++ [.index (position + i)]) (part.bind Part.item?) item ⊆
      itemPlaces path part position items := by
  induction items generalizing i position with
  | nil => cases h
  | cons first items ih =>
    intro place hplace
    rw [itemPlaces, List.mem_append]
    cases i with
    | zero =>
      cases h
      exact .inl hplace
    | succ i =>
      rw [← Nat.add_assoc, Nat.add_right_comm] at hplace
      exact .inr (ih h _ hplace)

/-- Every value that steps lead to is at a place. -/
theorem mem_places_of_leads {value found : Json} {steps : List Step} (h : value.Leads steps found)
    (path : List Step) (part : Option Part) :
    ∃ part', ⟨path ++ steps, part', found⟩ ∈ places path part value := by
  induction h generalizing path part with
  | here value =>
    refine ⟨part, ?_⟩
    rw [places_eq, List.append_nil]
    exact List.mem_cons_self
  | @member members key raw found steps hmember _ ih =>
    obtain ⟨part', hmem⟩ := ih (path ++ [.member key]) (part.bind (Part.member? key))
    rw [List.append_assoc] at hmem
    exact ⟨part', List.mem_cons_of_mem _ (places_subset_memberPlaces hmember hmem)⟩
  | @index items position item found steps hitem _ ih =>
    obtain ⟨part', hmem⟩ := ih (path ++ [.index position]) (part.bind Part.item?)
    rw [List.append_assoc, ← Nat.zero_add position] at hmem
    rw [← Nat.zero_add position]
    refine ⟨part', List.mem_cons_of_mem _ (places_subset_itemPlaces hitem 0 ?_)⟩
    simpa using hmem

/-- A value comes before what it holds, if that is in order. -/
theorem pairwise_cons_inner {value : Json} {inner : List Place}
    (hinner : inner.Pairwise fun a b => Step.Earlier a.path b.path)
    (hbehind : ∀ place ∈ inner, ∃ step steps, place.path = path ++ step :: steps) :
    (⟨path, part, value⟩ :: inner).Pairwise fun a b => Step.Earlier a.path b.path := by
  refine List.pairwise_cons.mpr ⟨?_, hinner⟩
  intro place hplace
  obtain ⟨step, steps, hpath⟩ := hbehind place hplace
  have hlonger : Step.Earlier (path ++ []) (path ++ step :: steps) := List.Lex.append_left _ .nil _
  rwa [List.append_nil, ← hpath] at hlonger

theorem pairwise_memberPlaces {members : List (String × Json)} (h : Keyed.Ascending members)
    (ih : ∀ member ∈ members, ∀ path part,
      (places path part member.2).Pairwise fun a b => Step.Earlier a.path b.path) :
    (memberPlaces path part members).Pairwise fun a b => Step.Earlier a.path b.path := by
  induction members with
  | nil => exact .nil
  | cons member members ihMembers =>
    obtain ⟨key, raw⟩ := member
    obtain ⟨hfirst, hrest⟩ := List.pairwise_cons.mp h
    rw [memberPlaces]
    refine List.pairwise_append.mpr ⟨ih (key, raw) List.mem_cons_self _ _,
      ihMembers hrest fun m hm => ih m (List.mem_cons_of_mem _ hm), ?_⟩
    intro a ha b hb
    obtain ⟨steps, hpath, -⟩ := leads_of_mem_places raw _ _ a ha
    obtain ⟨other, found, steps', hmem, hpath', -⟩ :=
      mem_memberPlaces (fun member _ => leads_of_mem_places member.2) hb
    have hbefore : Step.Before (.member key) (.member other) := hfirst (other, found) hmem
    rw [hpath, hpath', List.append_assoc]
    exact List.Lex.append_left _ (.rel hbefore) _

theorem pairwise_itemPlaces {items : List Json} (position : Nat)
    (ih : ∀ item ∈ items, ∀ path part,
      (places path part item).Pairwise fun a b => Step.Earlier a.path b.path) :
    (itemPlaces path part position items).Pairwise fun a b => Step.Earlier a.path b.path := by
  induction items generalizing position with
  | nil => exact .nil
  | cons item items ihItems =>
    rw [itemPlaces]
    refine List.pairwise_append.mpr ⟨ih item List.mem_cons_self _ _,
      ihItems _ fun i hi => ih i (List.mem_cons_of_mem _ hi), ?_⟩
    intro a ha b hb
    obtain ⟨steps, hpath, -⟩ := leads_of_mem_places item _ _ a ha
    obtain ⟨i, found, steps', -, hpath', -⟩ :=
      mem_itemPlaces (fun item _ => leads_of_mem_places item) hb
    have hbefore : Step.Before (.index position) (.index (position + 1 + i)) := by
      show position < position + 1 + i
      omega
    rw [hpath, hpath', List.append_assoc]
    exact List.Lex.append_left _ (.rel hbefore) _

/-- **Places stand in depth-first order.** -/
theorem pairwise_places {value : Json} (h : value.Ordered) (path : List Step)
    (part : Option Part) :
    (places path part value).Pairwise fun a b => Step.Earlier a.path b.path := by
  induction value using Json.induct generalizing path part with
  | object members ih =>
    have hmembers : ∀ member ∈ members, ∀ path part,
        (places path part member.2).Pairwise fun a b => Step.Earlier a.path b.path := by
      intro member hmem
      exact ih member hmem fun steps inner hleads => h _ _ (.member hmem hleads)
    refine pairwise_cons_inner (pairwise_memberPlaces (h [] members (.here _)) hmembers) ?_
    intro place hplace
    obtain ⟨key, raw, steps, -, hpath, -⟩ :=
      mem_memberPlaces (fun member _ => leads_of_mem_places member.2) hplace
    exact ⟨_, _, hpath⟩
  | array items ih =>
    have hitems : ∀ item ∈ items, ∀ path part,
        (places path part item).Pairwise fun a b => Step.Earlier a.path b.path := by
      intro item hmem
      obtain ⟨position, hitem⟩ := List.mem_iff_getElem?.mp hmem
      exact ih item hmem fun steps inner hleads => h _ _ (.index hitem hleads)
    refine pairwise_cons_inner (pairwise_itemPlaces 0 hitems) ?_
    intro place hplace
    obtain ⟨i, item, steps, -, hpath, -⟩ :=
      mem_itemPlaces (fun item _ => leads_of_mem_places item) hplace
    exact ⟨_, _, hpath⟩
  | _ => exact List.pairwise_singleton _ _

end Order

/-! ### Walks -/

def nodeCount (places : List Place) : Nat := places.countP Place.isNode

/-- Goes past a place, with some nodes before it, unless there is an offence. -/
def pass (nodes : Nat) (place : Place) : Except FilterError Nat :=
  match place.offence? nodes with
  | some violation => .error ⟨place.path, violation⟩
  | none => .ok (nodes + nodeCount [place])

/-- Whether some places can be passed, with some nodes before them. -/
def Passable (nodes : Nat) (places : List Place) : Prop :=
  ∀ front place back, places = front ++ place :: back →
    place.offence? (nodes + nodeCount front) = none

/-- Where places first cannot be passed, and why. -/
def FirstOffence (nodes : Nat) (places : List Place) (e : FilterError) : Prop :=
  ∃ earlier place later, places = earlier ++ place :: later ∧ Passable nodes earlier ∧
    place.path = e.path ∧ place.offence? (nodes + nodeCount earlier) = some e.violation

section Walks

variable {α β : Type} {nodes : Nat} {place : Place} {places inner : List Place}

theorem nodeCount_cons (place : Place) (places : List Place) :
    nodeCount (place :: places) = nodeCount [place] + nodeCount places := by
  rw [← List.singleton_append, nodeCount, List.countP_append]
  rfl

theorem passable_nil : Passable nodes [] := by
  intro front place back h
  simp at h

theorem passable_cons : Passable nodes (place :: places) ↔
    place.offence? nodes = none ∧ Passable (nodes + nodeCount [place]) places := by
  constructor
  · intro h
    refine ⟨h [] place places rfl, ?_⟩
    intro front other back hsplit
    have hother := h (place :: front) other back (by rw [hsplit]; rfl)
    rwa [nodeCount_cons, ← Nat.add_assoc] at hother
  · rintro ⟨hplace, hrest⟩ front other back hsplit
    cases front with
    | nil =>
      cases hsplit
      exact hplace
    | cons first front =>
      obtain ⟨rfl, htail⟩ := List.cons.inj hsplit
      rw [nodeCount_cons, ← Nat.add_assoc]
      exact hrest front other back htail

theorem firstOffence_nil {e : FilterError} : ¬ FirstOffence nodes [] e := by
  rintro ⟨earlier, place, later, h, -⟩
  simp at h

/-- The first offence is at the first place, or behind it if that can be passed. -/
theorem firstOffence_cons {e : FilterError} : FirstOffence nodes (place :: places) e ↔
    (place.path = e.path ∧ place.offence? nodes = some e.violation) ∨
      (place.offence? nodes = none ∧ FirstOffence (nodes + nodeCount [place]) places e) := by
  constructor
  · rintro ⟨earlier, other, later, hsplit, hpassable, hpath, hother⟩
    cases earlier with
    | nil =>
      cases hsplit
      exact .inl ⟨hpath, hother⟩
    | cons first earlier =>
      obtain ⟨rfl, rfl⟩ := List.cons.inj hsplit
      obtain ⟨hfirst, hrest⟩ := passable_cons.mp hpassable
      rw [nodeCount_cons, ← Nat.add_assoc] at hother
      exact .inr ⟨hfirst, earlier, other, later, rfl, hrest, hpath, hother⟩
  · rintro (⟨hpath, hplace⟩ | ⟨hplace, earlier, other, later, rfl, hpassable, hpath, hother⟩)
    · exact ⟨[], place, places, rfl, passable_nil, hpath, hplace⟩
    · refine ⟨place :: earlier, other, later, rfl, passable_cons.mpr ⟨hplace, hpassable⟩, hpath, ?_⟩
      rwa [nodeCount_cons, ← Nat.add_assoc]

/-- A walk ends at the first offence. -/
theorem foldlM_pass_eq_error {e : FilterError} :
    places.foldlM pass nodes = .error e ↔ FirstOffence nodes places e := by
  induction places generalizing nodes with
  | nil =>
    refine iff_of_false ?_ firstOffence_nil
    intro h
    cases h
  | cons place places ih =>
    rw [List.foldlM_cons, firstOffence_cons, ← ih, pass]
    cases place.offence? nodes with
    | some violation =>
      constructor
      · intro h
        cases h
        exact .inl ⟨rfl, rfl⟩
      · rintro (⟨hpath, hviolation⟩ | ⟨hnone, -⟩)
        · cases hviolation
          rw [hpath]
          rfl
        · cases hnone
    | none =>
      constructor
      · intro h
        exact .inr ⟨rfl, h⟩
      · rintro (⟨-, hnone⟩ | ⟨-, h⟩)
        · cases hnone
        · exact h

/-! ### Readers that walk -/

/-- A reader that fails as a walk through some places does, and counts their nodes
    otherwise. -/
def Walks (reading : Reading α) (places : List Place) : Prop :=
  ∀ nodes, Prod.snd <$> reading nodes = places.foldlM pass nodes

theorem Walks.pure (a : α) : Walks (pure a) [] := fun _ => rfl

/-- Readers that follow each other walk one after the other. -/
theorem Walks.bind {reading : Reading α} {next : α → Reading β} {more : List Place}
    (h : Walks reading places) (hnext : ∀ a, Walks (next a) more) :
    Walks (reading >>= next) (places ++ more) := by
  intro nodes
  rw [List.foldlM_append, ← h nodes]
  change Prod.snd <$> (reading nodes >>= fun step => next step.1 step.2) = _
  cases reading nodes with
  | error e => rfl
  | ok step => exact hnext step.1 step.2

/-- What is made of what has been read needs no place. -/
theorem Walks.map {reading : Reading α} (h : Walks reading places) (f : α → β) :
    Walks (reading >>= fun a => Pure.pure (f a)) places := by
  have hread := h.bind fun a => Walks.pure (f a)
  rwa [List.append_nil] at hread

/-- A place without an offence that is no node is passed by reading on. -/
theorem Walks.behind {reading : Reading α} (h : Walks reading places)
    (hoffence : ∀ nodes, place.offence? nodes = none) (hnode : place.isNode = false) :
    Walks reading (place :: places) := by
  intro nodes
  have hpass : pass nodes place = .ok nodes := by
    rw [pass, hoffence]
    simp [nodeCount, hnode]
  rw [List.foldlM_cons, hpass]
  exact h nodes

/-- A reader that fails where there is an offence goes nowhere else. -/
theorem walks_offence {reading : Reading α} {violation : Violation}
    (hoffence : ∀ nodes, place.offence? nodes = some violation)
    (hread : ∀ nodes, reading nodes = .error ⟨place.path, violation⟩) :
    Walks reading (place :: places) := by
  intro nodes
  have hpass : pass nodes place = .error ⟨place.path, violation⟩ := by rw [pass, hoffence]
  rw [List.foldlM_cons, hpass, hread]
  rfl

/-- A node is counted first; then its own rule is looked at, and what it holds. -/
theorem walks_visit {path : List Step} {depth : Nat} {part : Part} {value : Json}
    {fault : Option Violation} {next : Reading α} (hnode : part.isNode value = true)
    (hoffence : ∀ nodes, part.offence? nodes value = (roomFault? nodes depth).or fault)
    (hfault : ∀ violation, fault = some violation →
      ∀ nodes, next nodes = .error ⟨path, violation⟩)
    (hnext : fault = none → Walks next inner) :
    Walks (do visit path depth; next) (⟨path, some part, value⟩ :: inner) := by
  intro nodes
  have hread : (do visit path depth; next : Reading α) nodes =
      match roomFault? nodes depth with
      | some violation => .error ⟨path, violation⟩
      | none => next (nodes + 1) := by
    change (visit path depth nodes >>= fun step => next step.2) = _
    rw [visit_eq, roomFault?]
    split
    · rfl
    · split <;> rfl
  have hplace : (⟨path, some part, value⟩ : Place).offence? nodes =
      (roomFault? nodes depth).or fault := hoffence nodes
  have hcount : nodeCount [⟨path, some part, value⟩] = 1 := by
    simp [nodeCount, Place.isNode, hnode]
  rw [hread, List.foldlM_cons, pass, hplace, hcount]
  cases roomFault? nodes depth with
  | some violation => rfl
  | none =>
    cases hown : fault with
    | some violation =>
      rw [hfault violation hown]
      rfl
    | none => exact hnext hown (nodes + 1)

end Walks

/-! ### Operands -/

/-- What a check at a place reports for a fault. -/
def Reports {α : Type} (result : Except FilterError α) (path : List Step) :
    Option Violation → Prop
  | some violation => result = .error ⟨path, violation⟩
  | none => ∃ a, result = .ok a

section Operands

variable {α β : Type} {path : List Step} {part : Option Part}

theorem Reports.map {result : Except FilterError α} {fault : Option Violation}
    (h : Reports result path fault) (f : α → β) : Reports (f <$> result) path fault := by
  cases fault with
  | some violation =>
    cases h
    rfl
  | none =>
    obtain ⟨a, rfl⟩ := h
    exact ⟨f a, rfl⟩

theorem reports_readString (raw : Json) : Reports (readString path raw) path raw.textFault? := by
  cases raw with
  | string text =>
    rw [readString, Json.textFault?]
    split
    · rfl
    · exact ⟨text, rfl⟩
  | _ => rfl

theorem reports_readScalar (raw : Json) : Reports (readScalar path raw) path raw.scalarFault? := by
  cases raw with
  | string text => exact (reports_readString (.string text)).map Scalar.text
  | array items => rfl
  | object members => rfl
  | _ => exact ⟨_, rfl⟩

/-- What is there for nothing is no offence, nor is anything in it. -/
theorem walks_ignored (a : α) (value : Json) :
    ∀ path, Walks (pure a) (places path none value) := by
  have behind {path : List Step} {value : Json} {inner : List Place} (h : Walks (pure a) inner) :
      Walks (pure a) (⟨path, none, value⟩ :: inner) := h.behind (fun _ => rfl) rfl
  induction value using Json.induct with
  | object members ih =>
    intro path
    refine behind ?_
    induction members with
    | nil => exact Walks.pure a
    | cons member members ihMembers =>
      rw [memberPlaces]
      exact (ih member List.mem_cons_self _).bind fun _ =>
        ihMembers fun m hm => ih m (List.mem_cons_of_mem _ hm)
  | array items ih =>
    intro path
    refine behind ?_
    generalize 0 = position
    induction items generalizing position with
    | nil => exact Walks.pure a
    | cons item items ihItems =>
      rw [itemPlaces]
      exact (ih item List.mem_cons_self _).bind fun _ =>
        ihItems (fun i hi => ih i (List.mem_cons_of_mem _ hi)) _
  | _ =>
    intro path
    exact behind (Walks.pure a)

theorem walks_memberPlaces (a : α) (hmember : ∀ key, part.bind (Part.member? key) = none)
    (members : List (String × Json)) : Walks (pure a) (memberPlaces path part members) := by
  induction members with
  | nil => exact Walks.pure a
  | cons member members ih =>
    rw [memberPlaces, hmember]
    exact (walks_ignored a member.2 _).bind fun _ => ih

theorem walks_itemPlaces (a : α) (hitem : part.bind Part.item? = none) (items : List Json)
    (position : Nat) : Walks (pure a) (itemPlaces path part position items) := by
  induction items generalizing position with
  | nil => exact Walks.pure a
  | cons item items ih =>
    rw [itemPlaces, hitem]
    exact (walks_ignored a item _).bind fun _ => ih _

/-- What is held by a value of which nothing is asked is passed. -/
theorem walks_innerPlaces (a : α) (hmember : ∀ key, part.bind (Part.member? key) = none)
    (hitem : part.bind Part.item? = none) (value : Json) :
    Walks (pure a) (innerPlaces path part value) := by
  cases value with
  | object members => exact walks_memberPlaces a hmember members
  | array items => exact walks_itemPlaces a hitem items 0
  | _ => exact Walks.pure a

/-- A check walks past the place that it is made at, and past all that is in it. -/
theorem Reports.walks {result : Except FilterError α} {fault : Option Violation} {value : Json}
    (h : Reports result path fault)
    (hoffence : ∀ nodes, (⟨path, part, value⟩ : Place).offence? nodes = fault)
    (hnode : (⟨path, part, value⟩ : Place).isNode = false)
    (hmember : ∀ key, part.bind (Part.member? key) = none)
    (hitem : part.bind Part.item? = none) :
    Walks (liftM result : Reading α) (places path part value) := by
  rw [places_eq]
  cases fault with
  | some violation =>
    refine walks_offence hoffence fun nodes => ?_
    rw [h]
    rfl
  | none =>
    obtain ⟨a, rfl⟩ := h
    exact (walks_innerPlaces a hmember hitem value).behind hoffence hnode

theorem walks_readScalars (hitem : part.bind Part.item? = some .listed) (items : List Json)
    (position : Nat) : Walks (liftM (readScalars path position items) : Reading (List Scalar))
      (itemPlaces path part position items) := by
  induction items generalizing position with
  | nil => exact Walks.pure []
  | cons item items ih =>
    have hfirst : Walks (liftM (readScalar (path ++ [.index position]) item) : Reading Scalar)
        (places (path ++ [.index position]) (some .listed) item) :=
      (reports_readScalar item).walks (fun _ => rfl) rfl (fun _ => rfl) rfl
    have hread := hfirst.bind fun value => (ih (position + 1)).map fun values => value :: values
    rw [itemPlaces, hitem]
    intro nodes
    rw [← hread nodes, readScalars]
    cases readScalar (path ++ [.index position]) item with
    | error e => rfl
    | ok value => cases readScalars path (position + 1) items <;> rfl

/-- The items of a list are looked at one by one, if there are not too many of them. -/
theorem walks_readList (path : List Step) (part : Option Part) (key : String) (items : List Json)
    (hitem : part.bind Part.item? = some .listed) :
    (∀ violation, (Json.array items).listFault? key = some violation →
      readList path items = .error ⟨path, violation⟩) ∧
    ((Json.array items).listFault? key = none →
      Walks (liftM (readList path items) : Reading (List Scalar))
        (innerPlaces path part (.array items))) := by
  rw [Json.listFault?, readList]
  split
  · refine ⟨?_, fun h => nomatch h⟩
    intro violation h
    cases h
    rfl
  · exact ⟨by simp, fun _ => walks_readScalars hitem items 0⟩

theorem Walks.map_lift {result : Except FilterError α} {places : List Place}
    (h : Walks (liftM result : Reading α) places) (f : α → β) :
    Walks (liftM (f <$> result) : Reading β) places := by
  intro nodes
  rw [← h nodes]
  cases result <;> rfl

/-- A range has a scalar as its bound, but not null. -/
theorem reports_range (comparison : Comparison) (raw : Json) : Reports (do
      let value ← readScalar path raw
      if value.isNull then throw ⟨path, .rangeWithNull⟩
      else pure (Test.compare comparison value) : Except FilterError Test) path
    (if raw.isNull then some .rangeWithNull else raw.scalarFault?) := by
  have hscalar := @reports_readScalar path raw
  cases hfault : raw.scalarFault? with
  | some violation =>
    have hnull : raw.isNull = false := by
      cases raw with
      | null => cases hfault
      | _ => rfl
    rw [hfault] at hscalar
    have hread : readScalar path raw = .error ⟨path, violation⟩ := hscalar
    rw [hread, hnull]
    rfl
  | none =>
    rw [hfault] at hscalar
    obtain ⟨value, hread⟩ := hscalar
    have hnull : value.isNull = raw.isNull := by
      rw [Bool.eq_iff_iff, isNull_scalar? (readScalar_eq_ok hread)]
      cases raw <;> simp [Json.isNull]
    rw [hread]
    change Reports (if value.isNull then throw _ else pure _) path _
    rw [hnull]
    cases raw.isNull with
    | true => rfl
    | false => exact ⟨_, rfl⟩

/-- An operator that takes one operand looks at it alone. -/
theorem reports_readTest {operator : Operator} (hin : operator ≠ .isIn) (hnot : operator ≠ .notIn)
    (raw : Json) : Reports (readTest path operator raw) path (operator.fault? raw) := by
  cases operator with
  | isIn => exact absurd rfl hin
  | notIn => exact absurd rfl hnot
  | eq => exact (reports_readScalar raw).map _
  | ne => exact (reports_readScalar raw).map _
  | gt => exact reports_range _ raw
  | gte => exact reports_range _ raw
  | lt => exact reports_range _ raw
  | lte => exact reports_range _ raw
  | like => exact (reports_readString raw).map _
  | ilike => exact (reports_readString raw).map _
  | pathExists => exact (reports_readString raw).map _
  | isPresent =>
    cases raw with
    | bool expected => exact ⟨_, rfl⟩
    | _ => rfl
  | contains =>
    cases raw with
    | null => rfl
    | _ => exact ⟨_, rfl⟩
  | containedBy =>
    cases raw with
    | null => rfl
    | _ => exact ⟨_, rfl⟩

/-- Where a check fails, so does a reader that makes it. -/
theorem lift_eq_error {result : Except FilterError α} {violation : Violation}
    (h : result = .error ⟨path, violation⟩) (nodes : Nat) :
    (liftM result : Reading α) nodes = .error ⟨path, violation⟩ := by
  rw [h]
  rfl

/-- A node that is checked by itself, before what it holds. -/
theorem walks_check {depth : Nat} {part : Part} {value : Json} {fault : Option Violation}
    {result : Except FilterError α} {inner : List Place} (hnode : part.isNode value = true)
    (hoffence : ∀ nodes, part.offence? nodes value = (roomFault? nodes depth).or fault)
    (hfault : ∀ violation, fault = some violation → result = .error ⟨path, violation⟩)
    (hnext : fault = none → Walks (liftM result : Reading α) inner) :
    Walks (do visit path depth; liftM result : Reading α) (⟨path, some part, value⟩ :: inner) :=
  walks_visit hnode hoffence (fun violation h => lift_eq_error (hfault violation h)) hnext

/-- A node whose check says all about it. -/
theorem Reports.walks_node {depth : Nat} {part : Part} {value : Json} {fault : Option Violation}
    {result : Except FilterError α} (h : Reports result path fault)
    (hnode : part.isNode value = true)
    (hoffence : ∀ nodes, part.offence? nodes value = (roomFault? nodes depth).or fault)
    (hinner : ∀ a : α, Walks (pure a) (innerPlaces path (some part) value)) :
    Walks (do visit path depth; liftM result : Reading α) (places path (some part) value) := by
  rw [places_eq]
  refine walks_check hnode hoffence ?_ ?_
  · rintro violation rfl
    exact h
  · rintro rfl
    obtain ⟨a, rfl⟩ := h
    exact hinner a

/-- An operator that takes a list looks at it first, and then at its items. -/
theorem walks_membership {operator : Operator} {depth : Nat} {raw : Json} (negated : Bool)
    (hread : readTest path operator raw = match raw with
      | .array items => Test.membership negated <$> readList path items
      | _ => throw ⟨path, .notAnArray operator.key⟩)
    (hfault : operator.fault? raw = raw.listFault? operator.key)
    (hitem : (Part.operand operator depth).item? = some .listed) :
    Walks (do visit path depth; liftM (readTest path operator raw) : Reading Test)
      (places path (some (.operand operator depth)) raw) := by
  have hoffence (nodes : Nat) : (Part.operand operator depth).offence? nodes raw =
      (roomFault? nodes depth).or (raw.listFault? operator.key) :=
    congrArg (roomFault? nodes depth).or hfault
  rw [hread]
  cases raw with
  | array items =>
    obtain ⟨htoo, hlist⟩ := walks_readList path (some (.operand operator depth)) operator.key items
      hitem
    refine walks_check rfl hoffence ?_ fun h => (hlist h).map_lift (Test.membership negated)
    intro violation h
    change Test.membership negated <$> readList path items = _
    rw [htoo violation h]
    rfl
  | _ =>
    rw [places_eq]
    refine walks_check rfl hoffence ?_ fun h => nomatch h
    intro violation h
    cases h
    rfl

/-- An operator with its operand is a node. -/
theorem walks_operand (path : List Step) (operator : Operator) (depth : Nat) (raw : Json) :
    Walks (do visit path depth; liftM (readTest path operator raw) : Reading Test)
      (places path (some (.operand operator depth)) raw) := by
  by_cases hin : operator = .isIn
  · subst hin
    exact walks_membership false rfl rfl rfl
  by_cases hnot : operator = .notIn
  · subst hnot
    exact walks_membership true rfl rfl rfl
  have hitem : (some (Part.operand operator depth)).bind Part.item? = none := by
    cases operator <;> first | rfl | contradiction
  exact (reports_readTest hin hnot raw).walks_node rfl (fun _ => rfl)
    fun test => walks_innerPlaces test (fun _ => rfl) hitem raw

end Operands

/-! ### Fields -/

theorem walks_readOperators (field : FieldPath) (path : List Step) (name : String) (depth : Nat)
    (operators : List (String × Json)) : Walks (readOperators field path depth operators)
      (memberPlaces path (some (.field name depth)) operators) := by
  induction operators with
  | nil => exact Walks.pure []
  | cons member rest ih =>
    obtain ⟨key, raw⟩ := member
    have hpart : (some (Part.field name depth)).bind (Part.member? key) =
        (Operator.ofKey? key).map fun operator => .operand operator depth := rfl
    rw [readOperators, memberPlaces, hpart]
    cases Operator.ofKey? key with
    | none => exact (walks_ignored () raw _).bind fun _ => ih
    | some operator =>
      have hread := (walks_operand (path ++ [.member key]) operator depth raw).bind fun test =>
        ih.map fun others => Predicate.leaf ⟨field, test⟩ :: others
      rwa [bind_assoc] at hread

/-- A scalar is compared with. -/
theorem walks_equality (field : FieldPath) {path : List Step} {part : Part} {depth : Nat}
    {raw : Json} (hnode : part.isNode raw = true)
    (hoffence : ∀ nodes, part.offence? nodes raw = (roomFault? nodes depth).or raw.scalarFault?)
    (hinner : innerPlaces path (some part) raw = []) :
    Walks (do
      visit path depth
      let value ← readScalar path raw
      pure [.leaf ⟨field, .compare .eq value⟩] : Reading (List Predicate))
      (places path (some part) raw) := by
  have hnothing (value : Scalar) : Walks (pure value) (innerPlaces path (some part) raw) := by
    rw [hinner]
    exact Walks.pure value
  have hread := ((reports_readScalar raw).walks_node hnode hoffence hnothing).map
    fun value => [Predicate.leaf ⟨field, .compare .eq value⟩]
  rwa [bind_assoc] at hread

/-- A field is a node if it holds a value, and its operators are if it holds these. -/
theorem walks_readField (name : String) (path : List Step) (depth : Nat) (raw : Json) :
    Walks (readField name path depth raw) (places path (some (.field name (depth + 1))) raw) := by
  rw [readField]
  cases hfield : FieldPath.ofString? name with
  | none =>
    have hname : ¬ IsFieldName name := by
      rw [← isFieldName_iff, hfield]
      simp
    rw [places_eq]
    have hoffence (nodes : Nat) : (⟨path, some (.field name (depth + 1)), raw⟩ : Place).offence?
        nodes = some (.invalidField name) := by
      simp [Place.offence?, Part.offence?, hname]
    exact walks_offence hoffence fun _ => rfl
  | some field =>
    have hname : IsFieldName name := isFieldName_iff.mp ⟨field, hfield⟩
    have hfree (nodes : Nat) (value : Json) : (Part.field name (depth + 1)).offence? nodes value =
        match value with
        | .object _ => none
        | .array items =>
          (roomFault? nodes (depth + 1)).or (Operator.isIn.fault? (.array items))
        | scalar => (roomFault? nodes (depth + 1)).or (Operator.eq.fault? scalar) := if_pos hname
    cases raw with
    | object operators =>
      have hoffence (nodes : Nat) : (⟨path, some (.field name (depth + 1)), .object operators⟩ :
          Place).offence? nodes = none := hfree nodes (.object operators)
      exact (walks_readOperators field path name (depth + 1) operators).behind hoffence rfl
    | array items =>
      have hlist := walks_readList path (some (.field name (depth + 1))) Operator.isIn.key items rfl
      have hcheck : Walks (do visit path (depth + 1); liftM (readList path items) :
          Reading (List Scalar)) (places path (some (.field name (depth + 1))) (.array items)) :=
        walks_check rfl (fun nodes => hfree nodes (.array items)) hlist.1 hlist.2
      have hread := hcheck.map fun values => [Predicate.leaf ⟨field, .membership false values⟩]
      rwa [bind_assoc] at hread
    | null => exact walks_equality field rfl (fun nodes => hfree nodes _) rfl
    | bool b => exact walks_equality field rfl (fun nodes => hfree nodes _) rfl
    | number n => exact walks_equality field rfl (fun nodes => hfree nodes _) rfl
    | string text => exact walks_equality field rfl (fun nodes => hfree nodes _) rfl

/-! ### Documents -/

theorem walks_readItems {items : List Json} {depth : Nat} {part : Option Part}
    (ih : ∀ item ∈ items, ∀ path, Walks (readFilter path depth item)
      (places path (some (.filter depth)) item))
    (hitem : part.bind Part.item? = some (.filter depth)) (path : List Step) (position : Nat) :
    Walks (readItems path position depth items) (itemPlaces path part position items) := by
  induction items generalizing position with
  | nil => exact Walks.pure []
  | cons item items ihItems =>
    rw [readItems, itemPlaces, hitem]
    exact (ih item List.mem_cons_self _).bind fun child =>
      (ihItems (fun i hi => ih i (List.mem_cons_of_mem _ hi)) _).map
        fun others => child.toList ++ others

theorem walks_readMember (path : List Step) (depth : Nat) (key : String) {raw : Json}
    (hraw : ∀ path depth, Walks (readFilter path depth raw) (places path (some (.filter depth)) raw))
    (hitems : ∀ items, raw = .array items → ∀ item ∈ items, ∀ path depth,
      Walks (readFilter path depth item) (places path (some (.filter depth)) item)) :
    Walks (readMember path depth key raw)
      (places (path ++ [.member key]) ((some (Part.filter depth)).bind (Part.member? key)) raw) := by
  have hpart : (some (Part.filter depth)).bind (Part.member? key) =
      if key = "$and" ∨ key = "$or" then some (.group key (depth + 1))
      else if key = "$not" then some (.filter (depth + 1))
      else if isReserved key then none
      else some (.field key (depth + 1)) := rfl
  rw [hpart]
  unfold readMember
  by_cases hgroup : key = "$and" ∨ key = "$or"
  · simp only [if_pos hgroup]
    cases raw with
    | array items =>
      rw [places_eq]
      refine Walks.behind ?_ (fun _ => rfl) rfl
      cases items with
      | nil => exact Walks.pure _
      | cons item items =>
        exact (@walks_readItems (item :: items) (depth + 1) (some (.group key (depth + 1)))
          (fun item hmem path => hitems _ rfl item hmem path _) rfl
          (path ++ [.member key]) 0).map fun children => if children.isEmpty then []
            else [(if key = "$and" then Predicate.all else Predicate.any) children]
    | _ =>
      rw [places_eq]
      exact walks_offence (fun _ => rfl) fun _ => rfl
  · simp only [if_neg hgroup]
    by_cases hnot : key = "$not"
    · simp only [if_pos hnot]
      exact (hraw (path ++ [.member key]) (depth + 1)).map
        fun child => (child.map Predicate.not).toList
    · simp only [if_neg hnot]
      cases isReserved key with
      | true => exact walks_ignored [] raw _
      | false => exact walks_readField key (path ++ [.member key]) depth raw

theorem walks_readMembers {members : List (String × Json)} {depth : Nat}
    (ih : ∀ member ∈ members,
      (∀ path depth, Walks (readFilter path depth member.2)
        (places path (some (.filter depth)) member.2)) ∧
      ∀ items, member.2 = .array items → ∀ item ∈ items, ∀ path depth,
        Walks (readFilter path depth item) (places path (some (.filter depth)) item))
    (path : List Step) :
    Walks (readMembers path depth members) (memberPlaces path (some (.filter depth)) members) := by
  induction members with
  | nil =>
    rw [readMembers]
    exact Walks.pure []
  | cons member rest ihMembers =>
    obtain ⟨key, raw⟩ := member
    obtain ⟨hraw, hitems⟩ := ih (key, raw) List.mem_cons_self
    have hrest := ihMembers fun m hm => ih m (List.mem_cons_of_mem _ hm)
    rw [readMembers_cons, memberPlaces]
    exact (walks_readMember path depth key hraw hitems).bind fun own =>
      hrest.map fun others => own ++ others

/-- Reading a filter is a walk through all that is in it. -/
theorem walks_readFilter (document : Json) : ∀ path depth,
    Walks (readFilter path depth document) (places path (some (.filter depth)) document) := by
  induction document using Json.filter_induct with
  | object members ih =>
    intro path depth
    rw [readFilter, places_eq]
    have hroom (nodes : Nat) : (Part.filter depth).offence? nodes (.object members) =
        (roomFault? nodes depth).or none := Option.or_none.symm
    refine walks_visit rfl hroom ?_ ?_
    · intro violation h
      cases h
    · intro _
      exact (walks_readMembers ih path).map conjunction
  | other document hobject =>
    intro path depth
    have hoffence (nodes : Nat) : (Part.filter depth).offence? nodes document =
        (roomFault? nodes depth).or (some .notAnObject) := by
      cases document with
      | object members => exact absurd rfl (hobject members)
      | _ => rfl
    rw [readFilter_of_ne_object path depth hobject, places_eq]
    refine walks_visit rfl hoffence ?_ ?_
    · intro violation h nodes
      cases h
      rfl
    · intro h
      cases h

end Filter

open KnowledgeSearch.Filter in
/-- **The first offence is reported.**  The places of a document are all values that steps
    lead to, in depth-first order with the members of objects in the order of their keys; a
    document is rejected for the first of them that breaks a rule or is one node too many, and
    the path of the error is the text of the steps to it. -/
theorem Predicate.ofJson_firstOffence (document : Json) :
    (∀ steps value, document.Leads steps value ↔
      ∃ part, ⟨steps, part, value⟩ ∈ documentPlaces document) ∧
    (document.Ordered →
      (documentPlaces document).Pairwise fun a b => Step.Earlier a.path b.path) ∧
    ∀ e, (ofJson document = .error e ↔ FirstOffence 0 (documentPlaces document) e) ∧
      (ofJson document = .error e → (∃ value, document.Leads e.path value) ∧
        e.place = "$" ++ String.join (e.path.map Step.text)) := by
  have hleads (steps : List Step) (value : Json) : document.Leads steps value ↔
      ∃ part, ⟨steps, part, value⟩ ∈ documentPlaces document := by
    constructor
    · intro h
      exact mem_places_of_leads h [] (some (.filter 1))
    · rintro ⟨part, hmem⟩
      obtain ⟨steps', hpath, h⟩ := leads_of_mem_places document [] (some (.filter 1)) _ hmem
      cases hpath
      exact h
  have hfirst (e : FilterError) :
      ofJson document = .error e ↔ FirstOffence 0 (documentPlaces document) e := by
    rw [← foldlM_pass_eq_error, documentPlaces, ← walks_readFilter document [] 1 0]
    change Prod.fst <$> readFilter [] 1 document 0 = _ ↔ _
    cases readFilter [] 1 document 0 with
    | error fault =>
      change Except.error fault = Except.error e ↔ Except.error fault = Except.error e
      simp only [Except.error.injEq]
    | ok read => simp
  refine ⟨hleads, fun h => pairwise_places h [] (some (.filter 1)), fun e => ⟨hfirst e, ?_⟩⟩
  intro herror
  obtain ⟨earlier, place, later, hsplit, -, hpath, -⟩ := (hfirst e).mp herror
  have hmem : place ∈ documentPlaces document := by simp [hsplit]
  rw [← hpath]
  refine ⟨⟨place.value, (hleads _ _).mpr ⟨place.part, hmem⟩⟩, ?_⟩
  rw [FilterError.place, ← hpath, Step.render_eq]

/-- Of three faults the deepest is met first. -/
example : Predicate.ofJson (.object [
      ("$or", .array [.object [("rating", .object [("$in", .bool true), ("$lt", .null)])]]),
      ("1st", .null)]) =
    .error ⟨[.member "$or", .index 0, .member "rating", .member "$in"], .notAnArray "$in"⟩ := by
  rfl

end KnowledgeSearch
