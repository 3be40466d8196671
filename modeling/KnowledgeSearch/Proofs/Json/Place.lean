/-
  KnowledgeSearch/Proofs/Json/Place.lean
  ======================================
  **A string at a place in a document.**

  A place is a document with a hole where a member's string stands.  Its levels are `Frame`s,
  one for each object or array around the hole.  The compact text of the filled document is a
  text that does not depend on the string, the string, and another such text (`toChars_fill`).
-/
import KnowledgeSearch.Json.Printer
import KnowledgeSearch.Proofs.Text.Class

namespace KnowledgeSearch

/-- Texts of ASCII letters and digits. -/
def IsPlain (w : String) : Prop := w ≠ "" ∧ ∀ c ∈ w.toList, c.isAlphanum = true

instance (w : String) : Decidable (IsPlain w) :=
  @instDecidableAnd (w ≠ "") _ inferInstance (List.decidableBAll _ w.toList)

namespace Json

/-! ### Frames -/

/-- The compact text of a member behind another one. -/
def memberText (member : String × Json) : List Char :=
  ',' :: (quote member.1 ++ ':' :: member.2.toChars)

/-- The compact text of an item behind another one. -/
def itemText (item : Json) : List Char := ',' :: item.toChars

theorem membersToChars_append (earlier later : List (String × Json)) :
    membersToChars (earlier ++ later) = earlier.flatMap memberText ++ membersToChars later := by
  induction earlier with
  | nil => rfl
  | cons member earlier ih => simp [membersToChars, memberText, ih]

theorem itemsToChars_append (earlier later : List Json) :
    itemsToChars (earlier ++ later) = earlier.flatMap itemText ++ itemsToChars later := by
  induction earlier with
  | nil => rfl
  | cons item earlier ih => simp [itemsToChars, itemText, ih]

/-- No comma stands behind the bracket. -/
theorem toChars_object {members : List (String × Json)} (h : members ≠ []) :
    (object members).toChars = '{' :: (membersToChars members).tail := by
  cases members with
  | nil => exact absurd rfl h
  | cons member members => simp [toChars, membersToChars]

theorem toChars_array {items : List Json} (h : items ≠ []) :
    (array items).toChars = '[' :: (itemsToChars items).tail := by
  cases items with
  | nil => exact absurd rfl h
  | cons item items => simp [toChars, itemsToChars]

/-- One level of a document, with a hole in it. -/
inductive Frame where
  | member (earlier : List (String × Json)) (key : String) (later : List (String × Json))
  | item (earlier later : List Json)

namespace Frame

def plug : Frame → Json → Json
  | .member earlier key later, v => .object (earlier ++ (key, v) :: later)
  | .item earlier later, v => .array (earlier ++ v :: later)

/-- The compact text before the hole. -/
def before : Frame → List Char
  | .member earlier key _ =>
    '{' :: (earlier.flatMap memberText ++ ',' :: (quote key ++ [':'])).tail
  | .item earlier _ => '[' :: (earlier.flatMap itemText ++ [',']).tail

def after : Frame → List Char
  | .member _ _ later => membersToChars later
  | .item _ later => itemsToChars later

theorem toChars_plug (f : Frame) (v : Json) :
    (f.plug v).toChars = f.before ++ (v.toChars ++ f.after) := by
  cases f with
  | member earlier key later =>
    have htext : membersToChars (earlier ++ (key, v) :: later) =
        (earlier.flatMap memberText ++ ',' :: (quote key ++ [':'])) ++
          (v.toChars ++ membersToChars later) := by
      simp [membersToChars_append, membersToChars]
    rw [plug, toChars_object (by simp), htext, List.tail_append_of_ne_nil (by simp)]
    rfl
  | item earlier later =>
    have htext : itemsToChars (earlier ++ v :: later) =
        (earlier.flatMap itemText ++ [',']) ++ (v.toChars ++ itemsToChars later) := by
      simp [itemsToChars_append, itemsToChars]
    rw [plug, toChars_array (by simp), htext, List.tail_append_of_ne_nil (by simp)]
    rfl

end Frame

/-! ### Places -/

/-- The place of a member's string in a document: the frames around its object, from the outside
    inwards, and the other members of that object. -/
structure Place where
  outer : List Frame
  earlier : List (String × Json)
  key : String
  later : List (String × Json)

namespace Place

variable (place : Place)

def frames : List Frame := place.outer ++ [.member place.earlier place.key place.later]

/-- The document with a string at the place. -/
def fill (w : String) : Json := place.frames.foldr Frame.plug (.string w)

/-- The compact text up to the string's opening quotation mark. -/
def before : List Char := place.frames.flatMap Frame.before ++ ['"']

/-- The compact text from the string's closing quotation mark. -/
def after : List Char := '"' :: place.frames.reverse.flatMap Frame.after

end Place

theorem toChars_foldr_plug (frames : List Frame) (v : Json) :
    (frames.foldr Frame.plug v).toChars =
      frames.flatMap Frame.before ++ (v.toChars ++ frames.reverse.flatMap Frame.after) := by
  induction frames with
  | nil => simp
  | cons f frames ih => simp [Frame.toChars_plug, ih]

theorem escape_of_isAlphanum {c : Char} (h : c.isAlphanum = true) : escape c = [c] := by
  have hascii := Text.toNat_lt_of_isAlphanum h
  revert h
  exact Text.of_ascii (P := fun c => c.isAlphanum = true → escape c = [c])
    (by decide) hascii

theorem Place.toChars_fill (place : Place) {w : String} (hw : IsPlain w) :
    (place.fill w).toChars = place.before ++ (w.toList ++ place.after) := by
  have hescape : w.toList.flatMap escape = w.toList := by
    rw [List.flatMap_def, List.map_congr_left fun c hc => escape_of_isAlphanum (hw.2 c hc)]
    simp [← List.flatMap_def]
  simp [fill, toChars_foldr_plug, before, after, toChars, quote, hescape]

theorem Place.before_ends (place : Place) : ∃ init, place.before = init ++ [':', '"'] := by
  let opened : List Char := place.earlier.flatMap memberText ++ ',' :: quote place.key
  refine ⟨place.outer.flatMap Frame.before ++ '{' :: opened.tail, ?_⟩
  have hframe : (Frame.member place.earlier place.key place.later).before =
      '{' :: (opened ++ [':']).tail := by
    simp [Frame.before, opened]
  have htail : (opened ++ [':']).tail = opened.tail ++ [':'] :=
    List.tail_append_of_ne_nil (by simp [opened])
  simp [before, frames, hframe, htail]

end Json

end KnowledgeSearch
