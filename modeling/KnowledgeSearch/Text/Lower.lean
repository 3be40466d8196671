/-
  KnowledgeSearch/Text/Lower.lean
  ===============================
  **Lower case.**

  Full lower-casing of a text.  Almost every character has one partner of its own;
  two characters need a rule.  A dotted capital I becomes a small i and a combining
  dot, and a capital sigma becomes the final form of the small one where it ends a
  word: when a cased letter stands before it and none after it, characters that
  case ignores not counted.
-/
import KnowledgeSearch.Text.CaseTable

namespace KnowledgeSearch.Text

/-- Whether a code point lies in one of the ranges. -/
def inRanges (ranges : List (Nat × Nat)) (n : Nat) : Bool :=
  ranges.any fun (first, last) => first ≤ n && n ≤ last

/-- The lower-case partner of a character beyond ASCII, by its run. -/
def lowerBeyond? : List (Nat × Nat × Nat × Nat) → Nat → Option Nat
  | [], _ => none
  | (first, last, step, partner) :: runs, n =>
    if first ≤ n ∧ n ≤ last ∧ (n - first) % step = 0 then some (n - first + partner)
    else lowerBeyond? runs n

/-- The lower-case partner of a character that has one of its own, or itself. -/
def lowerChar (c : Char) : Char :=
  if c.toNat < 128 then c.toLower else ((lowerBeyond? lowerRuns c.toNat).map Char.ofNat).getD c

/-- Whether the nearest character that case does not ignore is cased. -/
def meetsCased (text : List Char) : Bool :=
  match text.dropWhile fun c => inRanges caseIgnorableRanges c.toNat with
  | [] => false
  | c :: _ => inRanges casedRanges c.toNat

/-- Lowers a text; `before` holds the characters before it, last first. -/
def lowerFrom (before : List Char) : List Char → List Char
  | [] => []
  | c :: rest =>
    let lowered :=
      if c = 'Σ' then [if meetsCased before && !meetsCased rest then 'ς' else 'σ']
      else if c = 'İ' then ['i', '\u0307']
      else [lowerChar c]
    lowered ++ lowerFrom (c :: before) rest

def lower (text : String) : String := String.ofList (lowerFrom [] text.toList)

end KnowledgeSearch.Text
