/-
  KnowledgeSearch/Search/Scoring.lean
  ===================================
  **Scores and ranking.**

  A hybrid search weighs the text rank of a row against the similarity of its
  embedding.  Text ranks are scaled over the candidates of one search, a distance
  becomes a similarity in the unit interval, and the two weights sum to one, so that
  hybrid scores of one search can be compared.  Candidates come in the order of
  their primary keys, and equal scores keep that order.
-/
import KnowledgeSearch.Json.Report
import KnowledgeSearch.Search.Error

namespace KnowledgeSearch

/-! ### Weights -/

/-- The weights of text and vector in a hybrid score. -/
structure HybridWeights where
  text : Single
  vector : Single
deriving DecidableEq

namespace HybridWeights

/-- Whether a number can be a weight at all. -/
def check (weight : WeightName) (value : Single) : Except SearchFault Unit :=
  if !value.isFinite then .error (.weightNotFinite weight)
  else if value.lt .zero then .error (.weightNegative weight)
  else .ok ()

/-- Rescales two weights so that they sum to one; two zeros are an even split. -/
def normalized (text vector : Single) : Except SearchFault HybridWeights := do
  check .text text
  check .vector vector
  let sum := text + vector
  if sum.le .zero then pure ⟨.half, .half⟩ else pure ⟨text / sum, vector / sum⟩

end HybridWeights

/-! ### Scores -/

/-- The comparison of two scores for a descending order, a nan coming last. -/
def compareDescending (x y : Single) : Ordering :=
  match x.isNaN, y.isNaN with
  | true, true => .eq
  | true, false => .gt
  | false, true => .lt
  | false, false => (y.compare? x).getD .eq

/-- The similarity of a row at a distance; a row without one is not similar. -/
def similarity : Option Single → Single
  | none => .zero
  | some distance => (Binary.one - distance).clamp .zero .one

/-- The least difference at which two ranks count as different: the distance from 1
    to the next number. -/
def rankResolution : Single := Binary.one / Binary.ofNat 0x800000

/-- Scales text ranks to the unit interval.  Where the finite ranks do not differ,
    every positive one counts half; a rank that is not finite counts nothing. -/
def scaleRanks (ranks : List Single) : List Single :=
  let finite := ranks.filter Binary.isFinite
  let low := finite.foldl Binary.minimum Binary.infinity
  let high := finite.foldl Binary.maximum (-Binary.infinity)
  if !(low.isFinite && high.isFinite) || (high - low).le rankResolution then
    ranks.map fun rank => if rank.isFinite && Binary.lt .zero rank then .half else .zero
  else
    ranks.map fun rank =>
      if rank.isFinite then ((rank - low) / (high - low)).clamp .zero .one else .zero

/-! ### Results -/

structure SearchResult where
  table : String
  key : Json
  row : Row
  distance : Option Single
  similarity : Single
  textScore : Option Single
  hybridScore : Option Single

namespace SearchResult

/-- The report of a result.  Scores that it does not have are left out. -/
def toReport (result : SearchResult) : Report :=
  let score := fun (name : String) (value : Option Single) =>
    (value.map fun x => (name, Report.single x)).toList
  .record <|
    [("table", .text result.table), ("key", .ofJson result.key),
      ("row", .record (Report.ofMembers result.row)), ("distance", .ofSingle? result.distance),
      ("similarity", .single result.similarity)] ++
    score "text_score" result.textScore ++ score "hybrid_score" result.hybridScore

def score (result : SearchResult) : Single := result.hybridScore.getD .zero

/-- Whether a result may stand before another. -/
def precedes (left right : SearchResult) : Bool :=
  compareDescending left.score right.score != .gt

end SearchResult

/-- The text of a primary key, to compare with the identifiers that callers give. -/
def keyText : Json → String
  | .string text => text
  | other => other.compact

/-! ### Ranking -/

/-- A row found for a hybrid search, not scored yet. -/
structure Candidate where
  key : Json
  row : Row
  textRank : Single
  distance : Option Single

namespace Candidate

/-- Whether a candidate matches the query at all. -/
def isEligible (candidate : Candidate) : Bool :=
  Binary.lt .zero candidate.textRank || candidate.distance.isSome

def toResult (table : String) (weights : HybridWeights) (candidate : Candidate)
    (textScore : Single) : SearchResult :=
  let similarity := similarity candidate.distance
  let hybrid := weights.vector * similarity + weights.text * textScore
  { table
    key := candidate.key
    row := candidate.row
    distance := candidate.distance
    similarity
    textScore := some textScore
    hybridScore := some (hybrid.clamp .zero .one) }

/-- The candidates that match, with their scores and in their own order. -/
def score (table : String) (weights : HybridWeights) (candidates : List Candidate) :
    List SearchResult :=
  let eligible := candidates.filter isEligible
  eligible.zipWith (toResult table weights) (scaleRanks (eligible.map textRank))

/-- The best candidates, at most `limit` of them. -/
def rank (table : String) (weights : HybridWeights) (limit : Nat)
    (candidates : List Candidate) : List SearchResult :=
  ((score table weights candidates).mergeSort SearchResult.precedes).take limit

end Candidate

end KnowledgeSearch
