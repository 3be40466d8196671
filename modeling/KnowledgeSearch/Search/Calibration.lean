/-
  KnowledgeSearch/Search/Calibration.lean
  =======================================
  **Calibration of the weights.**

  Given queries of which the relevant keys are known, calibration tries a grid of
  vector weights, the text weight being what is left to one, and makes the pair with
  the best mean F1 the default.  Candidates are fetched once for each sample; the
  grid is then gone through without the database, and of equally good pairs the first
  one wins.
-/
import KnowledgeSearch.Search.Hybrid

namespace KnowledgeSearch

/-! ### Measures -/

namespace Retrieval

/-- How many of the first `k` retrieved keys are relevant. -/
def hits (retrieved relevant : List String) (k : Nat) : Nat :=
  (retrieved.take k).countP relevant.contains

/-- The part of the first `k` places that hold a relevant key. -/
def precisionAt (retrieved relevant : List String) (k : Nat) : Single :=
  if k = 0 then .zero else Binary.ofNat (hits retrieved relevant k) / Binary.ofNat k

/-- The part of the relevant keys that is in the first `k` places; all of them, if
    none is relevant. -/
def recallAt (retrieved relevant : List String) (k : Nat) : Single :=
  if relevant.isEmpty then .one
  else Binary.ofNat (hits retrieved relevant k) / Binary.ofNat relevant.eraseDups.length

/-- The harmonic mean of precision and recall. -/
def f1 (p r : Single) : Single :=
  if (p + r).le .zero then .zero else Binary.ofNat 2 * p * r / (p + r)

end Retrieval

/-! ### Reports -/

/-- A pair of weights and how well it did. -/
structure CalibrationPoint where
  weights : HybridWeights
  meanPrecision : Single
  meanRecall : Single
  f1 : Single
deriving DecidableEq

structure CalibrationReport where
  table : String
  k : UInt32
  samples : Nat
  best : CalibrationPoint
  points : List CalibrationPoint
deriving DecidableEq

namespace CalibrationPoint

def toReport (p : CalibrationPoint) : Report :=
  .record [("text_weight", .single p.weights.text), ("vector_weight", .single p.weights.vector),
    ("precision", .single p.meanPrecision), ("recall", .single p.meanRecall), ("f1", .single p.f1)]

/-- The first point whose F1 no later point exceeds. -/
def best (first : CalibrationPoint) (others : List CalibrationPoint) : CalibrationPoint :=
  others.foldl (fun best point => if best.f1.lt point.f1 then point else best) first

end CalibrationPoint

def CalibrationReport.toReport (r : CalibrationReport) : Report :=
  .record [("table", .text r.table), ("k", .natural r.k.toNat), ("samples", .natural r.samples),
    ("best", r.best.toReport), ("points", .list (r.points.map CalibrationPoint.toReport))]

/-! ### The grid -/

structure FetchedSample where
  candidates : List Candidate
  relevantIds : List String

namespace FetchedSample

def retrieved (table : String) (weights : HybridWeights) (k : Nat) (sample : FetchedSample) :
    List String :=
  (Candidate.rank table weights k sample.candidates).map fun result => keyText result.key

/-- Precision and recall of a sample with some weights. -/
def measures (table : String) (weights : HybridWeights) (k : Nat) (sample : FetchedSample) :
    Single × Single :=
  let retrieved := sample.retrieved table weights k
  (Retrieval.precisionAt retrieved sample.relevantIds k,
    Retrieval.recallAt retrieved sample.relevantIds k)

def mean (values : List Single) : Single :=
  values.foldl (· + ·) .zero / Binary.ofNat values.length

/-- How well a vector weight does over all samples. -/
def point (table : String) (k : Nat) (samples : List FetchedSample) (vectorWeight : Single) :
    Except SearchFault CalibrationPoint := do
  let weights ← HybridWeights.normalized (Binary.one - vectorWeight) vectorWeight
  let measured := samples.map (measures table weights k)
  pure
    { weights
      meanPrecision := mean (measured.map Prod.fst)
      meanRecall := mean (measured.map Prod.snd)
      f1 := mean (measured.map fun m => Retrieval.f1 m.1 m.2) }

end FetchedSample

namespace Service

variable (s : Service)

/-! ### Calibrating -/

/-- Whether a number is in the unit interval. -/
def isUnit (x : Single) : Bool := Binary.le .zero x && x.le .one

/-- The grid and the cut-off of a calibration, if they are in order. -/
def checkCalibration (samples : List CalibrationSample) (grid : List Single) (k : UInt32) :
    Except SearchFault Unit :=
  let max := s.config.search.maxLimit
  if samples.isEmpty then .error .noSamples
  else if grid.isEmpty then .error .emptyGrid
  else
    match grid.find? fun weight => !isUnit weight with
    | some weight => .error (.gridValueOutside weight)
    | none => if k = 0 ∨ max < k then .error (.cutoffOutside max) else .ok ()

def fetchSample (table : String) (sample : CalibrationSample) : Search FetchedSample := do
  let p ← Search.ofExcept (s.prepareHybrid table sample.query sample.embedding none none)
  let candidates ← s.fetchCandidates p
  pure { candidates, relevantIds := sample.relevantIds }

/-- Fetches samples one after another, the first of them having the given position. -/
def fetchSamples (table : String) : Nat → List CalibrationSample → Search (List FetchedSample)
  | _, [] => pure []
  | position, sample :: samples => do
    let fetched ← Search.within s!"Calibration sample {position}" (s.fetchSample table sample)
    let others ← fetchSamples table (position + 1) samples
    pure (fetched :: others)

/-- Tries a grid of weights on some samples and makes the best pair the default.
    Without a grid or a cut-off the configured ones are taken. -/
def calibrate (table : String) (samples : List CalibrationSample) (grid : Option (List Single))
    (k : Option UInt32) : Search CalibrationReport := do
  let hybrid := s.config.search.hybrid
  let grid := grid.getD hybrid.calibrationGrid
  let k := k.getD hybrid.calibrationK
  Search.ofExcept (s.checkCalibration samples grid k)
  let fetched ← s.fetchSamples table 0 samples
  let points ← Search.ofExcept (grid.mapM (FetchedSample.point table k.toNat fetched))
  match points with
  | [] => Search.ofExcept (.error .emptyGrid)
  | first :: others =>
    let best := CalibrationPoint.best first others
    Search.setDefaultWeights best.weights
    pure { table, k, samples := samples.length, best, points }

end Service

end KnowledgeSearch
