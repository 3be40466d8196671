/-
  KnowledgeSearch/Proofs/Search/Selection.lean
  ============================================
  **A ranking is a stable selection.**

  The comparison of two scores is the comparison of their places on a line, on which nan is
  the last one (`Binary.place`).  So it orders all scores, and a ranking is what sorting makes
  of the candidates that match, each scored on its own: the best ones, and of those that are
  equally good the first ones (`Candidate.rank_selects`).  A score depends on the ranks of all
  candidates that match, but on nothing else of the others (`Candidate.score_eq_map`).
-/
import KnowledgeSearch.Proofs.Search.Ranking
import KnowledgeSearch.Proofs.Numeric.Ordinal

namespace KnowledgeSearch

open Format (binary32)

/-! ### The order of scores -/

/-- Where a score stands in a descending order; nan stands behind all numbers. -/
def Binary.place (x : Single) : Int :=
  match x.rank? with
  | none => binary32.infinity + 1
  | some r => -r

theorem Binary.place_lt_nan (negative : Bool) (k : Fin (binary32.infinity + 1)) :
    place (.signed negative k) < place .nan := by
  have hk := k.isLt
  simp only [place, rank?]
  split <;> omega

theorem compareDescending_eq : compareDescending = compareOn Binary.place := by
  funext x y
  cases x with
  | nan =>
    cases y with
    | nan => rfl
    | signed t b => exact (Int.compare_eq_gt.mpr (Binary.place_lt_nan t b)).symm
  | signed s a =>
    cases y with
    | nan => exact (Int.compare_eq_lt.mpr (Binary.place_lt_nan s a)).symm
    | signed t b =>
      exact Binary.compare_eq_of_lt_iff Int.neg_lt_neg_iff.symm Int.neg_lt_neg_iff.symm

instance : Std.TransCmp compareDescending := by
  rw [compareDescending_eq]
  infer_instance

theorem compareDescending_eq_compare {x y : Single} (hx : x.isNaN = false) (hy : y.isNaN = false) :
    compareDescending x y = compare y.signedUnits x.signedUnits := by
  rw [compareDescending, hx, hy, Binary.compare?_eq hy hx]
  rfl

theorem compareDescending_swap (x y : Single) :
    compareDescending x y = (compareDescending y x).swap := Std.OrientedCmp.eq_swap

namespace SearchResult

variable {a b : SearchResult}

theorem precedes_iff : a.precedes b = true ↔ (compareDescending a.score b.score).isLE = true := by
  rw [precedes, bne_iff_ne, Ordering.isLE_iff_ne_gt]

theorem precedes_trans (a b c : SearchResult) (hab : a.precedes b = true)
    (hbc : b.precedes c = true) : a.precedes c = true := by
  rw [precedes_iff] at *
  exact Std.TransCmp.isLE_trans hab hbc

theorem precedes_total (a b : SearchResult) : (a.precedes b || b.precedes a) = true := by
  rw [Bool.or_eq_true, precedes_iff, precedes_iff, compareDescending_swap a.score]
  cases compareDescending b.score a.score <;> decide

/-- Whether a result stands before another: it scores higher, or as high and has the smaller
    position. -/
def Before (a b : SearchResult × Nat) : Prop :=
  compareDescending a.1.score b.1.score = .lt ∨
    compareDescending a.1.score b.1.score = .eq ∧ a.2 < b.2

theorem Before.ne_gt {a b : SearchResult × Nat} (h : Before a b) :
    compareDescending a.1.score b.1.score ≠ .gt := by
  rcases h with hlt | ⟨heq, -⟩
  · simp [hlt]
  · simp [heq]

/-- Results that are numbered and sorted: the number decides where the score does not. -/
theorem pairwise_before_mergeSort (results : List SearchResult) :
    (results.zipIdx.mergeSort fun a b => a.1.precedes b.1).Pairwise Before := by
  have hpositions : results.zipIdx.Pairwise fun a b => a.2 < b.2 := by
    rw [← List.pairwise_map, List.zipIdx_map_snd]
    exact List.pairwise_lt_range'
  refine List.Pairwise.imp ?_ (pairwise_mergeSort_stable
    (fun a b c => precedes_trans a.1 b.1 c.1) (fun a b => precedes_total a.1 b.1) hpositions)
  rintro a b ⟨hab, htied⟩
  rw [precedes_iff] at hab htied
  rcases Ordering.isLE_iff_eq_lt_or_eq_eq.mp hab with hlt | heq
  · exact .inl hlt
  · refine .inr ⟨heq, htied ?_⟩
    rw [compareDescending_swap, heq]
    rfl

theorem map_fst_mergeSort (results : List SearchResult) :
    (results.zipIdx.mergeSort fun a b => a.1.precedes b.1).map Prod.fst =
      results.mergeSort precedes := by
  rw [List.map_mergeSort (f := Prod.fst) fun _ _ _ _ => rfl, List.zipIdx_map_fst]

end SearchResult

/-! ### Scoring candidates -/

/-- The least of the finite ranks. -/
def lowest (ranks : List Single) : Single :=
  (ranks.filter Binary.isFinite).foldl Binary.minimum Binary.infinity

/-- The greatest of the finite ranks. -/
def highest (ranks : List Single) : Single :=
  (ranks.filter Binary.isFinite).foldl Binary.maximum (-Binary.infinity)

/-- The text score of a rank among the ranks of a search. -/
def scaledRank (ranks : List Single) (rank : Single) : Single :=
  if !((lowest ranks).isFinite && (highest ranks).isFinite) ||
      (highest ranks - lowest ranks).le rankResolution then
    if rank.isFinite && Binary.lt .zero rank then .half else .zero
  else if rank.isFinite then
    ((rank - lowest ranks) / (highest ranks - lowest ranks)).clamp .zero .one
  else .zero

theorem scaleRanks_eq_map (ranks : List Single) :
    scaleRanks ranks = ranks.map (scaledRank ranks) := by
  unfold scaleRanks scaledRank lowest highest
  dsimp only
  split <;> rfl

namespace Candidate

variable (table : String) (weights : HybridWeights) (limit : Nat) (candidates : List Candidate)

/-- The ranks that a text score is scaled by: those of the candidates that match. -/
def eligibleRanks : List Single := (candidates.filter isEligible).map textRank

/-- Candidates are scored one by one, given the ranks of all that match. -/
theorem score_eq_map :
    score table weights candidates = (candidates.filter isEligible).map fun c =>
      c.toResult table weights (scaledRank (eligibleRanks candidates) c.textRank) := by
  rw [score, scaleRanks_eq_map, ← eligibleRanks, eligibleRanks, List.map_map,
    List.zipWith_map_right, List.zipWith_self]
  rfl

variable {table weights limit candidates} in
theorem mem_rank {r : SearchResult} (h : r ∈ rank table weights limit candidates) :
    ∃ c ∈ candidates, c.isEligible = true ∧
      r = c.toResult table weights (scaledRank (eligibleRanks candidates) c.textRank) := by
  have hscored : r ∈ score table weights candidates :=
    List.mem_mergeSort.mp (List.mem_of_mem_take h)
  rw [score_eq_map] at hscored
  obtain ⟨c, hc, rfl⟩ := List.mem_map.mp hscored
  exact ⟨c, (List.mem_filter.mp hc).1, (List.mem_filter.mp hc).2, rfl⟩

/-- The result of a candidate, among the ranks of a search. -/
structure Scored (ranks : List Single) (c : Candidate) (r : SearchResult) : Prop where
  table : r.table = table
  key : r.key = c.key
  row : r.row = c.row
  distance : r.distance = c.distance
  similarity : r.similarity = KnowledgeSearch.similarity c.distance
  textScore : r.textScore = some (scaledRank ranks c.textRank)
  hybridScore : r.hybridScore = some (Binary.clamp
    (weights.vector * KnowledgeSearch.similarity c.distance +
      weights.text * scaledRank ranks c.textRank) .zero .one)

/-- **A ranking is a stable selection of the best candidates.**  The comparison orders all
    scores: numbers by their values, the greatest first, and nan last.  The candidates that
    match are scored one by one, each with its own key, row and distance; the results are
    sorted by their scores, those of one score by their positions, and cut at the limit.  So
    there are as many as the limit allows, no score is above one before it, and none that is
    left out is above one that is kept. -/
theorem rank_selects :
    Std.TransCmp compareDescending ∧
    (∀ x y : Single, x.isNaN = false → y.isNaN = false →
      compareDescending x y = compare y.signedUnits x.signedUnits) ∧
    (∀ x : Single, x.isNaN = false → compareDescending x .nan = .lt) ∧
    scaleRanks (eligibleRanks candidates) =
      (eligibleRanks candidates).map (scaledRank (eligibleRanks candidates)) ∧
    ∃ (scored : List SearchResult) (ranking : List (SearchResult × Nat)),
      List.Forall₂ (Scored table weights (eligibleRanks candidates))
        (candidates.filter isEligible) scored ∧
      ranking.Perm scored.zipIdx ∧
      ranking.Pairwise SearchResult.Before ∧
      rank table weights limit candidates = (ranking.take limit).map Prod.fst ∧
      (rank table weights limit candidates).length =
        min limit (candidates.filter isEligible).length ∧
      (rank table weights limit candidates).Pairwise
        (fun a b => compareDescending a.score b.score ≠ .gt) ∧
      ∀ kept ∈ ranking.take limit, ∀ dropped ∈ ranking.drop limit,
        compareDescending kept.1.score dropped.1.score ≠ .gt := by
  have hscored : List.Forall₂ (Scored table weights (eligibleRanks candidates))
      (candidates.filter isEligible) (score table weights candidates) := by
    rw [score_eq_map, List.forall₂_map_right_iff, List.forall₂_same]
    exact fun c _ => ⟨rfl, rfl, rfl, rfl, rfl, rfl, rfl⟩
  have hbefore := SearchResult.pairwise_before_mergeSort (score table weights candidates)
  have hrank : rank table weights limit candidates = (((score table weights candidates).zipIdx
      |>.mergeSort fun a b => a.1.precedes b.1).take limit).map Prod.fst := by
    rw [rank, ← SearchResult.map_fst_mergeSort, List.map_take]
  refine ⟨inferInstance, fun x y => compareDescending_eq_compare, ?_, scaleRanks_eq_map _,
    _, _, hscored, List.mergeSort_perm _ _, hbefore, hrank, ?_, ?_, ?_⟩
  · intro x hx
    rw [compareDescending, hx]
    rfl
  · rw [hrank, List.length_map, List.length_take, List.length_mergeSort, List.length_zipIdx,
      hscored.length_eq]
  · rw [hrank, List.pairwise_map]
    exact (hbefore.sublist (List.take_sublist _ _)).imp SearchResult.Before.ne_gt
  · intro kept hkept dropped hdropped
    rw [← List.take_append_drop limit (List.mergeSort _ _), List.pairwise_append] at hbefore
    exact (hbefore.2.2 kept hkept dropped hdropped).ne_gt

end Candidate

end KnowledgeSearch
