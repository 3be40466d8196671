/-
  KnowledgeSearch/Proofs/Search/Dominance.lean
  ============================================
  **No row outscores one that dominates it.**

  A row whose text ranks no lower and whose embedding is no farther away never scores lower:
  the scale of ranks, the similarity, the two products, their sum and the cut at one are all
  rounded without changing the order.  As equal scores keep the order of the candidates, such
  a row, if it comes first, is never cut off while the other one is returned
  (`Candidate.rank_dominating`).

  A distance that is nan is the exception.  It leaves no similarity and no score
  (`Candidate.score_result_nan`), so that such a candidate stands behind all others, whatever
  its text rank.  No row gives one (`Service.IsTaken.isNaN`).
-/
import KnowledgeSearch.Proofs.Search.RankScale

namespace KnowledgeSearch

open Format (binary32)
open Binary (AtOrdinal oneOrdinal)

/-! ### Similarities -/

namespace Binary

variable {x : Single} {k : Nat}

/-- A number that is brought between zero and one from above stays or becomes one. -/
theorem AtOrdinal.clamp (hx : x.AtOrdinal k) (hk : k ≤ binary32.infinity) :
    (x.clamp .zero .one).AtOrdinal (min k oneOrdinal) := by
  rcases le_total k oneOrdinal with hle | hle
  · rw [hx.clamp_eq hle, Nat.min_eq_left hle]
    exact hx
  · have hpositive : 0 < oneOrdinal := by decide
    obtain ⟨negative, j, rfl, hj, hsign⟩ := hx
    cases negative with
    | true => exact absurd (hsign rfl) (by omega)
    | false =>
      rw [clamp_positive]
      exact ⟨false, _, rfl, by simp only; omega, nofun⟩

/-- What a number leaves of one, also if it is infinite. -/
theorem clamp_one_sub_of_number (hx : x.isNaN = false) :
    (one - x).clamp zero one = x.complement := by
  cases hfinite : x.isFinite with
  | true => exact clamp_one_sub hfinite
  | false =>
    cases x with
    | nan => cases hx
    | signed negative j =>
      have hj : j = ⟨binary32.infinity, Nat.lt_succ_self _⟩ :=
        Fin.ext (by simpa [isFinite] using hfinite)
      rw [hj]
      cases negative <;> decide

theorem atOrdinal_complement : x.complement.AtOrdinal x.complementOrdinal :=
  ⟨false, _, rfl, (Nat.min_eq_left
    (x.complementOrdinal_le.trans oneOrdinal_lt_infinity.le)).symm, nofun⟩

theorem isNaN_of_le {y : Single} (h : x.le y = true) : x.isNaN = false ∧ y.isNaN = false := by
  obtain ⟨a, b, ha, hb, -⟩ := le_iff.mp h
  cases x with
  | nan => cases ha
  | signed =>
    cases y with
    | nan => cases hb
    | signed => exact ⟨rfl, rfl⟩

theorem signedUnits_le_of_le {y : Single} (h : x.le y = true) :
    x.signedUnits ≤ y.signedUnits := by
  obtain ⟨hx, hy⟩ := isNaN_of_le h
  rw [← not_lt, signedUnits_lt_iff hy hx, Bool.not_eq_true, not_lt_iff hy hx]
  exact h

end Binary

/-! ### Hybrid scores -/

/-- The ordinal of a product of numbers up to one. -/
def productOrdinal (a b : Nat) : Nat :=
  binary32.nearest (binary32.units a * binary32.units b) (2 ^ binary32.scale)

theorem productOrdinal_mono (a : Nat) {b b' : Nat} (h : b ≤ b') :
    productOrdinal a b ≤ productOrdinal a b' :=
  Format.nearest_mono (Nat.two_pow_pos _)
    (Nat.mul_le_mul_left _ (binary32.units_le_iff.mpr h))

theorem productOrdinal_le {a b : Nat} (ha : a ≤ oneOrdinal) (hb : b ≤ oneOrdinal) :
    productOrdinal a b ≤ oneOrdinal := by
  apply Format.nearest_le (Nat.two_pow_pos _)
  rw [Binary.units_oneOrdinal]
  exact Nat.mul_le_mul (Binary.units_oneOrdinal ▸ binary32.units_le_iff.mpr ha)
    (Binary.units_oneOrdinal ▸ binary32.units_le_iff.mpr hb)

/-- The ordinal of a hybrid score. -/
def hybridOrdinal (vector similarity text textScore : Nat) : Nat :=
  min (Binary.sumOrdinal (productOrdinal vector similarity) (productOrdinal text textScore))
    oneOrdinal

theorem hybridOrdinal_mono (vector text : Nat) {similarity similarity' textScore textScore' : Nat}
    (hsimilarity : similarity ≤ similarity') (hscore : textScore ≤ textScore') :
    hybridOrdinal vector similarity text textScore ≤
      hybridOrdinal vector similarity' text textScore' := by
  apply min_le_min_right
  apply Format.nearest_mono Nat.one_pos
  exact Nat.add_le_add (binary32.units_le_iff.mpr (productOrdinal_mono _ hsimilarity))
    (binary32.units_le_iff.mpr (productOrdinal_mono _ hscore))

/-- Two parts that are at most one have a finite sum. -/
theorem sumOrdinal_lt_infinity {a b : Nat} (ha : a ≤ oneOrdinal) (hb : b ≤ oneOrdinal) :
    Binary.sumOrdinal a b < binary32.infinity := by
  have htwo : Binary.sumOrdinal oneOrdinal oneOrdinal < binary32.infinity := by decide
  refine lt_of_le_of_lt ?_ htwo
  exact Format.nearest_mono Nat.one_pos
    (Nat.add_le_add (binary32.units_le_iff.mpr ha) (binary32.units_le_iff.mpr hb))

theorem atOrdinal_hybrid {vector similarity text textScore : Single} {a b c d : Nat}
    (hvector : vector.AtOrdinal a) (hsimilarity : similarity.AtOrdinal b)
    (htext : text.AtOrdinal c) (hscore : textScore.AtOrdinal d) (ha : a ≤ oneOrdinal)
    (hb : b ≤ oneOrdinal) (hc : c ≤ oneOrdinal) (hd : d ≤ oneOrdinal) :
    ((vector * similarity + text * textScore).clamp .zero .one).AtOrdinal
      (hybridOrdinal a b c d) := by
  have hfinite {k : Nat} (hk : k ≤ oneOrdinal) : k < binary32.infinity :=
    hk.trans_lt Binary.oneOrdinal_lt_infinity
  have hvectorPart := hvector.mul hsimilarity (hfinite ha) (hfinite hb)
  have htextPart := htext.mul hscore (hfinite hc) (hfinite hd)
  have hvectorUnit := productOrdinal_le ha hb
  have htextUnit := productOrdinal_le hc hd
  have hsum := hvectorPart.add htextPart (hfinite hvectorUnit) (hfinite htextUnit)
  exact hsum.clamp (sumOrdinal_lt_infinity hvectorUnit htextUnit).le

namespace Candidate

/-- Whether a candidate dominates another: its text ranks no lower, and the other one has no
    distance or is not nearer. -/
def Dominates (a b : Candidate) : Prop :=
  b.textRank.le a.textRank = true ∧
    (b.distance = none ∨
      ∃ x y, a.distance = some x ∧ b.distance = some y ∧ x.le y = true)

variable {a b : Candidate}

theorem atOrdinal_similarity (h : a.distance ≠ some .nan) :
    (similarity a.distance).AtOrdinal a.closeness ∧ a.closeness ≤ oneOrdinal := by
  cases hx : a.distance with
  | none =>
    rw [closeness, hx]
    exact ⟨Binary.atOrdinal_zero, Nat.zero_le _⟩
  | some x =>
    have hnumber : x.isNaN = false := by
      cases x with
      | nan => exact absurd hx h
      | signed => rfl
    rw [closeness_of_distance hx, similarity, Binary.clamp_one_sub_of_number hnumber]
    exact ⟨Binary.atOrdinal_complement, x.complementOrdinal_le⟩

namespace Dominates

theorem closeness_le (h : a.Dominates b) : b.closeness ≤ a.closeness := by
  obtain ⟨-, hnone | ⟨x, y, hx, hy, hle⟩⟩ := h
  · rw [closeness, hnone]
    exact Nat.zero_le _
  · rw [closeness_of_distance hx, closeness_of_distance hy]
    exact Binary.complementOrdinal_anti (Binary.signedUnits_le_of_le hle)

/-- The dominated candidate has a distance that is a number, if it has one. -/
theorem distance_ne_nan (h : a.Dominates b) : b.distance ≠ some .nan := by
  obtain ⟨-, hnone | ⟨x, y, -, hy, hle⟩⟩ := h
  · simp [hnone]
  · rw [hy]
    rintro ⟨⟩
    cases (Binary.isNaN_of_le hle).2

end Dominates

/-! ### Rankings -/

/-- What is not behind an element that is kept is kept as well. -/
theorem mem_take_of_not_rel {α : Type} {R : α → α → Prop} {l : List α} (h : l.Pairwise R)
    {limit : Nat} {x y : α} (hx : x ∈ l.take limit) (hy : y ∈ l) (hxy : ¬ R x y) :
    y ∈ l.take limit := by
  rw [← List.take_append_drop limit l] at h hy
  rcases List.mem_append.mp hy with hkept | hdropped
  · exact hkept
  · exact absurd ((List.pairwise_append.mp h).2.2 x hx y hdropped) hxy

/-- A score that is not above another does not come before it. -/
theorem compareDescending_ne_lt {x y : Single} (h : x.le y = true) :
    compareDescending x y ≠ .lt := by
  obtain ⟨hx, hy⟩ := Binary.isNaN_of_le h
  have hunits := Binary.signedUnits_le_of_le h
  rw [compareDescending_eq_compare hx hy, Ne, Int.compare_eq_lt, not_lt]
  exact hunits

section Ranking

variable {text vector : Single} {weights : HybridWeights}
  (hweights : HybridWeights.normalized text vector = .ok weights)
  {candidates : List Candidate} (hranks : AreRanks (candidates.map textRank))
  (table : String)

/-- The result of a candidate among others. -/
def result (table : String) (weights : HybridWeights) (candidates : List Candidate)
    (c : Candidate) : SearchResult :=
  c.toResult table weights (scaledRank (eligibleRanks candidates) c.textRank)

include hranks

theorem areRanks_eligible : AreRanks (eligibleRanks candidates) := by
  intro rank hrank
  obtain ⟨c, hc, rfl⟩ := List.mem_map.mp hrank
  exact hranks _ (List.mem_map_of_mem (List.mem_filter.mp hc).1)

include hweights

/-- A candidate does not score lower than one that it dominates. -/
theorem score_le_of_dominates (ha : a ∈ candidates.filter isEligible)
    (hb : b ∈ candidates.filter isEligible) (hdominates : a.Dominates b)
    (hnumber : a.distance ≠ some .nan) :
    (result table weights candidates b).score.le (result table weights candidates a).score =
      true := by
  have hscale := areRanks_eligible hranks
  have hmemA : a.textRank ∈ eligibleRanks candidates := List.mem_map_of_mem ha
  have hmemB : b.textRank ∈ eligibleRanks candidates := List.mem_map_of_mem hb
  have hunit {rank : Single} (hmem : rank ∈ eligibleRanks candidates) :=
    Service.isUnit_iff.mp ((scaledRank_cases hmem).2 (not_overreaches fun r hr => (hscale r hr).2))
  obtain ⟨p, hp, htextA⟩ := hunit hmemA
  obtain ⟨q, hq, htextB⟩ := hunit hmemB
  obtain ⟨htext, hvector⟩ := HybridWeights.isUnit_of_normalized hweights
  obtain ⟨c, hc, htext⟩ := Service.isUnit_iff.mp htext
  obtain ⟨d, hd, hvector⟩ := Service.isUnit_iff.mp hvector
  obtain ⟨hsimilarityA, hclosenessA⟩ := atOrdinal_similarity hnumber
  obtain ⟨hsimilarityB, hclosenessB⟩ := atOrdinal_similarity hdominates.distance_ne_nan
  have hscoreA := atOrdinal_hybrid hvector hsimilarityA htext htextA hd hclosenessA hc hp
  have hscoreB := atOrdinal_hybrid hvector hsimilarityB htext htextB hd hclosenessB hc hq
  have hfinite {v s t r : Nat} : hybridOrdinal v s t r ≤ binary32.infinity :=
    (Nat.min_le_right _ _).trans Binary.oneOrdinal_lt_infinity.le
  have hinfinity {k : Nat} (hk : k ≤ oneOrdinal) : k ≤ binary32.infinity :=
    hk.trans Binary.oneOrdinal_lt_infinity.le
  have hrank : q ≤ p := (htextB.le_iff htextA (hinfinity hq) (hinfinity hp)).mp
    (scaledRank_mono hscale hmemB hmemA hdominates.1)
  exact (hscoreB.le_iff hscoreA hfinite hfinite).mpr
    (hybridOrdinal_mono d c hdominates.closeness_le hrank)

/-- **A candidate that dominates another is returned before it.**  The eligible candidates are
    numbered, sorted by their scores and cut at the limit.  A candidate whose text ranks no
    lower than that of another one, which has no distance or is not nearer, does not score
    lower, unless its own distance is nan; and if it also comes first, the other one is not
    among the results without it. -/
theorem rank_dominating (limit : Nat) :
    ∃ ranking : List (Candidate × Nat),
      ranking.Perm (candidates.filter isEligible).zipIdx ∧
      rank table weights limit candidates =
        (ranking.take limit).map (fun c => result table weights candidates c.1) ∧
      ∀ a i b j, (a, i) ∈ (candidates.filter isEligible).zipIdx →
        (b, j) ∈ (candidates.filter isEligible).zipIdx →
        a.Dominates b → a.distance ≠ some .nan →
          (result table weights candidates b).score.le
              (result table weights candidates a).score = true ∧
            (i < j → (b, j) ∈ ranking.take limit → (a, i) ∈ ranking.take limit) := by
  let scored := fun c : Candidate × Nat => (result table weights candidates c.1, c.2)
  let ranking := (candidates.filter isEligible).zipIdx.mergeSort fun c d =>
    (scored c).1.precedes (scored d).1
  have hresults : (score table weights candidates).zipIdx =
      (candidates.filter isEligible).zipIdx.map scored := by
    rw [score_eq_map, List.zipIdx_map]
    rfl
  have hsorted : ranking.map scored =
      (score table weights candidates).zipIdx.mergeSort fun c d => c.1.precedes d.1 := by
    rw [hresults]
    exact List.map_mergeSort fun _ _ _ _ => rfl
  have hbefore : ranking.Pairwise fun c d => SearchResult.Before (scored c) (scored d) := by
    rw [← List.pairwise_map, hsorted]
    exact SearchResult.pairwise_before_mergeSort _
  have hperm : ranking.Perm (candidates.filter isEligible).zipIdx := List.mergeSort_perm _ _
  refine ⟨ranking, hperm, ?_, ?_⟩
  · rw [rank, ← SearchResult.map_fst_mergeSort, ← hsorted, List.map_map, List.map_take]
    rfl
  · intro a i b j ha hb hdominates hnumber
    have hscore := score_le_of_dominates hweights hranks table (List.fst_mem_of_mem_zipIdx ha)
      (List.fst_mem_of_mem_zipIdx hb) hdominates hnumber
    refine ⟨hscore, fun hij hkept => ?_⟩
    refine mem_take_of_not_rel hbefore hkept (hperm.mem_iff.mpr ha) ?_
    rintro (hlt | ⟨-, hji⟩)
    · exact compareDescending_ne_lt hscore hlt
    · exact absurd hji hij.not_gt

end Ranking

/-- A candidate whose distance is nan has no score. -/
theorem score_result_nan (h : a.distance = some .nan) (table : String) (weights : HybridWeights)
    (candidates : List Candidate) : (result table weights candidates a).score = .nan := by
  have hsimilarity : similarity a.distance = .nan := by
    rw [h]
    rfl
  have hproduct (x : Single) : x * (.nan : Single) = .nan := by cases x <;> rfl
  have hsum (x : Single) : (.nan : Single) + x = .nan := rfl
  change (weights.vector * similarity a.distance + weights.text * _).clamp .zero .one = .nan
  rw [hsimilarity, hproduct, hsum]
  rfl

/-- Rows that are found by their text are eligible. -/
theorem filter_ranked (distance : Option Single) :
    [ranked 1 .one distance, ranked 2 .half none].filter isEligible =
      [ranked 1 .one distance, ranked 2 .half none] := by
  have hone : Binary.lt .zero (.one : Single) = true := by decide
  have hhalf : Binary.lt .zero (.half : Single) = true := by decide
  simp [ranked, isEligible, hone, hhalf]

/-- A row with the higher rank and a distance stands before one without a distance. -/
theorem rank_dominating_two :
    ∃ ranking : List (Candidate × Nat),
      ranking.Perm [(ranked 1 .one (some (quarters 1)), 0), (ranked 2 .half none, 1)] ∧
      ((ranked 2 .half none, 1) ∈ ranking.take 1 →
        (ranked 1 .one (some (quarters 1)), 0) ∈ ranking.take 1) := by
  obtain ⟨ranking, hperm, -, hlaw⟩ := @rank_dominating _ _ _ normalized_zero
    [ranked 1 .one (some (quarters 1)), ranked 2 .half none]
    (by unfold AreRanks; decide) "notes" 1
  rw [filter_ranked] at hperm hlaw
  refine ⟨ranking, hperm, (hlaw _ _ _ _ (by simp) (by simp) ⟨?_, .inl rfl⟩ ?_).2 Nat.one_pos⟩
  · decide
  · simp [ranked, show quarters 1 ≠ .nan by decide]

/-- Two results change places if the first one may not stand before the second one. -/
theorem mergeSort_swap {x y : SearchResult} (h : x.precedes y = false) :
    [x, y].mergeSort SearchResult.precedes = [y, x] := by
  simp [List.mergeSort, List.MergeSort.Internal.splitInTwo, h]

/-- A row with the higher rank and a distance that is nan is cut off. -/
theorem rank_nan_distance :
    HybridWeights.normalized .zero .zero = .ok ⟨.half, .half⟩ ∧
    AreRanks ([ranked 1 .one (some .nan), ranked 2 .half none].map textRank) ∧
    (ranked 1 .one (some .nan)).isEligible = true ∧ (ranked 2 .half none).isEligible = true ∧
    (ranked 1 .one (some .nan)).Dominates (ranked 2 .half none) ∧
    (rank "notes" ⟨.half, .half⟩ 1 [ranked 1 .one (some .nan), ranked 2 .half none]).map
      SearchResult.key = [.ofNat 2] := by
  refine ⟨normalized_zero, by unfold AreRanks; decide, by decide,
    by decide, ⟨by decide, .inl rfl⟩, ?_⟩
  have hbehind : (result "notes" ⟨.half, .half⟩ [ranked 1 .one (some .nan), ranked 2 .half none]
      (ranked 1 .one (some .nan))).precedes (result "notes" ⟨.half, .half⟩
        [ranked 1 .one (some .nan), ranked 2 .half none] (ranked 2 .half none)) = false := by
    decide
  rw [rank, score_eq_map, filter_ranked]
  exact congrArg (fun results => (results.take 1).map SearchResult.key)
    (mergeSort_swap hbehind)

end Candidate

end KnowledgeSearch
