/-
  KnowledgeSearch/Proofs/Search/ScoreRange.lean
  =============================================
  **Scores between zero and one, and scores that are no numbers.**

  A text score is the part of the way from the lowest rank to the highest one.  Between two
  large ranks of opposite signs this way is infinite.  A rank that is infinitely far above the
  lowest one then comes to the quotient of two infinities, which is nan, and bringing nan
  between zero and one leaves it as it is.  No other rank does (`scaledRank_cases`), and with
  all other numbers that a search meets, the scores stay between zero and one
  (`Candidate.rank_scores`).
-/
import KnowledgeSearch.Proofs.Search.Selection
import KnowledgeSearch.Proofs.Search.Weights
import KnowledgeSearch.Search.Hybrid

namespace KnowledgeSearch

open Format (binary32)
open Binary (AtOrdinal oneOrdinal overflow overflowUnits)

/-! ### The range of ranks -/

/-- A fold that takes the lesser of two elements comes to the least of all. -/
theorem foldl_least {α : Type} {P : α → Prop} {key : α → Int} {pick : α → α → α}
    (hpick : ∀ x y, P x → P y → pick x y = if key y < key x then y else x) {l : List α} {a : α}
    (ha : P a) (hl : ∀ y ∈ l, P y) :
    l.foldl pick a ∈ a :: l ∧ ∀ y ∈ a :: l, key (l.foldl pick a) ≤ key y := by
  induction l generalizing a with
  | nil => simp
  | cons b l ih =>
    rw [List.forall_mem_cons] at hl
    have hstep := hpick a b ha hl.1
    have hkept : pick a b = a ∨ pick a b = b := by
      rw [hstep]
      split
      · exact .inr rfl
      · exact .inl rfl
    have hleast : key (pick a b) ≤ key a ∧ key (pick a b) ≤ key b := by
      rw [hstep]
      split <;> omega
    have hP : P (pick a b) := by
      rcases hkept with h | h <;> rw [h]
      exacts [ha, hl.1]
    obtain ⟨hmem, hle⟩ := ih hP hl.2
    rw [List.forall_mem_cons] at hle
    rw [List.foldl_cons]
    refine ⟨?_, ?_⟩
    · rw [List.mem_cons] at hmem
      rcases hmem with h | h
      · rw [h]
        rcases hkept with h | h <;> simp [h]
      · simp [h]
    · simp only [List.forall_mem_cons]
      exact ⟨hle.1.trans hleast.1, hle.1.trans hleast.2, hle.2⟩

section Ranks

variable {ranks : List Single} {rank : Single}

/-- What a fold over the finite ranks comes to, if it starts beyond all of them. -/
theorem extreme_spec (key : Single → Int) {pick : Single → Single → Single} {start : Single}
    (hpick : ∀ x y : Single, x.isNaN = false → y.isNaN = false →
      pick x y = if key y < key x then y else x)
    (hstart : start.isNaN = false) (hbeyond : ∀ x : Single, x.isFinite = true → key x < key start)
    (hmem : rank ∈ ranks) (hfinite : rank.isFinite = true) {extreme : Single}
    (hextreme : (ranks.filter Binary.isFinite).foldl pick start = extreme) :
    extreme ∈ ranks ∧ extreme.isFinite = true ∧ key extreme ≤ key rank := by
  subst hextreme
  have hnumbers : ∀ y ∈ ranks.filter Binary.isFinite, y.isNaN = false :=
    fun y hy => Binary.isNaN_of_isFinite (List.mem_filter.mp hy).2
  obtain ⟨hmemExtreme, hleast⟩ := foldl_least hpick hstart hnumbers
  have hle := hleast rank (List.mem_cons_of_mem _ (List.mem_filter.mpr ⟨hmem, hfinite⟩))
  rcases List.mem_cons.mp hmemExtreme with hnone | hmemExtreme
  · rw [hnone] at hle
    exact absurd (hbeyond rank hfinite) hle.not_gt
  · exact ⟨(List.mem_filter.mp hmemExtreme).1, (List.mem_filter.mp hmemExtreme).2, hle⟩

theorem lowest_spec (hmem : rank ∈ ranks) (hfinite : rank.isFinite = true) :
    lowest ranks ∈ ranks ∧ (lowest ranks).isFinite = true ∧
      (lowest ranks).signedUnits ≤ rank.signedUnits := by
  refine extreme_spec Binary.signedUnits ?_ rfl ?_ hmem hfinite rfl
  · intro x y hx hy
    simp only [Binary.minimum, hx, hy, Bool.false_eq_true, if_false,
      Binary.signedUnits_lt_iff hy hx]
  · intro x hx
    exact (Binary.signedUnits_lt_iff (Binary.isNaN_of_isFinite hx) rfl).mpr (Binary.lt_infinity hx)

theorem highest_spec (hmem : rank ∈ ranks) (hfinite : rank.isFinite = true) :
    highest ranks ∈ ranks ∧ (highest ranks).isFinite = true ∧
      rank.signedUnits ≤ (highest ranks).signedUnits := by
  have hspec : highest ranks ∈ ranks ∧ (highest ranks).isFinite = true ∧
      -(highest ranks).signedUnits ≤ -rank.signedUnits := by
    refine extreme_spec (fun x => -x.signedUnits) ?_ rfl ?_ hmem hfinite rfl
    · intro x y hx hy
      simp only [Binary.maximum, hx, hy, Bool.false_eq_true, if_false, neg_lt_neg_iff,
        Binary.signedUnits_lt_iff hx hy]
    · intro x hx
      exact neg_lt_neg_iff.mpr ((Binary.signedUnits_lt_iff rfl (Binary.isNaN_of_isFinite hx)).mpr
        (Binary.neg_infinity_lt hx))
  exact ⟨hspec.1, hspec.2.1, neg_le_neg_iff.mp hspec.2.2⟩

/-! ### Ranks that are far apart -/

/-- Whether a rank is so far above another that their difference is infinite. -/
def Overreaches (ranks : List Single) (rank : Single) : Prop :=
  rank.isFinite = true ∧
    ∃ other ∈ ranks, other.isFinite = true ∧ overflow ≤ rank.toRat - other.toRat

theorem overreaches_iff (hmem : rank ∈ ranks) (hfinite : rank.isFinite = true) :
    Overreaches ranks rank ↔
      (overflowUnits : Int) ≤ rank.signedUnits - (lowest ranks).signedUnits := by
  simp only [Overreaches, Binary.overflow_le_sub_iff]
  constructor
  · rintro ⟨-, other, hother, hotherFinite, hfar⟩
    have hlow := (lowest_spec hother hotherFinite).2.2
    omega
  · intro hfar
    obtain ⟨hlow, hlowFinite, -⟩ := lowest_spec hmem hfinite
    exact ⟨hfinite, _, hlow, hlowFinite, hfar⟩

theorem scaledRank_of_not_isFinite (h : rank.isFinite = false) : scaledRank ranks rank = .zero := by
  unfold scaledRank
  simp only [h, Bool.false_and, Bool.false_eq_true, if_false, ite_self]

/-- Of ranks that are not negative none overreaches. -/
theorem not_overreaches (h : ∀ other ∈ ranks, other.lt .zero = false) :
    ¬ Overreaches ranks rank := by
  rintro ⟨hfinite, other, hother, hotherFinite, hfar⟩
  rw [Binary.overflow_le_sub_iff] at hfar
  have hnonneg := (Binary.signedUnits_nonneg_iff (Binary.isNaN_of_isFinite hotherFinite)).mpr
    (h other hother)
  have hbound := Binary.signedUnits_lt_overflowUnits hfinite
  omega

/-- Ranks that do not differ are not infinitely far apart. -/
theorem lt_infinity_of_narrow {width : Single} {k : Nat} (hwidth : width.AtOrdinal k)
    (h : width.le rankResolution = true) : k < binary32.infinity := by
  by_contra hinfinite
  rw [hwidth.eq_infinity (by decide) (not_lt.mp hinfinite)] at h
  exact absurd h (by decide)

theorem pos_of_wide {width : Single} {k : Nat} (hwidth : width.AtOrdinal k)
    (h : ¬ width.le rankResolution = true) : 0 < k := by
  apply Nat.pos_of_ne_zero
  rintro rfl
  apply h
  rcases Binary.cases_of_isZero (Binary.isZero_iff.mpr hwidth) with hzero | hzero <;>
    rw [hzero] <;> decide

/-- A rank is scaled to a number of the unit interval, unless it overreaches. -/
theorem scaledRank_cases (hmem : rank ∈ ranks) :
    (Overreaches ranks rank → scaledRank ranks rank = .nan) ∧
      (¬ Overreaches ranks rank → Service.isUnit (scaledRank ranks rank) = true) := by
  cases hfinite : rank.isFinite with
  | false =>
    rw [scaledRank_of_not_isFinite hfinite]
    exact ⟨fun h => by simp [h.1] at hfinite, fun _ => by decide⟩
  | true =>
    obtain ⟨-, hlowFinite, hlow⟩ := lowest_spec hmem hfinite
    obtain ⟨-, hhighFinite, hhigh⟩ := highest_spec hmem hfinite
    obtain ⟨above, habove⟩ := Int.eq_ofNat_of_zero_le (Int.sub_nonneg.mpr hlow)
    obtain ⟨all, hall⟩ := Int.eq_ofNat_of_zero_le (Int.sub_nonneg.mpr (hlow.trans hhigh))
    have hpart := Binary.atOrdinal_sub hfinite hlowFinite habove
    have hwidth := Binary.atOrdinal_sub hhighFinite hlowFinite hall
    have hover : Overreaches ranks rank ↔ binary32.infinity ≤ binary32.nearest above 1 := by
      rw [overreaches_iff hmem hfinite, habove, Int.ofNat_le, Binary.infinity_le_nearest_iff]
    have hmono : binary32.nearest above 1 ≤ binary32.nearest all 1 :=
      Format.nearest_mono Nat.one_pos (by omega)
    have hpositive : 0 < binary32.infinity := by decide
    rw [hover]
    unfold scaledRank
    simp only [hlowFinite, hhighFinite, hfinite, Bool.and_self, Bool.not_true, Bool.false_or,
      Bool.true_and, if_true]
    split
    · rename_i hnarrow
      have hfinite := hmono.trans_lt (lt_infinity_of_narrow hwidth hnarrow)
      refine ⟨fun hinfinite => absurd hinfinite hfinite.not_ge, fun _ => ?_⟩
      split <;> decide
    · rename_i hwide
      constructor
      · intro hinfinite
        rw [hpart.eq_infinity hpositive hinfinite,
          hwidth.eq_infinity hpositive (hinfinite.trans hmono)]
        rfl
      · intro hfar
        exact Service.isUnit_clamp
          (hpart.isNaN_div hwidth (not_le.mp hfar) (pos_of_wide hwidth hwide))

end Ranks

/-! ### Similarities and hybrid scores -/

theorem isUnit_similarity {distance : Option Single}
    (h : ∀ x, distance = some x → x.isNaN = false) :
    Service.isUnit (similarity distance) = true := by
  cases distance with
  | none => decide
  | some x =>
    have hone := Binary.atOrdinal_one.isFinite Binary.oneOrdinal_lt_infinity
    apply Service.isUnit_clamp
    apply Binary.isNaN_add hone
    rw [← h x rfl]
    cases x <;> rfl

section Hybrid

variable {text vector textScore similarity : Single}

theorem isUnit_hybrid (htext : Service.isUnit text = true) (hvector : Service.isUnit vector = true)
    (hscore : Service.isUnit textScore = true) (hsimilarity : Service.isUnit similarity = true) :
    Service.isUnit ((vector * similarity + text * textScore).clamp .zero .one) = true := by
  obtain ⟨a, ha, htext⟩ := Service.isUnit_iff.mp htext
  obtain ⟨b, hb, hvector⟩ := Service.isUnit_iff.mp hvector
  obtain ⟨c, hc, hscore⟩ := Service.isUnit_iff.mp hscore
  obtain ⟨d, hd, hsimilarity⟩ := Service.isUnit_iff.mp hsimilarity
  obtain ⟨m, hm, hvectorPart⟩ := hvector.mul_le hsimilarity hb hd
  obtain ⟨n, hn, htextPart⟩ := htext.mul_le hscore ha hc
  apply Service.isUnit_clamp
  exact Binary.isNaN_add (hvectorPart.isFinite (hm.trans_lt Binary.oneOrdinal_lt_infinity))
    htextPart.isNaN_eq_false

/-- A text score that is no number makes the hybrid score none. -/
theorem hybrid_nan : (vector * similarity + text * .nan : Single).clamp .zero .one = .nan := by
  have hproduct : text * (.nan : Single) = .nan := by cases text <;> rfl
  rw [hproduct]
  cases vector * similarity <;> rfl

end Hybrid

/-! ### Numbers of rows -/

/-- A number that is read from a row. -/
def Service.IsTaken (x : Single) : Prop :=
  ∃ (row : Row) (column : String), (takeNumber row column).1 = some x

theorem Service.IsTaken.isNaN {x : Single} (h : IsTaken x) : x.isNaN = false := by
  obtain ⟨row, column, h⟩ := h
  simp only [takeNumber, Option.map_eq_some_iff] at h
  obtain ⟨n, -, rfl⟩ := h
  cases n with
  | int n _ => exact Binary.isNaN_convert rfl
  | float y hy => exact Binary.isNaN_convert (Binary.isNaN_of_isFinite hy)

/-- A finite number is read from a row as it was written. -/
theorem Service.isTaken_of_isFinite {x : Single} (hx : x.isFinite = true) : IsTaken x := by
  refine ⟨[("n", .ofSingle x)], "n", ?_⟩
  have hnumber : Json.ofSingle x = .number (.float x.toDouble (Binary.isFinite_toDouble hx)) :=
    dif_pos _
  rw [hnumber]
  exact congrArg some (Binary.toSingle_toDouble hx)

namespace Candidate

/-- **Scores are between zero and one, unless a rank overreaches.**  With weights that were
    rescaled and distances as they are read from rows, each result has a similarity between
    zero and one, and so are its text score and its hybrid score, unless the text rank of its
    candidate is so far above that of another that their difference is infinite.  Then both
    scores are nan. -/
theorem rank_scores {text vector : Single} {weights : HybridWeights}
    (hweights : HybridWeights.normalized text vector = .ok weights) {candidates : List Candidate}
    (htaken : ∀ c ∈ candidates, ∀ x, c.distance = some x → Service.IsTaken x) (table : String)
    (limit : Nat) :
    ∀ r ∈ rank table weights limit candidates, Service.isUnit r.similarity = true ∧
      ∃ c ∈ candidates, c.isEligible = true ∧
        r.key = c.key ∧ r.row = c.row ∧ r.distance = c.distance ∧
        ∃ textScore hybridScore, r.textScore = some textScore ∧ r.hybridScore = some hybridScore ∧
          (¬ Overreaches (eligibleRanks candidates) c.textRank →
            Service.isUnit textScore = true ∧ Service.isUnit hybridScore = true) ∧
          (Overreaches (eligibleRanks candidates) c.textRank →
            textScore = .nan ∧ hybridScore = .nan) := by
  intro r hr
  obtain ⟨c, hc, heligible, rfl⟩ := mem_rank hr
  obtain ⟨htextWeight, hvectorWeight⟩ := HybridWeights.isUnit_of_normalized hweights
  have hsimilarity := isUnit_similarity fun x hx => (htaken c hc x hx).isNaN
  have hmem : c.textRank ∈ eligibleRanks candidates :=
    List.mem_map.mpr ⟨c, List.mem_filter.mpr ⟨hc, heligible⟩, rfl⟩
  obtain ⟨hover, hunit⟩ := scaledRank_cases hmem
  refine ⟨hsimilarity, c, hc, heligible, rfl, rfl, rfl, _, _, rfl, rfl, fun h => ?_, fun h => ?_⟩
  · exact ⟨hunit h, isUnit_hybrid htextWeight hvectorWeight (hunit h) hsimilarity⟩
  · rw [hover h]
    exact ⟨rfl, hybrid_nan⟩

/-- A row that is found by its text, and perhaps by its embedding. -/
def ranked (key : Nat) (textRank : Single) (distance : Option Single) : Candidate :=
  ⟨.ofNat key, [], textRank, distance⟩

theorem normalized_zero : HybridWeights.normalized .zero .zero = .ok ⟨.half, .half⟩ := by
  have hweight : HybridWeights.IsWeight .zero := ⟨rfl, rfl⟩
  rw [HybridWeights.normalized_eq hweight hweight]
  rfl

/-- Ranks of one and of a half are scaled to numbers. -/
theorem rank_scores_positive :
    ((rank "notes" ⟨.half, .half⟩ 5
        [ranked 1 .one (some (quarters 1)), ranked 2 .half none]).all fun r =>
      Service.isUnit r.similarity && r.textScore.any Service.isUnit &&
        r.hybridScore.any Service.isUnit) = true := by
  have htaken : ∀ c ∈ [ranked 1 .one (some (quarters 1)), ranked 2 .half none],
      ∀ x, c.distance = some x → Service.IsTaken x := by
    simp only [List.forall_mem_cons, List.not_mem_nil, false_implies, implies_true, and_true,
      ranked, Option.some.injEq, reduceCtorEq]
    rintro x rfl
    exact Service.isTaken_of_isFinite (by decide)
  rw [List.all_eq_true]
  intro r hr
  obtain ⟨hsimilarity, c, -, -, -, -, -, t, h, ht, hh, hunit, -⟩ :=
    rank_scores normalized_zero htaken "notes" 5 r hr
  obtain ⟨htext, hhybrid⟩ := hunit (not_overreaches (by decide))
  rw [ht, hh, hsimilarity, Option.any_some, Option.any_some, htext, hhybrid]
  rfl

/-- A rank of 3e38 beside one of -3e38 has no score. -/
theorem rank_scores_overreaching :
    HybridWeights.normalized .zero .zero = .ok ⟨.half, .half⟩ ∧
    Service.IsTaken (.ofDecimal true 3 38) ∧ Service.IsTaken (.ofDecimal false 3 38) ∧
    Service.IsTaken .zero ∧
    ∃ r ∈ rank "notes" ⟨.half, .half⟩ 5
        [ranked 1 (.ofDecimal true 3 38) (some .zero), ranked 2 (.ofDecimal false 3 38) none],
      r.key = .ofNat 2 ∧ r.textScore = some .nan ∧ r.hybridScore = some .nan ∧
        Service.isUnit .nan = false := by
  refine ⟨normalized_zero, Service.isTaken_of_isFinite (by decide),
    Service.isTaken_of_isFinite (by decide),
    Service.isTaken_of_isFinite (by decide), ?_⟩
  let low := ranked 1 (.ofDecimal true 3 38) (some .zero)
  let high := ranked 2 (.ofDecimal false 3 38) none
  have hhigh : high ∈ [low, high].filter isEligible :=
    List.mem_filter.mpr ⟨by simp, by decide⟩
  have hlength : (score "notes" ⟨.half, .half⟩ [low, high]).length ≤ 5 := by
    rw [score_eq_map, List.length_map]
    exact (List.length_filter_le _ _).trans (by decide)
  have hscaled : scaledRank (eligibleRanks [low, high]) high.textRank = .nan := by decide
  refine ⟨high.toResult "notes" ⟨.half, .half⟩ .nan, ?_, rfl, rfl, ?_, by decide⟩
  · rw [rank, List.take_of_length_le (by rwa [List.length_mergeSort]), List.mem_mergeSort,
      score_eq_map, ← hscaled]
    exact List.mem_map_of_mem hhigh
  · exact congrArg some hybrid_nan

end Candidate

end KnowledgeSearch
