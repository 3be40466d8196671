/-
  KnowledgeSearch/Proofs/Search/Ranking.lean
  ==========================================
  **A hybrid search by vectors alone.**

  With all weight on the vector a hybrid score is the similarity, and the ranking sorts
  candidates by it, equal ones staying in the order of their keys.  A vector search orders
  rows by their distance instead.  The nearer row is never less similar, but it need not be
  more similar: similarity is kept between zero and one and is rounded.

  So the two orders agree exactly if rows of one similarity are in the order of their
  distances to begin with, as they are whenever distances are between zero and one and
  those that differ are not too close to each other (`Candidate.rank_vectorOnly`).
-/
import KnowledgeSearch.Proofs.Numeric.Integer
import KnowledgeSearch.Proofs.Numeric.Order
import KnowledgeSearch.Search.Scoring
import KnowledgeSearch.Search.Statement

namespace KnowledgeSearch

/-! ### Stable sorting -/

section Stable

variable {α : Type} {le : α → α → Bool}
  (htrans : ∀ a b c, le a b = true → le b c = true → le a c = true)
  (htotal : ∀ a b, (le a b || le b a) = true)

include htrans htotal

/-- Elements that may all stand before each other are not moved. -/
theorem filter_mergeSort {p : α → Bool} (hp : ∀ a b, p a = true → p b = true → le a b = true)
    (l : List α) : (l.mergeSort le).filter p = l.filter p := by
  have hsorted : (l.filter p).Pairwise fun a b => le a b = true := by
    rw [List.pairwise_iff_forall_sublist]
    intro a b hab
    exact hp a b (List.mem_filter.mp (hab.subset (by simp))).2
      (List.mem_filter.mp (hab.subset (by simp))).2
  have hsublist := (List.sublist_mergeSort htrans htotal hsorted List.filter_sublist).filter p
  rw [List.filter_filter] at hsublist
  simp only [Bool.and_self] at hsublist
  exact (hsublist.eq_of_length ((List.mergeSort_perm l le).filter p).length_eq.symm).symm

/-- Sorting keeps what holds between elements in their order wherever it leaves a choice. -/
theorem pairwise_mergeSort_stable {T : α → α → Prop} {l : List α} (h : l.Pairwise T) :
    (l.mergeSort le).Pairwise fun a b => le a b = true ∧ (le b a = true → T a b) := by
  have hsorted := List.pairwise_mergeSort htrans htotal l
  rw [List.pairwise_iff_forall_sublist] at hsorted h ⊢
  intro a b hab
  refine ⟨hsorted hab, fun hba => ?_⟩
  -- the elements that are tied with one of the two stand as they stood before
  let tied := fun c => le a c && le c a
  have htied : ∀ c e, tied c = true → tied e = true → le c e = true := by
    intro c e hc he
    simp only [tied, Bool.and_eq_true] at hc he
    exact htrans _ _ _ hc.2 he.1
  have haa : le a a = true := by simpa using htotal a a
  have hpair : [a, b].filter tied = [a, b] := by
    simp [tied, haa, hba, hsorted hab]
  have hsublist := hab.filter tied
  rw [hpair, filter_mergeSort htrans htotal htied] at hsublist
  exact h (hsublist.trans List.filter_sublist)

end Stable

/-! ### Text ranks of zero -/

theorem Binary.cases_of_isZero {x : Single} (h : x.isZero = true) :
    x = .signed false 0 ∨ x = .signed true 0 := by
  cases x with
  | nan => cases h
  | signed negative k =>
    obtain rfl : k = 0 := Fin.ext (by simpa [isZero] using h)
    cases negative
    · exact Or.inl rfl
    · exact Or.inr rfl

/-- The least of some zeros is the first of them, and so is the greatest. -/
theorem foldl_zero {x : Single} {ranks : List Single} (hx : x.isZero = true)
    (h : ∀ rank ∈ ranks, rank.isZero = true) :
    ranks.foldl Binary.minimum x = x ∧ ranks.foldl Binary.maximum x = x := by
  induction ranks with
  | nil => exact ⟨rfl, rfl⟩
  | cons rank ranks ih =>
    have hrank := h rank List.mem_cons_self
    have hstep : x.minimum rank = x ∧ x.maximum rank = x := by
      rcases Binary.cases_of_isZero hx with rfl | rfl <;>
        rcases Binary.cases_of_isZero hrank with rfl | rfl <;> decide
    rw [List.foldl_cons, List.foldl_cons, hstep.1, hstep.2]
    exact ih fun r hr => h r (List.mem_cons_of_mem _ hr)

/-- Text ranks that are all zero give no text score. -/
theorem scaleRanks_zero {ranks : List Single} (h : ∀ rank ∈ ranks, rank.isZero = true) :
    scaleRanks ranks = ranks.map fun _ => .zero := by
  have hfinite : ranks.filter Binary.isFinite = ranks := by
    rw [List.filter_eq_self]
    intro rank hrank
    rcases Binary.cases_of_isZero (h rank hrank) with rfl | rfl <;> decide
  cases ranks with
  | nil => simp [scaleRanks]
  | cons first rest =>
    have hfirst := h first List.mem_cons_self
    obtain ⟨hlow, hhigh⟩ := foldl_zero hfirst fun r hr => h r (List.mem_cons_of_mem _ hr)
    have hstart : Binary.infinity.minimum first = first ∧
        (-Binary.infinity : Single).maximum first = first := by
      rcases Binary.cases_of_isZero hfirst with rfl | rfl <;> decide
    have hsame : (!(first.isFinite && first.isFinite) || (first - first).le rankResolution) =
        true := by
      rcases Binary.cases_of_isZero hfirst with rfl | rfl <;> decide
    unfold scaleRanks
    simp only [hfinite, List.foldl_cons, hstart.1, hstart.2, hlow, hhigh]
    rw [if_pos hsame]
    apply List.map_congr_left
    intro rank hrank
    rcases Binary.cases_of_isZero (h rank hrank) with rfl | rfl <;> rfl

namespace Candidate

/-! ### Candidates with a distance -/

/-- Whether a candidate has no text rank, and a distance that is finite. -/
def IsMeasured (c : Candidate) : Prop :=
  c.textRank.isZero = true ∧ ∃ x, c.distance = some x ∧ x.isFinite = true

def IsNearer (a b : Candidate) : Prop :=
  ∃ x y, a.distance = some x ∧ b.distance = some y ∧ x.lt y = true

/-- The similarity of a candidate, as an ordinal. -/
def closeness (c : Candidate) : Nat := (c.distance.map Binary.complementOrdinal).getD 0

theorem closeness_of_distance {c : Candidate} {x : Single} (hx : c.distance = some x) :
    c.closeness = x.complementOrdinal := by
  rw [closeness, hx, Option.map_some, Option.getD_some]

section Measured

variable {a b : Candidate}

theorem IsMeasured.similarity_eq (ha : a.IsMeasured) :
    ∃ k : Fin (Format.binary32.infinity + 1), similarity a.distance = .signed false k ∧
      k.val = a.closeness ∧ k.val ≤ Binary.oneOrdinal := by
  obtain ⟨-, x, hx, hfinite⟩ := ha
  have hsimilarity : similarity a.distance = x.complement := by
    rw [hx]
    exact Binary.clamp_one_sub hfinite
  rw [closeness_of_distance hx, hsimilarity, Binary.complement]
  exact ⟨_, rfl, rfl, x.complementOrdinal_le⟩

theorem IsMeasured.similarity_lt_iff (ha : a.IsMeasured) (hb : b.IsMeasured) :
    (similarity a.distance).lt (similarity b.distance) = true ↔ a.closeness < b.closeness := by
  obtain ⟨k, hk, hak, -⟩ := ha.similarity_eq
  obtain ⟨m, hm, hbm, -⟩ := hb.similarity_eq
  rw [hk, hm, Binary.lt_iff, ← hak, ← hbm]
  simp [Binary.rank?]

theorem IsMeasured.similarity_inj (ha : a.IsMeasured) (hb : b.IsMeasured) :
    similarity a.distance = similarity b.distance ↔ a.closeness = b.closeness := by
  obtain ⟨k, hk, hak, -⟩ := ha.similarity_eq
  obtain ⟨m, hm, hbm, -⟩ := hb.similarity_eq
  rw [hk, hm, ← hak, ← hbm, Binary.signed.injEq, Fin.ext_iff]
  simp

theorem IsMeasured.isNearer_iff (ha : a.IsMeasured) (hb : b.IsMeasured) {x y : Single}
    (hx : a.distance = some x) (hy : b.distance = some y) :
    a.IsNearer b ↔ x.signedUnits < y.signedUnits := by
  have notNaN {c : Candidate} {z : Single} (hc : c.IsMeasured) (hz : c.distance = some z) :
      z.isNaN = false := by
    obtain ⟨-, z', hz', hfinite⟩ := hc
    cases hz.symm.trans hz'
    exact Binary.isNaN_of_isFinite hfinite
  rw [Binary.signedUnits_lt_iff (notNaN ha hx) (notNaN hb hy)]
  constructor
  · rintro ⟨x', y', hx', hy', hlt⟩
    cases hx.symm.trans hx'
    cases hy.symm.trans hy'
    exact hlt
  · intro hlt
    exact ⟨x, y, hx, hy, hlt⟩

/-- A candidate that is not further away is not less similar. -/
theorem closeness_le (ha : a.IsMeasured) (hb : b.IsMeasured) (h : ¬ b.IsNearer a) :
    b.closeness ≤ a.closeness := by
  obtain ⟨-, x, hx, -⟩ := id ha
  obtain ⟨-, y, hy, -⟩ := id hb
  rw [hb.isNearer_iff ha hy hx, not_lt] at h
  rw [closeness_of_distance hx, closeness_of_distance hy]
  exact Binary.complementOrdinal_anti h

theorem IsNearer.not_symm (ha : a.IsMeasured) (hb : b.IsMeasured) (h : a.IsNearer b) :
    ¬ b.IsNearer a := by
  obtain ⟨-, x, hx, -⟩ := id ha
  obtain ⟨-, y, hy, -⟩ := id hb
  rw [ha.isNearer_iff hb hx hy] at h
  rw [hb.isNearer_iff ha hy hx]
  exact h.not_gt

end Measured

/-- Whether two candidates are at different distances between zero and one that are more than
    `2 ^ -24` apart, if the first is the nearer one. -/
def IsApart (a b : Candidate) : Prop :=
  ∀ x y, a.distance = some x → b.distance = some y → x.lt y = true →
    0 ≤ x.toRat ∧ x.toRat + 1 / 2 ^ 24 < y.toRat ∧ y.toRat ≤ 1

/-- Candidates that are apart do not have the same similarity. -/
theorem IsApart.closeness_ne {a b : Candidate} (h : a.IsApart b) (hab : a.IsNearer b) :
    a.closeness ≠ b.closeness := by
  obtain ⟨x, y, hx, hy, hxy⟩ := hab
  obtain ⟨hleast, hgap, hmost⟩ := h x y hx hy hxy
  have hscale : Format.binary32.scale = 149 := by decide
  have hpos : (0 : ℚ) < 2 ^ 149 := by positivity
  simp only [Binary.toRat, hscale] at hleast hgap hmost
  rw [le_div_iff₀ hpos, zero_mul] at hleast
  rw [div_le_iff₀ hpos, one_mul] at hmost
  have hunits : (x.signedUnits : ℚ) + 2 ^ 125 < y.signedUnits := by
    rw [lt_div_iff₀ hpos, add_mul, div_mul_cancel₀ _ hpos.ne'] at hgap
    norm_num at hgap ⊢
    exact hgap
  have hleast : 0 ≤ x.signedUnits := by exact_mod_cast hleast
  have hunits : x.signedUnits + 2 ^ 125 < y.signedUnits := by exact_mod_cast hunits
  have hmost : y.signedUnits ≤ 2 ^ Format.binary32.scale := by
    rw [hscale]
    exact_mod_cast hmost
  rw [closeness_of_distance hx, closeness_of_distance hy]
  intro heq
  have hnear := Binary.near_of_complementOrdinal_eq hleast hmost (by omega) heq
  omega

/-! ### Ranking -/

/-- Whether a candidate is at least as similar as another. -/
def closer (a b : Candidate) : Bool := decide (b.closeness ≤ a.closeness)

theorem closer_iff {a b : Candidate} : a.closer b = true ↔ b.closeness ≤ a.closeness :=
  decide_eq_true_iff

theorem closer_trans (a b c : Candidate) (hab : a.closer b = true) (hbc : b.closer c = true) :
    a.closer c = true := by
  rw [closer_iff] at *
  omega

theorem closer_total (a b : Candidate) : (a.closer b || b.closer a) = true := by
  rw [Bool.or_eq_true, closer_iff, closer_iff]
  omega

section Rank

variable {a b : Candidate} {table : String}

/-- All weight on the vector. -/
def vectorOnly : HybridWeights := ⟨.zero, .one⟩

/-- With all weight on the vector the score is the similarity. -/
theorem IsMeasured.score_toResult (ha : a.IsMeasured) :
    (a.toResult table vectorOnly .zero).score = similarity a.distance := by
  obtain ⟨k, hk, -, hone⟩ := ha.similarity_eq
  change (Binary.one * similarity a.distance + Binary.zero * Binary.zero).clamp .zero .one = _
  rw [hk, Binary.clamp_weighed hone]

theorem IsMeasured.precedes_iff (ha : a.IsMeasured) (hb : b.IsMeasured) :
    (a.toResult table vectorOnly .zero).precedes (b.toResult table vectorOnly .zero) =
      a.closer b := by
  obtain ⟨k, hk, hak, -⟩ := ha.similarity_eq
  obtain ⟨m, hm, hbm, -⟩ := hb.similarity_eq
  have hcompare : compareDescending (.signed false k) (.signed false m) =
      compare (m.val : Int) k.val := rfl
  rw [SearchResult.precedes, ha.score_toResult, hb.score_toResult, hk, hm, hcompare,
    Bool.eq_iff_iff, bne_iff_ne, Ne, Int.compare_eq_gt, closer_iff, ← hak, ← hbm]
  omega

variable {candidates : List Candidate} (h : ∀ c ∈ candidates, c.IsMeasured)

include h

theorem score_vectorOnly :
    score table vectorOnly candidates =
      candidates.map fun c => c.toResult table vectorOnly .zero := by
  have heligible : candidates.filter isEligible = candidates := by
    rw [List.filter_eq_self]
    intro c hc
    obtain ⟨-, x, hx, -⟩ := h c hc
    simp [isEligible, hx]
  have hranks : scaleRanks (candidates.map textRank) = candidates.map fun _ => .zero := by
    rw [scaleRanks_zero, List.map_map]
    · rfl
    · intro rank hrank
      obtain ⟨c, hc, rfl⟩ := List.mem_map.mp hrank
      exact (h c hc).1
  rw [score, heligible, hranks, List.zipWith_map_right, List.zipWith_self]

/-- The ranking sorts the candidates by their similarity. -/
theorem rank_vectorOnly_eq (limit : Nat) :
    rank table vectorOnly limit candidates =
      ((candidates.mergeSort closer).take limit).map
        fun c => c.toResult table vectorOnly .zero := by
  have hsort := List.map_mergeSort (f := fun c => c.toResult table vectorOnly .zero)
    fun a ha b hb => ((h a ha).precedes_iff (h b hb)).symm
  rw [rank, score_vectorOnly h, ← hsort, List.map_take]

end Rank

/-- A row that is more similar stands first, rows of one similarity in the order of their
    keys. -/
def MoreSimilarFirst (keyBefore : Json → Json → Prop) (a b : Candidate) : Prop :=
  (similarity b.distance).lt (similarity a.distance) = true ∨
    similarity a.distance = similarity b.distance ∧ keyBefore a.key b.key

/-- A row that is nearer stands first, rows of one distance in the order of their keys. -/
def NearestFirst (keyBefore : Json → Json → Prop) (a b : Candidate) : Prop :=
  a.IsNearer b ∨ ¬ b.IsNearer a ∧ keyBefore a.key b.key

section Sorted

variable {candidates : List Candidate} (h : ∀ c ∈ candidates, c.IsMeasured)

include h

/-- What holds between candidates in their order holds of those of one similarity after
    sorting. -/
theorem pairwise_mergeSort_closer {T : Candidate → Candidate → Prop}
    (hT : candidates.Pairwise T) :
    (candidates.mergeSort closer).Pairwise fun a b =>
      (a.IsMeasured ∧ b.IsMeasured) ∧
        (b.closeness < a.closeness ∨ a.closeness = b.closeness ∧ T a b) := by
  have hmeasured : ∀ c ∈ candidates.mergeSort closer, c.IsMeasured :=
    fun c hc => h c (List.mem_mergeSort.mp hc)
  apply (pairwise_mergeSort_stable closer_trans closer_total hT).imp_of_mem
  rintro a b ha hb ⟨hab, hba⟩
  rw [closer_iff] at hab hba
  refine ⟨⟨hmeasured a ha, hmeasured b hb⟩, ?_⟩
  rcases hab.lt_or_eq with hlt | heq
  · exact Or.inl hlt
  · exact Or.inr ⟨heq.symm, hba heq.ge⟩

variable {keyBefore : Json → Json → Prop}
  (hkeys : candidates.Pairwise fun a b => keyBefore a.key b.key)

include hkeys

theorem moreSimilarFirst_mergeSort :
    (candidates.mergeSort closer).Pairwise (MoreSimilarFirst keyBefore) := by
  apply (pairwise_mergeSort_closer h hkeys).imp
  rintro a b ⟨⟨ha, hb⟩, hlt | ⟨heq, hkey⟩⟩
  · exact Or.inl ((hb.similarity_lt_iff ha).mpr hlt)
  · exact Or.inr ⟨(ha.similarity_inj hb).mpr heq, hkey⟩

/-- Sorting by similarity sorts by distance exactly if rows of one similarity come in the
    order of their distances. -/
theorem nearestFirst_mergeSort_iff :
    (candidates.mergeSort closer).Pairwise (NearestFirst keyBefore) ↔
      candidates.Pairwise fun a b =>
        similarity a.distance = similarity b.distance → ¬ b.IsNearer a := by
  constructor
  · intro hsorted
    rw [List.pairwise_iff_forall_sublist] at hsorted ⊢
    intro a b hab hsame hba
    have ha := h a (hab.subset List.mem_cons_self)
    have hb := h b (hab.subset (List.mem_cons_of_mem _ List.mem_cons_self))
    have htied : a.closer b = true := closer_iff.mpr ((ha.similarity_inj hb).mp hsame).ge
    rcases hsorted (List.pair_sublist_mergeSort closer_trans closer_total htied hab) with
      hnear | ⟨hnot, -⟩
    · exact hnear.not_symm ha hb hba
    · exact hnot hba
  · intro hties
    apply (pairwise_mergeSort_closer h (hkeys.and hties)).imp
    rintro a b ⟨⟨ha, hb⟩, hlt | ⟨heq, hkey, htie⟩⟩
    · by_cases hnear : a.IsNearer b
      · exact Or.inl hnear
      · exact absurd (closeness_le hb ha hnear) hlt.not_ge
    · exact Or.inr ⟨htie ((ha.similarity_inj hb).mpr heq), hkey⟩

end Sorted

/-- **With all weight on the vector rows are ranked by similarity, not by distance.**  Of
    candidates with finite distances and no text ranks, the more similar ones stand first and
    those of one similarity keep the order of their keys; a nearer one is never less similar.
    So the ranking is the order of distances, in which a vector search asks for rows, exactly
    if rows of one similarity come in that order; it is if distances are between zero and
    one and apart from each other. -/
theorem rank_vectorOnly {keyBefore : Json → Json → Prop} {candidates : List Candidate}
    (hkeys : candidates.Pairwise fun a b => keyBefore a.key b.key)
    (h : ∀ c ∈ candidates, c.IsMeasured) (table : String) (limit : Nat) :
    ∃ ranking : List Candidate, ranking.Perm candidates ∧
      rank table vectorOnly limit candidates =
        (ranking.take limit).map (fun c => c.toResult table vectorOnly .zero) ∧
      ranking.Pairwise (MoreSimilarFirst keyBefore) ∧
      (∀ a ∈ candidates, ∀ b ∈ candidates, a.IsNearer b →
        (similarity a.distance).lt (similarity b.distance) = false) ∧
      (ranking.Pairwise (NearestFirst keyBefore) ↔
        candidates.Pairwise fun a b =>
          similarity a.distance = similarity b.distance → ¬ b.IsNearer a) ∧
      ((∀ a ∈ candidates, ∀ b ∈ candidates, a.IsApart b) →
        ranking.Pairwise (NearestFirst keyBefore)) ∧
      ∀ d (rows : NearestRows), ∃ front : Fragment, rows.toFragment d = front ++
        [.text (" ORDER BY distance ASC, " ++ rows.table.primaryKey ++ " ASC LIMIT "),
          .bind (.int (Int64.ofNat rows.limit.toNat))] := by
  have hagree := nearestFirst_mergeSort_iff h hkeys
  refine ⟨candidates.mergeSort closer, List.mergeSort_perm _ _, rank_vectorOnly_eq h limit,
    moreSimilarFirst_mergeSort h hkeys, ?_, hagree, ?_, fun d rows => ⟨_, rfl⟩⟩
  · intro a ha b hb hab
    rw [Bool.eq_false_iff, Ne, (h a ha).similarity_lt_iff (h b hb), not_lt]
    exact closeness_le (h a ha) (h b hb) (hab.not_symm (h a ha) (h b hb))
  · intro hapart
    rw [hagree, List.pairwise_iff_forall_sublist]
    intro a b hab hsame hba
    have ha := hab.subset (List.mem_cons_self)
    have hb := hab.subset (List.mem_cons_of_mem _ List.mem_cons_self)
    exact (hapart b hb a ha).closeness_ne hba (((h a ha).similarity_inj (h b hb)).mp hsame).symm

/-- A row that is found by its embedding alone. -/
def found (key : Nat) (distance : Single) : Candidate := ⟨.ofNat key, [], .zero, some distance⟩

/-- Some quarters, as a distance. -/
def quarters (n : Nat) : Single := Binary.ofNat n / Binary.ofNat 4

theorem isMeasured_found {key : Nat} {distance : Single} (h : distance.isFinite = true) :
    (found key distance).IsMeasured := ⟨rfl, distance, rfl, h⟩

/-- Below one the nearer row stands first, whatever its key. -/
theorem rank_vectorOnly_below_one :
    ∃ ranking : List Candidate, ranking.Perm [found 1 (quarters 3), found 2 (quarters 1)] ∧
      rank "notes" vectorOnly 5 [found 1 (quarters 3), found 2 (quarters 1)] =
        (ranking.take 5).map (fun c => c.toResult "notes" vectorOnly .zero) ∧
      ranking.Pairwise (NearestFirst fun a b => a = .ofNat 1 ∧ b = .ofNat 2) := by
  have hmeasured : ∀ c ∈ [found 1 (quarters 3), found 2 (quarters 1)], c.IsMeasured := by
    simp only [List.forall_mem_cons, List.not_mem_nil, false_implies, implies_true, and_true]
    exact ⟨isMeasured_found (by decide), isMeasured_found (by decide)⟩
  have hkeys : [found 1 (quarters 3), found 2 (quarters 1)].Pairwise
      fun a b => a.key = .ofNat 1 ∧ b.key = .ofNat 2 := by simp [found]
  obtain ⟨ranking, hperm, hrank, -, -, hagree, -⟩ :=
    @rank_vectorOnly (fun a b => a = .ofNat 1 ∧ b = .ofNat 2) _ hkeys hmeasured "notes" 5
  have hdiffer : similarity (some (quarters 3)) ≠ similarity (some (quarters 1)) := by
    decide
  refine ⟨ranking, hperm, hrank, hagree.mpr ?_⟩
  simp [found, hdiffer]

/-- From one on all rows are alike, and the nearer one can stand behind. -/
theorem rank_vectorOnly_beyond_one :
    (found 2 (quarters 6)).IsNearer (found 1 (quarters 8)) ∧
      rank "notes" vectorOnly 5 [found 1 (quarters 8), found 2 (quarters 6)] =
        [found 1 (quarters 8), found 2 (quarters 6)].map
          (fun c => c.toResult "notes" vectorOnly .zero) := by
  have hmeasured : ∀ c ∈ [found 1 (quarters 8), found 2 (quarters 6)], c.IsMeasured := by
    simp only [List.forall_mem_cons, List.not_mem_nil, false_implies, implies_true, and_true]
    exact ⟨isMeasured_found (by decide), isMeasured_found (by decide)⟩
  have hcloseness : (found 2 (quarters 6)).closeness ≤ (found 1 (quarters 8)).closeness := by
    decide
  refine ⟨⟨quarters 6, quarters 8, rfl, rfl, by decide⟩, ?_⟩
  have hsorted : [found 1 (quarters 8), found 2 (quarters 6)].Pairwise
      fun a b => a.closer b = true := by simpa [closer_iff] using hcloseness
  rw [rank_vectorOnly_eq hmeasured, List.mergeSort_of_pairwise hsorted]
  rfl

end Candidate

end KnowledgeSearch
