/-
  KnowledgeSearch/Proofs/Search/RankScale.lean
  ============================================
  **The scale of text ranks.**

  A text rank is scored by the part of the way from the lowest rank of the search to the
  highest one.  The lowest rank is at the beginning of this way and the highest one at its
  end, and a higher rank is never less far, because subtraction and division are rounded
  without changing the order (`scaleRanks_minMax`).

  The way is compared with a fixed length, though, and where it is not longer all positive
  ranks have the same score, however much they differ beside each other
  (`scaleRanks_close`).
-/
import KnowledgeSearch.Proofs.Search.ScoreRange

namespace KnowledgeSearch

open Format (binary32)
open Binary (AtOrdinal oneOrdinal partOrdinal overflow overflowUnits)

namespace Binary

variable {x : Single} {k : Nat}

/-- A number between zero and one is not moved there. -/
theorem AtOrdinal.clamp_eq (hx : x.AtOrdinal k) (hk : k ≤ oneOrdinal) :
    x.clamp .zero .one = x := by
  have hfinite : k ≤ binary32.infinity := hk.trans oneOrdinal_lt_infinity.le
  have hleast : x.lt .zero = false := by
    rw [← Bool.not_eq_true, hx.lt_iff atOrdinal_zero hfinite (Nat.zero_le _)]
    exact Nat.not_lt_zero k
  have hmost : one.lt x = false := by
    rw [← Bool.not_eq_true, atOrdinal_one.lt_iff hx oneOrdinal_lt_infinity.le hfinite]
    exact Nat.not_lt.mpr hk
  simp only [clamp, hleast, hmost, Bool.false_eq_true, if_false]

theorem AtOrdinal.eq_one (hx : x.AtOrdinal oneOrdinal) : x = .one := by
  obtain ⟨negative, j, rfl, hj, hsign⟩ := hx
  have hpositive : negative = false := by
    cases negative with
    | false => rfl
    | true => exact absurd (hsign rfl) (by decide)
  rw [one_eq, hpositive]
  congr
  exact Fin.ext (hj.trans (by decide))

/-- The ordinal of the least difference at which two ranks count as different. -/
def resolutionOrdinal : Nat := 104 * 2 ^ 23

theorem atOrdinal_rankResolution : rankResolution.AtOrdinal resolutionOrdinal := by
  have h : rankResolution = ofOrdinal false resolutionOrdinal := by decide
  rw [h]
  exact atOrdinal_positive

end Binary

section Scale

variable {ranks : List Single} {rank : Single}

/-- How far a rank is above the lowest one, in units. -/
def height (ranks : List Single) (rank : Single) : Nat :=
  (rank.signedUnits - (lowest ranks).signedUnits).toNat

/-- How far the highest rank is above the lowest one, in units. -/
def extent (ranks : List Single) : Nat := height ranks (highest ranks)

/-- Whether two of the ranks are so far apart that ranks are scaled by where they are between
    the lowest and the highest one. -/
def Spread (ranks : List Single) : Prop :=
  ∃ low ∈ ranks, ∃ high ∈ ranks, low.toRat + (1 / 2 ^ 23 + 1 / 2 ^ 47) < high.toRat

/-- Ranks as they come from a text search: finite numbers, none of them negative. -/
def AreRanks (ranks : List Single) : Prop :=
  ∀ rank ∈ ranks, rank.isFinite = true ∧ rank.lt .zero = false

variable (h : AreRanks ranks)

include h

theorem height_eq (hmem : rank ∈ ranks) :
    rank.signedUnits - (lowest ranks).signedUnits = height ranks rank :=
  (Int.toNat_of_nonneg (Int.sub_nonneg.mpr (lowest_spec hmem (h rank hmem).1).2.2)).symm

theorem height_le_extent (hmem : rank ∈ ranks) : height ranks rank ≤ extent ranks := by
  have hspec := (highest_spec hmem (h rank hmem).1).2.2
  exact Int.toNat_le_toNat (Int.sub_le_sub_right hspec _)

theorem height_le_iff {other : Single} (hmem : rank ∈ ranks) (hother : other ∈ ranks) :
    height ranks rank ≤ height ranks other ↔ rank.le other = true := by
  have hrank := Binary.isNaN_of_isFinite (h rank hmem).1
  have hnumber := Binary.isNaN_of_isFinite (h other hother).1
  have hheight := height_eq h hmem
  have hotherHeight := height_eq h hother
  rw [← Binary.not_lt_iff hnumber hrank, ← Bool.not_eq_true,
    ← Binary.signedUnits_lt_iff hnumber hrank]
  omega

theorem spread_iff : Spread ranks ↔ 2 ^ 126 + 2 ^ 102 < extent ranks := by
  have hscale : binary32.scale = 149 := by decide
  have hpos : (0 : ℚ) < 2 ^ 149 := by positivity
  -- the distance of two ranks in units
  have hunits (low high : Single) :
      low.toRat + (1 / 2 ^ 23 + 1 / 2 ^ 47) < high.toRat ↔
        2 ^ 126 + 2 ^ 102 < high.signedUnits - low.signedUnits := by
    have hlength : (1 / 2 ^ 23 + 1 / 2 ^ 47 : ℚ) = (2 ^ 126 + 2 ^ 102 : Int) / 2 ^ 149 := by
      norm_num
    rw [Binary.toRat, Binary.toRat, hscale, hlength, ← add_div, div_lt_div_iff_of_pos_right hpos,
      ← Int.cast_add, Int.cast_lt, lt_sub_iff_add_lt']
  constructor
  · rintro ⟨low, hlow, high, hhigh, hfar⟩
    rw [hunits] at hfar
    have hbelow := height_eq h hlow
    have habove := height_eq h hhigh
    have hmost := height_le_extent h hhigh
    omega
  · intro hfar
    cases hranks : ranks with
    | nil =>
      subst hranks
      exact absurd hfar (by decide)
    | cons first rest =>
      have hfirst : first ∈ ranks := hranks ▸ List.mem_cons_self
      have hlow := (lowest_spec hfirst (h first hfirst).1).1
      have hhigh := (highest_spec hfirst (h first hfirst).1).1
      have hextent := height_eq h hhigh
      rw [← hranks]
      refine ⟨_, hlow, _, hhigh, (hunits _ _).mpr ?_⟩
      rw [extent] at hfar
      omega

/-- The way to the highest rank is finite. -/
theorem extent_lt_overflowUnits : extent ranks < overflowUnits := by
  cases hranks : ranks with
  | nil => decide
  | cons first rest =>
    have hfirst : first ∈ ranks := hranks ▸ List.mem_cons_self
    obtain ⟨hlow, hlowFinite, -⟩ := lowest_spec hfirst (h first hfirst).1
    obtain ⟨hhigh, hhighFinite, -⟩ := highest_spec hfirst (h first hfirst).1
    have hnonneg := (Binary.signedUnits_nonneg_iff (Binary.isNaN_of_isFinite hlowFinite)).mpr
      (h _ hlow).2
    have hbound := Binary.signedUnits_lt_overflowUnits hhighFinite
    have hextent := height_eq h hhigh
    rw [← hranks, extent]
    omega

/-- Ranks count as one where they are not spread. -/
theorem extent_le_resolution_iff (hmem : rank ∈ ranks) :
    (highest ranks - lowest ranks).le rankResolution = true ↔ ¬ Spread ranks := by
  obtain ⟨-, hlowFinite, -⟩ := lowest_spec hmem (h rank hmem).1
  obtain ⟨hhigh, hhighFinite, -⟩ := highest_spec hmem (h rank hmem).1
  have hwidth := Binary.atOrdinal_sub hhighFinite hlowFinite (height_eq h hhigh)
  have hmiddle : binary32.units Binary.resolutionOrdinal +
      binary32.units (Binary.resolutionOrdinal + 1) = 2 * (2 ^ 126 + 2 ^ 102) := by decide
  have heven : Binary.resolutionOrdinal % 2 = 0 := by decide
  have hsmall : Binary.resolutionOrdinal < binary32.infinity := by decide
  rw [hwidth.capped.le_iff Binary.atOrdinal_rankResolution (Nat.min_le_right _ _) hsmall.le,
    spread_iff h, not_lt]
  have hround : binary32.nearest (extent ranks) 1 ≤ Binary.resolutionOrdinal ↔
      2 * extent ranks ≤ 2 * (2 ^ 126 + 2 ^ 102) * 1 := by
    rw [← hmiddle]
    exact Format.nearest_le_iff_of_even Nat.one_pos heven
  rw [extent] at hround ⊢
  omega

/-- The score of a rank among ranks that are spread. -/
theorem atOrdinal_scaledRank (hspread : Spread ranks) (hmem : rank ∈ ranks) :
    0 < binary32.nearest (extent ranks) 1 ∧
    (scaledRank ranks rank).AtOrdinal (partOrdinal (binary32.nearest (height ranks rank) 1)
      (binary32.nearest (extent ranks) 1)) := by
  obtain ⟨-, hlowFinite, -⟩ := lowest_spec hmem (h rank hmem).1
  obtain ⟨hhigh, hhighFinite, -⟩ := highest_spec hmem (h rank hmem).1
  have hpart := Binary.atOrdinal_sub (h rank hmem).1 hlowFinite (height_eq h hmem)
  have hwidth := Binary.atOrdinal_sub hhighFinite hlowFinite (height_eq h hhigh)
  have hwide : ¬ (highest ranks - lowest ranks).le rankResolution = true :=
    fun hnarrow => (extent_le_resolution_iff h hmem).mp hnarrow hspread
  have hpositive : 0 < binary32.nearest (extent ranks) 1 := pos_of_wide hwidth hwide
  have hfinite : binary32.nearest (extent ranks) 1 < binary32.infinity := by
    rw [← not_le, Binary.infinity_le_nearest_iff, not_le]
    exact extent_lt_overflowUnits h
  have hmono : binary32.nearest (height ranks rank) 1 ≤ binary32.nearest (extent ranks) 1 :=
    Format.nearest_mono Nat.one_pos (height_le_extent h hmem)
  have hquotient := hpart.div hwidth (hmono.trans_lt hfinite) hfinite hpositive
  refine ⟨hpositive, ?_⟩
  rw [scaledRank, if_neg (by simp [hlowFinite, hhighFinite, hwide]), if_pos (h rank hmem).1,
    hquotient.clamp_eq (Binary.part_bounds hpositive hmono).1]
  exact hquotient

/-- The score of a rank among ranks that are not spread. -/
theorem scaledRank_of_close (hclose : ¬ Spread ranks) (hmem : rank ∈ ranks) :
    scaledRank ranks rank = if Binary.lt .zero rank then .half else .zero := by
  rw [scaledRank, (extent_le_resolution_iff h hmem).mpr hclose, Bool.or_true, if_pos rfl,
    (h rank hmem).1, Bool.true_and]

theorem scaledRank_mono {other : Single} (hmem : rank ∈ ranks) (hother : other ∈ ranks)
    (hle : rank.le other = true) :
    (scaledRank ranks rank).le (scaledRank ranks other) = true := by
  by_cases hspread : Spread ranks
  · obtain ⟨hpositive, hrank⟩ := atOrdinal_scaledRank h hspread hmem
    obtain ⟨-, hnumber⟩ := atOrdinal_scaledRank h hspread hother
    have hunits := binary32.units_pos_iff.mpr hpositive
    have hmost {x : Single} (hx : x ∈ ranks) :
        partOrdinal (binary32.nearest (height ranks x) 1) (binary32.nearest (extent ranks) 1) ≤
          binary32.infinity :=
      (Binary.part_bounds hpositive
        (Format.nearest_mono Nat.one_pos (height_le_extent h hx))).1.trans
          Binary.oneOrdinal_lt_infinity.le
    rw [hrank.le_iff hnumber (hmost hmem) (hmost hother)]
    apply Format.nearest_mono hunits
    apply Nat.mul_le_mul_right
    apply binary32.units_le_iff.mpr
    exact Format.nearest_mono Nat.one_pos ((height_le_iff h hmem hother).mpr hle)
  · rw [scaledRank_of_close h hspread hmem, scaledRank_of_close h hspread hother]
    cases hsign : Binary.lt .zero rank with
    | false =>
      rw [if_neg Bool.false_ne_true]
      cases Binary.lt .zero other with
      | false => decide
      | true => decide
    | true =>
      have hpositive : Binary.lt .zero other = true := by
        obtain ⟨zero, a, hzero, ha, hlt⟩ := Binary.lt_iff.mp hsign
        obtain ⟨a', b, ha', hb, hab⟩ := Binary.le_iff.mp hle
        cases ha.symm.trans ha'
        exact Binary.lt_iff.mpr ⟨zero, b, hzero, hb, by omega⟩
      rw [hpositive]
      decide

/-- The lowest rank is at the beginning of the way. -/
theorem isZero_scaledRank (hspread : Spread ranks) (hmem : rank ∈ ranks)
    (hleast : ∀ other ∈ ranks, rank.le other = true) :
    (scaledRank ranks rank).isZero = true := by
  obtain ⟨hpositive, hrank⟩ := atOrdinal_scaledRank h hspread hmem
  have hlow := (lowest_spec hmem (h rank hmem).1).1
  have hheight : height ranks rank = 0 := by
    have hlowest : height ranks (lowest ranks) = 0 := by simp [height]
    have hle := (height_le_iff h hmem hlow).mpr (hleast _ hlow)
    exact Nat.le_zero.mp (hle.trans_eq hlowest)
  rw [hheight, Format.nearest_zero Nat.one_pos, partOrdinal, binary32.units_zero, Nat.zero_mul,
    Format.nearest_zero (binary32.units_pos_iff.mpr hpositive)] at hrank
  exact Binary.isZero_iff.mpr hrank

/-- The highest rank is at the end of the way. -/
theorem scaledRank_eq_one (hspread : Spread ranks) (hmem : rank ∈ ranks)
    (hmost : ∀ other ∈ ranks, other.le rank = true) : scaledRank ranks rank = .one := by
  obtain ⟨hpositive, hrank⟩ := atOrdinal_scaledRank h hspread hmem
  have hhigh := (highest_spec hmem (h rank hmem).1).1
  have hheight : height ranks rank = extent ranks :=
    Nat.le_antisymm (height_le_extent h hmem) ((height_le_iff h hhigh hmem).mpr (hmost _ hhigh))
  have hall : partOrdinal (binary32.nearest (extent ranks) 1)
      (binary32.nearest (extent ranks) 1) = oneOrdinal := by
    apply Format.nearest_eq (binary32.units_pos_iff.mpr hpositive)
    rw [Binary.units_oneOrdinal, Nat.mul_comm]
  rw [hheight, hall] at hrank
  exact hrank.eq_one

/-- **Ranks that are spread are scaled by where they are between the lowest and the highest
    one.**  Each rank is scored on its own, and a rank that is not below another does not score
    below it.  If two ranks are more than `2 ^ -23 + 2 ^ -47` apart, the lowest rank scores zero
    and the highest one scores one wherever they occur.  If not, as when all ranks are equal,
    each positive rank scores half and zero scores zero. -/
theorem scaleRanks_minMax :
    ∃ score : Single → Single, scaleRanks ranks = ranks.map score ∧
      (∀ x ∈ ranks, ∀ y ∈ ranks, x.le y = true → (score x).le (score y) = true) ∧
      (Spread ranks →
        (∀ x ∈ ranks, (∀ y ∈ ranks, x.le y = true) → (score x).isZero = true) ∧
          ∀ x ∈ ranks, (∀ y ∈ ranks, y.le x = true) → score x = .one) ∧
      (¬ Spread ranks → ∀ x ∈ ranks, score x = if Binary.lt .zero x then .half else .zero) ∧
      ((∀ x ∈ ranks, ∀ y ∈ ranks, x.equal y = true) → ¬ Spread ranks) := by
  refine ⟨scaledRank ranks, scaleRanks_eq_map ranks, ?_, ?_, ?_, ?_⟩
  · intro x hx y hy hle
    exact scaledRank_mono h hx hy hle
  · intro hspread
    exact ⟨fun x hx hleast => isZero_scaledRank h hspread hx hleast,
      fun x hx hmost => scaledRank_eq_one h hspread hx hmost⟩
  · intro hclose x hx
    exact scaledRank_of_close h hclose hx
  · rintro hequal ⟨low, hlow, high, hhigh, hfar⟩
    have hsame := hequal high hhigh low hlow
    have hle : high.le low = true := by
      rw [Binary.le, ← Binary.equal, hsame, Bool.or_true]
    have hheight := (height_le_iff h hhigh hlow).mpr hle
    have hlowHeight := height_eq h hlow
    have hhighHeight := height_eq h hhigh
    have hunits : high.signedUnits ≤ low.signedUnits := by omega
    have hrat : high.toRat ≤ low.toRat :=
      div_le_div_of_nonneg_right (Int.cast_le.mpr hunits) (by positivity)
    linarith

end Scale

/-- Nothing, a half and one are spread, and scaled to zero, to between and to one. -/
theorem scaleRanks_minMax_half :
    ∃ score : Single → Single, scaleRanks [.zero, .half, .one] = [.zero, .half, .one].map score ∧
      (score .zero).isZero = true ∧ (score .zero).le (score .half) = true ∧
      (score .half).le (score .one) = true ∧ score .one = .one := by
  obtain ⟨score, hscore, hmono, hspread, -⟩ :=
    @scaleRanks_minMax [.zero, .half, .one] (by unfold AreRanks; decide)
  have hzero : (Binary.zero : Single).toRat = 0 := by
    norm_num [Binary.toRat, Binary.signedUnits_zero]
  have hone : (Binary.one : Single).toRat = 1 := by
    have hunits : (Binary.one : Single).signedUnits = 2 ^ 149 := by decide
    have hscale : binary32.scale = 149 := by decide
    norm_num [Binary.toRat, hunits, hscale]
  obtain ⟨hleast, hmost⟩ := hspread
    ⟨.zero, by simp, .one, by simp, by rw [hzero, hone]; norm_num⟩
  exact ⟨score, hscore, hleast _ (by simp) (by decide),
    hmono _ (by simp) _ (by simp) (by decide),
    hmono _ (by simp) _ (by simp) (by decide),
    hmost _ (by simp) (by decide)⟩

/-- The higher of the ranks 0 and 1e-8 scores a half, not one. -/
theorem scaleRanks_close :
    AreRanks [.zero, .ofDecimal false 1 (-8)] ∧
    Binary.lt .zero (.ofDecimal false 1 (-8) : Single) = true ∧
    scaleRanks [.zero, .ofDecimal false 1 (-8)] = [.zero, .half] ∧
    (.half : Single) ≠ .one := by
  refine ⟨?_, ?_, ?_, ?_⟩
  · unfold AreRanks
    decide
  all_goals decide

end KnowledgeSearch
