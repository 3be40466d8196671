/-
  KnowledgeSearch/Proofs/Numeric/Narrowing.lean
  =============================================
  **Reading a number through double precision.**

  A decimal that is read as a double and then narrowed is rounded more than once.  If the double
  is near the decimal, narrowing gives the number that the decimal was printed for: the decimal
  is well away from the middles to the numbers beside it, or it is one of them and the double is
  the same middle, which narrowing gives to the even ordinal (`Decimal.Prints.toSingle_eq`).

  Beside three middles there are decimals so near that this does not follow.  They are left out
  here (`nearOrdinals`); what becomes of them depends on how exactly the double is found.
-/
import KnowledgeSearch.Proofs.Numeric.Shortest
import KnowledgeSearch.Proofs.Numeric.Ordinal

namespace KnowledgeSearch

open Format (binary32 binary64)

namespace Binary

/-! ### Narrowing -/

section Narrowing

variable {y : Double} {j k : Nat}

/-- A number that is not negative is converted to the nearest ordinal of another format. -/
theorem AtOrdinal.convert {F G : Format} {x : Binary F} (hx : x.AtOrdinal j)
    (hj : j < F.infinity) :
    (x.convert G).AtOrdinal (G.nearest (F.units j * 2 ^ G.scale) (2 ^ F.scale)) := by
  obtain ⟨negative, i, rfl, hi, hsign⟩ := hx
  rw [Nat.min_eq_left hj.le] at hi
  rw [Binary.convert, if_neg (hi ▸ hj.ne), hi, Nat.shiftLeft_eq]
  refine atOrdinal_ofOrdinal fun hnegative => ?_
  rw [hsign hnegative, F.units_zero, Nat.zero_mul, Nat.pow_eq,
    Format.nearest_zero (Nat.two_pow_pos _)]

/-- Only zero has two signs. -/
theorem AtOrdinal.eq_ofOrdinal {F : Format} {x : Binary F} (hx : x.AtOrdinal k) (hk : 0 < k) :
    x = ofOrdinal false k := by
  obtain ⟨negative, i, rfl, hi, hsign⟩ := hx
  cases negative with
  | true => exact absurd (hsign rfl) hk.ne'
  | false =>
    rw [ofOrdinal]
    congr
    exact Fin.ext hi

/-- A double between the middles around a number is narrowed to it. -/
theorem AtOrdinal.toSingle_eq (hy : y.AtOrdinal j) (hj : j < binary64.infinity) (hk : 0 < k)
    (hleast : binary32.units (k - 1) + binary32.units k ≤ y.toRat * 2 ^ 150)
    (hmost : y.toRat * 2 ^ 150 ≤ binary32.units k + binary32.units (k + 1))
    (hodd : k % 2 = 1 → binary32.units (k - 1) + binary32.units k < y.toRat * 2 ^ 150 ∧
      y.toRat * 2 ^ 150 < binary32.units k + binary32.units (k + 1)) :
    y.toSingle = ofOrdinal false k := by
  have hpos : (0 : ℚ) < 2 ^ binary64.scale := by positivity
  have hscale : binary32.scale = 149 := by decide
  have hvalue : y.toRat * 2 ^ 150 * 2 ^ binary64.scale =
      (2 * (binary64.units j * 2 ^ binary32.scale) : Nat) := by
    rw [hy.toRat hj.le, mul_right_comm, div_mul_cancel₀ _ hpos.ne', hscale]
    push_cast
    ring
  -- comparisons with a middle, in units of double precision
  have hle (a b : Nat) : (a + b : ℚ) ≤ y.toRat * 2 ^ 150 ↔
      (a + b) * 2 ^ binary64.scale ≤ 2 * (binary64.units j * 2 ^ binary32.scale) := by
    rw [← mul_le_mul_iff_left₀ hpos, hvalue]
    exact_mod_cast Iff.rfl
  have hge (a b : Nat) : y.toRat * 2 ^ 150 ≤ (a + b : ℚ) ↔
      2 * (binary64.units j * 2 ^ binary32.scale) ≤ (a + b) * 2 ^ binary64.scale := by
    rw [← mul_le_mul_iff_left₀ hpos, hvalue]
    exact_mod_cast Iff.rfl
  have hlt (a b : Nat) := not_congr (hge a b)
  have hgt (a b : Nat) := not_congr (hle a b)
  simp only [not_le] at hlt hgt
  have hsingle : y.toSingle.AtOrdinal _ := hy.convert hj
  rw [Format.nearest_eq_of_between (Nat.two_pow_pos _) hk ((hle _ _).mp hleast)
    ((hge _ _).mp hmost) fun hk => ⟨(hlt _ _).mp (hodd hk).1, (hgt _ _).mp (hodd hk).2⟩] at hsingle
  exact hsingle.eq_ofOrdinal hk

end Narrowing

end Binary

/-! ### Decimals and middles -/

/-- The ordinals beside the middles that other decimals come too near to. -/
def nearOrdinals : List Nat :=
  [363742205, 363742206, 372130813, 372130814, 853298129, 853298130]

theorem mem_nearOrdinals {j m : Nat} (h : (binary32.stepShift j, m) ∈ nearMiddles)
    (hmiddle : binary32.units j + binary32.units (j + 1) = m * 2 ^ binary32.stepShift j) :
    j ∈ nearOrdinals ∧ j + 1 ∈ nearOrdinals := by
  have hinjective := binary32.units_strictMono.injective
  have hstep := binary32.units_succ j
  simp only [nearMiddles, List.mem_cons, Prod.mk.injEq, List.not_mem_nil, or_false] at h
  rcases h with ⟨hshift, rfl⟩ | ⟨hshift, rfl⟩ | ⟨hshift, rfl⟩
  · have hunits : binary32.units 363742205 = 11420669 * 2 ^ 42 := by decide
    rw [hshift] at hmiddle hstep
    obtain rfl : j = 363742205 := hinjective (by omega)
    decide
  · have hunits : binary32.units 372130813 = 11420669 * 2 ^ 43 := by decide
    rw [hshift] at hmiddle hstep
    obtain rfl : j = 372130813 := hinjective (by omega)
    decide
  · have hunits : binary32.units 853298129 = 14437329 * 2 ^ 100 := by decide
    rw [hshift] at hmiddle hstep
    obtain rfl : j = 853298129 := hinjective (by omega)
    decide

namespace Decimal

/-- Whether a decimal is the middle behind an ordinal, on a grid that is not too fine. -/
def AtMiddle (d : Decimal) (j : Nat) : Prop :=
  d.halves = binary32.units j + binary32.units (j + 1) ∧
    coarseExponent (binary32.stepShift j) ≤ d.exponent

/-- A middle is an odd number of half steps. -/
theorem AtMiddle.exists_eq_mul_pow {d : Decimal} {j : Nat} (h : d.AtMiddle j) :
    ∃ n : Nat, 0 < n ∧ n < 2 ^ 25 ∧ d.toRat * 2 ^ 150 = n * 2 ^ binary32.stepShift j := by
  obtain ⟨steps, hsteps, hunits, hnext⟩ := binary32.units_eq_steps j
  have hbits : binary32.fractionBits = 23 := rfl
  rw [hbits] at hsteps
  refine ⟨2 * steps + 1, by omega, by omega, ?_⟩
  rw [← halves, h.1, hunits, hnext]
  push_cast
  ring

/-- A decimal on a grid that is not too fine is the middle behind an ordinal or keeps clear of
    it. -/
theorem atMiddle_or_clear {d : Decimal} {j : Nat} (hj : j < binary32.infinity)
    (hclear : ¬ (j ∈ nearOrdinals ∧ j + 1 ∈ nearOrdinals))
    (hcoarse : coarseExponent (binary32.stepShift j) ≤ d.exponent)
    (hmost : d.halves ≤ 2 ^ 25 * 2 ^ binary32.stepShift j) :
    d.AtMiddle j ∨
      17 * d.halves < 2 ^ 56 * |d.halves - (binary32.units j + binary32.units (j + 1))| := by
  obtain ⟨steps, -, hunits, hnext⟩ := binary32.units_eq_steps j
  have hmiddle : binary32.units j + binary32.units (j + 1) =
      (2 * steps + 1) * 2 ^ binary32.stepShift j := by
    rw [hunits, hnext]
    ring
  have hmiddleRat : (binary32.units j + binary32.units (j + 1) : ℚ) =
      (2 * steps + 1 : Nat) * 2 ^ binary32.stepShift j := by
    exact_mod_cast hmiddle
  rw [AtMiddle, hmiddleRat]
  rcases near_middle (Format.stepShift_lt hj) hcoarse hmost (2 * steps + 1) with
    heq | hfar | hmem
  · exact .inl ⟨heq, hcoarse⟩
  · exact .inr hfar
  · exact absurd (mem_nearOrdinals hmem hmiddle) hclear

namespace Prints

variable {d : Decimal} {k : Nat} (h : d.Prints k) (hfinite : k < binary32.infinity)
  (hclear : k ∉ nearOrdinals)

include h hfinite hclear

/-- A printed decimal keeps clear of the lower middle unless it is that middle. -/
theorem clear_below (hk : 0 < k) : d.AtMiddle (k - 1) ∨
    17 * d.halves < 2 ^ 56 * (d.halves - (binary32.units (k - 1) + binary32.units k)) := by
  obtain ⟨hunits, hnext, hmost, hsteps⟩ := Format.units_pred_rat hk
  have hpred : k - 1 + 1 = k := Nat.sub_add_cancel hk
  have hlow := h.low_le
  have hhigh := h.le_high
  have hstep : (0 : ℚ) < 2 ^ binary32.stepShift (k - 1) := by positivity
  rcases lt_or_ge d.halves (2 * binary32.units k) with hbelow | habove
  · rcases h.near_below hbelow with hcoarse | hnear
    · have hmiddle := atMiddle_or_clear ((Nat.sub_le k 1).trans_lt hfinite)
        (fun hmem => hclear (hpred ▸ hmem.2)) hcoarse (by linarith)
      rw [hpred, abs_of_nonneg (sub_nonneg.mpr hlow)] at hmiddle
      exact hmiddle
    · right
      linarith
  · right
    linarith

/-- A printed decimal keeps clear of the upper middle unless it is that middle. -/
theorem clear_above : d.AtMiddle k ∨
    17 * d.halves < 2 ^ 56 * (binary32.units k + binary32.units (k + 1) - d.halves) := by
  have hhigh := h.le_high
  obtain ⟨steps, hsteps, hunits, hnext⟩ := binary32.units_eq_steps k
  have hmost : (steps : ℚ) + 1 ≤ 2 ^ 24 := by
    have hbits : binary32.fractionBits = 23 := rfl
    rw [hbits] at hsteps
    exact_mod_cast hsteps
  have hunitsRat : (binary32.units k : ℚ) = steps * 2 ^ binary32.stepShift k := mod_cast hunits
  have hnextRat : (binary32.units (k + 1) : ℚ) = (steps + 1) * 2 ^ binary32.stepShift k :=
    mod_cast hnext
  have hstep : (0 : ℚ) < 2 ^ binary32.stepShift k := by positivity
  have hscaled := mul_le_mul_of_nonneg_right hmost hstep.le
  rcases h.near_above with hcoarse | hnear
  · have hmiddle := atMiddle_or_clear hfinite (fun hmem => hclear hmem.1) hcoarse (by linarith)
    rw [abs_sub_comm, abs_of_nonneg (sub_nonneg.mpr hhigh)] at hmiddle
    exact hmiddle
  · right
    linarith

/-- **A printed decimal is read back through double precision.**  It is enough that the double is
    near the decimal, and that it is the decimal where this is the middle of two numbers. -/
theorem toSingle_eq (hk : 0 < k) {y : Double} {j : Nat} (hy : y.AtOrdinal j)
    (hj : j < binary64.infinity)
    (hnear : 2 ^ 56 * |y.toRat - d.toRat| ≤ 17 * d.toRat)
    (hexact : ∀ i < binary32.infinity, d.AtMiddle i → y.toRat = d.toRat) :
    y.toSingle = Binary.ofOrdinal false k := by
  have hnearHalves : 2 ^ 56 * |y.toRat * 2 ^ 150 - d.halves| ≤ 17 * d.halves := by
    have hpos : (0 : ℚ) < 2 ^ 150 := by positivity
    rw [halves, ← sub_mul, abs_mul, abs_of_pos hpos, ← mul_assoc, ← mul_assoc]
    exact mul_le_mul_of_nonneg_right hnear hpos.le
  have hexactHalves {i : Nat} (hi : i < binary32.infinity) (hmiddle : d.AtMiddle i) :
      y.toRat * 2 ^ 150 = d.halves := by
    rw [hexact i hi hmiddle, halves]
  obtain ⟨habove, hbelow⟩ := abs_le.mp (le_refl |y.toRat * 2 ^ 150 - d.halves|)
  have hpred := (Nat.sub_le k 1).trans_lt hfinite
  apply hy.toSingle_eq hj hk
  · rcases h.clear_below hfinite hclear hk with hmiddle | hfar
    · rw [hexactHalves hpred hmiddle]
      exact h.low_le
    · linarith
  · rcases h.clear_above hfinite hclear with hmiddle | hfar
    · rw [hexactHalves hfinite hmiddle]
      exact h.le_high
    · linarith
  · intro hodd
    obtain ⟨hlow, hhigh⟩ := h.inside hodd
    constructor
    · rcases h.clear_below hfinite hclear hk with hmiddle | hfar
      · rwa [hexactHalves hpred hmiddle]
      · linarith
    · rcases h.clear_above hfinite hclear with hmiddle | hfar
      · rwa [hexactHalves hfinite hmiddle]
      · linarith

end Prints

end Decimal

end KnowledgeSearch
