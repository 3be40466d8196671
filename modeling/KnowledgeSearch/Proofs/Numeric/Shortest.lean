/-
  KnowledgeSearch/Proofs/Numeric/Shortest.lean
  ============================================
  **The fewest digits of a number.**

  The search for the fewest digits goes through the decimal grids from a coarse one downward and
  takes a point that lies between the middles to the two numbers beside the value.  On a grid
  finer than the smaller half step it finds one, so it never comes much below that
  (`Decimal.search_finds`).

  What it finds is not only between the middles.  On a grid finer than the half step on its side
  of the value it is no farther from the value than half of that step, so well away from the
  middle; only on a coarser grid it can be near it (`Format.prints_shortest`).
-/
import KnowledgeSearch.Proofs.Numeric.Middle
import KnowledgeSearch.Numeric.Decimal

namespace KnowledgeSearch

open Format (binary32)

namespace Decimal

/-! ### Grid points -/

/-- Whether a grid point lies between the bounds of what rounds to a value; its ends belong to
    that when `closed` is set.  Everything is doubled and multiplied by `part`. -/
def Inside (low high unit part : Nat) (closed : Bool) (d : Nat) : Prop :=
  if closed then low * part ≤ 2 * d * unit ∧ 2 * d * unit ≤ high * part
  else low * part < 2 * d * unit ∧ 2 * d * unit < high * part

section Candidates

variable {tie : TieRule} {low value high scale : Nat} {closed : Bool} {exponent : Int} {d : Decimal}

/-- Between two bounds, strictly or not. -/
theorem Inside.bounds {unit part d : Nat} (h : Inside low high unit part closed d) :
    low * part ≤ 2 * d * unit ∧ 2 * d * unit ≤ high * part ∧
      (closed = false → low * part < 2 * d * unit ∧ 2 * d * unit < high * part) := by
  cases closed with
  | true => exact ⟨h.1, h.2, nofun⟩
  | false => exact ⟨h.1.le, h.2.le, fun _ => h⟩

theorem inside_of_lt {unit part d : Nat} (hlow : low * part < 2 * d * unit)
    (hhigh : 2 * d * unit < high * part) : Inside low high unit part closed d := by
  unfold Inside
  split
  · exact ⟨hlow.le, hhigh.le⟩
  · exact ⟨hlow, hhigh⟩

instance (unit part d : Nat) : Decidable (Inside low high unit part closed d) :=
  inferInstanceAs <| Decidable <|
    if closed then low * part ≤ 2 * d * unit ∧ 2 * d * unit ≤ high * part
    else low * part < 2 * d * unit ∧ 2 * d * unit < high * part

/-- Whether the lower one of two points is preferred. -/
def prefersBelow (tie : TieRule) (below value middle : Nat) : Bool :=
  match compare value middle with
  | .lt => true
  | .gt => false
  | .eq => tie == .toEven && below % 2 == 0

/-- The lower point is preferred only if the value is not beyond the middle, and the higher one
    only if it is not before. -/
theorem prefersBelow_spec (below value middle : Nat) :
    (prefersBelow tie below value middle = true → value ≤ middle) ∧
      (prefersBelow tie below value middle = false → middle ≤ value) := by
  unfold prefersBelow
  cases hcompare : compare value middle with
  | lt => exact ⟨fun _ => (Nat.compare_eq_lt.mp hcompare).le, nofun⟩
  | gt => exact ⟨nofun, fun _ => (Nat.compare_eq_gt.mp hcompare).le⟩
  | eq =>
    have heq := Nat.compare_eq_eq.mp hcompare
    exact ⟨fun _ => heq.le, fun _ => heq.ge⟩

theorem candidate?_eq :
    candidate? tie low value high scale closed exponent =
      let unit := 10 ^ exponent.toNat * scale
      let part := 10 ^ (-exponent).toNat
      let below := value * part / unit
      match decide (below ≠ 0 ∧ Inside low high unit part closed below),
        decide (Inside low high unit part closed (below + 1)) with
      | true, true =>
        some ⟨if prefersBelow tie below (2 * value * part) ((below + (below + 1)) * unit) then below
          else below + 1, exponent⟩
      | true, false => some ⟨below, exponent⟩
      | false, true => some ⟨below + 1, exponent⟩
      | false, false => none := rfl

/-- What a grid offers: the point below the value or the one above it, the nearer one if both
    are inside. -/
theorem candidate?_eq_some (h : candidate? tie low value high scale closed exponent = some d) :
    let unit := 10 ^ exponent.toNat * scale
    let part := 10 ^ (-exponent).toNat
    let below := value * part / unit
    d.exponent = exponent ∧ Inside low high unit part closed d.digits ∧
      (d.digits = below ∧ below ≠ 0 ∧
          (Inside low high unit part closed (below + 1) →
            2 * value * part ≤ (below + (below + 1)) * unit) ∨
        d.digits = below + 1 ∧
          (below ≠ 0 → Inside low high unit part closed below →
            (below + (below + 1)) * unit ≤ 2 * value * part)) := by
  rw [candidate?_eq] at h
  intro unit part below
  have hnearer := @prefersBelow_spec tie below (2 * value * part)
    ((below + (below + 1)) * unit)
  dsimp only at h
  split at h
  · rename_i hbelow habove
    obtain ⟨hne, hbelow⟩ := of_decide_eq_true hbelow
    cases h
    cases hprefers : prefersBelow tie below (2 * value * part) ((below + (below + 1)) * unit) with
    | true => exact ⟨rfl, hbelow, .inl ⟨rfl, hne, fun _ => hnearer.1 hprefers⟩⟩
    | false =>
      exact ⟨rfl, of_decide_eq_true habove, .inr ⟨rfl, fun _ _ => hnearer.2 hprefers⟩⟩
  · rename_i hbelow habove
    obtain ⟨hne, hbelow⟩ := of_decide_eq_true hbelow
    cases h
    exact ⟨rfl, hbelow, .inl ⟨rfl, hne, fun hinside => absurd hinside (of_decide_eq_false habove)⟩⟩
  · rename_i hbelow habove
    cases h
    exact ⟨rfl, of_decide_eq_true habove, .inr ⟨rfl, fun hne hinside =>
      absurd ⟨hne, hinside⟩ (of_decide_eq_false hbelow)⟩⟩
  · cases h

/-- A grid offers a point if one of the two next to the value is inside. -/
theorem isSome_candidate?_iff :
    (candidate? tie low value high scale closed exponent).isSome = true ↔
      let unit := 10 ^ exponent.toNat * scale
      let part := 10 ^ (-exponent).toNat
      let below := value * part / unit
      below ≠ 0 ∧ Inside low high unit part closed below ∨
        Inside low high unit part closed (below + 1) := by
  rw [candidate?_eq]
  extract_lets unit part below
  by_cases hbelow : below ≠ 0 ∧ Inside low high unit part closed below
  · rw [decide_eq_true hbelow]
    cases decide (Inside low high unit part closed (below + 1)) <;>
      exact iff_of_true rfl (.inl hbelow)
  · rw [decide_eq_false hbelow, or_iff_right hbelow]
    by_cases habove : Inside low high unit part closed (below + 1)
    · rw [decide_eq_true habove]
      exact iff_of_true rfl habove
    · rw [decide_eq_false habove]
      exact iff_of_false nofun habove

/-- A grid finer than both half steps offers a point. -/
theorem isSome_candidate? (hscale : 0 < scale)
    (hlow : low * 10 ^ (-exponent).toNat + 2 * (10 ^ exponent.toNat * scale) <
      2 * value * 10 ^ (-exponent).toNat)
    (hhigh : 2 * value < high) :
    (candidate? tie low value high scale closed exponent).isSome = true := by
  have hunit : 0 < 10 ^ exponent.toNat * scale := by positivity
  have hpart : 0 < 10 ^ (-exponent).toNat := by positivity
  have hhighPart := Nat.mul_lt_mul_of_pos_right hhigh hpart
  rw [isSome_candidate?_iff]
  dsimp only
  generalize 10 ^ exponent.toNat * scale = unit at *
  generalize 10 ^ (-exponent).toNat = part at *
  have hbelow := Nat.div_mul_le_self (value * part) unit
  have habove := Nat.lt_div_mul_add (a := value * part) hunit
  generalize value * part / unit = below at *
  rw [Nat.mul_assoc] at hlow hhighPart
  refine .inl ⟨?_, inside_of_lt ?_ ?_⟩
  · rintro rfl
    omega
  · rw [Nat.mul_assoc]
    omega
  · rw [Nat.mul_assoc]
    omega

/-- The search comes no lower than to a grid that offers a point. -/
theorem search_finds {goal : Int}
    (hgoal : (candidate? tie low value high scale closed goal).isSome = true) (steps : Nat)
    {exponent : Int} (habove : goal ≤ exponent) (hsteps : exponent < goal + steps) :
    ∃ found, goal ≤ found ∧
      candidate? tie low value high scale closed found =
        some (search tie low value high scale closed steps exponent) := by
  induction steps generalizing exponent with
  | zero => exact absurd hsteps (by omega)
  | succ steps ih =>
    unfold search
    cases hcandidate : candidate? tie low value high scale closed exponent with
    | some d => exact ⟨exponent, habove, hcandidate⟩
    | none =>
      have hne : exponent ≠ goal := by
        rintro rfl
        simp [hcandidate] at hgoal
      exact ih (by omega) (by omega)

/-- A grid point in halves of a unit, as the search writes it without fractions. -/
theorem grid_mul_part (exponent : Int) (scale n : Nat) :
    (n * (10 ^ exponent * 2 ^ (scale + 1)) : ℚ) * 10 ^ (-exponent).toNat =
      (2 * n * (10 ^ exponent.toNat * 2 ^ scale) : Nat) := by
  push_cast
  linear_combination (2 * n * 2 ^ scale : ℚ) * zpow_mul_pow_toNat exponent

theorem le_grid_iff (exponent : Int) (scale x n : Nat) :
    x * 10 ^ (-exponent).toNat ≤ 2 * n * (10 ^ exponent.toNat * 2 ^ scale) ↔
      (x : ℚ) ≤ n * (10 ^ exponent * 2 ^ (scale + 1)) := by
  have hpart : (0 : ℚ) < 10 ^ (-exponent).toNat := by positivity
  rw [← mul_le_mul_iff_left₀ hpart, grid_mul_part]
  exact_mod_cast Iff.rfl

theorem grid_le_iff (exponent : Int) (scale x n : Nat) :
    2 * n * (10 ^ exponent.toNat * 2 ^ scale) ≤ x * 10 ^ (-exponent).toNat ↔
      n * (10 ^ exponent * 2 ^ (scale + 1)) ≤ (x : ℚ) := by
  have hpart : (0 : ℚ) < 10 ^ (-exponent).toNat := by positivity
  rw [← mul_le_mul_iff_left₀ hpart, grid_mul_part]
  exact_mod_cast Iff.rfl

theorem lt_grid_iff (exponent : Int) (scale x n : Nat) :
    x * 10 ^ (-exponent).toNat < 2 * n * (10 ^ exponent.toNat * 2 ^ scale) ↔
      (x : ℚ) < n * (10 ^ exponent * 2 ^ (scale + 1)) := by
  rw [← not_le, grid_le_iff, not_le]

theorem grid_lt_iff (exponent : Int) (scale x n : Nat) :
    2 * n * (10 ^ exponent.toNat * 2 ^ scale) < x * 10 ^ (-exponent).toNat ↔
      n * (10 ^ exponent * 2 ^ (scale + 1)) < (x : ℚ) := by
  rw [← not_le, le_grid_iff, not_le]

/-- What a grid of single precision offers, in halves of a unit: the point on its side of the value
    that is next to it, or the one on the other side if that is not inside or not nearer. -/
theorem candidate?_halves
    (h : candidate? tie low value high (2 ^ 149) closed exponent = some d) :
    d.exponent = exponent ∧ low ≤ d.halves ∧ d.halves ≤ high ∧
      (closed = false → low < d.halves ∧ d.halves < high) ∧
      ∃ below : Nat, ∃ grid : ℚ, grid = 10 ^ exponent * 2 ^ 150 ∧
        below * grid ≤ 2 * value ∧ 2 * value < (below + 1) * grid ∧
        (d.halves = below * grid ∧ below ≠ 0 ∧
            (low < (below + 1) * grid → (below + 1) * grid < high →
              4 * value ≤ (2 * below + 1) * grid) ∨
          d.halves = (below + 1) * grid ∧
            (below ≠ 0 → low < below * grid → below * grid < high →
              (2 * below + 1) * grid ≤ 4 * value)) := by
  obtain ⟨hexponent, hinside, hpoint⟩ := candidate?_eq_some h
  have hhalves : d.halves = d.digits * (10 ^ exponent * 2 ^ (149 + 1)) := by
    rw [halves, toRat, hexponent, mul_assoc]
  have hbelow := Nat.div_mul_le_self (value * 10 ^ (-exponent).toNat)
    (10 ^ exponent.toNat * 2 ^ 149)
  have habove := Nat.lt_div_mul_add (a := value * 10 ^ (-exponent).toNat)
    (show 0 < 10 ^ exponent.toNat * 2 ^ 149 by positivity)
  generalize value * 10 ^ (-exponent).toNat / (10 ^ exponent.toNat * 2 ^ 149) = below at *
  obtain ⟨hlowest, hhighest, hstrict⟩ := hinside.bounds
  rw [hhalves]
  refine ⟨hexponent, (le_grid_iff ..).mp hlowest, (grid_le_iff ..).mp hhighest,
    fun hopen => ⟨(lt_grid_iff ..).mp (hstrict hopen).1, (grid_lt_iff ..).mp (hstrict hopen).2⟩,
    below, _, rfl, ?_, ?_, ?_⟩
  · have hdouble : 2 * below * (10 ^ exponent.toNat * 2 ^ 149) ≤
        2 * value * 10 ^ (-exponent).toNat := by
      rw [Nat.mul_assoc, Nat.mul_assoc]
      exact Nat.mul_le_mul_left 2 hbelow
    exact_mod_cast (grid_le_iff ..).mp hdouble
  · have hdouble : 2 * value * 10 ^ (-exponent).toNat <
        2 * (below + 1) * (10 ^ exponent.toNat * 2 ^ 149) := by
      rw [Nat.mul_assoc, Nat.mul_assoc, Nat.add_one_mul below]
      exact Nat.mul_lt_mul_of_pos_left habove Nat.two_pos
    exact_mod_cast (lt_grid_iff ..).mp hdouble
  · have hmiddle : (2 * below + 1 : ℚ) = (below + (below + 1) : Nat) := by
      push_cast
      ring
    have hfour : (4 * value : ℚ) = (2 * (2 * value) : Nat) := by
      push_cast
      ring
    rw [hmiddle, hfour]
    rcases hpoint with ⟨hdigits, hne, hnearer⟩ | ⟨hdigits, hnearer⟩
    · refine .inl ⟨by rw [hdigits], hne, fun habove hbelow => (le_grid_iff ..).mp ?_⟩
      rw [Nat.mul_assoc 2 (2 * value), Nat.mul_assoc 2 (below + (below + 1))]
      refine Nat.mul_le_mul_left 2 (hnearer (inside_of_lt ?_ ?_))
      · exact (lt_grid_iff ..).mpr (by exact_mod_cast habove)
      · exact (grid_lt_iff ..).mpr (by exact_mod_cast hbelow)
    · refine .inr ⟨by rw [hdigits]; push_cast; rfl, fun hne hbelow habove => (grid_le_iff ..).mp ?_⟩
      rw [Nat.mul_assoc 2 (2 * value), Nat.mul_assoc 2 (below + (below + 1))]
      exact Nat.mul_le_mul_left 2 (hnearer hne
        (inside_of_lt ((lt_grid_iff ..).mpr hbelow) ((grid_lt_iff ..).mpr habove)))

/-- Below the value, a point of a grid finer than the lower half step is in the half of it that
    ends at the value. -/
theorem near_value_below
    (h : candidate? tie low value high (2 ^ 149) closed exponent = some d)
    (hgrid : low + (10 : ℚ) ^ exponent * 2 ^ 150 < 2 * value) (hsteps : 4 * value ≤ low + high)
    (hbelow : d.halves < 2 * value) : low + 2 * value ≤ 2 * d.halves := by
  obtain ⟨-, -, -, -, below, grid, rfl, hleast, hmost, hpoint⟩ := candidate?_halves h
  have hsteps : (4 * value : ℚ) ≤ low + high := mod_cast hsteps
  rcases hpoint with ⟨hhalves, -, hnearer⟩ | ⟨hhalves, -⟩
  · have hnear := hnearer (by linarith) (by linarith)
    linarith
  · linarith

/-- Above the value, a point of a grid finer than the upper half step is in the half of it that
    begins at the value. -/
theorem near_value_above
    (h : candidate? tie low value high (2 ^ 149) closed exponent = some d)
    (hgrid : 2 * value + (10 : ℚ) ^ exponent * 2 ^ 150 < high) (hlow : low < 2 * value)
    (hsteps : 2 * low + high ≤ 6 * value) :
    2 * d.halves ≤ 2 * value + high := by
  obtain ⟨-, -, -, -, below, grid, rfl, hleast, hmost, hpoint⟩ := candidate?_halves h
  have hsteps : (2 * low + high : ℚ) ≤ 6 * value := mod_cast hsteps
  have hlow' : (low : ℚ) < 2 * value := mod_cast hlow
  have hnonneg : (0 : ℚ) ≤ low := Nat.cast_nonneg low
  rcases hpoint with ⟨hhalves, -⟩ | ⟨hhalves, hnearer⟩
  · linarith
  · by_cases hne : below = 0
    · rw [hne] at hhalves hmost
      push_cast at hhalves hmost
      linarith
    · by_cases hinside : (low : ℚ) < below * (10 ^ exponent * 2 ^ 150)
      · have hnear := hnearer hne hinside (by linarith)
        linarith
      · linarith

end Candidates

/-! ### Trailing zeros -/

/-- Without its trailing zeros a decimal is the same number on a coarser grid. -/
theorem trimZeros_spec (steps : Nat) (d : Decimal) :
    (d.trimZeros steps).halves = d.halves ∧ d.exponent ≤ (d.trimZeros steps).exponent ∧
      (d.digits ≠ 0 → (d.trimZeros steps).digits ≠ 0) := by
  induction steps generalizing d with
  | zero => exact ⟨rfl, le_rfl, id⟩
  | succ steps ih =>
    rw [trimZeros]
    split
    · rename_i hzero
      obtain ⟨hhalves, hexponent, hne⟩ := ih ⟨d.digits / 10, d.exponent + 1⟩
      have hdigits : (d.digits : ℚ) = (d.digits / 10 : Nat) * 10 := by
        exact_mod_cast (Nat.div_mul_cancel (Nat.dvd_of_mod_eq_zero hzero.2)).symm
      refine ⟨?_, (lt_add_one _).le.trans hexponent, fun _ => hne (by dsimp only; omega)⟩
      rw [hhalves, halves, halves, toRat, toRat, hdigits, zpow_add_one₀ (by norm_num)]
      ring
    · exact ⟨rfl, le_rfl, id⟩

/-! ### The fewest digits -/

/-- What the decimal is like that a positive finite number is printed as. -/
structure Prints (d : Decimal) (k : Nat) : Prop where
  digits_ne_zero : d.digits ≠ 0
  digits_lt : d.digits < 2 ^ 53
  exponent_ge : -46 ≤ d.exponent
  low_le : binary32.units (k - 1) + binary32.units k ≤ d.halves
  le_high : d.halves ≤ binary32.units k + binary32.units (k + 1)
  inside : k % 2 = 1 → binary32.units (k - 1) + binary32.units k < d.halves ∧
    d.halves < binary32.units k + binary32.units (k + 1)
  near_below : d.halves < 2 * binary32.units k →
    coarseExponent (binary32.stepShift (k - 1)) ≤ d.exponent ∨
      2 * (2 * binary32.units k - d.halves) ≤ 2 ^ binary32.stepShift (k - 1)
  near_above : coarseExponent (binary32.stepShift k) ≤ d.exponent ∨
    2 * (d.halves - 2 * binary32.units k) ≤ 2 ^ binary32.stepShift k

end Decimal

namespace Format

theorem stepShift_lt {k : Nat} (h : k < binary32.infinity) : binary32.stepShift k < 254 := by
  have hinfinity : binary32.infinity = 255 * 2 ^ 23 := by decide
  have hbits : binary32.fractionBits = 23 := rfl
  rw [stepShift, hbits]
  omega

/-- The search begins above the finest grid that it may need. -/
theorem coarseExponent_bounds {shift log : Nat} (h : shift ≤ log) :
    coarseExponent shift - 1 ≤ Int.fdiv (((log : Int) - 149 + 1) * 30103) 100000 + 1 ∧
      -46 ≤ coarseExponent shift - 1 := by
  rw [Int.fdiv_eq_ediv_of_nonneg _ (by decide), coarseExponent]
  omega

/-- The value before a positive one, both in lower steps. -/
theorem units_pred {k : Nat} (hk : 0 < k) :
    binary32.units k = binary32.units (k - 1) + 2 ^ binary32.stepShift (k - 1) ∧
      binary32.units k ≤ 2 ^ 24 * 2 ^ binary32.stepShift (k - 1) ∧
      binary32.stepShift (k - 1) ≤ binary32.stepShift k ∧
      2 ^ binary32.stepShift k ≤ 2 * 2 ^ binary32.stepShift (k - 1) := by
  have hpred : k - 1 + 1 = k := Nat.sub_add_cancel hk
  obtain ⟨steps, hsteps, -, hnext⟩ := binary32.units_eq_steps (k - 1)
  have hbits : binary32.fractionBits = 23 := rfl
  rw [hbits] at hsteps
  have hsucc := binary32.stepShift_succ_le (k - 1)
  rw [hpred] at hnext hsucc
  refine ⟨?_, ?_, binary32.stepShift_mono (Nat.sub_le _ _), ?_⟩
  · rw [← units_succ, hpred]
  · rw [hnext]
    exact Nat.mul_le_mul_right _ (by omega)
  · rw [← pow_succ']
    exact Nat.pow_le_pow_right Nat.two_pos hsucc

/-- The steps on both sides of a positive value, as fractions. -/
theorem units_pred_rat {k : Nat} (hk : 0 < k) :
    (binary32.units k : ℚ) = binary32.units (k - 1) + 2 ^ binary32.stepShift (k - 1) ∧
      (binary32.units (k + 1) : ℚ) = binary32.units k + 2 ^ binary32.stepShift k ∧
      (binary32.units k : ℚ) ≤ 2 ^ 24 * 2 ^ binary32.stepShift (k - 1) ∧
      (2 ^ binary32.stepShift k : ℚ) ≤ 2 * 2 ^ binary32.stepShift (k - 1) := by
  obtain ⟨hunits, hmost, -, hsteps⟩ := units_pred hk
  exact ⟨mod_cast hunits, mod_cast binary32.units_succ k, mod_cast hmost, mod_cast hsteps⟩

/-- The grid that a printed decimal is found on. -/
theorem exists_candidate (tie : TieRule) {k : Nat} (hk : 0 < k) (hfinite : k < binary32.infinity) :
    ∃ exponent found, coarseExponent (binary32.stepShift (k - 1)) - 1 ≤ exponent ∧
      Decimal.candidate? tie (binary32.units (k - 1) + binary32.units k) (binary32.units k)
        (binary32.units k + binary32.units (k + 1)) (2 ^ 149) (k % 2 = 0) exponent = some found ∧
      binary32.shortest tie k = found.trimZeros (found.digits.log2 + 1) := by
  obtain ⟨hunits, -⟩ := units_pred hk
  have hshift := stepShift_lt (Nat.lt_of_le_of_lt (Nat.sub_le k 1) hfinite)
  have hlog : binary32.stepShift (k - 1) ≤ (binary32.units k).log2 := by
    rw [Nat.le_log2 (binary32.units_pos_iff.mpr hk).ne', hunits]
    exact Nat.le_add_left _ _
  obtain ⟨hstart, hleast⟩ := coarseExponent_bounds hlog
  have hfine := zpow_lt_of_lt_coarse hshift
    (sub_one_lt (coarseExponent (binary32.stepShift (k - 1))))
  generalize coarseExponent (binary32.stepShift (k - 1)) - 1 = goal at *
  have hunits : (binary32.units k : ℚ) =
      binary32.units (k - 1) + 2 ^ binary32.stepShift (k - 1) := mod_cast hunits
  have hoffers : (Decimal.candidate? tie (binary32.units (k - 1) + binary32.units k)
      (binary32.units k) (binary32.units k + binary32.units (k + 1)) (2 ^ 149) (k % 2 = 0)
      goal).isSome = true := by
    apply Decimal.isSome_candidate? (Nat.two_pow_pos _)
    · have hscaled : ((binary32.units (k - 1) + binary32.units k : ℚ) + 10 ^ goal * 2 ^ 150) *
          10 ^ (-goal).toNat < 2 * binary32.units k * 10 ^ (-goal).toNat :=
        mul_lt_mul_of_pos_right (by linarith) (by positivity)
      have hpoint := Decimal.grid_mul_part goal 149 1
      rw [Nat.cast_one, one_mul, mul_one] at hpoint
      rw [add_mul, hpoint] at hscaled
      exact_mod_cast hscaled
    · have hnext : binary32.units k < binary32.units (k + 1) :=
        binary32.units_strictMono (Nat.lt_succ_self k)
      omega
  obtain ⟨exponent, hexponent, hfound⟩ := Decimal.search_finds hoffers
    (Int.fdiv (((binary32.units k).log2 - 149 + 1 : Int) * 30103) 100000 + 1 + 149).toNat
    hstart (by omega)
  have hscale : binary32.scale = 149 := by decide
  refine ⟨exponent, _, hexponent, hfound, ?_⟩
  rw [shortest, hscale]
  rfl

/-- On a grid not much finer than the lower step, a decimal up to the upper middle has few digits:
    a tenth of the step goes into the decimal as often as it has digits. -/
theorem digits_lt_of_le {k : Nat} (hk : 0 < k) (hfinite : k < binary32.infinity) {d : Decimal}
    (hcoarse : coarseExponent (binary32.stepShift (k - 1)) ≤ d.exponent + 1)
    (hhigh : d.halves ≤ binary32.units k + binary32.units (k + 1)) : d.digits < 2 ^ 53 := by
  obtain ⟨-, hnext, hmost, hsteps⟩ := units_pred_rat hk
  have hgrid := le_zpow_of_coarse_le (stepShift_lt ((Nat.sub_le k 1).trans_lt hfinite)) hcoarse
  rw [zpow_add_one₀ (by norm_num)] at hgrid
  have hhalves : d.halves = d.digits * (10 ^ d.exponent * 2 ^ 150) := by
    rw [Decimal.halves, Decimal.toRat, mul_assoc]
  have hstep : (0 : ℚ) < 2 ^ binary32.stepShift (k - 1) := by positivity
  have hscaled : (d.digits : ℚ) * 2 ^ binary32.stepShift (k - 1) ≤
      10 * (2 ^ 25 + 2) * 2 ^ binary32.stepShift (k - 1) := by
    calc (d.digits : ℚ) * 2 ^ binary32.stepShift (k - 1)
        ≤ d.digits * (10 ^ d.exponent * 10 * 2 ^ 150) := by gcongr
      _ = 10 * d.halves := by rw [hhalves]; ring
      _ ≤ 10 * (2 ^ 25 + 2) * 2 ^ binary32.stepShift (k - 1) := by linarith
  have hdigits : (d.digits : ℚ) ≤ 10 * (2 ^ 25 + 2) := le_of_mul_le_mul_right hscaled hstep
  have hdigitsNat : d.digits ≤ 10 * (2 ^ 25 + 2) := mod_cast hdigits
  omega

/-- **What the fewest digits of a number are like.** -/
theorem prints_shortest (tie : TieRule) {k : Nat} (hk : 0 < k) (hfinite : k < binary32.infinity) :
    (binary32.shortest tie k).Prints k := by
  obtain ⟨hunits, -, hshifts, hsteps⟩ := units_pred hk
  obtain ⟨exponent, found, hexponent, hcandidate, htrim⟩ := exists_candidate tie hk hfinite
  obtain ⟨hhalves, htrimmed, hdigits⟩ := found.trimZeros_spec (found.digits.log2 + 1)
  rw [← htrim] at hhalves htrimmed hdigits
  obtain ⟨hfound, hlow, hhigh, hstrict, -⟩ := Decimal.candidate?_halves hcandidate
  obtain ⟨-, -, hpoint⟩ := Decimal.candidate?_eq_some hcandidate
  rw [hfound] at htrimmed
  have hlower := stepShift_lt ((Nat.sub_le k 1).trans_lt hfinite)
  have hupper := stepShift_lt hfinite
  have hnext := binary32.units_succ k
  generalize binary32.shortest tie k = d at *
  have hless : 2 ^ binary32.stepShift (k - 1) ≤ 2 ^ binary32.stepShift k :=
    Nat.pow_le_pow_right Nat.two_pos hshifts
  have hpositive := Nat.two_pow_pos (binary32.stepShift (k - 1))
  have hlowValue : binary32.units (k - 1) + binary32.units k < 2 * binary32.units k := by omega
  have hbalance : 4 * binary32.units k ≤ binary32.units (k - 1) + binary32.units k +
      (binary32.units k + binary32.units (k + 1)) := by omega
  have hskew : 2 * (binary32.units (k - 1) + binary32.units k) +
      (binary32.units k + binary32.units (k + 1)) ≤ 6 * binary32.units k := by omega
  obtain ⟨hunitsRat, hnextRat, -, -⟩ := units_pred_rat hk
  push_cast at hlow hhigh hstrict
  rw [← hhalves] at hlow hhigh hstrict
  refine ⟨hdigits ?_, ?_, ?_, hlow, hhigh, fun hodd => hstrict (by simp [hodd]), ?_, ?_⟩
  · rcases hpoint with ⟨hbelow, hne, -⟩ | ⟨habove, -⟩
    · rwa [hbelow]
    · rw [habove]
      exact Nat.succ_ne_zero _
  · exact digits_lt_of_le hk hfinite (by omega) hhigh
  · have hleast := (@coarseExponent_bounds _ _ le_rfl).2.trans hexponent
    exact hleast.trans htrimmed
  · intro hbelow
    rcases le_or_gt (coarseExponent (binary32.stepShift (k - 1))) d.exponent with hcoarse | hfine
    · exact .inl hcoarse
    · have hgrid := zpow_lt_of_lt_coarse hlower (htrimmed.trans_lt hfine)
      rw [hhalves] at hbelow ⊢
      have hnear := Decimal.near_value_below hcandidate (by push_cast; linarith) hbalance hbelow
      push_cast at hnear
      exact .inr (by linarith)
  · rcases le_or_gt (coarseExponent (binary32.stepShift k)) d.exponent with hcoarse | hfine
    · exact .inl hcoarse
    · have hgrid := zpow_lt_of_lt_coarse hupper (htrimmed.trans_lt hfine)
      rw [hhalves]
      have hnear := Decimal.near_value_above hcandidate (by push_cast; linarith) hlowValue hskew
      push_cast at hnear
      exact .inr (by linarith)

end Format

end KnowledgeSearch
