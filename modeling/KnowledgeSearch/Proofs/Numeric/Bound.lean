/-
  KnowledgeSearch/Proofs/Numeric/Bound.lean
  =========================================
  **Arithmetic that stays below a bound.**

  A number that is not negative and stays below a finite bound (`Binary.UpTo`) is not nan, and
  the arithmetic of averages keeps it so.  Every rule is one exact inequality between units,
  since rounding does not pass a value of the grid that the exact result does not pass
  (`Binary.upTo_round`).  A sum needs no bound that grows with the number of its terms: a term
  that is small enough is lost in a sum near infinity before it could reach it
  (`Binary.UpTo.add_small`).
-/
import KnowledgeSearch.Proofs.Numeric.Grid

namespace KnowledgeSearch.Binary

open Format (binary32)

/-! ### Powers of two -/

/-- The ordinal of a power of two. -/
def powerOrdinal (e : Nat) : Nat := (127 + e) * 2 ^ 23

theorem units_powerOrdinal (e : Nat) :
    binary32.units (powerOrdinal e) = 2 ^ e * 2 ^ binary32.scale := by
  have hsteps : powerOrdinal e = (126 + e) * 2 ^ binary32.fractionBits + 2 ^ 23 := by
    simp only [powerOrdinal, binary32]
    omega
  rw [hsteps, binary32.units_steps (by decide) (Or.inr (by decide))]
  simp only [← pow_add]
  congr 1
  have hscale : binary32.scale = 149 := by decide
  omega

/-- The powers of two stop at infinity. -/
theorem powerOrdinal_lt_infinity {e : Nat} (h : e < 128) : powerOrdinal e < binary32.infinity := by
  have hinfinity : binary32.infinity = 255 * 2 ^ 23 := by decide
  rw [hinfinity, powerOrdinal]
  omega

/-! ### Order -/

section Order

variable {F : Format} {x y z : Binary F}

theorem lt_iff : x.lt y = true ↔ ∃ a b, x.rank? = some a ∧ y.rank? = some b ∧ a < b := by
  unfold lt compare?
  cases x.rank? with
  | none => simp
  | some a =>
    cases y.rank? with
    | none => simp
    | some b => simp [Int.compare_eq_lt]

theorem le_iff : x.le y = true ↔ ∃ a b, x.rank? = some a ∧ y.rank? = some b ∧ a ≤ b := by
  unfold le compare?
  cases x.rank? with
  | none => simp
  | some a =>
    cases y.rank? with
    | none => simp
    | some b => simp [Int.compare_eq_lt, Int.le_iff_lt_or_eq]

theorem isNaN_of_isFinite (hx : x.isFinite = true) : x.isNaN = false := by
  cases x with
  | nan => cases hx
  | signed => rfl

/-- Two numbers can be compared. -/
theorem not_lt_iff (hx : x.isNaN = false) (hy : y.isNaN = false) :
    x.lt y = false ↔ y.le x = true := by
  rw [← Bool.not_eq_true, lt_iff, le_iff]
  cases x with
  | nan => cases hx
  | signed =>
    cases y with
    | nan => cases hy
    | signed => simp [rank?]

theorem lt_asymm (h : x.lt y = true) : y.lt x = false := by
  obtain ⟨a, b, ha, hb, hab⟩ := lt_iff.mp h
  rw [← Bool.not_eq_true, lt_iff]
  rintro ⟨b', a', hb', ha', hba⟩
  cases ha.symm.trans ha'
  cases hb.symm.trans hb'
  omega

theorem lt_irrefl (x : Binary F) : x.lt x = false := by
  cases h : x.lt x with
  | false => rfl
  | true => exact h.symm.trans (lt_asymm h)

theorem lt_of_not_lt_of_lt (hxy : x.lt y = false) (hxz : x.lt z = true) (hx : x.isNaN = false)
    (hy : y.isNaN = false) : y.lt z = true := by
  obtain ⟨a, c, ha, hc, hac⟩ := lt_iff.mp hxz
  obtain ⟨b, a', hb, ha', hba⟩ := le_iff.mp ((not_lt_iff hx hy).mp hxy)
  cases ha.symm.trans ha'
  exact lt_iff.mpr ⟨b, c, hb, hc, by omega⟩

end Order

/-! ### Bounded numbers -/

/-- A number that is not negative, and whose ordinal is bounded. -/
def UpTo (bound : Nat) (x : Single) : Prop :=
  ∃ k : Fin (binary32.infinity + 1), x = .signed false k ∧ k.val ≤ bound

variable {x y : Single} {bound : Nat}

theorem UpTo.isNaN_eq_false (hx : x.UpTo bound) : x.isNaN = false := by
  obtain ⟨k, rfl, -⟩ := hx
  rfl

theorem UpTo.isFinite (hx : x.UpTo bound) (hbound : bound < binary32.infinity) :
    x.isFinite = true := by
  obtain ⟨k, rfl, hk⟩ := hx
  exact bne_iff_ne.mpr (hk.trans_lt hbound).ne

theorem UpTo.zero_le (hx : x.UpTo bound) : zero.le x = true := by
  obtain ⟨k, rfl, -⟩ := hx
  exact le_iff.mpr ⟨0, k, rfl, rfl, Int.natCast_nonneg _⟩

/-- Between zero and a number stand those of a smaller ordinal, and the negative zero. -/
theorem cases_of_between {a : Fin (binary32.infinity + 1)} (hx : zero.le x = true)
    (hxa : x.le (.signed false a) = true) :
    (∃ k : Fin (binary32.infinity + 1), x = .signed false k ∧ k.val ≤ a.val) ∨
      x = .signed true 0 := by
  obtain ⟨least, r, hleast, hr, hpositive⟩ := le_iff.mp hx
  obtain ⟨r', greatest, hr', hgreatest, hle⟩ := le_iff.mp hxa
  cases hr.symm.trans hr'
  cases hleast
  cases hgreatest
  cases x with
  | nan => cases hr
  | signed negative k =>
    cases negative with
    | false =>
      cases hr
      exact .inl ⟨k, rfl, by simpa using hle⟩
    | true =>
      cases hr
      obtain rfl : k = 0 := Fin.ext (by simpa using hpositive)
      exact .inr rfl

/-- A number between zero and a finite number is finite. -/
theorem isFinite_of_between (hy : y.UpTo bound) (hbound : bound < binary32.infinity)
    (hx : zero.le x = true) (hxy : x.le y = true) : x.isFinite = true := by
  obtain ⟨a, rfl, ha⟩ := hy
  rcases cases_of_between hx hxy with ⟨k, rfl, hk⟩ | rfl
  · exact bne_iff_ne.mpr ((hk.trans ha).trans_lt hbound).ne
  · decide

theorem upTo_zero : (zero : Single).UpTo bound := ⟨_, rfl, Nat.zero_le _⟩

/-- Rounding does not pass a value that the quotient does not pass. -/
theorem upTo_round {num den : Nat} (hden : 0 < den) (h : num ≤ binary32.units bound * den) :
    (round false num den : Single).UpTo bound :=
  ⟨_, rfl, (Nat.min_le_left _ _).trans (Format.nearest_le hden h)⟩

theorem ofNat_eq_round (n : Nat) : (ofNat n : Single) = round false (n * 2 ^ binary32.scale) 1 := by
  have hpositive : decide ((n : Int) < 0) = false := by simp
  rw [ofNat, ofInt, hpositive, Int.natAbs_natCast, Nat.shiftLeft_eq]

theorem upTo_ofNat {n e : Nat} (h : n ≤ 2 ^ e) : (ofNat n : Single).UpTo (powerOrdinal e) := by
  rw [ofNat_eq_round]
  apply upTo_round Nat.one_pos
  rw [Nat.mul_one, units_powerOrdinal]
  exact Nat.mul_le_mul_right _ h

/-- A positive integer is one at least. -/
theorem ofNat_pos {n : Nat} (h : 0 < n) :
    ∃ k : Fin (binary32.infinity + 1), (ofNat n : Single) = .signed false k ∧
      powerOrdinal 0 ≤ k.val := by
  rw [ofNat_eq_round]
  refine ⟨_, rfl, Nat.le_min.mpr ⟨?_, (powerOrdinal_lt_infinity (by decide)).le⟩⟩
  apply Format.le_nearest Nat.one_pos
  rw [Nat.mul_one, units_powerOrdinal]
  exact Nat.mul_le_mul_right _ h

/-! ### Sums -/

/-- A total that is not negative is rounded like any other quotient, zero included. -/
theorem total_eq_round {total : Int} {n : Nat} (h : total = n) :
    (if total = 0 then ofOrdinal false 0 else round (total < 0) total.natAbs 1 : Single) =
      round false n 1 := by
  subst h
  split
  · rename_i hzero
    have hnearest : binary32.nearest 0 1 = 0 := Format.nearest_eq Nat.one_pos rfl
    rw [Int.natCast_eq_zero.mp hzero, round, hnearest]
  · have hpositive : decide ((n : Int) < 0) = false := by simp
    rw [hpositive, Int.natAbs_natCast]

/-- The sum of two numbers that are not negative is their exact sum, rounded. -/
theorem add_eq_round {a b : Fin (binary32.infinity + 1)} (ha : a.val < binary32.infinity)
    (hb : b.val < binary32.infinity) :
    (.signed false a + .signed false b : Single) =
      round false (binary32.units a + binary32.units b) 1 := by
  change add _ _ = _
  simp only [add, if_neg ha.ne, if_neg hb.ne]
  apply total_eq_round
  simp [signedUnits]

/-- The difference of a number and a smaller one is their exact difference, rounded. -/
theorem sub_eq_round {a b : Fin (binary32.infinity + 1)} (ha : a.val < binary32.infinity)
    (hba : b.val ≤ a.val) :
    (.signed false a - .signed false b : Single) =
      round false (binary32.units a - binary32.units b) 1 := by
  have hunits : binary32.units b ≤ binary32.units a := binary32.units_le_iff.mpr hba
  have hb : b.val < binary32.infinity := by omega
  change add (.signed false a : Single) (.signed true b) = _
  simp only [add, if_neg ha.ne, if_neg hb.ne]
  apply total_eq_round
  simp only [signedUnits, if_true, Bool.false_eq_true, if_false]
  omega

/-- A term that is far below the last step before infinity does not make a sum infinite. -/
theorem UpTo.add_small (hx : x.UpTo (binary32.infinity - 1)) (hy : y.UpTo (powerOrdinal 33)) :
    (x + y).UpTo (binary32.infinity - 1) := by
  obtain ⟨a, rfl, ha⟩ := hx
  obtain ⟨b, rfl, hb⟩ := hy
  have hinfinity : 0 < binary32.infinity := by decide
  have hsmall : powerOrdinal 33 < binary32.infinity := powerOrdinal_lt_infinity (by decide)
  rw [add_eq_round (by omega) (hb.trans_lt hsmall)]
  refine ⟨_, rfl, (Nat.min_le_left _ _).trans ?_⟩
  -- the exact sum lies below the middle of the largest finite value and infinity
  apply Format.nearest_le_of_lt_middle Nat.one_pos
  rw [Nat.mul_one]
  have hsum : binary32.units a + binary32.units b ≤
      binary32.units (binary32.infinity - 1) + binary32.units (powerOrdinal 33) :=
    Nat.add_le_add (binary32.units_le_iff.mpr ha) (binary32.units_le_iff.mpr hb)
  calc 2 * (binary32.units a + binary32.units b)
      ≤ 2 * (binary32.units (binary32.infinity - 1) + binary32.units (powerOrdinal 33)) :=
        Nat.mul_le_mul_left 2 hsum
    _ < binary32.units (binary32.infinity - 1) + binary32.units (binary32.infinity - 1 + 1) := by
        decide

theorem UpTo.sum_small {values : List Single} (h : ∀ y ∈ values, y.UpTo (powerOrdinal 33))
    (hx : x.UpTo (binary32.infinity - 1)) :
    (values.foldl (· + ·) x).UpTo (binary32.infinity - 1) := by
  induction values generalizing x with
  | nil => exact hx
  | cons y values ih =>
    exact ih (fun z hz => h z (List.mem_cons_of_mem _ hz)) (hx.add_small (h y List.mem_cons_self))

/-- The sum of two numbers that are not negative reaches each of them. -/
theorem exists_add {a b : Fin (binary32.infinity + 1)} (ha : a.val < binary32.infinity)
    (hb : b.val < binary32.infinity) :
    ∃ k : Fin (binary32.infinity + 1),
      (.signed false a + .signed false b : Single) = .signed false k ∧ b.val ≤ k.val := by
  rw [add_eq_round ha hb]
  refine ⟨_, rfl, Nat.le_min.mpr ⟨?_, hb.le⟩⟩
  apply Format.le_nearest Nat.one_pos
  omega

/-- Taking something from a number leaves no more than there was. -/
theorem UpTo.sub (hx : x.UpTo bound) (hbound : bound < binary32.infinity)
    (hy : zero.le y = true) (hyx : y.le x = true) : (x - y).UpTo bound := by
  obtain ⟨a, rfl, ha⟩ := hx
  have hfinite : a.val < binary32.infinity := ha.trans_lt hbound
  have hunits : binary32.units a ≤ binary32.units bound := binary32.units_le_iff.mpr ha
  rcases cases_of_between hy hyx with ⟨b, rfl, hba⟩ | rfl
  · rw [sub_eq_round hfinite hba]
    apply upTo_round Nat.one_pos
    omega
  · change (.signed false a + .signed false 0 : Single).UpTo bound
    rw [add_eq_round hfinite (by decide)]
    apply upTo_round Nat.one_pos
    simpa [binary32.units_zero] using hunits

/-! ### Products -/

/-- The product of two finite numbers that are not negative is their exact product, rounded. -/
theorem upTo_mul {a b : Fin (binary32.infinity + 1)} (ha : a.val < binary32.infinity)
    (hb : b.val < binary32.infinity)
    (h : binary32.units a * binary32.units b ≤ binary32.units bound * 2 ^ binary32.scale) :
    (.signed false a * .signed false b : Single).UpTo bound := by
  change (mul _ _).UpTo _
  simp only [mul]
  rw [if_neg (by omega)]
  exact upTo_round (Nat.two_pow_pos _) h

/-- Powers of two are multiplied by adding exponents. -/
theorem UpTo.mul {d e : Nat} (hx : x.UpTo (powerOrdinal d)) (hy : y.UpTo (powerOrdinal e))
    (hd : d < 128) (he : e < 128) : (x * y).UpTo (powerOrdinal (d + e)) := by
  obtain ⟨a, rfl, ha⟩ := hx
  obtain ⟨b, rfl, hb⟩ := hy
  apply upTo_mul (ha.trans_lt (powerOrdinal_lt_infinity hd))
    (hb.trans_lt (powerOrdinal_lt_infinity he))
  calc binary32.units a * binary32.units b
      ≤ binary32.units (powerOrdinal d) * binary32.units (powerOrdinal e) :=
        Nat.mul_le_mul (binary32.units_le_iff.mpr ha) (binary32.units_le_iff.mpr hb)
    _ = binary32.units (powerOrdinal (d + e)) * 2 ^ binary32.scale := by
        rw [units_powerOrdinal, units_powerOrdinal, units_powerOrdinal]
        ring

/-! ### Quotients -/

/-- A quotient does not pass a bound of which the divisor has as much as the dividend. -/
theorem upTo_div {a b : Fin (binary32.infinity + 1)} (ha : a.val < binary32.infinity)
    (hb : b.val ≠ 0)
    (h : binary32.units a * 2 ^ binary32.scale ≤ binary32.units bound * binary32.units b) :
    (.signed false a / .signed false b : Single).UpTo bound := by
  change (div _ _).UpTo _
  simp only [div, if_neg ha.ne, if_neg hb]
  split
  · exact ⟨_, rfl, Nat.zero_le _⟩
  · apply upTo_round
    · exact binary32.units_pos_iff.mpr (Nat.pos_of_ne_zero hb)
    · rwa [Nat.shiftLeft_eq]

/-- A quotient by a positive integer stays below the bounds of the dividend. -/
theorem UpTo.div_ofNat (hx : x.UpTo bound) (hbound : bound < binary32.infinity) {n : Nat}
    (hn : 0 < n) : (x / ofNat n).UpTo bound := by
  obtain ⟨a, rfl, ha⟩ := hx
  obtain ⟨b, hb, hone⟩ := ofNat_pos hn
  rw [hb]
  have hpositive : 0 < powerOrdinal 0 := by decide
  apply upTo_div (ha.trans_lt hbound) (by omega)
  have hunits := binary32.units_le_iff.mpr hone
  rw [units_powerOrdinal, pow_zero, Nat.one_mul] at hunits
  exact Nat.mul_le_mul (binary32.units_le_iff.mpr ha) hunits

/-- A part of a number is not more than all of it: `x * z / (y + z)` does not pass a bound of
    `x`, although both the dividend and the divisor are rounded. -/
theorem UpTo.mul_div_add {z : Single} {d e : Nat} (hx : x.UpTo (powerOrdinal e))
    (hy : y.UpTo (powerOrdinal d)) (hz : z.UpTo (powerOrdinal d)) (hde : d + e < 128)
    (hpositive : (y + z).le zero = false) : (x * z / (y + z)).UpTo (powerOrdinal e) := by
  have hd : powerOrdinal d < binary32.infinity := powerOrdinal_lt_infinity (by omega)
  have he : powerOrdinal e < binary32.infinity := powerOrdinal_lt_infinity (by omega)
  obtain ⟨a, rfl, ha⟩ := hx
  obtain ⟨b, rfl, hb⟩ := hy
  obtain ⟨c, rfl, hc⟩ := hz
  -- what the dividend does not pass is a value of the grid itself, and finite
  obtain ⟨most, hmost⟩ := Format.exists_units_finer (F := binary32) (G := binary32) le_rfl c e
  have hfinite : most < binary32.infinity := by
    apply lt_of_le_of_lt _ (powerOrdinal_lt_infinity hde)
    apply binary32.units_le_iff.mp
    rw [hmost, units_powerOrdinal, pow_add, Nat.mul_right_comm, ← units_powerOrdinal]
    exact Nat.mul_le_mul_right _ (binary32.units_le_iff.mpr hc)
  have hdividend : (.signed false a * .signed false c : Single).UpTo most := by
    apply upTo_mul (ha.trans_lt he) (hc.trans_lt hd)
    calc binary32.units a * binary32.units c
        ≤ binary32.units (powerOrdinal e) * binary32.units c :=
          Nat.mul_le_mul_right _ (binary32.units_le_iff.mpr ha)
      _ = binary32.units most * 2 ^ binary32.scale := by
          rw [units_powerOrdinal, hmost]
          ring
  obtain ⟨dividend, hproduct, hle⟩ := hdividend
  obtain ⟨divisor, hsum, hreach⟩ := exists_add (hb.trans_lt hd) (hc.trans_lt hd)
  rw [hsum] at hpositive
  rw [hproduct, hsum]
  apply upTo_div (hle.trans_lt hfinite)
  · intro hzero
    obtain rfl : divisor = 0 := Fin.ext hzero
    exact absurd hpositive (by decide)
  · calc binary32.units dividend * 2 ^ binary32.scale
        ≤ binary32.units most * 2 ^ binary32.scale :=
          Nat.mul_le_mul_right _ (binary32.units_le_iff.mpr hle)
      _ = binary32.units (powerOrdinal e) * binary32.units c := by
          rw [units_powerOrdinal, hmost]
          ring
      _ ≤ binary32.units (powerOrdinal e) * binary32.units divisor :=
          Nat.mul_le_mul_left _ (binary32.units_le_iff.mpr hreach)

end KnowledgeSearch.Binary
