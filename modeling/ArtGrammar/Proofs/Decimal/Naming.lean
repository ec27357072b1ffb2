/-
  ArtGrammar.Proofs.Decimal.Naming
  ────────────────────────────────
  **THE SHORTEST DECIMAL NAMES ITS MAGNITUDE.**

  Which value a decimal names depends on the number it is, not on the digits and
  the power of ten it is written with:

      value d * 2 ^ 149   nearest to the rank r        names r
      10 ^ (p - 1) ≤ value d < 10 ^ p                  p the place of the point

  The interval that names a rank lies well inside the places at which a decimal
  is decided without a division, so these never apply to it.
-/
import ArtGrammar.Decimal.Shortest
import ArtGrammar.Proofs.Single.Rounding

namespace ArtGrammar

/-! ## §1. The number that a decimal is. -/

namespace Decimal

/-- The number. -/
def value (d : Decimal) : ℚ := d.digits * (10 : ℚ) ^ d.exponent

theorem den_pos (d : Decimal) : 0 < d.den := Nat.pow_pos (by decide)

/-- Numerator and denominator make up the number. -/
theorem num_div_den (d : Decimal) : (d.num / d.den : ℚ) = d.value := by
  obtain ⟨digits, exponent⟩ := d
  unfold num den value
  simp only [Nat.pow_eq]
  obtain ⟨n, rfl | rfl⟩ := exponent.eq_nat_or_neg
  · have hneg : (-(n : Int)).toNat = 0 := by omega
    rw [hneg, Int.toNat_natCast, zpow_natCast]
    push_cast
    rw [div_one]
  · have hpos : (-(-(n : Int))).toNat = n := by omega
    have hneg : (-(n : Int)).toNat = 0 := by omega
    rw [hpos, hneg, zpow_neg, zpow_natCast]
    push_cast
    rw [mul_one, div_eq_mul_inv]

theorem value_eq_zero_iff {d : Decimal} : d.value = 0 ↔ d.digits = 0 := by
  have hpow : (10 : ℚ) ^ d.exponent ≠ 0 := zpow_ne_zero _ (by norm_num)
  unfold value
  rw [mul_eq_zero]
  constructor
  · rintro (h | h)
    · exact_mod_cast h
    · exact absurd h hpow
  · intro h
    left
    exact_mod_cast h

/-- The digits as a number lie between two powers of ten. -/
theorem pow_length_digitChars (d : Decimal) (hdigits : d.digits ≠ 0) :
    10 ^ (d.digitChars.length - 1) ≤ d.digits ∧ d.digits < 10 ^ d.digitChars.length := by
  have hpos : 0 < d.digitChars.length := Nat.length_toDigits_pos
  constructor
  · by_cases hone : d.digitChars.length - 1 = 0
    · rw [hone]
      omega
    · have hle := Nat.length_toDigits_le_iff (n := d.digits) (k := d.digitChars.length - 1)
        (by decide : 1 < 10) (by omega)
      change d.digitChars.length ≤ _ ↔ _ at hle
      omega
  · exact (Nat.length_toDigits_le_iff (by decide) hpos).1 (Nat.le_refl _)

/-- The place of the point bounds the number. -/
theorem value_lt_pow_pointPlace (d : Decimal) (hdigits : d.digits ≠ 0) :
    d.value < (10 : ℚ) ^ d.pointPlace := by
  have hdig : (d.digits : ℚ) < 10 ^ d.digitChars.length := by
    exact_mod_cast (d.pow_length_digitChars hdigits).2
  have hpow : (0 : ℚ) < 10 ^ d.exponent := zpow_pos (by norm_num) _
  unfold value pointPlace
  rw [zpow_add₀ (by norm_num), zpow_natCast]
  exact mul_lt_mul_of_pos_right hdig hpow

theorem pow_pointPlace_le_value (d : Decimal) (hdigits : d.digits ≠ 0) :
    (10 : ℚ) ^ (d.pointPlace - 1) ≤ d.value := by
  have hdig : (10 : ℚ) ^ (d.digitChars.length - 1) ≤ d.digits := by
    exact_mod_cast (d.pow_length_digitChars hdigits).1
  have hpow : (0 : ℚ) ≤ 10 ^ d.exponent := zpow_nonneg (by norm_num) _
  have hpos : 0 < d.digitChars.length := Nat.length_toDigits_pos
  have hplace : d.pointPlace - 1 = ((d.digitChars.length - 1 : Nat) : Int) + d.exponent := by
    unfold pointPlace
    omega
  unfold value
  rw [hplace, zpow_add₀ (by norm_num), zpow_natCast]
  exact mul_le_mul_of_nonneg_right hdig hpow

/-! ## §2. Naming a rank. -/

/-- A decimal that names a positive rank is nearest to it. -/
theorem isNearest_of_names {d : Decimal} {rank : Nat} (hrank : 0 < rank)
    (h : d.names rank = true) : IsNearest (d.value * unitsPerOne) rank := by
  have hden : (0 : ℚ) < d.den := by exact_mod_cast d.den_pos
  have hnum : 2 * (d.value * unitsPerOne) * d.den = 2 * (d.num * unitsPerOne) := by
    rw [← num_div_den]
    field_simp
  have hpred : ∀ s, s + 1 = rank → s = rank - 1 := by
    intro s hs
    omega
  unfold names at h
  simp only at h
  -- the midpoints belong to the interval of an even rank, and not to that of an odd one
  by_cases heven : rank % 2 = 0
  · rw [if_pos heven, Bool.and_eq_true, decide_eq_true_iff, decide_eq_true_iff] at h
    obtain ⟨hlow, hhigh⟩ := h
    have hlow' : ((unitsAt (rank - 1) + unitsAt rank) * d.den : ℚ)
        ≤ 2 * (d.num * unitsPerOne) := by exact_mod_cast hlow
    have hhigh' : (2 * (d.num * unitsPerOne) : ℚ)
        ≤ (unitsAt rank + unitsAt (rank + 1)) * d.den := by exact_mod_cast hhigh
    rw [← hnum] at hlow' hhigh'
    refine ⟨le_of_mul_le_mul_right hhigh' hden, fun _ => heven, ?_, fun _ _ _ => heven⟩
    intro s hs
    rw [hpred s hs]
    exact le_of_mul_le_mul_right hlow' hden
  · rw [if_neg heven, Bool.and_eq_true, decide_eq_true_iff, decide_eq_true_iff] at h
    obtain ⟨hlow, hhigh⟩ := h
    have hlow' : ((unitsAt (rank - 1) + unitsAt rank) * d.den : ℚ)
        < 2 * (d.num * unitsPerOne) := by exact_mod_cast hlow
    have hhigh' : (2 * (d.num * unitsPerOne) : ℚ)
        < (unitsAt rank + unitsAt (rank + 1)) * d.den := by exact_mod_cast hhigh
    rw [← hnum] at hlow' hhigh'
    have hlt := lt_of_mul_lt_mul_right hlow' hden.le
    have hgt := lt_of_mul_lt_mul_right hhigh' hden.le
    refine ⟨hgt.le, fun heq => absurd heq hgt.ne, ?_, ?_⟩
    · intro s hs
      rw [hpred s hs]
      exact hlt.le
    · intro s hs heq
      rw [hpred s hs] at heq
      exact absurd heq hlt.ne

/-- What is taken from a grid names the rank. -/
theorem names_of_onGrid {tie : Tie} {rank : Nat} {exponent : Int} {d : Decimal}
    (h : onGrid tie rank exponent = some d) : d.names rank = true := by
  unfold onGrid at h
  simp only at h
  split at h
  · cases h
  next hbelow _ =>
    cases h
    exact hbelow
  next _ habove =>
    cases h
    exact habove
  next hbelow habove =>
    split at h
    · cases h
      exact hbelow
    · cases h
      exact habove
    · cases h
      exact habove
    · cases h
      split
      · exact hbelow
      · exact habove

/-- **THE SHORTEST DECIMAL IS NEAREST TO ITS RANK.** -/
theorem isNearest_shortest (tie : Tie) {rank : Nat} (hrank : 0 < rank) :
    IsNearest ((shortest tie rank).value * unitsPerOne) rank := by
  unfold shortest
  rw [if_neg (by omega)]
  cases hfind : gridExponents.findSome? (onGrid tie rank) with
  | some d =>
      obtain ⟨exponent, _, hgrid⟩ := List.exists_of_findSome?_eq_some hfind
      exact isNearest_of_names hrank (names_of_onGrid hgrid)
  | none =>
      -- the last resort is the magnitude itself, in powers of one tenth
      have hten : (10 : ℚ) ^ (-149 : Int) * (5 ^ 149 * 2 ^ 149) = 1 := by
        rw [← mul_pow, zpow_neg]
        norm_num
      have hexact : (⟨unitsAt rank * Nat.pow 5 149, -149⟩ : Decimal).value * unitsPerOne
          = unitsAt rank := by
        show ((unitsAt rank * 5 ^ 149 : Nat) : ℚ) * 10 ^ (-149 : Int) * ((2 ^ 149 : Nat) : ℚ) = _
        rw [Nat.cast_mul, Nat.cast_pow, Nat.cast_pow, Nat.cast_ofNat, Nat.cast_ofNat, mul_assoc,
          mul_assoc, mul_left_comm (5 ^ 149), hten, mul_one]
      rw [Option.getD_none, hexact]
      exact isNearest_unitsAt rank

end Decimal

/-! ## §3. The value that is named. -/

namespace Single

theorem ofDecimal_of_value_eq_zero (neg : Bool) {d : Decimal} (h : d.value = 0) :
    ofDecimal neg d = zero neg := by
  unfold ofDecimal
  rw [if_pos (Decimal.value_eq_zero_iff.1 h)]

/-- A decimal nearest to a positive rank names it. -/
theorem ofDecimal_of_isNearest (neg : Bool) {d : Decimal} {rank : Fin finiteRanks}
    (hrank : 0 < rank.val) (h : IsNearest (d.value * unitsPerOne) rank) :
    ofDecimal neg d = .finite neg rank := by
  have hpred : rank.val - 1 + 1 = rank.val := by omega
  have hunit : (1 : ℚ) ≤ unitsAt rank := by
    have hlt := unitsAt_strictMono hrank
    exact_mod_cast (by omega : 1 ≤ unitsAt rank)
  -- half a unit at least, and no more than where results overflow
  have hlow : (1 : ℚ) ≤ 2 * (d.value * unitsPerOne) := by
    have hle := h.lower_le _ hpred
    have hnonneg : (0 : ℚ) ≤ unitsAt (rank.val - 1) := by positivity
    linarith
  have hhigh : 2 * (d.value * unitsPerOne) ≤ 2 * (2 * binade * 2 ^ 253 : Nat) := by
    have hle : (unitsAt rank : ℚ) ≤ unitsAt finiteRanks := unitsAt_le_cast rank.isLt.le
    have hle' : (unitsAt (rank + 1) : ℚ) ≤ unitsAt finiteRanks := unitsAt_le_cast rank.isLt
    rw [unitsAt_finiteRanks] at hle hle'
    linarith [h.le_upper]
  simp only [Nat.pow_eq] at hlow hhigh
  push_cast at hlow hhigh
  have hdigits : d.digits ≠ 0 := by
    intro hzero
    rw [Decimal.value_eq_zero_iff.2 hzero] at hlow
    linarith
  -- 10 ^ 49 is above the overflow, and 10 ^ -61 is below half a unit
  have hlarge : ¬ 50 < d.pointPlace := by
    intro hlt
    have hpow : (10 : ℚ) ^ (50 : Int) ≤ 10 ^ (d.pointPlace - 1) :=
      zpow_le_zpow_right₀ (by norm_num) (by omega)
    have hvalue := hpow.trans (d.pow_pointPlace_le_value hdigits)
    norm_num at hvalue hhigh
    linarith
  have hsmall : ¬ d.pointPlace < -60 := by
    intro hlt
    have hpow : (10 : ℚ) ^ d.pointPlace ≤ 10 ^ (-61 : Int) :=
      zpow_le_zpow_right₀ (by norm_num) (by omega)
    have hvalue := (d.value_lt_pow_pointPlace hdigits).trans_le hpow
    norm_num at hvalue hlow
    linarith
  have hnearest : IsNearest ((d.num * unitsPerOne : Nat) / d.den : ℚ) rank := by
    have hcast : ((d.num * unitsPerOne : Nat) / d.den : ℚ) = d.value * unitsPerOne := by
      rw [← Decimal.num_div_den]
      push_cast
      ring
    rw [hcast]
    exact h
  unfold ofDecimal
  rw [if_neg hdigits, if_neg hlarge, if_neg hsmall]
  unfold ofRatio ofUnits
  have hfound := hnearest.nearestRank_eq d.den_pos
  rw [dif_pos (by rw [hfound]; exact rank.isLt)]
  congr 1
  exact Fin.ext hfound

/-- **EVERY WAY TO WRITE THE SHORTEST DECIMAL NAMES THE VALUE.** -/
theorem ofDecimal_of_value_eq_shortest (neg : Bool) {tie : Tie} {rank : Fin finiteRanks}
    {d : Decimal} (h : d.value = (Decimal.shortest tie rank).value) :
    ofDecimal neg d = .finite neg rank := by
  by_cases hrank : 0 < rank.val
  · apply ofDecimal_of_isNearest neg hrank
    rw [h]
    exact Decimal.isNearest_shortest tie hrank
  · have hzero : rank = ⟨0, by decide⟩ := Fin.ext (Nat.eq_zero_of_not_pos hrank)
    subst hzero
    apply ofDecimal_of_value_eq_zero
    rw [h, Decimal.value_eq_zero_iff]
    rfl

/-- A decimal that is a natural number names what the number is rounded to. -/
theorem ofDecimal_of_value_eq_natCast (neg : Bool) {d : Decimal} {n : Nat} (hn : n < 10 ^ 49)
    (h : d.value = n) : ofDecimal neg d = ofRatio neg n 1 := by
  have hn' : (n : ℚ) < 10 ^ 49 := by exact_mod_cast hn
  by_cases hzero : n = 0
  · subst hzero
    rw [ofDecimal_of_value_eq_zero neg (by exact_mod_cast h)]
    cases neg with
    | false => decide
    | true => decide
  · have hone : (1 : ℚ) ≤ n := by exact_mod_cast Nat.pos_of_ne_zero hzero
    have hdigits : d.digits ≠ 0 := by
      intro hd
      rw [Decimal.value_eq_zero_iff.2 hd] at h
      exact hzero (by exact_mod_cast h.symm)
    have hlarge : ¬ 50 < d.pointPlace := by
      intro hlt
      have hpow : (10 : ℚ) ^ (49 : Int) ≤ 10 ^ (d.pointPlace - 1) :=
        zpow_le_zpow_right₀ (by norm_num) (by omega)
      have hvalue := hpow.trans (d.pow_pointPlace_le_value hdigits)
      rw [h] at hvalue
      exact absurd hvalue (not_le.2 (by exact_mod_cast hn'))
    have hsmall : ¬ d.pointPlace < -60 := by
      intro hlt
      have hpow : (10 : ℚ) ^ d.pointPlace ≤ 10 ^ (0 : Int) :=
        zpow_le_zpow_right₀ (by norm_num) (by omega)
      have hvalue := (d.value_lt_pow_pointPlace hdigits).trans_le hpow
      rw [h, zpow_zero] at hvalue
      linarith
    have hrank : nearestRank (d.num * unitsPerOne) d.den = nearestRank (n * unitsPerOne) 1 := by
      apply nearestRank_congr d.den_pos Nat.one_pos
      rw [← Decimal.num_div_den] at h
      push_cast
      rw [mul_div_right_comm, h, div_one]
    unfold ofDecimal
    rw [if_neg hdigits, if_neg hlarge, if_neg hsmall]
    unfold ofRatio ofUnits
    simp only [hrank]

end Single

end ArtGrammar
