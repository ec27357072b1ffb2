/-
  ArtGrammar.Proofs.Decimal.Shortest
  ────────────────────────────────
  **SHORTEST DECIMALS HAVE FEW DIGITS.**

  The grid of 10 ^ -46 is finer than half of the smallest step between two
  magnitudes, 2 ^ -150, so the multiple below a magnitude names it:

      10 ^ -46  <  2 ^ -150
      grids tried      10 ^ 38 … 10 ^ -46
      place of the point            39 at most

  The search ends on one of the grids, and a shortest decimal has no more digits
  than there are places from the largest magnitude down to the finest grid.
-/
import ArtGrammar.Proofs.Decimal.Naming

namespace ArtGrammar.Decimal

/-! ## §1. The search ends. -/

/-- What is taken from a grid is a multiple of its step. -/
theorem exponent_onGrid {tie : Tie} {rank : Nat} {exponent : Int} {d : Decimal}
    (h : onGrid tie rank exponent = some d) : d.exponent = exponent := by
  unfold onGrid at h
  simp only at h
  split at h
  · cases h
  · cases h
    rfl
  · cases h
    rfl
  · split at h
    · cases h
      rfl
    · cases h
      rfl
    · cases h
      rfl
    · cases h
      split
      · rfl
      · rfl

/-- On the finest grid the multiple below a magnitude names it. -/
theorem names_finest {rank : Nat} (hrank : 0 < rank) :
    (⟨floorDigits rank (-46), -46⟩ : Decimal).names rank = true := by
  have hbelow : unitsAt (rank - 1) < unitsAt rank := unitsAt_strictMono (Nat.sub_one_lt_of_lt hrank)
  have habove : unitsAt rank < unitsAt (rank + 1) := unitsAt_strictMono (Nat.lt_succ_self rank)
  have hfloor : floorDigits rank (-46) = unitsAt rank * 10 ^ 46 / 2 ^ 149 := rfl
  have hden : (⟨floorDigits rank (-46), -46⟩ : Decimal).den = 10 ^ 46 := rfl
  have hnum : (⟨floorDigits rank (-46), -46⟩ : Decimal).num = floorDigits rank (-46) :=
    Nat.mul_one _
  -- the multiple is less than one step below, which is less than half a unit
  have hlow : floorDigits rank (-46) * 2 ^ 149 ≤ unitsAt rank * 10 ^ 46 := by
    rw [hfloor]
    exact Nat.div_mul_le_self _ _
  have hhigh : unitsAt rank * 10 ^ 46 < floorDigits rank (-46) * 2 ^ 149 + 2 ^ 149 := by
    rw [hfloor]
    exact Nat.lt_div_mul_add (Nat.two_pow_pos 149)
  have hfine : 2 * 2 ^ 149 < 10 ^ 46 := by norm_num
  have hleft : (unitsAt (rank - 1) + unitsAt rank) * 10 ^ 46
      < 2 * (floorDigits rank (-46) * 2 ^ 149) := by
    have hunit : (unitsAt (rank - 1) + unitsAt rank + 1) * 10 ^ 46 ≤ 2 * unitsAt rank * 10 ^ 46 :=
      Nat.mul_le_mul_right _ (by omega)
    linarith
  have hright : 2 * (floorDigits rank (-46) * 2 ^ 149)
      < (unitsAt rank + unitsAt (rank + 1)) * 10 ^ 46 := by
    have hunit : (2 * unitsAt rank + 1) * 10 ^ 46 ≤ (unitsAt rank + unitsAt (rank + 1)) * 10 ^ 46 :=
      Nat.mul_le_mul_right _ (by omega)
    linarith
  unfold names
  simp only
  rw [hden, hnum]
  split
  · rw [Bool.and_eq_true]
    exact ⟨decide_eq_true hleft.le, decide_eq_true hright.le⟩
  · rw [Bool.and_eq_true]
    exact ⟨decide_eq_true hleft, decide_eq_true hright⟩

/-- A grid on which one of the neighbours names the rank has a multiple to take. -/
theorem onGrid_ne_none (tie : Tie) {rank : Nat} {exponent : Int}
    (h : (⟨floorDigits rank exponent, exponent⟩ : Decimal).names rank = true) :
    onGrid tie rank exponent ≠ none := by
  unfold onGrid
  simp only [h]
  split
  next hfalse _ => cases hfalse
  · exact Option.some_ne_none _
  next hfalse _ => cases hfalse
  · split
    · exact Option.some_ne_none _
    · exact Option.some_ne_none _
    · exact Option.some_ne_none _
    · exact Option.some_ne_none _

theorem mem_gridExponents {exponent : Int} :
    exponent ∈ gridExponents ↔ -46 ≤ exponent ∧ exponent ≤ 38 := by
  unfold gridExponents
  rw [List.mem_map]
  constructor
  · rintro ⟨i, hi, rfl⟩
    have hlt := List.mem_range.1 hi
    omega
  · rintro ⟨hlow, hhigh⟩
    exact ⟨(38 - exponent).toNat, List.mem_range.2 (by omega), by omega⟩

/-- **THE SHORTEST DECIMAL STANDS ON A GRID.** -/
theorem shortest_onGrid (tie : Tie) {rank : Nat} (hrank : 0 < rank) :
    ∃ exponent ∈ gridExponents, onGrid tie rank exponent = some (shortest tie rank) := by
  unfold shortest
  rw [if_neg (by omega)]
  cases hfind : gridExponents.findSome? (onGrid tie rank) with
  | none =>
      rw [List.findSome?_eq_none_iff] at hfind
      have hmem : (-46 : Int) ∈ gridExponents := mem_gridExponents.2 ⟨by omega, by omega⟩
      exact absurd (hfind (-46) hmem) (onGrid_ne_none tie (names_finest hrank))
  | some d => exact List.exists_of_findSome?_eq_some hfind

/-! ## §2. Digits. -/

theorem digits_shortest_ne_zero (tie : Tie) {rank : Nat} (hrank : 0 < rank) :
    (shortest tie rank).digits ≠ 0 := by
  intro hzero
  have hnear := isNearest_shortest tie hrank
  rw [value_eq_zero_iff.2 hzero, zero_mul] at hnear
  -- zero is nearest to itself alone
  have hself := isNearest_unitsAt 0
  rw [unitsAt_zero, Nat.cast_zero] at hself
  exact Nat.ne_of_gt hrank (hnear.unique hself)

/-- The largest magnitude has 39 digits before the point. -/
theorem pointPlace_shortest_le (tie : Tie) {rank : Nat} (hrank : 0 < rank)
    (hfinite : rank < finiteRanks) : (shortest tie rank).pointPlace ≤ 39 := by
  have hnear := isNearest_shortest tie hrank
  have hle : (unitsAt rank : ℚ) ≤ unitsAt finiteRanks := unitsAt_le_cast hfinite.le
  have hle' : (unitsAt (rank + 1) : ℚ) ≤ unitsAt finiteRanks := unitsAt_le_cast hfinite
  have hvalue := (shortest tie rank).pow_pointPlace_le_value (digits_shortest_ne_zero tie hrank)
  have hhigh : 2 * ((shortest tie rank).value * unitsPerOne)
      ≤ 2 * (2 * binade * 2 ^ 253 : Nat) := by
    rw [unitsAt_finiteRanks] at hle hle'
    linarith [hnear.le_upper]
  by_contra hlt
  -- 10 ^ 39 is beyond the midpoint above the largest magnitude
  have hpow : (10 : ℚ) ^ (39 : Int) ≤ 10 ^ ((shortest tie rank).pointPlace - 1) :=
    zpow_le_zpow_right₀ (by norm_num) (by omega)
  have hlarge := hpow.trans hvalue
  simp only [Nat.pow_eq] at hhigh
  push_cast at hhigh
  norm_num at hhigh hlarge
  linarith

/-- **A SHORTEST DECIMAL HAS FEW DIGITS.** -/
theorem length_digitChars_shortest_le (tie : Tie) {rank : Nat} (hfinite : rank < finiteRanks) :
    (shortest tie rank).digitChars.length ≤ 85 := by
  by_cases hrank : 0 < rank
  · obtain ⟨exponent, hmem, hgrid⟩ := shortest_onGrid tie hrank
    have hplace := pointPlace_shortest_le tie hrank hfinite
    have hexponent : -46 ≤ (shortest tie rank).exponent := by
      rw [exponent_onGrid hgrid]
      exact (mem_gridExponents.1 hmem).1
    unfold pointPlace at hplace
    omega
  · have hzero : rank = 0 := Nat.eq_zero_of_not_pos hrank
    subst hzero
    unfold shortest
    rw [if_pos rfl]
    decide

end ArtGrammar.Decimal
