/-
  ArtGrammar.Proofs.Single.Rounding
  ────────────────────────────────
  **ROUNDING GOES TO THE NEAREST RANK, TIES TO THE EVEN ONE.**

  `IsNearest q r` says of a quotient `q` of units that no rank is nearer to it
  than `r`: `q` lies between the midpoints to the two neighbours of `r`, and on
  a midpoint only if `r` is even.

      nearestRank num den  is nearest to  num / den      (`isNearest_nearestRank`)
      IsNearest q r, IsNearest q' r', q ≤ q'  →  r ≤ r'  (`IsNearest.le_of_le`)

  So the nearest rank is unique, rounding is monotone, and what is a magnitude
  already is not changed.
-/
import ArtGrammar.Single.Basic
import Mathlib.Algebra.Order.Field.Rat
import Mathlib.Data.Nat.Cast.Order.Field
import Mathlib.Tactic.Linarith
import Mathlib.Tactic.FieldSimp
import Mathlib.Tactic.Ring

namespace ArtGrammar

/-! ## §1. Magnitudes. -/

/-- Ranks count the multiples of a step upward, also at the first multiple that
belongs to the next step. -/
theorem unitsAt_binade (e m : Nat) (hm : m ≤ 2 * binade) (h : e = 0 ∨ binade ≤ m) :
    unitsAt (e * binade + m) = m * 2 ^ e := by
  unfold unitsAt binade at *
  by_cases hlow : m < 0x800000
  · -- below one binade a rank is its own magnitude
    have he : e = 0 := by omega
    subst he
    rw [if_pos (by omega)]
    omega
  rw [if_neg (by omega)]
  by_cases htop : m = 2 * 0x800000
  · -- the last multiple of a step is the first one of the step twice as long
    have hdiv : (e * 0x800000 + m) / 0x800000 - 1 = e + 1 := by omega
    have hmod : (e * 0x800000 + m) % 0x800000 = 0 := by omega
    rw [hdiv, hmod, htop]
    show (0x800000 + 0) * 2 ^ (e + 1) = _
    rw [Nat.pow_succ]
    omega
  · have hdiv : (e * 0x800000 + m) / 0x800000 - 1 = e := by omega
    have hmod : 0x800000 + (e * 0x800000 + m) % 0x800000 = m := by omega
    rw [hdiv, hmod]
    rfl

/-- Every rank is a multiple of the step that leads to the next rank. -/
theorem exists_binade (r : Nat) :
    ∃ e m, r = e * binade + m ∧ m < 2 * binade ∧ (e = 0 ∨ binade ≤ m) := by
  unfold binade
  by_cases h : r < 0x800000
  · exact ⟨0, r, by omega, by omega, Or.inl rfl⟩
  · exact ⟨r / 0x800000 - 1, 0x800000 + r % 0x800000, by omega, by omega, Or.inr (by omega)⟩

/-- **Magnitudes grow with their rank.** -/
theorem unitsAt_strictMono : StrictMono unitsAt := by
  apply strictMono_nat_of_lt_succ
  intro r
  obtain ⟨e, m, rfl, hm, h⟩ := exists_binade r
  rw [unitsAt_binade e m (by omega) h, Nat.add_assoc,
      unitsAt_binade e (m + 1) (by omega) (by omega)]
  exact Nat.mul_lt_mul_of_pos_right (Nat.lt_succ_self m) (Nat.two_pow_pos e)

@[simp] theorem unitsAt_zero : unitsAt 0 = 0 := rfl

/-- The magnitude at which results overflow. -/
theorem unitsAt_finiteRanks : unitsAt finiteRanks = 2 * binade * 2 ^ 253 :=
  unitsAt_binade 253 (2 * binade) (Nat.le_refl _) (Or.inr (by decide))

/-- A multiple of a power of two of at most 24 bits is a magnitude. -/
theorem exists_unitsAt_eq (e : Nat) :
    ∀ m, m ≤ 2 * binade → ∃ r, unitsAt r = m * 2 ^ e := by
  induction e with
  | zero =>
      intro m hm
      exact ⟨m, by simpa using unitsAt_binade 0 m hm (Or.inl rfl)⟩
  | succ e ih =>
      intro m hm
      by_cases hlow : m ≤ binade
      · -- few steps are twice as many of half the length
        obtain ⟨r, hr⟩ := ih (2 * m) (by omega)
        exact ⟨r, by rw [hr, Nat.pow_succ]; ring⟩
      · exact ⟨_, unitsAt_binade (e + 1) m hm (Or.inr (by omega))⟩

/-! ## §2. Rounding to an integer. -/

/-- Rounding moves a quotient by half at most, and by half only to an even
integer. -/
theorem roundHalfEven_near (num den : Nat) (hden : 0 < den) :
    2 * roundHalfEven num den * den ≤ 2 * num + den
      ∧ 2 * num ≤ 2 * roundHalfEven num den * den + den
      ∧ (2 * roundHalfEven num den * den = 2 * num + den
          ∨ 2 * num = 2 * roundHalfEven num den * den + den → roundHalfEven num den % 2 = 0) := by
  have hdiv := Nat.div_add_mod num den
  have hmod := Nat.mod_lt num hden
  unfold roundHalfEven
  generalize num / den = q at *
  generalize num % den = r at *
  have hq : 2 * q * den = 2 * (den * q) := by ring
  have hq1 : 2 * (q + 1) * den = 2 * (den * q) + 2 * den := by ring
  simp only
  split
  · omega
  · split
    · omega
    · -- a tie: of `q` and `q + 1` the even one is taken
      rcases Nat.mod_two_eq_zero_or_one q with h | h
      · rw [h, Nat.add_zero]
        omega
      · rw [h]
        omega

/-- Rounding goes to one of the two integers around the quotient. -/
theorem roundHalfEven_mem (num den : Nat) :
    num / den ≤ roundHalfEven num den ∧ roundHalfEven num den ≤ num / den + 1 := by
  unfold roundHalfEven
  simp only
  split
  · omega
  · split <;> omega

/-! ## §3. The nearest rank. -/

/-- No rank is nearer to `q` units than `r`, and of two equally near ones `r` is
the even one. -/
structure IsNearest (q : ℚ) (r : Nat) : Prop where
  le_upper : 2 * q ≤ unitsAt r + unitsAt (r + 1)
  even_upper : 2 * q = unitsAt r + unitsAt (r + 1) → r % 2 = 0
  lower_le : ∀ s, s + 1 = r → (unitsAt s + unitsAt r : ℚ) ≤ 2 * q
  even_lower : ∀ s, s + 1 = r → (unitsAt s + unitsAt r : ℚ) = 2 * q → r % 2 = 0

theorem unitsAt_lt_cast {r s : Nat} (h : r < s) : (unitsAt r : ℚ) < unitsAt s := by
  exact_mod_cast unitsAt_strictMono h

theorem unitsAt_le_cast {r s : Nat} (h : r ≤ s) : (unitsAt r : ℚ) ≤ unitsAt s := by
  exact_mod_cast unitsAt_strictMono.monotone h

/-- A magnitude is nearest to itself. -/
theorem isNearest_unitsAt (r : Nat) : IsNearest (unitsAt r) r where
  le_upper := by linarith [unitsAt_lt_cast (Nat.lt_succ_self r)]
  even_upper := by
    intro h
    linarith [unitsAt_lt_cast (Nat.lt_succ_self r)]
  lower_le := by
    intro s hs
    linarith [unitsAt_lt_cast (show s < r by omega)]
  even_lower := by
    intro s hs h
    linarith [unitsAt_lt_cast (show s < r by omega)]

/-- **Nearest ranks keep the order of the quotients.** -/
theorem IsNearest.le_of_le {q q' : ℚ} {r r' : Nat} (h : IsNearest q r) (h' : IsNearest q' r')
    (hq : q ≤ q') : r ≤ r' := by
  by_contra hlt
  obtain ⟨s, rfl⟩ : ∃ s, r = s + 1 := ⟨r - 1, by omega⟩
  have hs : (unitsAt r' : ℚ) ≤ unitsAt s := unitsAt_le_cast (by omega)
  have hs1 : (unitsAt (r' + 1) : ℚ) ≤ unitsAt (s + 1) := unitsAt_le_cast (by omega)
  have hup := h'.le_upper
  have hlow := h.lower_le s rfl
  -- both quotients are the midpoint between `s` and `s + 1`, and only one of the two is even
  have heq : (unitsAt r' : ℚ) = unitsAt s := by linarith
  have hrs : r' = s := unitsAt_strictMono.injective (by exact_mod_cast heq)
  subst hrs
  have heven := h.even_lower r' rfl (by linarith)
  have heven' := h'.even_upper (by linarith)
  omega

theorem IsNearest.unique {q : ℚ} {r r' : Nat} (h : IsNearest q r) (h' : IsNearest q r') :
    r = r' :=
  Nat.le_antisymm (h.le_of_le h' le_rfl) (h'.le_of_le h le_rfl)

/-! ## §4. Rounding finds the nearest rank. -/

/-- What lies within half a step above a magnitude lies below the midpoint to
the next one. -/
theorem le_upper_of_step {q : ℚ} {e m : Nat} (hm : m ≤ 2 * binade) (h : e = 0 ∨ binade ≤ m)
    (hq : 2 * q ≤ 2 * m * 2 ^ e + 2 ^ e) (htop : m = 2 * binade → q < m * 2 ^ e) :
    2 * q ≤ unitsAt (e * binade + m) + unitsAt (e * binade + m + 1)
      ∧ (2 * q = unitsAt (e * binade + m) + unitsAt (e * binade + m + 1)
          → 2 * q = 2 * m * 2 ^ e + 2 ^ e) := by
  have hr : (unitsAt (e * binade + m) : ℚ) = m * 2 ^ e := by
    exact_mod_cast unitsAt_binade e m hm h
  by_cases hlt : m = 2 * binade
  · -- the next magnitude is two steps away
    have hq' := htop hlt
    have hnext := unitsAt_lt_cast (Nat.lt_succ_self (e * binade + m))
    constructor
    · linarith
    · intro heq
      linarith
  · have hr1 : (unitsAt (e * binade + m + 1) : ℚ) = (m + 1) * 2 ^ e := by
      rw [Nat.add_assoc]
      exact_mod_cast unitsAt_binade e (m + 1) (by omega) (by omega)
    rw [hr, hr1]
    constructor
    · linarith
    · intro heq
      linarith

/-- What lies within half a step below a magnitude lies above the midpoint to
the one before. -/
theorem lower_le_of_step {q : ℚ} {e m s : Nat} (hm : m ≤ 2 * binade) (h : e = 0 ∨ binade ≤ m)
    (hs : s + 1 = e * binade + m) (hq : 2 * m * 2 ^ e ≤ 2 * q + 2 ^ e)
    (hlow : e ≠ 0 → (binade * 2 ^ e : ℚ) ≤ q) :
    (unitsAt s + unitsAt (e * binade + m) : ℚ) ≤ 2 * q
      ∧ ((unitsAt s + unitsAt (e * binade + m) : ℚ) = 2 * q
          → 2 * m * 2 ^ e = 2 * q + 2 ^ e) := by
  have hr : (unitsAt (e * binade + m) : ℚ) = m * 2 ^ e := by
    exact_mod_cast unitsAt_binade e m hm h
  by_cases hbot : e ≠ 0 ∧ m = binade
  · -- the magnitude before is half a step away
    have hq' := hlow hbot.1
    have hprev := unitsAt_lt_cast (show s < e * binade + m by omega)
    rw [hbot.2] at hr hprev
    rw [hbot.2]
    constructor
    · linarith
    · intro heq
      linarith
  · have hm0 : m ≠ 0 := by
      intro h0
      unfold binade at *
      omega
    obtain ⟨k, rfl⟩ : ∃ k, m = k + 1 := ⟨m - 1, by omega⟩
    have hs' : s = e * binade + k := by omega
    have hr0 : (unitsAt s : ℚ) = k * 2 ^ e := by
      rw [hs']
      exact_mod_cast unitsAt_binade e k (by omega) (by omega)
    rw [hr, hr0]
    push_cast at hq ⊢
    constructor
    · linarith
    · intro heq
      linarith

/-- The exponent of the step between neighbours of a quotient, and what the
quotient comes to in such steps. -/
theorem nearestRank_step (num den : Nat) :
    ∃ e, nearestRank num den = e * binade + roundHalfEven num (den * 2 ^ e)
      ∧ num / (den * 2 ^ e) < 2 * binade ∧ (e = 0 ∨ binade ≤ num / (den * 2 ^ e)) := by
  refine ⟨(num / den).log2 - 23, rfl, ?_⟩
  rw [← Nat.div_div_eq_div_mul]
  generalize num / den = q
  have hup : q < 2 ^ (q.log2 + 1) := Nat.lt_log2_self
  by_cases hsmall : q.log2 ≤ 23
  · -- up to 24 bits the step is one unit
    rw [Nat.sub_eq_zero_of_le hsmall, Nat.pow_zero, Nat.div_one]
    have hpow : 2 ^ (q.log2 + 1) ≤ 2 ^ 24 := Nat.pow_le_pow_right (by decide) (by omega)
    exact ⟨by unfold binade; omega, Or.inl rfl⟩
  · have hq : q ≠ 0 := by
      intro h0
      rw [h0] at hsmall
      exact hsmall (by decide)
    -- the step leaves 24 bits, so its multiple lies within one binade
    have hlow := Nat.log2_self_le hq
    have hexp : 2 ^ q.log2 = binade * 2 ^ (q.log2 - 23) := by
      show _ = 2 ^ 23 * 2 ^ (q.log2 - 23)
      rw [← Nat.pow_add]
      congr 1
      omega
    rw [Nat.pow_succ, hexp] at hup
    rw [hexp] at hlow
    have hpos := Nat.two_pow_pos (q.log2 - 23)
    exact ⟨(Nat.div_lt_iff_lt_mul hpos).2 (by linarith),
      Or.inr ((Nat.le_div_iff_mul_le hpos).2 hlow)⟩

/-- Rounding to a multiple of a step moves a quotient by half a step at most,
and by half a step only to an even multiple. -/
theorem roundHalfEven_step (num den e : Nat) (hden : 0 < den) :
    (2 * roundHalfEven num (den * 2 ^ e) * 2 ^ e : ℚ) ≤ 2 * (num / den) + 2 ^ e
      ∧ (2 * (num / den) : ℚ) ≤ 2 * roundHalfEven num (den * 2 ^ e) * 2 ^ e + 2 ^ e
      ∧ ((2 * roundHalfEven num (den * 2 ^ e) * 2 ^ e : ℚ) = 2 * (num / den) + 2 ^ e
          ∨ (2 * (num / den) : ℚ) = 2 * roundHalfEven num (den * 2 ^ e) * 2 ^ e + 2 ^ e
          → roundHalfEven num (den * 2 ^ e) % 2 = 0) := by
  have hstep : 0 < den * 2 ^ e := Nat.mul_pos hden (Nat.two_pow_pos e)
  obtain ⟨hle, hge, heven⟩ := roundHalfEven_near num (den * 2 ^ e) hstep
  generalize roundHalfEven num (den * 2 ^ e) = m at *
  have hden' : (0 : ℚ) < den := by exact_mod_cast hden
  have hnum : (num : ℚ) = num / den * den := by field_simp
  generalize (num / den : ℚ) = q at *
  refine ⟨?_, ?_, ?_⟩
  · refine le_of_mul_le_mul_right ?_ hden'
    calc (2 * m * 2 ^ e * den : ℚ) = 2 * m * (den * 2 ^ e) := by ring
      _ ≤ 2 * num + den * 2 ^ e := by exact_mod_cast hle
      _ = (2 * q + 2 ^ e) * den := by rw [hnum]; ring
  · refine le_of_mul_le_mul_right ?_ hden'
    calc (2 * q * den : ℚ) = 2 * num := by rw [hnum]; ring
      _ ≤ 2 * m * (den * 2 ^ e) + den * 2 ^ e := by exact_mod_cast hge
      _ = (2 * m * 2 ^ e + 2 ^ e) * den := by ring
  · intro hmid
    apply heven
    -- the midpoint over the rationals is the one in whole numbers
    rcases hmid with hmid | hmid
    · left
      have hcast : (2 * m * (den * 2 ^ e) : ℚ) = 2 * num + den * 2 ^ e := by
        calc (2 * m * (den * 2 ^ e) : ℚ) = 2 * m * 2 ^ e * den := by ring
          _ = (2 * q + 2 ^ e) * den := by rw [hmid]
          _ = 2 * num + den * 2 ^ e := by rw [hnum]; ring
      exact_mod_cast hcast
    · right
      have hcast : (2 * num : ℚ) = 2 * m * (den * 2 ^ e) + den * 2 ^ e := by
        calc (2 * num : ℚ) = 2 * q * den := by rw [hnum]; ring
          _ = (2 * m * 2 ^ e + 2 ^ e) * den := by rw [hmid]
          _ = 2 * m * (den * 2 ^ e) + den * 2 ^ e := by ring
      exact_mod_cast hcast

/-- The steps below a quotient, counted in whole numbers. -/
theorem div_step (num den e : Nat) (hden : 0 < den) :
    ((num / (den * 2 ^ e) : Nat) * 2 ^ e : ℚ) ≤ num / den
      ∧ (num / den : ℚ) < ((num / (den * 2 ^ e) : Nat) + 1) * 2 ^ e := by
  have hstep : 0 < den * 2 ^ e := Nat.mul_pos hden (Nat.two_pow_pos e)
  have hlo := Nat.div_mul_le_self num (den * 2 ^ e)
  have hhi := Nat.lt_div_mul_add (a := num) hstep
  generalize num / (den * 2 ^ e) = k at *
  have hden' : (0 : ℚ) < den := by exact_mod_cast hden
  have hnum : (num : ℚ) = num / den * den := by field_simp
  generalize (num / den : ℚ) = q at *
  constructor
  · refine le_of_mul_le_mul_right ?_ hden'
    calc (k * 2 ^ e * den : ℚ) = k * (den * 2 ^ e) := by ring
      _ ≤ num := by exact_mod_cast hlo
      _ = q * den := hnum
  · refine lt_of_mul_lt_mul_right ?_ hden'.le
    calc q * den = num := hnum.symm
      _ < k * (den * 2 ^ e) + den * 2 ^ e := by exact_mod_cast hhi
      _ = (k + 1) * 2 ^ e * den := by ring

/-- **ROUNDING GOES TO THE NEAREST RANK.** -/
theorem isNearest_nearestRank (num den : Nat) (hden : 0 < den) :
    IsNearest (num / den : ℚ) (nearestRank num den) := by
  obtain ⟨e, hrank, htop, hlow⟩ := nearestRank_step num den
  obtain ⟨hbelow, habove, heven⟩ := roundHalfEven_step num den e hden
  obtain ⟨hfloor, hceil⟩ := div_step num den e hden
  obtain ⟨hmem, hmem1⟩ := roundHalfEven_mem num (den * 2 ^ e)
  rw [hrank]
  generalize roundHalfEven num (den * 2 ^ e) = m at *
  generalize num / (den * 2 ^ e) = k at *
  generalize (num / den : ℚ) = q at *
  have hm : m ≤ 2 * binade := by omega
  have hme : e = 0 ∨ binade ≤ m := by omega
  have hpow : (0 : ℚ) < 2 ^ e := by positivity
  -- a binade is even, so rank and multiple have the same parity
  have hparity : m % 2 = 0 → (e * binade + m) % 2 = 0 := by
    intro hm2
    unfold binade
    omega
  obtain ⟨hu, hu'⟩ := le_upper_of_step hm hme habove (by
    intro hmtop
    have hk : (k + 1 : ℚ) ≤ m := by exact_mod_cast (show k + 1 ≤ m by omega)
    nlinarith)
  have hl := fun s (hs : s + 1 = e * binade + m) => lower_le_of_step hm hme hs hbelow (by
    intro he
    have hk : (binade : ℚ) ≤ k := by exact_mod_cast (show binade ≤ k by omega)
    nlinarith)
  exact {
    le_upper := hu
    even_upper := fun heq => hparity (heven (Or.inr (hu' heq)))
    lower_le := fun s hs => (hl s hs).1
    even_lower := fun s hs heq => hparity (heven (Or.inl ((hl s hs).2 heq))) }

/-! ## §5. What follows for rounding. -/

/-- The nearest rank is the one that rounding finds. -/
theorem IsNearest.nearestRank_eq {num den r : Nat} (h : IsNearest (num / den : ℚ) r)
    (hden : 0 < den) : nearestRank num den = r :=
  (isNearest_nearestRank num den hden).unique h

/-- **A magnitude is not changed by rounding.** -/
theorem nearestRank_unitsAt (r den : Nat) (hden : 0 < den) :
    nearestRank (unitsAt r * den) den = r := by
  apply IsNearest.nearestRank_eq _ hden
  have hden' : (den : ℚ) ≠ 0 := by exact_mod_cast Nat.ne_of_gt hden
  rw [Nat.cast_mul, mul_div_cancel_right₀ _ hden']
  exact isNearest_unitsAt r

/-- **Rounding is monotone.** -/
theorem nearestRank_mono {num den num' den' : Nat} (hden : 0 < den) (hden' : 0 < den')
    (h : (num / den : ℚ) ≤ num' / den') : nearestRank num den ≤ nearestRank num' den' :=
  (isNearest_nearestRank num den hden).le_of_le (isNearest_nearestRank num' den' hden') h

/-- Rounding looks at the quotient alone. -/
theorem nearestRank_congr {num den num' den' : Nat} (hden : 0 < den) (hden' : 0 < den')
    (h : (num / den : ℚ) = num' / den') : nearestRank num den = nearestRank num' den' :=
  Nat.le_antisymm (nearestRank_mono hden hden' h.le) (nearestRank_mono hden' hden h.ge)

end ArtGrammar
