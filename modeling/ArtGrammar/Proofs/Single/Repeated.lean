/-
  ArtGrammar.Proofs.Single.Repeated
  ────────────────────────────────
  **ADDING ONE MAGNITUDE AGAIN AND AGAIN.**

  A sum grows by `c` units and is rounded after each addition (`addRank`).  How far
  it strays from the exact sum of `k` additions:

      drift          k times the distance of `c` to a common multiple `a` of all the
                     steps between neighbours passed, and one step of the last sum
      stride         within one binade every addition moves the sum alike, so many
                     additions are one multiplication            (`climb`)
      stagnation     a sum that `c` does not move by half a step stays where it is

  The first holds because the sum with `a` in place of `c` is a magnitude itself, so
  no rounding errs by more than `c` does from `a`; the additions that leave a binade
  behind pay with the growth of the step.
-/
import ArtGrammar.Proofs.Grammar.Total

namespace ArtGrammar

/-! ## §1. Steps between neighbours. -/

/-- The exponent of the step from a rank to the next. -/
def exponentAt (r : Nat) : Nat := r / binade - 1

theorem exponentAt_mono {r r' : Nat} (h : r ≤ r') : exponentAt r ≤ exponentAt r' :=
  Nat.sub_le_sub_right (Nat.div_le_div_right h) 1

/-- A rank by its exponent and the multiple of the step that its magnitude is. -/
theorem exists_multiple (r : Nat) :
    ∃ m, r = exponentAt r * binade + m ∧ unitsAt r = m * 2 ^ exponentAt r ∧ m < 2 * binade
      ∧ (exponentAt r = 0 ∨ binade ≤ m) := by
  obtain ⟨m, hr, hm, h⟩ : ∃ m, r = exponentAt r * binade + m ∧ m < 2 * binade
      ∧ (exponentAt r = 0 ∨ binade ≤ m) := by
    unfold exponentAt binade
    by_cases h : r < 0x800000
    · exact ⟨r, by omega, by omega, Or.inl (by omega)⟩
    · exact ⟨0x800000 + r % 0x800000, by omega, by omega, Or.inr (by omega)⟩
  refine ⟨m, hr, ?_, hm, h⟩
  conv_lhs => rw [hr]
  exact unitsAt_binade _ m (by omega) h

/-- **THE NEXT MAGNITUDE IS ONE STEP FURTHER.** -/
theorem unitsAt_succ (r : Nat) : unitsAt (r + 1) = unitsAt r + 2 ^ exponentAt r := by
  obtain ⟨m, hr, hunits, hm, h⟩ := exists_multiple r
  rw [hunits]
  conv_lhs => rw [hr]
  rw [Nat.add_assoc, unitsAt_binade _ (m + 1) (by omega) (by omega), Nat.succ_mul]

/-- Rounding is monotone, by cross multiplication. -/
theorem nearestRank_le_of_mul_le {num den num' den' : Nat} (hden : 0 < den) (hden' : 0 < den')
    (h : num * den' ≤ num' * den) : nearestRank num den ≤ nearestRank num' den' := by
  have hpos : (0 : ℚ) < den := by exact_mod_cast hden
  have hpos' : (0 : ℚ) < den' := by exact_mod_cast hden'
  apply nearestRank_mono hden hden'
  rw [div_le_div_iff₀ hpos hpos']
  exact_mod_cast h

/-- A quotient is no further from its nearest rank than half way to the next. -/
theorem twice_le_nearestRank (num den : Nat) (hden : 0 < den) :
    2 * num ≤ den * (unitsAt (nearestRank num den) + unitsAt (nearestRank num den + 1)) := by
  have hupper := (isNearest_nearestRank num den hden).le_upper
  have hpos : (0 : ℚ) < den := by exact_mod_cast hden
  have hscaled := mul_le_mul_of_nonneg_left hupper hpos.le
  have hcancel : (den : ℚ) * (2 * (num / den)) = 2 * num := by field_simp
  rw [hcancel] at hscaled
  exact_mod_cast hscaled

/-- Nor than half way to the one before. -/
theorem nearestRank_le_twice (num den : Nat) (hden : 0 < den) {s : Nat}
    (hs : s + 1 = nearestRank num den) :
    den * (unitsAt s + unitsAt (nearestRank num den)) ≤ 2 * num := by
  have hlower := (isNearest_nearestRank num den hden).lower_le s hs
  have hpos : (0 : ℚ) < den := by exact_mod_cast hden
  have hscaled := mul_le_mul_of_nonneg_left hlower hpos.le
  have hcancel : (den : ℚ) * (2 * (num / den)) = 2 * num := by field_simp
  rw [hcancel] at hscaled
  exact_mod_cast hscaled

/-! ## §2. One addition. -/

/-- The rank of the rounded sum of a magnitude and `c` units. -/
def addRank (c r : Nat) : Nat := nearestRank (unitsAt r + c) 1

theorem le_addRank (c r : Nat) : r ≤ addRank c r :=
  Single.le_nearestRank (Nat.le_add_right _ _)

/-- The two numbers are no further apart than the bound. -/
def Within (bound x y : Nat) : Prop := x ≤ y + bound ∧ y ≤ x + bound

/-- **NO MAGNITUDE IS NEARER THAN THE ROUNDED NUMBER.** -/
theorem Within.nearestRank {bound n s : Nat} (h : Within bound (unitsAt s) n) :
    Within bound (unitsAt (nearestRank n 1)) n := by
  have hupper := twice_le_nearestRank n 1 Nat.one_pos
  have hlower := fun t => nearestRank_le_twice n 1 Nat.one_pos (s := t)
  generalize ArtGrammar.nearestRank n 1 = r at *
  simp only [Nat.one_mul] at hupper hlower
  unfold Within at *
  rcases Nat.lt_trichotomy s r with hlt | heq | hgt
  · -- the rank before `r` is as near as `s`, and `r` is nearer
    obtain ⟨t, rfl⟩ : ∃ t, r = t + 1 := ⟨r - 1, by omega⟩
    have hst : unitsAt s ≤ unitsAt t := unitsAt_strictMono.monotone (by omega)
    have hbefore := hlower t rfl
    have hstep : unitsAt t ≤ unitsAt (t + 1) := unitsAt_strictMono.monotone (by omega)
    omega
  · subst heq
    exact h
  · have hst : unitsAt (r + 1) ≤ unitsAt s := unitsAt_strictMono.monotone (by omega)
    have hstep : unitsAt r ≤ unitsAt (r + 1) := unitsAt_strictMono.monotone (by omega)
    omega

/-- Rounding moves a number by half a step at most, a step being that of the rounded
number. -/
theorem within_half_step (n : Nat) :
    Within (2 ^ exponentAt (nearestRank n 1)) (2 * unitsAt (nearestRank n 1)) (2 * n) := by
  have hupper := twice_le_nearestRank n 1 Nat.one_pos
  have hlower := fun t => nearestRank_le_twice n 1 Nat.one_pos (s := t)
  have hnext := unitsAt_succ (nearestRank n 1)
  generalize ArtGrammar.nearestRank n 1 = r at *
  simp only [Nat.one_mul] at hupper hlower
  refine ⟨?_, by omega⟩
  cases r with
  | zero =>
      rw [unitsAt_zero, Nat.mul_zero]
      exact Nat.zero_le _
  | succ t =>
      have hstep : 2 ^ exponentAt t ≤ 2 ^ exponentAt (t + 1) :=
        Nat.pow_le_pow_right (by decide) (exponentAt_mono (Nat.le_succ t))
      have hlast := unitsAt_succ t
      have hbefore := hlower t rfl
      omega

/-! ## §3. Drift. -/

/-- One addition errs by the distance of `c` to a multiple of the step, and by the
growth of the step if it leaves the binade. -/
theorem within_addRank {a c bound r e : Nat} (he : exponentAt r ≤ e) (ha : 2 ^ e ∣ a)
    (hbound : Within bound a c) :
    unitsAt (addRank c r) + 2 ^ exponentAt r
        ≤ unitsAt r + c + bound + 2 ^ exponentAt (addRank c r)
      ∧ unitsAt r + c + 2 ^ exponentAt r
        ≤ unitsAt (addRank c r) + bound + 2 ^ exponentAt (addRank c r) := by
  rcases Nat.eq_or_lt_of_le (exponentAt_mono (le_addRank c r)) with hsame | hgrows
  · rw [← hsame]
    suffices h : Within bound (unitsAt (addRank c r)) (unitsAt r + c) by
      obtain ⟨hle, hge⟩ := h
      omega
    obtain ⟨m, hr, hunits, hm, hmin⟩ := exists_multiple r
    obtain ⟨k, rfl⟩ : 2 ^ exponentAt r ∣ a := (Nat.pow_dvd_pow 2 he).trans ha
    by_cases htop : m + k ≤ 2 * binade
    · -- with the multiple in place of `c` the sum is a magnitude
      obtain ⟨s, hs⟩ := exists_unitsAt_eq (exponentAt r) (m + k) htop
      apply Within.nearestRank (s := s)
      rw [hs, Nat.add_mul, ← hunits, Nat.mul_comm k]
      unfold Within at *
      omega
    · -- the end of the binade lies between that sum and the exact one
      have hend : unitsAt (exponentAt r * binade + 2 * binade) = 2 * binade * 2 ^ exponentAt r :=
        unitsAt_binade _ _ (Nat.le_refl _) (Or.inr (by decide))
      apply Within.nearestRank (s := exponentAt r * binade + 2 * binade)
      have hover : 2 * binade * 2 ^ exponentAt r ≤ unitsAt r + 2 ^ exponentAt r * k := by
        rw [hunits, Nat.mul_comm (2 ^ exponentAt r), ← Nat.add_mul]
        exact Nat.mul_le_mul_right _ (by omega)
      have hbelow : unitsAt r + c < 2 * binade * 2 ^ exponentAt r := by
        by_contra hreach
        have hrank : exponentAt r * binade + 2 * binade ≤ addRank c r :=
          Single.le_nearestRank (by omega)
        have hexponent := exponentAt_mono hrank
        rw [← hsame] at hexponent
        unfold exponentAt binade at hexponent
        omega
      unfold Within at *
      omega
  · -- half a step of the greater exponent is no more than the growth
    obtain ⟨hle, hge⟩ := within_half_step (unitsAt r + c)
    change 2 * unitsAt (addRank c r) ≤ 2 * (unitsAt r + c) + 2 ^ exponentAt (addRank c r) at hle
    change 2 * (unitsAt r + c) ≤ 2 * unitsAt (addRank c r) + 2 ^ exponentAt (addRank c r) at hge
    have hdouble : 2 * 2 ^ exponentAt r ≤ 2 ^ exponentAt (addRank c r) := by
      rw [← Nat.pow_succ']
      exact Nat.pow_le_pow_right (by decide) hgrows
    omega

/-- **THE DRIFT OF MANY ADDITIONS.**  While no step is longer than `2 ^ e`, each addition
adds the distance of `c` to a multiple of `2 ^ e`, and all of them together one step
of the last sum. -/
theorem drift {a c bound e : Nat} (ha : 2 ^ e ∣ a) (hbound : Within bound a c) (r : Nat) :
    ∀ k, (∀ j < k, exponentAt ((addRank c)^[j] r) ≤ e) →
      unitsAt ((addRank c)^[k] r) + 2 ^ exponentAt r
          ≤ unitsAt r + k * c + k * bound + 2 ^ exponentAt ((addRank c)^[k] r)
        ∧ unitsAt r + k * c + 2 ^ exponentAt r
          ≤ unitsAt ((addRank c)^[k] r) + k * bound + 2 ^ exponentAt ((addRank c)^[k] r) := by
  intro k
  induction k with
  | zero =>
      intro _
      rw [Function.iterate_zero_apply]
      omega
  | succ k ih =>
      intro hsteps
      obtain ⟨hle, hge⟩ := ih fun j hj => hsteps j (by omega)
      have hlast := within_addRank (hsteps k (Nat.lt_succ_self k)) ha hbound
      rw [Function.iterate_succ_apply', Nat.succ_mul, Nat.succ_mul]
      omega

/-! ## §4. Strides. -/

/-- A number that has few enough multiples of a step has half as many of the next. -/
theorem div_two_pow_lt {n e e' : Nat} (h : n / 2 ^ e < 2 * binade) (hlt : e < e') :
    n / 2 ^ e' < binade := by
  have hle : n / 2 ^ e' ≤ n / 2 ^ (e + 1) :=
    Nat.div_le_div_left (Nat.pow_le_pow_right (by decide) hlt) (Nat.two_pow_pos _)
  rw [Nat.pow_succ, ← Nat.div_div_eq_div_mul] at hle
  omega

/-- The step between neighbours is the one of which a number has 24 bits. -/
theorem nearestRank_of_step {n e : Nat} (htop : n / 2 ^ e < 2 * binade)
    (h : e = 0 ∨ binade ≤ n / 2 ^ e) :
    nearestRank n 1 = e * binade + roundHalfEven n (2 ^ e) := by
  obtain ⟨e', hrank, htop', h'⟩ := nearestRank_step n 1
  rw [Nat.one_mul] at hrank htop' h'
  have heq : e' = e := by
    rcases Nat.lt_trichotomy e' e with hlt | heq | hgt
    · have hless := div_two_pow_lt htop' hlt
      omega
    · exact heq
    · have hless := div_two_pow_lt htop hgt
      omega
  rw [hrank, heq]

/-- Rounding passes over whole multiples, unless a tie has to be broken for an odd
one. -/
theorem roundHalfEven_add {m c d : Nat} (hd : 0 < d) (htie : m % 2 = 0 ∨ 2 * (c % d) ≠ d) :
    roundHalfEven (m * d + c) d = m + roundHalfEven c d := by
  unfold roundHalfEven
  rw [Nat.add_comm (m * d), Nat.add_mul_div_right _ _ hd, Nat.add_mul_mod_self_right]
  simp only
  split
  · omega
  · split
    · omega
    · omega

theorem roundHalfEven_even_of_tie {c d : Nat} (h : 2 * (c % d) = d) :
    roundHalfEven c d % 2 = 0 := by
  unfold roundHalfEven
  simp only
  rw [if_neg (by omega), if_neg (by omega)]
  omega

/-- One addition by its step: the sum is rounded to a multiple of it. -/
theorem addRank_step {c e m : Nat} (e' : Nat) (hm : m ≤ 2 * binade) (h : e = 0 ∨ binade ≤ m)
    (htop : (m * 2 ^ e + c) / 2 ^ e' < 2 * binade)
    (h' : e' = 0 ∨ binade ≤ (m * 2 ^ e + c) / 2 ^ e') :
    addRank c (e * binade + m) = e' * binade + roundHalfEven (m * 2 ^ e + c) (2 ^ e') := by
  unfold addRank
  rw [unitsAt_binade e m hm h, nearestRank_of_step htop h']

theorem add_div_two_pow (m c e : Nat) : (m * 2 ^ e + c) / 2 ^ e = m + c / 2 ^ e := by
  rw [Nat.add_comm, Nat.add_mul_div_right _ _ (Nat.two_pow_pos e), Nat.add_comm]

/-- **MANY ADDITIONS WITHIN A BINADE ARE ONE MULTIPLICATION.**  Each moves the sum by the
multiple of the step that `c` is rounded to, unless a tie has to be broken for an
odd sum. -/
theorem iterate_addRank_binade {c e m : Nat} (h : e = 0 ∨ binade ≤ m)
    (htie : m % 2 = 0 ∨ 2 * (c % 2 ^ e) ≠ 2 ^ e) :
    ∀ k, m + (k - 1) * roundHalfEven c (2 ^ e) + c / 2 ^ e < 2 * binade →
      (addRank c)^[k] (e * binade + m) = e * binade + (m + k * roundHalfEven c (2 ^ e)) := by
  have heven := roundHalfEven_even_of_tie (c := c) (d := 2 ^ e)
  generalize hd : roundHalfEven c (2 ^ e) = d at *
  intro k
  induction k with
  | zero =>
      intro _
      rw [Function.iterate_zero_apply, Nat.zero_mul, Nat.add_zero]
  | succ k ih =>
      intro htop
      rw [Nat.add_sub_cancel] at htop
      have hless : (k - 1) * d ≤ k * d := Nat.mul_le_mul_right d (Nat.sub_le k 1)
      -- an even number of steps keeps an even sum even
      have hparity : (m + k * d) % 2 = 0 ∨ 2 * (c % 2 ^ e) ≠ 2 ^ e := by
        by_cases hmid : 2 * (c % 2 ^ e) = 2 ^ e
        · have hm := htie.resolve_right (not_not_intro hmid)
          have hsteps : k * d % 2 = 0 := by
            rw [Nat.mul_mod, heven hmid, Nat.mul_zero, Nat.zero_mod]
          omega
        · exact Or.inr hmid
      generalize hq : c / 2 ^ e = q at *
      rw [Function.iterate_succ_apply', ih (by omega),
        addRank_step e (by omega) (by omega) (by rw [add_div_two_pow, hq]; exact htop)
          (by rw [add_div_two_pow]; omega),
        roundHalfEven_add (Nat.two_pow_pos e) hparity, hd, Nat.succ_mul, Nat.add_assoc]

/-- How many additions to the `m`-fold of the step `2 ^ e` begin within the binade. -/
def strideLength (c e m : Nat) : Nat :=
  (2 * binade - 1 - (m + c / 2 ^ e)) / roundHalfEven c (2 ^ e) + 1

theorem strideLength_bound {c e m k : Nat} (hwithin : m + c / 2 ^ e < 2 * binade)
    (hk : k ≤ strideLength c e m) :
    m + (k - 1) * roundHalfEven c (2 ^ e) + c / 2 ^ e < 2 * binade := by
  have hmul := Nat.mul_le_of_le_div (roundHalfEven c (2 ^ e)) (k - 1)
    (2 * binade - 1 - (m + c / 2 ^ e)) (Nat.sub_le_of_le_add hk)
  generalize (k - 1) * roundHalfEven c (2 ^ e) = moved at *
  generalize c / 2 ^ e = q at *
  omega

/-- Adds `c` units `n` times to the `m`-fold of the step `2 ^ e`, in strides from one
power of two to the next; answers the rank that is reached, if the fuel suffices. -/
def climb (c : Nat) : Nat → Nat → Nat → Nat → Option Nat
  | 0, _, _, _ => none
  | fuel + 1, e, m, n =>
    if n = 0 then some (e * binade + m)
    else if m + c / 2 ^ e < 2 * binade then
      if m % 2 = 0 ∨ 2 * (c % 2 ^ e) ≠ 2 ^ e then
        if n ≤ strideLength c e m then some (e * binade + (m + n * roundHalfEven c (2 ^ e)))
        else
          climb c fuel e (m + strideLength c e m * roundHalfEven c (2 ^ e))
            (n - strideLength c e m)
      else climb c fuel e (roundHalfEven (m * 2 ^ e + c) (2 ^ e)) (n - 1)
    else climb c fuel (e + 1) (roundHalfEven (m * 2 ^ e + c) (2 ^ (e + 1))) (n - 1)

/-- An addition within the binade, also one that breaks a tie. -/
theorem addRank_within {c e m : Nat} (hm : m ≤ 2 * binade) (h : e = 0 ∨ binade ≤ m)
    (hwithin : m + c / 2 ^ e < 2 * binade) :
    ∃ sum, roundHalfEven (m * 2 ^ e + c) (2 ^ e) = sum ∧ sum ≤ 2 * binade
      ∧ (e = 0 ∨ binade ≤ sum) ∧ addRank c (e * binade + m) = e * binade + sum := by
  have hmem := roundHalfEven_mem (m * 2 ^ e + c) (2 ^ e)
  have hlow : e = 0 ∨ binade ≤ m + c / 2 ^ e := h.imp_right Nat.le_add_right_of_le
  have hrank := addRank_step (c := c) e hm h
  rw [add_div_two_pow] at hmem hrank
  refine ⟨_, rfl, by omega, hlow.imp_right fun hlow => by omega, hrank hwithin hlow⟩

/-- An addition that leaves the binade does not leave the next one, if `c` is less than
the binade ends at. -/
theorem addRank_leaving {c e m : Nat} (hm : m ≤ 2 * binade) (h : e = 0 ∨ binade ≤ m)
    (hc : c < 2 * binade * 2 ^ e) (hleaving : 2 * binade ≤ m + c / 2 ^ e) :
    ∃ sum, roundHalfEven (m * 2 ^ e + c) (2 ^ (e + 1)) = sum ∧ sum ≤ 2 * binade
      ∧ binade ≤ sum ∧ addRank c (e * binade + m) = (e + 1) * binade + sum := by
  have hmem := roundHalfEven_mem (m * 2 ^ e + c) (2 ^ (e + 1))
  have hrank := addRank_step (c := c) (e + 1) hm h
  have hhalf : (m * 2 ^ e + c) / 2 ^ (e + 1) = (m + c / 2 ^ e) / 2 := by
    rw [Nat.pow_succ, ← Nat.div_div_eq_div_mul, add_div_two_pow]
  have hq : c / 2 ^ e < 2 * binade := (Nat.div_lt_iff_lt_mul (Nat.two_pow_pos e)).2 hc
  rw [hhalf] at hmem hrank
  exact ⟨_, rfl, by omega, by omega, hrank (by omega) (Or.inr (by omega))⟩

/-- A whole stride ends within the binade, or where the next one begins. -/
theorem strideLength_mul_le {c e m : Nat} (hwithin : m + c / 2 ^ e < 2 * binade) :
    m + strideLength c e m * roundHalfEven c (2 ^ e) ≤ 2 * binade := by
  have hbound := strideLength_bound hwithin (Nat.le_refl (strideLength c e m))
  have hround := roundHalfEven_mem c (2 ^ e)
  have hlast : strideLength c e m * roundHalfEven c (2 ^ e)
      = (strideLength c e m - 1) * roundHalfEven c (2 ^ e) + roundHalfEven c (2 ^ e) := by
    rw [← Nat.succ_mul]
    congr 1
  omega

/-- **STRIDES ARRIVE WHERE SINGLE ADDITIONS DO.** -/
theorem iterate_addRank_of_climb (c : Nat) :
    ∀ fuel e m n r, m ≤ 2 * binade → (e = 0 ∨ binade ≤ m) → c < 2 * binade * 2 ^ e →
      climb c fuel e m n = some r → (addRank c)^[n] (e * binade + m) = r := by
  intro fuel
  induction fuel with
  | zero =>
      intro e m n r _ _ _ hclimb
      cases hclimb
  | succ fuel ih =>
      intro e m n r hm h hc hclimb
      unfold climb at hclimb
      by_cases hnone : n = 0
      · rw [if_pos hnone] at hclimb
        subst hnone
        exact Option.some.inj hclimb
      rw [if_neg hnone] at hclimb
      obtain ⟨n, rfl⟩ : ∃ n', n = n' + 1 := ⟨n - 1, by omega⟩
      by_cases hwithin : m + c / 2 ^ e < 2 * binade
      · rw [if_pos hwithin] at hclimb
        by_cases htie : m % 2 = 0 ∨ 2 * (c % 2 ^ e) ≠ 2 ^ e
        · rw [if_pos htie] at hclimb
          have hstride := iterate_addRank_binade h htie
          by_cases hend : n + 1 ≤ strideLength c e m
          · rw [if_pos hend] at hclimb
            rw [hstride (n + 1) (strideLength_bound hwithin hend)]
            exact Option.some.inj hclimb
          · -- the whole stride, and then the rest
            rw [if_neg hend] at hclimb
            have hsplit : n + 1 = n + 1 - strideLength c e m + strideLength c e m := by omega
            rw [hsplit, Function.iterate_add_apply,
              hstride _ (strideLength_bound hwithin (Nat.le_refl _))]
            exact ih e _ _ r (strideLength_mul_le hwithin)
              (h.imp_right Nat.le_add_right_of_le) hc hclimb
        · rw [if_neg htie] at hclimb
          obtain ⟨sum, hsum, htop, hlow, hrank⟩ := addRank_within hm h hwithin
          rw [hsum] at hclimb
          rw [Function.iterate_succ_apply, hrank]
          exact ih e sum n r htop hlow hc hclimb
      · rw [if_neg hwithin] at hclimb
        obtain ⟨sum, hsum, htop, hlow, hrank⟩ := addRank_leaving hm h hc (Nat.le_of_not_lt hwithin)
        rw [hsum] at hclimb
        rw [Function.iterate_succ_apply, hrank]
        refine ih (e + 1) sum n r htop (Or.inr hlow) (Nat.lt_of_lt_of_le hc ?_) hclimb
        exact Nat.mul_le_mul_left _ (Nat.pow_le_pow_right (by decide) (Nat.le_succ e))

/-! ## §5. Stagnation. -/

theorem addRank_mono {c c' r r' : Nat} (hc : c ≤ c') (hr : r ≤ r') :
    addRank c r ≤ addRank c' r' := by
  have hle : unitsAt r + c ≤ unitsAt r' + c' :=
    Nat.add_le_add (unitsAt_strictMono.monotone hr) hc
  exact nearestRank_le_of_mul_le Nat.one_pos Nat.one_pos (Nat.mul_le_mul_right 1 hle)

/-- **LESS THAN HALF A STEP DOES NOT MOVE A SUM.** -/
theorem addRank_eq_self {c r : Nat} (h : 2 * c < 2 ^ exponentAt r) : addRank c r = r := by
  refine Nat.le_antisymm ?_ (le_addRank c r)
  by_contra hmoves
  obtain ⟨t, ht⟩ : ∃ t, t + 1 = nearestRank (unitsAt r + c) 1 :=
    ⟨addRank c r - 1, Nat.sub_add_cancel (by omega)⟩
  have hrt : r ≤ t := Nat.lt_succ_iff.1 (by rw [Nat.succ_eq_add_one, ht]; exact Nat.not_le.1 hmoves)
  -- half way to the rank before the new one is at least half a step
  have hhalf := nearestRank_le_twice (unitsAt r + c) 1 Nat.one_pos ht
  rw [← ht] at hhalf
  have hlow : unitsAt r ≤ unitsAt t := unitsAt_strictMono.monotone hrt
  have hhigh : unitsAt (r + 1) ≤ unitsAt (t + 1) := unitsAt_strictMono.monotone (by omega)
  rw [unitsAt_succ r] at hhigh
  omega

/-- **A SUM NEVER PASSES A RANK THAT AN ADDITION DOES NOT MOVE.** -/
theorem iterate_addRank_le {c r top : Nat} (hr : r ≤ top) (htop : addRank c top = top) :
    ∀ k, (addRank c)^[k] r ≤ top := by
  intro k
  induction k with
  | zero => exact hr
  | succ k ih =>
      rw [Function.iterate_succ_apply', ← htop]
      exact addRank_mono (Nat.le_refl c) ih

end ArtGrammar
