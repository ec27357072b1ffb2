/-
  ArtGrammar.Proofs.Grammar.Total
  ────────────────────────────────
  **ADDING PROBABILITIES UP.**

  A probability is finite and not negative, so adding one to a MAGNITUDE, which
  is a value of positive sign, gives a magnitude again, and never a smaller one:

      a ≤ a + p         rounding is monotone and keeps magnitudes
      a + p = a         if p is not positive

  A sum that begins at negative zero and one that begins at positive zero are
  equal unless both are zeros (`AgreesUpToZero`).  Neither is not-a-number, so
  the checks of a rule are comparisons of numbers:

      isProbability p   ↔   p is finite and 0 ≤ p
      isUnitTotal t     ↔   |t - 1| ≤ tolerance          t a number
-/
import ArtGrammar.Grammar.Validity
import ArtGrammar.Proofs.Single.Exact

namespace ArtGrammar

/-! ## §1. The tolerance. -/

theorem tolerance_eq : tolerance = .finite false ⟨0x38d1b717, by decide⟩ := rfl

namespace Single

/-! ## §2. Probabilities. -/

/-- **A PROBABILITY IS FINITE AND NOT NEGATIVE.** -/
theorem isProbability_iff {p : Single} :
    p.isProbability = true ↔ p.isFinite = true ∧ 0 ≤ p := by
  unfold isProbability
  rw [Bool.and_eq_true, Bool.not_eq_true', decide_eq_false_iff_not]
  refine and_congr_right fun hfinite => not_lt_iff ?_ ?_
  · rintro rfl
    cases hfinite
  · exact (by decide : (0 : Single) ≠ nan)

/-- A probability is finite, and its signed units are not negative. -/
theorem exists_units_of_isProbability {p : Single} (h : p.isProbability = true) :
    ∃ s r, p = .finite s r ∧ signed s (unitsAt r) = (unitsAt r : Nat) := by
  unfold isProbability at h
  rw [Bool.and_eq_true, Bool.not_eq_true', decide_eq_false_iff_not] at h
  obtain ⟨hfinite, hneg⟩ := h
  cases p with
  | nan => cases hfinite
  | infinite s => cases hfinite
  | finite s r =>
      refine ⟨s, r, rfl, ?_⟩
      cases s with
      | false => rfl
      | true =>
          have hr : ¬ (-(r.val : Int) < 0) := by
            intro hlt
            exact hneg (decide_eq_true hlt)
          have hzero : r.val = 0 := by omega
          rw [hzero]
          rfl

/-- A probability that is not positive is a zero. -/
theorem exists_zero_of_not_pos {p : Single} (hp : p.isProbability = true) (hpos : ¬ 0 < p) :
    ∃ s, p = zero s := by
  obtain ⟨s, r, rfl, hr⟩ := exists_units_of_isProbability hp
  refine ⟨s, ?_⟩
  have hzero : r = ⟨0, by decide⟩ := by
    cases s with
    | false =>
        have h0 : ¬ 0 < r.val := fun h0 => hpos (finite_lt_finite.2 h0)
        exact Fin.ext (Nat.eq_zero_of_not_pos h0)
    | true =>
        have hunits : unitsAt r = 0 := by
          change -(unitsAt r : Int) = _ at hr
          omega
        exact Fin.ext (unitsAt_strictMono.injective (hunits.trans unitsAt_zero.symm))
  rw [hzero]
  rfl

/-! ## §3. Magnitudes. -/

/-- Neither negative nor without a value. -/
def IsMagnitude (v : Single) : Prop := (∃ r, v = .finite false r) ∨ v = .infinite false

theorem IsMagnitude.ne_nan {v : Single} (h : v.IsMagnitude) : v ≠ nan := by
  rcases h with ⟨r, rfl⟩ | rfl
  · exact Single.noConfusion
  · exact Single.noConfusion

theorem isMagnitude_zero : (zero false).IsMagnitude := Or.inl ⟨⟨0, by decide⟩, rfl⟩

theorem isMagnitude_ofUnits (num den : Nat) : (ofUnits false num den).IsMagnitude := by
  unfold ofUnits
  split
  · exact Or.inl ⟨_, rfl⟩
  · exact Or.inr rfl

/-- Rounding a whole number of units to a nearest rank keeps the order. -/
theorem le_nearestRank {r n : Nat} (h : unitsAt r ≤ n) : r ≤ nearestRank n 1 := by
  rw [← nearestRank_unitsAt r 1 Nat.one_pos, Nat.mul_one]
  apply nearestRank_mono Nat.one_pos Nat.one_pos
  exact div_le_div_of_nonneg_right (by exact_mod_cast h) (by simp)

/-- What comes to a magnitude or more in exact units is at least the magnitude
when rounded. -/
theorem le_ofUnits {r : Fin finiteRanks} {n : Nat} (h : unitsAt r ≤ n) :
    finite false r ≤ ofUnits false n 1 := by
  have hrank : r.val ≤ nearestRank n 1 := le_nearestRank h
  unfold ofUnits
  split
  · exact finite_le_finite.2 hrank
  · exact finite_le_infinite _

/-- A positive sum of finite values. -/
theorem finite_add_finite {s t : Bool} {r q : Fin finiteRanks} {n : Nat} (hn : n ≠ 0)
    (h : signed s (unitsAt r) + signed t (unitsAt q) = (n : Int)) :
    finite s r + finite t q = ofUnits false n 1 := by
  show Single.add _ _ = _
  unfold Single.add
  simp only [h]
  rw [if_neg (by omega), Int.natAbs_natCast]
  congr 1

/-- A positive magnitude and a probability: a zero, or their units rounded. -/
theorem finite_add_probability {r : Fin finiteRanks} {p : Single} (hp : p.isProbability = true) :
    finite false r + p = finite false r ∧ unitsAt r = 0
      ∨ ∃ n, unitsAt r ≤ n ∧ finite false r + p = ofUnits false n 1 := by
  obtain ⟨t, q, rfl, hq⟩ := exists_units_of_isProbability hp
  have hsum : signed false (unitsAt r) + signed t (unitsAt q)
      = ((unitsAt r + unitsAt q : Nat) : Int) := by
    rw [hq]
    rfl
  by_cases hzero : unitsAt r + unitsAt q = 0
  · -- two zeros give the positive zero, as the first of them is positive
    left
    have hr : unitsAt r = 0 := by omega
    rw [hzero] at hsum
    have hunits : HasUnits (finite false r + finite t q) false 0 :=
      HasUnits.add_of_zero ⟨r, rfl, rfl⟩ ⟨q, rfl, rfl⟩ hsum
    exact ⟨hunits.unique ⟨r, rfl, hr⟩, hr⟩
  · right
    exact ⟨_, Nat.le_add_right _ _, finite_add_finite hzero hsum⟩

/-- Adding probabilities to a magnitude gives a magnitude. -/
theorem IsMagnitude.add {a p : Single} (ha : a.IsMagnitude) (hp : p.isProbability = true) :
    (a + p).IsMagnitude := by
  rcases ha with ⟨r, rfl⟩ | rfl
  · rcases finite_add_probability (r := r) hp with ⟨h, _⟩ | ⟨n, _, h⟩
    · rw [h]
      exact Or.inl ⟨r, rfl⟩
    · rw [h]
      exact isMagnitude_ofUnits n 1
  · obtain ⟨t, q, rfl, _⟩ := exists_units_of_isProbability hp
    exact Or.inr rfl

/-- **ADDING A PROBABILITY NEVER MAKES A SUM SMALLER.** -/
theorem IsMagnitude.le_add {a p : Single} (ha : a.IsMagnitude) (hp : p.isProbability = true) :
    a ≤ a + p := by
  rcases ha with ⟨r, rfl⟩ | rfl
  · rcases finite_add_probability (r := r) hp with ⟨h, _⟩ | ⟨n, hn, h⟩
    · rw [h]
      exact le_refl Single.noConfusion
    · rw [h]
      exact le_ofUnits hn
  · obtain ⟨t, q, rfl, _⟩ := exists_units_of_isProbability hp
    exact le_refl Single.noConfusion

/-- What is not positive adds nothing. -/
theorem IsMagnitude.add_of_not_pos {a p : Single} (ha : a.IsMagnitude)
    (hp : p.isProbability = true) (hpos : ¬ 0 < p) : a + p = a := by
  obtain ⟨s, rfl⟩ := exists_zero_of_not_pos hp hpos
  rcases ha with ⟨r, rfl⟩ | rfl
  · rcases finite_add_probability (r := r) hp with ⟨h, _⟩ | ⟨n, _, h⟩
    · exact h
    · show Single.add _ _ = _
      unfold Single.add zero
      have hsum : signed false (unitsAt r) + signed s (unitsAt 0) = (unitsAt r : Int) := by
        cases s with
        | false => exact Int.add_zero _
        | true => exact Int.add_zero _
      simp only [hsum]
      split
      next hr =>
        have hrank : r = ⟨0, by decide⟩ :=
          Fin.ext (unitsAt_strictMono.injective (Int.ofNat.inj hr))
        rw [hrank]
        rfl
      next =>
        rw [Int.natAbs_natCast, decide_eq_false (by omega)]
        have hkeep := ofUnits_unitsAt false r 1 Nat.one_pos
        rwa [Nat.mul_one] at hkeep
  · rfl

/-! ## §4. The two zeros. -/

/-- Equal, or the two zeros. -/
def AgreesUpToZero (a b : Single) : Prop := a = b ∨ (a = zero true ∧ b = zero false)

/-- The zeros cannot be told apart by what is added to them, zeros aside. -/
theorem AgreesUpToZero.add {a b : Single} (h : a.AgreesUpToZero b) (c : Single) :
    (a + c).AgreesUpToZero (b + c) := by
  rcases h with rfl | ⟨rfl, rfl⟩
  · exact Or.inl rfl
  cases c with
  | nan => exact Or.inl rfl
  | infinite s => exact Or.inl rfl
  | finite s r =>
      show (Single.add _ _).AgreesUpToZero (Single.add _ _)
      unfold Single.add zero
      simp only
      have hneg : signed true (unitsAt 0) = 0 := rfl
      have hpos : signed false (unitsAt 0) = 0 := rfl
      rw [hneg, hpos, Int.zero_add]
      -- only the sum of two zeros shows the sign of a zero
      by_cases hzero : signed s (unitsAt r) = 0
      · rw [if_pos hzero, if_pos hzero]
        cases s with
        | false => exact Or.inl rfl
        | true => exact Or.inr ⟨rfl, rfl⟩
      · rw [if_neg hzero, if_neg hzero]
        exact Or.inl rfl

/-! ## §5. Distance to one. -/

theorem abs_ofUnits (s : Bool) (num den : Nat) :
    (ofUnits s num den).abs = ofUnits false num den := by
  unfold ofUnits
  split
  · rfl
  · rfl

/-- The distance of a number to one is a number. -/
theorem abs_sub_one_ne_nan {t : Single} (h : t ≠ nan) : (t - 1).abs ≠ nan := by
  cases t with
  | nan => exact absurd rfl h
  | infinite s => exact Single.noConfusion
  | finite s r =>
      show (Single.add (finite s r) (Single.neg 1)).abs ≠ nan
      rw [one_eq]
      unfold Single.neg Single.add
      simp only
      split
      · exact Single.noConfusion
      · rw [abs_ofUnits]
        exact (isMagnitude_ofUnits _ 1).ne_nan

/-- **A TOTAL IS ACCEPTED IF ITS DISTANCE TO ONE IS AT MOST THE TOLERANCE.** -/
theorem isUnitTotal_iff {t : Single} (h : t ≠ nan) :
    t.isUnitTotal = true ↔ (t - 1).abs ≤ tolerance := by
  unfold isUnitTotal
  rw [Bool.not_eq_true', decide_eq_false_iff_not]
  exact not_lt_iff Single.noConfusion (abs_sub_one_ne_nan h)

end Single

/-! ## §6. Sums of probabilities. -/

namespace Branch

/-- The two totals are equal unless both are zeros. -/
theorem agreesUpToZero_foldl (branches : List Branch) :
    ∀ {a b : Single}, a.AgreesUpToZero b →
      (branches.foldl (fun sum c => sum + c.probability) a).AgreesUpToZero
        (branches.foldl (fun sum c => sum + c.probability) b) := by
  induction branches with
  | nil =>
      intro a b h
      exact h
  | cons c rest ih =>
      intro a b h
      exact ih (h.add c.probability)

/-- Sums of probabilities are magnitudes. -/
theorem isMagnitude_foldl (branches : List Branch) :
    ∀ {sum : Single}, (∀ b ∈ branches, b.probability.isProbability = true) → sum.IsMagnitude →
      (branches.foldl (fun sum b => sum + b.probability) sum).IsMagnitude := by
  induction branches with
  | nil =>
      intro sum _ hsum
      exact hsum
  | cons b rest ih =>
      intro sum hall hsum
      exact ih (fun c hc => hall c (List.mem_cons_of_mem b hc))
        (hsum.add (hall b List.mem_cons_self))

/-- Without a positive probability a sum stays what it is. -/
theorem foldl_eq_self (branches : List Branch) :
    ∀ {sum : Single}, (∀ b ∈ branches, b.probability.isProbability = true) →
      (∀ b ∈ branches, ¬ 0 < b.probability) → sum.IsMagnitude →
      branches.foldl (fun sum b => sum + b.probability) sum = sum := by
  induction branches with
  | nil =>
      intro _ _ _ _
      rfl
  | cons b rest ih =>
      intro sum hall hnot hsum
      rw [List.foldl_cons, hsum.add_of_not_pos (hall b List.mem_cons_self)
        (hnot b List.mem_cons_self)]
      exact ih (fun c hc => hall c (List.mem_cons_of_mem b hc))
        (fun c hc => hnot c (List.mem_cons_of_mem b hc)) hsum

/-- The total of a rule is the sum that rolls are compared with, up to zero. -/
theorem agreesUpToZero_total (branches : List Branch) :
    (total branches).AgreesUpToZero (branches.foldl (fun sum b => sum + b.probability) 0) :=
  agreesUpToZero_foldl branches (Or.inr ⟨rfl, rfl⟩)

/-- A total of probabilities is a number. -/
theorem total_ne_nan {branches : List Branch}
    (hall : ∀ b ∈ branches, b.probability.isProbability = true) : total branches ≠ .nan := by
  rcases agreesUpToZero_total branches with h | ⟨h, _⟩
  · rw [h]
    exact (isMagnitude_foldl branches hall Single.isMagnitude_zero).ne_nan
  · rw [h]
    exact Single.noConfusion

end Branch

end ArtGrammar
