/-
  ArtGrammar.Proofs.Single.Monotone
  ────────────────────────────────
  **ROUNDED ARITHMETIC KEEPS THE ORDER.**

  Finite values are ordered like their signed units, and rounding is monotone.  So
  an operation that rounds once keeps the order if the exact one does, and the
  infinities stay at the ends:

      a ≤ b   →   a + c ≤ b + c      c finite
      a ≤ b   →   a * c ≤ b * c      c finite and positive
      a ≤ b   →   a / c ≤ b / c      c finite and positive

  All three are one statement about operations that round (`Rounds.le`).
-/
import ArtGrammar.Proofs.Single.Exact

namespace ArtGrammar.Single

/-! ## §1. The order of finite and of infinite values. -/

/-- Values at the same places are ordered alike. -/
theorem le_congr {a a' b b' : Single} (ha : a.place = a'.place) (hb : b.place = b'.place) :
    a ≤ b ↔ a' ≤ b' := by
  rw [le_iff_place, le_iff_place, ha, hb]

/-- **FINITE VALUES ARE ORDERED BY THEIR SIGNED UNITS.** -/
theorem finite_le_iff {s t : Bool} {r q : Fin finiteRanks} :
    finite s r ≤ finite t q ↔ signed s (unitsAt r) ≤ signed t (unitsAt q) := by
  have hplace : finite s r ≤ finite t q ↔ signed s r ≤ signed t q := decide_eq_true_iff
  have hrq : unitsAt r ≤ unitsAt q ↔ r.val ≤ q.val := unitsAt_strictMono.le_iff_le
  have hqr : unitsAt q ≤ unitsAt r ↔ q.val ≤ r.val := unitsAt_strictMono.le_iff_le
  -- between the signs only the zeros are equal
  have hr : unitsAt r ≤ 0 ↔ r.val ≤ 0 := unitsAt_strictMono.le_iff_le (b := 0)
  have hq : unitsAt q ≤ 0 ↔ q.val ≤ 0 := unitsAt_strictMono.le_iff_le (b := 0)
  rw [hplace]
  unfold signed
  cases s with
  | false =>
      cases t with
      | false => simp only [Bool.false_eq_true, if_false]; omega
      | true => simp only [Bool.false_eq_true, if_false, if_true]; omega
  | true =>
      cases t with
      | false => simp only [Bool.false_eq_true, if_false, if_true]; omega
      | true => simp only [if_true]; omega

/-- Finite values lie strictly between the infinities. -/
theorem lt_signed_lt (s : Bool) (r : Fin finiteRanks) :
    -(finiteRanks : Int) < signed s r ∧ signed s r < (finiteRanks : Int) := by
  have hr := r.isLt
  unfold signed
  split
  · omega
  · omega

/-- The negative infinity is below all numbers, -/
theorem infinite_true_le {b : Single} (hb : b ≠ nan) : infinite true ≤ b := by
  cases b with
  | nan => exact absurd rfl hb
  | infinite t => cases t <;> decide
  | finite t q => exact decide_eq_true (lt_signed_lt t q).1.le

/-- and the positive one above. -/
theorem le_infinite_false {a : Single} (ha : a ≠ nan) : a ≤ infinite false := by
  cases a with
  | nan => exact absurd rfl ha
  | infinite s => cases s <;> decide
  | finite s r => exact decide_eq_true (lt_signed_lt s r).2.le

/-- Nothing else is above the positive infinity, -/
theorem eq_of_infinite_false_le {b : Single} (h : infinite false ≤ b) : b = infinite false := by
  cases b with
  | nan => exact absurd rfl (ne_nan_of_le h).2
  | infinite t =>
      cases t with
      | false => rfl
      | true => exact absurd h (by decide)
  | finite t q => exact absurd (of_decide_eq_true h) (Int.not_le.2 (lt_signed_lt t q).2)

/-- or below the negative one. -/
theorem eq_of_le_infinite_true {a : Single} (h : a ≤ infinite true) : a = infinite true := by
  cases a with
  | nan => exact absurd rfl (ne_nan_of_le h).1
  | infinite s =>
      cases s with
      | true => rfl
      | false => exact absurd h (by decide)
  | finite s r => exact absurd (of_decide_eq_true h) (Int.not_le.2 (lt_signed_lt s r).1)

/-! ## §2. Rounding signed quotients. -/

/-- The value nearest to `num / den` units, of the sign of `num`. -/
def ofSigned (num : Int) (den : Nat) : Single := ofUnits (decide (num < 0)) num.natAbs den

theorem place_ofUnits (s : Bool) (num den : Nat) :
    (ofUnits s num den).place = some (signed s (min finiteRanks (nearestRank num den))) := by
  unfold ofUnits
  split
  next h => rw [Nat.min_eq_right h.le]; rfl
  next h => rw [Nat.min_eq_left (Nat.le_of_not_lt h)]; rfl

theorem nearestRank_zero {den : Nat} (hden : 0 < den) : nearestRank 0 den = 0 := by
  have h := nearestRank_unitsAt 0 den hden
  rwa [unitsAt_zero, Nat.zero_mul] at h

/-- The sign of a zero has no place. -/
theorem place_ofUnits_eq (s : Bool) (num : Nat) {den : Nat} (hden : 0 < den) :
    (ofUnits s num den).place = (ofSigned (signed s num) den).place := by
  cases s with
  | false =>
      have hsign : decide ((num : Int) < 0) = false := decide_eq_false (by omega)
      show _ = (ofUnits (decide ((num : Int) < 0)) num den).place
      rw [hsign]
  | true =>
      have hnum : (-(num : Int)).natAbs = num := by omega
      show _ = (ofUnits (decide (-(num : Int) < 0)) (-(num : Int)).natAbs den).place
      rw [hnum]
      by_cases hzero : num = 0
      · subst hzero
        rw [place_ofUnits, place_ofUnits, nearestRank_zero hden]
        rfl
      · rw [decide_eq_true (by omega)]

/-- **ROUNDING IS MONOTONE**, also from one sign to the other. -/
theorem ofSigned_mono {m n : Int} {den : Nat} (hden : 0 < den) (h : m ≤ n) :
    ofSigned m den ≤ ofSigned n den := by
  have hmono : ∀ {k l : Nat}, k ≤ l → nearestRank k den ≤ nearestRank l den := by
    intro k l hkl
    apply nearestRank_mono hden hden
    exact div_le_div_of_nonneg_right (by exact_mod_cast hkl) (by positivity)
  rw [le_iff_place]
  refine ⟨_, _, place_ofUnits _ _ _, place_ofUnits _ _ _, ?_⟩
  unfold signed
  split
  next hm =>
    split
    next hn =>
      have hle := hmono (k := n.natAbs) (l := m.natAbs) (by
        rw [decide_eq_true_iff] at hm hn
        omega)
      omega
    next hn => omega
  next hm =>
    split
    next hn =>
      rw [decide_eq_true_iff] at hm hn
      omega
    next hn =>
      have hle := hmono (k := m.natAbs) (l := n.natAbs) (by
        rw [decide_eq_true_iff] at hm hn
        omega)
      omega

/-! ## §3. Operations that round once. -/

/-- The operation rounds an exact one that keeps the order, and leaves the infinities
as they are. -/
structure Rounds (f : Single → Single) (exact : Int → Int) (den : Nat) : Prop where
  den_pos : 0 < den
  exact_mono : ∀ m n, m ≤ n → exact m ≤ exact n
  finite : ∀ s r, (f (finite s r)).place = (ofSigned (exact (signed s (unitsAt r))) den).place
  infinite : ∀ s, f (infinite s) = infinite s

variable {a b c : Single}

theorem place_ofSigned_ne_none (m : Int) (den : Nat) : (ofSigned m den).place ≠ none := by
  unfold ofSigned
  rw [place_ofUnits]
  exact Option.some_ne_none _

/-- **AN OPERATION THAT ROUNDS ONCE KEEPS THE ORDER.** -/
theorem Rounds.le {f : Single → Single} {exact : Int → Int} {den : Nat} (hf : Rounds f exact den)
    (h : a ≤ b) : f a ≤ f b := by
  -- numbers stay numbers
  have hnan : ∀ v, v ≠ nan → f v ≠ nan := by
    intro v hv hfv
    cases v with
    | nan => exact hv rfl
    | infinite s => exact Single.noConfusion ((hf.infinite s).symm.trans hfv)
    | finite s r =>
        have hplace := hf.finite s r
        rw [hfv] at hplace
        exact place_ofSigned_ne_none _ _ hplace.symm
  obtain ⟨ha, hb⟩ := ne_nan_of_le h
  cases a with
  | nan => exact absurd rfl ha
  | infinite s =>
      cases s with
      | true =>
          rw [hf.infinite]
          exact infinite_true_le (hnan b hb)
      | false =>
          rw [eq_of_infinite_false_le h]
          exact le_refl (hnan _ Single.noConfusion)
  | finite s r =>
      cases b with
      | nan => exact absurd rfl hb
      | infinite t =>
          cases t with
          | true => exact Single.noConfusion (eq_of_le_infinite_true h)
          | false =>
              rw [hf.infinite]
              exact le_infinite_false (hnan _ ha)
      | finite t q =>
          rw [le_congr (hf.finite s r) (hf.finite t q)]
          exact ofSigned_mono hf.den_pos (hf.exact_mono _ _ (finite_le_iff.1 h))

/-! ## §4. Sums, products and quotients. -/

theorem place_finite_add_finite (s t : Bool) (r q : Fin finiteRanks) :
    (finite s r + finite t q).place
      = (ofSigned (signed s (unitsAt r) + signed t (unitsAt q)) 1).place := by
  show (Single.add _ _).place = _
  unfold Single.add
  simp only
  split
  next h =>
    rw [h]
    cases s <;> cases t <;> decide
  next => rfl

theorem rounds_add (t : Bool) (q : Fin finiteRanks) :
    Rounds (· + finite t q) (· + signed t (unitsAt q)) 1 where
  den_pos := Nat.one_pos
  exact_mono := fun _ _ h => Int.add_le_add_right h _
  finite := fun s r => place_finite_add_finite s t r q
  infinite := fun _ => rfl

/-- Adding a finite value keeps the order. -/
theorem add_le_add_right (h : a ≤ b) (hc : c.isFinite = true) : a + c ≤ b + c := by
  cases c with
  | nan => cases hc
  | infinite t => cases hc
  | finite t q => exact (rounds_add t q).le h

theorem signed_mul (s : Bool) (m n : Nat) : signed s (m * n) = signed s m * n := by
  unfold signed
  split
  · push_cast
    ring
  · push_cast
    ring

/-- A finite positive value has a positive rank. -/
theorem exists_rank_of_pos (hc : c.isFinite = true) (hpos : 0 < c) :
    ∃ q, c = finite false q ∧ q.val ≠ 0 := by
  cases c with
  | nan => cases hc
  | infinite t => cases hc
  | finite t q =>
      have hplace : (0 : Int) < signed t q := of_decide_eq_true hpos
      cases t with
      | true =>
          change (0 : Int) < -q.val at hplace
          omega
      | false =>
          change (0 : Int) < q.val at hplace
          exact ⟨q, rfl, by omega⟩

theorem rounds_mul {q : Fin finiteRanks} (hq : q.val ≠ 0) :
    Rounds (· * finite false q) (· * unitsAt q) unitsPerOne where
  den_pos := Nat.two_pow_pos 149
  exact_mono := fun _ _ h => Int.mul_le_mul_of_nonneg_right h (Int.natCast_nonneg _)
  finite := by
    intro s r
    show (ofUnits (s != false) (unitsAt r * unitsAt q) unitsPerOne).place = _
    rw [Bool.bne_false, place_ofUnits_eq s _ (Nat.two_pow_pos 149), signed_mul]
  infinite := by
    intro s
    show (if q.val = 0 then nan else infinite (s != false)) = _
    rw [if_neg hq, Bool.bne_false]

/-- Multiplying by a finite positive value keeps the order. -/
theorem mul_le_mul_right (h : a ≤ b) (hc : c.isFinite = true) (hpos : 0 < c) :
    a * c ≤ b * c := by
  obtain ⟨q, rfl, hq⟩ := exists_rank_of_pos hc hpos
  exact (rounds_mul hq).le h

theorem unitsAt_pos {q : Nat} (hq : q ≠ 0) : 0 < unitsAt q := by
  rw [← unitsAt_zero]
  exact unitsAt_strictMono (Nat.pos_of_ne_zero hq)

theorem rounds_div {q : Fin finiteRanks} (hq : q.val ≠ 0) :
    Rounds (· / finite false q) (· * unitsPerOne) (unitsAt q) where
  den_pos := unitsAt_pos hq
  exact_mono := fun _ _ h => Int.mul_le_mul_of_nonneg_right h (Int.natCast_nonneg _)
  finite := by
    intro s r
    show (if q.val = 0 then if r.val = 0 then nan else infinite (s != false)
      else ofUnits (s != false) (unitsAt r * unitsPerOne) (unitsAt q)).place = _
    rw [if_neg hq, Bool.bne_false, place_ofUnits_eq s _ (unitsAt_pos hq), signed_mul]
  infinite := by
    intro s
    show infinite (s != false) = _
    rw [Bool.bne_false]

/-- Dividing by a finite positive value keeps the order. -/
theorem div_le_div_right (h : a ≤ b) (hc : c.isFinite = true) (hpos : 0 < c) :
    a / c ≤ b / c := by
  obtain ⟨q, rfl, hq⟩ := exists_rank_of_pos hc hpos
  exact (rounds_div hq).le h

end ArtGrammar.Single
