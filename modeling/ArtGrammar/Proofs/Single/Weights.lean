/-
  ArtGrammar.Proofs.Single.Weights
  ────────────────────────────────
  **ZERO AND ONE AS WEIGHTS.**

  A weighted sum with the weights one and zero picks one of its operands, as far as
  the other is finite:

      1 * v  =  v               whatever v is
      0 * v  =  a zero          v finite
      0 * v  =  not-a-number    v infinite or not-a-number
      v + 0  is the number v

  Signs of zeros get lost on the way, so numbers are compared, not values: two values
  are the same number if they are equal as numbers or both not-a-number, which is to
  say that they have the same place.
-/
import ArtGrammar.Proofs.Single.Monotone

namespace ArtGrammar

namespace Single

/-! ## §1. Numbers. -/

/-- Numerically equal, or both not-a-number. -/
def SameNumber (a b : Single) : Prop := a.numEq b = true ∨ a = nan ∧ b = nan

instance (a b : Single) : Decidable (SameNumber a b) := inferInstanceAs (Decidable (_ ∨ _))

theorem place_eq_none_iff {a : Single} : a.place = none ↔ a = nan := by
  cases a with
  | nan => exact ⟨fun _ => rfl, fun _ => rfl⟩
  | infinite s => exact ⟨nofun, nofun⟩
  | finite s r => exact ⟨nofun, nofun⟩

theorem numEq_iff_place {a b : Single} :
    a.numEq b = true ↔ ∃ i, a.place = some i ∧ b.place = some i := by
  unfold numEq compares
  cases a.place with
  | none => simp
  | some i =>
      cases b.place with
      | none => simp
      | some j => simp [eq_comm]

/-- **VALUES AT THE SAME PLACE ARE THE SAME NUMBER.** -/
theorem sameNumber_of_place {a b : Single} (h : a.place = b.place) : a.SameNumber b := by
  cases ha : a.place with
  | none => exact Or.inr ⟨place_eq_none_iff.1 ha, place_eq_none_iff.1 (h.symm.trans ha)⟩
  | some i => exact Or.inl (numEq_iff_place.2 ⟨i, ha, h.symm.trans ha⟩)

/-! ## §2. Products. -/

/-- One is neutral. -/
theorem one_mul (v : Single) : 1 * v = v := by
  cases v with
  | nan => rfl
  | infinite s => cases s <;> rfl
  | finite s r =>
      show ofUnits (false != s) (unitsAt 0x3f800000 * unitsAt r) unitsPerOne = _
      rw [Bool.false_bne, unitsAt_one, Nat.mul_comm]
      exact ofUnits_unitsAt s r (2 ^ 149) (Nat.two_pow_pos 149)

/-- Zero times a finite value is a zero, -/
theorem zero_mul_of_isFinite {v : Single} (h : v.isFinite = true) : ∃ s, 0 * v = zero s := by
  cases v with
  | nan => cases h
  | infinite s => cases h
  | finite s r =>
      refine ⟨s, ?_⟩
      show ofUnits (false != s) (unitsAt 0 * unitsAt r) unitsPerOne = _
      have hzero := ofUnits_unitsAt s ⟨0, by decide⟩ (2 ^ 149) (Nat.two_pow_pos 149)
      rw [unitsAt_zero, Nat.zero_mul] at hzero
      rw [Bool.false_bne, unitsAt_zero, Nat.zero_mul]
      exact hzero

/-- and zero times anything else has no value. -/
theorem zero_mul_of_not_isFinite {v : Single} (h : v.isFinite = false) : 0 * v = nan := by
  cases v with
  | nan => rfl
  | infinite s => rfl
  | finite s r => cases h

/-! ## §3. Sums. -/

theorem signed_zero (s : Bool) : signed s 0 = 0 := by
  cases s <;> rfl

/-- The value of exact units stays at its place when rounded. -/
theorem place_ofSigned_unitsAt (s : Bool) (r : Fin finiteRanks) :
    (ofSigned (signed s (unitsAt r)) 1).place = (finite s r).place := by
  rw [← place_ofUnits_eq s (unitsAt r) Nat.one_pos]
  have hkeep := ofUnits_unitsAt s r 1 Nat.one_pos
  rw [Nat.mul_one] at hkeep
  rw [hkeep]

/-- **A ZERO ADDS NOTHING**, the sign of a zero apart. -/
theorem place_add_zero (v : Single) (t : Bool) : (v + zero t).place = v.place := by
  cases v with
  | nan => rfl
  | infinite s => rfl
  | finite s r =>
      have hzero : (finite s r + zero t).place
          = (ofSigned (signed s (unitsAt r) + signed t (unitsAt 0)) 1).place :=
        place_finite_add_finite s t r ⟨0, by decide⟩
      rw [hzero, unitsAt_zero, signed_zero, Int.add_zero, place_ofSigned_unitsAt]

theorem place_zero_add (v : Single) (t : Bool) : (zero t + v).place = v.place := by
  cases v with
  | nan => rfl
  | infinite s => rfl
  | finite s r =>
      have hzero : (zero t + finite s r).place
          = (ofSigned (signed t (unitsAt 0) + signed s (unitsAt r)) 1).place :=
        place_finite_add_finite t s ⟨0, by decide⟩ r
      rw [hzero, unitsAt_zero, signed_zero, Int.zero_add, place_ofSigned_unitsAt]

theorem add_nan (v : Single) : v + nan = nan := by
  cases v <;> rfl

/-! ## §4. Weighted sums. -/

/-- The number is the one taken, and what is not taken disturbs it exactly if that is
not finite. -/
structure Selects (v taken other : Single) : Prop where
  taken : other.isFinite = true → v.SameNumber taken
  disturbed : other.isFinite = false → v = nan

/-- **A WEIGHTED SUM SELECTS**, be the weight of one on the left, -/
theorem selects_left (taken other : Single) : Selects (1 * taken + 0 * other) taken other where
  taken := by
    intro h
    obtain ⟨s, hzero⟩ := zero_mul_of_isFinite h
    rw [one_mul, hzero]
    exact sameNumber_of_place (place_add_zero taken s)
  disturbed := by
    intro h
    rw [zero_mul_of_not_isFinite h]
    exact add_nan _

/-- or on the right. -/
theorem selects_right (taken other : Single) : Selects (0 * other + 1 * taken) taken other where
  taken := by
    intro h
    obtain ⟨s, hzero⟩ := zero_mul_of_isFinite h
    rw [one_mul, hzero]
    exact sameNumber_of_place (place_zero_add taken s)
  disturbed := by
    intro h
    rw [zero_mul_of_not_isFinite h]
    rfl

end Single

/-! ## §5. Weights of a truth value. -/

theorem one_sub_one : (1 : Single) - 1 = 0 := by decide

theorem one_sub_zero : (1 : Single) - 0 = 1 := by decide

/-- The weight of the other side is that of the negation. -/
theorem one_sub_weight (b : Bool) :
    (1 : Single) - (if b then 1 else 0) = if (!b) then 1 else 0 := by
  cases b with
  | false => exact one_sub_zero
  | true => exact one_sub_one

end ArtGrammar
