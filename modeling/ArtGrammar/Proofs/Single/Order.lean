/-
  ArtGrammar.Proofs.Single.Order
  ────────────────────────────────
  **THE ORDER OF VALUES IS THE ORDER OF THEIR PLACES.**

  Values are compared by their places on the number line, and not-a-number has
  none.  So whatever holds of integers holds of the places:

      a ≤ b    ↔   i ≤ j   for the places i of a and j of b
      ¬ a ≤ b  ↔   b < a   unless one of them is not-a-number
-/
import ArtGrammar.Single.Basic
import Mathlib.Tactic.ByContra

namespace ArtGrammar.Single

/-! ## §1. Comparison by place. -/

theorem le_iff_place {a b : Single} :
    a ≤ b ↔ ∃ i j, a.place = some i ∧ b.place = some j ∧ i ≤ j := by
  show compares _ a b = true ↔ _
  unfold compares
  cases a.place with
  | none => simp
  | some i =>
      cases b.place with
      | none => simp
      | some j => simp

theorem lt_iff_place {a b : Single} :
    a < b ↔ ∃ i j, a.place = some i ∧ b.place = some j ∧ i < j := by
  show compares _ a b = true ↔ _
  unfold compares
  cases a.place with
  | none => simp
  | some i =>
      cases b.place with
      | none => simp
      | some j => simp

/-- Not-a-number alone has no place. -/
theorem exists_place {a : Single} (h : a ≠ nan) : ∃ i, a.place = some i := by
  cases a with
  | nan => exact absurd rfl h
  | infinite s => exact ⟨_, rfl⟩
  | finite s r => exact ⟨_, rfl⟩

theorem ne_nan_of_place {a : Single} {i : Int} (h : a.place = some i) : a ≠ nan := by
  rintro rfl
  cases h

/-! ## §2. Laws of the order. -/

theorem le_refl {a : Single} (h : a ≠ nan) : a ≤ a := by
  obtain ⟨i, hi⟩ := exists_place h
  exact le_iff_place.2 ⟨i, i, hi, hi, Int.le_refl i⟩

/-- The order by places is transitive. -/
theorem le_trans {a b c : Single} (hab : a ≤ b) (hbc : b ≤ c) : a ≤ c := by
  obtain ⟨i, j, ha, hb, hij⟩ := le_iff_place.1 hab
  obtain ⟨j', k, hb', hc, hjk⟩ := le_iff_place.1 hbc
  rw [hb] at hb'
  cases hb'
  exact le_iff_place.2 ⟨i, k, ha, hc, by omega⟩

theorem not_le_of_lt {a b : Single} (h : a < b) : ¬ b ≤ a := by
  obtain ⟨i, j, ha, hb, hij⟩ := lt_iff_place.1 h
  intro hle
  obtain ⟨j', i', hb', ha', hji⟩ := le_iff_place.1 hle
  rw [ha] at ha'
  rw [hb] at hb'
  cases ha'
  cases hb'
  omega

/-- Values with places are ordered one way or the other. -/
theorem lt_of_not_le {a b : Single} (ha : a ≠ nan) (hb : b ≠ nan) (h : ¬ a ≤ b) : b < a := by
  obtain ⟨i, hi⟩ := exists_place ha
  obtain ⟨j, hj⟩ := exists_place hb
  have hij : ¬ i ≤ j := fun hle => h (le_iff_place.2 ⟨i, j, hi, hj, hle⟩)
  exact lt_iff_place.2 ⟨j, i, hj, hi, by omega⟩

theorem not_lt_iff {a b : Single} (ha : a ≠ nan) (hb : b ≠ nan) : ¬ a < b ↔ b ≤ a := by
  constructor
  · intro h
    by_contra hle
    exact h (lt_of_not_le hb ha hle)
  · exact fun hle hlt => not_le_of_lt hlt hle

/-- What is compared with success is a number. -/
theorem ne_nan_of_le {a b : Single} (h : a ≤ b) : a ≠ nan ∧ b ≠ nan := by
  obtain ⟨i, j, ha, hb, _⟩ := le_iff_place.1 h
  exact ⟨ne_nan_of_place ha, ne_nan_of_place hb⟩

/-! ## §3. Positive values. -/

theorem finite_le_finite {r r' : Fin finiteRanks} :
    finite false r ≤ finite false r' ↔ r.val ≤ r'.val := by
  show decide ((r.val : Int) ≤ r'.val) = true ↔ _
  rw [decide_eq_true_eq]
  exact Int.ofNat_le

theorem finite_lt_finite {r r' : Fin finiteRanks} :
    finite false r < finite false r' ↔ r.val < r'.val := by
  show decide ((r.val : Int) < r'.val) = true ↔ _
  rw [decide_eq_true_eq]
  exact Int.ofNat_lt

theorem finite_lt_infinite (r : Fin finiteRanks) : finite false r < infinite false := by
  show decide ((r.val : Int) < (finiteRanks : Nat)) = true
  rw [decide_eq_true_eq]
  exact Int.ofNat_lt.2 r.isLt

theorem finite_le_infinite (r : Fin finiteRanks) : finite false r ≤ infinite false := by
  show decide ((r.val : Int) ≤ (finiteRanks : Nat)) = true
  rw [decide_eq_true_eq]
  exact Int.ofNat_le.2 (Nat.le_of_lt r.isLt)

end ArtGrammar.Single
