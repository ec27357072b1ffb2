/-
  ArtGrammar.Proofs.Image.Channel
  ────────────────────────────────
  **FROM A NUMBER TO A BYTE.**

  A number becomes a byte in three steps, each of which keeps the order:

      v   ── half of v + 1 ──▶  ── clamp ──▶  c in [0, 1]   ── 255 * c, rounded ──▶  byte

  What has been cut off is neither negative nor above one, also where it was an infinity
  or not-a-number.  So the scaled channel lies in the range of the bytes, where rounding
  goes to the nearest one and nothing is cut off again.
-/
import ArtGrammar.Image.Raster
import ArtGrammar.Proofs.Single.Weights

namespace ArtGrammar

namespace Single

/-! ## §1. Cutting off. -/

/-- **WHAT IS CUT OFF IS A MAGNITUDE OF ONE AT MOST**, and its place is that of the number,
brought into this range. -/
theorem exists_rank_clamp (v : Single) :
    ∃ r : Fin finiteRanks, v.clamp = finite false r ∧ r.val ≤ 0x3f800000
      ∧ ∀ i, v.place = some i → (r.val : Int) = min (max i 0) 0x3f800000 := by
  cases v with
  | nan => exact ⟨⟨0, by decide⟩, by decide, by decide, nofun⟩
  | infinite s =>
      cases s with
      | false => exact ⟨⟨0x3f800000, by decide⟩, by decide, by decide, by rintro _ ⟨⟩; decide⟩
      | true => exact ⟨⟨0, by decide⟩, by decide, by decide, by rintro _ ⟨⟩; decide⟩
  | finite s r =>
      by_cases hpos : 0 < finite s r
      · -- a positive number is left for the comparison with one
        obtain ⟨_, ⟨⟩, hr⟩ := exists_rank_of_pos rfl hpos
        by_cases hlt : r.val < 0x3f800000
        · refine ⟨r, ?_, hlt.le, ?_⟩
          · unfold clamp
            rw [if_pos hpos]
            exact if_pos (finite_lt_finite.2 hlt)
          · rintro _ ⟨⟩
            show (r.val : Int) = min (max (r.val : Int) 0) _
            omega
        · refine ⟨⟨0x3f800000, by decide⟩, ?_, Nat.le_refl _, ?_⟩
          · unfold clamp
            rw [if_pos hpos]
            exact if_neg fun h => hlt (finite_lt_finite.1 h)
          · rintro _ ⟨⟩
            show (0x3f800000 : Int) = min (max (r.val : Int) 0) _
            omega
      · -- zeros and negative numbers become the positive zero
        refine ⟨⟨0, by decide⟩, ?_, by decide, ?_⟩
        · unfold clamp
          rw [if_neg hpos]
          decide
        · rintro _ ⟨⟩
          have hplace : ¬ (0 : Int) < signed s r := fun h => hpos (decide_eq_true h)
          show (0 : Int) = min (max (signed s r) 0) _
          omega

theorem le_clamp (v : Single) : 0 ≤ v.clamp := by
  obtain ⟨r, hr, _⟩ := exists_rank_clamp v
  rw [hr]
  exact finite_le_finite.2 (Nat.zero_le _)

theorem clamp_le (v : Single) : v.clamp ≤ 1 := by
  obtain ⟨r, hr, hle, _⟩ := exists_rank_clamp v
  rw [hr]
  exact finite_le_finite.2 hle

/-- Cutting off keeps the order. -/
theorem clamp_mono {a b : Single} (h : a ≤ b) : a.clamp ≤ b.clamp := by
  obtain ⟨i, j, ha, hb, hij⟩ := le_iff_place.1 h
  obtain ⟨r, hr, _, hplace⟩ := exists_rank_clamp a
  obtain ⟨q, hq, _, hplace'⟩ := exists_rank_clamp b
  have hri := hplace i ha
  have hqj := hplace' j hb
  rw [hr, hq, finite_le_finite]
  omega

/-- So does the way to the channel. -/
theorem toChannel_mono {a b : Single} (h : a ≤ b) : a.toChannel ≤ b.toChannel :=
  clamp_mono (mul_le_mul_right (add_le_add_right h rfl) rfl (by decide))

/-! ## §2. Rounding to a byte. -/

/-- The value is not negative, and the number is the nearest to it, the greater one of two
equally near. -/
def RoundsTo (v : Single) (n : Nat) : Prop :=
  ∃ r : Fin finiteRanks, v = finite false r
    ∧ (n - 1 / 2 : ℚ) ≤ unitsAt r / unitsPerOne ∧ (unitsAt r / unitsPerOne : ℚ) < n + 1 / 2

/-- Adding half and cutting off the fraction rounds to the nearest number. -/
theorem half_up (units : Nat) {one : Nat} (hone : 0 < one) :
    (((2 * units + one) / (2 * one) : Nat) - 1 / 2 : ℚ) ≤ units / one
      ∧ (units / one : ℚ) < ((2 * units + one) / (2 * one) : Nat) + 1 / 2 := by
  have hlow := Nat.div_mul_le_self (2 * units + one) (2 * one)
  have hhigh := Nat.lt_div_mul_add (a := 2 * units + one) (show 0 < 2 * one by omega)
  generalize (2 * units + one) / (2 * one) = n at *
  have hpos : (0 : ℚ) < one := by exact_mod_cast hone
  constructor
  · rw [le_div_iff₀ hpos]
    have hcast : (n * (2 * one) : ℚ) ≤ 2 * units + one := by exact_mod_cast hlow
    linarith
  · rw [div_lt_iff₀ hpos]
    have hcast : (2 * units + one : ℚ) < n * (2 * one) + 2 * one := by exact_mod_cast hhigh
    linarith

theorem toNat_toByte (r : Fin finiteRanks) :
    (finite false r).toByte.toNat
      = min 255 ((2 * unitsAt r + unitsPerOne) / (2 * unitsPerOne)) := by
  show (UInt8.ofNat (min 255 _)).toNat = _
  rw [UInt8.toNat_ofNat', Nat.mod_eq_of_lt (Nat.lt_of_le_of_lt (Nat.min_le_left _ _) (by decide))]

/-- **IN THE RANGE OF THE BYTES NOTHING IS CUT OFF.** -/
theorem roundsTo_toByte {r : Fin finiteRanks} (h : finite false r ≤ 255) :
    (finite false r).RoundsTo (finite false r).toByte.toNat := by
  have hrank : r.val ≤ 0x437f0000 :=
    finite_le_finite.1 (show _ ≤ finite false ⟨0x437f0000, by decide⟩ from h)
  have hunits : unitsAt r ≤ 255 * 2 ^ 149 := unitsAt_strictMono.monotone hrank
  have hbyte : (2 * unitsAt r + unitsPerOne) / (2 * unitsPerOne) ≤ 255 := by
    rw [← Nat.lt_succ_iff, Nat.div_lt_iff_lt_mul (by decide)]
    show 2 * unitsAt r + 2 ^ 149 < 256 * (2 * 2 ^ 149)
    omega
  rw [toNat_toByte, Nat.min_eq_right hbyte]
  exact ⟨r, rfl, half_up _ (Nat.two_pow_pos 149)⟩

theorem toByte_eq_zero {v : Single} (h : v ≤ 0) : v.toByte = 0 := by
  cases v with
  | nan => rfl
  | infinite s =>
      cases s with
      | false => exact absurd h (by decide)
      | true => rfl
  | finite s r =>
      cases s with
      | true => rfl
      | false =>
          obtain rfl : r = ⟨0, by decide⟩ := Fin.ext (Nat.le_zero.1 (finite_le_finite.1 h))
          decide

theorem toByte_le (v : Single) : v.toByte ≤ 255 :=
  UInt8.le_iff_toNat_le.2 (Nat.lt_succ_iff.1 v.toByte.toNat_lt)

/-- **ROUNDING TO A BYTE KEEPS THE ORDER.** -/
theorem toByte_mono {a b : Single} (h : a ≤ b) : a.toByte ≤ b.toByte := by
  obtain ⟨ha, hb⟩ := ne_nan_of_le h
  by_cases hneg : a ≤ 0
  · rw [toByte_eq_zero hneg, UInt8.le_iff_toNat_le]
    exact Nat.zero_le _
  · have hpos := lt_of_not_le ha (by decide) hneg
    -- both are positive, and an infinity has the greatest byte
    cases b with
    | nan => exact absurd rfl hb
    | infinite t =>
        cases t with
        | false => exact toByte_le a
        | true =>
            rw [eq_of_le_infinite_true h] at hpos
            exact absurd hpos (by decide)
    | finite t q =>
        cases a with
        | nan => exact absurd rfl ha
        | infinite s =>
            cases s with
            | false => exact Single.noConfusion (eq_of_infinite_false_le h)
            | true => exact absurd hpos (by decide)
        | finite s r =>
            obtain ⟨_, ⟨⟩, hr⟩ := exists_rank_of_pos rfl hpos
            have hunits := finite_le_iff.1 h
            have hunitsr := unitsAt_pos hr
            cases t with
            | true =>
                change (unitsAt r : Int) ≤ -(unitsAt q : Int) at hunits
                omega
            | false =>
                have hle : unitsAt r ≤ unitsAt q := Int.ofNat_le.1 hunits
                rw [UInt8.le_iff_toNat_le, toNat_toByte, toNat_toByte]
                have hrounded : (2 * unitsAt r + unitsPerOne) / (2 * unitsPerOne)
                    ≤ (2 * unitsAt q + unitsPerOne) / (2 * unitsPerOne) :=
                  Nat.div_le_div_right (Nat.add_le_add_right (Nat.mul_le_mul_left 2 hle) _)
                exact min_le_min_left 255 hrounded

/-! ## §3. Channels in bytes. -/

/-- A scaled channel lies in the range of the bytes. -/
theorem clamp_mul_mem (v : Single) : 0 ≤ v.clamp * 255 ∧ v.clamp * 255 ≤ 255 := by
  have hlow := mul_le_mul_right (c := 255) (le_clamp v) rfl (by decide)
  have hhigh := mul_le_mul_right (c := 255) (clamp_le v) rfl (by decide)
  rw [one_mul] at hhigh
  exact ⟨hlow, hhigh⟩

/-- **THE BYTE OF A CHANNEL IS THE ONE NEAREST TO IT.** -/
theorem roundsTo_channelByte (v : Single) :
    (v.clamp * 255).RoundsTo v.clamp.channelByte.toNat := by
  obtain ⟨r, hr, _⟩ := exists_rank_clamp v
  have hle := (clamp_mul_mem v).2
  unfold channelByte
  rw [hr] at hle ⊢
  -- the product of two magnitudes is a magnitude or infinite
  have hproduct : finite false r * 255
      = ofUnits false (unitsAt r * unitsAt 0x437f0000) unitsPerOne := rfl
  rw [hproduct] at hle ⊢
  unfold ofUnits at hle ⊢
  split at hle
  next hrank =>
    rw [dif_pos hrank]
    exact roundsTo_toByte hle
  next => exact absurd hle (by decide)

/-- **THE BYTE OF A NUMBER GROWS WITH THE NUMBER.** -/
theorem channelByte_mono {a b : Single} (h : a ≤ b) :
    a.toChannel.channelByte ≤ b.toChannel.channelByte :=
  toByte_mono (mul_le_mul_right (toChannel_mono h) rfl (by decide))

end Single

end ArtGrammar
