/-
  ArtGrammar.Proofs.Draws.Numbers
  ────────────────────────────────
  **THE NUMBERS DRAWN ARE EXACT FRACTIONS.**

  A word gives its top 24 bits as a fraction.  Neither of the two conversions
  rounds, so the numbers drawn are exactly

      unitOfWord w      k / 2^24,       0 ≤ k < 2^24
      signedOfWord w    k / 2^23,   -2^23 ≤ k < 2^23

  and every such fraction is drawn by some word.
-/
import ArtGrammar.Draws.Tape
import ArtGrammar.Proofs.Single.Exact

namespace ArtGrammar

/-! ## §1. Numbers in `[0, 1)`. -/

/-- The number of the top 24 bits of a word. -/
theorem topBits_lt (w : UInt32) : (w >>> 8).toNat < 0x1000000 := by
  have hw := w.toNat_lt
  have hshift : (w >>> 8).toNat = w.toNat / 256 := by
    rw [UInt32.toNat_shiftRight]
    exact Nat.shiftRight_eq_div_pow w.toNat 8
  omega

theorem hasUnits_unitOfWord (w : UInt32) :
    (unitOfWord w).HasUnits false ((w >>> 8).toNat * 2 ^ 125) := by
  have htop := topBits_lt w
  unfold unitOfWord Single.ofRatio
  apply Single.hasUnits_ofUnits
  · unfold binade
    omega
  · unfold binade
    omega
  · decide
  · show _ * 2 ^ 149 = _
    omega

/-- The word whose top bits are `k`. -/
theorem exists_topBits_eq (k : Nat) (hk : k < 0x1000000) :
    ∃ w : UInt32, (w >>> 8).toNat = k := by
  refine ⟨UInt32.ofNat (k * 256), ?_⟩
  have hword : (UInt32.ofNat (k * 256)).toNat = k * 256 := by
    rw [UInt32.toNat_ofNat']
    omega
  rw [UInt32.toNat_shiftRight, hword]
  show (k * 256) >>> 8 = k
  rw [Nat.shiftRight_eq_div_pow]
  omega

/-! ## §2. Numbers in `[-1, 1)`. -/

/-- The number `k / 2 ^ 23`. -/
def signedFraction (k : Int) : Single := Single.ofRatio (decide (k < 0)) k.natAbs 0x800000

/-- The fraction is not rounded. -/
theorem hasUnits_signedFraction (k : Int) (hlow : -0x800000 ≤ k) (hhigh : k < 0x800000) :
    (signedFraction k).HasUnits (decide (k < 0)) (k.natAbs * 2 ^ 126) := by
  unfold signedFraction Single.ofRatio
  apply Single.hasUnits_ofUnits
  · unfold binade
    omega
  · unfold binade
    omega
  · decide
  · show _ * 2 ^ 149 = _
    omega

theorem isFinite_signedFraction (k : Int) (hlow : -0x800000 ≤ k) (hhigh : k < 0x800000) :
    (signedFraction k).isFinite = true :=
  (hasUnits_signedFraction k hlow hhigh).isFinite

/-- **A SIGNED DRAW IS AN EXACT FRACTION.** -/
theorem signedOfWord_eq (w : UInt32) :
    signedOfWord w = signedFraction ((w >>> 8).toNat - 0x800000) := by
  have htop := topBits_lt w
  have hunit := hasUnits_unitOfWord w
  unfold signedOfWord
  generalize unitOfWord w = u at *
  generalize (w >>> 8).toNat = k at *
  have hdouble : (u * 2).HasUnits false (k * 2 ^ 126) := by
    refine hunit.mul (Single.hasUnits_ofNat 2 (by decide)) k 126 ?_ ?_ ?_
    · unfold binade
      omega
    · unfold binade
      omega
    · omega
  have hfraction := hasUnits_signedFraction (k - 0x800000) (by omega) (by omega)
  have hone := Single.hasUnits_one.neg
  show u * 2 + -1 = _
  -- operands and result are multiples of 2 ^ 126 units, by 24 bits at most
  by_cases hzero : k = 0x800000
  · -- the difference of equal numbers is the positive zero
    subst hzero
    exact (hdouble.add_of_zero hone (by decide)).unique hfraction
  · have hdiff : Single.signed false (k * 2 ^ 126) + Single.signed true (2 ^ 149)
        = ((k : Int) - 0x800000) * 2 ^ 126 := by
      show ((k * 2 ^ 126 : Nat) : Int) + -((2 ^ 149 : Nat) : Int) = _
      omega
    have hsum := hdouble.add hone _ hdiff (by omega) (((k : Int) - 0x800000).natAbs) 126
      (by unfold binade; omega) (by unfold binade; omega) (by omega)
    have hsign : decide (((k : Int) - 0x800000) * 2 ^ 126 < 0)
        = decide ((k : Int) - 0x800000 < 0) := by
      rw [decide_eq_decide]
      omega
    rw [hsign] at hsum
    exact hsum.unique hfraction

/-- Every fraction is drawn. -/
theorem exists_signedOfWord_eq (k : Int) (hlow : -0x800000 ≤ k) (hhigh : k < 0x800000) :
    ∃ w, signedOfWord w = signedFraction k := by
  obtain ⟨w, hw⟩ := exists_topBits_eq (k + 0x800000).toNat (by omega)
  refine ⟨w, ?_⟩
  rw [signedOfWord_eq, hw]
  congr 1
  omega

end ArtGrammar
