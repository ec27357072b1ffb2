/-
  ArtGrammar.Proofs.Single.Exact
  ────────────────────────────────
  **ARITHMETIC THAT DOES NOT ROUND.**

  `v.HasUnits neg units` says that `v` is finite, of the given sign, and of
  exactly `units` units.  A result whose exact units are a multiple of a power
  of two by at most 24 bits is not rounded:

      a·b    units a * units b  =  m · 2 ^ e units of units
      a + b  the signed units   =  ± m · 2 ^ e
-/
import ArtGrammar.Proofs.Single.Order
import ArtGrammar.Proofs.Single.Rounding

namespace ArtGrammar

/-! ## §1. Zero and one. -/

theorem unitsAt_one : unitsAt 0x3f800000 = 2 ^ 149 := by decide

namespace Single

theorem zero_eq : (0 : Single) = .finite false ⟨0, by decide⟩ := rfl

theorem one_eq : (1 : Single) = .finite false ⟨0x3f800000, by decide⟩ := rfl

/-! ## §2. Values by sign and units. -/

/-- The value has the given sign and exactly the given number of units. -/
def HasUnits (v : Single) (neg : Bool) (units : Nat) : Prop :=
  ∃ rank : Fin finiteRanks, v = .finite neg rank ∧ unitsAt rank = units

theorem HasUnits.isFinite {v : Single} {neg : Bool} {units : Nat} (h : v.HasUnits neg units) :
    v.isFinite = true := by
  obtain ⟨r, rfl, _⟩ := h
  rfl

/-- Sign and units tell a value. -/
theorem HasUnits.unique {v w : Single} {neg : Bool} {units : Nat} (hv : v.HasUnits neg units)
    (hw : w.HasUnits neg units) : v = w := by
  obtain ⟨r, rfl, hr⟩ := hv
  obtain ⟨s, rfl, hs⟩ := hw
  have hrs : r.val = s.val := unitsAt_strictMono.injective (hr.trans hs.symm)
  rw [Fin.ext hrs]

theorem hasUnits_zero (neg : Bool) : (zero neg).HasUnits neg 0 := ⟨_, rfl, unitsAt_zero⟩

/-- Rounding keeps a magnitude. -/
theorem ofUnits_unitsAt (neg : Bool) (r : Fin finiteRanks) (den : Nat) (hden : 0 < den) :
    ofUnits neg (unitsAt r * den) den = .finite neg r := by
  have hr := nearestRank_unitsAt r den hden
  unfold ofUnits
  rw [dif_pos (by rw [hr]; exact r.isLt)]
  congr 1
  exact Fin.ext hr

/-- **Multiples of powers of two are not rounded.** -/
theorem hasUnits_ofUnits (neg : Bool) {num den : Nat} (m e : Nat) (hm : m ≤ 2 * binade)
    (hlt : m * 2 ^ e < 2 * binade * 2 ^ 253) (hden : 0 < den) (h : num = m * 2 ^ e * den) :
    (ofUnits neg num den).HasUnits neg (m * 2 ^ e) := by
  obtain ⟨r, hr⟩ := exists_unitsAt_eq e m hm
  have hrank : r < finiteRanks := by
    rw [← unitsAt_strictMono.lt_iff_lt, hr, unitsAt_finiteRanks]
    exact hlt
  refine ⟨⟨r, hrank⟩, ?_, hr⟩
  rw [h, ← hr]
  exact ofUnits_unitsAt neg ⟨r, hrank⟩ den hden

theorem hasUnits_ofNat (n : Nat) (hn : n ≤ 2 * binade) :
    (ofNat n).HasUnits false (n * 2 ^ 149) := by
  have hlt : n * 2 ^ 149 < 2 * binade * 2 ^ 253 := by
    unfold binade at *
    omega
  exact hasUnits_ofUnits false n 149 hn hlt Nat.one_pos (Nat.mul_one _).symm

theorem hasUnits_one : (1 : Single).HasUnits false (2 ^ 149) := by
  rw [← Nat.one_mul (2 ^ 149)]
  exact hasUnits_ofNat 1 (by decide)

/-! ## §3. Products and sums. -/

/-- The product, where it is a multiple of a power of two. -/
theorem HasUnits.mul {a b : Single} {s t : Bool} {u w : Nat} (ha : a.HasUnits s u)
    (hb : b.HasUnits t w) (m e : Nat) (hm : m ≤ 2 * binade)
    (hlt : m * 2 ^ e < 2 * binade * 2 ^ 253) (h : u * w = m * 2 ^ e * 2 ^ 149) :
    (a * b).HasUnits (s != t) (m * 2 ^ e) := by
  obtain ⟨r, rfl, rfl⟩ := ha
  obtain ⟨r', rfl, rfl⟩ := hb
  exact hasUnits_ofUnits (s != t) m e hm hlt (Nat.two_pow_pos 149) h

/-- The sum, where it is a multiple of a power of two. -/
theorem HasUnits.add {a b : Single} {s t : Bool} {u w : Nat} (ha : a.HasUnits s u)
    (hb : b.HasUnits t w) (total : Int) (htotal : Single.signed s u + Single.signed t w = total)
    (hne : total ≠ 0) (m e : Nat) (hm : m ≤ 2 * binade)
    (hlt : m * 2 ^ e < 2 * binade * 2 ^ 253) (h : total.natAbs = m * 2 ^ e) :
    (a + b).HasUnits (decide (total < 0)) (m * 2 ^ e) := by
  obtain ⟨r, rfl, rfl⟩ := ha
  obtain ⟨r', rfl, rfl⟩ := hb
  show (Single.add _ _).HasUnits _ _
  unfold Single.add
  -- the one rounding of a sum, which finds nothing to round
  simp only [htotal, if_neg hne]
  exact hasUnits_ofUnits _ m e hm hlt Nat.one_pos (by rw [h, Nat.mul_one])

/-- A sum of nothing is a zero, negative only if both operands are. -/
theorem HasUnits.add_of_zero {a b : Single} {s t : Bool} {u w : Nat} (ha : a.HasUnits s u)
    (hb : b.HasUnits t w) (h : Single.signed s u + Single.signed t w = 0) :
    (a + b).HasUnits (s && t) 0 := by
  obtain ⟨r, rfl, rfl⟩ := ha
  obtain ⟨r', rfl, rfl⟩ := hb
  show (Single.add _ _).HasUnits _ _
  unfold Single.add
  simp only [h, if_pos]
  exact hasUnits_zero (s && t)

theorem HasUnits.neg {a : Single} {s : Bool} {u : Nat} (ha : a.HasUnits s u) :
    (-a).HasUnits (!s) u := by
  obtain ⟨r, rfl, hr⟩ := ha
  exact ⟨r, rfl, hr⟩

end Single

end ArtGrammar
