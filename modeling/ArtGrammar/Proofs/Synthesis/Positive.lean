/-
  ArtGrammar.Proofs.Synthesis.Positive
  ────────────────────────────────
  **ONLY THE ROLL OF ZERO PICKS A BRANCH OF PROBABILITY ZERO.**

  A roll picks the first branch whose running total it does not exceed, so the
  intervals are closed above.  The one that begins at zero belongs to the first
  branch, whatever its probability:

      roll > 0     a branch of positive probability, by its interval, and by
                   the tolerance as well
      roll = 0     the first branch, even if its probability is zero

  A word rolls zero if its top 24 bits are zero, which is one word in `2 ^ 24`.
-/
import ArtGrammar.Proofs.Synthesis.Calls
import ArtGrammar.Proofs.Synthesis.Intervals

namespace ArtGrammar

/-! ## §1. The roll of zero. -/

/-- A word rolls zero exactly if its top bits are zero. -/
theorem unitOfWord_eq_zero_iff (w : UInt32) : unitOfWord w = 0 ↔ w >>> 8 = 0 := by
  have htop : w >>> 8 = 0 ↔ (w >>> 8).toNat = 0 := UInt32.toNat_inj.symm
  rw [htop]
  constructor
  · intro h
    obtain ⟨r, hr, hunits⟩ := hasUnits_unitOfWord w
    rw [h, Single.zero_eq] at hr
    injection hr with _ hrank
    have hzero : unitsAt 0 = 0 := by decide
    rw [← hrank, hzero] at hunits
    omega
  · intro h
    unfold unitOfWord
    rw [h]
    rfl

/-- Every other word rolls more. -/
theorem unitOfWord_pos {w : UInt32} (h : w >>> 8 ≠ 0) : 0 < unitOfWord w := by
  obtain ⟨r, hr, _⟩ := hasUnits_unitOfWord w
  have hne : unitOfWord w ≠ 0 := fun hzero => h ((unitOfWord_eq_zero_iff w).1 hzero)
  rw [hr] at hne ⊢
  apply Single.finite_lt_finite.2
  by_contra hle
  have hrank : r = ⟨0, by decide⟩ := Fin.ext (Nat.le_zero.1 (Nat.le_of_not_lt hle))
  exact hne (by rw [hrank]; rfl)

namespace Branch

section
variable {branches : List Branch}

/-- The roll of zero exceeds no running total. -/
theorem pick?_zero (hall : ∀ b ∈ branches, b.probability.isProbability = true) :
    pick? branches 0 = branches.head? := by
  cases branches with
  | nil => rfl
  | cons b rest =>
      have hle := Single.isMagnitude_zero.le_add (hall b List.mem_cons_self)
      have hcovers : Covers (b :: rest) 0 0 := ⟨⟨_, rfl, hle⟩, fun j c hj => by omega⟩
      unfold pick?
      rw [(pickIndex?_eq_some_iff hall).2 (Or.inl hcovers)]
      rfl

/-! ## §2. Positive rolls. -/

section
variable (hall : ∀ b ∈ branches, b.probability.isProbability = true)
include hall

/-- **A POSITIVE ROLL LIES IN THE INTERVAL OF A POSITIVE PROBABILITY ONLY.** -/
theorem Covers.pos {i : Nat} {roll : Single} {b : Branch} (hroll : 0 < roll)
    (h : Covers branches i roll) (hb : branches[i]? = some b) : 0 < b.probability := by
  cases i with
  | succ k => exact h.pos_of_succ hall hb
  | zero =>
      obtain ⟨c, hc, hle⟩ := h.1
      cases branches with
      | nil => cases hb
      | cons first rest =>
          cases hb
          cases hc
          by_contra hpos
          have hsum := Single.isMagnitude_zero.add_of_not_pos (hall _ List.mem_cons_self) hpos
          have hle : roll ≤ 0 + b.probability := hle
          rw [show (0 : Single) + b.probability = 0 from hsum] at hle
          exact Single.not_le_of_lt hroll hle

/-- The tolerance does not reach a branch of probability zero either. -/
theorem pos_of_pick? {roll : Single} {b : Branch} (hroll : 0 < roll)
    (h : pick? branches roll = some b) : 0 < b.probability := by
  unfold pick? at h
  obtain ⟨i, hi, hb⟩ := Option.bind_eq_some_iff.1 h
  rcases (pickIndex?_eq_some_iff hall).1 hi with hcovers | ⟨_, _, hlast⟩
  · exact hcovers.pos hall hroll hb
  · obtain ⟨last, hget, hpos, _⟩ := lastPositive?_eq_some hlast
    rw [hb] at hget
    cases hget
    exact hpos

end

/-! ## §3. What is taken within a positive budget. -/

/-- **WITHIN A POSITIVE BUDGET A BRANCH OF PROBABILITY ZERO IS TAKEN BY THE ROLL OF
ZERO ALONE.**  For probabilities that are finite and not negative, whether or not
they add up to one: what a positive roll picks has a positive probability, and the
roll of zero picks the first branch.  So if a rule takes a branch whose probability
is not positive, then that is its first branch, and the word drawn rolls zero; and on
such a word it does take it. -/
theorem positive_unless_zero_roll
    (hprob : ∀ b ∈ branches, b.probability.isFinite = true ∧ 0 ≤ b.probability) :
    (∀ roll b, 0 < roll → pick? branches roll = some b → 0 < b.probability)
      ∧ (∀ w : UInt32, w >>> 8 ≠ 0 → 0 < unitOfWord w)
      ∧ (∀ w : UInt32, w >>> 8 = 0 → pick? branches (unitOfWord w) = branches.head?)
      ∧ ∀ rule budget tape i, 0 < budget →
          (∀ b j, (Branch.select rule branches budget).run tape i = (.ok b, j) →
            0 < b.probability
              ∨ ∃ w : UInt32, tape i = some w ∧ w >>> 8 = 0 ∧ branches.head? = some b)
          ∧ ∀ (w : UInt32) b, tape i = some w → w >>> 8 = 0 → branches.head? = some b →
            (Branch.select rule branches budget).run tape i = (.ok b, i + 1) := by
  have hall : ∀ b ∈ branches, b.probability.isProbability = true :=
    fun b hb => Single.isProbability_iff.2 (hprob b hb)
  have hhead : ∀ w : UInt32, w >>> 8 = 0 → pick? branches (unitOfWord w) = branches.head? := by
    intro w hw
    rw [(unitOfWord_eq_zero_iff w).2 hw]
    exact pick?_zero hall
  refine ⟨fun roll b hroll hpick => pos_of_pick? hall hroll hpick, fun w hw => unitOfWord_pos hw,
    hhead, fun rule budget tape i hbudget => ?_⟩
  constructor
  · intro b j hrun
    obtain ⟨w, htape, hpick⟩ := exists_roll_of_run_select hrun hbudget
    by_cases hw : w >>> 8 = 0
    · rw [hhead w hw] at hpick
      exact Or.inr ⟨w, htape, hw, hpick⟩
    · exact Or.inl (pos_of_pick? hall (unitOfWord_pos hw) hpick)
  · intro w b htape hw hb
    exact run_select_of_pick? hbudget htape ((hhead w hw).trans hb)

end

/-- Two branches, the first one without a probability. -/
def hollow : List Branch := weighted [(.var .x, 0), (.var .y, 1)]

/-- A positive roll never takes the first of them; the word zero does. -/
theorem positive_unless_zero_roll_hollow :
    (∀ b ∈ hollow, b.probability.isFinite = true ∧ 0 ≤ b.probability)
      ∧ (∀ roll b, 0 < roll → pick? hollow roll = some b → 0 < b.probability)
      ∧ ∀ w : UInt32, w >>> 8 = 0 → (Branch.select "E" hollow 1).run (Tape.endless fun _ => w) 0
          = (.ok ⟨.var .x, 0⟩, 1) := by
  have hprob : ∀ b ∈ hollow, b.probability.isFinite = true ∧ 0 ≤ b.probability := by decide +kernel
  obtain ⟨hpos, _, _, hselect⟩ := positive_unless_zero_roll hprob
  refine ⟨hprob, hpos, fun w hw => ?_⟩
  exact (hselect "E" 1 (Tape.endless fun _ => w) 0 (by decide)).2 w _ rfl hw rfl

end Branch

/-! ## §4. A rule that takes a branch of probability zero. -/

/-- A grammar with one rule, whose first branch has no probability. -/
def Grammar.hollowHead : Grammar := Grammar.ofList [("E", Branch.hollow)]

/-- The grammar is accepted, and a word that rolls zero expands its rule to that
branch. -/
theorem Grammar.expandRule_hollowHead :
    Grammar.hollowHead.validate = .ok ()
      ∧ (Grammar.hollowHead.expandRule "E" 1).run (Tape.endless fun _ => 0) 0
          = (.ok (.var .x), 1)
      ∧ ∃ b, Branch.pick? Branch.hollow (unitOfWord 0) = some b ∧ ¬ 0 < b.probability := by
  refine ⟨by decide +kernel, by decide +kernel, ⟨.var .x, 0⟩, by decide +kernel, by decide⟩

end ArtGrammar
