/-
  ArtGrammar.Proofs.Synthesis.Intervals
  ────────────────────────────────
  **EVERY BRANCH OWNS ONE INTERVAL OF ROLLS.**

  The running totals ascend, so they cut the rolls into intervals, one for each
  branch, in the order of the branches:

      … ≤ c₀ │ c₀ < … ≤ c₁ │ c₁ < … ≤ c₂ │ …        (`Covers`)

  A branch whose probability is lost in rounding, or is zero, has an empty one.
  Rolls past the last total by no more than the tolerance go to the last branch
  of positive probability, and so extend the interval of that branch: behind it
  all intervals are empty (`Covers.le_lastPositive`).  Hence

      pickIndex?_monotone_step        a larger roll never picks an earlier branch,
                                      and no roll in between is lost
      exists_pick_of_accepted_total   an accepted total leaves no roll up to one
                                      without a branch
-/
import ArtGrammar.Proofs.Grammar.Validity
import ArtGrammar.Proofs.Synthesis.Choice

namespace ArtGrammar.Branch

section
variable {branches : List Branch}

/-! ## §1. Running totals ascend. -/

/-- A running total adds the probability of its branch to the one before. -/
theorem runningTotals_getElem?_succ (branches : List Branch) :
    ∀ sum i, (runningTotals sum branches)[i + 1]?
      = (runningTotals sum branches)[i]?.bind fun c =>
          branches[i + 1]?.map fun b => c + b.probability := by
  induction branches with
  | nil => intro sum i; rfl
  | cons b rest ih =>
      intro sum i
      show (runningTotals (sum + b.probability) rest)[i]? = _
      cases i with
      | zero =>
          cases rest with
          | nil => rfl
          | cons c rest => rfl
      | succ i => exact ih (sum + b.probability) i

/-- Running totals are magnitudes, none of them below the sum they begin at. -/
theorem of_mem_runningTotals (branches : List Branch) :
    ∀ {sum c : Single}, (∀ b ∈ branches, b.probability.isProbability = true) →
      sum.IsMagnitude → c ∈ runningTotals sum branches → c.IsMagnitude ∧ sum ≤ c := by
  induction branches with
  | nil =>
      intro sum c _ _ hc
      cases hc
  | cons b rest ih =>
      intro sum c hall hsum hc
      have hb := hall b List.mem_cons_self
      rcases List.mem_cons.1 hc with rfl | hc
      · exact ⟨hsum.add hb, hsum.le_add hb⟩
      · obtain ⟨hmag, hle⟩ := ih (fun d hd => hall d (List.mem_cons_of_mem b hd)) (hsum.add hb) hc
        exact ⟨hmag, Single.le_trans (hsum.le_add hb) hle⟩

/-- **RUNNING TOTALS ASCEND.** -/
theorem pairwise_runningTotals (branches : List Branch) :
    ∀ {sum : Single}, (∀ b ∈ branches, b.probability.isProbability = true) →
      sum.IsMagnitude → (runningTotals sum branches).Pairwise (· ≤ ·) := by
  induction branches with
  | nil =>
      intro sum _ _
      exact List.Pairwise.nil
  | cons b rest ih =>
      intro sum hall hsum
      have hrest := fun d hd => hall d (List.mem_cons_of_mem b hd)
      have hnext := hsum.add (hall b List.mem_cons_self)
      exact List.pairwise_cons.2
        ⟨fun c hc => (of_mem_runningTotals rest hrest hnext hc).2, ih hrest hnext⟩

section
variable (hall : ∀ b ∈ branches, b.probability.isProbability = true)
include hall

theorem runningTotals_mono {i j : Nat} {c d : Single} (hi : (runningTotals 0 branches)[i]? = some c)
    (hj : (runningTotals 0 branches)[j]? = some d) (hij : i ≤ j) : c ≤ d := by
  rcases Nat.lt_or_eq_of_le hij with hlt | rfl
  · have hpair := List.pairwise_iff_getElem.1
      (pairwise_runningTotals branches hall Single.isMagnitude_zero)
    obtain ⟨hi', rfl⟩ := List.getElem?_eq_some_iff.1 hi
    obtain ⟨hj', rfl⟩ := List.getElem?_eq_some_iff.1 hj
    exact hpair i j hi' hj' hlt
  · rw [hi] at hj
    cases hj
    exact Single.le_refl
      (of_mem_runningTotals branches hall Single.isMagnitude_zero (List.mem_of_getElem? hi)).1.ne_nan

/-! ## §2. Intervals. -/

/-- The roll lies past the running total before the branch at `i`, and not past
its own. -/
def Covers (branches : List Branch) (i : Nat) (roll : Single) : Prop :=
  (∃ c, (runningTotals 0 branches)[i]? = some c ∧ roll ≤ c)
    ∧ ∀ j c, i = j + 1 → (runningTotals 0 branches)[j]? = some c → c < roll

/-- The first running total that a roll does not exceed is that of the branch
whose interval it lies in. -/
theorem findIdx?_eq_some_iff_covers {roll : Single} {i : Nat} :
    (runningTotals 0 branches).findIdx? (fun total => decide (roll ≤ total)) = some i
      ↔ Covers branches i roll := by
  have hnan : ∀ c ∈ runningTotals 0 branches, c ≠ .nan := fun c hc =>
    (of_mem_runningTotals branches hall Single.isMagnitude_zero hc).1.ne_nan
  rw [List.findIdx?_eq_some_iff_getElem]
  simp only [decide_eq_true_eq]
  constructor
  · rintro ⟨hi, hle, hbefore⟩
    refine ⟨⟨_, List.getElem?_eq_getElem hi, hle⟩, ?_⟩
    rintro j c rfl hc
    obtain ⟨hj, rfl⟩ := List.getElem?_eq_some_iff.1 hc
    exact Single.lt_of_not_le (Single.ne_nan_of_le hle).1 (hnan _ (List.getElem_mem hj))
      (hbefore j (Nat.lt_succ_self j))
  · rintro ⟨⟨c, hc, hle⟩, hbefore⟩
    obtain ⟨hi, rfl⟩ := List.getElem?_eq_some_iff.1 hc
    refine ⟨hi, hle, fun j hj hroll => ?_⟩
    -- the total just before is exceeded, and so are all before it
    obtain ⟨k, rfl⟩ : ∃ k, i = k + 1 := ⟨i - 1, by omega⟩
    have hk : (runningTotals 0 branches)[k]? = some (runningTotals 0 branches)[k] :=
      List.getElem?_eq_getElem (by omega)
    have hjk := runningTotals_mono hall (List.getElem?_eq_getElem (by omega)) hk
      (Nat.le_of_lt_succ hj)
    exact Single.not_le_of_lt (hbefore k _ rfl hk) (Single.le_trans hroll hjk)

/-- Intervals stand in the order of their branches. -/
theorem Covers.le {i j : Nat} {a b : Single} (ha : Covers branches i a) (hb : Covers branches j b)
    (hab : a ≤ b) : i ≤ j := by
  obtain ⟨⟨d, hd, hbd⟩, _⟩ := hb
  by_contra hlt
  obtain ⟨k, rfl⟩ : ∃ k, i = k + 1 := ⟨i - 1, by omega⟩
  obtain ⟨⟨c, hc, _⟩, hbefore⟩ := ha
  have hlen := (List.getElem?_eq_some_iff.1 hc).1
  have hk : (runningTotals 0 branches)[k]? = some (runningTotals 0 branches)[k] :=
    List.getElem?_eq_getElem (by omega)
  have hdk := runningTotals_mono hall hd hk (by omega)
  exact Single.not_le_of_lt (hbefore k _ rfl hk) (Single.le_trans hab (Single.le_trans hbd hdk))

/-- Behind the first branch only a positive probability has an interval. -/
theorem Covers.pos_of_succ {k : Nat} {roll : Single} {b : Branch}
    (h : Covers branches (k + 1) roll) (hb : branches[k + 1]? = some b) : 0 < b.probability := by
  obtain ⟨⟨d, hd, hroll⟩, hbefore⟩ := h
  -- the interval is not empty, so the probability has moved the total
  have hstep := runningTotals_getElem?_succ branches 0 k
  rw [hd, hb] at hstep
  obtain ⟨c, hc, hsum⟩ := Option.bind_eq_some_iff.1 hstep.symm
  have hd : c + b.probability = d := Option.some.inj hsum
  by_contra hpos
  have hmag := of_mem_runningTotals branches hall Single.isMagnitude_zero
    (List.mem_of_getElem? hc)
  rw [← hd, hmag.1.add_of_not_pos (hall b (List.mem_of_getElem? hb)) hpos] at hroll
  exact Single.not_le_of_lt (hbefore k c rfl hc) hroll

/-- **BEHIND THE LAST BRANCH OF POSITIVE PROBABILITY ALL INTERVALS ARE EMPTY.** -/
theorem Covers.le_lastPositive {i j : Nat} {roll : Single} (h : Covers branches i roll)
    (hlast : lastPositive? branches = some j) : i ≤ j := by
  cases i with
  | zero => exact Nat.zero_le j
  | succ k =>
      obtain ⟨d, hd, _⟩ := h.1
      have hlen := (List.getElem?_eq_some_iff.1 hd).1
      rw [length_runningTotals] at hlen
      have hb := List.getElem?_eq_getElem hlen
      obtain ⟨_, _, _, hlater⟩ := lastPositive?_eq_some hlast
      exact hlater _ _ hb (h.pos_of_succ hall hb)

/-! ## §3. What a roll picks. -/

/-- A branch is picked by the rolls of its interval; the last one of positive
probability also by those past all intervals, within the tolerance. -/
theorem pickIndex?_eq_some_iff {roll : Single} {i : Nat} :
    pickIndex? branches roll = some i
      ↔ Covers branches i roll
        ∨ (∀ c ∈ runningTotals 0 branches, ¬ roll ≤ c)
          ∧ roll ≤ (runningTotals 0 branches).getLastD 0 + tolerance
          ∧ lastPositive? branches = some i := by
  unfold pickIndex?
  simp only [Option.or_eq_some_iff, findIdx?_eq_some_iff_covers hall, List.findIdx?_eq_none_iff,
    decide_eq_false_iff_not]
  simp

/-- **A LARGER ROLL NEVER PICKS AN EARLIER BRANCH.** -/
theorem le_of_pickIndex? {a b : Single} {i j : Nat} (hab : a ≤ b)
    (ha : pickIndex? branches a = some i) (hb : pickIndex? branches b = some j) : i ≤ j := by
  rcases (pickIndex?_eq_some_iff hall).1 ha with hi | ⟨hpast, _, hi⟩
  · rcases (pickIndex?_eq_some_iff hall).1 hb with hj | ⟨_, _, hj⟩
    · exact hi.le hall hj hab
    · exact hi.le_lastPositive hall hj
  · rcases (pickIndex?_eq_some_iff hall).1 hb with hj | ⟨_, _, hj⟩
    · -- the smaller roll lies past all totals, so the larger one does too
      obtain ⟨⟨c, hc, hle⟩, _⟩ := hj
      exact absurd (Single.le_trans hab hle) (hpast c (List.mem_of_getElem? hc))
    · rw [hi] at hj
      cases hj
      exact Nat.le_refl i

/-- Up to the last total a roll is picked by its interval alone. -/
theorem pickIndex?_eq_some_iff_covers {roll : Single} {i : Nat}
    (hroll : roll ≤ (runningTotals 0 branches).getLastD 0) :
    pickIndex? branches roll = some i ↔ Covers branches i roll := by
  rw [pickIndex?_eq_some_iff hall, or_iff_left]
  rintro ⟨hpast, _, hlast⟩
  have hne : branches ≠ [] := by
    rintro rfl
    cases hlast
  exact hpast _ (getLastD_mem_runningTotals hne 0) hroll

end

theorem pickIndex?_eq_none_iff {roll : Single} :
    pickIndex? branches roll = none
      ↔ (∀ c ∈ runningTotals 0 branches, ¬ roll ≤ c)
        ∧ (roll ≤ (runningTotals 0 branches).getLastD 0 + tolerance →
            lastPositive? branches = none) := by
  unfold pickIndex?
  simp only [Option.or_eq_none_iff, List.findIdx?_eq_none_iff, decide_eq_false_iff_not]
  simp

/-- A roll that picks nothing is exceeded only by rolls that pick nothing. -/
theorem pickIndex?_eq_none_of_le {a b : Single} (hab : a ≤ b)
    (ha : pickIndex? branches a = none) : pickIndex? branches b = none := by
  rw [pickIndex?_eq_none_iff] at *
  exact ⟨fun c hc hle => ha.1 c hc (Single.le_trans hab hle),
    fun hle => ha.2 (Single.le_trans hab hle)⟩

/-- **PICKING IS A MONOTONE STEP FUNCTION OF THE ROLL.**  For probabilities that are
finite and not negative, a roll up to the last running total picks the branch
whose interval it lies in.  Of two rolls the larger one picks no earlier branch,
and nothing if the smaller one picks nothing; so the rolls of a branch, and
those of neighbouring branches together, have no gap between them.  What is
picked is a branch of the list. -/
theorem pickIndex?_monotone_step
    (hprob : ∀ b ∈ branches, b.probability.isFinite = true ∧ 0 ≤ b.probability) :
    (∀ roll i, roll ≤ (runningTotals 0 branches).getLastD 0 →
        (pickIndex? branches roll = some i ↔ Covers branches i roll))
      ∧ (∀ a b i j, a ≤ b → pickIndex? branches a = some i → pickIndex? branches b = some j →
          i ≤ j)
      ∧ (∀ a b, a ≤ b → pickIndex? branches a = none → pickIndex? branches b = none)
      ∧ (∀ a roll b i j, a ≤ roll → roll ≤ b → pickIndex? branches a = some i →
          pickIndex? branches b = some j →
          ∃ k, pickIndex? branches roll = some k ∧ i ≤ k ∧ k ≤ j)
      ∧ ∀ roll, (pick? branches roll = none ↔ pickIndex? branches roll = none)
          ∧ ∀ i, pickIndex? branches roll = some i →
              ∃ b, branches[i]? = some b ∧ pick? branches roll = some b := by
  have hall : ∀ b ∈ branches, b.probability.isProbability = true :=
    fun b hb => Single.isProbability_iff.2 (hprob b hb)
  have hbranch : ∀ roll i, pickIndex? branches roll = some i →
      ∃ b, branches[i]? = some b ∧ pick? branches roll = some b := by
    intro roll i hi
    obtain ⟨b, hb⟩ := exists_branch_of_pickIndex? hi
    exact ⟨b, hb, by unfold pick?; rw [hi]; exact hb⟩
  refine ⟨fun roll i hroll => pickIndex?_eq_some_iff_covers hall hroll,
    fun a b i j hab ha hb => le_of_pickIndex? hall hab ha hb,
    fun a b hab ha => pickIndex?_eq_none_of_le hab ha, ?_, fun roll => ⟨⟨?_, ?_⟩, hbranch roll⟩⟩
  · intro a roll b i j ha hb hi hj
    cases hk : pickIndex? branches roll with
    | none =>
        rw [pickIndex?_eq_none_of_le hb hk] at hj
        cases hj
    | some k =>
        exact ⟨k, rfl, le_of_pickIndex? hall ha hi hk, le_of_pickIndex? hall hb hk hj⟩
  · intro hpick
    cases hi : pickIndex? branches roll with
    | none => rfl
    | some i =>
        obtain ⟨b, _, hb⟩ := hbranch roll i hi
        rw [hpick] at hb
        cases hb
  · intro hnone
    unfold pick?
    rw [hnone]
    rfl

/-- Branches of which no positive roll picks the first, and no roll at all the third
and the last: the third has too little probability to change the total before
it, the other two have none. -/
def lopsided : List Branch :=
  weighted [(.var .x, 0), (.var .y, Single.ofRatio false 1 2),
    (.var .t, Single.ofRatio false 1 (2 ^ 30)), (.number 1, Single.ofRatio false 4999 10000),
    (.random, 0)]

/-- Between a quarter and the end of the tolerance every roll picks the second,
third or fourth of the lopsided branches. -/
theorem pickIndex?_monotone_step_lopsided :
    (∀ b ∈ lopsided, b.probability.isFinite = true ∧ 0 ≤ b.probability)
      ∧ ∀ roll, Single.ofRatio false 1 4 ≤ roll → roll ≤ Single.ofRatio false 99999 100000 →
          ∃ k, pickIndex? lopsided roll = some k ∧ 1 ≤ k ∧ k ≤ 3 := by
  have hprob : ∀ b ∈ lopsided, b.probability.isFinite = true ∧ 0 ≤ b.probability := by
    decide +kernel
  have hlow : pickIndex? lopsided (Single.ofRatio false 1 4) = some 1 := by decide +kernel
  have hhigh : pickIndex? lopsided (Single.ofRatio false 99999 100000) = some 3 := by
    decide +kernel
  refine ⟨hprob, fun roll ha hb => ?_⟩
  exact (pickIndex?_monotone_step hprob).2.2.2.1 _ roll _ 1 3 ha hb hlow hhigh

/-! ## §4. No roll is left without a branch. -/

/-- **WHAT VALIDATION ACCEPTS AS A TOTAL OF ONE LEAVES NO ROLL WITHOUT A BRANCH.**
Take branches whose probabilities are finite and not negative and whose total is
within the tolerance of one, so that a rule may have them.  The sum that rolls
are compared with, though it begins at the other zero, is that very total, and
every roll up to one picks a branch. -/
theorem exists_pick_of_accepted_total
    (hprob : ∀ b ∈ branches, b.probability.isFinite = true ∧ 0 ≤ b.probability)
    (htotal : (total branches - 1).abs ≤ tolerance) :
    (∀ rule, Rule.defect? (fun _ => true) ⟨rule, branches⟩ = none)
      ∧ (runningTotals 0 branches).getLastD 0 = total branches
      ∧ ∀ roll, roll ≤ 1 → ∃ b ∈ branches, pick? branches roll = some b := by
  have hall : ∀ b ∈ branches, b.probability.isProbability = true :=
    fun b hb => Single.isProbability_iff.2 (hprob b hb)
  have hunit := (Single.isUnitTotal_iff (total_ne_nan hall)).2 htotal
  refine ⟨fun rule => ?_, ?_, fun roll hroll => exists_pick hall hunit hroll⟩
  · refine Rule.defect?_eq_none_iff.2 ⟨?_, hall, fun _ _ _ _ => rfl, hunit⟩
    rintro (rfl : branches = [])
    exact absurd htotal (by decide)
  · rw [runningTotals_getLastD]
    rcases agreesUpToZero_total branches with h | ⟨h, _⟩
    · exact h.symm
    · -- a total of zero is one away from one
      rw [h] at htotal
      exact absurd htotal (by decide)

/-- Twelve equal branches.  Their running totals end below one. -/
def twelfths : List Branch := uniform (List.replicate 12 (.var .x))

/-- The roll of one lies past all running totals of the twelve, and picks a branch
all the same. -/
theorem exists_pick_of_accepted_total_twelfths :
    (∀ b ∈ twelfths, b.probability.isFinite = true ∧ 0 ≤ b.probability)
      ∧ (total twelfths - 1).abs ≤ tolerance
      ∧ ¬ 1 ≤ total twelfths
      ∧ ∃ b ∈ twelfths, pick? twelfths 1 = some b := by
  have hprob : ∀ b ∈ twelfths, b.probability.isFinite = true ∧ 0 ≤ b.probability := by
    decide +kernel
  have htotal : (total twelfths - 1).abs ≤ tolerance := by decide +kernel
  exact ⟨hprob, htotal, by decide +kernel,
    (exists_pick_of_accepted_total hprob htotal).2.2 1 (by decide)⟩

end

end ArtGrammar.Branch
