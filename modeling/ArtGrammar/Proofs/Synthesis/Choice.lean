/-
  ArtGrammar.Proofs.Synthesis.Choice
  ────────────────────────────────
  **EVERY ROLL PICKS A BRANCH OF A SOUND RULE.**

  The total that a rule is judged by and the total that a roll is compared with
  begin at zeros of different sign, and are equal unless both are zeros.  A
  total `t` that is accepted keeps `t + tolerance` at one or above:

      t < 1/2          t - 1 rounds to -1/2 or below, so `t` is refused
      1/2 ≤ t < 1      t - 1 is exact, so `1 - t ≤ tolerance`
      1 ≤ t            nothing to show

  Rounding is monotone, so the rounded sum is at least one as well, and no roll
  exceeds one.
-/
import ArtGrammar.Proofs.Draws.Numbers
import ArtGrammar.Proofs.Grammar.Total
import ArtGrammar.Synthesis.Choice

namespace ArtGrammar

/-! ## §1. Running totals. -/

namespace Branch

/-- The last running total is the sum from the start on. -/
theorem runningTotals_getLastD (branches : List Branch) :
    ∀ sum, (runningTotals sum branches).getLastD sum
      = branches.foldl (fun sum b => sum + b.probability) sum := by
  induction branches with
  | nil => intro sum; rfl
  | cons b rest ih =>
      intro sum
      show (_ :: runningTotals (sum + b.probability) rest).getLastD sum = _
      rw [List.getLastD_cons, ih, List.foldl_cons]

/-- The last running total is one of them. -/
theorem getLastD_mem_runningTotals {branches : List Branch} (hne : branches ≠ []) (sum : Single) :
    (runningTotals sum branches).getLastD sum ∈ runningTotals sum branches := by
  cases branches with
  | nil => exact absurd rfl hne
  | cons b rest =>
      show (_ :: runningTotals (sum + b.probability) rest).getLastD sum ∈ _
      rw [List.getLastD_cons]
      exact List.getLastD_mem_cons

theorem length_runningTotals (branches : List Branch) :
    ∀ sum, (runningTotals sum branches).length = branches.length := by
  induction branches with
  | nil => intro sum; rfl
  | cons b rest ih =>
      intro sum
      show (runningTotals (sum + b.probability) rest).length + 1 = rest.length + 1
      rw [ih]

end Branch

namespace Single

/-! ## §2. Accepted totals. -/

/-- The distance to one of a total below one. -/
theorem abs_sub_one {r : Fin finiteRanks} (h : unitsAt r < 2 ^ 149) :
    (finite false r - 1).abs = ofUnits false (2 ^ 149 - unitsAt r) 1 := by
  have htotal : signed false (unitsAt r) + signed true (unitsAt 0x3f800000)
      = -((2 ^ 149 - unitsAt r : Nat) : Int) := by
    rw [unitsAt_one]
    show (unitsAt r : Int) + -((2 ^ 149 : Nat) : Int) = _
    omega
  have hdiff : finite false r - 1 = ofUnits true (2 ^ 149 - unitsAt r) 1 := by
    rw [one_eq]
    show Single.add (finite false r) (finite true ⟨0x3f800000, _⟩) = _
    unfold Single.add
    simp only [htotal]
    rw [if_neg (by omega), Int.natAbs_neg, Int.natAbs_natCast]
    congr 1
    rw [decide_eq_true_iff]
    omega
  rw [hdiff, abs_ofUnits]

/-- A total below one is accepted only if its rounded distance to one is at most
the tolerance. -/
theorem nearestRank_le_of_isUnitTotal {r : Fin finiteRanks} (hlt : unitsAt r < 2 ^ 149)
    (h : (finite false r).isUnitTotal = true) :
    nearestRank (2 ^ 149 - unitsAt r) 1 ≤ 0x38d1b717 := by
  unfold isUnitTotal at h
  rw [Bool.not_eq_true', decide_eq_false_iff_not, abs_sub_one hlt, tolerance_eq] at h
  unfold ofUnits at h
  by_cases hfinite : nearestRank (2 ^ 149 - unitsAt r) 1 < finiteRanks
  · rw [dif_pos hfinite] at h
    by_cases hle : nearestRank (2 ^ 149 - unitsAt r) 1 ≤ 0x38d1b717
    · exact hle
    · exact absurd (finite_lt_finite.2 (Nat.lt_of_not_le hle)) h
  · rw [dif_neg hfinite] at h
    exact absurd (finite_lt_infinite _) h

/-- From one half to one the distance to one is a magnitude, so it is not
rounded. -/
theorem exists_unitsAt_eq_sub {r : Nat} (hlow : 2 ^ 148 ≤ unitsAt r)
    (hhigh : unitsAt r < 2 ^ 149) : ∃ d, unitsAt d = 2 ^ 149 - unitsAt r := by
  have hhalf : unitsAt 0x3f000000 = 2 ^ 148 := by decide
  have hlow' : 0x3f000000 ≤ r := by
    rw [← unitsAt_strictMono.le_iff_le, hhalf]
    exact hlow
  have hhigh' : r < 0x3f800000 := by
    rw [← unitsAt_strictMono.lt_iff_lt, unitsAt_one]
    exact hhigh
  -- both are multiples of 2 ^ 125 units, by 24 bits at most
  obtain ⟨m, hm⟩ : ∃ m, r = 125 * binade + m := ⟨r - 125 * binade, by
    unfold binade
    omega⟩
  have hunits : unitsAt r = m * 2 ^ 125 := by
    rw [hm]
    unfold binade at hm
    exact unitsAt_binade 125 m (by unfold binade; omega) (Or.inr (by unfold binade; omega))
  obtain ⟨d, hd⟩ := exists_unitsAt_eq 125 (2 * binade - m) (Nat.sub_le _ _)
  refine ⟨d, ?_⟩
  rw [hd, hunits, Nat.mul_comm, Nat.mul_sub, Nat.mul_comm m]
  rfl

/-- **AN ACCEPTED TOTAL FALLS SHORT OF ONE BY THE TOLERANCE AT MOST.** -/
theorem le_unitsAt_add_tolerance {r : Fin finiteRanks}
    (h : (finite false r).isUnitTotal = true) :
    2 ^ 149 ≤ unitsAt r + unitsAt 0x38d1b717 := by
  by_cases hone : 2 ^ 149 ≤ unitsAt r
  · omega
  have hrank := nearestRank_le_of_isUnitTotal (by omega) h
  by_cases hr : 2 ^ 148 ≤ unitsAt r
  · -- from one half on the distance is exact, and is compared with the tolerance itself
    obtain ⟨d, hd⟩ := exists_unitsAt_eq_sub hr (by omega)
    have hdrank := nearestRank_unitsAt d 1 Nat.one_pos
    rw [Nat.mul_one, hd] at hdrank
    have hle : unitsAt d ≤ unitsAt 0x38d1b717 := unitsAt_strictMono.monotone (by omega)
    omega
  · -- below one half the distance rounds to one half at least
    have hhalf : unitsAt 0x3f000000 = 2 ^ 148 := by decide
    have hfar : 0x3f000000 ≤ nearestRank (2 ^ 149 - unitsAt r) 1 :=
      le_nearestRank (by rw [hhalf]; omega)
    omega

/-- Nothing else than a finite total of positive sign is accepted. -/
theorem exists_rank_of_isUnitTotal {a b : Single} (hab : a.AgreesUpToZero b)
    (hb : b.IsMagnitude) (h : a.isUnitTotal = true) :
    ∃ r : Fin finiteRanks, b = .finite false r ∧ 2 ^ 149 ≤ unitsAt r + unitsAt 0x38d1b717 := by
  -- infinity is infinitely far from one, and a zero is one away
  rcases hab with rfl | ⟨rfl, rfl⟩
  · rcases hb with ⟨r, rfl⟩ | rfl
    · exact ⟨r, rfl, le_unitsAt_add_tolerance h⟩
    · exact absurd h (by decide)
  · exact absurd h (by decide)

/-- With the tolerance added, an accepted total is at least one. -/
theorem one_le_add_tolerance {r : Fin finiteRanks}
    (h : 2 ^ 149 ≤ unitsAt r + unitsAt 0x38d1b717) :
    (1 : Single) ≤ finite false r + tolerance := by
  rw [tolerance_eq]
  have hne : unitsAt r + unitsAt 0x38d1b717 ≠ 0 := by
    have := Nat.two_pow_pos 149
    omega
  have hsum : finite false r + finite false ⟨0x38d1b717, by decide⟩
      = ofUnits false (unitsAt r + unitsAt 0x38d1b717) 1 :=
    finite_add_finite hne rfl
  rw [hsum, one_eq]
  exact le_ofUnits (by rw [unitsAt_one]; exact h)

end Single

/-! ## §3. The sum that rolls are compared with. -/

namespace Branch

/-- The sum that rolls are compared with is finite, and one or more with the
tolerance added. -/
theorem exists_sum {branches : List Branch}
    (hall : ∀ b ∈ branches, b.probability.isProbability = true)
    (htotal : (total branches).isUnitTotal = true) :
    ∃ r : Fin finiteRanks,
      branches.foldl (fun sum b => sum + b.probability) 0 = .finite false r
      ∧ 2 ^ 149 ≤ unitsAt r + unitsAt 0x38d1b717 := by
  exact Single.exists_rank_of_isUnitTotal (agreesUpToZero_total branches)
    (isMagnitude_foldl branches hall Single.isMagnitude_zero) htotal

/-- Some probability is positive. -/
theorem exists_pos {branches : List Branch}
    (hall : ∀ b ∈ branches, b.probability.isProbability = true)
    (htotal : (total branches).isUnitTotal = true) : ∃ b ∈ branches, 0 < b.probability := by
  obtain ⟨r, hsum, hunits⟩ := exists_sum hall htotal
  by_cases hex : ∃ b ∈ branches, 0 < b.probability
  · exact hex
  · have hnot : ∀ b ∈ branches, ¬ 0 < b.probability := fun b hb hpos => hex ⟨b, hb, hpos⟩
    -- a sum of zeros is far from one
    have hzero : Single.zero false = .finite false r :=
      (foldl_eq_self branches hall hnot Single.isMagnitude_zero).symm.trans hsum
    cases hzero
    exact absurd hunits (by decide)

/-! ## §4. Picking. -/

/-- The last branch of positive probability has one, and no later branch has. -/
theorem lastPositive?_eq_some {branches : List Branch} {j : Nat}
    (h : lastPositive? branches = some j) :
    ∃ b, branches[j]? = some b ∧ 0 < b.probability
      ∧ ∀ i c, branches[i]? = some c → 0 < c.probability → i ≤ j := by
  unfold lastPositive? at h
  obtain ⟨last, hfind, rfl⟩ := Option.map_eq_some_iff.1 h
  obtain ⟨hpos, later, earlier, hsplit, hlater⟩ := List.find?_eq_some_iff_append.1 hfind
  have hlast := List.mem_reverse.1 (List.mem_of_find?_eq_some hfind)
  refine ⟨last.1, List.mk_mem_zipIdx_iff_getElem?.1 hlast, of_decide_eq_true hpos, ?_⟩
  intro i c hc hcpos
  have hmem : (c, i) ∈ later ++ last :: earlier := by
    rw [← hsplit, List.mem_reverse]
    exact List.mk_mem_zipIdx_iff_getElem?.2 hc
  -- from the end on the indices descend
  have hdesc : (later ++ last :: earlier).Pairwise fun c d => d.2 < c.2 := by
    rw [← hsplit, List.pairwise_reverse]
    apply List.pairwise_map.1
    show (branches.zipIdx.map Prod.snd).Pairwise (· < ·)
    rw [List.zipIdx_map_snd]
    exact List.pairwise_lt_range'
  rcases List.mem_append.1 hmem with h | h
  · simpa [hcpos] using hlater _ h
  · rcases List.mem_cons.1 h with rfl | h
    · exact Nat.le_refl i
    · exact Nat.le_of_lt ((List.pairwise_cons.1 (List.pairwise_append.1 hdesc).2.1).1 _ h)

/-- A branch of positive probability is found from the end. -/
theorem exists_lastPositive {branches : List Branch} (h : ∃ b ∈ branches, 0 < b.probability) :
    ∃ i, lastPositive? branches = some i := by
  obtain ⟨b, hb, hpos⟩ := h
  obtain ⟨i, hi, rfl⟩ := List.getElem_of_mem hb
  have hmem : (branches[i], i) ∈ branches.zipIdx.reverse := by
    rw [List.mem_reverse, List.mk_mem_zipIdx_iff_getElem?]
    exact List.getElem?_eq_getElem hi
  unfold lastPositive?
  -- the search meets the positive branch at the latest
  cases hfind : branches.zipIdx.reverse.find? (fun c => decide (0 < c.1.probability)) with
  | none => exact absurd (decide_eq_true hpos) (List.find?_eq_none.1 hfind _ hmem)
  | some c => exact ⟨c.2, rfl⟩

/-- What is picked is the index of a branch. -/
theorem exists_branch_of_pickIndex? {branches : List Branch} {roll : Single} {i : Nat}
    (h : pickIndex? branches roll = some i) : ∃ b, branches[i]? = some b := by
  unfold pickIndex? at h
  simp only [Option.or_eq_some_iff] at h
  rcases h with h | ⟨_, h⟩
  · have hlt := (List.findIdx?_eq_some_iff_getElem.1 h).1
    rw [length_runningTotals] at hlt
    exact ⟨_, List.getElem?_eq_getElem hlt⟩
  · split at h
    · obtain ⟨b, hb, _⟩ := lastPositive?_eq_some h
      exact ⟨b, hb⟩
    · cases h

/-- Nothing is picked if no index is. -/
theorem pick?_eq_none_iff {branches : List Branch} {roll : Single} :
    pick? branches roll = none ↔ pickIndex? branches roll = none := by
  constructor
  · intro h
    cases hi : pickIndex? branches roll with
    | none => rfl
    | some i =>
        obtain ⟨b, hb⟩ := exists_branch_of_pickIndex? hi
        unfold pick? at h
        rw [hi] at h
        cases hb.symm.trans h
  · intro h
    unfold pick?
    rw [h]
    rfl

/-- **EVERY ROLL PICKS A BRANCH.** -/
theorem exists_pick {branches : List Branch} {roll : Single}
    (hall : ∀ b ∈ branches, b.probability.isProbability = true)
    (htotal : (total branches).isUnitTotal = true) (hroll : roll ≤ 1) :
    ∃ b ∈ branches, pick? branches roll = some b := by
  have hindex : ∃ i, pickIndex? branches roll = some i := by
    unfold pickIndex?
    simp only
    cases hfind : (runningTotals 0 branches).findIdx? (fun total => decide (roll ≤ total)) with
    | some i => exact ⟨i, rfl⟩
    | none =>
        -- no running total reaches the roll: the tolerance has to
        obtain ⟨r, hsum, hunits⟩ := exists_sum hall htotal
        have hreach : roll ≤ (runningTotals 0 branches).getLastD 0 + tolerance := by
          rw [runningTotals_getLastD, hsum]
          exact Single.le_trans hroll (Single.one_le_add_tolerance hunits)
        rw [Option.none_or, if_pos hreach]
        exact exists_lastPositive (exists_pos hall htotal)
  obtain ⟨i, hi⟩ := hindex
  obtain ⟨b, hb⟩ := exists_branch_of_pickIndex? hi
  refine ⟨b, List.mem_of_getElem? hb, ?_⟩
  unfold pick?
  rw [hi]
  exact hb

end Branch

/-- A roll is at most one. -/
theorem unitOfWord_le_one (w : UInt32) : unitOfWord w ≤ 1 := by
  obtain ⟨r, hr, hunits⟩ := hasUnits_unitOfWord w
  have htop := topBits_lt w
  rw [hr, Single.one_eq, Single.finite_le_finite, ← unitsAt_strictMono.le_iff_le, unitsAt_one,
    hunits]
  omega

end ArtGrammar
