/-
  ArtGrammar.Proofs.Synthesis.Decay
  ────────────────────────────────
  **HOW FAR A BUDGET DECAYS, AND WHICH WORDS THAT TAKES.**

  A decay goes on while draws are at most one half, and no further than the floor, where
  nothing is drawn any more.  So one number tells all of it: let `k` be the number of
  draws before the first one above one half, at most `max (budget + 1) 0`.

      ended by     words drawn           budget left
      a draw       k + 1                 budget - 1 - k,  at least -1
      the floor    max (budget + 1) 0    -2,  or budget - 1 if it was negative before

  A budget of 32 bits decays in the same way, in every build, unless it is the least one.
-/
import ArtGrammar.Proofs.Draws.Runs
import ArtGrammar.Synthesis.Overflow

namespace ArtGrammar

/-! ## §1. Leading draws. -/

/-- Of the words, at most the given number of which count, `k` in front let a budget decay. -/
structure Leads (word : Nat → UInt32) (most k : Nat) : Prop where
  le_most : k ≤ most
  decays : ∀ n < k, unitOfWord (word n) ≤ decayProbability
  stops : k < most → ¬ unitOfWord (word k) ≤ decayProbability

section
variable {word : Nat → UInt32} {most k k' : Nat}

theorem Leads.le (h : Leads word most k) (h' : Leads word most k') : k ≤ k' := by
  refine Nat.not_lt.1 fun hlt => ?_
  -- the draw that ends the shorter count would be in the longer one
  exact h'.stops (Nat.lt_of_lt_of_le hlt h.le_most) (h.decays k' hlt)

/-- The leading draws are counted in one way only, -/
theorem Leads.unique (h : Leads word most k) (h' : Leads word most k') : k = k' :=
  Nat.le_antisymm (h.le h') (h'.le h)

/-- and always counted. -/
theorem exists_leads (word : Nat → UInt32) (most : Nat) : ∃ k, Leads word most k := by
  induction most with
  | zero => exact ⟨0, Nat.le_refl 0, nofun, nofun⟩
  | succ most ih =>
      obtain ⟨k, h⟩ := ih
      have hle := h.le_most
      by_cases hstopped : k < most
      · exact ⟨k, by omega, h.decays, fun _ => h.stops hstopped⟩
      · by_cases hword : unitOfWord (word k) ≤ decayProbability
        · -- all have decayed so far, and so does the next one
          refine ⟨k + 1, by omega, fun n hn => ?_, by omega⟩
          rcases Nat.lt_succ_iff_lt_or_eq.1 hn with hn | rfl
          · exact h.decays n hn
          · exact hword
        · exact ⟨k, by omega, h.decays, fun _ => hword⟩

/-- Without the first word there is one leading draw less. -/
theorem Leads.tail (h : Leads word (most + 1) (k + 1)) : Leads (fun n => word (n + 1)) most k where
  le_most := Nat.le_of_succ_le_succ h.le_most
  decays := fun n hn => h.decays (n + 1) (Nat.succ_lt_succ hn)
  stops := fun hlt => h.stops (Nat.succ_lt_succ hlt)

/-! ## §2. Words of a decay. -/

/-- The words that are drawn: the leading ones, and the one that stops the decay unless it
is the floor that does. -/
def decayWords (word : Nat → UInt32) (most k : Nat) : List UInt32 :=
  (List.range (if k < most then k + 1 else most)).map word

theorem decayWords_zero (word : Nat → UInt32) (most : Nat) :
    decayWords word (most + 1) 0 = [word 0] := by
  unfold decayWords
  rw [if_pos (Nat.succ_pos most)]
  rfl

theorem decayWords_succ (word : Nat → UInt32) (most k : Nat) :
    decayWords word (most + 1) (k + 1)
      = word 0 :: decayWords (fun n => word (n + 1)) most k := by
  have hcount : (if k + 1 < most + 1 then k + 1 + 1 else most + 1)
      = (if k < most then k + 1 else most) + 1 := by
    by_cases h : k < most
    · rw [if_pos h, if_pos (Nat.succ_lt_succ h)]
    · rw [if_neg h, if_neg fun h' => h (Nat.lt_of_succ_lt_succ h')]
  unfold decayWords
  rw [hcount, List.range_succ_eq_map, List.map_cons, List.map_map]
  rfl

/-- **A DECAY DRAWS ITS WORDS AND NO OTHERS**, and counts the leading ones. -/
theorem Leads.spends_decaySteps :
    ∀ {most k : Nat} {word : Nat → UInt32}, Leads word most k →
      (decaySteps most).Spends (decayWords word most k) k := by
  -- the first word is taken off in each step, so the words stay open
  intro most
  induction most with
  | zero =>
      intro k word h
      obtain rfl : k = 0 := Nat.le_zero.1 h.le_most
      exact Drawing.spends_pure 0
  | succ most ih =>
      intro k word h
      unfold decaySteps
      cases k with
      | zero =>
          rw [decayWords_zero]
          refine (Drawing.spends_unit (word 0)).bind_nil ?_
          rw [if_neg (h.stops (Nat.succ_pos most))]
          exact Drawing.spends_pure 0
      | succ k =>
          rw [decayWords_succ]
          refine (Drawing.spends_unit (word 0)).bind ?_
          rw [if_pos (h.decays 0 (Nat.succ_pos k))]
          exact (ih h.tail).map (· + 1)

theorem length_decayWords (word : Nat → UInt32) (most k : Nat) :
    (decayWords word most k).length = if k < most then k + 1 else most := by
  rw [decayWords, List.length_map, List.length_range]

/-- Words that stand on a tape one after the other are held by it. -/
theorem Tape.holds_range {tape : Tape} {count : Nat} :
    ∀ {i : Nat} {word : Nat → UInt32}, (∀ n < count, tape (i + n) = some (word n)) →
      tape.Holds i ((List.range count).map word) := by
  induction count with
  | zero => exact fun _ => trivial
  | succ count ih =>
      intro i word h
      rw [List.range_succ_eq_map, List.map_cons, List.map_map]
      refine ⟨h 0 (Nat.succ_pos count), ih fun n hn => ?_⟩
      rw [Nat.add_assoc, Nat.add_comm 1]
      exact h (n + 1) (Nat.succ_lt_succ hn)

theorem Leads.spends_decay {budget : Int} (h : Leads word (budget + 1).toNat k) :
    (decay budget).Spends (decayWords word (budget + 1).toNat k) (budget - 1 - k) :=
  h.spends_decaySteps.map fun steps => budget - 1 - (steps : Int)

/-- What a budget decays to on a tape with its words. -/
theorem Leads.run_decay {budget : Int} (h : Leads word (budget + 1).toNat k) {tape : Tape} {i : Nat}
    (htape : ∀ n < (if k < (budget + 1).toNat then k + 1 else (budget + 1).toNat),
      tape (i + n) = some (word n)) :
    (decay budget).run tape i
      = (.ok (budget - 1 - k),
          i + if k < (budget + 1).toNat then k + 1 else (budget + 1).toNat) := by
  rw [h.spends_decay tape i (Tape.holds_range htape), length_decayWords]

end

/-! ## §3. Budgets of 32 bits. -/

/-- A budget of 32 bits loses one for each of the draws that are counted. -/
theorem alike_descend (tape : Tape) :
    ∀ (most : Nat) (budget : Int32) (i : Nat), (budget.toInt + 1).toNat = most →
      Drawing.Alike (fun left steps => steps ≤ most ∧ left.toInt = budget.toInt - (steps : Int))
        ((descend budget).run tape i) ((decaySteps most).run tape i) := by
  intro most
  induction most with
  | zero =>
      intro budget i hmost
      have hfloor : ¬ 0 ≤ budget := by
        rw [Int32.le_iff_toInt_le, Int32.toInt_zero]
        omega
      rw [descend, dif_neg hfloor]
      exact .answered i ⟨Nat.le_refl 0, by simp⟩
  | succ most ih =>
      intro budget i hmost
      have hbudget : 0 ≤ budget.toInt := by omega
      have hleast : Int32.minValue < budget :=
        Int32.lt_iff_toInt_lt.2 (Int.lt_of_lt_of_le (by decide) hbudget)
      have hless := toInt_sub_one hleast
      have hpos : 0 ≤ budget := by
        rw [Int32.le_iff_toInt_le, Int32.toInt_zero]
        exact hbudget
      rw [descend, dif_pos hpos, decaySteps]
      refine (Drawing.alike_refl _).bind ?_
      rintro roll _ j rfl
      split
      · refine (ih (budget - 1) j (by omega)).map_right fun left steps h => ?_
        omega
      · exact .answered j (by omega)

/-- **ABOVE THE LEAST BUDGET A DECAY IS THE ONE WITHOUT BOUNDS**, in every build: the same
words are drawn, and the same number is left. -/
theorem Overflow.alike_decay (o : Overflow) {budget : Int32} (h : Int32.minValue < budget)
    (tape : Tape) (i : Nat) :
    Drawing.Alike
      (fun left left' => left.toInt = left' ∧ min budget.toInt (-1) - 1 ≤ left'
        ∧ left' < budget.toInt)
      ((o.decay budget).run tape i) ((ArtGrammar.decay budget.toInt).run tape i) := by
  refine (alike_descend tape _ budget i rfl).bind ?_
  rintro reached steps j ⟨hsteps, hreached⟩
  have hlow : -0x80000000 < budget.toInt := Int32.lt_iff_toInt_lt.1 h
  -- counting stops at minus one, so the least budget is not reached
  have hleast : Int32.minValue < reached := Int32.lt_iff_toInt_lt.2 (show -0x80000000 < _ by omega)
  have hless : (o.less reached).run tape j = (.ok (reached - 1), j) := by
    cases o with
    | wraps => rfl
    | stops => rw [Overflow.less, if_neg (Int32.ne_of_lt hleast).symm, Drawing.run_pure]
  have htoInt := toInt_sub_one hleast
  rw [hless]
  exact .answered j (by omega)

/-- The least word so many times, and the greatest from there on. -/
def risingAt (k n : Nat) : UInt32 := if n < k then 0 else 0xFFFFFFFF

/-- Every number of leading draws occurs. -/
theorem leads_risingAt {most k : Nat} (h : k ≤ most) : Leads (risingAt k) most k where
  le_most := h
  decays := fun n hn => by rw [risingAt, if_pos hn]; decide
  stops := fun _ => by rw [risingAt, if_neg (Nat.lt_irrefl k)]; decide

end ArtGrammar
