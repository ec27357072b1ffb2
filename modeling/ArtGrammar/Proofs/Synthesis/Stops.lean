/-
  ArtGrammar.Proofs.Synthesis.Stops
  ────────────────────────────────
  **WHAT AN EXPANSION STOPS FOR IS TRUE.**

  An expansion of any grammar, sound or not, that stops without a tree tells one
  of three faults, and each says something of the grammar and the words drawn:

      unknownRule name               there is no such rule, and the start, or a
                                     rule it reaches, refers to it
      noBranches rule                the start reaches the rule, and it is empty
      exhausted rule roll total      the start reaches the rule, the last word
                                     rolled this roll, and it picks no branch

  Reaching is following references, of all branches and not only of those that
  are picked.  The fault can arise at any depth, and what is true of it there is
  true from the start on, because the start reaches whatever its references
  reach.
-/
import ArtGrammar.Proofs.Synthesis.Intervals
import ArtGrammar.Proofs.Synthesis.Locality

namespace ArtGrammar

/-! ## §1. Stopped runs. -/

namespace Drawing

/-- If the run from the position stops, then with something of the given kind at the
position it has reached. -/
def StopsAt {α : Type} (d : Drawing α) (tape : Tape) (i : Nat) (P : Nat → Halt → Prop) : Prop :=
  ∀ stop j, d.run tape i = (.error stop, j) → P j stop

section
variable {α β : Type} {tape : Tape} {i : Nat} {P Q : Nat → Halt → Prop}

theorem stopsAt_pure (a : α) : (pure a : Drawing α).StopsAt tape i P := by
  intro stop j h
  cases h

theorem stopsAt_halt {stop : Halt} (h : P i stop) : (halt stop : Drawing α).StopsAt tape i P := by
  intro stop' j hrun
  cases hrun
  exact h

/-- **A SEQUENCE STOPS IN ONE OF ITS PARTS**: in the first, or in the second from where
the first has finished. -/
theorem StopsAt.bind {d : Drawing α} {next : α → Drawing β} (hd : d.StopsAt tape i P)
    (hnext : ∀ a j, d.run tape i = (.ok a, j) → (next a).StopsAt tape j P) :
    (d >>= next).StopsAt tape i P := by
  intro stop k hrun
  cases hfirst : d.run tape i with
  | mk result j =>
      cases result with
      | error cause =>
          rw [run_bind_of_error hfirst] at hrun
          cases hrun
          exact hd stop k hfirst
      | ok a =>
          rw [run_bind_of_ok hfirst] at hrun
          exact hnext a j hfirst stop k hrun

/-- What is made of an answer stops nothing. -/
theorem StopsAt.map {d : Drawing α} (hd : d.StopsAt tape i P) (f : α → β) :
    (d >>= fun a => pure (f a)).StopsAt tape i P := hd.bind fun _ _ _ => stopsAt_pure _

theorem StopsAt.mono {d : Drawing α} (hd : d.StopsAt tape i P)
    (h : ∀ j stop, P j stop → Q j stop) : d.StopsAt tape i Q :=
  fun stop j hrun => h j stop (hd stop j hrun)

end

end Drawing

section
variable {tape : Tape} {P : Nat → Halt → Prop} (hdry : ∀ i, tape i = none → P i .dry)
include hdry

/-- A word is missing only where the tape has none. -/
theorem Drawing.stopsAt_word (i : Nat) : word.StopsAt tape i P := by
  intro stop j hrun
  cases htape : tape i with
  | none =>
      unfold word at hrun
      simp only [htape] at hrun
      cases hrun
      exact hdry i htape
  | some w =>
      rw [run_word_of_some htape] at hrun
      cases hrun

theorem Drawing.stopsAt_unit (i : Nat) : unit.StopsAt tape i P := (stopsAt_word hdry i).map _

theorem stopsAt_decaySteps : ∀ n i, (decaySteps n).StopsAt tape i P
  | 0, _ => Drawing.stopsAt_pure 0
  | n + 1, i => by
      unfold decaySteps
      apply (Drawing.stopsAt_unit hdry i).bind
      intro roll j _
      split
      · exact (stopsAt_decaySteps n j).map (· + 1)
      · exact Drawing.stopsAt_pure 0

theorem stopsAt_decay (budget : Int) (i : Nat) : (decay budget).StopsAt tape i P :=
  (stopsAt_decaySteps hdry _ i).map _

/-- A copy stops where words are missing, or in one of the references of its template. -/
theorem Expr.stopsAt_instantiate {f : String → Drawing Expr} (e : Expr) :
    (∀ name ∈ e.references, ∀ i, (f name).StopsAt tape i P) →
      ∀ i, (e.instantiate f).StopsAt tape i P := by
  -- the references of a part are among those of the whole, and each part begins where the
  -- one before it has finished
  induction e with
  | var v => exact fun _ _ => Drawing.stopsAt_pure _
  | number v => exact fun _ _ => Drawing.stopsAt_pure _
  | boolean b => exact fun _ _ => Drawing.stopsAt_pure _
  | random => exact fun _ i => ((Drawing.stopsAt_word hdry i).map signedOfWord).map _
  | rule name => exact fun h => h name (List.mem_singleton_self name)
  | abs a iha => exact fun h i => (iha h i).map _
  | arith op a b iha ihb =>
      intro h i
      simp only [references_arith, List.forall_mem_append] at h
      exact (iha h.1 i).bind fun _ j _ => (ihb h.2 j).map _
  | ge a b iha ihb =>
      intro h i
      simp only [references_ge, List.forall_mem_append] at h
      exact (iha h.1 i).bind fun _ j _ => (ihb h.2 j).map _
  | triple a b c iha ihb ihc =>
      intro h i
      simp only [references_triple, List.forall_mem_append] at h
      exact (iha h.1 i).bind fun _ j _ => (ihb h.2.1 j).bind fun _ k _ => (ihc h.2.2 k).map _
  | cond test yes no iha ihb ihc =>
      intro h i
      simp only [references_cond, List.forall_mem_append] at h
      exact (iha h.1 i).bind fun _ j _ => (ihb h.2.1 j).bind fun _ k _ => (ihc h.2.2 k).map _

end

/-! ## §2. Rolls that pick nothing. -/

namespace Branch

/-- **A ROLL THAT PICKS NOTHING EXCEEDS THE TOTAL.**  The total that is told begins at
the other zero than the sum that the roll was compared with, and so may be another
zero, but no other number. -/
theorem total_lt_of_pick?_eq_none {branches : List Branch} {roll : Single}
    (hall : ∀ b ∈ branches, b.probability.isProbability = true) (hne : branches ≠ [])
    (hroll : roll ≠ .nan) (h : pick? branches roll = none) : total branches < roll := by
  -- the last running total is one that the roll exceeds
  have hnot := (pickIndex?_eq_none_iff.1 (pick?_eq_none_iff.1 h)).1 _
    (getLastD_mem_runningTotals hne 0)
  rw [runningTotals_getLastD] at hnot
  have hsum := (isMagnitude_foldl branches hall Single.isMagnitude_zero).ne_nan
  have hlt := Single.lt_of_not_le hroll hsum hnot
  rcases agreesUpToZero_total branches with heq | ⟨htotal, hzero⟩
  · rw [heq]
    exact hlt
  · -- both zeros have one place
    rw [htotal]
    have hlt : Single.zero false < roll := hzero ▸ hlt
    exact hlt

end Branch

/-- No word rolls anything but a number. -/
theorem unitOfWord_ne_nan (w : UInt32) : unitOfWord w ≠ .nan :=
  (Single.ne_nan_of_le (unitOfWord_le_one w)).1

/-! ## §3. Expansions. -/

namespace Grammar

/-- References lead from the first rule to the second, or they are the same. -/
def Reaches (g : Grammar) : String → String → Prop := Relation.ReflTransGen g.Refers

/-- What a stop says of the grammar and of the tape, if it is to be true of an
expansion of the start rule that has come to the position. -/
def Explains (g : Grammar) (tape : Tape) (start : String) (position : Nat) : Halt → Prop
  | .fault (.unknownRule name) =>
    g.find? name = none ∧ (name = start ∨ ∃ rule, g.Reaches start rule ∧ g.Refers rule name)
  | .fault (.grammar (.noBranches rule)) => g.Reaches start rule ∧ g.find? rule = some []
  | .fault (.exhausted rule roll total) =>
    g.Reaches start rule ∧ ∃ branches, g.find? rule = some branches
      ∧ total = Branch.total branches
      ∧ (∃ i w, position = i + 1 ∧ tape i = some w ∧ roll = unitOfWord w)
      ∧ Branch.pick? branches roll = none
      ∧ (branches ≠ [] →
          (∀ b ∈ branches, b.probability.isFinite = true ∧ 0 ≤ b.probability) → total < roll)
  | .fault _ => False
  | .dry => tape position = none
  | .unfinished => True
  | .overflow => False

theorem explains_dry (g : Grammar) {tape : Tape} (start : String) (i : Nat)
    (h : tape i = none) : g.Explains tape start i .dry := h

/-- **WHAT IS TRUE OF A REFERENCE IS TRUE OF THE RULE THAT REFERS.** -/
theorem Explains.of_reference {g : Grammar} {tape : Tape} {start inner : String}
    (href : g.Refers start inner) {position : Nat} {stop : Halt}
    (h : g.Explains tape inner position stop) : g.Explains tape start position stop := by
  unfold Explains at h ⊢
  split at h
  next name =>
    obtain ⟨hnone, hname⟩ := h
    refine ⟨hnone, Or.inr ?_⟩
    rcases hname with rfl | ⟨rule, hreach, hrefers⟩
    · exact ⟨start, .refl, href⟩
    · exact ⟨rule, .head href hreach, hrefers⟩
  next rule => exact ⟨.head href h.1, h.2⟩
  next rule roll total => exact ⟨.head href h.1, h.2⟩
  next => exact h
  next => exact h
  next => trivial
  next => exact h

/-- Taking a branch stops for want of branches, for want of one that covers the roll, or
for want of words. -/
theorem stopsAt_select {g : Grammar} {tape : Tape} {rule : String} {branches : List Branch}
    (hfind : g.find? rule = some branches) (budget : Int) (i : Nat) :
    (Branch.select rule branches budget).StopsAt tape i (g.Explains tape rule) := by
  unfold Branch.select
  split
  -- a spent budget takes the first branch, so there has to be one
  · cases branches with
    | nil => exact Drawing.stopsAt_halt ⟨.refl, hfind⟩
    | cons b rest => exact Drawing.stopsAt_pure b
  · apply (Drawing.stopsAt_unit (g.explains_dry rule) i).bind
    intro roll j hunit
    cases hpick : Branch.pick? branches roll with
    | some b => exact Drawing.stopsAt_pure b
    | none =>
        -- the roll is made of the word just before the position
        obtain ⟨w, k, hword, hroll⟩ := Drawing.run_bind_eq_ok.1 hunit
        obtain ⟨htape, rfl⟩ := Drawing.run_word_eq_ok.1 hword
        obtain ⟨rfl, rfl⟩ := Drawing.run_pure_eq_ok.1 hroll
        refine Drawing.stopsAt_halt
          ⟨.refl, branches, hfind, rfl, ⟨i, w, rfl, htape, rfl⟩, hpick, fun hne hprob => ?_⟩
        exact Branch.total_lt_of_pick?_eq_none (fun b hb => Single.isProbability_iff.2 (hprob b hb))
          hne (unitOfWord_ne_nan w) hpick

/-- An expansion within a limit stops for what is true. -/
theorem stopsAt_expandWithin (g : Grammar) (tape : Tape) :
    ∀ limit start budget i,
      (g.expandWithin limit start budget).StopsAt tape i (g.Explains tape start) := by
  -- on the limit, which bounds the nesting of the references
  intro limit
  induction limit with
  | zero => exact fun start budget i => Drawing.stopsAt_halt trivial
  | succ limit ih =>
      intro start budget i
      unfold expandWithin
      cases hfind : g.find? start with
      | none => exact Drawing.stopsAt_halt ⟨hfind, Or.inl rfl⟩
      | some branches =>
          apply (stopsAt_select hfind budget i).bind
          intro b j hselect
          apply Expr.stopsAt_instantiate (g.explains_dry start)
          intro name hname k
          have href : g.Refers start name :=
            ⟨branches, hfind, b, Branch.mem_of_run_select hselect, hname⟩
          apply (stopsAt_decay (g.explains_dry start) budget k).bind
          intro left l _
          exact (ih name left l).mono fun _ _ h => h.of_reference href

/-- **AN EXPANSION STOPS FOR WHAT IS TRUE.**  Whatever the grammar, the budget, the limit
and the tape: if the expansion of a start rule stops for a fault, then that is an
unknown rule, a rule without branches or an exhausted one, and what the fault says of
it is true.  The rule is the start or reached from it; an exhausted one has the total
that is told, and the last word drawn has the roll that is told, which picks none of
its branches and exceeds the total if the probabilities are finite and not negative.
If it stops for want of a word, then the tape has none at that position, so on an
endless tape it never does. -/
theorem expansion_stop_explained (g : Grammar) (tape : Tape) (start : String) (budget : Int)
    (i : Nat) :
    (∀ limit stop j, (g.expandWithin limit start budget).run tape i = (.error stop, j) →
        g.Explains tape start j stop)
      ∧ (∀ stop j, (g.expandRule start budget).run tape i = (.error stop, j) →
        g.Explains tape start j stop)
      ∧ ∀ word j, (g.expandRule start budget).run (Tape.endless word) i ≠ (.error .dry, j) := by
  refine ⟨fun limit => g.stopsAt_expandWithin tape limit start budget i,
    g.stopsAt_expandWithin tape _ start budget i, fun word j hrun => ?_⟩
  have hnone := g.stopsAt_expandWithin (Tape.endless word) _ start budget i _ j hrun
  cases hnone

/-- A grammar with all three faults: the probabilities of one rule are short of one, one
rule has no branches, and one is referred to and missing. -/
def faulty : Grammar :=
  ofList [("E", Branch.uniform [.abs (.rule "A"), .abs (.rule "B"), .abs (.rule "C")]),
    ("A", Branch.weighted [(.var .x, Single.ofRatio false 1 2), (.var .y, Single.ofRatio false 1 4)]),
    ("B", [])]

/-- The first word picks one of the references, and the second ends the decay of the
budget.  A large roll then exceeds the three quarters of the first rule; the second one
has nothing to take when the budget is spent; the third is missing. -/
theorem expansion_stop_explained_faulty :
    (faulty.expandRule "E" 3).run (Tape.ofList [0, 0xffffffff, 0xffffffff]) 0
        = (.error (.fault (.exhausted "A" (unitOfWord 0xffffffff) (Single.ofRatio false 3 4))), 3)
      ∧ faulty.Explains (Tape.ofList [0, 0xffffffff, 0xffffffff]) "E" 3
          (.fault (.exhausted "A" (unitOfWord 0xffffffff) (Single.ofRatio false 3 4)))
      ∧ (faulty.expandRule "E" 1).run (Tape.ofList [0x80000000, 0xffffffff]) 0
          = (.error (.fault (.grammar (.noBranches "B"))), 2)
      ∧ faulty.Reaches "E" "B" ∧ faulty.find? "B" = some []
      ∧ (faulty.expandRule "E" 1).run (Tape.ofList [0xffffffff, 0xffffffff]) 0
          = (.error (.fault (.unknownRule "C")), 2)
      ∧ faulty.find? "C" = none := by
  have hexhausted : (faulty.expandRule "E" 3).run (Tape.ofList [0, 0xffffffff, 0xffffffff]) 0
      = (.error (.fault (.exhausted "A" (unitOfWord 0xffffffff) (Single.ofRatio false 3 4))), 3) := by
    decide +kernel
  have hempty : (faulty.expandRule "E" 1).run (Tape.ofList [0x80000000, 0xffffffff]) 0
      = (.error (.fault (.grammar (.noBranches "B"))), 2) := by decide +kernel
  have hmissing : (faulty.expandRule "E" 1).run (Tape.ofList [0xffffffff, 0xffffffff]) 0
      = (.error (.fault (.unknownRule "C")), 2) := by decide +kernel
  obtain ⟨hreach, hfind⟩ := (expansion_stop_explained faulty _ "E" 1 0).2.1 _ 2 hempty
  obtain ⟨hnone, _⟩ := (expansion_stop_explained faulty _ "E" 1 0).2.1 _ 2 hmissing
  exact ⟨hexhausted, (expansion_stop_explained faulty _ "E" 3 0).2.1 _ 3 hexhausted, hempty,
    hreach, hfind, hmissing, hnone⟩

end Grammar

end ArtGrammar
