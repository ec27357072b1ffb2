/-
  ArtGrammar.Proofs.Synthesis.Nesting
  ────────────────────────────────
  **HOW DEEP RULES NEST, AND HOW LARGE TREES GROW.**

  For a validated grammar of `n` rules whose templates have height `H` at most,
  an expansion within the budget `d` is bounded whatever is drawn:

      nested rules     at most  max d 0 + n
      budgets          at least min d (-1) - n
      height           at most  (max d 0 + n) * (H - 1) + 1
      nodes            at most  (3 ^ h - 1) / 2 in a tree of height h

  `Sustains` is the measure: so many rules can still nest, and the budget is far
  enough above its floor for each of them to take one.  While the budget is
  positive it counts them, and once it is spent the first branches do.
-/
import ArtGrammar.Proofs.Expr.Measure
import ArtGrammar.Proofs.Synthesis.Calls
import ArtGrammar.Proofs.Synthesis.Reachability

namespace ArtGrammar

/-! ## §1. Heights. -/

/-- Trees in place of references make a template higher by less than their own
height. -/
theorem Expr.Instance.height_lt {Fills : String → Expr → Prop} {bound : Nat} (hbound : 0 < bound)
    (h : ∀ name u, Fills name u → u.height ≤ bound) {e t : Expr} (ht : e.Instance Fills t) :
    t.height < e.height + bound := by
  induction ht with
  | var v => simp only [height]; omega
  | number v => simp only [height]; omega
  | boolean b => simp only [height]; omega
  | random k _ _ => simp only [height]; omega
  | rule ht =>
      have hle := h _ _ ht
      simp only [height]
      omega
  | abs _ iha => simp only [height]; omega
  | arith op _ _ iha ihb => simp only [height]; omega
  | ge _ _ iha ihb => simp only [height]; omega
  | triple _ _ _ iha ihb ihc => simp only [height]; omega
  | cond _ _ _ iha ihb ihc => simp only [height]; omega

namespace Grammar

/-- No template of the grammar is higher. -/
def TemplatesWithin (g : Grammar) (height : Nat) : Prop :=
  ∀ r ∈ g.rules, ∀ b ∈ r.branches, b.template.height ≤ height

instance (g : Grammar) (height : Nat) : Decidable (g.TemplatesWithin height) :=
  inferInstanceAs (Decidable (∀ r ∈ g.rules, ∀ b ∈ r.branches, b.template.height ≤ height))

/-- **EACH RULE ADDS AT MOST THE HEIGHT OF A TEMPLATE, LESS ONE.** -/
theorem DerivesWithin.height_le {g : Grammar} {Allowed : List Branch → Nat → Prop} {height : Nat}
    (hheight : g.TemplatesWithin height) :
    ∀ {depth rule t}, g.DerivesWithin Allowed depth rule t → t.height ≤ depth * (height - 1) + 1
  | 0, _, _, h => h.elim
  | depth + 1, _, t, ⟨branches, _, b, hfind, hget, _, ht⟩ => by
      have hlt := ht.height_lt (Nat.succ_pos _) fun _ _ h => h.height_le hheight
      have hb := hheight _ (find?_eq_some_iff.1 hfind) b (List.mem_of_getElem? hget)
      have hpos := b.template.height_pos
      rw [Nat.succ_mul]
      omega

/-! ## §2. The measure. -/

/-- So many rules can still nest, the rule itself included, and no budget among
them falls below the floor. -/
def Sustains (g : Grammar) (floor : Int) (depth : Nat) (rule : String) (budget : Int) : Prop :=
  if 0 < budget then budget.toNat + g.size ≤ depth ∧ floor + g.size ≤ -1
  else g.EndsWithin depth rule ∧ floor + depth ≤ min budget (-1) + 1

section
variable {g : Grammar} {floor : Int} {depth : Nat} {rule : String} {budget : Int}

theorem Sustains.pos (h : g.Sustains floor depth rule budget) : 0 < depth := by
  unfold Sustains at h
  split at h
  · omega
  · cases depth with
    | zero => exact h.1.elim
    | succ depth => omega

theorem Sustains.floor_le (h : g.Sustains floor depth rule budget) : floor ≤ budget := by
  have hpos := h.pos
  unfold Sustains at h
  split at h
  · omega
  · omega

theorem Sustains.mono {floor' : Int} (h : g.Sustains floor depth rule budget)
    (hle : floor' ≤ floor) : g.Sustains floor' depth rule budget := by
  unfold Sustains at h ⊢
  split at h
  · rw [if_pos ‹_›]
    exact ⟨h.1, by omega⟩
  · rw [if_neg ‹_›]
    exact ⟨h.1, by omega⟩

/-- A contained rule sustains the floor that its budget and its grammar set. -/
theorem sustains_of_contains (hg : g.Trusted) (hrule : g.contains rule = true) (budget : Int) :
    g.Sustains (min budget (-1) - g.size) (budget.toNat + g.size) rule budget := by
  unfold Sustains
  split
  · omega
  · refine ⟨(hg.ends rule hrule).mono (by omega), ?_⟩
    omega

/-- What can still nest is within the limits of an expansion. -/
theorem Sustains.affords (h : g.Sustains floor depth rule budget) :
    g.Affords depth rule budget := by
  unfold Sustains at h
  unfold Affords
  split
  · rw [if_pos ‹_›] at h
    exact h.1
  · rw [if_neg ‹_›] at h
    exact h.1

/-- **ONE REFERENCE LEAVES FEWER RULES TO NEST.** -/
theorem Sustains.reference (hg : g.Trusted) (h : g.Sustains floor depth rule budget)
    {branches : List Branch} {b : Branch} {name : String} {left : Int}
    (hfind : g.find? rule = some branches) (hfirst : budget ≤ 0 → branches.head? = some b)
    (hname : name ∈ b.template.references) (hknown : g.contains name = true)
    (hlow : min budget (-1) - 1 ≤ left) (hleft : left < budget) :
    ∃ rest < depth, g.Sustains floor rest name left := by
  have hpos := h.pos
  unfold Sustains at h ⊢
  by_cases hbudget : 0 < budget
  · rw [if_pos hbudget] at h
    by_cases hpositive : 0 < left
    · exact ⟨depth - 1, by omega, by rw [if_pos hpositive]; omega⟩
    · -- the budget is spent: from here on as many rules nest as there are
      refine ⟨g.size, by omega, ?_⟩
      rw [if_neg hpositive]
      exact ⟨hg.ends name hknown, by omega⟩
  · rw [if_neg hbudget] at h
    cases depth with
    | zero => omega
    | succ depth =>
        -- a spent budget stays spent, and the branch is the first one
        obtain ⟨⟨first, rest, hbranches, hinner⟩, hfloor⟩ := h
        rw [hfind] at hbranches
        cases hbranches
        cases hfirst (by omega)
        refine ⟨depth, by omega, ?_⟩
        rw [if_neg (by omega)]
        exact ⟨hinner name hname, by omega⟩

end

/-- One call keeps the measure. -/
theorem Calls.sustains {g : Grammar} (hg : g.Trusted) {tape : Tape} {outer inner : Call}
    (h : g.Calls tape outer inner) {floor : Int} {depth : Nat}
    (houter : g.Sustains floor depth outer.rule outer.budget) :
    inner.budget < outer.budget
      ∧ ∃ rest < depth, g.Sustains floor rest inner.rule inner.budget := by
  obtain ⟨branches, b, i, j, hfind, hselect, hvisit, hdecay⟩ := h
  have hname := Expr.mem_references_of_mem_visits hvisit
  have hknown := (hg.sound _ branches hfind).references b (Branch.mem_of_run_select hselect)
    inner.rule hname
  obtain ⟨hlow, hleft⟩ := bounds_of_run_decay hdecay
  exact ⟨hleft, houter.reference hg hfind (Branch.head?_of_run_select hselect) hname hknown hlow
    hleft⟩

/-- **EVERY NESTED CALL KEEPS THE MEASURE**, less the calls around it. -/
theorem Nests.sustains {g : Grammar} (hg : g.Trusted) {tape : Tape} {outer inner : Call}
    {floor : Int} {most depth : Nat} (houter : g.Sustains floor most outer.rule outer.budget)
    (h : g.Nests tape outer depth inner) :
    inner.budget ≤ outer.budget
      ∧ ∃ rest, depth + rest ≤ most ∧ g.Sustains floor rest inner.rule inner.budget := by
  induction h with
  | self => exact ⟨Int.le_refl _, most, by omega, houter⟩
  | call _ hcall ih =>
      obtain ⟨hmiddle, rest, hrest, hsustains⟩ := ih
      obtain ⟨hinner, rest', hrest', hsustains'⟩ := hcall.sustains hg hsustains
      exact ⟨by omega, rest', by omega, hsustains'⟩

/-! ## §3. The bounds. -/

/-- **WHAT IS DRAWN DOES NOT MATTER FOR HOW LARGE AN EXPANSION CAN GROW.**  In
the expansion of a contained rule of a validated grammar, on every endless tape
and from every position: no call stands deeper than the budget and the number of
rules allow, none gets a budget below the floor, so every budget has 32 bits if the first
one does and is not negative, or is as far above the least one as there are rules; and the
expansion ends, also if it is cut off at that nesting, with a tree of bounded height and
bounded size. -/
theorem expansion_bounded {g : Grammar} (hg : g.validate = .ok ()) {height : Nat}
    (hheight : g.TemplatesWithin height) {rule : String} (hrule : g.contains rule = true)
    (budget : Int) (word : Nat → UInt32) (i : Nat) :
    (∀ depth inner, g.Nests (Tape.endless word) ⟨rule, budget, i⟩ depth inner →
        depth + 1 ≤ budget.toNat + g.size
          ∧ min budget (-1) - g.size ≤ inner.budget
          ∧ (0 ≤ budget → budget < 0x80000000 → g.size < 0x7FFFFFFF →
              -0x80000000 ≤ inner.budget ∧ inner.budget < 0x80000000)
          ∧ (-0x80000000 ≤ min budget (-1) - g.size → budget < 0x80000000 →
              -0x80000000 ≤ inner.budget ∧ inner.budget < 0x80000000))
      ∧ ∃ t j, (g.expandRule rule budget).run (Tape.endless word) i = (.ok t, j)
          ∧ (g.expandWithin (budget.toNat + g.size) rule budget).run (Tape.endless word) i
              = (.ok t, j)
          ∧ t.height ≤ (budget.toNat + g.size) * (height - 1) + 1
          ∧ t.nodeCount ≤ (3 ^ t.height - 1) / 2 := by
  have htrusted := trusted_of_validate hg
  have hsustains := sustains_of_contains htrusted hrule budget
  constructor
  · intro depth inner hnests
    obtain ⟨hle, rest, hrest, hinner⟩ := hnests.sustains htrusted hsustains
    have hpos := hinner.pos
    have hfloor := hinner.floor_le
    change inner.budget ≤ budget at hle
    exact ⟨by omega, hfloor, fun _ _ _ => by omega, fun _ _ => by omega⟩
  · obtain ⟨t, j, hrun, _⟩ := delivers_expandWithin htrusted word _ rule budget hrule
      hsustains.affords i
    have hderives := g.derivesWithin_of_run_expandWithin _ rule budget t i j hrun
    refine ⟨t, j, ?_, hrun, hderives.height_le hheight, t.nodeCount_le⟩
    exact (g.expandWithin_extendedBy rule budget (Nat.le_succ _)).run_eq_ok hrun

/-- On the tape of zeros a budget of one falls to minus two for the first channel,
and by one more for the leaf in it. -/
theorem expansion_bounded_classic :
    classic.validate = .ok () ∧ classic.TemplatesWithin 2 ∧ classic.contains "E" = true
      ∧ classic.Nests (Tape.endless fun _ => 0) ⟨"E", 1, 0⟩ 2 ⟨"A", -3, 3⟩
      ∧ 2 + 1 ≤ (1 : Int).toNat + classic.size
      ∧ ∃ t j, (classic.expandRule "E" 1).run (Tape.endless fun _ => 0) 0 = (.ok t, j)
          ∧ t.height ≤ 5 ∧ t.nodeCount ≤ (3 ^ t.height - 1) / 2 := by
  have hvalid : classic.validate = .ok () := by decide +kernel
  have hheight : classic.TemplatesWithin 2 := by decide +kernel
  have hrule : classic.contains "E" = true := by decide
  have hchannel : classic.Calls (Tape.endless fun _ => 0) ⟨"E", 1, 0⟩ ⟨"C", -2, 3⟩ := by
    refine ⟨_, ⟨.triple (.rule "C") (.rule "C") (.rule "C"), 1⟩, 1, 1, rfl, ?_, ?_, ?_⟩
    · decide +kernel
    · exact List.mem_append_left _ (List.mem_singleton_self _)
    · decide +kernel
  have hleaf : classic.Calls (Tape.endless fun _ => 0) ⟨"C", -2, 3⟩ ⟨"A", -3, 3⟩ := by
    refine ⟨_, ⟨.rule "A", _⟩, 3, 3, rfl, rfl, ?_, ?_⟩
    · exact List.mem_singleton_self _
    · decide +kernel
  have hnests := (Nests.self.call hchannel).call hleaf
  obtain ⟨hcalls, t, j, hrun, _, hheight', hnodes⟩ :=
    expansion_bounded hvalid hheight hrule 1 (fun _ => 0) 0
  exact ⟨hvalid, hheight, hrule, hnests, (hcalls 2 _ hnests).1, t, j, hrun, hheight', hnodes⟩

end Grammar

end ArtGrammar
