/-
  ArtGrammar.Proofs.Synthesis.Overflow
  ────────────────────────────────
  **AN EXPANSION WITHIN 32 BITS IS THE ONE WITHOUT BOUNDS.**

  Budgets without bounds are what the properties of expansions are proved for.  A budget
  of 32 bits goes with the number it stands for, as long as nothing is to be taken from the
  least one; so expansions within the two go together

      up to the overflow           in every grammar, in the build that stops there
      within limits with room      in every grammar, in every build
      without a limit              in a valid grammar, in every build, if the budget is
                                   as far above the least one as there are rules

  `Matches` is the simulation: a relation of budgets that each reference keeps.
-/
import ArtGrammar.Proofs.Synthesis.Configuration
import ArtGrammar.Proofs.Synthesis.Nesting

namespace ArtGrammar

namespace Grammar

/-! ## §1. Simulations. -/

/-- Related budgets stand for the same number, and each reference that is met within
them leaves related ones, within one rule less to nest.  On the left it may also stop for
the given reason. -/
structure Matches (g : Grammar) (stop : Halt) (tape : Tape) {β γ : Type} (kind : Budgets β)
    (kind' : Budgets γ) (R : Nat → String → β → γ → Prop) : Prop where
  value_eq : ∀ {limit name b c}, R limit name b c → kind.value b = kind'.value c
  reference : ∀ {limit name b c branches branch inner}, R (limit + 1) name b c →
    g.find? name = some branches → branch ∈ branches →
    (kind.value b ≤ 0 → branches.head? = some branch) → inner ∈ branch.template.references →
    ∀ i, ((kind.decay b).run tape i).1 = .error stop
      ∨ Drawing.Alike (R limit inner) ((kind.decay b).run tape i) ((kind'.decay c).run tape i)

/-- **EXPANSIONS WITHIN RELATED BUDGETS DO THE SAME.** -/
theorem Matches.extendedAt {g : Grammar} {stop : Halt} {tape : Tape} {β γ : Type}
    {kind : Budgets β} {kind' : Budgets γ} {R : Nat → String → β → γ → Prop}
    (hR : g.Matches stop tape kind kind' R) :
    ∀ limit name b c, R limit name b c → ∀ i,
      (g.expandVia kind limit name b).ExtendedAt stop tape i (g.expandVia kind' limit name c) := by
  intro limit
  induction limit with
  | zero => exact fun _ _ _ _ i => .refl tape i _
  | succ limit ih =>
      intro name b c h i
      unfold expandVia
      cases hfind : g.find? name with
      | none => exact .refl tape i _
      | some branches =>
          rw [hR.value_eq h]
          refine (Drawing.ExtendedAt.refl tape i _).bind fun branch j hselect => ?_
          refine branch.template.instantiate_extendedAt (fun inner hinner k => ?_) j
          rw [← hR.value_eq h] at hselect
          rcases hR.reference h hfind (Branch.mem_of_run_select hselect)
            (Branch.head?_of_run_select hselect) hinner k with hstop | halike
          · exact .of_stopped hstop
          · exact halike.bind_extendedAt fun left left' l hleft => ih inner left left' hleft l

end Grammar

/-! ## §2. Up to the overflow. -/

namespace Grammar

/-- Related budgets of which the one of 32 bits is never the least one, whenever a
reference is met, make one expansion in every build. -/
theorem run_expandIn_of_matches {g : Grammar} {o : Overflow} {tape : Tape}
    {R : Nat → String → Int32 → Int → Prop}
    (hR : ∀ stop, g.Matches stop tape o.budgets .unbounded R) {limit : Nat} {name : String}
    {budget : Int32} (h : R limit name budget budget.toInt) (i : Nat) :
    (g.expandIn o limit name budget).run tape i
      = (g.expandWithin limit name budget.toInt).run tape i := by
  rw [expandWithin_eq_expandVia]
  -- it stops for neither of two reasons, so it is the same
  exact ((hR .overflow).extendedAt limit name budget _ h i).run_eq
    ((hR .unfinished).extendedAt limit name budget _ h i) (by decide)

/-- **IN A VALID GRAMMAR THERE IS NO OVERFLOW**, within any limit, if the budget is as far
above the least one as there are rules. -/
theorem run_expandIn_of_trusted {g : Grammar} (hg : g.Trusted) (o : Overflow) (tape : Tape)
    (limit : Nat) {rule : String} (hrule : g.contains rule = true) {budget : Int32}
    (hbudget : Int32.minValue.toInt ≤ min budget.toInt (-1) - g.size) (i : Nat) :
    (g.expandIn o limit rule budget).run tape i
      = (g.expandWithin limit rule budget.toInt).run tape i := by
  refine run_expandIn_of_matches (R := fun _ name b c =>
    b.toInt = c ∧ ∃ depth, g.Sustains Int32.minValue.toInt depth name c)
    (fun stop => ⟨And.left, ?_⟩) ⟨rfl, _, (sustains_of_contains hg hrule _).mono hbudget⟩ i
  rintro limit name b _ branches branch inner ⟨rfl, depth, hdepth⟩ hfind hbranch hfirst hinner k
  right
  have hknown := (hg.sound name branches hfind).references branch hbranch inner hinner
  have hreference := fun (left : Int) (hlow : min b.toInt (-1) - 1 ≤ left)
    (hleft : left < b.toInt) => hdepth.reference hg hfind hfirst hinner hknown hlow hleft
  -- what the reference takes is one at least, and even that stays above the floor
  have habove : Int32.minValue < b := by
    obtain ⟨rest, _, hrest⟩ := hreference (b.toInt - 1) (by omega) (by omega)
    have hfloor := hrest.floor_le
    exact Int32.lt_iff_toInt_lt.2 (by omega)
  refine (o.alike_decay habove tape k).mono fun left left' hleft => ⟨hleft.1, ?_⟩
  obtain ⟨rest, _, hrest⟩ := hreference left' hleft.2.1 hleft.2.2
  exact ⟨rest, hrest⟩

/-- **A VALID GRAMMAR EXPANDS WITHIN 32 BITS AS IT DOES WITHOUT BOUNDS**, in every build. -/
theorem run_expandRuleIn_of_validate {g : Grammar} (hg : g.validate = .ok ()) (o : Overflow)
    {rule : String} (hrule : g.contains rule = true) {budget : Int32}
    (hbudget : Int32.minValue.toInt ≤ min budget.toInt (-1) - g.size) (word : Nat → UInt32)
    (i : Nat) :
    (g.expandRuleIn o rule budget).run (Tape.endless word) i
      = (g.expandRule rule budget.toInt).run (Tape.endless word) i := by
  have htrusted := trusted_of_validate hg
  unfold expandRuleIn
  rw [run_expandIn_of_trusted htrusted o _ _ hrule hbudget]
  obtain ⟨t, j, hrun, _⟩ := delivers_expandWithin htrusted word _ rule budget.toInt hrule
    (affords_nestingLimit htrusted hrule _) i
  have hlimit : g.nestingLimit budget.toInt ≤ g.nestingLimitIn budget := by
    have hmost := Int32.toInt_le budget
    unfold nestingLimitIn nestingLimit
    split
    · exact Nat.le_refl _
    · omega
  rw [(g.expandWithin_extendedBy rule _ hlimit).run_eq_ok hrun]
  exact hrun.symm

/-- So is a template of its rules, which takes one more from the budget. -/
theorem run_expandTemplateIn_of_validate {g : Grammar} (hg : g.validate = .ok ()) (o : Overflow)
    {template : Expr} (hknown : ∀ name ∈ template.references, g.contains name = true)
    {budget : Int32} (hbudget : Int32.minValue.toInt < min budget.toInt (-1) - g.size)
    (word : Nat → UInt32) (i : Nat) :
    (g.expandTemplateIn o template budget).run (Tape.endless word) i
      = (g.expandTemplate template budget.toInt).run (Tape.endless word) i := by
  have habove : Int32.minValue < budget := Int32.lt_iff_toInt_lt.2 (by omega)
  have hsame : ∀ stop, (g.expandTemplateIn o template budget).ExtendedAt stop (Tape.endless word) i
      (g.expandTemplate template budget.toInt) := by
    refine fun stop => template.instantiate_extendedAt (fun name hname j => ?_) i
    refine (o.alike_decay habove _ j).bind_extendedAt ?_
    rintro left _ k ⟨rfl, hlow, _⟩
    exact Or.inr (run_expandRuleIn_of_validate hg o (hknown name hname) (by omega) word k)
  exact (hsame .overflow).run_eq (hsame .unfinished) (by decide)

/-- **A CONFIGURED SYNTHESIS NEVER OVERFLOWS**, as its budget is not negative: in every build
it is the expansion of the start rule within 32 bits. -/
theorem run_synthesize_eq_expandRuleIn {g : Grammar} (hg : g.validate = .ok ())
    (hsize : g.size ≤ 0x7FFFFFFF) {config : Configuration} (hconfig : config.validate = .ok ())
    (hrule : g.contains config.startRule = true) (checked : Bool) (o : Overflow)
    (word : Nat → UInt32) (i : Nat) :
    (g.synthesize checked config).run (Tape.endless word) i
      = (g.expandRuleIn o config.startRule config.depth).run (Tape.endless word) i := by
  have hdepth : 0 ≤ config.depth.toInt :=
    Int32.le_iff_toInt_le.1 (Configuration.validate_eq_ok_iff.1 hconfig).2
  have hbudget : Int32.minValue.toInt ≤ min config.depth.toInt (-1) - g.size := by
    have hleast : Int32.minValue.toInt = -0x80000000 := rfl
    omega
  rw [synthesize_eq_expandRule hg hconfig, run_expandRuleIn_of_validate hg o hrule hbudget]

/-! ## §4. Expansions that return. -/

section
variable {g : Grammar} {name : String} {budget : Int32} {word : Nat → UInt32} {i j : Nat}
  {result : Except Halt Expr}

end

end Grammar

end ArtGrammar
