/-
  ArtGrammar.Synthesis.Overflow
  ────────────────────────────────
  **EXPANSION WITHIN BUDGETS OF 32 BITS.**

  A budget is kept in 32 bits.  Nothing can be taken from the least one, and what comes of
  it if a reference is met there depends on how the program is built:

      stops    the expansion stops
      wraps    the budget goes round to the greatest one

  Above the least budget the two builds do the same, and an expansion that comes to no
  reference there is the one within a budget without bounds.
-/
import ArtGrammar.Synthesis.Expansion

namespace ArtGrammar

/-! ## §1. The decay of the budget. -/

/-- What becomes of a difference that does not fit into its bits. -/
inductive Overflow where
  /-- The computation stops. -/
  | stops
  /-- The number goes round to the other end. -/
  | wraps
  deriving DecidableEq, Repr

theorem toInt_sub_one {budget : Int32} (h : Int32.minValue < budget) :
    (budget - 1).toInt = budget.toInt - 1 := by
  have hlow : -2 ^ 31 < budget.toInt := Int32.lt_iff_toInt_lt.1 h
  have hhigh : budget.toInt < 2 ^ 31 := Int32.toInt_lt budget
  have hone : (1 : Int32).toInt = 1 := rfl
  rw [Int32.toInt_sub, hone]
  exact Int.bmod_eq_of_le (by omega) (by omega)

/-- Takes one from a budget for each draw that is at most `decayProbability`, while the
budget is not negative; so nothing is taken from the least one here. -/
def descend (budget : Int32) : Drawing Int32 := do
  if h : 0 ≤ budget then
    if (← Drawing.unit) ≤ decayProbability then descend (budget - 1) else return budget
  else return budget
termination_by (budget.toInt + 1).toNat
decreasing_by
  have hlow : 0 ≤ budget.toInt := Int32.le_iff_toInt_le.1 h
  have hleast : Int32.minValue < budget :=
    Int32.lt_iff_toInt_lt.2 (Int.lt_of_lt_of_le (by decide) hlow)
  rw [toInt_sub_one hleast]
  omega

namespace Overflow

/-- One less than the budget. -/
def less (o : Overflow) (budget : Int32) : Drawing Int32 :=
  match o with
  | .wraps => pure (budget - 1)
  | .stops => if budget = Int32.minValue then Drawing.halt .overflow else pure (budget - 1)

/-- The budget left for a reference that is met within a budget. -/
def decay (o : Overflow) (budget : Int32) : Drawing Int32 := do
  let left ← descend budget
  o.less left

end Overflow

/-! ## §2. Rules. -/

/-- A kind of budgets: the number that a budget stands for, and what is left of it for a
reference. -/
structure Budgets (β : Type) where
  value : β → Int
  decay : β → Drawing β

/-- Budgets without bounds. -/
def Budgets.unbounded : Budgets Int := ⟨id, ArtGrammar.decay⟩

/-- Budgets of 32 bits. -/
def Overflow.budgets (o : Overflow) : Budgets Int32 := ⟨Int32.toInt, o.decay⟩

namespace Grammar

/-- Expands a rule within a budget of the given kind, with at most `limit` rules nested. -/
def expandVia {β : Type} (g : Grammar) (kind : Budgets β) : Nat → String → β → Drawing Expr
  | 0, _, _ => Drawing.halt .unfinished
  | limit + 1, rule, budget => do
    match g.find? rule with
    | none => Drawing.fail (.unknownRule rule)
    | some branches =>
      let branch ← Branch.select rule branches (kind.value budget)
      branch.template.instantiate fun name => do
        let left ← kind.decay budget
        expandVia g kind limit name left

/-- Expands a rule within a budget of 32 bits, with at most `limit` rules nested. -/
def expandIn (g : Grammar) (o : Overflow) : Nat → String → Int32 → Drawing Expr :=
  g.expandVia o.budgets

/-- As many references as there are rules, and one more, can each take one from the
budget. -/
def Roomy (g : Grammar) (budget : Int32) : Prop :=
  Int32.minValue.toInt + g.size < min budget.toInt (-1)

instance (g : Grammar) (budget : Int32) : Decidable (g.Roomy budget) :=
  inferInstanceAs (Decidable (_ < _))

/-- As many rules as can be nested in an expansion of a valid grammar.  If the budget can go
round, those within the greatest budget come after those before it goes round. -/
def nestingLimitIn (g : Grammar) (budget : Int32) : Nat :=
  if g.Roomy budget then g.nestingLimit budget.toInt
  else g.size + g.nestingLimit Int32.maxValue.toInt

/-- Expands a rule within a budget of 32 bits. -/
def expandRuleIn (g : Grammar) (o : Overflow) (rule : String) (budget : Int32) : Drawing Expr :=
  g.expandIn o (g.nestingLimitIn budget) rule budget

/-- Expands a template within a budget of 32 bits. -/
def expandTemplateIn (g : Grammar) (o : Overflow) (template : Expr) (budget : Int32) :
    Drawing Expr :=
  template.instantiate fun name => do
    let left ← o.decay budget
    g.expandRuleIn o name left

end Grammar

end ArtGrammar
