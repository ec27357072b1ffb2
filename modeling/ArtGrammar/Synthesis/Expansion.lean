/-
  ArtGrammar.Synthesis.Expansion
  ────────────────────────────────
  **EXPANDING A GRAMMAR INTO A TREE.**

  A rule is expanded within a depth BUDGET.  While the budget is positive a
  drawn roll picks the branch; once it is spent the first branch is taken.  The
  template of the branch is then copied from left to right: a `random` node
  becomes a drawn number, a reference becomes an expansion of its rule within a
  decayed budget, and every other node stays.

  The budget of a reference is at least one smaller than that of the rule it
  stands in.  So rules nest no deeper than the budget while it lasts, and after
  that no deeper than there are rules, unless first branches go round in a
  circle: `nestingLimit` cuts off circles only.

  Budgets are numbers without bounds here.  `Synthesis.Overflow` keeps them in 32
  bits, and `Proofs.Synthesis.Overflow` shows where that makes no difference.
-/
import ArtGrammar.Draws.Tape
import ArtGrammar.Synthesis.Choice

namespace ArtGrammar

/-! ## §1. The decay of the budget. -/

/-- The largest draw at which a budget decays further. -/
def decayProbability : Single := Single.ofRatio false 1 2

/-- Draws while the draws are at most `decayProbability`, and no more than `n`
times; answers how many of them were. -/
def decaySteps : Nat → Drawing Nat
  | 0 => pure 0
  | n + 1 => do
    if (← Drawing.unit) ≤ decayProbability then return (← decaySteps n) + 1 else return 0

/-- The budget left for a reference that is met within a budget. -/
def decay (budget : Int) : Drawing Int := do
  let steps ← decaySteps (budget + 1).toNat
  return budget - 1 - steps

/-! ## §2. Templates. -/

/-- Copies a template, with a drawn number for each `random` node and a result
of `expandReference` for each reference. -/
def Expr.instantiate (expandReference : String → Drawing Expr) : Expr → Drawing Expr
  | .random => do return .number (← Drawing.signed)
  | .rule name => expandReference name
  | .abs a => do return .abs (← instantiate expandReference a)
  | .arith op a b => do
    let a ← instantiate expandReference a
    return .arith op a (← instantiate expandReference b)
  | .ge a b => do
    let a ← instantiate expandReference a
    return .ge a (← instantiate expandReference b)
  | .triple a b c => do
    let a ← instantiate expandReference a
    let b ← instantiate expandReference b
    return .triple a b (← instantiate expandReference c)
  | .cond a b c => do
    let a ← instantiate expandReference a
    let b ← instantiate expandReference b
    return .cond a b (← instantiate expandReference c)
  | .var v => pure (.var v)
  | .number v => pure (.number v)
  | .boolean b => pure (.boolean b)

/-! ## §3. Rules. -/

/-- The branch that a rule takes within a budget. -/
def Branch.select (rule : String) (branches : List Branch) (budget : Int) : Drawing Branch := do
  if budget ≤ 0 then
    match branches with
    | [] => Drawing.fail (.grammar (.noBranches rule))
    | b :: _ => return b
  else
    let roll ← Drawing.unit
    match pick? branches roll with
    | none => Drawing.fail (.exhausted rule roll (total branches))
    | some b => return b

namespace Grammar

/-- Expands a rule within a budget, with at most `limit` rules nested. -/
def expandWithin (g : Grammar) : Nat → String → Int → Drawing Expr
  | 0, _, _ => Drawing.halt .unfinished
  | limit + 1, rule, budget => do
    match g.find? rule with
    | none => Drawing.fail (.unknownRule rule)
    | some branches =>
      let branch ← Branch.select rule branches budget
      branch.template.instantiate fun name => do
        let left ← decay budget
        expandWithin g limit name left

/-- As many rules as can be nested in an expansion that ends: those within a
positive budget, those of the grammar after it, and one that is missing. -/
def nestingLimit (g : Grammar) (budget : Int) : Nat := budget.toNat + g.size + 1

/-- Expands a rule within a budget. -/
def expandRule (g : Grammar) (rule : String) (budget : Int) : Drawing Expr :=
  g.expandWithin (g.nestingLimit budget) rule budget

/-- Expands a template within a budget. -/
def expandTemplate (g : Grammar) (template : Expr) (budget : Int) : Drawing Expr :=
  template.instantiate fun name => do
    let left ← decay budget
    g.expandRule name left

end Grammar

end ArtGrammar
