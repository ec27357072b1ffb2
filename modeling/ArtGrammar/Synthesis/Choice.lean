/-
  ArtGrammar.Synthesis.Choice
  ────────────────────────────────
  **WHICH BRANCH A ROLL PICKS.**

  The probabilities of the branches are added up from the first on.  A roll
  picks the first branch whose running total reaches it:

      c₋₁ = 0,  cᵢ = cᵢ₋₁ + pᵢ        picks i   if   cᵢ₋₁ < roll ≤ cᵢ

  Rounded totals can end a little below one, so a roll past the last total by no
  more than the tolerance picks the last branch of positive probability.
-/
import ArtGrammar.Grammar.Validity

namespace ArtGrammar.Branch

/-- The running totals of the probabilities, from a sum on. -/
def runningTotals (sum : Single) : List Branch → List Single
  | [] => []
  | b :: rest =>
    let next := sum + b.probability
    next :: runningTotals next rest

/-- The index of the last branch of positive probability. -/
def lastPositive? (branches : List Branch) : Option Nat :=
  (branches.zipIdx.reverse.find? fun b => decide (0 < b.1.probability)).map (·.2)

/-- The index of the branch that a roll picks. -/
def pickIndex? (branches : List Branch) (roll : Single) : Option Nat :=
  let totals := runningTotals 0 branches
  (totals.findIdx? fun total => decide (roll ≤ total)).or <|
    if roll ≤ totals.getLastD 0 + tolerance then lastPositive? branches else none

/-- The branch that a roll picks. -/
def pick? (branches : List Branch) (roll : Single) : Option Branch :=
  (pickIndex? branches roll).bind fun i => branches[i]?

end ArtGrammar.Branch
