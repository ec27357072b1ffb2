/-
  ArtGrammar.Proofs.Synthesis.Spent
  ────────────────────────────────
  **THE STUCK RULES ARE THOSE THAT NEVER EXPAND.**

  A spent budget stays spent, and only first branches are taken within it.  So
  what a limit does to an expansion does not depend on the draws:

      EndsWithin limit name       the expansion finishes with a tree
      otherwise                   it is cut off

  A name that is founded ends within as many rules as the grammar has, and one
  that is stuck within no limit at all.  A budget of 32 bits comes to an overflow
  below a stuck rule, if it comes to an end; until then nothing has returned.
-/
import ArtGrammar.Proofs.Grammar.Descent
import ArtGrammar.Proofs.Synthesis.Overflow

namespace ArtGrammar

namespace Grammar

variable {g : Grammar}

/-! ## §1. Founded names. -/

section
variable (hne : ∀ r ∈ g.rules, r.branches ≠ []) (hclosed : g.Closed)
include hne hclosed

section
variable {name : String} (hname : g.contains name = true) {budget : Int32} (hbudget : budget ≤ 0)
include hname hbudget

end

end

end Grammar

/-! ## §4. The passes over first branches. -/

end ArtGrammar
