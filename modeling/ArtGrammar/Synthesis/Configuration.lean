/-
  ArtGrammar.Synthesis.Configuration
  ────────────────────────────────
  **A CONFIGURED SYNTHESIS.**

  A configuration names the start rule and the depth budget.  A run checks the
  grammar, if that is asked for, then the configuration, and then expands the
  start rule.
-/
import ArtGrammar.Grammar.Classic
import ArtGrammar.Synthesis.Expansion

namespace ArtGrammar

/-- Where an expansion starts, and within which budget. -/
structure Configuration where
  startRule : String := Grammar.classicStart
  depth : Int32 := Grammar.classicDepth
  deriving DecidableEq, Repr

namespace Configuration

/-- What is wrong with a configuration. -/
def defect? (c : Configuration) : Option ConfigFault :=
  if c.startRule.isEmpty then some .emptyStart
  else if c.depth < 0 then some .negativeDepth
  else none

/-- Accepts the configuration, or tells what is wrong with it. -/
def validate (c : Configuration) : Except Fault Unit :=
  match c.defect? with
  | none => .ok ()
  | some cause => .error (.config cause)

end Configuration

/-- Expands the start rule of a configuration, after checking the configuration
and, if `checked`, before that the grammar. -/
def Grammar.synthesize (g : Grammar) (checked : Bool) (config : Configuration) :
    Drawing Expr := do
  if checked then Drawing.ofExcept g.validate
  Drawing.ofExcept config.validate
  g.expandRule config.startRule config.depth.toInt

end ArtGrammar
