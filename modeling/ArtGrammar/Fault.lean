/-
  ArtGrammar.Fault
  ────────────────────────────────
  **EVERYTHING THAT CAN GO WRONG, BY CAUSE.**

  A fault names what is wrong, with the data that shows it; its wording is the
  one function `Fault.message`.  Faults of a configuration, of a grammar and of
  an evaluation each have a type of their own, whose last constructor carries a
  reason that somebody else has put into words.
-/
import ArtGrammar.Expr.Kind
import ArtGrammar.Single.Spelling
import ArtGrammar.Text.Basic
import ArtGrammar.Text.Quoted
import ArtGrammar.Value.Basic

namespace ArtGrammar

/-! ## §1. Causes. -/

/-- What is wrong with a configuration. -/
inductive ConfigFault where
  | emptyStart
  | negativeDepth
  | emptyCanvas
  | stated (reason : String)
  deriving DecidableEq, Repr

/-- What is wrong with a grammar, dangling references apart. -/
inductive GrammarFault where
  | noBranches (rule : String)
  /-- A probability that is negative or not finite. -/
  | badProbability (rule : String) (index : Nat) (probability : Single)
  /-- Probabilities too far from one in total. -/
  | badTotal (rule : String) (total : Single)
  /-- Rules whose first branches never lead to an end. -/
  | unfounded (rules : List String)
  | stated (reason : String)
  deriving DecidableEq, Repr

/-- What keeps an expression from having a value. -/
inductive EvaluationFault where
  /-- The magnitude of a truth value. -/
  | absOfBool
  /-- An operand of the kind has to be a scalar. -/
  | needsScalar (kind : Kind) (got : ValueType)
  /-- The kind has no meaning on operands of these types. -/
  | undefinedOn (kind : Kind) (left right : ValueType)
  /-- The condition of a blend has to be a truth value. -/
  | testNotBool (got : ValueType)
  /-- A truth value has no color. -/
  | shadeOfBool
  | stated (reason : String)
  deriving DecidableEq, Repr

/-- What can go wrong. -/
inductive Fault where
  | config (cause : ConfigFault)
  | grammar (cause : GrammarFault)
  /-- A rule is referred to that the grammar does not have. -/
  | unknownRule (name : String)
  /-- No branch of the rule covers the roll. -/
  | exhausted (rule : String) (roll total : Single)
  /-- A node that exists only during expansion stands in a finished tree. -/
  | notRuntime (kind : Kind)
  /-- The dialect has no spelling for the kind. -/
  | unsupported (kind : Kind) (dialect : String)
  /-- The number has no spelling as a literal. -/
  | unspellable (value : Single)
  | evaluation (cause : EvaluationFault)
  /-- A failure of a file or device, in its own words. -/
  | io (reason : String)
  /-- Any other failure, in its own words. -/
  | other (reason : String)
  deriving DecidableEq, Repr

/-! ## §2. Wording. -/

/-- The wording of a configuration fault. -/
def ConfigFault.message : ConfigFault → String
  | .emptyStart => "start_rule must not be empty"
  | .negativeDepth => "depth must be >= 0"
  | .emptyCanvas => "canvas must be > 0 in both dimensions"
  | .stated reason => reason

/-- The wording of a grammar fault. -/
def GrammarFault.message : GrammarFault → String
  | .noBranches rule => "Rule '" ++ rule ++ "' has no branches"
  | .badProbability rule index p =>
    "Rule '" ++ rule ++ "' branch " ++ Text.natText index ++ " has invalid probability " ++ p.plain
  | .badTotal rule total =>
    "Rule '" ++ rule ++ "' probabilities sum to " ++ total.plain ++ " instead of 1"
  | .unfounded rules =>
    "First branch never reaches a terminal for rules " ++ Text.bracketed (rules.map Text.quoted)
  | .stated reason => reason

/-- The wording of an evaluation fault. -/
def EvaluationFault.message : EvaluationFault → String
  | .absOfBool => "ABS is undefined for bool"
  | .needsScalar kind got => kind.label ++ " expects a scalar, got a " ++ got.label
  | .undefinedOn kind left right =>
    kind.label ++ " is undefined for " ++ left.label ++ " and " ++ right.label
  | .testNotBool got => "IF condition must be a bool, got a " ++ got.label
  | .shadeOfBool => "cannot shade a bool"
  | .stated reason => reason

/-- The wording of a fault. -/
def Fault.message : Fault → String
  | .config cause => "invalid configuration: " ++ cause.message
  | .grammar cause => "invalid grammar: " ++ cause.message
  | .unknownRule name => "unknown rule '" ++ name ++ "'"
  | .exhausted rule roll total =>
    "rule '" ++ rule ++ "' selected no branch for roll " ++ roll.plain
      ++ " (probabilities sum to " ++ total.plain ++ ")"
  | .notRuntime kind => "not a runtime kind: " ++ kind.label
  | .unsupported kind dialect => "dialect '" ++ dialect ++ "' cannot transcribe " ++ kind.label
  | .unspellable value => "number literal " ++ value.plain ++ " has no shader spelling"
  | .evaluation cause => "evaluation error: " ++ cause.message
  | .io reason => reason
  | .other reason => reason

end ArtGrammar
