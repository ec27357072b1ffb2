/-
  ArtGrammar.Shader.Transcription
  ────────────────────────────────
  **EXPRESSIONS AS SHADER TEXT.**

  Every binary operation stands in parentheses, so that no rule of precedence
  matters, and a blend is written without a branch, as the sum of both sides
  weighted by the truth value and its negation:

      (cast(test) * (yes) + cast(!(test)) * (no))

  A tree has a text if every node of it does; otherwise the first node without
  one, in pre-order, is told.
-/
import ArtGrammar.Expr.Basic
import ArtGrammar.Fault
import ArtGrammar.Shader.Dialect

namespace ArtGrammar

/-- Lets the kinds pass that can stand in a text of the dialect. -/
def Dialect.permit (d : Dialect) (kind : Kind) : Except Fault Unit :=
  if kind.isGenerationOnly then .error (.notRuntime kind)
  else if d.supports kind then .ok ()
  else .error (.unsupported kind d.name)

/-- The literal of a number in the dialect. -/
def Dialect.literal (d : Dialect) (v : Single) : Except Fault String :=
  match d.numberStyle.spell? v with
  | some s => .ok s
  | none => .error (.unspellable v)

/-- A binary operation in parentheses. -/
def infixText (sign left right : String) : String :=
  "(" ++ left ++ " " ++ sign ++ " " ++ right ++ ")"

/-- The vector of three scalars. -/
def Dialect.vectorText (d : Dialect) (first second third : String) : String :=
  d.vectorConstructor ++ "(" ++ first ++ ", " ++ second ++ ", " ++ third ++ ")"

/-- The blend that a truth value selects by. -/
def Dialect.blendText (d : Dialect) (test yes no : String) : String :=
  "(" ++ d.boolCast ++ "(" ++ test ++ ") * (" ++ yes ++ ") + "
    ++ d.boolCast ++ "(!(" ++ test ++ ")) * (" ++ no ++ "))"

/-- The text of a tree in a dialect. -/
def Expr.transcribe (d : Dialect) : Expr → Except Fault String
  | .var v => do
    d.permit (.var v)
    return d.variableNames.name v
  | .number v => do
    d.permit .number
    d.literal v
  | .boolean b => do
    d.permit .boolean
    return d.boolLiteral b
  | .abs a => do
    d.permit .abs
    return "abs(" ++ (← transcribe d a) ++ ")"
  | .arith op a b => do
    d.permit (.arith op)
    let a ← transcribe d a
    let b ← transcribe d b
    return infixText op.sign a b
  | .ge a b => do
    d.permit .ge
    let a ← transcribe d a
    let b ← transcribe d b
    return infixText ">=" a b
  | .triple a b c => do
    d.permit .triple
    let a ← transcribe d a
    let b ← transcribe d b
    let c ← transcribe d c
    return d.vectorText a b c
  | .cond test yes no => do
    d.permit .cond
    let test ← transcribe d test
    let yes ← transcribe d yes
    let no ← transcribe d no
    return d.blendText test yes no
  | .random => .error (.notRuntime .random)
  | .rule _ => .error (.notRuntime .rule)

end ArtGrammar
