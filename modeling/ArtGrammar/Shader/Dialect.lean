/-
  ArtGrammar.Shader.Dialect
  ────────────────────────────────
  **HOW A SHADING LANGUAGE SPELLS THE PARTS OF AN EXPRESSION.**

  Expressions have the same shape in every shading language.  A DIALECT records
  what differs: the spelling of numbers, truth values, variables, the vector
  constructor and the cast, and the kinds that the language cannot express.
-/
import ArtGrammar.Expr.Kind
import ArtGrammar.Single.Spelling
import ArtGrammar.Text.Basic
import ArtGrammar.Text.Quoted

namespace ArtGrammar

/-! ## §1. Numbers. -/

/-- How number literals are written. -/
inductive NumberStyle where
  /-- As short as possible: `1`, `0.5`, and an exponent from 10 ^ 15 up, where
  a whole number would be too long for an integer literal. -/
  | shortest
  /-- Always with a fraction or an exponent: `1.0`, `1e-7`. -/
  | decimal
  deriving DecidableEq, Repr

namespace NumberStyle

/-- Name of the style. -/
def tag : NumberStyle → String
  | .shortest => "Shortest"
  | .decimal => "Decimal"

/-- The style of the given name. -/
def ofTag? : String → Option NumberStyle
  | "Shortest" => some .shortest
  | "Decimal" => some .decimal
  | _ => none

/-- The magnitude from which on the shortest style uses an exponent. -/
def exponentFrom : Single := Single.ofNat 1000000000000000

/-- The literal of a finite number; no other number has one. -/
def spell? (style : NumberStyle) (v : Single) : Option String :=
  if v.isFinite then
    match style with
    | .shortest => some (if exponentFrom ≤ v.abs then v.exponential else v.plain)
    | .decimal => some v.marked
  else none

end NumberStyle

/-! ## §2. Variables. -/

/-- The names that an expression uses for its variables. -/
structure VariableNames where
  x : String := "x"
  y : String := "y"
  t : String := "t"
  mouseX : String := "mouse_x"
  mouseY : String := "mouse_y"
  deriving DecidableEq, Repr

namespace VariableNames

/-- The name of a variable. -/
def name (names : VariableNames) : Variable → String
  | .x => names.x
  | .y => names.y
  | .t => names.t
  | .mouseX => names.mouseX
  | .mouseY => names.mouseY

/-- The names as a written record. -/
def text (names : VariableNames) : String :=
  Text.record "Variables"
    [("x", Text.quoted names.x), ("y", Text.quoted names.y), ("t", Text.quoted names.t),
     ("mouse_x", Text.quoted names.mouseX), ("mouse_y", Text.quoted names.mouseY)]

end VariableNames

/-! ## §3. Dialects. -/

/-- The spellings of a shading language. -/
structure Dialect where
  /-- Name in messages. -/
  name : String
  /-- Constructor of a vector from three scalars. -/
  vectorConstructor : String
  /-- Cast from truth value to scalar. -/
  boolCast : String
  numberStyle : NumberStyle
  trueLiteral : String
  falseLiteral : String
  variableNames : VariableNames
  /-- Kinds without a spelling. -/
  unsupported : List Kind
  deriving DecidableEq, Repr

namespace Dialect

/-- GLSL ES 1.00. -/
def glsl : Dialect :=
  { name := "glsl"
    vectorConstructor := "vec3"
    boolCast := "float"
    numberStyle := .decimal
    trueLiteral := "true"
    falseLiteral := "false"
    variableNames := {}
    unsupported := [] }

/-- WGSL. -/
def wgsl : Dialect :=
  { name := "wgsl"
    vectorConstructor := "vec3f"
    boolCast := "f32"
    numberStyle := .shortest
    trueLiteral := "true"
    falseLiteral := "false"
    variableNames := {}
    unsupported := [] }

/-- Whether the dialect has a spelling for the kind. -/
def supports (d : Dialect) (kind : Kind) : Bool := !d.unsupported.contains kind

/-- Takes the spelling of a kind away. -/
def withUnsupported (d : Dialect) (kind : Kind) : Dialect :=
  if d.supports kind then { d with unsupported := d.unsupported ++ [kind] } else d

/-- The spelling of a truth value. -/
def boolLiteral (d : Dialect) (b : Bool) : String := if b then d.trueLiteral else d.falseLiteral

/-- The name of the variable that the kind is, if it is one. -/
def variableName? (d : Dialect) : Kind → Option String
  | .var v => some (d.variableNames.name v)
  | _ => none

/-- The dialect as a written record. -/
def text (d : Dialect) : String :=
  Text.record "Dialect"
    [("name", Text.quoted d.name),
     ("vec3_constructor", Text.quoted d.vectorConstructor),
     ("bool_cast", Text.quoted d.boolCast),
     ("number_style", d.numberStyle.tag),
     ("true_literal", Text.quoted d.trueLiteral),
     ("false_literal", Text.quoted d.falseLiteral),
     ("variables", d.variableNames.text),
     ("unsupported", Text.bracketed (d.unsupported.map Kind.tag))]

end Dialect

end ArtGrammar
