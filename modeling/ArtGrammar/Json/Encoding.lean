/-
  ArtGrammar.Json.Encoding
  ────────────────────────────────
  **THE JSON FORM OF EVERYTHING.**

  A node, like every choice, is its tag, or an object whose one member has the
  tag as its name; a record is an object with its fields in order:

      "X"   {"Number":0.5}   {"Add":["X","Y"]}   {"width":3,"height":4}
-/
import ArtGrammar.Decimal.Layout
import ArtGrammar.Decimal.Shortest
import ArtGrammar.Grammar.Basic
import ArtGrammar.Json.Basic
import ArtGrammar.Shader.Template
import ArtGrammar.Synthesis.Configuration

namespace ArtGrammar

open JsonValue (record tagged)

/-! ## §1. Numbers. -/

/-- The layout of a finite magnitude: positional with a fraction from five zeros
behind the point up to 13 digits before it, scientific outside. -/
def Decimal.jsonLayout (d : Decimal) : Numeral :=
  if -5 ≤ d.pointPlace ∧ d.pointPlace ≤ 13 then d.positional true else d.scientific

/-- A number, the even one of two equally near shortest decimals; one that is
not finite is null. -/
def Single.toJson : Single → JsonValue
  | .finite neg rank => .number neg (Decimal.shortest .even rank).jsonLayout
  | _ => .null

/-- An integer. -/
def JsonValue.ofInt (i : Int) : JsonValue :=
  .number (decide (i < 0)) { whole := Nat.toDigits 10 i.natAbs }

/-! ## §2. Choices and trees. -/

/-- A kind. -/
def Kind.toJson (k : Kind) : JsonValue := .ofText k.tag

/-- A number style. -/
def NumberStyle.toJson (s : NumberStyle) : JsonValue := .ofText s.tag

/-- A shading language. -/
def ShadingLanguage.toJson (l : ShadingLanguage) : JsonValue := .ofText l.tag

/-- A tree. -/
def Expr.toJson : Expr → JsonValue
  | .var v => .ofText v.tag
  | .random => .ofText "Random"
  | .number v => tagged "Number" v.toJson
  | .boolean b => tagged "Boolean" (.bool b)
  | .rule name => tagged "Rule" (.ofText name)
  | .abs a => tagged "Abs" (toJson a)
  | .arith op a b => tagged op.tag (.array [toJson a, toJson b])
  | .ge a b => tagged "Ge" (.array [toJson a, toJson b])
  | .triple a b c => tagged "Triple" (.array [toJson a, toJson b, toJson c])
  | .cond a b c => tagged "If" (.array [toJson a, toJson b, toJson c])

/-! ## §3. Records. -/

/-- A branch. -/
def Branch.toJson (b : Branch) : JsonValue :=
  record [("node", b.template.toJson), ("probability", b.probability.toJson)]

/-- A grammar, its rules as members of one object. -/
def Grammar.toJson (g : Grammar) : JsonValue :=
  record [("rules", record (g.rules.map fun r =>
    (r.name, .array (r.branches.map Branch.toJson))))]

/-- The names of variables. -/
def VariableNames.toJson (n : VariableNames) : JsonValue :=
  record [("x", .ofText n.x), ("y", .ofText n.y), ("t", .ofText n.t), ("mouse_x", .ofText n.mouseX),
    ("mouse_y", .ofText n.mouseY)]

/-- A dialect. -/
def Dialect.toJson (d : Dialect) : JsonValue :=
  record [("name", .ofText d.name), ("vec3_constructor", .ofText d.vectorConstructor),
    ("bool_cast", .ofText d.boolCast), ("number_style", d.numberStyle.toJson),
    ("true_literal", .ofText d.trueLiteral), ("false_literal", .ofText d.falseLiteral),
    ("variables", d.variableNames.toJson),
    ("unsupported", .array (d.unsupported.map Kind.toJson))]

/-- A canvas. -/
def Canvas.toJson (c : Canvas) : JsonValue :=
  record [("width", .ofInt c.width.toNat), ("height", .ofInt c.height.toNat)]

/-- A configuration. -/
def Configuration.toJson (c : Configuration) : JsonValue :=
  record [("start_rule", .ofText c.startRule), ("depth", .ofInt c.depth.toInt)]

end ArtGrammar
