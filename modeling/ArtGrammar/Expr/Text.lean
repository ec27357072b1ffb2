/-
  ArtGrammar.Expr.Text
  ────────────────────────────────
  **WRITTEN TREES.**

  A leaf is its tag, with its value in parentheses if it has one; any other
  node is its tag with its children in parentheses, separated by commas:

      Add(Number(0.5), Abs(Rule("C")))
-/
import ArtGrammar.Expr.Basic
import ArtGrammar.Single.Spelling
import ArtGrammar.Text.Quoted

namespace ArtGrammar.Expr

/-- A tag with its arguments. -/
def applied (tag : String) (args : List String) : String :=
  tag ++ "(" ++ ", ".intercalate args ++ ")"

/-- The written form of a tree. -/
def text : Expr → String
  | .var v => v.tag
  | .number v => applied "Number" [v.marked]
  | .boolean b => applied "Boolean" [if b then "true" else "false"]
  | .abs a => applied "Abs" [text a]
  | .arith op a b => applied op.tag [text a, text b]
  | .ge a b => applied "Ge" [text a, text b]
  | .triple a b c => applied "Triple" [text a, text b, text c]
  | .cond a b c => applied "If" [text a, text b, text c]
  | .random => "Random"
  | .rule name => applied "Rule" [Text.quoted name]

end ArtGrammar.Expr
