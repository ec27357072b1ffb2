/-
  ArtGrammar.Grammar.Classic
  ────────────────────────────────
  **THE CLASSIC GRAMMAR.**

      E   a color          Triple(C, C, C)
      C   a channel        A | Abs(C) | Add(C, C) | Mult(C, C)
      A   a leaf           a variable or a random constant
-/
import ArtGrammar.Grammar.Basic

namespace ArtGrammar.Grammar

/-- The start rule of the classic grammar. -/
def classicStart : String := "E"

/-- A depth budget that gives trees of a few hundred nodes on average. -/
def classicDepth : Int32 := 30

/-- The classic grammar. -/
def classic : Grammar :=
  let a := Expr.rule "A"
  let c := Expr.rule "C"
  ofList
    [("E", Branch.uniform [.triple c c c]),
     ("A", Branch.uniform (Variable.all.map .var ++ [.random])),
     ("C", Branch.uniform [a, .abs c, .arith .add c c, .arith .mult c c])]

end ArtGrammar.Grammar
