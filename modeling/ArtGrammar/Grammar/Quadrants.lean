/-
  ArtGrammar.Grammar.Quadrants
  ────────────────────────────────
  **A CONDITIONAL GRAMMAR.**

  Colors switch on comparisons between channel expressions:

      E   a color          Triple(C, C, C) | If(B, E, E)
      B   a comparison     Ge(C, C)
      A   a leaf           X | Y | T | a random constant
      C   a channel        A | Mod(C, A) | Add(C, C) | Mult(C, C)
-/
import ArtGrammar.Grammar.Basic

namespace ArtGrammar.Grammar

/-- The quadrants grammar. -/
def quadrants : Grammar :=
  let a := Expr.rule "A"
  let b := Expr.rule "B"
  let c := Expr.rule "C"
  let e := Expr.rule "E"
  let tenths (n : Nat) : Single := Single.ofRatio false n 10
  ofList
    [("E", Branch.weighted [(.triple c c c, tenths 5), (.cond b e e, tenths 5)]),
     ("B", Branch.weighted [(.ge c c, 1)]),
     ("A", Branch.weighted
       [(.var .x, tenths 3), (.var .y, tenths 3), (.var .t, tenths 1), (.random, tenths 3)]),
     ("C", Branch.weighted
       [(a, tenths 4), (.arith .mod c a, tenths 2), (.arith .add c c, tenths 2),
        (.arith .mult c c, tenths 2)])]

end ArtGrammar.Grammar
