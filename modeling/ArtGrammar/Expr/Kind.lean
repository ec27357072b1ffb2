/-
  ArtGrammar.Expr.Kind
  ────────────────────────────────
  **THE KINDS OF EXPRESSION NODES.**

  Sixteen kinds: the five variables, two literals, the operations, and the two
  kinds that exist only while a grammar is being expanded.  A kind has a TAG,
  its name in written trees and grammar files, and a LABEL, its name in
  messages.
-/

namespace ArtGrammar

/-! ## §1. Variables and arithmetic operators. -/

/-- A free variable of an expression, nominally in `[-1, 1]`. -/
inductive Variable where
  /-- Horizontal pixel coordinate. -/
  | x
  /-- Vertical pixel coordinate. -/
  | y
  /-- Time. -/
  | t
  /-- Horizontal pointer coordinate. -/
  | mouseX
  /-- Vertical pointer coordinate. -/
  | mouseY
  deriving DecidableEq, Repr

namespace Variable

/-- All variables, in the order of their declaration. -/
def all : List Variable := [.x, .y, .t, .mouseX, .mouseY]

/-- Name in written trees. -/
def tag : Variable → String
  | .x => "X"
  | .y => "Y"
  | .t => "T"
  | .mouseX => "MouseX"
  | .mouseY => "MouseY"

/-- Name in messages. -/
def label : Variable → String
  | .x => "X"
  | .y => "Y"
  | .t => "T"
  | .mouseX => "MOUSE_X"
  | .mouseY => "MOUSE_Y"

end Variable

/-- An operator that works lane by lane and lets a scalar stand for a vector of
equal lanes. -/
inductive Arith where
  | add
  | mult
  /-- Remainder of the quotient truncated toward zero. -/
  | mod
  deriving DecidableEq, Repr

namespace Arith

/-- Name in written trees. -/
def tag : Arith → String
  | .add => "Add"
  | .mult => "Mult"
  | .mod => "Mod"

/-- Name in messages. -/
def label : Arith → String
  | .add => "ADD"
  | .mult => "MULT"
  | .mod => "MOD"

/-- Operator sign in shader text. -/
def sign : Arith → String
  | .add => "+"
  | .mult => "*"
  | .mod => "%"

end Arith

/-! ## §2. Kinds. -/

/-- What a node is, without its children and its value. -/
inductive Kind where
  | var (v : Variable)
  | number
  | boolean
  | abs
  | arith (op : Arith)
  | ge
  | triple
  | cond
  | random
  | rule
  deriving DecidableEq, Repr

namespace Kind

/-- All kinds, in the order of their declaration. -/
def all : List Kind :=
  Variable.all.map .var
    ++ [.number, .boolean, .abs, .arith .add, .arith .mult, .arith .mod, .ge, .triple, .cond,
      .random, .rule]

/-- Name in written trees and grammar files. -/
def tag : Kind → String
  | .var v => v.tag
  | .number => "Number"
  | .boolean => "Boolean"
  | .abs => "Abs"
  | .arith op => op.tag
  | .ge => "Ge"
  | .triple => "Triple"
  | .cond => "If"
  | .random => "Random"
  | .rule => "Rule"

/-- Name in messages. -/
def label : Kind → String
  | .var v => v.label
  | .number => "NUMBER"
  | .boolean => "BOOLEAN"
  | .abs => "ABS"
  | .arith op => op.label
  | .ge => "GE"
  | .triple => "TRIPLE"
  | .cond => "IF"
  | .random => "RANDOM"
  | .rule => "RULE"

/-- The kind with the given tag. -/
def ofTag? (name : String) : Option Kind := all.find? fun k => k.tag == name

/-- Whether the kind only exists while a grammar is being expanded. -/
def isGenerationOnly : Kind → Bool
  | .random | .rule => true
  | _ => false

/-- Whether the kind is a variable or a literal. -/
def isTerminal : Kind → Bool
  | .var _ | .number | .boolean => true
  | _ => false

end Kind

end ArtGrammar
