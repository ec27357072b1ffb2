/-
  ArtGrammar.Expr.Basic
  ────────────────────────────────
  **EXPRESSION TREES AND TEMPLATES.**

  One type serves for the templates of a grammar and for the trees expanded
  from them; a tree is CONCRETE when it has no `random` and no `rule` node.
  Every whole-tree question (size, references, concreteness) is asked of the
  list of nodes in pre-order.
-/
import ArtGrammar.Single.Basic
import ArtGrammar.Expr.Kind

namespace ArtGrammar

/-! ## §1. The trees. -/

/-- An expression tree or template. -/
inductive Expr where
  | var (v : Variable)
  | number (value : Single)
  | boolean (value : Bool)
  | abs (inner : Expr)
  | arith (op : Arith) (left right : Expr)
  /-- Whether the left operand is at least the right one. -/
  | ge (left right : Expr)
  /-- Three scalars as a vector. -/
  | triple (first second third : Expr)
  /-- The blend that selects `yes` or `no` by a truth value. -/
  | cond (test yes no : Expr)
  /-- Becomes a fresh number in `[-1, 1)` on expansion. -/
  | random
  /-- Becomes an expansion of the named rule. -/
  | rule (name : String)
  deriving DecidableEq, Repr, Inhabited

namespace Expr

/-- The kind of the root. -/
def kind : Expr → Kind
  | .var v => .var v
  | .number _ => .number
  | .boolean _ => .boolean
  | .abs _ => .abs
  | .arith op _ _ => .arith op
  | .ge _ _ => .ge
  | .triple _ _ _ => .triple
  | .cond _ _ _ => .cond
  | .random => .random
  | .rule _ => .rule

/-- The leaf of a kind that says all about its node. -/
def ofKind? : Kind → Option Expr
  | .var v => some (.var v)
  | .random => some .random
  | _ => none

/-- The direct children, in order. -/
def children : Expr → List Expr
  | .abs a => [a]
  | .arith _ a b => [a, b]
  | .ge a b => [a, b]
  | .triple a b c => [a, b, c]
  | .cond a b c => [a, b, c]
  | _ => []

/-! ## §2. The nodes in pre-order. -/

/-- All nodes, each as the subtree it heads: a node before its children, the
children from left to right. -/
def preorder : Expr → List Expr
  | e@(.abs a) => e :: preorder a
  | e@(.arith _ a b) => e :: (preorder a ++ preorder b)
  | e@(.ge a b) => e :: (preorder a ++ preorder b)
  | e@(.triple a b c) => e :: (preorder a ++ (preorder b ++ preorder c))
  | e@(.cond a b c) => e :: (preorder a ++ (preorder b ++ preorder c))
  | e => [e]

/-- The number of nodes. -/
def nodeCount (e : Expr) : Nat := e.preorder.length

/-- The number of nodes on the longest path from the root; a leaf has height
one. -/
def height : Expr → Nat
  | .abs a => 1 + height a
  | .arith _ a b => 1 + max (height a) (height b)
  | .ge a b => 1 + max (height a) (height b)
  | .triple a b c => 1 + max (height a) (max (height b) (height c))
  | .cond a b c => 1 + max (height a) (max (height b) (height c))
  | _ => 1

/-- The rule that a node refers to, if it is a reference. -/
def reference? : Expr → Option String
  | .rule name => some name
  | _ => none

/-- The names of all rules referred to, in pre-order and with repetitions. -/
def references (e : Expr) : List String := e.preorder.filterMap reference?

/-- Whether the tree has no node that only exists during expansion. -/
def isConcrete (e : Expr) : Bool := e.preorder.all fun n => !n.kind.isGenerationOnly

/-! ## §3. Numeric equality. -/

/-- Equality that compares literals as numbers: the two zeros are equal, and
not-a-number differs from itself. -/
def numEq : Expr → Expr → Bool
  | .var v, .var w => v == w
  | .number a, .number b => a.numEq b
  | .boolean a, .boolean b => a == b
  | .abs a, .abs b => numEq a b
  | .arith op a b, .arith op' a' b' => op == op' && (numEq a a' && numEq b b')
  | .ge a b, .ge a' b' => numEq a a' && numEq b b'
  | .triple a b c, .triple a' b' c' => numEq a a' && (numEq b b' && numEq c c')
  | .cond a b c, .cond a' b' c' => numEq a a' && (numEq b b' && numEq c c')
  | .random, .random => true
  | .rule name, .rule name' => name == name'
  | _, _ => false

/-! ## §4. Ready-made trees. -/

/-- The horizontal coordinate as grey. -/
def gradient : Expr := .triple (.var .x) (.var .x) (.var .x)

/-- A tree that switches between a color ramp and a remainder pattern by the
sign of `x * y`. -/
def cool : Expr :=
  let rem := Expr.arith .mod (.var .x) (.var .y)
  .cond (.ge (.arith .mult (.var .x) (.var .y)) (.number 0))
    (.triple (.var .x) (.var .y) (.number 1))
    (.triple rem rem rem)

end Expr

end ArtGrammar
