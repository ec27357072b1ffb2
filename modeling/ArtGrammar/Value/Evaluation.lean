/-
  ArtGrammar.Value.Evaluation
  ────────────────────────────────
  **EVALUATING A TREE AT A POINT.**

  Arithmetic works lane by lane.  A blend is computed like its shader text, as
  the weighted sum of both sides, so a side that is not finite disturbs the
  result even where it is not selected.
-/
import ArtGrammar.Expr.Basic
import ArtGrammar.Fault
import ArtGrammar.Value.Viewpoint

namespace ArtGrammar

/-! ## §1. Operations on values. -/

/-- The operator on numbers. -/
def Arith.apply : Arith → Single → Single → Single
  | .add => (· + ·)
  | .mult => (· * ·)
  | .mod => (· % ·)

namespace Value

/-- Combines two values lane by lane for a node of the given kind. -/
def zip (kind : Kind) (f : Single → Single → Single) (a b : Value) : Except Fault Value :=
  match zip? f a b with
  | some v => .ok v
  | none => .error (.evaluation (.undefinedOn kind a.type b.type))

/-- The number that an operand of a node of the given kind has to be. -/
def toScalar (kind : Kind) : Value → Except Fault Single
  | .scalar v => .ok v
  | v => .error (.evaluation (.needsScalar kind v.type))

/-- The magnitude, lane by lane. -/
def abs : Value → Except Fault Value
  | .scalar v => .ok (.scalar v.abs)
  | .vector v => .ok (.vector (v.map Single.abs))
  | .bool _ => .error (.evaluation .absOfBool)

/-- The truth value of a condition. -/
def toTest : Value → Except Fault Bool
  | .bool b => .ok b
  | v => .error (.evaluation (.testNotBool v.type))

end Value

/-! ## §2. Trees. -/

/-- The value of a tree at a point. -/
def Expr.evaluate (p : Viewpoint) : Expr → Except Fault Value
  | .var v => .ok (.scalar (p.value v))
  | .number v => .ok (.scalar v)
  | .boolean b => .ok (.bool b)
  | .abs a => do
    let a ← evaluate p a
    a.abs
  | .arith op a b => do
    let a ← evaluate p a
    let b ← evaluate p b
    Value.zip (.arith op) op.apply a b
  | .ge a b => do
    let a ← evaluate p a
    let a ← a.toScalar .ge
    let b ← evaluate p b
    let b ← b.toScalar .ge
    return .bool (decide (b ≤ a))
  | .triple a b c => do
    let a ← evaluate p a
    let a ← a.toScalar .triple
    let b ← evaluate p b
    let b ← b.toScalar .triple
    let c ← evaluate p c
    let c ← c.toScalar .triple
    return .vector ⟨a, b, c⟩
  | .cond test yes no => do
    let test ← evaluate p test
    let test ← test.toTest
    let weight : Single := if test then 1 else 0
    let yes ← evaluate p yes
    let yes ← Value.zip .cond (· * ·) (.scalar weight) yes
    let no ← evaluate p no
    let no ← Value.zip .cond (· * ·) (.scalar (1 - weight)) no
    Value.zip .cond (· + ·) yes no
  | .random => .error (.notRuntime .random)
  | .rule _ => .error (.notRuntime .rule)

/-! ## §3. Colors. -/

/-- Cuts a number off at 0 and 1; not-a-number becomes 0. -/
def Single.clamp (v : Single) : Single :=
  let v := if 0 < v then v else 0
  if v < 1 then v else 1

/-- The channel in `[0, 1]` of a number in `[-1, 1]`. -/
def Single.toChannel (v : Single) : Single := ((v + 1) * Single.ofRatio false 1 2).clamp

/-- The color of a value; a scalar is grey. -/
def Value.color : Value → Except Fault Lanes
  | .scalar v => .ok ((Lanes.splat v).map Single.toChannel)
  | .vector v => .ok (v.map Single.toChannel)
  | .bool _ => .error (.evaluation .shadeOfBool)

/-- The color of a tree at a point. -/
def Expr.shade (p : Viewpoint) (e : Expr) : Except Fault Lanes := do
  let v ← e.evaluate p
  v.color

end ArtGrammar
