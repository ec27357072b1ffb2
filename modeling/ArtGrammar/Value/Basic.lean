/-
  ArtGrammar.Value.Basic
  ────────────────────────────────
  **WHAT AN EXPRESSION EVALUATES TO.**

  A value is a scalar, a truth value or a vector of three LANES.  An operation
  that works lane by lane takes a scalar for the vector with that scalar in
  every lane.
-/
import ArtGrammar.Single.Basic

namespace ArtGrammar

/-! ## §1. Three lanes. -/

/-- Three numbers, as a vector or as the channels of a color. -/
structure Lanes where
  first : Single
  second : Single
  third : Single
  deriving DecidableEq, Repr

namespace Lanes

/-- The same number in every lane. -/
def splat (v : Single) : Lanes := ⟨v, v, v⟩

/-- Applies a function in every lane. -/
def map (f : Single → Single) (v : Lanes) : Lanes := ⟨f v.first, f v.second, f v.third⟩

/-- Combines two vectors lane by lane. -/
def zip (f : Single → Single → Single) (v w : Lanes) : Lanes :=
  ⟨f v.first w.first, f v.second w.second, f v.third w.third⟩

end Lanes

/-! ## §2. Values and their types. -/

/-- The type of a value. -/
inductive ValueType where
  | scalar
  | bool
  | vector
  deriving DecidableEq, Repr

/-- The name of a type in messages. -/
def ValueType.label : ValueType → String
  | .scalar => "scalar"
  | .bool => "bool"
  | .vector => "vector"

/-- The value of an expression at a point. -/
inductive Value where
  | scalar (v : Single)
  | bool (b : Bool)
  | vector (v : Lanes)
  deriving DecidableEq, Repr

namespace Value

/-- The type of a value. -/
def type : Value → ValueType
  | .scalar _ => .scalar
  | .bool _ => .bool
  | .vector _ => .vector

/-- Combines two values lane by lane; a truth value has no lanes. -/
def zip? (f : Single → Single → Single) : Value → Value → Option Value
  | .scalar a, .scalar b => some (.scalar (f a b))
  | .scalar a, .vector b => some (.vector (b.map (f a)))
  | .vector a, .scalar b => some (.vector (a.map (f · b)))
  | .vector a, .vector b => some (.vector (a.zip f b))
  | _, _ => none

end Value

end ArtGrammar
