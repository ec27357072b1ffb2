/-
  ArtGrammar.Single.Sine
  ────────────────────────────────
  **THE SINE OF A BINARY32 NUMBER.**

  Angles are fixed-point integers with `precision` fractional bits.  The angle
  is reduced to the nearest multiple of a right angle, the sine or cosine of
  what is left is summed as a power series, and the sum is rounded once.  The
  working precision leaves more than 300 correct bits even for the largest
  finite angle, so the rounded result is the nearest one.
-/
import ArtGrammar.Single.Basic

namespace ArtGrammar.Single

/-! ## §1. Fixed point. -/

/-- Fractional bits of the fixed-point angles. -/
def precision : Nat := 512

/-- Product of two fixed-point numbers, rounded down. -/
def fixedMul (a b : Int) : Int := (a * b) >>> precision

/-- The arc tangent of `1 / n`, by `terms` terms of its power series: `power`
is the fixed-point value of `n ^ -k` for the odd number `k` reached. -/
def arctanInverse (n : Nat) : (terms k power : Nat) → Int
  | 0, _, _ => 0
  | terms + 1, k, power => power / k - arctanInverse n terms (k + 2) (power / (n * n))

/-- A right angle: half of π = 16 arctan (1/5) - 4 arctan (1/239). -/
def rightAngle : Int :=
  8 * arctanInverse 5 120 1 (Nat.pow 2 precision / 5)
    - 2 * arctanInverse 239 40 1 (Nat.pow 2 precision / 239)

/-! ## §2. Series. -/

/-- Alternating power series in `angle`, `terms` terms long: `term` is the term
reached and `k` the number of its factors, so the next term has the factors
`angle / (k + 1)` and `angle / (k + 2)` more. -/
def alternating (square : Int) : (terms k : Nat) → (term : Int) → Int
  | 0, _, _ => 0
  | terms + 1, k, term =>
    term - alternating square terms (k + 2) (fixedMul term square / ((k + 1) * (k + 2) : Nat))

/-- Sine of a fixed-point angle of at most half a right angle. -/
def fixedSine (angle : Int) : Int := alternating (fixedMul angle angle) 64 1 angle

/-- Cosine of a fixed-point angle of at most half a right angle. -/
def fixedCosine (angle : Int) : Int := alternating (fixedMul angle angle) 64 0 (Nat.pow 2 precision)

/-- Sine of any fixed-point angle: the number of right angles next to it
chooses between sine and cosine of the rest, and the sign. -/
def fixedSineReduced (angle : Int) : Int :=
  let turns := (2 * angle + rightAngle) / (2 * rightAngle)
  let rest := angle - turns * rightAngle
  match turns % 4 with
  | 0 => fixedSine rest
  | 1 => fixedCosine rest
  | 2 => -fixedSine rest
  | _ => -fixedCosine rest

/-! ## §3. The sine. -/

/-- The sine.  It is odd, keeps the sign of zero, and has no value at the
infinities. -/
def sin : Single → Single
  | .nan => .nan
  | .infinite _ => .nan
  | .finite neg rank =>
    if rank.val = 0 then zero neg
    else
      let s := fixedSineReduced (unitsAt rank * Nat.pow 2 (precision - 149) : Nat)
      ofRatio (neg != decide (s < 0)) s.natAbs (Nat.pow 2 precision)

end ArtGrammar.Single
