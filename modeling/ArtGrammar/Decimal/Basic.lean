/-
  ArtGrammar.Decimal.Basic
  ────────────────────────────────
  **DECIMALS AND THE BINARY32 VALUES THEY NAME.**

  A decimal is a whole number of powers of ten.  It names the binary32 value
  nearest to it, `Single.ofDecimal`; the decimals that name one magnitude fill
  the interval between the midpoints to its two neighbours.
-/
import ArtGrammar.Single.Basic

namespace ArtGrammar

/-! ## §1. Decimals. -/

/-- The number `digits * 10 ^ exponent`. -/
structure Decimal where
  digits : Nat
  exponent : Int
  deriving DecidableEq, Repr

namespace Decimal

/-- Numerator of the decimal as a quotient. -/
def num (d : Decimal) : Nat := d.digits * Nat.pow 10 d.exponent.toNat

/-- Denominator of the decimal as a quotient. -/
def den (d : Decimal) : Nat := Nat.pow 10 (-d.exponent).toNat

/-- Digits of the whole number of powers of ten, most significant first. -/
def digitChars (d : Decimal) : List Char := Nat.toDigits 10 d.digits

/-- How many of the digits stand before the decimal point; zero or less when
the first of them stands behind it. -/
def pointPlace (d : Decimal) : Int := d.digitChars.length + d.exponent

end Decimal

/-! ## §2. The value that a decimal names. -/

/-- The value of the given sign nearest to the decimal.  Decimals far outside
the range are decided by the place of their first digit, without computing the
power of ten. -/
def Single.ofDecimal (neg : Bool) (d : Decimal) : Single :=
  if d.digits = 0 then zero neg
  else if 50 < d.pointPlace then .infinite neg
  else if d.pointPlace < -60 then zero neg
  else ofRatio neg d.num d.den

/-- Whether the decimal lies in the rounding interval of the magnitude at a
positive rank.  All is counted in half units; the midpoints belong to the
interval of the even rank. -/
def Decimal.names (d : Decimal) (rank : Nat) : Bool :=
  let low := (unitsAt (rank - 1) + unitsAt rank) * d.den
  let high := (unitsAt rank + unitsAt (rank + 1)) * d.den
  let x := 2 * (d.num * unitsPerOne)
  if rank % 2 = 0 then decide (low ≤ x) && decide (x ≤ high)
  else decide (low < x) && decide (x < high)

end ArtGrammar
