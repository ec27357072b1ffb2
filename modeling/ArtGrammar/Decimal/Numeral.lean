/-
  ArtGrammar.Decimal.Numeral
  ────────────────────────────────
  **WRITTEN NUMBERS WITHOUT A SIGN.**

  A numeral is the digits before the point, the digits behind it, and a power
  of ten if one is written:

      123   12.5   0.001   1.25e-7
-/
import ArtGrammar.Decimal.Basic

namespace ArtGrammar

/-- The parts of a written number without a sign. -/
structure Numeral where
  /-- Digits before the point. -/
  whole : List Char
  /-- Digits behind the point; none if there is no point. -/
  fraction : List Char := []
  /-- The power of ten, if one is written. -/
  exponent : Option Int := none
  deriving DecidableEq, Repr

namespace Numeral

/-! ## §1. Characters. -/

/-- An integer with a minus sign if it is negative. -/
def intChars : Int → List Char
  | .ofNat n => Nat.toDigits 10 n
  | .negSucc n => '-' :: Nat.toDigits 10 (n + 1)

/-- The fraction behind its point. -/
def fractionChars : List Char → List Char
  | [] => []
  | digits => '.' :: digits

/-- The exponent behind its letter, with a plus sign if `signed` asks for one
where there is no minus sign. -/
def exponentChars (signed : Bool) : Option Int → List Char
  | none => []
  | some power => 'e' :: ((if signed && decide (0 ≤ power) then ['+'] else []) ++ intChars power)

/-- The numeral as it is written, with a sign before each exponent if `signed`
asks for it. -/
def chars (signed : Bool) (n : Numeral) : List Char :=
  n.whole ++ fractionChars n.fraction ++ exponentChars signed n.exponent

/-! ## §2. Values. -/

/-- The number that digits denote. -/
def valueOf (digits : List Char) : Nat := Nat.ofDigitChars 10 digits 0

/-- The decimal that the numeral denotes. -/
def decimal (n : Numeral) : Decimal :=
  ⟨valueOf (n.whole ++ n.fraction), n.exponent.getD 0 - n.fraction.length⟩

/-- The numeral without zeros at the end of its fraction, which do not change the
value. -/
def trimmed (n : Numeral) : Numeral :=
  { n with fraction := (n.fraction.reverse.dropWhile (· = '0')).reverse }

/-- The digits of the numeral from the first that is not zero. -/
def significant (n : Numeral) : List Char := (n.whole ++ n.fraction).dropWhile (· = '0')

/-- Whether neither fraction nor exponent is written. -/
def isWhole (n : Numeral) : Bool := n.fraction.isEmpty && n.exponent.isNone

end Numeral

end ArtGrammar
