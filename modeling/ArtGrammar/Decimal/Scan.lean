/-
  ArtGrammar.Decimal.Scan
  ────────────────────────────────
  **READING NUMERALS.**

  Each reader takes a numeral off the front of a text and answers the rest.
-/
import ArtGrammar.Decimal.Numeral

namespace ArtGrammar.Numeral

/-- Reads an exponent where a text begins with its letter; a letter without
digits behind it is no exponent, and an error. -/
def readExponent : List Char → Option (Option Int × List Char)
  | [] => some (none, [])
  | c :: s =>
    if c = 'e' ∨ c = 'E' then
      let (neg, s) : Bool × List Char :=
        match s with
        | '-' :: s => (true, s)
        | '+' :: s => (false, s)
        | s => (false, s)
      let digits := s.takeWhile Char.isDigit
      if digits.isEmpty then none
      else
        let power : Int := valueOf digits
        some (some (if neg then -power else power), s.dropWhile Char.isDigit)
    else some (none, c :: s)

/-- Reads a numeral.  If `loose`, the digits on one side of the point may be
missing; if not, there are digits on both sides of a point. -/
def read (loose : Bool) (s : List Char) : Option (Numeral × List Char) :=
  let whole := s.takeWhile Char.isDigit
  match s.dropWhile Char.isDigit with
  | '.' :: s =>
    let fraction := s.takeWhile Char.isDigit
    if (whole.isEmpty || fraction.isEmpty) && !(loose && !(whole.isEmpty && fraction.isEmpty)) then
      none
    else do
      let (exponent, rest) ← readExponent (s.dropWhile Char.isDigit)
      return ({ whole, fraction, exponent }, rest)
  | s =>
    if whole.isEmpty then none
    else do
      let (exponent, rest) ← readExponent s
      return ({ whole, exponent }, rest)

end ArtGrammar.Numeral
