/-
  ArtGrammar.Decimal.Layout
  ────────────────────────────────
  **TWO WAYS TO WRITE A DECIMAL.**

      positional    123, 1230000, 12.3, 0.00123     never an exponent
      scientific    1e20, 1.23e-7                   one digit before the point
-/
import ArtGrammar.Decimal.Numeral

namespace ArtGrammar.Decimal

/-- A run of zeros. -/
def zeros (n : Nat) : List Char := List.replicate n '0'

/-- Positional notation.  A whole number gets the fraction `.0` if `pointed`
asks for it. -/
def positional (pointed : Bool) (d : Decimal) : Numeral :=
  let ds := d.digitChars
  if 0 ≤ d.exponent then
    { whole := ds ++ zeros d.exponent.toNat, fraction := if pointed then ['0'] else [] }
  else if 0 < d.pointPlace then
    { whole := ds.take d.pointPlace.toNat, fraction := ds.drop d.pointPlace.toNat }
  else
    { whole := ['0'], fraction := zeros (-d.pointPlace).toNat ++ ds }

/-- Scientific notation: the first digit, the others behind a point if there
are any, and the power of ten of the first digit. -/
def scientific (d : Decimal) : Numeral :=
  let ds := d.digitChars
  { whole := ds.take 1, fraction := ds.drop 1, exponent := some (d.pointPlace - 1) }

end ArtGrammar.Decimal
