/-
  ArtGrammar.Single.Spelling
  ────────────────────────────────
  **HOW A BINARY32 NUMBER IS WRITTEN.**

  All spellings use the shortest decimal that names the value, an exact tie
  going to the larger magnitude.

      plain    1   -0   0.0000001   never an exponent             messages
      marked   1.0   -0.0   1e-7    a point or an exponent        trees
      exponent 1e0   1.5e20         always an exponent
-/
import ArtGrammar.Decimal.Shortest
import ArtGrammar.Decimal.Layout

namespace ArtGrammar.Single

/-- The shortest decimal that names the magnitude at `rank`. -/
def decimalAt (rank : Fin finiteRanks) : Decimal := Decimal.shortest .up rank

/-- The sign, where there is one to write. -/
def signChars (neg : Bool) : List Char := if neg then ['-'] else []

/-- Writes a value whose finite magnitudes are laid out by `layout`. -/
def spell (layout : Decimal → Numeral) : Single → String
  | .nan => "NaN"
  | .infinite neg => String.ofList (signChars neg ++ ['i', 'n', 'f'])
  | .finite neg rank => String.ofList (signChars neg ++ (layout (decimalAt rank)).chars false)

/-- Positional spelling without a forced fraction. -/
def plain : Single → String := spell (Decimal.positional false)

/-- Spelling with an exponent at every magnitude. -/
def exponential : Single → String := spell Decimal.scientific

/-- Whether the magnitude is so small or so large that its marked spelling has
an exponent: positive below 10 ^ -4, or from 10 ^ 16 up. -/
def isExtreme (v : Single) : Bool :=
  (decide (0 < v.abs) && decide (v.abs < ofRatio false 1 10000))
    || decide (ofNat 10000000000000000 ≤ v.abs)

/-- Spelling that always shows a fraction or an exponent. -/
def marked (v : Single) : String :=
  if v.isExtreme then v.exponential else spell (Decimal.positional true) v

end ArtGrammar.Single
