/-
  ArtGrammar.Decimal.Shortest
  ────────────────────────────────
  **THE SHORTEST DECIMAL THAT NAMES A VALUE.**

  For each power of ten, from large to small, the two multiples next to the
  value are tried.  The first power of ten at which one of them names the value
  gives the fewest digits; of two that do, the nearer is taken, and the record
  `Tie` says which of two equally near ones.  One digit more always suffices in
  the end: every value is an exact multiple of 10 ^ -149.
-/
import ArtGrammar.Decimal.Basic

namespace ArtGrammar

/-- Which of two equally near decimals is taken. -/
inductive Tie where
  /-- The one of larger magnitude. -/
  | up
  /-- The one whose last digit is even. -/
  | even
  deriving DecidableEq, Repr

namespace Decimal

/-- The largest multiple of `10 ^ exponent` that is at most the magnitude at
`rank`, as its digits. -/
def floorDigits (rank : Nat) (exponent : Int) : Nat :=
  unitsAt rank * Nat.pow 10 (-exponent).toNat / (unitsPerOne * Nat.pow 10 exponent.toNat)

/-- Compares the magnitude at `rank` with the midpoint between `digits` and
`digits + 1` on the grid of `10 ^ exponent`. -/
def compareMidpoint (rank digits : Nat) (exponent : Int) : Ordering :=
  compare (2 * (unitsAt rank * Nat.pow 10 (-exponent).toNat))
    ((2 * digits + 1) * (unitsPerOne * Nat.pow 10 exponent.toNat))

/-- The multiple of `10 ^ exponent` that names the magnitude at `rank`, the
nearer one if both neighbours do. -/
def onGrid (tie : Tie) (rank : Nat) (exponent : Int) : Option Decimal :=
  let k := floorDigits rank exponent
  let below : Decimal := ⟨k, exponent⟩
  let above : Decimal := ⟨k + 1, exponent⟩
  match below.names rank, above.names rank with
  | false, false => none
  | true, false => some below
  | false, true => some above
  | true, true =>
    match compareMidpoint rank k exponent, tie with
    | .lt, _ => some below
    | .gt, _ => some above
    | .eq, .up => some above
    | .eq, .even => some (if k % 2 = 0 then below else above)

/-- The powers of ten tried, from that of the largest values down to the ninth
digit of the smallest. -/
def gridExponents : List Int := (List.range 85).map fun (i : Nat) => 38 - (i : Int)

/-- The shortest decimal that names the magnitude at `rank`. -/
def shortest (tie : Tie) (rank : Nat) : Decimal :=
  if rank = 0 then ⟨0, 0⟩
  else (gridExponents.findSome? (onGrid tie rank)).getD ⟨unitsAt rank * Nat.pow 5 149, -149⟩

end Decimal

end ArtGrammar
