/-
  ArtGrammar.GrammarFile.Range
  ────────────────────────────────
  **RANGES OF NUMBERS AND BYTES.**

  A range has two points between its ends, with nothing else in front of them or
  behind them:

      1..2   1..   ..2   ..        without the last end
      1..=2   ..=2                 with it
-/
import ArtGrammar.GrammarFile.Number
import ArtGrammar.GrammarFile.Quotation

namespace ArtGrammar.Datum

/-- Reads an end of a range. -/
def readEnd : List Char → Option (Datum × List Char)
  | 'b' :: '\'' :: s => do
    let (byte, s) ← readByte s
    return (.bytes [byte], s)
  | s => do
    let (v, s) ← readNumber s
    return (.number v, s)

/-- Reads the points of a range and what follows them.  Only an end that does
not belong to the range may be missing. -/
def readRange : List Char → Option (Datum × List Char)
  | '.' :: '.' :: '=' :: s => (readEnd s).map fun e => (.range, e.2)
  | '.' :: '.' :: s =>
    match readEnd s with
    | some (_, rest) => some (.range, rest)
    | none => some (.range, s)
  | _ => none

/-- Reads the range that begins with the given end, or leaves the end alone. -/
def continueRange (first : Datum) (s : List Char) : Option (Datum × List Char) :=
  match s with
  | '.' :: '.' :: _ => readRange s
  | _ => some (first, s)

/-- Reads a number, a byte or a range. -/
def readScalar (s : List Char) : Option (Datum × List Char) :=
  match s with
  | '.' :: '.' :: _ => readRange s
  | _ => do
    let (first, s) ← readEnd s
    continueRange first s

end ArtGrammar.Datum
