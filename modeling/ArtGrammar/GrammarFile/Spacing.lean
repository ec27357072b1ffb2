/-
  ArtGrammar.GrammarFile.Spacing
  ────────────────────────────────
  **BLANKS AND COMMENTS.**

  Blanks and comments may stand between any two tokens of a grammar file:

      // up to the end of the line      /* up to the closing /* of its own */ mark */
-/

namespace ArtGrammar.Datum

/-- White space between tokens. -/
def isBlank (c : Char) : Bool :=
  c = ' ' || (decide ('\t' ≤ c) && decide (c ≤ '\r')) || c = '\u0085' || c = '\u200e'
    || c = '\u200f' || c = '\u2028' || c = '\u2029'

/-- What a place between two tokens is in. -/
inductive Gap where
  | blanks
  /-- A comment up to the end of the line. -/
  | line
  /-- A comment in brackets, inside `depth` others. -/
  | block (depth : Nat)
  deriving DecidableEq, Repr

/-- Drops blanks and comments.  A comment in brackets has to be closed, and a
stroke has to begin a comment. -/
def skipGap : Gap → List Char → Option (List Char)
  | .blanks, '/' :: '/' :: s => skipGap .line s
  | .blanks, '/' :: '*' :: s => skipGap (.block 0) s
  | .blanks, '/' :: _ => none
  | .blanks, c :: s => if isBlank c then skipGap .blanks s else some (c :: s)
  | .line, c :: s => skipGap (if c = '\n' then .blanks else .line) s
  | .block depth, '/' :: '*' :: s => skipGap (.block (depth + 1)) s
  | .block depth, '*' :: '/' :: s =>
    match depth with
    | 0 => skipGap .blanks s
    | depth + 1 => skipGap (.block depth) s
  | .block depth, _ :: s => skipGap (.block depth) s
  | .block _, [] => none
  | _, [] => some []

/-- Drops blanks and comments. -/
def skipBlanks : List Char → Option (List Char) := skipGap .blanks

/-- Drops blanks and comments and the given sign behind them. -/
def skipSign (sign : Char) (s : List Char) : Option (List Char) := do
  match ← skipBlanks s with
  | c :: s => if c = sign then some s else none
  | [] => none

/-- Reads items with commas between them up to a closing sign; a comma may
follow the last of them. -/
def readItems {α : Type} (item : List Char → Option (α × List Char)) (close : Char) :
    Nat → List Char → Option (List α × List Char)
  | 0, _ => none
  | n + 1, s => do
    match ← skipBlanks s with
    | [] => none
    | c :: s =>
      if c = close then some ([], s)
      else do
        let (a, s) ← item (c :: s)
        match ← skipBlanks s with
        | [] => none
        | d :: s =>
          if d = ',' then do
            let (rest, s) ← readItems item close n s
            return (a :: rest, s)
          else if d = close then some ([a], s)
          else none

end ArtGrammar.Datum
