/-
  ArtGrammar.Json.Reader
  ────────────────────────────────
  **READING JSON.**

  Each reader takes what it reads off the front of a text and answers the rest.
  A value never needs more steps than the text has characters, so readers of
  values count down from the length of the text.
-/
import ArtGrammar.Decimal.Scan
import ArtGrammar.Json.Basic
import ArtGrammar.Text.Basic

namespace ArtGrammar.JsonValue

/-! ## §1. Blanks and lists. -/

/-- White space between tokens. -/
def isBlank (c : Char) : Bool := c = ' ' || c = '\n' || c = '\t' || c = '\r'

/-- Drops blanks. -/
def skipBlanks (s : List Char) : List Char := s.dropWhile isBlank

/-- Reads items with commas between them up to a closing character. -/
def readItems {α : Type} (item : List Char → Option (α × List Char)) (close : Char) :
    Nat → List Char → Option (List α × List Char)
  | 0, _ => none
  | n + 1, s => do
    let (a, s) ← item s
    match skipBlanks s with
    | [] => none
    | c :: s =>
      if c = ',' then do
        let (rest, s) ← readItems item close n s
        return (a :: rest, s)
      else if c = close then some ([a], s)
      else none

/-- Reads a list that may be empty, behind its opening character. -/
def readList {α : Type} (item : List Char → Option (α × List Char)) (close : Char) (n : Nat)
    (s : List Char) : Option (List α × List Char) :=
  match skipBlanks s with
  | [] => none
  | c :: s => if c = close then some ([], s) else readItems item close n (c :: s)

/-! ## §2. Strings. -/

/-- What stands inside a string: a character, or a 16-bit unit given by its
number. -/
inductive Piece where
  | char (c : Char)
  | unit (n : Nat)
  deriving DecidableEq, Repr

/-- The character of a one-letter escape. -/
def escaped? : Char → Option Char
  | '"' => some '"'
  | '\\' => some '\\'
  | '/' => some '/'
  | 'b' => some '\x08'
  | 'f' => some '\x0c'
  | 'n' => some '\n'
  | 'r' => some '\r'
  | 't' => some '\t'
  | _ => none

/-- Reads the inside of a string, behind the opening quote. -/
def readPieces : List Char → Option (List Piece × List Char)
  | [] => none
  | '"' :: s => some ([], s)
  | '\\' :: 'u' :: a :: b :: c :: d :: s => do
    let n := ((← Text.hexValue? a) * 16 + (← Text.hexValue? b)) * 256
      + ((← Text.hexValue? c) * 16 + (← Text.hexValue? d))
    let (rest, s) ← readPieces s
    return (.unit n :: rest, s)
  | '\\' :: c :: s => do
    let c ← escaped? c
    let (rest, s) ← readPieces s
    return (.char c :: rest, s)
  | c :: s =>
    if c.toNat < 0x20 ∨ c = '\\' then none
    else do
      let (rest, s) ← readPieces s
      return (.char c :: rest, s)

/-- Whether a unit is the first half of a pair. -/
def isHighHalf (n : Nat) : Bool := decide (0xd800 ≤ n) && decide (n < 0xdc00)

/-- Whether a unit is the second half of a pair. -/
def isLowHalf (n : Nat) : Bool := decide (0xdc00 ≤ n) && decide (n < 0xe000)

/-- The characters of the pieces; a half without its other half has none. -/
def joinPieces : List Piece → Option (List Char)
  | [] => some []
  | .char c :: rest => (joinPieces rest).map (c :: ·)
  | .unit n :: .unit m :: rest =>
    if isHighHalf n then
      if isLowHalf m then
        (joinPieces rest).map (Char.ofNat (0x10000 + (n - 0xd800) * 0x400 + (m - 0xdc00)) :: ·)
      else none
    else if isLowHalf n then none
    else (joinPieces (.unit m :: rest)).map (Char.ofNat n :: ·)
  | .unit n :: rest =>
    if isHighHalf n || isLowHalf n then none else (joinPieces rest).map (Char.ofNat n :: ·)

/-- Reads a string, behind the opening quote. -/
def readString (s : List Char) : Option (Option String × List Char) := do
  let (pieces, s) ← readPieces s
  return ((joinPieces pieces).map String.ofList, s)

/-! ## §3. Numbers. -/

/-- Reads a number behind its sign.  The digits before the point do not begin
with a zero, unless it is the only one. -/
def readNumber (neg : Bool) (s : List Char) : Option (JsonValue × List Char) := do
  let (n, s) ← Numeral.read false s
  match n.whole with
  | '0' :: _ :: _ => none
  | _ => return (.number neg n, s)

/-! ## §4. Values. -/

/-- Reads a member of an object with the given reader of values. -/
def readMember (value : List Char → Option (JsonValue × List Char)) (s : List Char) :
    Option ((Option String × JsonValue) × List Char) :=
  match skipBlanks s with
  | '"' :: s => do
    let (name, s) ← readString s
    match skipBlanks s with
    | ':' :: s => do
      let (v, s) ← value s
      return ((name, v), s)
    | _ => none
  | _ => none

/-- Reads a value with at most the given number of values in each other. -/
def readValue : Nat → List Char → Option (JsonValue × List Char)
  | 0, _ => none
  | n + 1, s =>
    match skipBlanks s with
    | 'n' :: 'u' :: 'l' :: 'l' :: s => some (.null, s)
    | 't' :: 'r' :: 'u' :: 'e' :: s => some (.bool true, s)
    | 'f' :: 'a' :: 'l' :: 's' :: 'e' :: s => some (.bool false, s)
    | '"' :: s => do
      let (t, s) ← readString s
      return (.string t, s)
    | '[' :: s => do
      let (items, s) ← readList (readValue n) ']' n s
      return (.array items, s)
    | '\x7b' :: s => do
      let (members, s) ← readList (readMember (readValue n)) '\x7d' n s
      return (.object members, s)
    | '-' :: s => readNumber true s
    | s => readNumber false s

/-- The value that a whole text is. -/
def parse? (s : String) : Option JsonValue := do
  let (v, rest) ← readValue (s.length + 1) s.toList
  if (skipBlanks rest).isEmpty then some v else none

end ArtGrammar.JsonValue
