/-
  ArtGrammar.GrammarFile.Number
  ────────────────────────────────
  **NUMBERS.**

      decimal           0.5   .5   5.   1e-7   1_000.5   0.1f32   -inf   NaN
      whole             7   1_000   0x1F   0b11   0o17   255u8

  A number that a binary32 value is read from is decimal, or whole without base
  and suffix; the suffix `f32` may follow it.  The others are only passed over.
-/
import ArtGrammar.Decimal.Basic
import ArtGrammar.Decimal.Scan
import ArtGrammar.GrammarFile.Name
import ArtGrammar.Text.Basic

namespace ArtGrammar.Datum

/-! ## §1. Parts of numbers. -/

/-- Whether a decimal number can have the character in it. -/
def isDecimalChar (c : Char) : Bool :=
  c.isDigit || c = 'e' || c = 'E' || c = '.' || c = '+' || c = '-' || c = '_'

/-- Splits off the characters of a decimal number; two points in a row end it. -/
def splitDecimal : List Char → List Char × List Char
  | [] => ([], [])
  | '.' :: '.' :: s => ([], '.' :: '.' :: s)
  | c :: s =>
    if isDecimalChar c then
      let (run, rest) := splitDecimal s
      (c :: run, rest)
    else ([], c :: s)

/-- Whether a whole number can have the character in it. -/
def isWholeChar (c : Char) : Bool := (Text.hexValue? c).isSome || c = '_'

/-- The sign in front of a number, and the rest. -/
def splitSign : List Char → Bool × List Char
  | '-' :: s => (true, s)
  | '+' :: s => (false, s)
  | s => (false, s)

/-- Drops underscores, which may stand behind digits and exponent letters, and
behind other underscores. -/
def dropUnderscores (allowed : Bool) : List Char → Option (List Char)
  | [] => some []
  | c :: s =>
    if c = '_' then
      if allowed then dropUnderscores allowed s else none
    else
      let allowed := if c.isDigit || c = 'e' || c = 'E' then true
        else if c = '.' then false else allowed
      (dropUnderscores allowed s).map (c :: ·)

/-! ## §2. Decimal numbers. -/

/-- The number that has no digits, by its name. -/
def special? (neg : Bool) (name : String) : Option (Option Single) :=
  match name with
  | "inf" | "inff32" => some (some (.infinite neg))
  | "NaN" | "NaNf32" => some (some .nan)
  | "inff64" | "NaNf64" => some none
  | _ => none

/-- The value of a decimal number that is written without underscores. -/
def decimalValue? (run : List Char) : Option Single := do
  let (neg, run) := splitSign run
  let (n, rest) ← Numeral.read true run
  if rest.isEmpty then some (Single.ofDecimal neg n.decimal) else none

/-- Reads a number that has no digits. -/
def readSpecial (s : List Char) : Option (Option Single × List Char) := do
  let (neg, unsigned) := splitSign s
  let (name, rest) ← readWord unsigned
  return (← special? neg name, rest)

/-- Reads a number with digits. -/
def readDigits (s : List Char) : Option (Option Single × List Char) := do
  let (run, rest) := splitDecimal s
  let value ← decimalValue? (← dropUnderscores false run)
  match readWord rest with
  | some ("f32", rest) => return (some value, rest)
  | some ("f64", rest) => return (none, rest)
  | _ => return (some value, rest)

/-- Reads a decimal number. -/
def readDecimal (s : List Char) : Option (Option Single × List Char) :=
  match readSpecial s with
  | some result => some result
  | none => readDigits s

/-! ## §3. Whole numbers. -/

/-- The base of a whole number by the mark in front of it, and the rest. -/
def splitBase : List Char → Nat × List Char
  | '0' :: 'b' :: s => (2, s)
  | '0' :: 'o' :: s => (8, s)
  | '0' :: 'x' :: s => (16, s)
  | s => (10, s)

/-- The number that digits denote in a base; underscores may stand behind the
first digit. -/
def wholeValue? (base : Nat) : List Char → Option Nat
  | [] => none
  | '_' :: _ => none
  | digits => (digits.filter (· ≠ '_')).foldlM (fun n c => do
      let d ← Text.hexValue? c
      if d < base then some (base * n + d) else none) 0

/-- The least whole number with a suffix, and the first one behind them all. -/
def suffixRange? : String → Option (Int × Int)
  | "i8" => some (-0x80, 0x80)
  | "i16" => some (-0x8000, 0x8000)
  | "i32" => some (-0x80000000, 0x80000000)
  | "i64" => some (-0x8000000000000000, 0x8000000000000000)
  | "u8" => some (0, 0x100)
  | "u16" => some (0, 0x10000)
  | "u32" => some (0, 0x100000000)
  | "u64" => some (0, 0x10000000000000000)
  | _ => none

/-- Reads a whole number.  One with a suffix lies in the range of the suffix, one
with a base in front in 64 bits; only one with neither has a value. -/
def readWhole (s : List Char) : Option (Option Single × List Char) := do
  let (neg, unsigned) := splitSign s
  let (base, digits) := splitBase unsigned
  let n ← wholeValue? base (digits.takeWhile isWholeChar)
  let rest := digits.dropWhile isWholeChar
  let i : Int := if neg then -n else n
  let within (bounds : Int × Int) : Bool := decide (bounds.1 ≤ i) && decide (i < bounds.2)
  match (readWord rest).bind fun w => (suffixRange? w.1).map fun bounds => (bounds, w.2) with
  | some (bounds, rest) => if within bounds then some (none, rest) else none
  | none =>
    if base = 10 then some (some (Single.ofDecimal neg ⟨n, 0⟩), rest)
    else if within (-0x8000000000000000, 0x10000000000000000) then some (none, rest)
    else none

/-! ## §4. Numbers. -/

/-- Reads a number: a decimal one if it goes further than a whole one can, else
a whole one, or a decimal one after all. -/
def readNumber (s : List Char) : Option (Option Single × List Char) :=
  let (_, unsigned) := splitSign s
  if (unsigned.takeWhile isWholeChar).length < (splitDecimal unsigned).1.length then
    readDecimal s
  else
    match readWhole s with
    | some result => some result
    | none => readDecimal s

end ArtGrammar.Datum
