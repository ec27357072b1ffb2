/-
  ArtGrammar.GrammarFile.Quotation
  ────────────────────────────────
  **TEXTS, CHARACTERS AND BYTES.**

      "C\n"   r"C"   r#"C"#      text
      'C'                        character
      b"C"   br"C"   b'C'        bytes

  Quotations are read as bytes.  An escape by number gives one byte.  In a text
  such escapes in a row have to be the UTF-8 form of a character.
-/
import ArtGrammar.GrammarFile.Datum
import ArtGrammar.GrammarFile.Spacing
import ArtGrammar.Text.Basic

namespace ArtGrammar.Datum

/-! ## §1. Escapes. -/

/-- The character of a one-letter escape. -/
def escaped? : Char → Option Char
  | '"' => some '"'
  | '\'' => some '\''
  | '\\' => some '\\'
  | 'n' => some '\n'
  | 'r' => some '\r'
  | 't' => some '\t'
  | '0' => some '\x00'
  | _ => none

/-- The number that hexadecimal digits denote. -/
def hexNumber? (digits : List Char) : Option Nat :=
  digits.foldlM (fun n c => (Text.hexValue? c).map (16 * n + ·)) 0

/-- Reads a code point of one to six digits, up to the closing bracket. -/
def readCodePoint (s : List Char) : Option (Char × List Char) := do
  let digits := s.takeWhile (· ≠ '\x7d')
  let n ← hexNumber? digits
  match s.drop digits.length with
  | '\x7d' :: s =>
    if digits.isEmpty ∨ 6 < digits.length ∨ ¬ n.isValidChar then none
    else some (Char.ofNat n, s)
  | _ => none

/-- The text whose UTF-8 form the bytes are. -/
def textOfBytes? (content : List UInt8) : Option String := String.fromUTF8? ⟨content.toArray⟩

/-- Reads at most `more` further bytes by number, until all are the UTF-8 form of
a character. -/
def readTrail (more : Nat) (content : List UInt8) (s : List Char) :
    Option (List UInt8 × List Char) :=
  if (textOfBytes? content).isSome then some (content, s)
  else
    match more, s with
    | more + 1, '\\' :: 'x' :: a :: b :: s => do
      let n ← hexNumber? [a, b]
      readTrail more (content ++ [UInt8.ofNat n]) s
    | _, _ => none

/-- Reads the bytes of an escape behind its stroke: those of a character if
`whole`, else of a character or one byte by number. -/
def readEscape (whole : Bool) : List Char → Option (List UInt8 × List Char)
  | 'u' :: '\x7b' :: s => do
    let (c, s) ← readCodePoint s
    return (String.utf8EncodeChar c, s)
  | 'x' :: a :: b :: s => do
    let byte := UInt8.ofNat (← hexNumber? [a, b])
    if whole then readTrail 3 [byte] s else return ([byte], s)
  | c :: s => do
    let c ← escaped? c
    return (String.utf8EncodeChar c, s)
  | [] => none

/-! ## §2. Quotations. -/

/-- Whether a stroke at the end of a line drops the character behind it. -/
def isMargin (c : Char) : Bool := c = ' ' || c = '\t' || c = '\n' || c = '\r'

/-- Reads the inside of a quotation, behind the opening quote.  A stroke at the
end of a line drops the end of the line and the margin behind it. -/
def readQuoted (whole : Bool) : Nat → List Char → Option (List UInt8 × List Char)
  | 0, _ => none
  | _ + 1, [] => none
  | _ + 1, '"' :: s => some ([], s)
  | n + 1, '\\' :: '\n' :: s => readQuoted whole n (s.dropWhile isMargin)
  | n + 1, '\\' :: '\r' :: '\n' :: s => readQuoted whole n (s.dropWhile isMargin)
  | n + 1, '\\' :: s => do
    let (content, s) ← readEscape whole s
    let (rest, s) ← readQuoted whole n s
    return (content ++ rest, s)
  | n + 1, c :: s => do
    let (rest, s) ← readQuoted whole n s
    return (String.utf8EncodeChar c ++ rest, s)

/-- Reads the inside of a raw quotation, up to a quote with as many signs behind
it as stood before the opening one. -/
def readRawQuoted (signs : Nat) : List Char → Option (List UInt8 × List Char)
  | [] => none
  | c :: s =>
    if c = '"' ∧ s.take signs = List.replicate signs '#' then some ([], s.drop signs)
    else do
      let (rest, s) ← readRawQuoted signs s
      return (String.utf8EncodeChar c ++ rest, s)

/-- Reads a raw quotation behind its letter. -/
def readRaw (s : List Char) : Option (List UInt8 × List Char) :=
  let signs := (s.takeWhile (· = '#')).length
  match s.drop signs with
  | '"' :: s => readRawQuoted signs s
  | _ => none

/-- Reads a text, raw or not. -/
def readText : List Char → Option (String × List Char)
  | '"' :: s => do
    let (content, s) ← readQuoted true (s.length + 1) s
    return (← textOfBytes? content, s)
  | 'r' :: s => do
    let (content, s) ← readRaw s
    return (← textOfBytes? content, s)
  | _ => none

/-- Reads bytes in double quotes, raw or not. -/
def readBytes : List Char → Option (List UInt8 × List Char)
  | 'b' :: '"' :: s => readQuoted false (s.length + 1) s
  | 'b' :: 'r' :: s => readRaw s
  | _ => none

/-! ## §3. Single characters and bytes. -/

/-- Drops a closing quote of a character or a byte. -/
def skipQuote : List Char → Option (List Char)
  | '\'' :: s => some s
  | _ => none

/-- Reads a character behind the opening quote. -/
def readCharacter : List Char → Option (Char × List Char)
  | '\\' :: s => do
    let (content, s) ← readEscape false s
    match (← textOfBytes? content).toList with
    | [c] => return (c, ← skipQuote s)
    | _ => none
  | c :: s => do return (c, ← skipQuote s)
  | [] => none

/-- Reads a byte behind the opening quote; code points do not stand for bytes. -/
def readByte : List Char → Option (UInt8 × List Char)
  | '\\' :: 'u' :: _ => none
  | '\\' :: s => do
    match ← readEscape false s with
    | ([byte], s) => return (byte, ← skipQuote s)
    | _ => none
  | c :: s => do
    if c.toNat < 0x80 then return (UInt8.ofNat c.toNat, ← skipQuote s) else none
  | [] => none

/-! ## §4. Quotations as data. -/

/-- Reads a text, a character or bytes in double quotes. -/
def readQuotation : List Char → Option (Datum × List Char)
  | '\'' :: s => do
    let (c, s) ← readCharacter s
    return (.character c, s)
  | 'b' :: s => do
    let (content, s) ← readBytes ('b' :: s)
    return (.bytes content, s)
  | s => do
    let (t, s) ← readText s
    return (.text t, s)

end ArtGrammar.Datum
