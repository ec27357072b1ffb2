/-
  ArtGrammar.Json.Writer
  ────────────────────────────────
  **WRITING JSON.**

  Values are written without blanks, and exponents always with a sign.  In
  strings the quote, the backslash and the controls below U+0020 are escaped;
  everything else stands for itself.
-/
import ArtGrammar.Json.Basic

namespace ArtGrammar.JsonValue

/-! ## §1. Strings. -/

/-- The last two digits of an escape by code point. -/
def hexPair (n : Nat) : List Char := [Nat.digitChar (n / 16), Nat.digitChar (n % 16)]

/-- A character inside a string. -/
def stringChar (c : Char) : List Char :=
  match c with
  | '"' => ['\\', '"']
  | '\\' => ['\\', '\\']
  | '\n' => ['\\', 'n']
  | '\r' => ['\\', 'r']
  | '\t' => ['\\', 't']
  | '\x08' => ['\\', 'b']
  | '\x0c' => ['\\', 'f']
  | c => if c.toNat < 0x20 then ['\\', 'u', '0', '0'] ++ hexPair c.toNat else [c]

/-- A string; one without a text is written as an unpaired surrogate. -/
def stringChars : Option String → List Char
  | some s => '"' :: (s.toList.flatMap stringChar ++ ['"'])
  | none => "\"\\ud800\"".toList

/-! ## §2. Values. -/

mutual

/-- A value without blanks. -/
def chars : JsonValue → List Char
  | .null => "null".toList
  | .bool true => "true".toList
  | .bool false => "false".toList
  | .number neg magnitude => (if neg then ['-'] else []) ++ magnitude.chars true
  | .string s => stringChars s
  | .array [] => ['[', ']']
  | .array (v :: rest) => '[' :: (chars v ++ itemChars rest)
  | .object [] => ['\x7b', '\x7d']
  | .object ((name, v) :: rest) =>
    '\x7b' :: (stringChars name ++ ':' :: (chars v ++ memberChars rest))

/-- The items behind the first, up to the end of the array. -/
def itemChars : List JsonValue → List Char
  | [] => [']']
  | v :: rest => ',' :: (chars v ++ itemChars rest)

/-- The members behind the first, up to the end of the object. -/
def memberChars : List (Option String × JsonValue) → List Char
  | [] => ['\x7d']
  | (name, v) :: rest => ',' :: (stringChars name ++ ':' :: (chars v ++ memberChars rest))

end

/-- The text of a value. -/
def render (v : JsonValue) : String := String.ofList (chars v)

end ArtGrammar.JsonValue
