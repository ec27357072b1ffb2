/-
  ArtGrammar.Text.Quoted
  ────────────────────────────────
  **QUOTED TEXT.**

  Text between double quotes.  Quote, backslash and the common controls get a
  two-character escape, other hidden characters their code point in braces,
  and everything else stands for itself:

      "a\"b"    "tab\there"    "\u{200b}"
-/
import ArtGrammar.Text.Printable

namespace ArtGrammar.Text

/-- A character inside quotes. -/
def quoteChar (c : Char) : List Char :=
  match c with
  | '"' => ['\\', '"']
  | '\\' => ['\\', '\\']
  | '\n' => ['\\', 'n']
  | '\r' => ['\\', 'r']
  | '\t' => ['\\', 't']
  | '\x00' => ['\\', '0']
  | c =>
    if isHidden c then
      ['\\', 'u', '\x7b'] ++ Nat.toDigits 16 c.toNat ++ ['\x7d']
    else [c]

/-- The text between quotes. -/
def quoted (s : String) : String :=
  String.ofList ('"' :: (s.toList.flatMap quoteChar ++ ['"']))

end ArtGrammar.Text
