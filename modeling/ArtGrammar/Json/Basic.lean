/-
  ArtGrammar.Json.Basic
  ────────────────────────────────
  **JSON VALUES.**

  Numbers are kept as they are written.  The escapes of a string may fail to
  denote characters; such a string is a JSON value all the same, but it has no
  text.
-/
import ArtGrammar.Decimal.Numeral

namespace ArtGrammar

/-- A JSON value. -/
inductive JsonValue where
  | null
  | bool (b : Bool)
  | number (neg : Bool) (magnitude : Numeral)
  | string (text : Option String)
  | array (items : List JsonValue)
  | object (members : List (Option String × JsonValue))

namespace JsonValue

/-- A string that has a text. -/
def ofText (s : String) : JsonValue := .string (some s)

/-- An object whose names have texts. -/
def record (members : List (String × JsonValue)) : JsonValue :=
  .object (members.map fun m => (some m.1, m.2))

/-- An object with one member. -/
def tagged (tag : String) (value : JsonValue) : JsonValue := record [(tag, value)]

end JsonValue

end ArtGrammar
