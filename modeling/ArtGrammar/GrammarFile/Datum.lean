/-
  ArtGrammar.GrammarFile.Datum
  ────────────────────────────────
  **WHAT A GRAMMAR FILE IS MADE OF.**

      unit              ()
      bool              true
      number            0.5   -1e-7   0x1F
      range             1..2   ..=2   b'a'..
      text              "C"
      character         'C'
      bytes             b"C"   b'C'
      word              X
      option            Some(a)
      list              [a, b]
      map               {"E": a, "A": b}
      tuple             (a, b)   Add(a, b)
      record            (node: a, probability: b)   Branch(node: a, probability: b)

  A grammar has no units, ranges, characters, bytes and options, but they may
  stand in fields that are passed over.
-/
import ArtGrammar.Single.Basic

namespace ArtGrammar

/-- A datum of a grammar file.  Tuples and records may have a name in front. -/
inductive Datum where
  | unit
  | bool (value : Bool)
  /-- A number; it has a value if it is written as a binary32 number can be. -/
  | number (value : Option Single)
  /-- A range of numbers or bytes. -/
  | range
  | text (text : String)
  | character (c : Char)
  | bytes (content : List UInt8)
  | word (word : String)
  | option (content : Datum)
  | list (items : List Datum)
  | map (entries : List (Datum × Datum))
  | tuple (name : Option String) (items : List Datum)
  | record (name : Option String) (fields : List (String × Datum))

namespace Datum

/-- How many levels deep the data of a grammar file go. -/
def nestingLimit : Nat := 128

mutual

/-- How many levels deep a datum goes: whatever has others in it takes a level
for itself and one for each of the others, an option only one. -/
def levels : Datum → Nat
  | .option content => levels content + 1
  | .list items => itemLevels items + 1
  | .map entries => entryLevels entries + 1
  | .tuple _ items => itemLevels items + 1
  | .record _ fields => fieldLevels fields + 1
  | _ => 0

/-- How many levels deep the items of a list or tuple go. -/
def itemLevels : List Datum → Nat
  | [] => 0
  | d :: rest => max (levels d + 1) (itemLevels rest)

/-- How many levels deep the entries of a map go. -/
def entryLevels : List (Datum × Datum) → Nat
  | [] => 0
  | (key, value) :: rest => max (max (levels key) (levels value) + 1) (entryLevels rest)

/-- How many levels deep the fields of a record go. -/
def fieldLevels : List (String × Datum) → Nat
  | [] => 0
  | (_, value) :: rest => max (levels value + 1) (fieldLevels rest)

end

end Datum

end ArtGrammar
