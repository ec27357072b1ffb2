/-
  ArtGrammar.Text.Basic
  ────────────────────────────────
  **CHARACTERS, WRITTEN TEXT, AND INTEGERS OF A WORD.**

  What the readers and writers have in common.  A set of code points is a list of
  runs, each given by its first and its last member.  A record is written as its
  name and its fields in braces:

      Canvas { width: 3, height: 4 }
-/

namespace ArtGrammar.Text

/-! ## §1. Characters. -/

/-- Whether a code point lies in one of the runs. -/
def inRuns (runs : List (Nat × Nat)) (n : Nat) : Bool :=
  runs.any fun run => decide (run.1 ≤ n) && decide (n ≤ run.2)

/-- The value of a hexadecimal digit. -/
def hexValue? (c : Char) : Option Nat :=
  if c.isDigit then some (c.toNat - '0'.toNat)
  else if 'a' ≤ c ∧ c ≤ 'f' then some (c.toNat - 'a'.toNat + 10)
  else if 'A' ≤ c ∧ c ≤ 'F' then some (c.toNat - 'A'.toNat + 10)
  else none

/-! ## §2. Written text. -/

/-- A natural number in decimal digits. -/
def natText (n : Nat) : String := String.ofList (Nat.toDigits 10 n)

/-- A record with named fields that are already written. -/
def record (name : String) (fields : List (String × String)) : String :=
  name ++ " \x7b " ++ ", ".intercalate (fields.map fun f => f.1 ++ ": " ++ f.2) ++ " \x7d"

/-- A list in brackets. -/
def bracketed (items : List String) : String := "[" ++ ", ".intercalate items ++ "]"

/-! ## §3. Integers of a word. -/

/-- The unsigned word of 64 bits. -/
def toUInt64? (i : Int) : Option UInt64 :=
  if 0 ≤ i ∧ i < 0x10000000000000000 then some (UInt64.ofNat i.toNat) else none

/-- The unsigned word of 32 bits. -/
def toUInt32? (i : Int) : Option UInt32 :=
  if 0 ≤ i ∧ i < 0x100000000 then some (UInt32.ofNat i.toNat) else none

/-- The signed word of 32 bits. -/
def toInt32? (i : Int) : Option Int32 :=
  if -0x80000000 ≤ i ∧ i < 0x80000000 then some (Int32.ofInt i) else none

end ArtGrammar.Text
