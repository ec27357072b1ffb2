/-
  ArtGrammar.GrammarFile.Header
  ────────────────────────────────
  **THE HEAD OF A GRAMMAR FILE.**

  Attributes may stand in front of the datum of a file:

      #![enable(explicit_struct_names)]
      #![type = "Grammar"]

  What they enable changes how the rest of the file is read.
-/
import ArtGrammar.GrammarFile.Name
import ArtGrammar.GrammarFile.Quotation

namespace ArtGrammar.Datum

/-- What the head of a file enables. -/
structure Header where
  /-- A record of a grammar has the name of its type in front. -/
  namesRecords : Bool := false
  /-- `Some` needs no parentheses. -/
  bareOptions : Bool := false
  /-- The content of an option may be a tuple or record without parentheses of
  its own. -/
  bareContents : Bool := false
  deriving DecidableEq, Repr

/-- Enables an extension by its name. -/
def Header.enable? (h : Header) : String → Option Header
  | "explicit_struct_names" => some { h with namesRecords := true }
  | "implicit_some" => some { h with bareOptions := true }
  | "unwrap_variant_newtypes" => some { h with bareContents := true }
  | "unwrap_newtypes" => some h
  | _ => none

/-- Reads the extensions of an attribute, of which there is at least one. -/
def readExtensions (h : Header) (s : List Char) : Option (Header × List Char) := do
  let (names, s) ← readItems readName ')' (s.length + 1) (← skipSign '(' s)
  if names.isEmpty then none
  else return (← names.foldlM Header.enable? h, s)

/-- Reads the text of an attribute, which changes nothing. -/
def readRemark (h : Header) (s : List Char) : Option (Header × List Char) := do
  let (_, s) ← readText (← skipBlanks (← skipSign '=' s))
  return (h, s)

/-- Reads an attribute behind its first sign.  Its name is plain. -/
def readAttribute (h : Header) (s : List Char) : Option (Header × List Char) := do
  let s ← skipSign '[' (← skipSign '!' s)
  let (name, s) ← readWord (← skipBlanks s)
  let (h, s) ←
    match name with
    | "enable" => readExtensions h s
    | "type" => readRemark h s
    | "schema" => readRemark h s
    | _ => none
  return (h, ← skipSign ']' s)

/-- Reads the head of a file, which may be empty. -/
def readHeader : Nat → Header → List Char → Option (Header × List Char)
  | 0, _, _ => none
  | n + 1, h, s => do
    match ← skipBlanks s with
    | '#' :: s => do
      let (h, s) ← readAttribute h s
      readHeader n h s
    | s => return (h, s)

end ArtGrammar.Datum
