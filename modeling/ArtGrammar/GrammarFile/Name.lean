/-
  ArtGrammar.GrammarFile.Name
  ────────────────────────────────
  **NAMES.**

  A name is plain or raw.  A raw name has a mark in front, which does not belong
  to it, and may have points and signs in it:

      node   _1   é      r#node   r#first-node
-/
import ArtGrammar.Text.Identifier

namespace ArtGrammar.Datum

/-- Whether a raw name can have the character in it. -/
def isRawNameChar (c : Char) : Bool := Text.isMedial c || c = '.' || c = '+' || c = '-'

/-- Reads a plain name. -/
def readWord (s : List Char) : Option (String × List Char) :=
  match s with
  | [] => none
  | c :: _ =>
    if Text.isInitial c || c = '_' then
      some (String.ofList (s.takeWhile Text.isMedial), s.dropWhile Text.isMedial)
    else none

/-- Whether the text begins with the mark of a raw name. -/
def startsRaw : List Char → Bool
  | 'r' :: '#' :: _ => true
  | _ => false

/-- Whether the text begins like a quotation with a letter in front. -/
def startsQuotation : List Char → Bool
  | 'b' :: '"' :: _ => true
  | 'b' :: '\'' :: _ => true
  | 'b' :: 'r' :: '"' :: _ => true
  | 'b' :: 'r' :: '#' :: _ => true
  | 'r' :: '"' :: _ => true
  | 'r' :: '#' :: '"' :: _ => true
  | 'r' :: '#' :: '#' :: _ => true
  | _ => false

/-- Reads a name, plain or raw. -/
def readName (s : List Char) : Option (String × List Char) :=
  if startsQuotation s then none
  else if startsRaw s then
    let name := (s.drop 2).takeWhile isRawNameChar
    if name.isEmpty then none
    else some (String.ofList name, (s.drop 2).dropWhile isRawNameChar)
  else readWord s

end ArtGrammar.Datum
