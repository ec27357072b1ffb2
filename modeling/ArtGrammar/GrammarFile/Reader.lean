/-
  ArtGrammar.GrammarFile.Reader
  ────────────────────────────────
  **READING THE DATA OF A GRAMMAR FILE.**

  Each reader takes what it reads off the front of a text and answers the rest.
  What has others in it has at most as many as the text has characters; data in
  each other are at most one more than the levels they may take.
-/
import ArtGrammar.GrammarFile.Contents
import ArtGrammar.GrammarFile.Header
import ArtGrammar.GrammarFile.Range

namespace ArtGrammar.Datum

/-! ## §1. Entries, tuples and records. -/

/-- Reads a field of a record. -/
def readField (value : List Char → Option (Datum × List Char)) (s : List Char) :
    Option ((String × Datum) × List Char) := do
  let (name, s) ← readName s
  let (v, s) ← value (← skipSign ':' s)
  return ((name, v), s)

/-- Reads an entry of a map. -/
def readEntry (value : List Char → Option (Datum × List Char)) (s : List Char) :
    Option ((Datum × Datum) × List Char) := do
  let (key, s) ← value s
  let (v, s) ← value (← skipSign ':' s)
  return ((key, v), s)

/-- Reads a tuple or a record behind its opening parenthesis. -/
def readGroup (name : Option String) (value : List Char → Option (Datum × List Char)) (n : Nat)
    (s : List Char) : Option (Datum × List Char) :=
  if startsField s then do
    let (fields, s) ← readItems (readField value) ')' n s
    return (.record name fields, s)
  else do
    let (items, s) ← readItems value ')' n s
    return (.tuple name items, s)

/-! ## §2. Options. -/

/-- Reads what the parentheses of an option hold, behind the opening one. -/
def readContents (contents : Contents) (value : List Char → Option (Datum × List Char)) (n : Nat)
    (s : List Char) : Option (Datum × List Char) := do
  match contents with
  | .nothing => return (.unit, ← skipSign ')' s)
  | .one =>
    match ← readItems value ')' n s with
    | ([d], s) => return (d, s)
    | _ => none
  | .several =>
    let (items, s) ← readItems value ')' n s
    return (.tuple none items, s)
  | .fields =>
    let (fields, s) ← readItems (readField value) ')' n s
    return (.record none fields, s)

/-- Reads an option behind its name.  Its parentheses hold one datum, unless a
tuple or a record needs none of its own. -/
def readOption (h : Header) (value : List Char → Option (Datum × List Char)) (n : Nat)
    (s : List Char) : Option (Datum × List Char) := do
  match ← skipBlanks s with
  | '(' :: s => do
    let contents ← if h.bareContents then lookAhead n s else some .one
    let (d, s) ← readContents contents value n s
    return (.option d, s)
  | s => do
    if h.bareOptions then
      let (d, s) ← value s
      return (.option d, s)
    else none

/-! ## §3. Data. -/

/-- Reads what begins with a name: a tuple or a record with a name, or the name
alone. -/
def readNamed (value : List Char → Option (Datum × List Char)) (n : Nat) (name : String)
    (rest : List Char) : Option (Datum × List Char) := do
  match ← skipBlanks rest with
  | '(' :: s => readGroup (some name) value n s
  | _ => return (.word name, rest)

/-- Reads what begins with a plain name, which may have a meaning of its own. -/
def readSpecialNamed (h : Header) (value : List Char → Option (Datum × List Char)) (n : Nat)
    (name : String) (rest : List Char) : Option (Datum × List Char) :=
  match name with
  | "true" => some (.bool true, rest)
  | "false" => some (.bool false, rest)
  | "None" => some (.word name, rest)
  | "Some" => readOption h value n rest
  | _ =>
    match special? false name with
    | some v => continueRange (.number v) rest
    | none => readNamed value n name rest

/-- Reads a datum with at most `depth` data in each other and at most `size` data
beside each other. -/
def readDatum (h : Header) (size : Nat) (depth : Nat) (s : List Char) :
    Option (Datum × List Char) :=
  match depth with
  | 0 => none
  | depth + 1 => do
    let value := readDatum h size depth
    match ← skipBlanks s with
    | '[' :: s => do
      let (items, s) ← readItems value ']' size s
      return (.list items, s)
    | '\x7b' :: s => do
      let (entries, s) ← readItems (readEntry value) '\x7d' size s
      return (.map entries, s)
    | '(' :: ')' :: s => return (.unit, s)
    | '(' :: s => readGroup none value size s
    | s =>
      match readName s with
      | some (name, rest) =>
        if startsRaw s then readNamed value size name rest
        else readSpecialNamed h value size name rest
      | none =>
        match readScalar s with
        | some result => some result
        | none => readQuotation s

/-- The head and the datum that a whole text is. -/
def parse? (s : String) : Option (Header × Datum) := do
  let (h, rest) ← readHeader (s.length + 1) {} s.toList
  let (d, rest) ← readDatum h (s.length + 1) (nestingLimit + 1) rest
  if (← skipBlanks rest).isEmpty then some (h, d) else none

end ArtGrammar.Datum
