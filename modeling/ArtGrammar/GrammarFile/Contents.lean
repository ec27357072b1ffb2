/-
  ArtGrammar.GrammarFile.Contents
  ────────────────────────────────
  **WHAT THE PARENTHESES OF AN OPTION HOLD.**

  The head of a file may allow a tuple or a record in an option to go without
  parentheses of its own:

      Some()   Some(1)   Some(1, 2)   Some(a: 1, b: 2)

  Which of these it is has to be known before the contents are read, so they are
  looked through for a comma between data.  Looking through them takes no more
  notice of what they are than it takes to pass over comments and quotations; a
  byte in single quotes is not passed over, and what follows it may be taken for
  a character.
-/
import ArtGrammar.GrammarFile.Name
import ArtGrammar.GrammarFile.Quotation

namespace ArtGrammar.Datum

/-- What the parentheses of an option hold. -/
inductive Contents where
  | nothing
  | one
  | several
  | fields
  deriving DecidableEq, Repr

/-! ## §1. Where quotations begin. -/

/-- Whether a raw quotation begins behind the letter for it. -/
def opensRaw (s : List Char) : Bool :=
  match s.dropWhile (· = '#') with
  | '"' :: _ => true
  | _ => false

/-- Whether a text or bytes in double quotes begin. -/
def opensQuotation : List Char → Bool
  | '"' :: _ => true
  | 'r' :: s => opensRaw s
  | 'b' :: '"' :: _ => true
  | 'b' :: 'r' :: s => opensRaw s
  | _ => false

/-! ## §2. Looking through. -/

/-- What is held if a comma follows the first datum: one datum if the comma is the
last sign. -/
def contentsBehindComma (s : List Char) : Option Contents := do
  match ← skipBlanks s with
  | ')' :: _ => some .one
  | _ => some .several

/-- Looks for a comma or the closing parenthesis, inside `depth` brackets.  A
single quote that begins no character is a sign like others; all that begins in
double quotes has to be right. -/
def lookThrough : Nat → Nat → List Char → Option Contents
  | 0, _, _ => none
  | n + 1, depth, s => do
    match ← skipBlanks s with
    | '\'' :: s => lookThrough n depth (((readCharacter s).map (·.2)).getD s)
    | s =>
      if opensQuotation s then do
        let (_, s) ← readQuotation s
        lookThrough n depth s
      else
        match s with
        | [] => none
        | c :: s =>
          if c = '(' ∨ c = '[' ∨ c = '\x7b' then lookThrough n (depth + 1) s
          else if c = ')' ∨ c = ']' ∨ c = '\x7d' then
            match depth with
            | 0 => some .one
            | depth + 1 => lookThrough n depth s
          else if c = ',' ∧ depth = 0 then contentsBehindComma s
          else lookThrough n depth s

/-- Whether a name and a colon come next. -/
def startsField (s : List Char) : Bool :=
  (do skipSign ':' (← readName (← skipBlanks s)).2).isSome

/-- What the parentheses of an option hold, behind the opening one. -/
def lookAhead (n : Nat) (s : List Char) : Option Contents := do
  match ← skipBlanks s with
  | ')' :: _ => some .nothing
  | s =>
    if startsField s then some .fields
    else lookThrough n 0 (((readName s).map (·.2)).getD s)

end ArtGrammar.Datum
