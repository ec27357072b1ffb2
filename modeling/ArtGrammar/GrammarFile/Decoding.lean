/-
  ArtGrammar.GrammarFile.Decoding
  ────────────────────────────────
  **THE GRAMMAR OF A GRAMMAR FILE.**

      (rules: {
          "E": [(node: X, probability: 0.5), (node: Abs(Rule("E")), probability: 0.5)],
      })

  A record may have its type's name in front, and has each of its fields once;
  fields of other names are passed over.  Data nest at most `nestingLimit` levels
  deep; a node takes two levels, or three if it has several arguments.  A decoder
  takes the room that is left.
-/
import ArtGrammar.Grammar.Validity
import ArtGrammar.GrammarFile.Reader

namespace ArtGrammar

namespace Datum

/-! ## §1. Records, lists and plain data. -/

/-- The one field of the given name. -/
def field? (fields : List (String × Datum)) (name : String) : Option Datum :=
  match fields.filter fun f => f.1 == name with
  | [f] => some f.2
  | _ => none

/-- The fields of a record of the given type, in the order of the given names.
Fields of other names have to fit into the room for a field. -/
def toFields? (h : Header) (type : String) (names : List String) (room : Nat) :
    Datum → Option (List Datum)
  | .record name fields =>
    let isNamed := match name with
      | some name => name == type
      | none => !h.namesRecords
    if isNamed && fields.all fun f => names.contains f.1 || decide (f.2.levels ≤ room) then
      names.mapM (field? fields)
    else none
  | _ => none

/-- A list. -/
def toList? {α : Type} (item : Nat → Datum → Option α) : Nat → Datum → Option (List α)
  | room + 2, .list items => items.mapM (item room)
  | _, _ => none

/-- A number. -/
def toSingle? : Datum → Option Single
  | .number v => v
  | _ => none

/-- A truth value. -/
def toBool? : Datum → Option Bool
  | .bool b => some b
  | _ => none

/-- A text. -/
def toText? : Datum → Option String
  | .text s => some s
  | _ => none

end Datum

open Datum (Header toFields? toList?)

/-! ## §2. Templates, branches and rules. -/

/-- A template. -/
def Expr.ofDatum? : Nat → Datum → Option Expr
  | _ + 2, .word tag => (Kind.ofTag? tag).bind ofKind?
  | room + 2, .tuple (some tag) [a] =>
    match Kind.ofTag? tag with
    | some .number => a.toSingle?.map .number
    | some .boolean => a.toBool?.map .boolean
    | some .rule => a.toText?.map .rule
    | some .abs => (ofDatum? room a).map .abs
    | _ => none
  | room + 3, .tuple (some tag) [a, b] =>
    match Kind.ofTag? tag with
    | some (.arith op) => return .arith op (← ofDatum? room a) (← ofDatum? room b)
    | some .ge => return .ge (← ofDatum? room a) (← ofDatum? room b)
    | _ => none
  | room + 3, .tuple (some tag) [a, b, c] =>
    match Kind.ofTag? tag with
    | some .triple =>
      return .triple (← ofDatum? room a) (← ofDatum? room b) (← ofDatum? room c)
    | some .cond => return .cond (← ofDatum? room a) (← ofDatum? room b) (← ofDatum? room c)
    | _ => none
  | _, _ => none

/-- A branch. -/
def Branch.ofDatum? (h : Header) : Nat → Datum → Option Branch
  | room + 2, d => do
    match ← d.toFields? h "Branch" ["node", "probability"] room with
    | [e, p] => return ⟨← Expr.ofDatum? room e, ← p.toSingle?⟩
    | _ => none
  | _, _ => none

/-- The rules of a grammar. -/
def Grammar.rulesOfDatum? (h : Header) : Nat → Datum → Option (List (String × List Branch))
  | room + 2, .map entries =>
    entries.mapM fun e => return (← e.1.toText?, ← toList? (Branch.ofDatum? h) room e.2)
  | _, _ => none

/-- A grammar; of rules with one name the last counts. -/
def Grammar.ofDatum? (h : Header) : Nat → Datum → Option Grammar
  | room + 2, d => do
    match ← d.toFields? h "Grammar" ["rules"] room with
    | [rules] => return ofList (← rulesOfDatum? h room rules)
    | _ => none
  | _, _ => none

/-! ## §3. Whole files. -/

/-- The grammar that a text describes, or what is wrong with the text. -/
def Grammar.read (s : String) : Except String Grammar :=
  match (Datum.parse? s).bind fun file => ofDatum? file.1 Datum.nestingLimit file.2 with
  | none => .error "not the text of a grammar"
  | some g => .ok g

/-- Why a text gives no grammar. -/
inductive GrammarFileFault where
  /-- The text is not that of a grammar. -/
  | unreadable (reason : String)
  /-- The grammar has a defect. -/
  | invalid (defect : Fault)
  deriving DecidableEq, Repr

/-- The wording of a fault. -/
def GrammarFileFault.message : GrammarFileFault → String
  | .unreadable reason => reason
  | .invalid defect => defect.message

/-- The valid grammar that a reader gets from a text. -/
def Grammar.parse (read : String → Except String Grammar) (s : String) :
    Except GrammarFileFault Grammar :=
  match read s with
  | .error reason => .error (.unreadable reason)
  | .ok g =>
    match g.validate with
    | .ok _ => .ok g
    | .error defect => .error (.invalid defect)

end ArtGrammar
