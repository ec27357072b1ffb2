/-
  ArtGrammar.Json.Decoding
  ────────────────────────────────
  **READING EVERYTHING BACK FROM JSON.**

  A choice without data may also be written with the data null, and a record as
  the array of its fields.  A record has each of its fields once; members of
  other names are passed over.

  Arrays and objects nest at most `nestingLimit` deep in what is read into a
  value; members passed over do not count.  A decoder takes the ROOM, the
  number of them that may still be entered.
-/
import ArtGrammar.Grammar.Basic
import ArtGrammar.Json.Reader
import ArtGrammar.Shader.Template
import ArtGrammar.Synthesis.Configuration
import ArtGrammar.Text.Basic

namespace ArtGrammar

namespace JsonValue

/-- How deep arrays and objects nest in what is read. -/
def nestingLimit : Nat := 127

/-! ## §1. Plain values. -/

/-- The text of a string. -/
def toText? : JsonValue → Option String
  | .string s => s
  | _ => none

/-- A truth value. -/
def toBool? : JsonValue → Option Bool
  | .bool b => some b
  | _ => none

/-- How many digits of a written number count one by one. -/
def digitLimit : Nat := 113

/-- The decimal that a numeral is read as.  Digits behind the `digitLimit`th are
taken together for one that is 1, also if they are zeros before the point. -/
def readAs (n : Numeral) : Decimal :=
  let n := n.trimmed
  let digits := n.significant
  if digits.length ≤ digitLimit then n.decimal
  else ⟨10 * Numeral.valueOf (digits.take digitLimit) + 1,
        n.decimal.exponent + (digits.length - (digitLimit + 1) : Nat)⟩

/-- What a written number is rounded from: what it is read as, but a negative
whole number that fits into 64 bits without its sign and not with it is first
rounded to 53 bits. -/
def roundedFrom (neg : Bool) (n : Numeral) : Decimal :=
  let d := readAs n
  if neg && n.isWhole && decide (0x8000000000000000 < d.digits)
      && decide (d.digits < 0x10000000000000000) then
    ⟨roundHalfEven d.digits 0x800 * 0x800, 0⟩
  else d

/-- The number nearest to a written one, unless it is too large to be finite. -/
def toSingle? : JsonValue → Option Single
  | .number neg n =>
    match Single.ofDecimal neg (roundedFrom neg n) with
    | .finite neg rank => some (.finite neg rank)
    | _ => none
  | _ => none

/-- An integer that is written as one; a negative zero is not. -/
def toInt? : JsonValue → Option Int
  | .number neg n =>
    if n.isWhole then
      let v : Int := Numeral.valueOf n.whole
      if neg then (if v = 0 then none else some (-v)) else some v
    else none
  | _ => none

/-- An unsigned integer of 32 bits. -/
def toUInt32? (v : JsonValue) : Option UInt32 := v.toInt?.bind Text.toUInt32?

/-- A signed integer of 32 bits. -/
def toInt32? (v : JsonValue) : Option Int32 := v.toInt?.bind Text.toInt32?

/-! ## §2. Choices, lists and records. -/

/-- A choice without data. -/
def toChoice? {α : Type} (ofTag? : String → Option α) : Nat → JsonValue → Option α
  | _, .string s => s.bind ofTag?
  | _ + 1, .object [(some tag, .null)] => ofTag? tag
  | _, _ => none

/-- A list. -/
def toList? {α : Type} (item : Nat → JsonValue → Option α) : Nat → JsonValue → Option (List α)
  | room + 1, .array items => items.mapM (item room)
  | _, _ => none

/-- The members of an object, if all their names have texts. -/
def namedMembers? (members : List (Option String × JsonValue)) :
    Option (List (String × JsonValue)) :=
  members.mapM fun m => m.1.map fun name => (name, m.2)

/-- The one member of the given name; `some none` if there is none, and nothing
if there are several. -/
def member? (members : List (String × JsonValue)) (name : String) : Option (Option JsonValue) :=
  match members.filter fun m => m.1 == name with
  | [] => some none
  | [m] => some (some m.2)
  | _ => none

/-- The fields of a record in the order of the given names, each if it is
there. -/
def toFields? (names : List String) : JsonValue → Option (List (Option JsonValue))
  | .array items =>
    if items.length ≤ names.length then
      some (items.map some ++ List.replicate (names.length - items.length) none)
    else none
  | .object members => do
    let members ← namedMembers? members
    names.mapM (member? members)
  | _ => none

/-- A record that is read from its fields. -/
def toRecord? {α : Type} (names : List String) (build : Nat → List (Option JsonValue) → Option α) :
    Nat → JsonValue → Option α
  | 0, _ => none
  | room + 1, v => (v.toFields? names).bind (build room)

end JsonValue

open JsonValue

/-! ## §3. Trees. -/

/-- A tree. -/
def Expr.ofJson? : Nat → JsonValue → Option Expr
  | _, .string s => do ofKind? (← Kind.ofTag? (← s))
  | room + 1, .object [(some tag, arg)] =>
    match Kind.ofTag? tag, arg with
    | some k, .null => ofKind? k
    | some .number, v => v.toSingle?.map .number
    | some .boolean, v => v.toBool?.map .boolean
    | some .rule, v => v.toText?.map .rule
    | some .abs, v => (ofJson? room v).map .abs
    | some k, .array items =>
      match room with
      | 0 => none
      | room + 1 =>
        match k, items with
        | .arith op, [a, b] => return .arith op (← ofJson? room a) (← ofJson? room b)
        | .ge, [a, b] => return .ge (← ofJson? room a) (← ofJson? room b)
        | .triple, [a, b, c] =>
          return .triple (← ofJson? room a) (← ofJson? room b) (← ofJson? room c)
        | .cond, [a, b, c] =>
          return .cond (← ofJson? room a) (← ofJson? room b) (← ofJson? room c)
        | _, _ => none
    | _, _ => none
  | _, _ => none

/-! ## §4. Records. -/

/-- A branch. -/
def Branch.ofJson? : Nat → JsonValue → Option Branch :=
  toRecord? ["node", "probability"] fun room fields =>
    match fields with
    | [some e, some p] => return ⟨← Expr.ofJson? room e, ← p.toSingle?⟩
    | _ => none

/-- The rules of a grammar. -/
def Grammar.rulesOfJson? : Nat → JsonValue → Option (List (String × List Branch))
  | room + 1, .object members => do
    let members ← namedMembers? members
    members.mapM fun m => return (m.1, ← toList? Branch.ofJson? room m.2)
  | _, _ => none

/-- A grammar; of rules with one name the last counts. -/
def Grammar.ofJson? : Nat → JsonValue → Option Grammar :=
  toRecord? ["rules"] fun room fields =>
    match fields with
    | [some rules] => (rulesOfJson? room rules).map ofList
    | _ => none

/-- The names of variables. -/
def VariableNames.ofJson? : Nat → JsonValue → Option VariableNames :=
  toRecord? ["x", "y", "t", "mouse_x", "mouse_y"] fun _ fields =>
    match fields with
    | [some x, some y, some t, some mouseX, some mouseY] =>
      return { x := ← x.toText?, y := ← y.toText?, t := ← t.toText?
               mouseX := ← mouseX.toText?, mouseY := ← mouseY.toText? }
    | _ => none

/-- A dialect. -/
def Dialect.ofJson? : Nat → JsonValue → Option Dialect :=
  toRecord? ["name", "vec3_constructor", "bool_cast", "number_style", "true_literal",
    "false_literal", "variables", "unsupported"] fun room fields =>
    match fields with
    | [some name, some constructor, some cast, some style, some yes, some no, some names,
       some unsupported] =>
      return { name := ← name.toText?
               vectorConstructor := ← constructor.toText?
               boolCast := ← cast.toText?
               numberStyle := ← toChoice? NumberStyle.ofTag? room style
               trueLiteral := ← yes.toText?
               falseLiteral := ← no.toText?
               variableNames := ← VariableNames.ofJson? room names
               unsupported := ← toList? (toChoice? Kind.ofTag?) room unsupported }
    | _ => none

/-- A canvas. -/
def Canvas.ofJson? : Nat → JsonValue → Option Canvas :=
  toRecord? ["width", "height"] fun _ fields =>
    match fields with
    | [some width, some height] => return ⟨← width.toUInt32?, ← height.toUInt32?⟩
    | _ => none

/-- A configuration; a missing field has its default value. -/
def Configuration.ofJson? : Nat → JsonValue → Option Configuration :=
  toRecord? ["start_rule", "depth"] fun _ fields => do
    let default : Configuration := {}
    match fields with
    | [start, depth] =>
      let startRule ← match start with
        | some s => s.toText?
        | none => some default.startRule
      let depth ← match depth with
        | some d => d.toInt32?
        | none => some default.depth
      return { startRule, depth }
    | _ => none

/-! ## §5. Whole texts. -/

/-- Reads a text with the given decoder. -/
def JsonValue.decode? {α : Type} (decoder : Nat → JsonValue → Option α) (s : String) : Option α :=
  (parse? s).bind (decoder nestingLimit)

end ArtGrammar
