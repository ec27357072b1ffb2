/-
  ArtGrammar.CommandLine.Options
  ────────────────────────────────
  **THE OPTIONS OF A SESSION.**

      --seed N      --depth N     --start RULE   --grammar FILE
      --language glsl|wgsl        --emit expr|program
      --size N      --png FILE    --time SECONDS

  An option stands at most once, as `--name value` or `--name=value`; a value
  that begins with a dash can only be given in the second way, unless it is the
  dash alone.  Nothing but options is accepted.
-/
import ArtGrammar.Decimal.Basic
import ArtGrammar.Decimal.Scan
import ArtGrammar.Shader.Template
import ArtGrammar.Synthesis.Configuration
import ArtGrammar.Text.Basic

namespace ArtGrammar

/-! ## §1. Options. -/

/-- What a session prints. -/
inductive Emission where
  /-- The text of the expression. -/
  | expression
  /-- A whole shader. -/
  | program
  deriving DecidableEq, Repr

/-- The options of a session. -/
structure Options where
  seed : UInt64 := 2025
  depth : Int32 := Grammar.classicDepth
  start : String := Grammar.classicStart
  /-- The grammar file; the classic grammar if there is none. -/
  grammar : Option String := none
  language : ShadingLanguage := .wgsl
  emit : Emission := .expression
  /-- Width and height of the canvas. -/
  size : UInt32 := 512
  /-- Where a preview is to be stored, if one is to be drawn. -/
  png : Option String := none
  /-- The time of the preview. -/
  time : Single := 0
  deriving DecidableEq, Repr

/-! ## §2. Assignments. -/

/-- A name with the value given to it. -/
structure Assignment where
  name : String
  value : String
  deriving DecidableEq, Repr

/-- The name and the value around the first equals sign. -/
def splitAssignment (s : List Char) : Option Assignment :=
  match s.dropWhile (· ≠ '=') with
  | [] => none
  | _ :: value => some ⟨String.ofList (s.takeWhile (· ≠ '=')), String.ofList value⟩

/-- Whether an argument can be the value of the option before it. -/
def isSeparateValue (s : String) : Bool :=
  match s.toList with
  | '-' :: _ :: _ => false
  | _ => true

/-- The assignments that arguments consist of.  Two dashes alone end the options,
so nothing may follow them. -/
def assignments? : List String → Option (List Assignment)
  | [] => some []
  | [arg] =>
    match arg.toList with
    | ['-', '-'] => some []
    | '-' :: '-' :: body => (splitAssignment body).map fun a => [a]
    | _ => none
  | arg :: value :: rest =>
    match arg.toList with
    | ['-', '-'] => none
    | '-' :: '-' :: body =>
      match splitAssignment body with
      | some a => (assignments? (value :: rest)).map (a :: ·)
      | none =>
        if isSeparateValue value then
          (assignments? rest).map (⟨String.ofList body, value⟩ :: ·)
        else none
    | _ => none

/-! ## §3. Values. -/

/-- An integer with an optional sign. -/
def integer? (s : String) : Option Int :=
  let read (digits : List Char) : Option Nat :=
    if digits.isEmpty || !digits.all Char.isDigit then none else some (Numeral.valueOf digits)
  match s.toList with
  | '-' :: digits => (read digits).map fun n => -(n : Int)
  | '+' :: digits => (read digits).map fun n => (n : Int)
  | digits => (read digits).map fun n => (n : Int)

/-- A seed; a minus sign is not accepted, even before a zero. -/
def seed? (s : String) : Option UInt64 :=
  if s.toList.head? = some '-' then none else (integer? s).bind Text.toUInt64?

/-- A depth budget. -/
def depth? (s : String) : Option Int32 := (integer? s).bind Text.toInt32?

/-- A size in pixels. -/
def size? (s : String) : Option UInt32 := (integer? s).bind Text.toUInt32?

/-- A path; it is not empty. -/
def path? (s : String) : Option String := if s.isEmpty then none else some s

/-- A number of seconds, or the name of a number without digits in any case. -/
def time? (s : String) : Option Single :=
  let read (neg : Bool) (s : List Char) : Option Single :=
    match String.ofList (s.map Char.toLower) with
    | "nan" => some .nan
    | "inf" | "infinity" => some (.infinite neg)
    | _ =>
      match Numeral.read true s with
      | some (n, []) => some (Single.ofDecimal neg n.decimal)
      | _ => none
  match s.toList with
  | '-' :: s => read true s
  | '+' :: s => read false s
  | s => read false s

/-- A shading language. -/
def language? : String → Option ShadingLanguage
  | "glsl" => some .glsl
  | "wgsl" => some .wgsl
  | _ => none

/-- What is to be printed. -/
def emission? : String → Option Emission
  | "expr" => some .expression
  | "program" => some .program
  | _ => none

/-! ## §4. Options from arguments. -/

namespace Options

/-- Sets the option of an assignment. -/
def assign? (o : Options) (a : Assignment) : Option Options :=
  match a.name with
  | "seed" => (seed? a.value).map fun v => { o with seed := v }
  | "depth" => (depth? a.value).map fun v => { o with depth := v }
  | "start" => some { o with start := a.value }
  | "grammar" => (path? a.value).map fun v => { o with grammar := some v }
  | "language" => (language? a.value).map fun v => { o with language := v }
  | "emit" => (emission? a.value).map fun v => { o with emit := v }
  | "size" => (size? a.value).map fun v => { o with size := v }
  | "png" => (path? a.value).map fun v => { o with png := some v }
  | "time" => (time? a.value).map fun v => { o with time := v }
  | _ => none

/-- The options that arguments give. -/
def parse? (args : List String) : Option Options := do
  let assignments ← assignments? args
  if (assignments.map Assignment.name).Nodup then assignments.foldlM assign? {} else none

end Options

end ArtGrammar
