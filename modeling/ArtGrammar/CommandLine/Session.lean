/-
  ArtGrammar.CommandLine.Session
  ────────────────────────────────
  **ONE RUN OF THE PROGRAM.**

  A session reads its grammar, expands it from the seed, prints the text of the
  tree or a whole shader, and then stores a preview if it is to.  What it prints
  and how it exits is a function of its arguments and of its HOST: the files it
  can see, the reader of grammar texts and the writer of pictures.

      exit 0   the text on standard output
      exit 1   "Error: …" on standard error, with the cause of a failing file;
               what has been printed before stays
      exit 2   arguments that are not options
-/
import ArtGrammar.CommandLine.Files
import ArtGrammar.CommandLine.Options
import ArtGrammar.Draws.ChaCha
import ArtGrammar.GrammarFile.Decoding
import ArtGrammar.Image.Raster

namespace ArtGrammar

/-! ## §1. What can fail. -/

/-- Why a session fails. -/
inductive SessionFault where
  /-- The grammar file cannot be read. -/
  | reading (path : String) (cause : FileFault)
  /-- The grammar file has no valid grammar. -/
  | loading (path : String) (cause : GrammarFileFault)
  /-- The work itself fails. -/
  | work (cause : Fault)
  /-- The preview cannot be stored. -/
  | saving (reason : String)
  deriving DecidableEq, Repr

/-- A message with its cause below it, indented. -/
def withCause (message cause : String) : String :=
  let indented := cause.toList.flatMap fun c => if c = '\n' then '\n' :: "    ".toList else [c]
  message ++ "\n\nCaused by:\n    " ++ String.ofList indented

/-- The wording of a session fault. -/
def SessionFault.message : SessionFault → String
  | .reading path cause => withCause ("reading grammar " ++ path) cause.message
  | .loading path cause => withCause ("loading grammar " ++ path) cause.message
  | .work cause => cause.message
  | .saving reason => reason

/-- The work as a part of a session. -/
def SessionFault.ofWork {α : Type} : Except Fault α → Except SessionFault α
  | .ok a => .ok a
  | .error cause => .error (.work cause)

/-! ## §2. The work. -/

/-- What a session finds around it.  Without a writer of its own a host stores no
pictures. -/
structure Host where
  files : Files
  /-- The grammar that a text describes, or what is wrong with the text. -/
  read : String → Except String Grammar := Grammar.read
  /-- Stores a picture under a path, or tells why that fails. -/
  save : String → List (List Pixel) → Except String Unit :=
    fun _ _ => .error "pictures are not supported"

/-- The grammar of a session. -/
def Options.loadGrammar (o : Options) (host : Host) : Except SessionFault Grammar :=
  match o.grammar with
  | none => .ok Grammar.classic
  | some path =>
    match host.files path with
    | .error cause => .error (.reading path cause)
    | .ok text =>
      match Grammar.parse host.read text with
      | .error cause => .error (.loading path cause)
      | .ok g => .ok g

/-- The fault of a halted computation.  The tape of a seed has no end, and the
expansion of a valid grammar has one, so only the first kind arises here. -/
def Halt.toFault : Halt → Fault
  | .fault cause => cause
  | .dry => .other "the random words are used up"
  | .unfinished => .other "the expansion does not end"
  | .overflow => .other "the budget is used up"

/-- The tree of a session. -/
def Options.tree (o : Options) (g : Grammar) : Except Fault Expr :=
  let config : Configuration := { startRule := o.start, depth := o.depth }
  match ((g.synthesize true config).run (Tape.ofSeed o.seed) 0).1 with
  | .ok e => .ok e
  | .error h => .error h.toFault

/-- The text that a shader is printed as. -/
def Shader.text (p : Shader) : String :=
  match p.language with
  | .glsl => "// vertex\n" ++ p.vertex ++ "\n// fragment\n" ++ p.fragment ++ "\n"
  | .wgsl => p.fragment ++ "\n"

/-- The text that a tree is printed as. -/
def Options.print (o : Options) (e : Expr) : Except Fault String :=
  match o.emit with
  | .expression => do return (← e.transcribe o.language.dialect) ++ "\n"
  | .program => do return (← Shader.ofExpr o.language e ⟨o.size, o.size⟩).text

/-- The tree of a session, and what is printed of it. -/
def Options.output (o : Options) (host : Host) : Except SessionFault (Expr × String) := do
  let g ← o.loadGrammar host
  let e ← SessionFault.ofWork (o.tree g)
  let printed ← SessionFault.ofWork (o.print e)
  return (e, printed)

/-- Draws the preview of a tree and stores it, if it is to be. -/
def Options.storePreview (o : Options) (host : Host) (e : Expr) : Except SessionFault Unit :=
  match o.png with
  | none => .ok ()
  | some path => do
    let view : View := { View.centered ⟨o.size, o.size⟩ with time := o.time }
    let picture ← SessionFault.ofWork (view.render e)
    match host.save path picture with
    | .ok _ => return ()
    | .error reason => throw (.saving reason)

/-! ## §3. Outcomes. -/

/-- What a session has printed at its end, and why it has failed if it has. -/
structure Report where
  printed : String := ""
  fault : Option SessionFault := none
  deriving DecidableEq, Repr

/-- A session.  The preview comes last, so its faults leave what has been printed. -/
def Options.session (o : Options) (host : Host) : Report :=
  match o.output host with
  | .error fault => { fault := some fault }
  | .ok (e, printed) =>
    match o.storePreview host e with
    | .error fault => { printed, fault := some fault }
    | .ok _ => { printed }

/-- How a program ends. -/
structure Outcome where
  exit : UInt8
  stdout : String
  stderr : String
  deriving DecidableEq, Repr

/-- The outcome of a session. -/
def Outcome.ofReport (report : Report) : Outcome :=
  match report.fault with
  | none => { exit := 0, stdout := report.printed, stderr := "" }
  | some fault =>
    { exit := 1, stdout := report.printed, stderr := "Error: " ++ fault.message ++ "\n" }

/-- The outcome of a session with the given arguments. -/
def Outcome.ofArgs (host : Host) (args : List String) : Outcome :=
  match Options.parse? args with
  | none => { exit := 2, stdout := "", stderr := "error: invalid arguments\n" }
  | some o => Outcome.ofReport (o.session host)

end ArtGrammar
