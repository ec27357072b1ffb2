/-
  ArtGrammar.Shader.Template
  ────────────────────────────────
  **WHOLE SHADERS AROUND AN EXPRESSION.**

  A shader declares the five variables, maps pixel and pointer positions from
  `[0, size]` to `[-1, 1]` and time to `sin(time / 2)`, and maps the color of
  the expression from `[-1, 1]` to `[0, 1]`.  The text of the expression stands
  in one place, between a head and a tail that do not depend on it.
-/
import ArtGrammar.Image.Canvas
import ArtGrammar.Shader.Transcription

namespace ArtGrammar

/-! ## §1. Languages and shaders. -/

/-- A shading language with a template. -/
inductive ShadingLanguage where
  | glsl
  | wgsl
  deriving DecidableEq, Repr

namespace ShadingLanguage

/-- Name of the language. -/
def tag : ShadingLanguage → String
  | .glsl => "Glsl"
  | .wgsl => "Wgsl"

/-- The language of the given name. -/
def ofTag? : String → Option ShadingLanguage
  | "Glsl" => some .glsl
  | "Wgsl" => some .wgsl
  | _ => none

/-- The dialect of expressions in the language. -/
def dialect : ShadingLanguage → Dialect
  | .glsl => .glsl
  | .wgsl => .wgsl

/-- The keyword that declares a scalar. -/
def scalarKeyword : ShadingLanguage → String
  | .glsl => "float"
  | .wgsl => "let"

end ShadingLanguage

/-- The sources of a shader. -/
structure Shader where
  language : ShadingLanguage
  /-- The vertex stage; in WGSL the module that holds both stages. -/
  vertex : String
  /-- The fragment stage; in WGSL the module that holds both stages. -/
  fragment : String
  deriving DecidableEq, Repr

/-! ## §2. Declarations of the variables. -/

/-- A size as a number literal with a fraction. -/
def sizeText (size : UInt32) : String := Text.natText size.toNat ++ ".0"

/-- The position `source`, mapped from `[0, size]` to `[-1, 1]`. -/
def normalizedText (source : String) (size : UInt32) : String :=
  source ++ " / " ++ sizeText size ++ " * 2.0 - 1.0"

/-- A line that declares a variable. -/
def declarationLine (keyword name value : String) : String :=
  "    " ++ keyword ++ " " ++ name ++ " = " ++ value ++ ";\n"

namespace ShadingLanguage

/-- Where a fragment finds the pixel position, the pointer position and the
time. -/
def sources : ShadingLanguage → Variable → String
  | .glsl, .x => "gl_FragCoord.x"
  | .glsl, .y => "gl_FragCoord.y"
  | .glsl, .mouseX => "mouse.x"
  | .glsl, .mouseY => "mouse.y"
  | .glsl, .t => "time"
  | .wgsl, .x => "pos.x"
  | .wgsl, .y => "pos.y"
  | .wgsl, .mouseX => "ctx.mouse_x"
  | .wgsl, .mouseY => "ctx.mouse_y"
  | .wgsl, .t => "ctx.time"

/-- The value that a variable is declared with. -/
def variableText (language : ShadingLanguage) (canvas : Canvas) (v : Variable) : String :=
  match v with
  | .x | .mouseX => normalizedText (language.sources v) canvas.width
  | .y | .mouseY => normalizedText (language.sources v) canvas.height
  | .t => "sin(" ++ language.sources .t ++ " / 2.0)"

/-- The line that declares a variable. -/
def variableLine (language : ShadingLanguage) (canvas : Canvas) (v : Variable) : String :=
  declarationLine language.scalarKeyword (language.dialect.variableNames.name v)
    (language.variableText canvas v)

/-- The declarations of the five variables. -/
def variableLines (language : ShadingLanguage) (canvas : Canvas) : String :=
  language.variableLine canvas .x ++ language.variableLine canvas .y
    ++ language.variableLine canvas .mouseX ++ language.variableLine canvas .mouseY
    ++ language.variableLine canvas .t

/-! ## §3. Templates. -/

/-- What stands before the declarations of a fragment. -/
def opening : ShadingLanguage → String
  | .glsl =>
    "precision highp float;\n"
      ++ "uniform vec2 mouse;\n"
      ++ "uniform float time;\n"
      ++ "void main() \x7b\n"
  | .wgsl =>
    "@vertex fn vs(@builtin(vertex_index) vertexIndex: u32) -> @builtin(position) vec4f \x7b\n"
      ++ "    let pos = array(\n"
      ++ "        vec2f(-1.0,  1.0),\n"
      ++ "        vec2f( 1.0,  1.0),\n"
      ++ "        vec2f( 1.0, -1.0),\n"
      ++ "        vec2f(-1.0, -1.0),\n"
      ++ "        vec2f(-1.0,  1.0),\n"
      ++ "        vec2f( 1.0, -1.0)\n"
      ++ "    );\n"
      ++ "    return vec4f(pos[vertexIndex], 0.0, 1.0);\n"
      ++ "\x7d\n"
      ++ "\n"
      ++ "struct Context \x7b\n"
      ++ "    mouse_x: f32,\n"
      ++ "    mouse_y: f32,\n"
      ++ "    time: f32,\n"
      ++ "\x7d\n"
      ++ "\n"
      ++ "@group(0) @binding(0) var<storage> ctx: Context;\n"
      ++ "\n"
      ++ "@fragment fn fs(@builtin(position) pos: vec4f) -> @location(0) vec4f \x7b\n"

/-- What stands between the declarations and the expression. -/
def colorOpening : ShadingLanguage → String
  | .glsl => "    vec3 color = ("
  | .wgsl => "    let color = ("

/-- What stands behind the expression. -/
def tail : ShadingLanguage → String
  | .glsl => " + 1.0) * 0.5;\n    gl_FragColor = vec4(color, 1.0);\n\x7d\n"
  | .wgsl => " + 1.0) * 0.5;\n    return vec4f(color, 1.0);\n\x7d\n"

/-- The fragment source up to the expression. -/
def head (language : ShadingLanguage) (canvas : Canvas) : String :=
  language.opening ++ language.variableLines canvas ++ language.colorOpening

/-- The fragment source around an expression. -/
def fragment (language : ShadingLanguage) (expression : String) (canvas : Canvas) : String :=
  language.head canvas ++ expression ++ language.tail

/-- The vertex stage of a language that keeps it apart. -/
def quadVertex : String :=
  "attribute vec2 aPos;\n"
    ++ "void main() \x7b\n"
    ++ "    gl_Position = vec4(aPos, 0.0, 1.0);\n"
    ++ "\x7d\n"

end ShadingLanguage

namespace Shader

/-- The shader around the text of an expression. -/
def ofText (language : ShadingLanguage) (expression : String) (canvas : Canvas) :
    Except Fault Shader := do
  canvas.validate
  let fragment := language.fragment expression canvas
  return { language, fragment
           vertex := match language with
             | .glsl => ShadingLanguage.quadVertex
             | .wgsl => fragment }

/-- The shader that draws a tree. -/
def ofExpr (language : ShadingLanguage) (e : Expr) (canvas : Canvas) : Except Fault Shader := do
  let expression ← e.transcribe language.dialect
  ofText language expression canvas

end Shader

end ArtGrammar
