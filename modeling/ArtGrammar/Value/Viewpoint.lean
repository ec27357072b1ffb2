/-
  ArtGrammar.Value.Viewpoint
  ────────────────────────────────
  **THE VALUES OF THE VARIABLES AT A POINT.**

  Pixel and pointer positions are mapped from `[0, size]` to `[-1, 1]`, and the
  time to the sine of its half.
-/
import ArtGrammar.Expr.Kind
import ArtGrammar.Image.Canvas
import ArtGrammar.Single.Sine

namespace ArtGrammar

/-- A place in the picture, in pixels from the lower left corner. -/
structure Position where
  x : Single
  y : Single
  deriving DecidableEq, Repr

/-- The values of the free variables. -/
structure Viewpoint where
  x : Single := 0
  y : Single := 0
  t : Single := 0
  mouseX : Single := 0
  mouseY : Single := 0
  deriving DecidableEq, Repr

namespace Viewpoint

/-- The value of a variable. -/
def value (p : Viewpoint) : Variable → Single
  | .x => p.x
  | .y => p.y
  | .t => p.t
  | .mouseX => p.mouseX
  | .mouseY => p.mouseY

/-- Maps `[0, size]` to `[-1, 1]`. -/
def normalized (position : Single) (size : UInt32) : Single :=
  position / Single.ofNat size.toNat * 2 - 1

/-- The viewpoint of a pixel position, at a time in seconds and with the pointer
at a position. -/
def ofPixel (pixel : Position) (canvas : Canvas) (time : Single) (mouse : Position) : Viewpoint :=
  { x := normalized pixel.x canvas.width
    y := normalized pixel.y canvas.height
    t := (time / 2).sin
    mouseX := normalized mouse.x canvas.width
    mouseY := normalized mouse.y canvas.height }

end Viewpoint

end ArtGrammar
