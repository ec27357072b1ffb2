/-
  ArtGrammar.Image.Raster
  ────────────────────────────────
  **PICTURES OF A TREE.**

  A picture shows the color of the tree at the center of every pixel.  Its rows
  run from the top down, while positions are measured from the lower left
  corner.
-/
import ArtGrammar.Value.Evaluation

namespace ArtGrammar

/-! ## §1. Views. -/

/-- What a picture is taken of: its size, the time and the pointer position. -/
structure View where
  canvas : Canvas
  time : Single
  mouse : Position
  deriving DecidableEq, Repr

/-- The view at time zero with the pointer in the middle. -/
def View.centered (canvas : Canvas) : View :=
  let half := Single.ofRatio false 1 2
  { canvas
    time := 0
    mouse := ⟨Single.ofNat canvas.width.toNat * half, Single.ofNat canvas.height.toNat * half⟩ }

/-! ## §2. Pixels. -/

/-- A pixel of three bytes. -/
structure Pixel where
  red : UInt8
  green : UInt8
  blue : UInt8
  deriving DecidableEq, Repr

/-- The byte of a channel in `[0, 1]`. -/
def Single.channelByte (v : Single) : UInt8 := (v * 255).toByte

/-- The pixel of a color. -/
def Lanes.toPixel (color : Lanes) : Pixel :=
  ⟨color.first.channelByte, color.second.channelByte, color.third.channelByte⟩

namespace View

/-- The center of the pixel in the given column and the given row from the
top. -/
def center (view : View) (column row : Nat) : Position :=
  let half := Single.ofRatio false 1 2
  ⟨Single.ofNat column + half, Single.ofNat (view.canvas.height.toNat - 1 - row) + half⟩

/-- The viewpoint of a pixel. -/
def viewpoint (view : View) (column row : Nat) : Viewpoint :=
  Viewpoint.ofPixel (view.center column row) view.canvas view.time view.mouse

/-- The pixel in the given column and row. -/
def pixel (view : View) (e : Expr) (column row : Nat) : Except Fault Pixel := do
  let color ← e.shade (view.viewpoint column row)
  return color.toPixel

/-- The rows of the picture, from the top down. -/
def render (view : View) (e : Expr) : Except Fault (List (List Pixel)) := do
  view.canvas.validate
  (List.range view.canvas.height.toNat).mapM fun row =>
    (List.range view.canvas.width.toNat).mapM fun column => view.pixel e column row

end View

end ArtGrammar
