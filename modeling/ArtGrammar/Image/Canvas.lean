/-
  ArtGrammar.Image.Canvas
  ────────────────────────────────
  **THE SIZE OF THE PICTURE.**
-/
import ArtGrammar.Fault
import ArtGrammar.Text.Basic

namespace ArtGrammar

/-- Width and height in pixels. -/
structure Canvas where
  width : UInt32 := 800
  height : UInt32 := 800
  deriving DecidableEq, Repr

namespace Canvas

/-- Accepts a canvas that has pixels. -/
def validate (c : Canvas) : Except Fault Unit :=
  if c.width = 0 ∨ c.height = 0 then .error (.config .emptyCanvas) else .ok ()

/-- The canvas as a written record. -/
def text (c : Canvas) : String :=
  Text.record "Canvas"
    [("width", Text.natText c.width.toNat), ("height", Text.natText c.height.toNat)]

end Canvas

end ArtGrammar
