/-
  ArtGrammar.Proofs.Image.Raster
  ────────────────────────────────
  **A PICTURE IS WHOLE OR NOT TAKEN AT ALL.**

  A tree has a color at every viewpoint, or it fails in the same way at all of them.  So
  the first pixel decides about the picture, and nothing fails later on:

      a size is zero            the canvas is refused
      the tree has no color     its fault, which any viewpoint shows
      otherwise                 a row of pixels for each row of the canvas, and in each
                                pixel the color at its center, in bytes
-/
import ArtGrammar.Proofs.Image.Channel
import ArtGrammar.Proofs.Value.Lanes

namespace ArtGrammar

/-! ## §1. Steps that succeed or fail alike. -/

section
variable {α β : Type} {f : α → Except Fault β} {l : List α}

theorem mapM_eq_ok {g : α → β} (h : ∀ a, f a = .ok (g a)) : l.mapM f = .ok (l.map g) := by
  induction l with
  | nil => rfl
  | cons a l ih =>
      rw [List.mapM_cons, h a, ih]
      rfl

/-- The first step ends the sequence. -/
theorem mapM_eq_error {fault : Fault} (h : ∀ a, f a = .error fault) (hl : l ≠ []) :
    l.mapM f = .error fault := by
  cases l with
  | nil => exact absurd rfl hl
  | cons a l =>
      rw [List.mapM_cons, h a]
      rfl

end

/-! ## §2. Colors. -/

/-- The channel of a color is made from the number in its lane. -/
theorem Value.exists_lane_of_color {v : Value} {color : Lanes} (h : v.color = .ok color) (i : Lane) :
    ∃ x, v.lane i = .scalar x ∧ color.get i = x.toChannel := by
  cases v with
  | scalar x => cases h; cases i <;> exact ⟨x, rfl, rfl⟩
  | bool b => cases h
  | vector x => cases h; exact ⟨x.get i, rfl, by cases i <;> rfl⟩

namespace Expr

/-- All values but truth values have a color. -/
theorem exists_shade_iff {p : Viewpoint} {e : Expr} :
    (∃ color, e.shade p = .ok color)
      ↔ ∃ v, e.evaluate p = .ok v ∧ (v.type = .scalar ∨ v.type = .vector) := by
  have hcolor : ∀ v : Value, (∃ color, v.color = .ok color)
      ↔ v.type = .scalar ∨ v.type = .vector := by
    intro v
    rw [Value.exists_color_iff]
    cases v <;> simp [Value.type]
  constructor
  · rintro ⟨color, h⟩
    obtain ⟨v, hv, h⟩ := bind_eq_ok.1 h
    exact ⟨v, hv, (hcolor v).1 ⟨color, h⟩⟩
  · rintro ⟨v, hv, htype⟩
    obtain ⟨color, h⟩ := (hcolor v).2 htype
    exact ⟨color, bind_eq_ok.2 ⟨v, hv, h⟩⟩

/-- **WHETHER A TREE HAS A COLOR DOES NOT DEPEND ON THE VIEWPOINT**, nor does its fault if it
has none. -/
theorem shade_decided (e : Expr) :
    (∃ color : Viewpoint → Lanes, ∀ p, e.shade p = .ok (color p))
      ∨ ∃ fault, ∀ p, e.shade p = .error fault := by
  cases htype : e.typeOf with
  | error fault =>
      refine Or.inr ⟨fault, fun p => ?_⟩
      unfold shade
      rw [evaluate_of_typeOf_eq_error htype p]
      rfl
  | ok s =>
      -- only the type of the value decides about the color
      by_cases hs : s = .bool
      · subst hs
        refine Or.inr ⟨.evaluation .shadeOfBool, fun p => ?_⟩
        obtain ⟨v, hv, hbool⟩ := exists_evaluate_of_typeOf htype p
        obtain ⟨b, rfl⟩ := Value.eq_bool_of_type hbool
        unfold shade
        rw [hv]
        rfl
      · have hcolor : ∀ p, ∃ color, e.shade p = .ok color := by
          intro p
          obtain ⟨v, hv, rfl⟩ := exists_evaluate_of_typeOf htype p
          obtain ⟨color, h⟩ := Value.exists_color_iff.2 hs
          exact ⟨color, bind_eq_ok.2 ⟨v, hv, h⟩⟩
        choose color h using hcolor
        exact Or.inl ⟨color, h⟩

/-- A channel of a color lies between zero and one, and its byte is the nearest to it. -/
theorem channel_of_shade {p : Viewpoint} {e : Expr} {color : Lanes} (h : e.shade p = .ok color)
    (i : Lane) :
    0 ≤ color.get i * 255 ∧ color.get i * 255 ≤ 255
      ∧ (color.get i * 255).RoundsTo (color.get i).channelByte.toNat := by
  obtain ⟨v, _, hcolor⟩ := bind_eq_ok.1 h
  obtain ⟨x, _, hx⟩ := Value.exists_lane_of_color hcolor i
  rw [hx]
  obtain ⟨hlow, hhigh⟩ := Single.clamp_mul_mem ((x + 1) * Single.ofRatio false 1 2)
  exact ⟨hlow, hhigh, Single.roundsTo_channelByte _⟩

end Expr

/-! ## §3. Pictures. -/

/-- The byte of a channel. -/
def Pixel.get (pixel : Pixel) (i : Lane) : UInt8 := i.pick pixel.red pixel.green pixel.blue

theorem Lanes.get_toPixel (color : Lanes) (i : Lane) :
    color.toPixel.get i = (color.get i).channelByte := by
  cases i <;> rfl

theorem Canvas.validate_eq_ok_iff {c : Canvas} :
    c.validate = .ok () ↔ 0 < c.width ∧ 0 < c.height := by
  unfold validate
  rw [UInt32.pos_iff_ne_zero, UInt32.pos_iff_ne_zero, ← not_or]
  split
  next h => exact ⟨nofun, fun hpixels => absurd h hpixels⟩
  next h => exact ⟨fun _ => h, fun _ => rfl⟩

namespace View

variable {view : View} {e : Expr}

/-- A row of the picture of a tree whose color at each viewpoint is known, -/
def line (view : View) (color : Viewpoint → Lanes) (row : Nat) : List Pixel :=
  (List.range view.canvas.width.toNat).map fun column =>
    (color (view.viewpoint column row)).toPixel

/-- and all of its rows. -/
def picture (view : View) (color : Viewpoint → Lanes) : List (List Pixel) :=
  (List.range view.canvas.height.toNat).map (view.line color)

theorem length_picture (view : View) (color : Viewpoint → Lanes) :
    (view.picture color).length = view.canvas.height.toNat := by
  rw [picture, List.length_map, List.length_range]

theorem length_line (view : View) (color : Viewpoint → Lanes) (row : Nat) :
    (view.line color row).length = view.canvas.width.toNat := by
  rw [line, List.length_map, List.length_range]

theorem getElem?_picture (color : Viewpoint → Lanes) {row : Nat}
    (h : row < view.canvas.height.toNat) :
    (view.picture color)[row]? = some (view.line color row) := by
  rw [picture, List.getElem?_map, List.getElem?_range h]
  rfl

theorem getElem?_line (color : Viewpoint → Lanes) {column : Nat} (row : Nat)
    (h : column < view.canvas.width.toNat) :
    (view.line color row)[column]? = some (color (view.viewpoint column row)).toPixel := by
  rw [line, List.getElem?_map, List.getElem?_range h]
  rfl

theorem render_of_color {color : Viewpoint → Lanes} (hwidth : 0 < view.canvas.width)
    (hheight : 0 < view.canvas.height) (h : ∀ p, e.shade p = .ok (color p)) :
    view.render e = .ok (view.picture color) := by
  have hpixel : ∀ column row,
      view.pixel e column row = .ok (color (view.viewpoint column row)).toPixel := by
    intro column row
    exact bind_eq_ok.2 ⟨_, h _, rfl⟩
  refine bind_eq_ok.2 ⟨(), Canvas.validate_eq_ok_iff.2 ⟨hwidth, hheight⟩, ?_⟩
  exact mapM_eq_ok fun row => mapM_eq_ok fun column => hpixel column row

/-- **THE FIRST PIXEL FAILS, AND WITH IT THE PICTURE.** -/
theorem render_of_fault {fault : Fault} (hwidth : 0 < view.canvas.width)
    (hheight : 0 < view.canvas.height) (h : ∀ p, e.shade p = .error fault) :
    view.render e = .error fault := by
  have hrange : ∀ {n : UInt32}, 0 < n → List.range n.toNat ≠ [] := by
    intro n hn hempty
    have hzero : n.toNat = 0 := List.range_eq_nil.1 hempty
    rw [UInt32.lt_iff_toNat_lt, hzero] at hn
    exact Nat.lt_irrefl _ hn
  have hpixel : ∀ column row, view.pixel e column row = .error fault := by
    intro column row
    unfold pixel
    rw [h]
    rfl
  unfold render
  rw [Canvas.validate_eq_ok_iff.2 ⟨hwidth, hheight⟩]
  exact mapM_eq_error (fun row => mapM_eq_error (hpixel · row) (hrange hwidth)) (hrange hheight)

theorem render_of_empty (h : view.canvas.width = 0 ∨ view.canvas.height = 0) :
    view.render e = .error (.config .emptyCanvas) := by
  unfold render Canvas.validate
  rw [if_pos h]
  rfl

/-- A picture that is taken is the whole one. -/
theorem exists_color_of_render {rows : List (List Pixel)} (h : view.render e = .ok rows) :
    0 < view.canvas.width ∧ 0 < view.canvas.height
      ∧ ∃ color : Viewpoint → Lanes, (∀ p, e.shade p = .ok (color p)) ∧ rows = view.picture color := by
  obtain ⟨_, hsize, _⟩ := bind_eq_ok.1 h
  obtain ⟨hwidth, hheight⟩ := Canvas.validate_eq_ok_iff.1 hsize
  refine ⟨hwidth, hheight, ?_⟩
  obtain ⟨color, hcolor⟩ | ⟨fault, hfault⟩ := e.shade_decided
  · rw [render_of_color hwidth hheight hcolor] at h
    exact ⟨color, hcolor, (Except.ok.inj h).symm⟩
  · rw [render_of_fault hwidth hheight hfault] at h
    cases h

/-- Rows are counted from the top, positions from below. -/
theorem viewpoint_eq (column : Nat) {row below : Nat}
    (h : row + 1 + below = view.canvas.height.toNat) :
    view.viewpoint column row
      = Viewpoint.ofPixel ⟨Single.ofNat column + Single.ofRatio false 1 2,
          Single.ofNat below + Single.ofRatio false 1 2⟩ view.canvas view.time view.mouse := by
  unfold viewpoint center
  rw [show view.canvas.height.toNat - 1 - row = below by omega]

/-- **A PICTURE IS WHOLE OR NOT TAKEN AT ALL.**  It is taken exactly if both sizes are positive
and the tree has a scalar or a vector for a value, at whatever viewpoint.  Otherwise the
canvas is refused if a size is zero, and else the fault is the one for which the tree has no
color, again at whatever viewpoint.  The picture has a row for each row of the canvas and
in it a pixel for each column; each byte of a pixel is the one nearest to 255 times the
channel of the color at its center, the greater one of two equally near, and no product is
out of the range of the bytes. -/
theorem render_whole (view : View) (e : Expr) :
    (∀ p, (∃ rows, view.render e = .ok rows) ↔
        0 < view.canvas.width ∧ 0 < view.canvas.height
          ∧ ∃ v, e.evaluate p = .ok v ∧ (v.type = .scalar ∨ v.type = .vector))
      ∧ (view.canvas.width = 0 ∨ view.canvas.height = 0 →
          view.render e = .error (.config .emptyCanvas))
      ∧ (0 < view.canvas.width → 0 < view.canvas.height →
          ∀ p fault, view.render e = .error fault ↔ e.shade p = .error fault)
      ∧ ∀ rows, view.render e = .ok rows →
          rows.length = view.canvas.height.toNat
            ∧ (∀ line ∈ rows, line.length = view.canvas.width.toNat)
            ∧ ∀ column row below, column < view.canvas.width.toNat →
                row + 1 + below = view.canvas.height.toNat →
                ∃ cells pixel color, rows[row]? = some cells ∧ cells[column]? = some pixel
                  ∧ e.shade (Viewpoint.ofPixel
                      ⟨Single.ofNat column + Single.ofRatio false 1 2,
                        Single.ofNat below + Single.ofRatio false 1 2⟩
                      view.canvas view.time view.mouse) = .ok color
                  ∧ ∀ i, 0 ≤ color.get i * 255 ∧ color.get i * 255 ≤ 255
                      ∧ (color.get i * 255).RoundsTo (pixel.get i).toNat := by
  refine ⟨fun p => ?_, render_of_empty, fun hwidth hheight p fault => ?_, fun rows h => ?_⟩
  · rw [← Expr.exists_shade_iff]
    constructor
    · rintro ⟨rows, h⟩
      obtain ⟨hwidth, hheight, color, hcolor, _⟩ := exists_color_of_render h
      exact ⟨hwidth, hheight, color p, hcolor p⟩
    · rintro ⟨hwidth, hheight, color', h⟩
      obtain ⟨color, hcolor⟩ | ⟨fault, hfault⟩ := e.shade_decided
      · exact ⟨_, render_of_color hwidth hheight hcolor⟩
      · rw [hfault p] at h
        cases h
  · obtain ⟨color, hcolor⟩ | ⟨cause, hcause⟩ := e.shade_decided
    · rw [render_of_color hwidth hheight hcolor, hcolor p]
      exact ⟨nofun, nofun⟩
    · rw [render_of_fault hwidth hheight hcause, hcause p]
      exact ⟨fun h => congrArg _ (Except.error.inj h), fun h => congrArg _ (Except.error.inj h)⟩
  · obtain ⟨_, _, color, hcolor, rfl⟩ := exists_color_of_render h
    refine ⟨view.length_picture color, ?_, ?_⟩
    · intro line hline
      obtain ⟨row, _, rfl⟩ := List.mem_map.1 hline
      exact view.length_line color row
    · intro column row below hcolumn hrow
      refine ⟨_, _, color (view.viewpoint column row), getElem?_picture color (by omega),
        getElem?_line color row hcolumn, ?_, fun i => ?_⟩
      · rw [← viewpoint_eq column hrow]
        exact hcolor _
      · rw [Lanes.get_toPixel]
        exact Expr.channel_of_shade (hcolor _) i

/-- A view of two pixels, one above the other. -/
def tower : View := { canvas := ⟨1, 2⟩, time := 0, mouse := ⟨0, 0⟩ }

/-- Of the vertical coordinate the upper pixel shows a half and the lower one minus a half,
of which the channels are 191.25 and 63.75.  A truth value is refused as a color wherever it
is evaluated, and without a row of pixels every tree is refused alike. -/
theorem render_whole_tower :
    tower.render (.var .y) = .ok [[⟨191, 191, 191⟩], [⟨64, 64, 64⟩]]
      ∧ (∃ v, (Expr.var .y).evaluate {} = .ok v ∧ (v.type = .scalar ∨ v.type = .vector))
      ∧ (∃ color, (Expr.var .y).shade (Viewpoint.ofPixel
            ⟨Single.ofNat 0 + Single.ofRatio false 1 2, Single.ofNat 0 + Single.ofRatio false 1 2⟩
            ⟨1, 2⟩ 0 ⟨0, 0⟩) = .ok color
          ∧ ∀ i, 0 ≤ color.get i * 255 ∧ color.get i * 255 ≤ 255
              ∧ (color.get i * 255).RoundsTo 64)
      ∧ (∀ p, (Expr.boolean true).shade p = .error (.evaluation .shadeOfBool))
      ∧ ({ tower with canvas := ⟨1, 0⟩ } : View).render (.boolean true)
          = .error (.config .emptyCanvas) := by
  have hrows : tower.render (.var .y) = .ok [[⟨191, 191, 191⟩], [⟨64, 64, 64⟩]] := by
    decide +kernel
  have hfault : tower.render (.boolean true) = .error (.evaluation .shadeOfBool) := by
    decide +kernel
  obtain ⟨hok, _, _, hwhole⟩ := render_whole tower (.var .y)
  refine ⟨hrows, ((hok {}).1 ⟨_, hrows⟩).2.2, ?_, fun p => ?_, ?_⟩
  · obtain ⟨_, _, hpixels⟩ := hwhole _ hrows
    obtain ⟨cells, pixel, color, hcells, hpixel, hcolor, hlanes⟩ :=
      hpixels 0 1 0 (by decide) (by decide)
    obtain rfl : [⟨64, 64, 64⟩] = cells := Option.some.inj hcells
    obtain rfl : ⟨64, 64, 64⟩ = pixel := Option.some.inj hpixel
    refine ⟨color, hcolor, fun i => ?_⟩
    have hlane := hlanes i
    cases i <;> exact hlane
  · exact ((render_whole tower _).2.2.1 (by decide) (by decide) p _).1 hfault
  · exact (render_whole _ _).2.1 (Or.inr rfl)

end View

end ArtGrammar
