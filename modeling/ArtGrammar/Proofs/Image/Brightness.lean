/-
  ArtGrammar.Proofs.Image.Brightness
  ────────────────────────────────
  **HOW BRIGHT A NUMBER IS SHOWN.**

  A number is shown as the byte of its channel.  Sum, product, cutting off, scaling and
  rounding to a byte all keep the order, so all that is outside of `[-1, 1]` is shown as the
  nearer end is, infinities included:

      v ≤ -1   black, 0          1 ≤ v   white, 255          not-a-number   black
-/
import ArtGrammar.Proofs.Image.Raster

namespace ArtGrammar

namespace Single

/-- The byte that a number is shown as. -/
def brightness (v : Single) : UInt8 := v.toChannel.channelByte

variable {v : Single}

theorem brightness_of_le (h : v ≤ -1) : v.brightness = 0 := by
  have hend : (-1 : Single).brightness = 0 := by decide +kernel
  have hle : v.brightness ≤ (-1 : Single).brightness := channelByte_mono h
  rw [hend] at hle
  exact UInt8.le_zero_iff.1 hle

theorem brightness_of_ge (h : 1 ≤ v) : v.brightness = 255 := by
  have hend : (1 : Single).brightness = 255 := by decide +kernel
  have hle : (1 : Single).brightness ≤ v.brightness := channelByte_mono h
  rw [hend] at hle
  exact UInt8.le_antisymm (toByte_le _) hle

end Single

/-- Each byte of a pixel shows the number in its lane. -/
theorem Value.exists_brightness_of_color {v : Value} {color : Lanes} (h : v.color = .ok color)
    (i : Lane) : ∃ x, v.lane i = .scalar x ∧ color.toPixel.get i = x.brightness := by
  obtain ⟨x, hlane, hchannel⟩ := Value.exists_lane_of_color h i
  refine ⟨x, hlane, ?_⟩
  rw [Lanes.get_toPixel, hchannel]
  rfl

/-- **BRIGHTNESS GROWS FROM BLACK TO WHITE.**  Whenever a value has a color, each byte of the
pixel is the brightness of the number in its lane.  A greater number is never shown
darker, at whatever magnitudes; all numbers up to minus one are black, as not-a-number is,
and all from one on are white. -/
theorem Single.brightness_grows_from_black_to_white :
    (∀ (v : Value) (color : Lanes), v.color = .ok color →
        ∀ i, ∃ x, v.lane i = .scalar x ∧ color.toPixel.get i = x.brightness)
      ∧ (∀ v w : Single, v ≤ w → v.brightness ≤ w.brightness)
      ∧ (∀ v : Single, v ≤ -1 → v.brightness = 0)
      ∧ nan.brightness = 0
      ∧ ∀ v : Single, 1 ≤ v → v.brightness = 255 :=
  ⟨fun _ _ h i => Value.exists_brightness_of_color h i, fun _ _ h => channelByte_mono h,
    fun _ h => brightness_of_le h, by decide, fun _ h => brightness_of_ge h⟩

/-- The number next below minus one, -/
def Single.underEdge : Single := .finite true ⟨0x3f800001, by decide⟩

/-- and the one next above it. -/
def Single.overEdge : Single := .finite true ⟨0x3f7fffff, by decide⟩

/-- The infinities and a number just below minus one are at the ends; one just above it is
in order with zero, which is shown by the 128 that 127.5 is rounded up to.  In a vector of
an infinity, not-a-number and zero each lane has its own byte. -/
theorem Single.brightness_grows_from_black_to_white_edges :
    underEdge ≤ -1 ∧ underEdge.brightness = 0
      ∧ overEdge ≤ 0 ∧ overEdge.brightness ≤ (0 : Single).brightness
      ∧ (0 : Single).brightness = 128
      ∧ infinite true ≤ -1 ∧ (infinite true).brightness = 0
      ∧ 1 ≤ infinite false ∧ (infinite false).brightness = 255
      ∧ (∃ color, (Value.vector ⟨infinite false, nan, 0⟩).color = .ok color
          ∧ color.toPixel = ⟨255, 0, 128⟩
          ∧ ∃ x, (Value.vector ⟨infinite false, nan, 0⟩).lane .second = .scalar x
              ∧ color.toPixel.get .second = x.brightness) := by
  obtain ⟨hpixel, hmono, hblack, _, hwhite⟩ := brightness_grows_from_black_to_white
  have hunder : underEdge ≤ -1 := by decide
  have hover : overEdge ≤ 0 := by decide
  have hlow : infinite true ≤ -1 := by decide
  have hhigh : 1 ≤ infinite false := by decide
  exact ⟨hunder, hblack _ hunder, hover, hmono _ _ hover, by decide +kernel, hlow, hblack _ hlow,
    hhigh, hwhite _ hhigh, _, rfl, by decide +kernel, hpixel _ _ rfl .second⟩

end ArtGrammar
