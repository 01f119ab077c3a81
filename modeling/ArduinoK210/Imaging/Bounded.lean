import ArduinoK210.Imaging.Planes

/-! For which sizes `Image::resize` stays in its two buffers and fills the new one. -/

namespace ArduinoK210.Imaging

open Gather (Step Safe Covers raster)

namespace Image

/-- A copy has to fit 32 bits. Grayscale must not be scaled down, and RGB888 not up. RGBP888 has either all of its pixels at an
edge or none. -/
def Fitting (src dst : Image) : Prop :=
  if src.width = dst.width ∧ src.height = dst.height then src.count * src.bpp < u32Range
  else
    match src.format with
    | .grayscale => src.width ≤ dst.width ∧ src.height ≤ dst.height
    | .rgb565 => True
    | .rgb888 => (dst.width < src.width ∨ dst.height < src.height) ∧ dst.count * 3 < u32Range
    | .rgbp888 =>
        (src.width = 1 ∨ src.height = 1) ∧ dst.count < 2147483648 ∨
          dst.width < src.width ∧ dst.height < src.height ∧ dst.count * 3 < u32Range ∧ furthest src dst < 2147483648
    | .invalid => False

variable {src dst : Image}

private theorem bounded_iff (steps : List (Step UInt8)) :
    Bounded src dst steps ↔ Safe steps (src.count * src.bpp) (dst.count * src.bpp) ∧ Covers steps (dst.count * src.bpp) :=
  ⟨fun bounded => ⟨bounded.safe, bounded.covers⟩, fun both => ⟨both.1, both.2⟩⟩

section Sizes
variable (own : src.Narrow) (narrow : dst.Narrow) (some : 0 < src.width) (tall : 0 < src.height) (wide : 0 < dst.width)
  (high : 0 < dst.height) (other : ¬ (src.width = dst.width ∧ src.height = dst.height))
include own some tall other

include narrow wide high in
private theorem gray_bounded_iff (one : src.bpp = 1) :
    Bounded src dst (grayResize src dst) ↔ src.width ≤ dst.width ∧ src.height ≤ dst.height := by
  rw [bounded_iff, grayResize, if_neg other, one, Nat.mul_one, Nat.mul_one]
  by_cases down : src.width > dst.width ∨ src.height > dst.height
  · rw [if_pos down]
    have rows : src.height < 2147483648 := own.height.trans (by decide)
    have leaves := grayDown_leaves wide high own.small rows dst.count
    exact ⟨fun both => absurd both.1 leaves, fun up => by omega⟩
  · rw [if_neg down]
    exact ⟨fun _ => by omega, fun _ => grayUp_bounded own.small narrow.small some tall⟩

include narrow in
private theorem rgb565_bounded (two : src.bpp = 2) : Bounded src dst (rgb565Resize src dst) := by
  rw [bounded_iff, rgb565Resize, if_neg other, two]
  split
  next => exact rgb565Down_bounded own.small narrow.small some tall
  next => exact rgb565Up_bounded own.small narrow.small some tall own.width.le own.height.le

private theorem rgb888_bounded_iff (three : src.bpp = 3) :
    Bounded src dst (rgb888Resize src dst) ↔ (dst.width < src.width ∨ dst.height < src.height) ∧ dst.count * 3 < u32Range := by
  rw [bounded_iff, rgb888Resize, if_neg other, three]
  by_cases down : src.width > dst.width ∨ src.height > dst.height
  · rw [if_pos down, rgb888Down_bounded_iff three some tall]
    exact ⟨fun small => ⟨down, small⟩, fun both => both.2⟩
  · rw [if_neg down]
    have wider : src.width ≤ dst.width := by omega
    have higher : src.height ≤ dst.height := by omega
    have leaves := rgb888Up_leaves three some tall wider higher own.small
    exact ⟨fun both => absurd both.2 leaves, fun both => absurd both.1 down⟩

end Sizes

/-- Which sizes are safe, of all from 1 to 65535. -/
theorem resize_bounded_iff (src dst : Image) (own : src.Narrow) (narrow : dst.Narrow) (some : 0 < src.width) (tall : 0 < src.height)
    (wide : 0 < dst.width) (high : 0 < dst.height) (kind : src.bpp = src.format.bpp) (valid : src.format ≠ .invalid) :
    ∃ steps, resizeSteps src dst = Option.some steps ∧ (Bounded src dst steps ↔ Fitting src dst) := by
  by_cases other : src.width = dst.width ∧ src.height = dst.height
  · have counts : dst.count = src.count := by rw [Image.count, Image.count, other.1, other.2]
    refine ⟨src.copyAll, ?_, ?_⟩
    · unfold resizeSteps grayResize rgb565Resize rgb888Resize rgbp888Resize
      cases format : src.format with
      | invalid => exact absurd format valid
      | _ => simp only [if_pos other]
    · rw [copyAll_bounded_iff counts, Fitting, if_pos other]
  · unfold resizeSteps Fitting
    rw [if_neg other]
    cases format : src.format with
    | invalid => exact absurd format valid
    | grayscale =>
      have one : src.bpp = 1 := by rw [kind, format]; rfl
      exact ⟨_, rfl, gray_bounded_iff own narrow some tall wide high other one⟩
    | rgb565 =>
      have two : src.bpp = 2 := by rw [kind, format]; rfl
      exact ⟨_, rfl, fun _ => trivial, fun _ => rgb565_bounded own narrow some tall other two⟩
    | rgb888 =>
      have three : src.bpp = 3 := by rw [kind, format]; rfl
      exact ⟨_, rfl, rgb888_bounded_iff own some tall other three⟩
    | rgbp888 =>
      have three : src.bpp = 3 := by rw [kind, format]; rfl
      refine ⟨_, rfl, ?_⟩
      rw [bounded_iff, rgbp888Resize, if_neg other, three, Nat.mod_eq_of_lt narrow.width, Nat.mod_eq_of_lt narrow.height]
      exact rgbp888_bounded_iff three own narrow some tall wide high

def fourGray : Image := ⟨2, 2, 1, .grayscale, some fun _ => 0⟩

theorem resize_bounded_four : ∃ steps, resizeSteps fourGray ⟨4, 4, 1, .grayscale, none⟩ = some steps ∧
    (Bounded fourGray ⟨4, 4, 1, .grayscale, none⟩ steps ↔ Fitting fourGray ⟨4, 4, 1, .grayscale, none⟩) :=
  resize_bounded_iff fourGray ⟨4, 4, 1, .grayscale, none⟩ ⟨by decide, by decide⟩ ⟨by decide, by decide⟩ (by decide) (by decide)
    (by decide) (by decide) rfl (by decide)

/-- Made one pixel large, it is read behind its end. -/
theorem halving_leaves : ∃ steps, resizeSteps fourGray ⟨1, 1, 1, .grayscale, none⟩ = some steps ∧
    ¬ Bounded fourGray ⟨1, 1, 1, .grayscale, none⟩ steps := by
  refine ⟨_, rfl, fun bounded => ?_⟩
  have leaves : ¬ Safe (raster 1 1 (fourGray.grayDown ⟨1, 1, 1, .grayscale, none⟩)) fourGray.count 1 :=
    grayDown_leaves (by decide) (by decide) (by decide) (by decide) 1
  exact leaves bounded.safe

end Image
end ArduinoK210.Imaging
