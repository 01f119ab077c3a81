import ArduinoK210.Imaging.Resize

/-! Where the interpolation of a grayscale image stays between the pixels that it reads. -/

namespace ArduinoK210.Imaging

open Bilinear (fraction Mean blend corners)
open Gather (Step)

namespace Image

def grayValue (source : Nat → UInt8) (taps : List (ℚ × Nat)) : ℚ := weighed taps (taps.map fun tap => source tap.2)

/-- The factors are not negative and their sum is one, and what they make of the pixels is not outside of them. -/
structure Interpolates (source : Nat → UInt8) (taps : List (ℚ × Nat)) : Prop where
  nonneg : ∀ tap ∈ taps, 0 ≤ tap.1
  total : (taps.map Prod.fst).sum = 1
  between : ∀ low high : UInt8, (∀ tap ∈ taps, low ≤ source tap.2 ∧ source tap.2 ≤ high) →
    byteValue low ≤ grayValue source taps ∧ grayValue source taps ≤ byteValue high
  fits : 0 ≤ grayValue source taps ∧ grayValue source taps ≤ 255

variable {src dst : Image} {source : Nat → UInt8} {width height y x : Nat}

/-- What the up-scaling branch stores. -/
theorem grayUp_result (step : Step UInt8) (inside : step ∈ src.grayUp dst y x) :
    step.result source = toByte (grayValue source (src.grayUpTaps dst y x)) := by
  rw [List.mem_singleton.mp inside]
  rfl

/-- What is interpolated from a grayscale image for any other format. -/
theorem interpolated_gray (gray : src.format = .grayscale) (format : Format) :
    src.interpolated format (src.newFormatTaps width height y x) ((src.newFormatTaps width height y x).map fun tap => source tap.2) =
      (toByte (grayValue source (src.newFormatTaps width height y x))).map fun byte => [byte] := by
  simp only [interpolated, gray, true_or, if_true, List.range_one, List.mapM_cons, List.mapM_nil, grayValue]
  have around : ((List.range 4).map fun j => channels .grayscale format
      ((((src.newFormatTaps width height y x).map fun tap => source tap.2).drop (j * Format.grayscale.bpp)).take
        Format.grayscale.bpp)).map (fun values => values.getD 0 0) =
      (src.newFormatTaps width height y x).map fun tap => source tap.2 := by
    cases format <;> rfl
  rw [around]
  cases toByte (weighed (src.newFormatTaps width height y x) _) <;> rfl

/-- Both functions interpolate alike. -/
theorem grayUpTaps_eq : src.grayUpTaps dst y x = src.newFormatTaps dst.width dst.height y x := by
  have clamp : ∀ place size : Int, (if place < size - 1 then place + 1 else place) = if place + 1 ≥ size then place else place + 1 := by
    intro place size
    split <;> split <;> omega
  have opposite : ∀ (cell : Int) (place : ℚ), ((cell + 1 : Int) : ℚ) - place = 1 - (place - cell) := by
    intro cell place
    push_cast
    ring
  unfold grayUpTaps newFormatTaps
  simp only [clamp, opposite]

theorem grayValue_eq (source : Nat → UInt8) (taps : List (ℚ × Nat)) :
    grayValue source taps = blend (taps.map fun tap => (tap.1, byteValue (source tap.2))) := by
  rw [grayValue, weighed, List.map_map, List.zip_map']
  rfl

theorem newFormatTaps_corners (src : Image) (y x : Nat) (wide : 0 < width) (high : 0 < height) (sample : Nat → ℚ) :
    ∃ first second third fourth, (src.newFormatTaps width height y x).map (fun tap => (tap.1, sample tap.2)) =
      corners (fraction src.width width x) (fraction src.height height y) (sample first) (sample second) (sample third) (sample fourth) := by
  simp only [newFormatTaps, Bilinear.truncate_centre wide, Bilinear.truncate_centre high]
  exact ⟨_, _, _, _, rfl⟩

private theorem interpolates_of_mean {taps : List (ℚ × Nat)} (mean : Mean (taps.map fun tap => (tap.1, byteValue (source tap.2)))) :
    Interpolates source taps := by
  have between : ∀ low high : ℚ, (∀ tap ∈ taps, low ≤ byteValue (source tap.2) ∧ byteValue (source tap.2) ≤ high) →
      low ≤ grayValue source taps ∧ grayValue source taps ≤ high := by
    intro low high samples
    rw [grayValue_eq]
    exact mean.within (List.forall_mem_map.mpr samples)
  refine ⟨fun tap inside => ?_, ?_, fun low high samples => ?_, ?_⟩
  · exact mean.nonneg _ (List.mem_map_of_mem inside)
  · have total := mean.total
    rwa [List.map_map] at total
  · refine between _ _ fun tap inside => ?_
    exact ⟨Nat.cast_le.mpr (samples tap inside).1, Nat.cast_le.mpr (samples tap inside).2⟩
  · exact between 0 255 fun tap _ => byteValue_range _

private theorem Interpolates.mean {taps : List (ℚ × Nat)} (interpolates : Interpolates source taps) :
    Mean (taps.map fun tap => (tap.1, byteValue (source tap.2))) := by
  refine ⟨List.forall_mem_map.mpr interpolates.nonneg, ?_⟩
  rw [List.map_map]
  exact interpolates.total

private theorem newFormatTaps_interpolate_iff (wide : 0 < width) (high : 0 < height) :
    Interpolates source (src.newFormatTaps width height y x) ↔
      width ≤ (2 * x + 1) * src.width ∧ height ≤ (2 * y + 1) * src.height := by
  obtain ⟨first, second, third, fourth, taps⟩ :=
    newFormatTaps_corners src y x wide high fun i => byteValue (source i)
  rw [← Bilinear.fraction_nonneg_iff wide, ← Bilinear.fraction_nonneg_iff high,
    ← Bilinear.corners_mean_iff (Bilinear.fraction_lt_one wide) (Bilinear.fraction_lt_one high), ← taps]
  exact ⟨Interpolates.mean, interpolates_of_mean⟩

/-- The centre of the new pixel must not lie before that of the first pixel of the source, on either axis: truncation
toward zero leads past it, and then the factors of the nearer pixels are above one. -/
theorem interpolates_iff (src dst : Image) (source : Nat → UInt8) (y x : Nat) (row : y < dst.height) (column : x < dst.width) :
    (Interpolates source (src.newFormatTaps dst.width dst.height y x) ↔
      dst.width ≤ (2 * x + 1) * src.width ∧ dst.height ≤ (2 * y + 1) * src.height) ∧
    (Interpolates source (src.grayUpTaps dst y x) ↔
      dst.width ≤ (2 * x + 1) * src.width ∧ dst.height ≤ (2 * y + 1) * src.height) := by
  have same : Interpolates source (src.newFormatTaps dst.width dst.height y x) ↔
      dst.width ≤ (2 * x + 1) * src.width ∧ dst.height ≤ (2 * y + 1) * src.height :=
    newFormatTaps_interpolate_iff (Nat.zero_lt_of_lt column) (Nat.zero_lt_of_lt row)
  rw [grayUpTaps_eq]
  exact ⟨same, same⟩

def blackAndWhite : Image := ⟨2, 1, 1, .grayscale, some fun i => if i = 0 then 0 else 255⟩

theorem interpolates_iff_middle :
    (Interpolates (fun i => if i = 0 then 0 else 255) (blackAndWhite.newFormatTaps 4 1 0 1) ↔
      4 ≤ (2 * 1 + 1) * 2 ∧ 1 ≤ (2 * 0 + 1) * 1) ∧
    (Interpolates (fun i => if i = 0 then 0 else 255) (blackAndWhite.grayUpTaps ⟨4, 1, 1, .grayscale, none⟩ 0 1) ↔
      4 ≤ (2 * 1 + 1) * 2 ∧ 1 ≤ (2 * 0 + 1) * 1) :=
  interpolates_iff blackAndWhite ⟨4, 1, 1, .grayscale, none⟩ _ 0 1 (by decide) (by decide)

/-- Made twice as wide, it is darker than black at its left end. -/
theorem left_end_overshoots :
    ¬ Interpolates (fun i => if i = 0 then 0 else 255) (blackAndWhite.newFormatTaps 4 1 0 0) ∧
      ¬ Interpolates (fun i => if i = 0 then 0 else 255) (blackAndWhite.grayUpTaps ⟨4, 1, 1, .grayscale, none⟩ 0 0) := by
  have before : ¬ Interpolates (fun i => if i = 0 then 0 else 255) (blackAndWhite.newFormatTaps 4 1 0 0) := by
    rw [newFormatTaps_interpolate_iff (by decide) (by decide)]
    decide
  rw [grayUpTaps_eq]
  exact ⟨before, before⟩

end Image

end ArduinoK210.Imaging
