import ArduinoK210.Imaging.Reach

/-! `Image::resize` of RGBP888: planes are copied at the edges, and packed pixels are written elsewhere. -/

namespace ArduinoK210.Imaging

open Bilinear (cell)
open Gather (Step Safe Covers raster)

private theorem i32_small {value : Int} (nonneg : 0 ≤ value) (small : value < 2147483648) : i32 value = value := by
  refine Int.bmod_eq_of_le ?_ ?_
  · simp only [u32Range]
    omega
  · simp only [u32Range]
    omega

theorem i32_natCast {value : Nat} (small : value < 2147483648) : i32 value = value :=
  i32_small (Int.natCast_nonneg value) (by omega)

/-- A product below 2^32 that has not become negative has not wrapped. -/
theorem i32_nonneg {value : Int} (nonneg : 0 ≤ value) (below : value < u32Range) (kept : 0 ≤ i32 value) : value < 2147483648 := by
  unfold i32 Int.bmod u32Range at kept
  unfold u32Range at below
  dsimp only at kept
  split at kept <;> omega

namespace Image

variable {src dst : Image} {y x : Nat}

def Outer (src dst : Image) (y x : Nat) : Prop :=
  src.width % 65536 ≤ cell (src.width % 65536) dst.width x + 1 ∨ src.height % 65536 ≤ cell (src.height % 65536) dst.height y + 1

instance (src dst : Image) (y x : Nat) : Decidable (Outer src dst y x) := inferInstanceAs (Decidable (_ ∨ _))

private theorem cell_narrow {source target i : Nat} (narrow : source < 65536) (inside : i < target) : cell source target i + 1 < 65536 := by
  rcases Nat.eq_zero_or_pos source with rfl | some
  · simp [cell]
  · have below := Bilinear.cell_lt some inside
    omega

structure Narrow (dst : Image) : Prop where
  width : dst.width < 65536
  height : dst.height < 65536

theorem Narrow.small (narrow : dst.Narrow) : dst.count < u32Range := by
  have width := narrow.width
  have height := narrow.height
  have area : dst.count ≤ 65535 * 65535 := Nat.mul_le_mul (by omega) (by omega)
  exact area.trans_lt (by decide)

theorem rgbp888Scale_eq (src : Image) (narrow : dst.Narrow) (row : y < dst.height) (column : x < dst.width) :
    src.rgbp888Scale dst y x =
      if Outer src dst y x then
        rgbp888Edge (src.width % 65536) (src.height % 65536) dst.width dst.height y x
          (cell (src.width % 65536) dst.width x) (cell (src.height % 65536) dst.height y)
      else
        rgbp888Inner src dst (src.width % 65536) (src.height % 65536) dst.width dst.height y x
          (cell (src.width % 65536) dst.width x) (cell (src.height % 65536) dst.height y) := by
  have across := cell_narrow (Nat.mod_lt src.width (by decide)) column
  have down := cell_narrow (Nat.mod_lt src.height (by decide)) row
  simp only [rgbp888Scale, Nat.mod_eq_of_lt narrow.width, Nat.mod_eq_of_lt narrow.height,
    toUnsigned_centre 16 (Nat.zero_lt_of_lt row), toUnsigned_centre 16 (Nat.zero_lt_of_lt column)]
  rw [if_pos (by omega), if_pos (by omega)]
  dsimp only
  rw [Nat.mod_eq_of_lt across, Nat.mod_eq_of_lt down]
  rfl

theorem rgbp888Scale_length (src dst : Image) (y x : Nat) : (src.rgbp888Scale dst y x).length ≤ 3 := by
  unfold rgbp888Scale
  dsimp only
  split
  next =>
    split
    next => exact Nat.le_refl 3
    next => exact Nat.le_refl 3
  next => exact Nat.le_add_left 1 2

private theorem edge_dst {wSrc hSrc wDst hDst y x x1 y1 : Nat} {step : Step UInt8} (inside : step ∈ rgbp888Edge wSrc hSrc wDst hDst y x x1 y1) :
    ∃ k : Nat, k < 3 ∧ step = Step.move (i32 (wDst * hDst) * k + i32 (x + y * wDst)) (i32 (wSrc * hSrc) * k + i32 (x1 + y1 * wSrc)) := by
  simp only [rgbp888Edge, List.map_cons, List.map_nil, List.mem_cons, List.not_mem_nil, or_false] at inside
  rcases inside with rfl | rfl | rfl
  · exact ⟨0, by decide, rfl⟩
  · exact ⟨1, by decide, rfl⟩
  · exact ⟨2, by decide, rfl⟩

private theorem edge_mem (wSrc hSrc wDst hDst y x x1 y1 : Nat) {k : Nat} (byte : k < 3) :
    Step.move (i32 (wDst * hDst) * k + i32 (x + y * wDst)) (i32 (wSrc * hSrc) * k + i32 (x1 + y1 * wSrc)) ∈
      rgbp888Edge wSrc hSrc wDst hDst y x x1 y1 := by
  match k, byte with
  | 0, _ => exact List.mem_cons_self
  | 1, _ => exact List.mem_cons_of_mem _ List.mem_cons_self
  | 2, _ => exact List.mem_cons_of_mem _ (List.mem_cons_of_mem _ List.mem_cons_self)

private theorem outer_writes (narrow : dst.Narrow) (row : y < dst.height) (column : x < dst.width) (outer : Outer src dst y x) {k : Nat}
    (byte : k < 3) : ∃ step ∈ src.rgbp888Scale dst y x,
      step.dst = i32 (dst.width * dst.height) * k + i32 (y * dst.width + x : Nat) := by
  rw [rgbp888Scale_eq src narrow row column, if_pos outer]
  have index : (x : Int) + y * dst.width = (y * dst.width + x : Nat) := by
    push_cast
    exact Int.add_comm _ _
  rw [← index]
  exact ⟨_, edge_mem _ _ _ _ _ _ _ _ byte, rfl⟩

private theorem inner_dst (three : src.bpp = 3) {wSrc hSrc wDst hDst x1 y1 : Nat} {step : Step UInt8}
    (inside : step ∈ rgbp888Inner src dst wSrc hSrc wDst hDst y x x1 y1) :
    ∃ k < 3, step.dst = u32 ((x + y * dst.width) * 3 + k) := by
  simp only [rgbp888Inner, three, List.mem_cons, List.not_mem_nil, or_false] at inside
  rcases inside with rfl | rfl | rfl
  · exact ⟨0, by decide, rfl⟩
  · exact ⟨1, by decide, rfl⟩
  · exact ⟨2, by decide, rfl⟩

private theorem inner_writes (three : src.bpp = 3) (narrow : dst.Narrow) (row : y < dst.height) (column : x < dst.width)
    (inner : ¬ Outer src dst y x) {k : Nat} (byte : k < 3) :
    ∃ step ∈ src.rgbp888Scale dst y x, step.dst = u32 ((y * dst.width + x) * 3 + k) := by
  rw [rgbp888Scale_eq src narrow row column, if_neg inner, Nat.add_comm (y * dst.width)]
  simp only [rgbp888Inner, three]
  match k, byte with
  | 0, _ => exact ⟨_, List.mem_cons_self, rfl⟩
  | 1, _ => exact ⟨_, List.mem_cons_of_mem _ List.mem_cons_self, rfl⟩
  | 2, _ => exact ⟨_, List.mem_cons_of_mem _ (List.mem_cons_of_mem _ List.mem_cons_self), rfl⟩

/-- The corner of the source at which a pixel lies. -/
theorem corner_lt (some : 0 < src.width) (tall : 0 < src.height) (row : y < dst.height) (column : x < dst.width) :
    cell (src.width % 65536) dst.width x + cell (src.height % 65536) dst.height y * (src.width % 65536) < src.count := by
  have across := Nat.mod_le src.width 65536
  have down := Nat.mod_le src.height 65536
  have left : cell (src.width % 65536) dst.width x < src.width := by
    rcases Nat.eq_zero_or_pos (src.width % 65536) with none | positive
    · simpa [none, cell] using some
    · exact (Bilinear.cell_lt positive column).trans_le across
  have above : cell (src.height % 65536) dst.height y < src.height := by
    rcases Nat.eq_zero_or_pos (src.height % 65536) with none | positive
    · simpa [none, cell] using tall
    · exact (Bilinear.cell_lt positive row).trans_le down
  have rows := Nat.mul_le_mul_left (cell (src.height % 65536) dst.height y) across
  have index := index_lt above left
  omega

theorem plane_lt {plane count i k : Nat} (byte : k < 3) (area : plane ≤ count) (inside : i < count) : plane * k + i < count * 3 := by
  have planes : plane * k ≤ count * 2 := Nat.mul_le_mul area (by omega)
  omega

theorem grid_le (src : Image) : src.width % 65536 * (src.height % 65536) ≤ src.count := Nat.mul_le_mul (Nat.mod_le _ _) (Nat.mod_le _ _)

/-- The pixels of one plane as the sizes kept in 16 bits have it, and the place of a pixel in it. -/
theorem outer_moves (narrow : dst.Narrow) (some : 0 < src.width) (tall : 0 < src.height) (fits : src.count < 2147483648)
    (small : dst.count < 2147483648) (row : y < dst.height) (column : x < dst.width) (outer : Outer src dst y x) {step : Step UInt8}
    (inside : step ∈ src.rgbp888Scale dst y x) :
    ∃ k < 3, step = Step.move (dst.count * k + (y * dst.width + x) : Nat) (src.width % 65536 * (src.height % 65536) * k +
      (cell (src.width % 65536) dst.width x + cell (src.height % 65536) dst.height y * (src.width % 65536)) : Nat) := by
  rw [rgbp888Scale_eq src narrow row column, if_pos outer] at inside
  obtain ⟨k, byte, rfl⟩ := edge_dst inside
  have corner := corner_lt some tall row column
  have index := index_lt row column
  have area := grid_le src
  have planes : i32 ((src.width % 65536 : Nat) * (src.height % 65536 : Nat)) = (src.width % 65536 * (src.height % 65536) : Nat) := by
    rw [← Nat.cast_mul]
    exact i32_natCast (area.trans_lt fits)
  have targets : i32 ((dst.width : Nat) * (dst.height : Nat)) = dst.count := by
    rw [← Nat.cast_mul]
    exact i32_natCast small
  have place : i32 (cell (src.width % 65536) dst.width x + cell (src.height % 65536) dst.height y * (src.width % 65536 : Nat)) =
      (cell (src.width % 65536) dst.width x + cell (src.height % 65536) dst.height y * (src.width % 65536) : Nat) := by
    rw [← Nat.cast_mul, ← Nat.cast_add]
    exact i32_natCast (corner.trans fits)
  have target : i32 ((x : Nat) + (y : Nat) * (dst.width : Nat)) = (y * dst.width + x : Nat) := by
    rw [← Nat.cast_mul, ← Nat.cast_add, Nat.add_comm]
    exact i32_natCast (index.trans small)
  refine ⟨k, byte, ?_⟩
  rw [planes, targets, place, target, ← Nat.cast_mul, ← Nat.cast_mul, ← Nat.cast_add, ← Nat.cast_add]

theorem outer_within (narrow : dst.Narrow) (some : 0 < src.width) (tall : 0 < src.height) (fits : src.count < 2147483648)
    (small : dst.count < 2147483648) (row : y < dst.height) (column : x < dst.width) (outer : Outer src dst y x) :
    ∀ step ∈ src.rgbp888Scale dst y x, step.Within (src.count * 3) (dst.count * 3) := by
  intro step inside
  obtain ⟨k, byte, rfl⟩ := outer_moves narrow some tall fits small row column outer inside
  have read := plane_lt byte (grid_le src) (corner_lt some tall row column)
  have written := plane_lt byte (Nat.le_refl dst.count) (index_lt row column)
  rw [Step.move_within]
  exact ⟨⟨Int.natCast_nonneg _, Int.ofNat_lt.mpr read⟩, Int.natCast_nonneg _, Int.ofNat_lt.mpr written⟩

/-- A pixel of the source at a place that 32 bits may have cut. -/
theorem pixel_within {X Y : Nat} (column : X < src.width) (row : Y < src.height) :
    (0 : Int) ≤ u32 (X + Y * src.width) ∧ (u32 (X + Y * src.width) : Int) < (src.count * 3 : Nat) := by
  have index := index_lt row column
  have most := u32_le (X + Y * src.width)
  omega

/-- A pixel of the source at a place of which the width was cut to 16 bits. -/
theorem place_within {X Y : Nat} (column : X < src.width) (row : Y < src.height) (small : X + Y * (src.width % 65536) < 2147483648) :
    0 ≤ i32 (X + (Y : Nat) * (src.width % 65536 : Nat)) ∧ i32 (X + (Y : Nat) * (src.width % 65536 : Nat)) < (src.count * 3 : Nat) := by
  have index := index_lt row column
  have shorter := Nat.mul_le_mul_left Y (Nat.mod_le src.width 65536)
  rw [← Nat.cast_mul, ← Nat.cast_add, i32_natCast small]
  exact ⟨Int.natCast_nonneg _, Int.ofNat_lt.mpr (by omega)⟩

theorem written_within {k : Nat} (row : y < dst.height) (column : x < dst.width) (byte : k < 3) :
    (0 : Int) ≤ u32 ((x + y * dst.width) * 3 + k) ∧ (u32 ((x + y * dst.width) * 3 + k) : Int) < (dst.count * 3 : Nat) := by
  have inside := byte_lt row column byte
  rw [Nat.add_comm (y * dst.width)] at inside
  exact ⟨Int.natCast_nonneg _, Int.ofNat_lt.mpr inside⟩

theorem inner_within (three : src.bpp = 3) (narrow : dst.Narrow) (row : y < dst.height) (column : x < dst.width)
    (inner : ¬ Outer src dst y x)
    (reach : cell (src.width % 65536) dst.width x + 1 + cell (src.height % 65536) dst.height y * (src.width % 65536) < 2147483648) :
    ∀ step ∈ src.rgbp888Scale dst y x, step.Within (src.count * 3) (dst.count * 3) := by
  rw [rgbp888Scale_eq src narrow row column, if_neg inner]
  unfold Outer at inner
  have across := Nat.mod_le src.width 65536
  have down := Nat.mod_le src.height 65536
  have least := Nat.mod_lt src.width (by decide : 0 < 65536)
  have lowest := Nat.mod_lt src.height (by decide : 0 < 65536)
  rw [not_or, not_le, not_le] at inner
  have right : (cell (src.width % 65536) dst.width x + 1) % 65536 = cell (src.width % 65536) dst.width x + 1 := Nat.mod_eq_of_lt (by omega)
  have below : (cell (src.height % 65536) dst.height y + 1) % 65536 = cell (src.height % 65536) dst.height y + 1 :=
    Nat.mod_eq_of_lt (by omega)
  generalize cell (src.width % 65536) dst.width x = x1 at inner reach right
  generalize cell (src.height % 65536) dst.height y = y1 at inner reach below
  have second := inner.1.trans_le across
  have first := Nat.lt_of_succ_lt second
  have lower := inner.2.trans_le down
  have upper := Nat.lt_of_succ_lt lower
  have near : x1 + 1 + y1 * (src.width % 65536) < 2147483648 := reach
  have left : x1 + y1 * (src.width % 65536) < 2147483648 := (Nat.add_le_add_right (Nat.le_succ x1) _).trans_lt reach
  intro step inside
  simp only [rgbp888Inner, three, right, below, List.mem_cons, List.not_mem_nil, or_false] at inside
  rcases inside with rfl | rfl | rfl
  · refine ⟨?_, written_within row column (by decide)⟩
    simp only [List.forall_mem_cons, List.not_mem_nil, false_implies, implies_true, and_true]
    exact ⟨place_within first upper left, place_within second upper near, pixel_within first lower, pixel_within second upper⟩
  · refine ⟨?_, written_within row column (by decide)⟩
    simp only [List.forall_mem_cons, List.not_mem_nil, false_implies, implies_true, and_true]
    exact ⟨pixel_within first upper, pixel_within second upper, pixel_within first lower, pixel_within second upper⟩
  · refine ⟨?_, written_within row column (by decide)⟩
    simp only [List.forall_mem_cons, List.not_mem_nil, false_implies, implies_true, and_true]
    exact ⟨pixel_within first upper, pixel_within second upper, pixel_within first lower, pixel_within second upper⟩

/-- With at least two rows and columns the first pixel is not at an edge. -/
theorem first_inner (wide : 2 ≤ src.width % 65536) (tall : 2 ≤ src.height % 65536) (some : 0 < dst.width) (high : 0 < dst.height) :
    ¬ Outer src dst 0 0 := by
  have left := Bilinear.cell_zero_lt wide some
  have top := Bilinear.cell_zero_lt tall high
  unfold Outer
  omega

/-- When only some pixels are at an edge, the new image has gaps. The planar byte of the first pixel at an edge is also written by
a packed pixel before it, and there are no more assignments than bytes. -/
theorem mixed_leaves (three : src.bpp = 3) (wide : 2 ≤ src.width % 65536) (tall : 2 ≤ src.height % 65536)
    (narrow : dst.Narrow) (safe : ∀ step ∈ raster dst.height dst.width (src.rgbp888Scale dst), 0 ≤ step.dst)
    (some : ∃ y x, y < dst.height ∧ x < dst.width ∧ Outer src dst y x) :
    ¬ Covers (raster dst.height dst.width (src.rgbp888Scale dst)) (dst.count * 3) := by
  intro covers
  have few : (raster dst.height dst.width (src.rgbp888Scale dst)).length ≤ dst.height * (dst.width * 3) :=
    Gather.raster_length (rgbp888Scale_length src dst)
  rw [← Nat.mul_assoc, Nat.mul_comm dst.height] at few
  have apart := covers.nodup few
  have found : ∃ j, j < dst.count ∧ Outer src dst (j / dst.width) (j % dst.width) := by
    obtain ⟨y, x, row, column, outer⟩ := some
    refine ⟨y * dst.width + x, index_lt row column, ?_⟩
    rwa [Raster.row_div y column, Raster.row_mod y column]
  obtain ⟨inside, outer⟩ := Nat.find_spec found
  have least := fun {j} (before : j < Nat.find found) => Nat.find_min found before
  generalize Nat.find found = first at inside outer least
  have positive : 0 < dst.width := Nat.pos_of_ne_zero fun none => by simp [Image.count, none] at inside
  have places : ∀ j, j < dst.count → j / dst.width < dst.height ∧ j % dst.width < dst.width :=
    fun j below => ⟨Nat.div_lt_of_lt_mul below, Nat.mod_lt _ positive⟩
  have later : 0 < first := by
    refine Nat.pos_of_ne_zero fun zero => ?_
    rw [zero, Nat.zero_div, Nat.zero_mod] at outer
    exact first_inner wide tall positive (Nat.zero_lt_of_lt (places first inside).1) outer
  have third : first / 3 < first := Nat.div_lt_self later (by decide)
  obtain ⟨row, column⟩ := places first inside
  obtain ⟨above, left⟩ := places (first / 3) (third.trans inside)
  obtain ⟨planar, member, here⟩ := outer_writes narrow row column outer (by decide : 0 < 3)
  obtain ⟨packed, other, there⟩ := inner_writes three narrow above left (fun outer => least third ⟨third.trans inside, outer⟩)
    (Nat.mod_lt first (by decide : 0 < 3))
  refine Gather.raster_apart apart row column above left ?_ member other ?_
  · by_contra same
    simp only [not_or, not_not] at same
    have one := Nat.div_add_mod' first dst.width
    rw [same.1, same.2, Nat.div_add_mod'] at one
    omega
  · rw [Nat.div_add_mod'] at here there
    rw [Nat.div_add_mod', u32_fits (inside.trans narrow.small)] at there
    rw [Nat.cast_zero, Int.mul_zero, Int.zero_add] at here
    have kept := safe planar (Gather.mem_raster.mpr ⟨_, _, row, column, member⟩)
    have below : (first : Int) < u32Range := Int.ofNat_lt.mpr (inside.trans narrow.small)
    rw [here] at kept
    rw [here, there, i32_small (Int.natCast_nonneg first) (i32_nonneg (Int.natCast_nonneg first) below kept)]

/-- Pixels that are all copied fill the planes. -/
theorem planar_covers (narrow : dst.Narrow) (small : dst.count < 2147483648)
    (outer : ∀ y x, y < dst.height → x < dst.width → Outer src dst y x) :
    Covers (raster dst.height dst.width (src.rgbp888Scale dst)) (dst.count * 3) := by
  refine Gather.covers_raster .planar 3 fun y x k row column byte => ?_
  obtain ⟨step, member, place⟩ := outer_writes narrow row column (outer y x row column) byte
  have index := index_lt row column
  refine ⟨step, member, ?_⟩
  rw [place, ← Nat.cast_mul, i32_natCast (index.trans small), Raster.Layout.address, Nat.mul_comm k]
  exact congrArg (fun planes : Int => planes * k + (y * dst.width + x : Nat)) (i32_natCast small)

/-- Pixels that are all interpolated fill the buffer, packed. -/
theorem packed_covers (three : src.bpp = 3) (narrow : dst.Narrow) (small : dst.count * 3 < u32Range)
    (inner : ∀ y x, y < dst.height → x < dst.width → ¬ Outer src dst y x) :
    Covers (raster dst.height dst.width (src.rgbp888Scale dst)) (dst.count * 3) := by
  refine Gather.covers_raster .packed 3 fun y x k row column byte => ?_
  obtain ⟨step, member, place⟩ := inner_writes three narrow row column (inner y x row column) byte
  have index := index_lt row column
  refine ⟨step, member, ?_⟩
  rw [place, u32_fits (by omega)]
  rfl

/-- A buffer larger than 2^32 is not filled by offsets of 32 bits. -/
theorem packed_small (three : src.bpp = 3) (narrow : dst.Narrow)
    (inner : ∀ y x, y < dst.height → x < dst.width → ¬ Outer src dst y x)
    (covers : Covers (raster dst.height dst.width (src.rgbp888Scale dst)) (dst.count * 3)) : dst.count * 3 < u32Range := by
  by_contra wraps
  have odd : dst.count * 3 ≠ u32Range := by
    unfold u32Range
    omega
  obtain ⟨step, inside, place⟩ := covers u32Range (by omega)
  obtain ⟨y, x, row, column, member⟩ := Gather.mem_raster.mp inside
  rw [rgbp888Scale_eq src narrow row column, if_neg (inner y x row column)] at member
  obtain ⟨k, _, here⟩ := inner_dst three member
  have below := u32_lt_range ((x + y * dst.width) * 3 + k)
  omega

/-- The highest offset that is formed in an `int` when no pixel is at an edge. -/
def furthest (src dst : Image) : Nat :=
  cell src.width dst.width (dst.width - 1) + 1 + cell src.height dst.height (dst.height - 1) * src.width

private theorem le_furthest (own : src.Narrow) (row : y < dst.height) (column : x < dst.width) :
    cell (src.width % 65536) dst.width x + 1 + cell (src.height % 65536) dst.height y * (src.width % 65536) ≤ furthest src dst := by
  rw [Nat.mod_eq_of_lt own.width, Nat.mod_eq_of_lt own.height]
  have across : cell src.width dst.width x ≤ cell src.width dst.width (dst.width - 1) := Bilinear.cell_mono (by omega)
  have down : cell src.height dst.height y ≤ cell src.height dst.height (dst.height - 1) := Bilinear.cell_mono (by omega)
  exact Nat.add_le_add (Nat.succ_le_succ across) (Nat.mul_le_mul_right _ down)

private theorem furthest_small (own : src.Narrow) (narrow : dst.Narrow) (wide : 0 < dst.width) (high : 0 < dst.height)
    (inner : ∀ y x, y < dst.height → x < dst.width → ¬ Outer src dst y x)
    (safe : Safe (raster dst.height dst.width (src.rgbp888Scale dst)) (src.count * 3) (dst.count * 3)) :
    furthest src dst < 2147483648 := by
  have row : dst.height - 1 < dst.height := Nat.sub_lt high Nat.one_pos
  have column : dst.width - 1 < dst.width := Nat.sub_lt wide Nat.one_pos
  have last := inner _ _ row column
  have pixel := rgbp888Scale_eq src narrow row column
  rw [if_neg last, Nat.mod_eq_of_lt own.width, Nat.mod_eq_of_lt own.height] at pixel
  rw [Outer, Nat.mod_eq_of_lt own.width, Nat.mod_eq_of_lt own.height, not_or, not_le, not_le] at last
  have right : (cell src.width dst.width (dst.width - 1) + 1) % 65536 = cell src.width dst.width (dst.width - 1) + 1 :=
    Nat.mod_eq_of_lt (last.1.trans own.width)
  have reads : ∃ step ∈ src.rgbp888Scale dst (dst.height - 1) (dst.width - 1), i32 (furthest src dst) ∈ step.reads := by
    rw [pixel]
    refine ⟨_, List.mem_cons_self, ?_⟩
    simp only [right, furthest, Nat.cast_add, Nat.cast_mul]
    exact List.mem_cons_of_mem _ List.mem_cons_self
  obtain ⟨step, member, place⟩ := reads
  have kept := ((safe step (Gather.mem_raster.mpr ⟨_, _, row, column, member⟩)).1 _ place).1
  have below : furthest src dst < u32Range := by
    have index := index_lt (Nat.lt_of_succ_lt last.2) last.1
    have count := own.small
    rw [Nat.add_comm] at index
    exact index.trans count
  exact Int.ofNat_lt.mp (i32_nonneg (Int.natCast_nonneg _) (Int.ofNat_lt.mpr below) kept)

theorem outer_of_line (line : src.width % 65536 ≤ 1 ∨ src.height % 65536 ≤ 1) (y x : Nat) : Outer src dst y x := by
  unfold Outer
  omega

theorem not_outer_of_shrunk (narrower : dst.width < src.width % 65536) (lower : dst.height < src.height % 65536)
    (row : y < dst.height) (column : x < dst.width) : ¬ Outer src dst y x := by
  have across := Bilinear.cell_lt_last narrower column
  have down := Bilinear.cell_lt_last lower row
  unfold Outer
  omega

/-- A source that is not shrunk on both axes has a pixel at an edge, the last one. -/
theorem outer_of_grown (some : 0 < src.width % 65536) (tall : 0 < src.height % 65536) (wide : 0 < dst.width) (high : 0 < dst.height)
    (grown : ¬ (dst.width < src.width % 65536 ∧ dst.height < src.height % 65536)) :
    ∃ y x, y < dst.height ∧ x < dst.width ∧ Outer src dst y x := by
  refine ⟨dst.height - 1, dst.width - 1, Nat.sub_lt high Nat.one_pos, Nat.sub_lt wide Nat.one_pos, ?_⟩
  unfold Outer
  rw [Bilinear.cell_last_iff some wide, Bilinear.cell_last_iff tall high]
  omega

theorem rgbp888_bounded_iff (three : src.bpp = 3) (own : src.Narrow) (narrow : dst.Narrow) (some : 0 < src.width)
    (tall : 0 < src.height) (wide : 0 < dst.width) (high : 0 < dst.height) :
    (Safe (raster dst.height dst.width (src.rgbp888Scale dst)) (src.count * 3) (dst.count * 3) ∧
      Covers (raster dst.height dst.width (src.rgbp888Scale dst)) (dst.count * 3)) ↔
      (src.width = 1 ∨ src.height = 1) ∧ dst.count < 2147483648 ∨
        dst.width < src.width ∧ dst.height < src.height ∧ dst.count * 3 < u32Range ∧ furthest src dst < 2147483648 := by
  have width : src.width % 65536 = src.width := Nat.mod_eq_of_lt own.width
  have height : src.height % 65536 = src.height := Nat.mod_eq_of_lt own.height
  by_cases line : src.width = 1 ∨ src.height = 1
  · have outer : ∀ y x, Outer src dst y x := outer_of_line (by omega)
    constructor
    · rintro ⟨safe, _⟩
      obtain ⟨step, member, place⟩ := outer_writes narrow high wide (outer 0 0) (by decide : 1 < 3)
      have kept := (safe step (Gather.mem_raster.mpr ⟨0, 0, high, wide, member⟩)).2.1
      have zero : i32 (0 * dst.width + 0 : Nat) = 0 := by
        rw [Nat.zero_mul]
        rfl
      rw [place, zero, ← Nat.cast_mul, Nat.cast_one, Int.mul_one, Int.add_zero] at kept
      have below := i32_nonneg (Int.natCast_nonneg _) (Int.ofNat_lt.mpr narrow.small) kept
      exact Or.inl ⟨line, Int.ofNat_lt.mp below⟩
    · rintro (⟨_, small⟩ | ⟨narrower, lower, _⟩)
      · have fits : src.count < 2147483648 := by
          have area : src.count ≤ 65535 := by
            rcases line with one | one
            · rw [Image.count, one, Nat.one_mul]
              exact Nat.le_of_lt_succ own.height
            · rw [Image.count, one, Nat.mul_one]
              exact Nat.le_of_lt_succ own.width
          exact area.trans_lt (by decide)
        refine ⟨Gather.forall_raster.mpr fun y x row column => ?_, planar_covers narrow small fun y x _ _ => outer y x⟩
        exact outer_within narrow some tall fits small row column (outer y x)
      · omega
  · have two : 2 ≤ src.width % 65536 := by omega
    have two' : 2 ≤ src.height % 65536 := by omega
    constructor
    · rintro ⟨safe, covers⟩
      have shrunk : dst.width < src.width % 65536 ∧ dst.height < src.height % 65536 := by
        by_contra grown
        have found := outer_of_grown (by omega) (by omega) wide high grown
        exact mixed_leaves three two two' narrow (fun step inside => (safe step inside).2.1) found covers
      have inner := fun y x (row : y < dst.height) (column : x < dst.width) => not_outer_of_shrunk shrunk.1 shrunk.2 row column
      exact Or.inr ⟨width ▸ shrunk.1, height ▸ shrunk.2, packed_small three narrow inner covers,
        furthest_small own narrow wide high inner safe⟩
    · rintro (⟨one, _⟩ | ⟨narrower, lower, small, reach⟩)
      · exact absurd one line
      · have inner := fun y x (row : y < dst.height) (column : x < dst.width) =>
          not_outer_of_shrunk (width.symm ▸ narrower) (height.symm ▸ lower) row column
        refine ⟨Gather.forall_raster.mpr fun y x row column => ?_, packed_covers three narrow small inner⟩
        exact inner_within three narrow row column (inner y x row column) ((le_furthest own row column).trans_lt reach)

end Image
end ArduinoK210.Imaging
