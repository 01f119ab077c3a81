import ArduinoK210.Imaging.ConstantWords

/-! Resizing an RGBP888 image of one colour, and for which sizes and colours `Image::resize` keeps the colour of an image that has only
one. -/

namespace ArduinoK210.Imaging

open Bilinear (cell fraction)
open Gather (Step Safe Covers raster Makes)

def Gray (colour : List UInt8) : Prop := ∃ level, colour = [level, level, level]

private theorem getD_level (level : UInt8) {plane : Nat} (inside : plane < 3) : [level, level, level].getD plane 0 = level := by
  interval_cases plane <;> rfl

/-- Taken for a pixel of sixteen bits, a byte has no red. -/
theorem byteR5_zero (byte : UInt8) : byteR5 byte = 0 := by
  have small := byte.toNat_lt
  have none : rgb565ToR5 byte.toUInt16 = 0 := by
    rw [← UInt16.toNat_inj, rgb565ToR5, UInt16.toNat_and, UInt16.toNat_shiftRight, UInt8.toNat_toUInt16]
    have shifted : byte.toNat >>> (UInt16.toNat 11 % 16) = 0 := by
      rw [Nat.shiftRight_eq_div_pow]
      exact Nat.div_eq_of_lt (small.trans (by decide))
    rw [shifted, Nat.zero_and]
    rfl
  rw [byteR5, none]
  rfl

namespace Image

variable {src dst : Image} {source : Nat → UInt8} {colour : List UInt8} {y x : Nat}

private theorem Room.short (room : dst.Room) : dst.count < 2147483648 := by
  have size : dst.count * 3 < 4294967296 := room.size
  omega

/-- A source too large for 16 bits is taken for one of at most half of its pixels. -/
theorem area_half (wide : ¬ src.Narrow) : src.width % 65536 * (src.height % 65536) * 2 ≤ src.count := by
  have across := Nat.mod_le src.width 65536
  have down := Nat.mod_le src.height 65536
  by_cases columns : src.width < 65536
  · have rows : ¬ src.height < 65536 := fun short => wide ⟨columns, short⟩
    rw [Nat.mul_assoc]
    exact Nat.mul_le_mul across (by omega)
  · rw [Nat.mul_right_comm]
    exact Nat.mul_le_mul (by omega) down

/-- The place of a pixel in its plane, unless that plane has none. -/
theorem corner_area (row : y < dst.height) (column : x < dst.width) (cells : src.width % 65536 * (src.height % 65536) ≠ 0) :
    cell (src.width % 65536) dst.width x + cell (src.height % 65536) dst.height y * (src.width % 65536) <
      src.width % 65536 * (src.height % 65536) := by
  have some : 0 < src.width % 65536 := Nat.pos_of_ne_zero fun none => cells (by rw [none, Nat.zero_mul])
  have tall : 0 < src.height % 65536 := Nat.pos_of_ne_zero fun none => cells (by rw [none, Nat.mul_zero])
  rw [Nat.add_comm]
  exact Raster.row_lt (Bilinear.cell_lt tall row) (Bilinear.cell_lt some column)

namespace Coloured

variable (coloured : src.Coloured source colour) (rgb : src.format = .rgbp888)
include coloured rgb

private theorem channel {plane i : Nat} (inside : i < src.count) (byte : plane < 3) : source (src.count * plane + i) = colour.getD plane 0 := by
  have read := coloured.byte_address inside (k := plane) (by rwa [rgb])
  rwa [rgb, Format.layout, Raster.Layout.address, Nat.mul_comm] at read

private theorem plane_value {a : Nat} (inside : a < src.count * 3) : source a = colour.getD (a / src.count) 0 := by
  have three : src.format.bpp = 3 := by
    rw [rgb]
    rfl
  rw [coloured.byte (by rwa [three]), rgb]
  rfl

private theorem three : ∃ red green blue, colour = [red, green, blue] := by
  have sized : colour.length = 3 := by
    rw [coloured.bytes, rgb]
    rfl
  exact List.length_eq_three.mp sized

private theorem bpp_three : src.bpp = 3 := by
  rw [coloured.sized.bpp, rgb]
  rfl

section Line
variable (room : dst.Room) (narrow : dst.Narrow) (outer : ∀ y x, y < dst.height → x < dst.width → Outer src dst y x)
include room narrow outer

omit rgb in
private theorem line_moves (row : y < dst.height) (column : x < dst.width) {step : Step UInt8} (inside : step ∈ src.rgbp888Scale dst y x) :
    ∃ k < 3, step = Step.move (dst.count * k + (y * dst.width + x) : Nat) (src.width % 65536 * (src.height % 65536) * k +
      (cell (src.width % 65536) dst.width x + cell (src.height % 65536) dst.height y * (src.width % 65536)) : Nat) :=
  outer_moves narrow coloured.some coloured.tall coloured.short room.short row column (outer y x row column) inside

omit rgb in
theorem line_reads (makes : Makes source (src.count * 3) (dst.count * 3) (raster dst.height dst.width (src.rgbp888Scale dst))
      (dst.count * 3) (fun a => colour.getD (a / dst.count) 0)) {plane : Nat} (byte : plane < 3) :
    ∃ place, place < src.count ∧ (src.width % 65536 * (src.height % 65536) ≠ 0 → place < src.width % 65536 * (src.height % 65536)) ∧
      source (src.width % 65536 * (src.height % 65536) * plane + place) = colour.getD plane 0 := by
  have bytes := byte_nontrivial
  have cells : 0 < dst.count := Nat.mul_pos room.wide room.high
  have below : dst.count * plane < dst.count * 3 := Nat.mul_lt_mul_of_pos_left byte cells
  obtain ⟨step, member, place, value⟩ := makes.written below
  obtain ⟨y, x, row, column, member⟩ := Gather.mem_raster.mp member
  obtain ⟨k, _, rfl⟩ := coloured.line_moves room narrow outer row column member
  have here : dst.count * k + (y * dst.width + x) = dst.count * plane := Int.ofNat_inj.mp place
  have same : k = plane := by
    have quotient := congrArg (fun number => number / dst.count) here
    simp only [Nat.mul_div_cancel_left _ cells, Nat.mul_add_div cells, Nat.div_eq_of_lt (index_lt row column), Nat.add_zero] at quotient
    exact quotient
  rw [Step.move_result, Int.toNat_natCast, same, Nat.mul_div_cancel_left _ cells] at value
  exact ⟨_, corner_lt coloured.some coloured.tall row column, corner_area row column, Option.some.inj value⟩

/-- Green is read from the plane of red, and blue from one of these two. -/
theorem gray_of_line (wide : ¬ src.Narrow)
    (makes : Makes source (src.count * 3) (dst.count * 3) (raster dst.height dst.width (src.rgbp888Scale dst)) (dst.count * 3)
      (fun a => colour.getD (a / dst.count) 0)) : Gray colour := by
  have half := area_half wide
  obtain ⟨second, inside, area, middle⟩ := coloured.line_reads room narrow outer makes (by decide : 1 < 3)
  obtain ⟨third, inside', area', last⟩ := coloured.line_reads room narrow outer makes (by decide : 2 < 3)
  obtain ⟨red, green, blue, rfl⟩ := coloured.three rgb
  generalize src.width % 65536 * (src.height % 65536) = plane at half area middle area' last
  have first : (plane * 1 + second) / src.count = 0 := Nat.div_eq_of_lt (by omega)
  have near : (plane * 2 + third) / src.count < 2 := by
    rw [Nat.div_lt_iff_lt_mul (by omega)]
    omega
  rw [coloured.plane_value rgb (by omega), first] at middle
  rw [coloured.plane_value rgb (by omega)] at last
  have alike : red = green := middle
  have alike' : green = blue := by
    rcases Nat.le_one_iff_eq_zero_or_eq_one.mp (Nat.le_of_lt_succ near) with zero | one
    · rw [zero] at last
      exact alike.symm.trans last
    · rw [one] at last
      exact last
  exact ⟨red, by rw [← alike', ← alike]⟩

private theorem line_makes_iff :
    Makes source (src.count * 3) (dst.count * 3) (raster dst.height dst.width (src.rgbp888Scale dst)) (dst.count * 3)
      (fun a => colour.getD (a / dst.count) 0) ↔ src.Narrow ∨ Gray colour := by
  constructor
  · intro makes
    by_cases own : src.Narrow
    · exact Or.inl own
    · exact Or.inr (coloured.gray_of_line rgb room narrow outer own makes)
  · intro kept
    refine Gather.makes_of_values ?_ (planar_covers narrow room.short outer) fun step inside a place => ?_
    · exact Gather.forall_raster.mpr fun y x row column =>
        outer_within narrow coloured.some coloured.tall coloured.short room.short row column (outer y x row column)
    · obtain ⟨y, x, row, column, member⟩ := Gather.mem_raster.mp inside
      obtain ⟨k, byte, rfl⟩ := coloured.line_moves room narrow outer row column member
      have index := index_lt row column
      have corner := corner_lt coloured.some coloured.tall row column
      have here := Int.ofNat_inj.mp place
      rw [Step.move_result, Int.toNat_natCast, ← here, Nat.mul_add_div (by omega), Nat.div_eq_of_lt index, Nat.add_zero]
      rcases kept with own | ⟨level, rfl⟩
      · rw [Nat.mod_eq_of_lt own.width, Nat.mod_eq_of_lt own.height] at corner ⊢
        exact congrArg Option.some (coloured.channel rgb corner byte)
      · have read := plane_lt byte (grid_le src) corner
        rw [coloured.plane_value rgb read, getD_level _ byte, getD_level _ (Nat.div_lt_of_lt_mul read)]

end Line

/-- What is stored for a pixel away from the edges: a part of the red, and nothing. -/
theorem inner_results (narrow : dst.Narrow) (small : dst.count * 3 < u32Range) (row : y < dst.height) (column : x < dst.width)
    (inner : ¬ Outer src dst y x) {step : Step UInt8} (inside : step ∈ src.rgbp888Scale dst y x) :
    ∃ k < 3, step.dst = ((y * dst.width + x) * 3 + k : Nat) ∧ step.result source =
      if k = 0 then toByte ((1 - fraction (src.height % 65536) dst.height y) * byteValue (colour.getD 0 0)) else Option.some 0 := by
  have three := coloured.bpp_three rgb
  rw [rgbp888Scale_eq src narrow row column, if_neg inner] at inside
  unfold Outer at inner
  rw [not_or, not_le, not_le] at inner
  have right := Nat.mod_eq_of_lt (inner.1.trans (Nat.mod_lt src.width (by decide)))
  have below := Nat.mod_eq_of_lt (inner.2.trans (Nat.mod_lt src.height (by decide)))
  have index := index_lt row column
  have area := grid_le src
  rw [fraction]
  generalize cell (src.width % 65536) dst.width x = x1 at inner right inside
  generalize cell (src.height % 65536) dst.height y = y1 at inner below inside
  have red : ∀ X : Nat, X ≤ x1 + 1 → source (i32 (X + y1 * (src.width % 65536 : Nat))).toNat = colour.getD 0 0 := by
    intro X most
    have place := Raster.row_lt (Nat.lt_of_succ_lt inner.2) (most.trans_lt inner.1)
    rw [Nat.add_comm] at place
    have pixel := place.trans_le area
    rw [← Nat.cast_mul, ← Nat.cast_add, i32_natCast (pixel.trans coloured.short), Int.toNat_natCast,
      coloured.plane_value rgb (by omega), Nat.div_eq_of_lt pixel]
  have writes : ∀ k, k < 3 → ((u32 ((x + y * dst.width) * 3 + k) : Nat) : Int) = ((y * dst.width + x) * 3 + k : Nat) := by
    intro k byte
    rw [Nat.add_comm x, u32_fits (by omega)]
  simp only [rgbp888Inner, three, right, below, List.mem_cons, List.not_mem_nil, or_false] at inside
  rcases inside with rfl | rfl | rfl
  · refine ⟨0, by decide, writes 0 (by decide), ?_⟩
    simp only [Step.result, List.map_cons, List.map_nil, red x1 (Nat.le_succ x1), red (x1 + 1) (Nat.le_refl _), byteR5_zero, mix_unit,
      if_true]
    congr 1
    unfold mix
    push_cast
    ring
  · refine ⟨1, by decide, writes 1 (by decide), ?_⟩
    simp only [Step.result, List.map_cons, List.map_nil, byteR5_zero, mix_unit, toByte_zero]
    rfl
  · refine ⟨2, by decide, writes 2 (by decide), ?_⟩
    simp only [Step.result, List.map_cons, List.map_nil, byteR5_zero, mix_unit, toByte_zero]
    rfl

section Shrunk
variable (room : dst.Room) (narrow : dst.Narrow) (narrower : dst.width < src.width % 65536) (lower : dst.height < src.height % 65536)
include room narrow narrower lower

private theorem shrunk_bounded : Safe (raster dst.height dst.width (src.rgbp888Scale dst)) (src.count * 3) (dst.count * 3) ∧
    Covers (raster dst.height dst.width (src.rgbp888Scale dst)) (dst.count * 3) := by
  have three := coloured.bpp_three rgb
  have inner := fun y x (row : y < dst.height) (column : x < dst.width) => not_outer_of_shrunk narrower lower row column
  refine ⟨Gather.forall_raster.mpr fun y x row column => ?_, packed_covers three narrow room.size inner⟩
  refine inner_within three narrow row column (inner y x row column) ?_
  have across := Bilinear.cell_lt_last narrower column
  have down := Bilinear.cell_lt_last lower row
  have area := grid_le src
  have place := Raster.row_lt (Nat.lt_of_succ_lt down) across
  have short := coloured.short
  omega

private theorem shrunk_bytes (makes : Makes source (src.count * 3) (dst.count * 3) (raster dst.height dst.width (src.rgbp888Scale dst))
      (dst.count * 3) (fun a => colour.getD (a / dst.count) 0)) {a : Nat} (inside : a < dst.count * 3) :
    ∃ y < dst.height, (if a % 3 = 0 then toByte ((1 - fraction (src.height % 65536) dst.height y) * byteValue (colour.getD 0 0))
      else Option.some 0) = Option.some (colour.getD (a / dst.count) 0) := by
  have bytes := byte_nontrivial
  obtain ⟨step, member, place, value⟩ := makes.written inside
  obtain ⟨y, x, row, column, member⟩ := Gather.mem_raster.mp member
  obtain ⟨k, byte, here, result⟩ := coloured.inner_results rgb narrow room.size row column
    (not_outer_of_shrunk narrower lower row column) member
  have channel : a % 3 = k := by omega
  exact ⟨y, row, by rw [channel, ← result, value]⟩

theorem shrunk_single (single : dst.count = 1)
    (makes : Makes source (src.count * 3) (dst.count * 3) (raster dst.height dst.width (src.rgbp888Scale dst)) (dst.count * 3)
      (fun a => colour.getD (a / dst.count) 0)) :
    ∃ red, colour = [red, 0, 0] ∧ (red = 0 ∨ src.height % 2 = 1) := by
  have row : dst.height = 1 := Nat.eq_one_of_mul_eq_one_left single
  have bytes := fun {a} (inside : a < dst.count * 3) => coloured.shrunk_bytes rgb room narrow narrower lower makes inside
  obtain ⟨red, green, blue, rfl⟩ := coloured.three rgb
  rw [single] at bytes
  obtain ⟨_, _, second⟩ := bytes (a := 1) (by decide)
  obtain ⟨_, _, third⟩ := bytes (a := 2) (by decide)
  obtain ⟨y, high, first⟩ := bytes (a := 0) (by decide)
  have zero : green = 0 := (Option.some.inj second).symm
  have zero' : blue = 0 := (Option.some.inj third).symm
  refine ⟨red, by rw [zero, zero'], ?_⟩
  by_contra lit
  rw [not_or] at lit
  have top : y = 0 := by omega
  have odd : (src.height % 65536 - 1) % 2 = 1 := by omega
  rw [top, row, Bilinear.fraction_one (by omega), odd] at first
  obtain ⟨_, _, reached | none⟩ := Bilinear.truncate_eq_natCast (toByte_truncate first)
  · have dim : (red.toNat : ℚ) ≤ (1 - 1 / 2) * red.toNat := by
      refine reached.trans (le_of_eq ?_)
      simp [byteValue]
    have least : (red.toNat : ℚ) ≤ 0 := by linarith
    have zero : red.toNat ≤ 0 := by exact_mod_cast least
    exact lit.1 (UInt8.toNat_inj.mp (Nat.le_zero.mp zero))
  · exact lit.1 (UInt8.toNat_inj.mp none)

/-- With more pixels, a green byte of the first pixel is stored among the red ones. -/
theorem shrunk_black (more : 1 < dst.count)
    (makes : Makes source (src.count * 3) (dst.count * 3) (raster dst.height dst.width (src.rgbp888Scale dst)) (dst.count * 3)
      (fun a => colour.getD (a / dst.count) 0)) : colour = [0, 0, 0] := by
  have bytes := fun {a} (inside : a < dst.count * 3) => coloured.shrunk_bytes rgb room narrow narrower lower makes inside
  obtain ⟨red, green, blue, rfl⟩ := coloured.three rgb
  have start : 1 / dst.count = 0 := Nat.div_eq_of_lt more
  obtain ⟨_, _, first⟩ := bytes (a := 1) (by omega)
  rw [start] at first
  have unlit : red = 0 := (Option.some.inj first).symm
  subst unlit
  have none : ∀ a, a < dst.count * 3 → [0, green, blue].getD (a / dst.count) 0 = 0 := by
    intro a inside
    obtain ⟨_, _, here⟩ := bytes inside
    rw [List.getD_cons_zero, byteValue_zero, mul_zero, toByte_zero, ite_self] at here
    exact (Option.some.inj here).symm
  have second := none dst.count (by omega)
  have third := none (dst.count * 2) (by omega)
  rw [Nat.div_self (by omega)] at second
  rw [Nat.mul_div_cancel_left _ (by omega)] at third
  have zero : green = 0 := second
  have zero' : blue = 0 := third
  rw [zero, zero']

private theorem shrunk_makes_iff :
    Makes source (src.count * 3) (dst.count * 3) (raster dst.height dst.width (src.rgbp888Scale dst)) (dst.count * 3)
      (fun a => colour.getD (a / dst.count) 0) ↔
      colour = [0, 0, 0] ∨ dst.width = 1 ∧ dst.height = 1 ∧ (∃ red, colour = [red, 0, 0]) ∧ src.height % 2 = 1 := by
  have cells : 0 < dst.count := Nat.mul_pos room.wide room.high
  constructor
  · intro makes
    by_cases single : dst.count = 1
    · obtain ⟨red, rfl, unlit | odd⟩ := coloured.shrunk_single rgb room narrow narrower lower single makes
      · exact Or.inl (by rw [unlit])
      · exact Or.inr ⟨Nat.eq_one_of_mul_eq_one_right single, Nat.eq_one_of_mul_eq_one_left single, ⟨red, rfl⟩, odd⟩
    · exact Or.inl (coloured.shrunk_black rgb room narrow narrower lower (by omega) makes)
  · intro kept
    obtain ⟨safe, covers⟩ := coloured.shrunk_bounded rgb room narrow narrower lower
    refine Gather.makes_of_values safe covers fun step inside a place => ?_
    obtain ⟨y, x, row, column, member⟩ := Gather.mem_raster.mp inside
    obtain ⟨k, byte, here, result⟩ := coloured.inner_results rgb narrow room.size row column
      (not_outer_of_shrunk narrower lower row column) member
    have index := index_lt row column
    have same : a = (y * dst.width + x) * 3 + k := by omega
    rw [result]
    rcases kept with rfl | ⟨wide, high, ⟨red, rfl⟩, odd⟩
    · have plane : a / dst.count < 3 := by
        rw [Nat.div_lt_iff_lt_mul cells]
        omega
      rw [getD_level 0 plane, List.getD_cons_zero, byteValue_zero, mul_zero, toByte_zero, ite_self]
    · have one : dst.count = 1 := by rw [Image.count, wide, high]
      have corner : y * dst.width + x = 0 := by omega
      have top : y = 0 := by omega
      have even : (src.height % 65536 - 1) % 2 = 0 := by omega
      rw [same, corner, one, Nat.zero_mul, Nat.zero_add, Nat.div_one, top, high, Bilinear.fraction_one (by omega), even]
      interval_cases k
      · simp [toByte_byteValue]
      · rfl
      · rfl

end Shrunk

end Coloured

/-- Which RGBP888 images keep their colour. Those of one row or column are copied plane by plane, and of the others, which must
shrink on both axes, only the red is stored, in the first byte of each pixel. -/
def PlanesKept (src dst : Image) (colour : List UInt8) : Prop :=
  dst.Narrow ∧
    ((src.width % 65536 ≤ 1 ∨ src.height % 65536 ≤ 1) ∧ (src.Narrow ∨ Gray colour) ∨
      dst.width < src.width % 65536 ∧ dst.height < src.height % 65536 ∧
        (colour = [0, 0, 0] ∨ dst.width = 1 ∧ dst.height = 1 ∧ (∃ red, colour = [red, 0, 0]) ∧ src.height % 2 = 1))

private theorem narrow_of_covers (room : dst.Room)
    (covers : Covers (raster (dst.height % 65536) (dst.width % 65536) (src.rgbp888Scale dst)) (dst.count * 3)) : dst.Narrow := by
  by_contra wide
  have half := area_half wide
  have cells : 0 < dst.count := Nat.mul_pos room.wide room.high
  have steps := covers.le_length.trans (Gather.raster_length (rgbp888Scale_length src dst))
  rw [← Nat.mul_assoc, Nat.mul_comm (dst.height % 65536)] at steps
  omega

private theorem Coloured.rgbp888_makes_iff (coloured : src.Coloured source colour) (rgb : src.format = .rgbp888) (room : dst.Room)
    (other : ¬ (src.width = dst.width ∧ src.height = dst.height)) :
    Makes source (src.count * src.bpp) (dst.count * src.bpp) (rgbp888Resize src dst) (dst.count * src.bpp)
      (src.format.paint dst.count colour) ↔ PlanesKept src dst colour := by
  have three := coloured.bpp_three rgb
  have planes : src.format.paint dst.count colour = fun a => colour.getD (a / dst.count) 0 := by
    rw [rgb]
    rfl
  have bytes := byte_nontrivial
  rw [rgbp888Resize, if_neg other, three, planes, PlanesKept]
  by_cases narrow : dst.Narrow
  · rw [Nat.mod_eq_of_lt narrow.width, Nat.mod_eq_of_lt narrow.height, and_iff_right narrow]
    by_cases line : src.width % 65536 ≤ 1 ∨ src.height % 65536 ≤ 1
    · have shrunk : ¬ (dst.width < src.width % 65536 ∧ dst.height < src.height % 65536) := by
        have wide := room.wide
        have high := room.high
        omega
      rw [coloured.line_makes_iff rgb room narrow fun y x _ _ => outer_of_line line y x]
      exact ⟨fun kept => Or.inl ⟨line, kept⟩, fun kept => (kept.resolve_right fun both => shrunk ⟨both.1, both.2.1⟩).2⟩
    · by_cases shrunk : dst.width < src.width % 65536 ∧ dst.height < src.height % 65536
      · rw [coloured.shrunk_makes_iff rgb room narrow shrunk.1 shrunk.2]
        exact ⟨fun kept => Or.inr ⟨shrunk.1, shrunk.2, kept⟩, fun kept => (kept.resolve_left fun both => line both.1).2.2⟩
      · constructor
        · intro makes
          have found := outer_of_grown (by omega) (by omega) room.wide room.high shrunk
          have leaves := mixed_leaves three (by omega) (by omega) narrow (fun step inside => (makes.complete.1 step inside).2.1) found
          exact absurd makes.covers leaves
        · rintro (⟨one, _⟩ | ⟨narrower, lower, _⟩)
          · exact absurd one line
          · exact absurd ⟨narrower, lower⟩ shrunk
  · exact ⟨fun makes => absurd (narrow_of_covers room makes.covers) narrow, fun kept => absurd kept.1 narrow⟩

end Image

open Gather (Makes)

namespace Image

/-- A copy keeps every colour. Grayscale must not be scaled down, and RGB888 not up. -/
def Keeping (src dst : Image) (colour : List UInt8) : Prop :=
  src.width = dst.width ∧ src.height = dst.height ∨
    match src.format with
    | .grayscale => src.width ≤ dst.width ∧ src.height ≤ dst.height
    | .rgb565 => dst.width < src.width ∨ dst.height < src.height ∨ WordsKept src (wordOf colour)
    | .rgb888 => dst.width < src.width ∨ dst.height < src.height
    | .rgbp888 => PlanesKept src dst colour
    | .invalid => False

variable {src dst : Image} {source : Nat → UInt8} {colour : List UInt8}

private theorem coloured_makes_iff (coloured : src.Coloured source colour) (room : dst.Room) : ∃ steps, resizeSteps src dst = some steps ∧
    (Makes source (src.count * src.bpp) (dst.count * src.bpp) steps (dst.count * src.bpp) (src.format.paint dst.count colour) ↔
      Keeping src dst colour) := by
  by_cases same : src.width = dst.width ∧ src.height = dst.height
  · have counts : dst.count = src.count := by rw [Image.count, Image.count, same.1, same.2]
    refine ⟨src.copyAll, ?_, fun _ => Or.inl same, fun _ => coloured.copyAll_makes counts⟩
    unfold resizeSteps grayResize rgb565Resize rgb888Resize rgbp888Resize
    cases format : src.format with
    | invalid => exact absurd format coloured.valid
    | _ => simp only [if_pos same]
  · rw [Keeping, or_iff_right same, resizeSteps]
    cases format : src.format with
    | invalid => exact absurd format coloured.valid
    | grayscale =>
      have kept := coloured.gray_makes_iff format room same
      rw [format] at kept
      exact ⟨_, rfl, kept⟩
    | rgb565 =>
      have kept := coloured.rgb565_makes_iff format room same
      rw [format] at kept
      exact ⟨_, rfl, kept⟩
    | rgb888 =>
      have kept := coloured.rgb888_makes_iff format room same
      rw [format] at kept
      exact ⟨_, rfl, kept⟩
    | rgbp888 =>
      have kept := coloured.rgbp888_makes_iff format room same
      rw [format] at kept
      exact ⟨_, rfl, kept⟩

theorem resize_keepsColour_iff (src : Image) (source : Nat → UInt8) (colour : List UInt8) (width height : Nat)
    (coloured : src.Coloured source colour) (wide : 0 < width) (high : 0 < height) (size : width * height * 3 < u32Range) :
    KeepsColour src colour width height ↔ Keeping src ⟨width, height, src.bpp, src.format, none⟩ colour := by
  have room : Room ⟨width, height, src.bpp, src.format, none⟩ := ⟨wide, high, size⟩
  have three : src.bpp ≤ 3 := by
    rw [coloured.sized.bpp]
    cases src.format <;> decide
  have small : width * height * src.bpp < u32Range := (Nat.mul_le_mul_left _ three).trans_lt size
  obtain ⟨steps, loop, makes⟩ := coloured_makes_iff coloured room
  exact (keepsColour_iff coloured.pixels coloured.bytes coloured.sized.bpp small loop).trans makes

def fourRed : Image := ⟨2, 2, 2, .rgb565, some fun a => if a % 2 = 0 then 0 else 0xf8⟩

private theorem fourRed_coloured : fourRed.Coloured (fun a => if a % 2 = 0 then 0 else 0xf8) [0, 0xf8] := by
  refine ⟨⟨rfl, by decide⟩, by decide, by decide, by decide, rfl, rfl, ?_⟩
  unfold Format.Uniform
  decide

theorem resize_keepsColour_red : KeepsColour fourRed [0, 0xf8] 1 1 ↔ Keeping fourRed ⟨1, 1, 2, .rgb565, none⟩ [0, 0xf8] :=
  resize_keepsColour_iff fourRed _ [0, 0xf8] 1 1 fourRed_coloured (by decide) (by decide) (by decide)

/-- Made twice as large, it is no longer red. -/
theorem doubling_discolours : ¬ KeepsColour fourRed [0, 0xf8] 4 4 := by
  have doubled : Room ⟨4, 4, 2, .rgb565, none⟩ := ⟨by decide, by decide, by decide⟩
  obtain ⟨steps, loop, makes⟩ := coloured_makes_iff fourRed_coloured doubled
  rw [keepsColour_iff rfl rfl rfl (by decide) loop]
  intro kept
  rcases makes.mp kept with ⟨wide, _⟩ | narrower | lower | level
  · exact absurd wide (by decide)
  · exact absurd narrower (by decide)
  · exact absurd lower (by decide)
  · exact absurd level (by decide)

end Image
end ArduinoK210.Imaging
