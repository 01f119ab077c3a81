import ArduinoK210.Imaging.Bounded
import ArduinoK210.Imaging.Overshoot

/-! Resizing an image whose pixels all have one colour. -/

namespace ArduinoK210.Imaging

open Bilinear (cell)
open Gather (Step Makes)

theorem byte_nontrivial : Nontrivial UInt8 := ⟨0, 1, by decide⟩

namespace Format

def paint (format : Format) (count : Nat) (colour : List UInt8) (a : Nat) : UInt8 :=
  match format.layout with
  | .packed => colour.getD (a % format.bpp) 0
  | .planar => colour.getD (a / count) 0

def Uniform (format : Format) (count : Nat) (colour : List UInt8) (mem : Nat → UInt8) : Prop :=
  ∀ i, i < count → format.texel count mem i = colour

variable {format : Format} {count : Nat} {colour : List UInt8} {mem : Nat → UInt8}

private theorem paint_address {i k : Nat} (inside : i < count) (byte : k < format.bpp) :
    format.paint count colour (format.layout.address count format.bpp i k) = colour.getD k 0 := by
  unfold paint
  cases format.layout with
  | packed => rw [Raster.Layout.address, Nat.mul_comm, Nat.mul_add_mod, Nat.mod_eq_of_lt byte]
  | planar => rw [Raster.Layout.address, Raster.row_div k inside]

private theorem uniform_iff (sized : colour.length = format.bpp) :
    format.Uniform count colour mem ↔ ∀ a, a < count * format.bpp → mem a = format.paint count colour a := by
  constructor
  · intro uniform a inside
    obtain ⟨i, k, cell, byte, rfl⟩ := format.layout.address_surjective inside
    have bytes := congrArg (fun bytes => bytes.getD k 0) (uniform i cell)
    simp only [texel, Raster.Layout.texel] at bytes
    rw [paint_address cell byte, ← bytes]
    simp [byte]
  · intro painted i inside
    refine List.ext_getElem? fun k => ?_
    by_cases byte : k < format.bpp
    · have here := painted _ (format.layout.address_lt inside byte)
      rw [paint_address inside byte] at here
      have within : k < colour.length := by omega
      simp [texel, Raster.Layout.texel, byte, here, within]
    · rw [List.getElem?_eq_none (by rw [texel, Raster.Layout.texel_length]; omega), List.getElem?_eq_none (by omega)]

end Format

namespace Image

structure Filled (out : Image) (format : Format) (width height : Nat) (colour : List UInt8) : Prop where
  columns : out.width = width
  rows : out.height = height
  kind : out.format = format
  pixels : ∃ filled, out.pixel = some filled ∧ format.Uniform (width * height) colour filled

structure Supplied (malloc : Nat → Option (Nat → UInt8)) (dst : Image) (capacity size : Nat) (create : Bool) : Prop where
  fresh : create = true → (malloc size).isSome
  own : create = false → dst.pixel.isSome ∧ size ≤ capacity

/-- Every call of `resize` to a size makes an image of the same colour. -/
def KeepsColour (src : Image) (colour : List UInt8) (width height : Nat) : Prop :=
  ∀ malloc dst capacity create, Supplied malloc dst capacity (width * height * src.bpp) create →
    ∃ out, resize malloc src dst capacity width height create = some (0, out) ∧ Filled out src.format width height colour

variable {src : Image} {source : Nat → UInt8} {colour : List UInt8} {width height : Nat}

theorem resizeSteps_shape (src : Image) (width height bpp : Nat) (format : Format) (pixel : Option (Nat → UInt8)) :
    resizeSteps src ⟨width, height, bpp, format, pixel⟩ = resizeSteps src ⟨width, height, bpp, format, none⟩ := rfl

private theorem resize_loops {malloc : Nat → Option (Nat → UInt8)} {dst : Image} {capacity : Nat} {create : Bool} {buffer : Nat → UInt8}
    {steps : List (Step UInt8)} (pixels : src.pixel = some source)
    (given : (if create then malloc (u32 (width * height * src.bpp)) else dst.pixel) = some buffer)
    (loop : resizeSteps src ⟨width, height, src.bpp, src.format, none⟩ = some steps) :
    resize malloc src dst capacity width height create =
      (Gather.run source (src.count * src.bpp) (if create then u32 (width * height * src.bpp) else capacity) steps buffer).map
        fun filled => (0, ⟨width, height, src.bpp, src.format, some filled⟩) := by
  have own : ¬ (create = false ∧ dst.pixel.isNone) := by
    rintro ⟨kept, bare⟩
    rw [kept, if_neg (by decide)] at given
    rw [given] at bare
    cases bare
  simp only [resize, pixels, if_neg own, given, resizeSteps_shape, loop]

/-- It is enough to look at the steps. -/
theorem keepsColour_iff (pixels : src.pixel = some source) (sized : colour.length = src.format.bpp) (kind : src.bpp = src.format.bpp)
    (small : width * height * src.bpp < u32Range) {steps : List (Step UInt8)}
    (loop : resizeSteps src ⟨width, height, src.bpp, src.format, none⟩ = some steps) :
    KeepsColour src colour width height ↔ Makes source (src.count * src.bpp) (width * height * src.bpp) steps
      (width * height * src.bpp) (src.format.paint (width * height) colour) := by
  have uniform : ∀ mem, src.format.Uniform (width * height) colour mem ↔
      ∀ a, a < width * height * src.bpp → mem a = src.format.paint (width * height) colour a := by
    rw [kind]
    exact fun mem => Format.uniform_iff sized
  have size : u32 (width * height * src.bpp) = width * height * src.bpp := u32_fits small
  constructor
  · intro keeps mem
    obtain ⟨out, done, filled⟩ := keeps (fun _ => some mem) src 0 true ⟨fun _ => rfl, fun impossible => by cases impossible⟩
    rw [resize_loops pixels (by rfl) loop, if_pos rfl, size, Option.map_eq_some_iff] at done
    obtain ⟨result, ends, same⟩ := done
    obtain ⟨last, made, painted⟩ := filled.pixels
    cases same
    cases made
    exact ⟨result, ends, (uniform result).mp painted⟩
  · intro makes malloc dst capacity create supplied
    have given : ∃ buffer, (if create then malloc (u32 (width * height * src.bpp)) else dst.pixel) = some buffer := by
      rw [size]
      cases create with
      | false => exact Option.isSome_iff_exists.mp (supplied.own rfl).1
      | true => exact Option.isSome_iff_exists.mp (supplied.fresh rfl)
    have room : width * height * src.bpp ≤ if create then u32 (width * height * src.bpp) else capacity := by
      cases create with
      | false => exact (supplied.own rfl).2
      | true => exact size.ge
    obtain ⟨buffer, granted⟩ := given
    obtain ⟨filled, ends, painted⟩ := makes.mono room buffer
    rw [resize_loops pixels granted loop, ends]
    exact ⟨_, rfl, rfl, rfl, rfl, filled, rfl, (uniform filled).mpr painted⟩

/-- An image in memory whose pixels all have the colour. -/
structure Coloured (src : Image) (source : Nat → UInt8) (colour : List UInt8) : Prop where
  sized : src.Sized
  some : 0 < src.width
  tall : 0 < src.height
  valid : src.format ≠ .invalid
  pixels : src.pixel = Option.some source
  bytes : colour.length = src.format.bpp
  uniform : src.format.Uniform src.count colour source

/-- A destination that fits memory. -/
structure Room (dst : Image) : Prop where
  wide : 0 < dst.width
  high : 0 < dst.height
  size : dst.count * 3 < u32Range

theorem Room.fits {dst : Image} (room : dst.Room) : dst.count < u32Range := by
  have size := room.size
  omega

namespace Coloured

variable {dst : Image} (coloured : src.Coloured source colour)
include coloured

theorem byte {a : Nat} (inside : a < src.count * src.format.bpp) : source a = src.format.paint src.count colour a :=
  (Format.uniform_iff coloured.bytes).mp coloured.uniform a inside

theorem byte_address {i k : Nat} (inside : i < src.count) (byte : k < src.format.bpp) :
    source (src.format.layout.address src.count src.format.bpp i k) = colour.getD k 0 := by
  rw [coloured.byte (src.format.layout.address_lt inside byte), Format.paint_address inside byte]

theorem fits : src.count < u32Range := by
  have size := coloured.sized.size
  unfold Image.count
  omega

theorem short : src.count < 2147483648 := by
  have size : src.count * 3 < 4294967296 := coloured.sized.size
  omega

private theorem rows : src.height < 2147483648 := by
  have area : src.height ≤ src.count := Nat.le_mul_of_pos_left _ coloured.some
  exact area.trans_lt coloured.short

theorem copyAll_makes (same : dst.count = src.count) :
    Makes source (src.count * src.bpp) (dst.count * src.bpp) src.copyAll (dst.count * src.bpp)
      (src.format.paint dst.count colour) := by
  have three : src.bpp ≤ 3 := by
    rw [coloured.sized.bpp]
    cases src.format <;> decide
  have small : src.count * src.bpp < u32Range := (Nat.mul_le_mul_left _ three).trans_lt coloured.sized.size
  have bounded := (copyAll_bounded_iff same).mpr small
  refine Gather.makes_of_values bounded.safe bounded.covers fun step inside a place => ?_
  have below := (bounded.safe step inside).2.2
  obtain ⟨i, _, rfl⟩ := List.mem_map.mp inside
  have moved : (i : Int) = a := place
  have here : i = a := Int.ofNat_inj.mp moved
  rw [place] at below
  rw [Step.move_result, Int.toNat_natCast, here, same]
  rw [same, coloured.sized.bpp] at below
  rw [coloured.byte (Int.ofNat_lt.mp below)]

private theorem gray_byte (gray : src.format = .grayscale) {a : Nat} (inside : a < src.count) : source a = colour.getD 0 0 := by
  have one : src.format.bpp = 1 := by
    rw [gray]
    rfl
  rw [coloured.byte (by rwa [one, Nat.mul_one]), gray]
  simp [Format.paint, Format.layout, Format.bpp, Nat.mod_one]

private theorem grayValue_same {y x : Nat} (gray : src.format = .grayscale) (row : y < dst.height) (column : x < dst.width) :
    grayValue source (src.grayUpTaps dst y x) = byteValue (colour.getD 0 0) := by
  have same : ∀ tap ∈ src.grayUpTaps dst y x, source tap.2 = colour.getD 0 0 := fun tap inside =>
    coloured.gray_byte gray (grayUpTaps_inside coloured.fits coloured.some coloured.tall row column tap inside)
  rw [grayValue_eq, List.map_congr_left fun tap inside => by rw [same tap inside], grayUpTaps_eq]
  obtain ⟨_, _, _, _, taps⟩ := newFormatTaps_corners src y x (Nat.zero_lt_of_lt column) (Nat.zero_lt_of_lt row)
    fun _ => byteValue (colour.getD 0 0)
  rw [taps, Bilinear.corners_same]

theorem gray_makes_iff (gray : src.format = .grayscale) (room : dst.Room) (other : ¬ (src.width = dst.width ∧ src.height = dst.height)) :
    Makes source (src.count * src.bpp) (dst.count * src.bpp) (grayResize src dst) (dst.count * src.bpp)
      (src.format.paint dst.count colour) ↔ src.width ≤ dst.width ∧ src.height ≤ dst.height := by
  have one : src.bpp = 1 := by
    rw [coloured.sized.bpp, gray]
    rfl
  rw [grayResize, if_neg other, one, Nat.mul_one, Nat.mul_one]
  by_cases down : src.width > dst.width ∨ src.height > dst.height
  · rw [if_pos down]
    have leaves := grayDown_leaves room.wide room.high coloured.fits coloured.rows dst.count
    exact ⟨fun makes => absurd makes.complete.1 leaves, fun up => by omega⟩
  · rw [if_neg down]
    refine ⟨fun _ => by omega, fun _ => ?_⟩
    obtain ⟨safe, covers⟩ := grayUp_bounded coloured.fits room.fits coloured.some coloured.tall
    refine Gather.makes_of_values safe covers fun step inside a _ => ?_
    obtain ⟨y, x, row, column, member⟩ := Gather.mem_raster.mp inside
    rw [grayUp_result step member, coloured.grayValue_same gray row column, toByte_byteValue, gray]
    simp [Format.paint, Format.layout, Format.bpp, Nat.mod_one]

theorem rgb888_makes_iff (rgb : src.format = .rgb888) (room : dst.Room) (other : ¬ (src.width = dst.width ∧ src.height = dst.height)) :
    Makes source (src.count * src.bpp) (dst.count * src.bpp) (rgb888Resize src dst) (dst.count * src.bpp)
      (src.format.paint dst.count colour) ↔ dst.width < src.width ∨ dst.height < src.height := by
  have three : src.bpp = 3 := by
    rw [coloured.sized.bpp, rgb]
    rfl
  rw [rgb888Resize, if_neg other, three]
  by_cases down : src.width > dst.width ∨ src.height > dst.height
  · rw [if_pos down]
    refine ⟨fun _ => down, fun _ => ?_⟩
    obtain ⟨safe, covers⟩ := (rgb888Down_bounded_iff three coloured.some coloured.tall).mpr room.size
    refine Gather.makes_of_values safe covers fun step inside a place => ?_
    obtain ⟨y, x, row, column, member⟩ := Gather.mem_raster.mp inside
    obtain ⟨k, byte, rfl⟩ := (rgb888Down_mem three y x step).mp member
    have index := index_lt row column
    have corner : y * src.height / dst.height * src.width + x * src.width / dst.width < src.count :=
      index_lt (start_lt coloured.tall row) (start_lt coloured.some column)
    have size : src.count * 3 < u32Range := coloured.sized.size
    have wide := room.size
    have here : ((u32 ((y * dst.width + x) * 3 + k) : Nat) : Int) = a := place
    rw [u32_fits (by omega)] at here
    have at' := Int.ofNat_inj.mp here
    rw [Step.move_result, Int.toNat_natCast, u32_fits (by omega), ← at']
    have channel : k < src.format.bpp := by
      rw [rgb]
      exact byte
    have read := coloured.byte_address corner channel
    have wanted : Format.rgb888.paint dst.count colour ((y * dst.width + x) * 3 + k) = colour.getD k 0 := Format.paint_address index byte
    rw [rgb] at read ⊢
    exact congrArg Option.some (read.trans wanted.symm)
  · rw [if_neg down]
    have wider : src.width ≤ dst.width := by omega
    have higher : src.height ≤ dst.height := by omega
    have bytes := byte_nontrivial
    have leaves := rgb888Up_leaves three coloured.some coloured.tall wider higher coloured.fits
    exact ⟨fun makes => absurd makes.covers leaves, fun up => absurd up down⟩

end Coloured

end Image
end ArduinoK210.Imaging
