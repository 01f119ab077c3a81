import ArduinoK210.Imaging.Cut
import ArduinoK210.Lib.Bilinear
import ArduinoK210.Lib.Gather

/-! `Image::resize` and `Image::resize_to_new_format`, with one loop for each pair of formats. The scale factors are exact, and a number
that does not fit the type it is converted to has no value there. Both images are in memory, so that their coordinates fit an `int`. -/

namespace ArduinoK210.Imaging

open Bilinear (truncate centre start)
open Gather (Step raster)

def toUnsigned (bits : Nat) (value : ℚ) : Option Nat :=
  if 0 ≤ truncate value ∧ truncate value < 2 ^ bits then some (truncate value).toNat else none

def toByte (value : ℚ) : Option UInt8 := (toUnsigned 8 value).map UInt8.ofNat

/-- The `int` that a product of two of them wraps to. -/
def i32 (value : Int) : Int := value.bmod u32Range

def rgb565ToR5 (pixel : UInt16) : UInt16 := (pixel >>> 11) &&& 0x1f

def rgb565ToG6 (pixel : UInt16) : UInt16 := (pixel >>> 5) &&& 0x3f

def r5G6B5ToRgb565 (r5 g6 b5 : UInt8) : UInt16 := (r5.toUInt16 <<< 11) ||| (g6.toUInt16 <<< 5) ||| b5.toUInt16

def byteValue (byte : UInt8) : ℚ := byte.toNat

theorem byteValue_range (byte : UInt8) : 0 ≤ byteValue byte ∧ byteValue byte ≤ 255 := by
  have most : byte.toNat ≤ 255 := Nat.le_of_lt_succ byte.toNat_lt
  refine ⟨Nat.cast_nonneg _, ?_⟩
  rw [byteValue]
  exact_mod_cast most

theorem toByte_natCast {value : Nat} (small : value < 256) : toByte value = some (UInt8.ofNat value) := by
  have below : (value : Int) < 2 ^ 8 := by omega
  rw [toByte, toUnsigned, Bilinear.truncate_natCast, if_pos ⟨Int.natCast_nonneg _, below⟩]
  rfl

theorem toByte_zero : toByte 0 = some 0 := toByte_natCast (by decide : 0 < 256)

theorem byteValue_zero : byteValue 0 = 0 := rfl

theorem toByte_byteValue (byte : UInt8) : toByte (byteValue byte) = some byte := by
  rw [byteValue, toByte_natCast byte.toNat_lt, UInt8.ofNat_toNat]

def wordValue (word : UInt16) : ℚ := word.toNat

/-- The macro for five bits of a pixel of sixteen, applied to a byte. -/
def byteR5 (byte : UInt8) : ℚ := wordValue (rgb565ToR5 byte.toUInt16)

/-- `(second - place) * a + (place - first) * b`. -/
def mix (first second : Nat) (place a b : ℚ) : ℚ := (second - place) * a + (place - first) * b

def words : List UInt8 → List UInt16
  | low :: high :: rest => (low.toUInt16 ||| (high.toUInt16 <<< 8)) :: words rest
  | _ => []

/-- The assignment of an element of a `uint16_t` array, byte by byte. -/
def wordSteps (dst : Nat) (reads : List Nat) (value : List UInt16 → Option UInt16) : List (Step UInt8) :=
  let bytes := reads.flatMap fun i => [((i * 2 : Nat) : Int), ((i * 2 + 1 : Nat) : Int)]
  [⟨(dst * 2 : Nat), bytes, fun read => (value (words read)).map UInt16.toUInt8⟩,
    ⟨(dst * 2 + 1 : Nat), bytes, fun read => (value (words read)).map fun word : UInt16 => (word >>> 8).toUInt8⟩]

namespace Image

def copyAll (src : Image) : List (Step UInt8) :=
  (List.range (u32 (src.width * src.height * src.bpp))).map fun i : Nat => Step.move i i

/-- Both axes use the scale of the rows. -/
def grayDown (src dst : Image) (y x : Nat) : List (Step UInt8) :=
  let y0 := (truncate (start src.height dst.height y)).toNat
  let y1 := (truncate (start src.height dst.height (y + 1))).toNat
  let x0 := (truncate (start src.height dst.height x)).toNat
  let x1 := (truncate (start src.height dst.height (x + 1))).toNat
  let area := (y1 + 1 - y0) * (x1 + 1 - x0)
  if y1 < 2147483648 ∧ x1 < 2147483648 then
    [⟨u32 (y * dst.width + x),
      (List.range' y0 (y1 + 1 - y0)).flatMap fun yy => (List.range' x0 (x1 + 1 - x0)).map fun xx => (u32 (yy * src.width + xx) : Int),
      fun bytes =>
        let sum := (bytes.map UInt8.toNat).sum
        if sum < 2147483648 ∧ area < 2147483648 then some (UInt8.ofNat (sum / area)) else none⟩]
  else [Step.undefined]

/-- The pixels around a place, each with its factor. -/
def grayUpTaps (src dst : Image) (y x : Nat) : List (ℚ × Nat) :=
  let yf := centre src.height dst.height y
  let y0 := truncate yf
  let y1 := y0 + 1
  let valY1 := if y0 < src.height - 1 then y1 else y0
  let xf := centre src.width dst.width x
  let x0 := truncate xf
  let x1 := x0 + 1
  let valX1 := if x0 < src.width - 1 then x1 else x0
  [((x1 - xf) * (y1 - yf), toU32 (y0 * src.width + x0)), ((xf - x0) * (y1 - yf), toU32 (y0 * src.width + valX1)),
    ((x1 - xf) * (yf - y0), toU32 (valY1 * src.width + x0)), ((xf - x0) * (yf - y0), toU32 (valY1 * src.width + valX1))]

def weighed (taps : List (ℚ × Nat)) (bytes : List UInt8) : ℚ := Bilinear.blend ((taps.map Prod.fst).zip (bytes.map byteValue))

def grayUp (src dst : Image) (y x : Nat) : List (Step UInt8) :=
  let taps := grayUpTaps src dst y x
  [⟨u32 (y * dst.width + x), taps.map fun tap => (tap.2 : Int), fun bytes => toByte (weighed taps bytes)⟩]

def grayResize (src dst : Image) : List (Step UInt8) :=
  if src.width = dst.width ∧ src.height = dst.height then src.copyAll
  else if src.width > dst.width ∨ src.height > dst.height then raster dst.height dst.width (grayDown src dst)
  else raster dst.height dst.width (grayUp src dst)

def rgb565Down (src dst : Image) (y x : Nat) : List (Step UInt8) :=
  let y0 := (truncate (start src.height dst.height y)).toNat
  let x0 := (truncate (start src.width dst.width x)).toNat
  wordSteps (u32 (y * dst.width + x)) [u32 (y0 * src.width + x0)] List.head?

/-- The value of an interpolated RGB565 pixel. The green channel takes a red value, and one from another corner. -/
def rgb565Mix (x1 y1 x2 y2 : Nat) (xSrc ySrc : ℚ) : List UInt16 → Option UInt16
  | [p11, p21, p12] =>
      let channel a b c d := toByte (mix y1 y2 ySrc (mix x1 x2 xSrc a b) (mix x1 x2 xSrc c d))
      let r5 p := wordValue (rgb565ToR5 p)
      let g6 p := wordValue (rgb565ToG6 p)
      do
        let red ← channel (r5 p11) (r5 p21) (r5 p12) (r5 p21)
        let green ← channel (r5 p11) (g6 p12) (g6 p12) (g6 p21)
        let blue ← channel (r5 p11) (r5 p21) (r5 p12) (r5 p21)
        some (r5G6B5ToRgb565 red green blue)
  | _ => none

def rgb565Inner (src dst : Image) (y x x1 y1 : Nat) : List (Step UInt8) :=
  let x2 := (x1 + 1) % 65536
  let y2 := (y1 + 1) % 65536
  let pixel x y := u32 (x + y * src.width)
  wordSteps (u32 (x + y * dst.width)) [pixel x1 y1, pixel x2 y1, pixel x1 y2]
    (rgb565Mix x1 y1 x2 y2 (centre src.width dst.width x) (centre src.height dst.height y))

def rgb565Up (src dst : Image) (y x : Nat) : List (Step UInt8) :=
  match toUnsigned 16 (centre src.width dst.width x), toUnsigned 16 (centre src.height dst.height y) with
  | some x1, some y1 =>
      if (x1 + 1) % 65536 ≥ src.width ∨ (y1 + 1) % 65536 ≥ src.height then
        wordSteps (u32 (x + y * dst.width)) [u32 (x1 + y1 * src.width)] List.head?
      else rgb565Inner src dst y x x1 y1
  | _, _ => [Step.undefined]

def rgb565Resize (src dst : Image) : List (Step UInt8) :=
  if src.width = dst.width ∧ src.height = dst.height then src.copyAll
  else if src.width > dst.width ∨ src.height > dst.height then raster dst.height dst.width (rgb565Down src dst)
  else raster dst.height dst.width (rgb565Up src dst)

def rgb888Down (src dst : Image) (y x : Nat) : List (Step UInt8) :=
  let y0 := (truncate (start src.height dst.height y)).toNat
  let x0 := (truncate (start src.width dst.width x)).toNat
  [0, 1, 2].map fun k => Step.move (u32 ((y * dst.width + x) * src.bpp + k)) (u32 ((y0 * src.width + x0) * src.bpp + k))

/-- The interpolation of an RGB888 pixel. The bytes are found without the size of a pixel, and all but one of them are taken
for pixels of sixteen bits. -/
def rgb888Inner (src dst : Image) (y x x1 y1 : Nat) : List (Step UInt8) :=
  let xSrc := centre src.width dst.width x
  let ySrc := centre src.height dst.height y
  let x2 := (x1 + 1) % 65536
  let y2 := (y1 + 1) % 65536
  let pixel x y : Int := u32 (x + y * src.width)
  let channel a b c d := toByte (mix y1 y2 ySrc (mix x1 x2 xSrc a b) (mix x1 x2 xSrc c d))
  let reads := [pixel x1 y1, pixel x2 y1, pixel x1 y2, pixel x2 y1]
  let red : List UInt8 → Option UInt8
    | [a, b, c, d] => channel (byteValue a) (byteR5 b) (byteR5 c) (byteR5 d)
    | _ => none
  let other : List UInt8 → Option UInt8
    | [a, b, c, d] => channel (byteR5 a) (byteR5 b) (byteR5 c) (byteR5 d)
    | _ => none
  [⟨u32 ((x + y * dst.width) * src.bpp + 0), reads, red⟩, ⟨u32 ((x + y * dst.width) * src.bpp + 1), reads, other⟩,
    ⟨u32 ((x + y * dst.width) * src.bpp + 2), reads, other⟩]

/-- At the right and bottom edges one byte is copied. -/
def rgb888Up (src dst : Image) (y x : Nat) : List (Step UInt8) :=
  match toUnsigned 16 (centre src.width dst.width x), toUnsigned 16 (centre src.height dst.height y) with
  | some x1, some y1 =>
      if (x1 + 1) % 65536 ≥ src.width ∨ (y1 + 1) % 65536 ≥ src.height then
        [Step.move (u32 (x + y * dst.width)) (u32 (x1 + y1 * src.width))]
      else rgb888Inner src dst y x x1 y1
  | _, _ => [Step.undefined]

def rgb888Resize (src dst : Image) : List (Step UInt8) :=
  if src.width = dst.width ∧ src.height = dst.height then src.copyAll
  else if src.width > dst.width ∨ src.height > dst.height then raster dst.height dst.width (rgb888Down src dst)
  else raster dst.height dst.width (rgb888Up src dst)

def rgbp888Edge (wSrc hSrc wDst hDst y x x1 y1 : Nat) : List (Step UInt8) :=
  [0, 1, 2].map fun k : Int =>
    Step.move (i32 (wDst * hDst) * k + i32 (x + y * wDst)) (i32 (wSrc * hSrc) * k + i32 (x1 + y1 * wSrc))

/-- The interpolation of an RGBP888 pixel, which is stored packed. Two bytes are found in the first plane. -/
def rgbp888Inner (src dst : Image) (wSrc hSrc wDst hDst y x x1 y1 : Nat) : List (Step UInt8) :=
  let xSrc := centre wSrc wDst x
  let ySrc := centre hSrc hDst y
  let x2 := (x1 + 1) % 65536
  let y2 := (y1 + 1) % 65536
  let pixel x y : Int := u32 (x + y * src.width)
  let channel a b c d := toByte (mix y1 y2 ySrc (mix x1 x2 xSrc a b) (mix x1 x2 xSrc c d))
  let red : List UInt8 → Option UInt8
    | [a, b, c, d] => channel (byteValue a) (byteValue b) (byteR5 c) (byteR5 d)
    | _ => none
  let other : List UInt8 → Option UInt8
    | [a, b, c, d] => channel (byteR5 a) (byteR5 b) (byteR5 c) (byteR5 d)
    | _ => none
  let reads := [pixel x1 y1, pixel x2 y1, pixel x1 y2, pixel x2 y1]
  [⟨u32 ((x + y * dst.width) * src.bpp + 0), [i32 (x1 + y1 * wSrc), i32 (x2 + y1 * wSrc), pixel x1 y2, pixel x2 y1], red⟩,
    ⟨u32 ((x + y * dst.width) * src.bpp + 1), reads, other⟩, ⟨u32 ((x + y * dst.width) * src.bpp + 2), reads, other⟩]

/-- The sizes are kept in a `uint16_t`. -/
def rgbp888Scale (src dst : Image) (y x : Nat) : List (Step UInt8) :=
  let wSrc := src.width % 65536
  let hSrc := src.height % 65536
  let wDst := dst.width % 65536
  let hDst := dst.height % 65536
  match toUnsigned 16 (centre wSrc wDst x), toUnsigned 16 (centre hSrc hDst y) with
  | some x1, some y1 =>
      if (x1 + 1) % 65536 ≥ wSrc ∨ (y1 + 1) % 65536 ≥ hSrc then rgbp888Edge wSrc hSrc wDst hDst y x x1 y1
      else rgbp888Inner src dst wSrc hSrc wDst hDst y x x1 y1
  | _, _ => [Step.undefined]

def rgbp888Resize (src dst : Image) : List (Step UInt8) :=
  if src.width = dst.width ∧ src.height = dst.height then src.copyAll
  else raster (dst.height % 65536) (dst.width % 65536) (rgbp888Scale src dst)

def resizeSteps (src dst : Image) : Option (List (Step UInt8)) :=
  match src.format with
  | .grayscale => some (grayResize src dst)
  | .rgb565 => some (rgb565Resize src dst)
  | .rgb888 => some (rgb888Resize src dst)
  | .rgbp888 => some (rgbp888Resize src dst)
  | .invalid => none

/-- A call on a source with its pixels in memory and a destination of `capacity` bytes, which `create` replaces. It has no
result when it leaves the buffers or makes a number that does not fit. -/
def resize (malloc : Nat → Option (Nat → UInt8)) (src dst : Image) (capacity width height : Nat) (create : Bool) :
    Option (Int × Image) :=
  match src.pixel with
  | none => some (-1, dst)
  | some source =>
      if create = false ∧ dst.pixel.isNone then some (-1, dst)
      else
        let size := u32 (width * height * src.bpp)
        let shaped : Image := ⟨width, height, src.bpp, src.format, if create then malloc size else dst.pixel⟩
        match shaped.pixel with
        | none => some (-1, shaped)
        | some buffer =>
            match resizeSteps src shaped with
            | none => some (-1, shaped)
            | some steps =>
                (Gather.run source (src.count * src.bpp) (if create then size else capacity) steps buffer).map fun filled =>
                  (0, { shaped with pixel := some filled })

end Image

open Bilinear (truncate centre)
open Gather (Step raster)

namespace Image

def newFormatTaps (src : Image) (width height y x : Nat) : List (ℚ × Nat) :=
  let srcX := centre src.width width x
  let srcY := centre src.height height y
  let x0 := truncate srcX
  let y0 := truncate srcY
  let x1 := if x0 + 1 ≥ src.width then x0 else x0 + 1
  let y1 := if y0 + 1 ≥ src.height then y0 else y0 + 1
  let xRatio := srcX - x0
  let yRatio := srcY - y0
  let xOpposite := 1 - xRatio
  let yOpposite := 1 - yRatio
  [(xOpposite * yOpposite, toU32 (y0 * src.width + x0)), (xRatio * yOpposite, toU32 (y0 * src.width + x1)),
    (xOpposite * yRatio, toU32 (y1 * src.width + x0)), (xRatio * yRatio, toU32 (y1 * src.width + x1))]

end Image

def Format.places (plane i : Nat) : Format → List Nat
  | .grayscale => [i]
  | .rgb565 => [i * 2, i * 2 + 1]
  | .rgb888 => [u32 (i * 3), u32 (i * 3 + 1), u32 (i * 3 + 2)]
  | .rgbp888 => [i, plane + i, plane + plane + i]
  | .invalid => []

def channels : Format → Format → List UInt8 → List UInt8
  | .rgb565, .grayscale, bytes => [rgb565ToY (wordOf bytes)]
  | .rgb565, _, bytes => Image.rgbBytes (rgb565Bytes (wordOf bytes))
  | .rgb888, .grayscale, bytes | .rgbp888, .grayscale, bytes => [Image.toY (rgbOf bytes)]
  | _, _, bytes => bytes

def stored : Format → Format → List UInt8 → List UInt8
  | .grayscale, .rgb565, values => bytes16 (yuvToRgb565 (firstOf values) 0 0)
  | .grayscale, .rgb888, values | .grayscale, .rgbp888, values => Image.rgbBytes (yuvToRgb888 (firstOf values) 0 0)
  | _, .rgb565, values => bytes16 (Image.toWord (rgbOf values))
  | _, _, values => values

namespace Image

/-- The channels of the new pixel, from the bytes of the four around it. -/
def interpolated (src : Image) (format : Format) (taps : List (ℚ × Nat)) (bytes : List UInt8) : Option (List UInt8) :=
  let around := (List.range 4).map fun j => channels src.format format ((bytes.drop (j * src.format.bpp)).take src.format.bpp)
  (List.range (if src.format = .grayscale ∨ format = .grayscale then 1 else 3)).mapM fun c =>
    toByte (weighed taps (around.map fun values => values.getD c 0))

def newFormatPixel (src : Image) (format : Format) (width height y x : Nat) : List (Step UInt8) :=
  let taps := src.newFormatTaps width height y x
  let reads := taps.flatMap fun tap => (src.format.places (u32 (src.width * src.height)) tap.2).map fun place => (place : Int)
  (format.places (u32 (width * height)) (u32 (y * width + x))).mapIdx fun k place =>
    ⟨place, reads, fun bytes => (src.interpolated format taps bytes).bind fun values => (stored src.format format values)[k]?⟩

def newFormatSteps (src : Image) (format : Format) (width height : Nat) : Option (List (Step UInt8)) :=
  if src.format = .invalid ∨ format = .invalid then none
  else some (raster height width (src.newFormatPixel format width height))

def resizeToNewFormat (malloc : Nat → Option (Nat → UInt8)) (src dst : Image) (capacity width height : Nat) (format : Format)
    (create : Bool) : Option (Int × Image) :=
  match src.pixel with
  | none => some (-1, dst)
  | some source =>
      match createDestImage malloc format { src with width := width, height := height } dst create with
      | (none, dst) => some (-1, dst)
      | (some buffer, dst) =>
          let room := if create then u32 (width * height * format.bpp) else capacity
          if src.format = format then resize malloc src dst room width height false
          else
            match src.newFormatSteps format width height with
            | none => some (-1, dst)
            | some steps =>
                (Gather.run source (src.count * src.bpp) room steps buffer).map fun filled => (0, { dst with pixel := some filled })

end Image
end ArduinoK210.Imaging
