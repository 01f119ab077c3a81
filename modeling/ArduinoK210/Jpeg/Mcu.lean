import ArduinoK210.Imaging.Convert
import ArduinoK210.Lib.Stride

/-! `jpeg_get_mcu`, which fetches the samples of a block, and the loops of `jpeg_compress` over the blocks of an image. What the entropy
coder does with a block has one effect on the loops: after a row of blocks it may report that the output buffer is full. -/

namespace ArduinoK210.Jpeg

open Imaging (Format u32 u32Range load16 rgb565ToR8 rgb565ToG8 rgb565ToB8)

def mcuW : Nat := 8

def mcuH : Nat := 8

def mcuSize : Nat := mcuW * mcuH

structure ImageInfo where
  w : Nat
  h : Nat
  data : Nat → UInt8
  pixfmt : Format

/-- What goes into entry `index` of `Y0`, and of `CB` and `CR` with a colour format, and the addresses it was read from. -/
structure Sample where
  index : Nat
  bytes : List Nat
  y : UInt8
  chroma : Option (UInt8 × UInt8)

def ssub16 (op1 op2 : UInt32) : UInt32 :=
  ((op1 &&& 0xffff0000) - (op2 &&& 0xffff0000)) ||| ((op1 - op2) &&& 0xffff)

/-- `RGB888_TO_YCBCR` without the stores. -/
def rgb888ToYcbcr (r g b : UInt8) : UInt8 × UInt8 × UInt8 :=
  let red : Int := r.toNat
  let green : Int := g.toNat
  let blue : Int := b.toNat
  let byte (value : Int) : UInt8 := UInt8.ofNat (value % 256).toNat
  (byte ((red * 38 + green * 75 + blue * 15) >>> (7 : Nat)) ^^^ 0x80, byte ((blue * 64 - red * 21 - green * 43) >>> (7 : Nat)),
    byte ((red * 64 - green * 54 - blue * 10) >>> (7 : Nat)))

/-- `TWO_RGB888_TO_YCBCR` from the packed pairs on. Two pixels at once, one in each half of a word. The arithmetic for
two RGB565 pixels is the same. -/
def pairToYcbcr (rPair gPair bPair : UInt32) : UInt32 × UInt32 × UInt32 :=
  (((rPair * 38 + gPair * 75 + bPair * 15) >>> 7) ^^^ 0x800080, ssub16 (bPair * 64) (rPair * 21 + gPair * 43) >>> 7,
    ssub16 (rPair * 64) (gPair * 54 + bPair * 10) >>> 7)

def pair (first second : UInt8) : UInt32 := first.toUInt32 ||| (second.toUInt32 <<< 16)

/-- A `uint32_t` of the little-endian memory. -/
def load32 (mem : Nat → UInt8) (address : Nat) : UInt32 :=
  (load16 mem address).toUInt32 ||| ((load16 mem (address + 2)).toUInt32 <<< 16)

/-- Two RGB565 pixels. The shifts to the right are arithmetic there, and the masks drop the copies of the sign. -/
def rgb565PairToYcbcr (pixels : UInt32) : UInt32 × UInt32 × UInt32 :=
  pairToYcbcr (((pixels >>> 8) &&& (0xf800f8 : UInt32)) ||| ((pixels >>> 13) &&& (0x70007 : UInt32)))
    (((pixels >>> 3) &&& (0xfc00fc : UInt32)) ||| ((pixels >>> 9) &&& (0x30003 : UInt32)))
    (((pixels <<< 3) &&& (0xf800f8 : UInt32)) ||| ((pixels >>> 2) &&& (0x70007 : UInt32)))

def sample (index : Nat) (bytes : List Nat) (value : UInt8 × UInt8 × UInt8) : List Sample :=
  [⟨index, bytes, value.1, some (value.2.1, value.2.2)⟩]

def samples (index : Nat) (first second : List Nat) (value : UInt32 × UInt32 × UInt32) : List Sample :=
  sample index first (value.1.toUInt8, value.2.1.toUInt8, value.2.2.toUInt8) ++
    sample (index + 1) second
      ((value.1 >>> 16).toUInt8, (value.2.1 >>> 16).toUInt8, (value.2.2 >>> 16).toUInt8)

/-- The loop over the pixels of a row: two at a time, and the last of an odd number by itself. The second number is what
is left. -/
def byTwos (two one : Nat → List Sample) (x : Nat) : Nat → List Sample
  | left + 2 => two x ++ byTwos two one (x + 2) left
  | 1 => one x
  | 0 => []

section Rows

variable (src : ImageInfo) (xOffset : Nat)

/-- `IMAGE_FORMAT_GRAYSCALE`: accesses of four, two and one bytes. -/
def grayscaleRow (dx y index : Nat) : List Sample :=
  let rp := u32 (src.w * y) + xOffset
  let copy (k count : Nat) : List Sample :=
    (List.range' k count).map fun k => ⟨index + k, [rp + k], src.data (rp + k) ^^^ 0x80, none⟩
  if dx = mcuW then copy 0 4 ++ copy 4 4
  else if 4 ≤ dx then
    copy 0 4 ++ if 6 ≤ dx then copy 4 2 ++ (if dx % 2 = 1 then copy 6 1 else []) else if dx % 2 = 1 then copy 4 1 else []
  else if 2 ≤ dx then copy 0 2 ++ (if dx % 2 = 1 then copy 2 1 else [])
  else copy 0 1

/-- `IMAGE_FORMAT_RGB565`: two pixels in one access of 32 bits. -/
def rgb565Row (dx y index : Nat) : List Sample :=
  let rp := u32 (src.w * y) + xOffset
  let bytes (x : Nat) : List Nat := [(rp + x) * 2, (rp + x) * 2 + 1]
  byTwos
    (fun x =>
      samples (index + x) (bytes x) (bytes (x + 1)) (rgb565PairToYcbcr (load32 src.data ((rp + x) * 2))))
    (fun x =>
      let pixel := load16 src.data ((rp + x) * 2)
      sample (index + x) (bytes x) (rgb888ToYcbcr (rgb565ToR8 pixel) (rgb565ToG8 pixel) (rgb565ToB8 pixel)))
    0 dx

/-- The row of a format that has the three components of pixel `x` at the addresses `place x`. -/
def componentRow (place : Nat → Nat × Nat × Nat) (dx index : Nat) : List Sample :=
  let r (x : Nat) : UInt8 := src.data (place x).1
  let g (x : Nat) : UInt8 := src.data (place x).2.1
  let b (x : Nat) : UInt8 := src.data (place x).2.2
  let bytes (x : Nat) : List Nat := [(place x).1, (place x).2.1, (place x).2.2]
  byTwos
    (fun x =>
      samples (index + x) (bytes x) (bytes (x + 1))
        (pairToYcbcr (pair (r x) (r (x + 1))) (pair (g x) (g (x + 1))) (pair (b x) (b (x + 1)))))
    (fun x => sample (index + x) (bytes x) (rgb888ToYcbcr (r x) (g x) (b x))) 0 dx

def rgb888Row (dx y index : Nat) : List Sample :=
  let rpStart := u32 (src.w * y * 3) + xOffset * 3
  componentRow src (fun x => (rpStart + x * 3, rpStart + x * 3 + 1, rpStart + x * 3 + 2)) dx index

def rgbp888Row (dx y index : Nat) : List Sample :=
  let planeSize := u32 (src.w * src.h)
  let row := src.w * y + xOffset
  componentRow src (fun x => (row + x, planeSize + row + x, planeSize + planeSize + row + x)) dx index

end Rows

/-- `for (y = y_offset, yy = y + dy; y < yy; y++)` with the entry of `Y0` that the row starts at. -/
def mcuRows (row : Nat → Nat → List Sample) (y index : Nat) : Nat → List Sample
  | 0 => []
  | left + 1 => row y index ++ mcuRows row (y + 1) (index + mcuW) left

def mcuSamples (src : ImageInfo) (xOffset yOffset dx dy : Nat) : List Sample :=
  match src.pixfmt with
  | .grayscale => mcuRows (grayscaleRow src xOffset dx) yOffset 0 dy
  | .rgb565 => mcuRows (rgb565Row src xOffset dx) yOffset 0 dy
  | .rgb888 => mcuRows (rgb888Row src xOffset dx) yOffset 0 dy
  | .rgbp888 => mcuRows (rgbp888Row src xOffset dx) yOffset 0 dy
  | .invalid => []

/-- The 64 entries of `Y0`, `CB` or `CR`. An entry is `none` as long as it has what an earlier block left in it. -/
abbrev Plane := Nat → Option UInt8

def Plane.zeros : Plane := fun index => if index < mcuSize then some 0 else none

def Plane.stale : Plane := fun _ => none

/-- One block of samples as `jpeg_get_mcu` or, past an edge, `rt_memset` leaves it. -/
structure Mcu where
  xOffset : Nat
  yOffset : Nat
  samples : List Sample
  y0 : Plane
  cb : Plane
  cr : Plane

def Plane.store (plane : Plane) (value : Sample → Option UInt8) (samples : List Sample) : Plane :=
  samples.foldl (fun plane sample => if (value sample).isSome then Function.update plane sample.index (value sample) else plane)
    plane

def jpegGetMcu (src : ImageInfo) (xOffset yOffset dx dy : Nat) : Mcu :=
  let samples := mcuSamples src xOffset yOffset dx dy
  let unsupported : Bool := src.pixfmt = .invalid
  let ragged : Bool := dx ≠ mcuW ∨ dy ≠ mcuH
  let y0 := if ragged ∨ unsupported then Plane.zeros else Plane.stale
  let chroma := if (ragged ∧ src.pixfmt ≠ .grayscale) ∨ unsupported then Plane.zeros else Plane.stale
  ⟨xOffset, yOffset, samples, y0.store (some ·.y) samples, chroma.store (·.chroma.map Prod.fst) samples,
    chroma.store (·.chroma.map Prod.snd) samples⟩

open Imaging (Format u32 u32Range)
open Stride (strides stridesUntil)

inductive Subsampling where
  | auto | s444 | s422 | s420
  deriving DecidableEq

/-- `IM_MIN` at an `int` and a `uint32_t`. The comparison is unsigned. -/
def imMin (a b : Nat) : Nat := if a < b then a else b

/-- `size - offset`, of a `uint32_t` and an `int`. -/
def remaining (size offset : Nat) : Nat := u32 (size + (u32Range - u32 offset))

def subsampling (src : ImageInfo) (quality : Int) (requested : Subsampling) : Subsampling :=
  if src.pixfmt = .grayscale then .s444
  else if requested = .auto then if quality ≤ 35 then .s420 else if quality < 60 then .s422 else .s444
  else requested

theorem subsampling_ne_auto (src : ImageInfo) (quality : Int) (requested : Subsampling) : subsampling src quality requested ≠ .auto := by
  unfold subsampling
  split
  · decide
  · split
    · split
      · decide
      · split <;> decide
    · assumption

def blank (xOffset yOffset : Nat) : Mcu := ⟨xOffset, yOffset, [], .zeros, .zeros, .zeros⟩

section Loops

variable (src : ImageInfo)

/-- One round of the loop over the columns. -/
def mcu444 (yOffset xOffset : Nat) : List Mcu :=
  let dy := imMin mcuH (remaining src.h yOffset)
  let dx := imMin mcuW (remaining src.w xOffset)
  [jpegGetMcu src xOffset yOffset dx dy]

def half (yOffset dy xOffset : Nat) : Mcu :=
  let dx := imMin mcuW (remaining src.w xOffset)
  if 0 < dx then jpegGetMcu src xOffset yOffset dx dy else blank xOffset yOffset

def mcu422 (yOffset xOffset : Nat) : List Mcu :=
  let dy := imMin mcuH (remaining src.h yOffset)
  [half src yOffset dy xOffset, half src yOffset dy (xOffset + mcuW)]

def quarter (yOffset xOffset : Nat) : Mcu :=
  let dy := imMin mcuH (remaining src.h yOffset)
  let dx := imMin mcuW (remaining src.w xOffset)
  if 0 < dx ∧ 0 < dy then jpegGetMcu src xOffset yOffset dx dy else blank xOffset yOffset

/-- `x_offset` and `y_offset` are set back after the two columns and the two rows. -/
def mcu420 (yOffset xOffset : Nat) : List Mcu :=
  [quarter src yOffset xOffset, quarter src yOffset (xOffset + mcuW), quarter src (yOffset + mcuH) xOffset,
    quarter src (yOffset + mcuH) (xOffset + mcuW)]

/-- The blocks of one row of rounds. -/
def mcuRow (step : Nat) (positive : 0 < step) (round : Nat → Nat → List Mcu) (yOffset : Nat) : List Mcu :=
  strides step src.w positive (round yOffset) 0

def encode (overflow : List Mcu → Bool) : Subsampling → List Mcu × Bool
  | .auto => ([], false)
  | .s444 => stridesUntil overflow mcuH src.h (by decide) (mcuRow src mcuW (by decide) (mcu444 src)) [] 0
  | .s422 => stridesUntil overflow mcuH src.h (by decide) (mcuRow src (mcuW * 2) (by decide) (mcu422 src)) [] 0
  | .s420 => stridesUntil overflow (mcuH * 2) src.h (by decide) (mcuRow src (mcuW * 2) (by decide) (mcu420 src)) [] 0

end Loops

/-- The result of `jpeg_compress` and the blocks it has gone through. `src` is `none` when it or its data is `NULL`, and
`dst` when one of the two pointers for the output is. `dst` has the size of the output buffer. -/
def jpegCompress (src : Option ImageInfo) (dst : Option Nat) (quality : Int) (requested : Subsampling)
    (overflow : List Mcu → Bool) : Int × List Mcu :=
  match src with
  | none => (-1, [])
  | some src =>
      if src.w = 0 ∨ src.h = 0 then (-1, [])
      else if dst = none ∨ dst = some 0 then (-1, [])
      else if src.pixfmt = .invalid then (-1, [])
      else
        let blocks := encode src overflow (subsampling src quality requested)
        (if blocks.2 then -2 else 0, blocks.1)

end ArduinoK210.Jpeg
