import ArduinoK210.Lib.Raster
import Mathlib.Tactic.IntervalCases

/-! Pixel formats and the colour macros of `imlib.h`. -/

namespace ArduinoK210.Imaging

inductive Format where
  | grayscale | rgb565 | rgb888 | rgbp888 | invalid
  deriving DecidableEq

def Format.bpp : Format → Nat
  | .grayscale => 1
  | .rgb565 => 2
  | .rgb888 | .rgbp888 => 3
  | .invalid => 0

def Format.layout : Format → Raster.Layout
  | .rgbp888 => .planar
  | _ => .packed

def rgb565ToR8 (pixel : UInt16) : UInt8 :=
  let masked := (pixel >>> 8) &&& 0xf8
  (masked ||| (masked >>> 5)).toUInt8

def rgb565ToG8 (pixel : UInt16) : UInt8 :=
  let masked := (pixel >>> 3) &&& 0xfc
  (masked ||| (masked >>> 6)).toUInt8

def rgb565ToB8 (pixel : UInt16) : UInt8 :=
  let masked := (pixel <<< 3) &&& 0xf8
  (masked ||| (masked >>> 5)).toUInt8

def r8G8B8ToRgb565 (r8 g8 b8 : UInt8) : UInt16 :=
  ((r8.toUInt16 &&& 0xf8) <<< 8) ||| ((g8.toUInt16 &&& 0xfc) <<< 3) ||| (b8.toUInt16 >>> 3)

def rgb888ToY (r8 g8 b8 : UInt8) : UInt8 := UInt8.ofNat ((r8.toNat * 38 + g8.toNat * 75 + b8.toNat * 15) >>> 7)

def rgb565ToY (pixel : UInt16) : UInt8 := rgb888ToY (rgb565ToR8 pixel) (rgb565ToG8 pixel) (rgb565ToB8 pixel)

def usat8 (value : Int) : UInt8 := UInt8.ofNat (max (min value 255) 0).toNat

def yuvToRgb888 (y : UInt8) (u v : Int) : UInt8 × UInt8 × UInt8 :=
  (usat8 (y.toNat + 91881 * v / 65536), usat8 (y.toNat - (22554 * u + 46802 * v) / 65536),
    usat8 (y.toNat + 116130 * u / 65536))

def imlibYuvToRgb (y : UInt8) (u v : Int) : UInt16 :=
  let rgb := yuvToRgb888 y u v
  r8G8B8ToRgb565 rgb.1 rgb.2.1 rgb.2.2

/-- The sum is passed on as a `uint8_t`. -/
def yuvToRgb565 (y : UInt8) (u v : Int) : UInt16 := imlibYuvToRgb (y + 128) u v

def load16 (mem : Nat → UInt8) (address : Nat) : UInt16 :=
  (mem address).toUInt16 ||| ((mem (address + 1)).toUInt16 <<< 8)

def bytes16 (value : UInt16) : List UInt8 := [value.toUInt8, (value >>> 8).toUInt8]

def rgb565Bytes (pixel : UInt16) : UInt8 × UInt8 × UInt8 := (rgb565ToR8 pixel, rgb565ToG8 pixel, rgb565ToB8 pixel)

/-- Packing drops what the expansion has replicated. -/
theorem rgb565_expanded (pixel : UInt16) :
    r8G8B8ToRgb565 (rgb565ToR8 pixel) (rgb565ToG8 pixel) (rgb565ToB8 pixel) = pixel := by
  apply UInt16.eq_of_toBitVec_eq
  simp only [r8G8B8ToRgb565, rgb565ToR8, rgb565ToG8, rgb565ToB8, UInt16.toBitVec_or, UInt16.toBitVec_and,
    UInt16.toBitVec_shiftLeft, UInt16.toBitVec_shiftRight, UInt8.toBitVec_toUInt16, UInt16.toBitVec_toUInt8,
    UInt16.toBitVec_ofNat]
  generalize pixel.toBitVec = bits
  ext i inside
  simp
  interval_cases i <;> simp

theorem rgb565Bytes_injective : Function.Injective rgb565Bytes := by
  intro first second same
  rw [← rgb565_expanded first, ← rgb565_expanded second]
  simp only [rgb565Bytes, Prod.mk.injEq] at same
  rw [same.1, same.2.1, same.2.2]

theorem bytes16_injective : Function.Injective bytes16 := by
  intro first second same
  simp only [bytes16, List.cons.injEq, and_true] at same
  have low := congrArg UInt8.toNat same.1
  have high := congrArg UInt8.toNat same.2
  simp only [UInt16.toNat_toUInt8, UInt16.toNat_shiftRight] at low high
  have one := first.toNat_lt
  have two := second.toNat_lt
  rw [← UInt16.toNat_inj]
  have eight : UInt16.toNat 8 % 16 = 8 := rfl
  simp only [eight, Nat.shiftRight_eq_div_pow] at high
  omega

theorem bytes_word (low high : UInt8) : bytes16 (low.toUInt16 ||| (high.toUInt16 <<< 8)) = [low, high] := by
  have first : (low.toUInt16 ||| (high.toUInt16 <<< 8)).toUInt8 = low := by
    apply UInt8.eq_of_toBitVec_eq
    simp only [UInt16.toBitVec_or, UInt16.toBitVec_shiftLeft, UInt8.toBitVec_toUInt16, UInt16.toBitVec_toUInt8,
      UInt16.toBitVec_ofNat]
    generalize low.toBitVec = lowBits
    generalize high.toBitVec = highBits
    ext i inside
    simp
  have second : ((low.toUInt16 ||| (high.toUInt16 <<< 8)) >>> 8).toUInt8 = high := by
    apply UInt8.eq_of_toBitVec_eq
    simp only [UInt16.toBitVec_or, UInt16.toBitVec_shiftLeft, UInt16.toBitVec_shiftRight, UInt8.toBitVec_toUInt16,
      UInt16.toBitVec_toUInt8, UInt16.toBitVec_ofNat]
    generalize low.toBitVec = lowBits
    generalize high.toBitVec = highBits
    ext i inside
    simp
    interval_cases i <;> simp
  rw [bytes16, first, second]

private theorem load16_toNat (mem : Nat → UInt8) (address : Nat) :
    (load16 mem address).toNat = (mem address).toNat + 256 * (mem (address + 1)).toNat := by
  have low := (mem address).toNat_lt
  have high := (mem (address + 1)).toNat_lt
  have joined := Nat.shiftLeft_add_eq_or_of_lt (i := 8) low (mem (address + 1)).toNat
  have fits : (mem (address + 1)).toNat <<< 8 < 65536 := by
    rw [Nat.shiftLeft_eq]
    omega
  calc (load16 mem address).toNat
      = (mem address).toNat ||| (mem (address + 1)).toNat <<< 8 % 65536 := by simp [load16]
    _ = (mem address).toNat ||| (mem (address + 1)).toNat <<< 8 := by rw [Nat.mod_eq_of_lt fits]
    _ = (mem (address + 1)).toNat <<< 8 + (mem address).toNat := by rw [joined, Nat.or_comm]
    _ = (mem address).toNat + 256 * (mem (address + 1)).toNat := by
      rw [Nat.shiftLeft_eq]
      omega

theorem load16_byte_iff (mem : Nat → UInt8) (address : Nat) (byte : UInt8) :
    byte.toUInt16 = load16 mem address ↔ mem address = byte ∧ mem (address + 1) = 0 := by
  rw [← UInt16.toNat_inj, UInt8.toNat_toUInt16, load16_toNat, ← UInt8.toNat_inj, ← UInt8.toNat_inj]
  have low := (mem address).toNat_lt
  have most := byte.toNat_lt
  have zero : (0 : UInt8).toNat = 0 := rfl
  omega

theorem load16_zero_iff (mem : Nat → UInt8) (address : Nat) :
    load16 mem address = 0 ↔ mem address = 0 ∧ mem (address + 1) = 0 :=
  eq_comm.trans (load16_byte_iff mem address 0)

end ArduinoK210.Imaging
