import ArduinoK210.Imaging.Convert
import ArduinoK210.Lib.Bilinear
import ArduinoK210.Lib.Gather

/-! The affine warp of a face. The matrix is exact, and its products fit an `int`; both images are
in memory, so that their places fit one too. -/

namespace ArduinoK210.Kpu.Face

open ArduinoK210.Imaging
open Bilinear (truncate)
open Gather (Step raster)

/-- The numerals are places of three. -/
local instance three_ne : NeZero 3 := ⟨Nat.succ_ne_zero 2⟩

abbrev Matrix := Fin 2 → Fin 3 → ℚ

/-- A coordinate of the source for a pixel of the destination, in units of 1/256. -/
def project (T : Matrix) (axis : Fin 2) (i j : Nat) : Int :=
  truncate (T axis 0 * (j * 256 : Nat) + T axis 1 * (i * 256 : Nat) + T axis 2 * 256)

def pre (T : Matrix) (axis : Fin 2) (i j : Nat) : Int := project T axis i j / 256

def fraction (T : Matrix) (axis : Fin 2) (i j : Nat) : Nat := (project T axis i j % 256).toNat

/-- The guard of the inner loop. -/
def Skips (src : Image) (T : Matrix) (i j : Nat) : Prop :=
  pre T 0 i j < 0 ∨ (src.width : Int) - 1 < pre T 0 i j ∨ pre T 1 i j < 0 ∨ (src.height : Int) - 1 < pre T 1 i j

instance (src : Image) (T : Matrix) (i j : Nat) : Decidable (Skips src T i j) := inferInstanceAs (Decidable (_ ∨ _))

def blend (x y : Nat) (c00 c10 c01 c11 : UInt8) : UInt8 :=
  UInt8.ofNat (((256 - x) * (256 - y) * c00.toNat + x * (256 - y) * c10.toNat + (256 - x) * y * c01.toNat + x * y * c11.toNat) >>> 16)

/-- The assignment of channel `k` of a pixel. -/
def tap (src dst : Image) (T : Matrix) (i j k : Nat) : Step UInt8 :=
  let step : Int := src.width
  let colorStep : Int := src.width * src.height
  let x := pre T 0 i j
  let y := pre T 1 i j
  ⟨(i * dst.width + j + k * (dst.width * dst.height) : Nat),
    [y * step + x + k * colorStep, y * step + (x + 1) + k * colorStep, (y + 1) * step + x + k * colorStep,
      (y + 1) * step + (x + 1) + k * colorStep],
    fun samples =>
      match samples with
      | [c00, c10, c01, c11] => some (blend (fraction T 0 i j) (fraction T 1 i j) c00 c10 c01 c11)
      | _ => none⟩

def taps (src dst : Image) (T : Matrix) (i j : Nat) : List (Step UInt8) :=
  if Skips src T i j then [] else (List.range src.bpp).map (tap src dst T i j)

/-- `apply_affine_transform`; a run that leaves one of the buffers has no result. -/
def applyAffineTransform (src dst : Image) (T : Matrix) : Option (Int × Image) :=
  if src.format ≠ .rgbp888 ∨ dst.format ≠ .rgbp888 then some (-1, dst)
  else
    match src.pixel, dst.pixel with
    | some source, some buffer =>
        let size := dst.width * dst.height * dst.bpp
        (Gather.run source (src.width * src.height * src.bpp) size (raster dst.height dst.width (taps src dst T))
          fun place => if place < size then 0 else buffer place).map fun filled => (0, { dst with pixel := some filled })
    | _, _ => some (-2, dst)

/-- The reads of a channel stay in its plane, and what is written lies between samples that were read. -/
structure Faithful (src dst : Image) (T : Matrix) : Prop where
  reads : ∀ i j k, i < dst.height → j < dst.width → ¬Skips src T i j → k < 3 → ∀ place ∈ (tap src dst T i j k).reads,
    (k * (src.width * src.height) : Nat) ≤ place ∧ place < ((k + 1) * (src.width * src.height) : Nat) ∧
      place < (src.width * src.height * 3 : Nat)
  between : ∀ i j k, i < dst.height → j < dst.width → ¬Skips src T i j → k < 3 → ∀ source : Nat → UInt8,
    ∃ value, (tap src dst T i j k).result source = some value ∧
      (∃ place ∈ (tap src dst T i j k).reads, source place.toNat ≤ value) ∧
        ∃ place ∈ (tap src dst T i j k).reads, value ≤ source place.toNat
  returns : (applyAffineTransform src dst T).isSome

variable {src dst : Image} {T : Matrix}

end ArduinoK210.Kpu.Face
