import ArduinoK210.Imaging.RoundTrip
import ArduinoK210.Jpeg.Reads
import ArduinoK210.Lib.Lanes

/-! The colours of a block. Two pixels at once come out as one by one, and a picture has the same blocks in each of the three
colour formats. -/

namespace ArduinoK210.Jpeg

open Imaging (Format u32 u32Range load16 rgb565ToR8 rgb565ToG8 rgb565ToB8 rgb565Bytes)
open Lanes (Holds)

section Pairs

variable (r0 r1 g0 g1 b0 b1 : UInt8)

end Pairs

section Masks

variable (pixel : UInt16)

end Masks

section Pixels

variable (first second : UInt16)

end Pixels

/-- What is stored, and where. -/
def Sample.colour (sample : Sample) : Nat × UInt8 × Option (UInt8 × UInt8) := (sample.index, sample.y, sample.chroma)

def painted (index : Nat) (rgb : UInt8 × UInt8 × UInt8) : Nat × UInt8 × Option (UInt8 × UInt8) :=
  (index, (rgb888ToYcbcr rgb.1 rgb.2.1 rgb.2.2).1, some (rgb888ToYcbcr rgb.1 rgb.2.1 rgb.2.2).2)

/-- The components of pixel `i`, as the conversions to the RGB formats have them. -/
def ImageInfo.rgb (src : ImageInfo) (i : Nat) : UInt8 × UInt8 × UInt8 :=
  match src.pixfmt with
  | .rgb565 => rgb565Bytes (Imaging.Image.rgb565At src.data i)
  | .rgb888 => Imaging.Image.rgb888At src.data i
  | .rgbp888 => Imaging.Image.rgbp888At (src.w * src.h) src.data i
  | _ => (0, 0, 0)

section Rows

variable {src : ImageInfo} {xOffset dx : Nat}

def Paints (src : ImageInfo) (xOffset dx : Nat) (row : Nat → Nat → List Sample) : Prop :=
  ∀ y index, y < src.h →
    (row y index).map Sample.colour = (List.range dx).map fun k => painted (index + k) (src.rgb (src.w * y + (xOffset + k)))

variable (fits : src.w * src.h * 3 < u32Range)
include fits

end Rows

def Mcu.blocks (mcu : Mcu) : Plane × Plane × Plane := (mcu.y0, mcu.cb, mcu.cr)

section Conversions

open Imaging.Image (Into Converted)

variable {src out : Imaging.Image}

end Conversions

end ArduinoK210.Jpeg
