import ArduinoK210.Imaging.RoundTrip

/-! `Image::cut`, and `Image::cut_to_new_format` with its own loop for each pair of formats. -/

namespace ArduinoK210.Imaging

open Nor (put slice)
open Raster (sweep lay)

structure Rectangle where
  x : Int16
  y : Int16
  w : Int16
  h : Int16

def toU32 (value : Int) : Nat := (value % u32Range).toNat

namespace Rectangle

def left (r : Rectangle) : Nat := toU32 r.x.toInt
def top (r : Rectangle) : Nat := toU32 r.y.toInt
def width (r : Rectangle) : Nat := toU32 r.w.toInt
def height (r : Rectangle) : Nat := toU32 r.h.toInt

def TooLarge (r : Rectangle) (src : Image) : Prop :=
  r.left > src.width ∨ toU32 (r.x.toInt + r.w.toInt) > src.width ∨ r.top > src.height ∨
    toU32 (r.y.toInt + r.h.toInt) > src.height

instance (r : Rectangle) (src : Image) : Decidable (r.TooLarge src) := inferInstanceAs (Decidable (_ ∨ _))

structure Inside (r : Rectangle) (src : Image) : Prop where
  left : 0 ≤ r.x.toInt
  top : 0 ≤ r.y.toInt
  width : 0 < r.w.toInt
  height : 0 < r.h.toInt
  right : r.x.toInt + r.w.toInt ≤ src.width
  bottom : r.y.toInt + r.h.toInt ≤ src.height

end Rectangle

namespace Image

def pixelPtr (image : Image) (x y : Nat) : Nat := (y * image.width + x) * image.bpp

def copyPlane (src : Image) (r : Rectangle) (source : Nat → UInt8) (c : Nat) (mem : Nat → UInt8) : Nat → UInt8 :=
  lay (r.width * r.height * c) r.width r.height
    (fun i => slice source (src.width * (i + r.top) + r.left + src.width * src.height * c) r.width) mem

def cutLoop (src : Image) (r : Rectangle) (source buffer : Nat → UInt8) : Option (Nat → UInt8) :=
  match src.format with
  | .grayscale | .rgb565 | .rgb888 =>
      some (lay 0 (r.width * src.bpp) r.height
        (fun i => slice source ((src.width * (i + r.top) + r.left) * src.bpp) (r.width * src.bpp)) buffer)
  | .rgbp888 => some (src.copyPlane r source 2 (src.copyPlane r source 1 (src.copyPlane r source 0 buffer)))
  | .invalid => none

def cut (malloc : Nat → Option (Nat → UInt8)) (src dst : Image) (r : Rectangle) (create : Bool) : Int × Image :=
  match src.pixel with
  | none => (-1, dst)
  | some source =>
      if create = false ∧ dst.pixel.isNone then (-1, dst)
      else if r.TooLarge src then (-1, dst)
      else
        let buffer := if create then malloc (u32 (r.width * r.height * src.bpp)) else dst.pixel
        let shaped : Image := ⟨r.width, r.height, src.bpp, src.format, buffer⟩
        match buffer with
        | none => (-1, shaped)
        | some buffer =>
            match src.cutLoop r source buffer with
            | none => (-1, shaped)
            | some filled => (0, { shaped with pixel := some filled })

def packRows (r : Rectangle) (size : Nat) (cell : Nat → Nat → List UInt8) (buffer : Nat → UInt8) : Nat → UInt8 :=
  sweep r.height (fun y => sweep r.width fun x mem => put mem (y * r.width * size + x * size) (cell y x)) buffer

def planeRows (r : Rectangle) (cell : Nat → Nat → UInt8 × UInt8 × UInt8) (buffer : Nat → UInt8) : Nat → UInt8 :=
  let plane := r.width * r.height
  sweep r.height (fun y => sweep r.width fun x mem =>
    let offset := y * r.width + x
    put (put (put mem offset [(cell y x).1]) (plane + offset) [(cell y x).2.1]) (plane + plane + offset) [(cell y x).2.2])
    buffer

def lumaThousandths (rgb : UInt8 × UInt8 × UInt8) : UInt8 :=
  UInt8.ofNat ((299 * rgb.1.toNat + 587 * rgb.2.1.toNat + 114 * rgb.2.2.toNat) / 1000)

def rowWord (src : Image) (r : Rectangle) (source : Nat → UInt8) (y x : Nat) : UInt16 :=
  load16 source (src.pixelPtr r.left (r.top + y) + x * 2)

/-- The pixel of a row pointer to `uint8_t`, which moves by one byte. -/
def rowByte (src : Image) (r : Rectangle) (source : Nat → UInt8) (y x : Nat) : UInt16 :=
  (source (src.pixelPtr r.left (r.top + y) + x)).toUInt16

def rowRgb (src : Image) (r : Rectangle) (source : Nat → UInt8) (y x : Nat) : UInt8 × UInt8 × UInt8 :=
  let start := src.pixelPtr r.left (r.top + y) + x * 3
  (source start, source (start + 1), source (start + 2))

def rowPlanes (src : Image) (r : Rectangle) (source : Nat → UInt8) (y x : Nat) : UInt8 × UInt8 × UInt8 :=
  let offset := (r.top + y) * src.width + r.left + x
  let plane := src.width * src.height
  (source offset, source (plane + offset), source (plane + plane + offset))

def fusedLoop (src : Image) (r : Rectangle) (format : Format) (source buffer : Nat → UInt8) : Option (Nat → UInt8) :=
  if src.format = format then
    if format = .rgbp888 then
      some (sweep src.bpp (fun c mem => lay (r.width * r.height * c) r.width r.height
        (fun y => slice source (src.width * src.height * c + (r.top + y) * src.width + r.left) r.width) mem) buffer)
    else
      some (lay 0 (r.width * format.bpp) r.height
        (fun y => slice source (src.pixelPtr r.left (r.top + y)) (r.width * format.bpp)) buffer)
  else match src.format, format with
    | .rgb565, .rgbp888 => some (planeRows r (fun y x => rgb565Bytes (src.rowWord r source y x)) buffer)
    | .rgb565, .rgb888 => some (packRows r 3 (fun y x => rgbBytes (rgb565Bytes (src.rowByte r source y x))) buffer)
    | .rgb565, .grayscale => some (packRows r 1 (fun y x => [rgb565ToY (src.rowWord r source y x)]) buffer)
    | .rgb888, .rgb565 => some (packRows r 2 (fun y x => bytes16 (toWord (src.rowRgb r source y x))) buffer)
    | .rgb888, .rgbp888 => some (planeRows r (src.rowRgb r source) buffer)
    | .rgb888, .grayscale => some (packRows r 1 (fun y x => [lumaThousandths (src.rowRgb r source y x)]) buffer)
    | .rgbp888, .rgb565 => some (packRows r 2 (fun y x => bytes16 (toWord (src.rowPlanes r source y x))) buffer)
    | .rgbp888, .rgb888 => some (packRows r 3 (fun y x => rgbBytes (src.rowPlanes r source y x)) buffer)
    | .rgbp888, .grayscale => some (packRows r 1 (fun y x => [lumaThousandths (src.rowPlanes r source y x)]) buffer)
    | _, _ => none

/-- The destination is made as by `CREATE_DEST_IMAGE`, in the size of the rectangle. -/
def cutToNewFormat (malloc : Nat → Option (Nat → UInt8)) (src dst : Image) (r : Rectangle) (format : Format)
    (create : Bool) : Int × Image :=
  match src.pixel with
  | none => (-1, dst)
  | some source =>
      if r.TooLarge src then (-1, dst)
      else
        match createDestImage malloc format { src with width := r.width, height := r.height } dst create with
        | (none, dst) => (-1, dst)
        | (some buffer, dst) =>
            match src.fusedLoop r format source buffer with
            | none => (-1, dst)
            | some filled => (0, { dst with pixel := some filled })

end Image
end ArduinoK210.Imaging
