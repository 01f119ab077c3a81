import ArduinoK210.Imaging.Color

/-! `Image` and its conversions between formats, each a loop over the pixels. -/

namespace ArduinoK210.Imaging

open Nor (put slice)
open Raster (lay spread)

def u32Range : Nat := 4294967296

def u32 (value : Nat) : Nat := value % u32Range

theorem u32_fits {value : Nat} (small : value < u32Range) : u32 value = value := Nat.mod_eq_of_lt small

structure Image where
  width : Nat
  height : Nat
  bpp : Nat
  format : Format
  pixel : Option (Nat → UInt8)

namespace Image

def plane (image : Image) : Nat := u32 (image.width * image.height)

def iterations (image : Image) (bpp : Nat) : Nat := u32 (image.width * image.height * bpp) / bpp

/-- `CREATE_DEST_IMAGE`: the buffer to fill, if there is one, and what becomes of `dst`. -/
def createDestImage (malloc : Nat → Option (Nat → UInt8)) (format : Format) (src dst : Image) (create : Bool) :
    Option (Nat → UInt8) × Image :=
  if create then
    let fresh := malloc (u32 (src.width * src.height * format.bpp))
    (fresh, ⟨src.width, src.height, format.bpp, format, fresh⟩)
  else if src.width ≠ dst.width ∨ src.height ≠ dst.height ∨ dst.bpp ≠ format.bpp ∨ dst.format ≠ format then (none, dst)
  else (dst.pixel, dst)

/-- The frame of every conversion. `loop` is its `switch` on the format of `src`. -/
def convert (format : Format) (loop : Image → (Nat → UInt8) → (Nat → UInt8) → Option (Nat → UInt8))
    (malloc : Nat → Option (Nat → UInt8)) (src dst : Image) (create : Bool) : Int × Image :=
  match src.pixel with
  | none => (-1, dst)
  | some source =>
      match createDestImage malloc format src dst create with
      | (none, dst) => (-1, dst)
      | (some buffer, dst) =>
          match loop src source buffer with
          | none => (-1, dst)
          | some filled => (0, { dst with pixel := some filled })

def memcpyAll (src : Image) (source buffer : Nat → UInt8) : Nat → UInt8 :=
  put buffer 0 (slice source 0 (u32 (src.width * src.height * src.bpp)))

def rgb565At (source : Nat → UInt8) (i : Nat) : UInt16 := load16 source (i * 2)

def rgb888At (source : Nat → UInt8) (i : Nat) : UInt8 × UInt8 × UInt8 :=
  (source (i * 3), source (i * 3 + 1), source (i * 3 + 2))

def rgbp888At (plane : Nat) (source : Nat → UInt8) (i : Nat) : UInt8 × UInt8 × UInt8 :=
  (source i, source (plane + i), source (plane + plane + i))

def toY (rgb : UInt8 × UInt8 × UInt8) : UInt8 := rgb888ToY rgb.1 rgb.2.1 rgb.2.2

def toWord (rgb : UInt8 × UInt8 × UInt8) : UInt16 := r8G8B8ToRgb565 rgb.1 rgb.2.1 rgb.2.2

def rgbBytes (rgb : UInt8 × UInt8 × UInt8) : List UInt8 := [rgb.1, rgb.2.1, rgb.2.2]

def grayscaleLoop (src : Image) (source buffer : Nat → UInt8) : Option (Nat → UInt8) :=
  let count := src.iterations 1
  match src.format with
  | .grayscale => some (src.memcpyAll source buffer)
  | .rgb565 => some (lay 0 1 count (fun i => [rgb565ToY (rgb565At source i)]) buffer)
  | .rgb888 => some (lay 0 1 count (fun i => [toY (rgb888At source i)]) buffer)
  | .rgbp888 => some (lay 0 1 count (fun i => [toY (rgbp888At src.plane source i)]) buffer)
  | .invalid => none

def rgb565Loop (src : Image) (source buffer : Nat → UInt8) : Option (Nat → UInt8) :=
  let count := src.plane
  match src.format with
  | .grayscale => some (lay 0 2 count (fun i => bytes16 (yuvToRgb565 (source i) 0 0)) buffer)
  | .rgb565 => some (src.memcpyAll source buffer)
  | .rgb888 => some (lay 0 2 count (fun i => bytes16 (toWord (rgb888At source i))) buffer)
  | .rgbp888 => some (lay 0 2 count (fun i => bytes16 (toWord (rgbp888At src.plane source i))) buffer)
  | .invalid => none

def rgb888Loop (src : Image) (source buffer : Nat → UInt8) : Option (Nat → UInt8) :=
  let count := src.iterations 3
  match src.format with
  | .grayscale => some (lay 0 3 count (fun i => rgbBytes (yuvToRgb888 (source i) 0 0)) buffer)
  | .rgb565 => some (lay 0 3 count (fun i => rgbBytes (rgb565Bytes (rgb565At source i))) buffer)
  | .rgb888 => some (src.memcpyAll source buffer)
  | .rgbp888 => some (lay 0 3 count (fun i => rgbBytes (rgbp888At src.plane source i)) buffer)
  | .invalid => none

def rgbp888Loop (src : Image) (source buffer : Nat → UInt8) : Option (Nat → UInt8) :=
  match src.format with
  | .grayscale => some (spread src.plane src.plane (fun i => yuvToRgb888 (source i) 0 0) buffer)
  | .rgb565 => some (spread src.plane src.plane (fun i => rgb565Bytes (rgb565At source i)) buffer)
  | .rgb888 => some (spread src.plane src.plane (rgb888At source) buffer)
  | .rgbp888 => some (src.memcpyAll source buffer)
  | .invalid => none

def toGrayscale := convert .grayscale grayscaleLoop

def toRgb565 := convert .rgb565 rgb565Loop

def toRgb888 := convert .rgb888 rgb888Loop

def toRgbp888 := convert .rgbp888 rgbp888Loop

end Image

/-- The bytes of pixel `i` in a buffer of `count` pixels. -/
def Format.texel (format : Format) (count : Nat) (mem : Nat → UInt8) (i : Nat) : List UInt8 :=
  format.layout.texel count format.bpp mem i

def firstOf (bytes : List UInt8) : UInt8 := bytes.getD 0 0

def wordOf (bytes : List UInt8) : UInt16 := (bytes.getD 0 0).toUInt16 ||| ((bytes.getD 1 0).toUInt16 <<< 8)

def rgbOf (bytes : List UInt8) : UInt8 × UInt8 × UInt8 := (bytes.getD 0 0, bytes.getD 1 0, bytes.getD 2 0)

/-- What a conversion makes of the bytes of one pixel. -/
def convertPixel : Format → Format → List UInt8 → List UInt8
  | .grayscale, .rgb565, bytes => bytes16 (yuvToRgb565 (firstOf bytes) 0 0)
  | .grayscale, .rgb888, bytes | .grayscale, .rgbp888, bytes => Image.rgbBytes (yuvToRgb888 (firstOf bytes) 0 0)
  | .rgb565, .grayscale, bytes => [rgb565ToY (wordOf bytes)]
  | .rgb565, .rgb888, bytes | .rgb565, .rgbp888, bytes => Image.rgbBytes (rgb565Bytes (wordOf bytes))
  | .rgb888, .grayscale, bytes | .rgbp888, .grayscale, bytes => [Image.toY (rgbOf bytes)]
  | .rgb888, .rgb565, bytes | .rgbp888, .rgb565, bytes => bytes16 (Image.toWord (rgbOf bytes))
  | _, _, bytes => bytes

private theorem texel_grayscale (count : Nat) (mem : Nat → UInt8) (i : Nat) : Format.texel .grayscale count mem i = [mem i] := by
  simp [Format.texel, Format.layout, Format.bpp, Raster.Layout.texel, Raster.Layout.address]

private theorem texel_rgb565 (count : Nat) (mem : Nat → UInt8) (i : Nat) :
    Format.texel .rgb565 count mem i = [mem (i * 2), mem (i * 2 + 1)] := by
  simp [Format.texel, Format.layout, Format.bpp, Raster.Layout.texel, Raster.Layout.address, List.range_succ]

theorem texel_rgb888 (count : Nat) (mem : Nat → UInt8) (i : Nat) :
    Format.texel .rgb888 count mem i = Image.rgbBytes (Image.rgb888At mem i) := by
  simp [Format.texel, Format.layout, Format.bpp, Raster.Layout.texel, Raster.Layout.address, List.range_succ,
    Image.rgbBytes, Image.rgb888At]

theorem texel_rgbp888 (count : Nat) (mem : Nat → UInt8) (i : Nat) :
    Format.texel .rgbp888 count mem i = Image.rgbBytes (Image.rgbp888At count mem i) := by
  simp [Format.texel, Format.layout, Format.bpp, Raster.Layout.texel, Raster.Layout.address, List.range_succ,
    Image.rgbBytes, Image.rgbp888At, Nat.two_mul]

theorem wordOf_texel (count : Nat) (mem : Nat → UInt8) (i : Nat) :
    wordOf (Format.texel .rgb565 count mem i) = Image.rgb565At mem i := by
  rw [texel_rgb565]
  rfl

namespace Image

structure Sized (image : Image) : Prop where
  bpp : image.bpp = image.format.bpp
  size : image.width * image.height * 3 < u32Range

def count (image : Image) : Nat := image.width * image.height

variable {src : Image}

private theorem Sized.plane (sized : src.Sized) : src.plane = src.count := by
  have size := sized.size
  exact Nat.mod_eq_of_lt (by unfold u32Range at *; omega)

private theorem Sized.iterations (sized : src.Sized) {bpp : Nat} (positive : 0 < bpp) (most : bpp ≤ 3) :
    src.iterations bpp = src.count := by
  have size := sized.size
  have bound : src.width * src.height * bpp ≤ src.width * src.height * 3 := Nat.mul_le_mul_left _ most
  rw [Image.iterations, u32, Nat.mod_eq_of_lt (by omega), Nat.mul_div_cancel _ positive]
  rfl

theorem Sized.whole (sized : src.Sized) : u32 (src.width * src.height * src.bpp) = src.count * src.format.bpp := by
  have size := sized.size
  have most : src.format.bpp ≤ 3 := by cases src.format <;> simp [Format.bpp]
  have bound : src.width * src.height * src.format.bpp ≤ src.width * src.height * 3 := Nat.mul_le_mul_left _ most
  rw [sized.bpp, u32, Nat.mod_eq_of_lt (by omega)]
  rfl

private theorem Sized.copied (sized : src.Sized) {format : Format} (kind : src.format = format) (source buffer : Nat → UInt8) {i : Nat}
    (inside : i < src.count) :
    format.texel src.count (src.memcpyAll source buffer) i = format.texel src.count source i := by
  have same : slice (src.memcpyAll source buffer) 0 (src.count * format.bpp) = slice source 0 (src.count * format.bpp) := by
    rw [memcpyAll, sized.whole, kind]
    have put := Memory.slice_put buffer 0 (slice source 0 (src.count * format.bpp))
    rwa [Nor.slice_length] at put
  exact (format.layout.slice_eq_iff _ _ _ _).mp same i inside

def Fills (format : Format) (loop : Image → (Nat → UInt8) → (Nat → UInt8) → Option (Nat → UInt8)) : Prop :=
  ∀ src source buffer filled, src.Sized → loop src source buffer = some filled → ∀ i, i < src.count →
    format.texel src.count filled i = convertPixel src.format format (src.format.texel src.count source i)

private theorem texel_lay {format : Format} (packed : format.layout = .packed) {count : Nat} {chunk : Nat → List UInt8}
    (sized : ∀ i, i < count → (chunk i).length = format.bpp) (buffer : Nat → UInt8) {i : Nat} (inside : i < count) :
    format.texel count (lay 0 format.bpp count chunk buffer) i = chunk i := by
  rw [Format.texel, packed]
  exact Raster.texel_lay sized buffer inside

theorem grayscaleLoop_fills : Fills .grayscale grayscaleLoop := by
  intro src source buffer filled sized done i inside
  have count : src.iterations 1 = src.count := sized.iterations (by omega) (by omega)
  have lays : ∀ chunk : Nat → List UInt8, (∀ i, (chunk i).length = 1) →
      Format.grayscale.texel src.count (lay 0 1 src.count chunk buffer) i = chunk i :=
    fun chunk one => texel_lay rfl (fun i _ => one i) buffer inside
  unfold grayscaleLoop at done
  cases format : src.format with
  | grayscale =>
    simp only [format, Option.some.injEq] at done
    rw [← done]
    exact sized.copied format source buffer inside
  | rgb565 =>
    simp only [format, Option.some.injEq, count] at done
    rw [← done, lays _ fun _ => rfl, convertPixel, wordOf_texel]
  | rgb888 =>
    simp only [format, Option.some.injEq, count] at done
    rw [← done, lays _ fun _ => rfl, texel_rgb888]
    rfl
  | rgbp888 =>
    simp only [format, Option.some.injEq, count, sized.plane] at done
    rw [← done, lays _ fun _ => rfl, texel_rgbp888]
    rfl
  | invalid =>
    simp only [format] at done
    cases done

theorem rgb565Loop_fills : Fills .rgb565 rgb565Loop := by
  intro src source buffer filled sized done i inside
  have lays : ∀ chunk : Nat → List UInt8, (∀ i, (chunk i).length = 2) →
      Format.rgb565.texel src.count (lay 0 2 src.count chunk buffer) i = chunk i :=
    fun chunk two => texel_lay rfl (fun i _ => two i) buffer inside
  unfold rgb565Loop at done
  cases format : src.format with
  | grayscale =>
    simp only [format, Option.some.injEq, sized.plane] at done
    rw [← done, lays _ fun _ => rfl, texel_grayscale]
    rfl
  | rgb565 =>
    simp only [format, Option.some.injEq] at done
    rw [← done]
    exact sized.copied format source buffer inside
  | rgb888 =>
    simp only [format, Option.some.injEq, sized.plane] at done
    rw [← done, lays _ fun _ => rfl, texel_rgb888]
    rfl
  | rgbp888 =>
    simp only [format, Option.some.injEq, sized.plane] at done
    rw [← done, lays _ fun _ => rfl, texel_rgbp888]
    rfl
  | invalid =>
    simp only [format] at done
    cases done

theorem rgb888Loop_fills : Fills .rgb888 rgb888Loop := by
  intro src source buffer filled sized done i inside
  have count : src.iterations 3 = src.count := sized.iterations (by omega) (by omega)
  have lays : ∀ chunk : Nat → List UInt8, (∀ i, (chunk i).length = 3) →
      Format.rgb888.texel src.count (lay 0 3 src.count chunk buffer) i = chunk i :=
    fun chunk three => texel_lay rfl (fun i _ => three i) buffer inside
  unfold rgb888Loop at done
  cases format : src.format with
  | grayscale =>
    simp only [format, Option.some.injEq, count] at done
    rw [← done, lays _ fun _ => rfl, texel_grayscale]
    rfl
  | rgb565 =>
    simp only [format, Option.some.injEq, count] at done
    rw [← done, lays _ fun _ => rfl, convertPixel, wordOf_texel]
  | rgb888 =>
    simp only [format, Option.some.injEq] at done
    rw [← done]
    exact sized.copied format source buffer inside
  | rgbp888 =>
    simp only [format, Option.some.injEq, count, sized.plane] at done
    rw [← done, lays _ fun _ => rfl, texel_rgbp888]
    rfl
  | invalid =>
    simp only [format] at done
    cases done

theorem rgbp888Loop_fills : Fills .rgbp888 rgbp888Loop := by
  intro src source buffer filled sized done i inside
  have spreads : ∀ cell : Nat → UInt8 × UInt8 × UInt8,
      Format.rgbp888.texel src.count (spread src.count src.count cell buffer) i = rgbBytes (cell i) :=
    fun cell => Raster.texel_spread cell buffer inside
  unfold rgbp888Loop at done
  cases format : src.format with
  | grayscale =>
    simp only [format, Option.some.injEq, sized.plane] at done
    rw [← done, spreads, texel_grayscale]
    rfl
  | rgb565 =>
    simp only [format, Option.some.injEq, sized.plane] at done
    rw [← done, spreads, convertPixel, wordOf_texel]
  | rgb888 =>
    simp only [format, Option.some.injEq, sized.plane] at done
    rw [← done, spreads, texel_rgb888]
    rfl
  | rgbp888 =>
    simp only [format, Option.some.injEq] at done
    rw [← done]
    exact sized.copied format source buffer inside
  | invalid =>
    simp only [format] at done
    cases done

structure Converted (format : Format) (src out : Image) : Prop where
  width : out.width = src.width
  height : out.height = src.height
  bpp : out.bpp = format.bpp
  kind : out.format = format
  pixels : ∃ source filled, src.pixel = some source ∧ out.pixel = some filled ∧ ∀ i, i < src.count →
    format.texel src.count filled i = convertPixel src.format format (src.format.texel src.count source i)

theorem createDestImage_some {malloc : Nat → Option (Nat → UInt8)} {format : Format} {dst after : Image} {create : Bool}
    {buffer : Nat → UInt8} (made : createDestImage malloc format src dst create = (some buffer, after)) :
    after.width = src.width ∧ after.height = src.height ∧ after.bpp = format.bpp ∧ after.format = format := by
  unfold createDestImage at made
  split at made
  next =>
    cases (Prod.mk.inj made).2
    exact ⟨rfl, rfl, rfl, rfl⟩
  next =>
    split at made
    next => cases made
    next matching =>
      simp only [not_or, Decidable.not_not] at matching
      cases (Prod.mk.inj made).2
      exact ⟨matching.1.symm, matching.2.1.symm, matching.2.2.1, matching.2.2.2⟩

theorem Sized.convert (sized : src.Sized) {format : Format}
    {loop : Image → (Nat → UInt8) → (Nat → UInt8) → Option (Nat → UInt8)} (fills : Fills format loop)
    {malloc : Nat → Option (Nat → UInt8)} {dst out : Image} {create : Bool}
    (done : convert format loop malloc src dst create = (0, out)) : Converted format src out := by
  unfold Image.convert at done
  split at done
  next => cases done
  next source pixels =>
    split at done
    next => cases done
    next buffer after made =>
      obtain ⟨width, height, bpp, kind⟩ := createDestImage_some made
      split at done
      next => cases done
      next filled looped =>
        cases done
        exact ⟨width, height, bpp, kind, source, filled, pixels, rfl, fills src source buffer filled sized looped⟩

/-- A conversion of an image in memory succeeds when it gets its buffer. -/
theorem convert_succeeds {format : Format} {loop : Image → (Nat → UInt8) → (Nat → UInt8) → Option (Nat → UInt8)}
    (total : ∀ source buffer, ∃ filled, loop src source buffer = some filled) {source fresh : Nat → UInt8}
    (pixels : src.pixel = some source) {malloc : Nat → Option (Nat → UInt8)}
    (given : malloc (u32 (src.width * src.height * format.bpp)) = some fresh) (dst : Image) :
    (convert format loop malloc src dst true).1 = 0 := by
  obtain ⟨filled, looped⟩ := total source fresh
  simp [Image.convert, pixels, createDestImage, given, looped]

end Image
end ArduinoK210.Imaging
