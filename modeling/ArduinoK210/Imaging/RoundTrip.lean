import ArduinoK210.Imaging.Convert

/-! Conversions there and back, and conversions that agree. -/

namespace ArduinoK210.Imaging

open Nor (slice)

namespace Image

def bytes (image : Image) : List UInt8 :=
  match image.pixel with
  | none => []
  | some mem => slice mem 0 (u32 (image.width * image.height * image.bpp))

structure Same (first second : Image) : Prop where
  width : first.width = second.width
  height : first.height = second.height
  bpp : first.bpp = second.bpp
  format : first.format = second.format
  bytes : first.bytes = second.bytes

def conversion : Format → (Nat → Option (Nat → UInt8)) → Image → Image → Bool → Int × Image
  | .grayscale => toGrayscale
  | .rgb565 => toRgb565
  | .rgb888 => toRgb888
  | .rgbp888 => toRgbp888
  | .invalid => fun _ _ dst _ => (-1, dst)

variable {src middle out : Image}

private theorem Sized.conversion (sized : src.Sized) {format : Format} {malloc : Nat → Option (Nat → UInt8)} {dst : Image}
    {create : Bool} (done : conversion format malloc src dst create = (0, out)) : Converted format src out := by
  cases format with
  | grayscale => exact sized.convert grayscaleLoop_fills done
  | rgb565 => exact sized.convert rgb565Loop_fills done
  | rgb888 => exact sized.convert rgb888Loop_fills done
  | rgbp888 => exact sized.convert rgbp888Loop_fills done
  | invalid => cases done

theorem Converted.sized {format : Format} (converted : Converted format src out) (sized : src.Sized) : out.Sized := by
  refine ⟨converted.bpp.trans (congrArg Format.bpp converted.kind.symm), ?_⟩
  rw [converted.width, converted.height]
  exact sized.size

private theorem Converted.count {format : Format} (converted : Converted format src out) : out.count = src.count := by
  rw [Image.count, Image.count, converted.width, converted.height]

private theorem Sized.bytes (sized : src.Sized) {mem : Nat → UInt8} (pixels : src.pixel = some mem) :
    src.bytes = slice mem 0 (src.count * src.format.bpp) := by
  simp only [Image.bytes, pixels, sized.whole]

theorem Sized.bytes_eq_iff (sized : src.Sized) (other : out.Sized) (counts : out.count = src.count)
    (formats : out.format = src.format) {first second : Nat → UInt8} (pixels : src.pixel = some first)
    (filled : out.pixel = some second) :
    out.bytes = src.bytes ↔
      ∀ i, i < src.count → src.format.texel src.count second i = src.format.texel src.count first i := by
  rw [sized.bytes pixels, other.bytes filled, counts, formats]
  exact src.format.layout.slice_eq_iff _ _ _ _

/-- Two conversions in a row that restore every pixel restore the image. -/
theorem Converted.restores (sized : src.Sized) {format : Format} (there : Converted format src middle)
    (back : Converted src.format middle out)
    (identity : ∀ pixel, pixel.length = src.format.bpp →
      convertPixel format src.format (convertPixel src.format format pixel) = pixel) : Same out src := by
  obtain ⟨source, filled, pixels, made, cells⟩ := there.pixels
  obtain ⟨again, last, same, final, restored⟩ := back.pixels
  cases made.symm.trans same
  refine ⟨back.width.trans there.width, back.height.trans there.height, back.bpp.trans sized.bpp.symm, back.kind, ?_⟩
  apply (sized.bytes_eq_iff (back.sized (there.sized sized)) (back.count.trans there.count) back.kind pixels final).mpr
  intro i inside
  have second := restored i (there.count ▸ inside)
  rw [there.count, there.kind, cells i inside] at second
  exact second.trans (identity _ (Raster.Layout.texel_length _ _ _ _ _))

/-- A detour leads to the same image exactly when it makes the same of every pixel. -/
theorem Converted.agrees_iff (sized : src.Sized) {format way : Format} {source : Nat → UInt8}
    (pixels : src.pixel = some source) (direct : Converted format src out) (detour : Converted way src middle) {via : Image}
    (after : Converted format middle via) :
    Same via out ↔ ∀ i, i < src.count →
      convertPixel way format (convertPixel src.format way (src.format.texel src.count source i)) =
        convertPixel src.format format (src.format.texel src.count source i) := by
  obtain ⟨_, filled, known, made, cells⟩ := direct.pixels
  obtain ⟨_, between, read, wrote, detoured⟩ := detour.pixels
  obtain ⟨second, last, taken, final, converted⟩ := after.pixels
  cases pixels.symm.trans known
  cases pixels.symm.trans read
  cases wrote.symm.trans taken
  have counts : via.count = out.count := after.count.trans (detour.count.trans direct.count.symm)
  have kinds : via.format = out.format := after.kind.trans direct.kind.symm
  have ends : ∀ i, i < src.count → format.texel src.count last i =
      convertPixel way format (convertPixel src.format way (src.format.texel src.count source i)) := by
    intro i inside
    have result := converted i (detour.count ▸ inside)
    rwa [detour.count, detour.kind, detoured i inside] at result
  have bytes := (direct.sized sized).bytes_eq_iff (after.sized (detour.sized sized)) counts kinds made final
  rw [direct.kind, direct.count] at bytes
  constructor
  · intro same i inside
    rw [← ends i inside, ← cells i inside]
    exact bytes.mp same.bytes i inside
  · intro same
    refine ⟨after.width.trans (detour.width.trans direct.width.symm),
      after.height.trans (detour.height.trans direct.height.symm), after.bpp.trans direct.bpp.symm, kinds, ?_⟩
    apply bytes.mpr
    intro i inside
    rw [ends i inside, cells i inside]
    exact same i inside

/-- A conversion over a detour that makes the same of every pixel makes the same image. -/
theorem Converted.agrees (sized : src.Sized) {format way : Format} (direct : Converted format src out)
    (detour : Converted way src middle) {via : Image} (after : Converted format middle via)
    (same : ∀ pixel, pixel.length = src.format.bpp →
      convertPixel way format (convertPixel src.format way pixel) = convertPixel src.format format pixel) :
    Same via out := by
  obtain ⟨source, _, pixels, _, _⟩ := direct.pixels
  apply (direct.agrees_iff sized pixels detour after).mpr
  intro i _
  exact same _ (Raster.Layout.texel_length _ _ _ _ _)

private theorem Converted.copies (sized : src.Sized) (converted : Converted src.format src out) : Same out src := by
  obtain ⟨source, filled, pixels, made, cells⟩ := converted.pixels
  refine ⟨converted.width, converted.height, converted.bpp.trans sized.bpp.symm, converted.kind, ?_⟩
  apply (sized.bytes_eq_iff (converted.sized sized) converted.count converted.kind pixels made).mpr
  intro i inside
  rw [cells i inside]
  cases src.format <;> rfl

end Image

/-- An expanded pixel packs to the two bytes it came from. -/
theorem rgb565_restored {pixel : List UInt8} (length : pixel.length = 2) :
    bytes16 (Image.toWord (rgb565Bytes (wordOf pixel))) = pixel := by
  match pixel, length with
  | [low, high], _ =>
    rw [Image.toWord, rgb565Bytes, rgb565_expanded]
    exact bytes_word low high

namespace Image

/-- A successful conversion, whatever its destination and wherever its buffer comes from. -/
def Into (format : Format) (src out : Image) : Prop :=
  ∃ malloc dst create, conversion format malloc src dst create = (0, out)

structure RoundTrips : Prop where
  succeeds : ∀ (src dst : Image) (source fresh : Nat → UInt8) format malloc, src.format ≠ .invalid → format ≠ .invalid →
    src.pixel = some source → malloc (u32 (src.width * src.height * format.bpp)) = some fresh →
      (conversion format malloc src dst true).1 = 0
  rgb888 : ∀ src planar back, src.Sized → src.format = .rgb888 →
    Into .rgbp888 src planar → Into .rgb888 planar back → Same back src
  rgbp888 : ∀ src packed back, src.Sized → src.format = .rgbp888 →
    Into .rgb888 src packed → Into .rgbp888 packed back → Same back src
  rgb565 : ∀ src packed back, src.Sized → src.format = .rgb565 →
    Into .rgb888 src packed → Into .rgb565 packed back → Same back src
  rgb565Planar : ∀ src planar back, src.Sized → src.format = .rgb565 →
    Into .rgbp888 src planar → Into .rgb565 planar back → Same back src
  packing : ∀ src direct planar via, src.Sized → src.format = .rgb888 →
    Into .rgb565 src direct → Into .rgbp888 src planar → Into .rgb565 planar via → Same via direct
  graying : ∀ src direct planar via, src.Sized → src.format = .rgb888 →
    Into .grayscale src direct → Into .rgbp888 src planar → Into .grayscale planar via → Same via direct
  own : ∀ src copy, src.Sized → Into src.format src copy → Same copy src

theorem Sized.into (sized : src.Sized) {format : Format} (done : Into format src out) : Converted format src out := by
  obtain ⟨_, _, _, made⟩ := done
  exact sized.conversion made

private theorem loops_total (valid : src.format ≠ .invalid) (source buffer : Nat → UInt8) :
    (∃ filled, grayscaleLoop src source buffer = some filled) ∧ (∃ filled, rgb565Loop src source buffer = some filled) ∧
      (∃ filled, rgb888Loop src source buffer = some filled) ∧ (∃ filled, rgbp888Loop src source buffer = some filled) := by
  unfold grayscaleLoop rgb565Loop rgb888Loop rgbp888Loop
  cases format : src.format with
  | invalid => exact absurd format valid
  | _ => exact ⟨⟨_, rfl⟩, ⟨_, rfl⟩, ⟨_, rfl⟩, ⟨_, rfl⟩⟩

theorem conversion_succeeds (valid : src.format ≠ .invalid) {format : Format} (known : format ≠ .invalid)
    {source fresh : Nat → UInt8} (pixels : src.pixel = some source) {malloc : Nat → Option (Nat → UInt8)}
    (given : malloc (u32 (src.width * src.height * format.bpp)) = some fresh) (dst : Image) :
    (conversion format malloc src dst true).1 = 0 := by
  cases format with
  | grayscale => exact convert_succeeds (fun source buffer => (loops_total valid source buffer).1) pixels given dst
  | rgb565 => exact convert_succeeds (fun source buffer => (loops_total valid source buffer).2.1) pixels given dst
  | rgb888 => exact convert_succeeds (fun source buffer => (loops_total valid source buffer).2.2.1) pixels given dst
  | rgbp888 => exact convert_succeeds (fun source buffer => (loops_total valid source buffer).2.2.2) pixels given dst
  | invalid => exact absurd rfl known

theorem Sized.restored (sized : src.Sized) {format way : Format} (kind : src.format = format) (there : Into way src middle)
    (home : Into format middle out)
    (identity : ∀ pixel, pixel.length = format.bpp → convertPixel way format (convertPixel format way pixel) = pixel) :
    Same out src := by
  subst kind
  have first := sized.into there
  exact first.restores sized ((first.sized sized).into home) identity

private theorem Sized.agreed (sized : src.Sized) {own format way : Format} {via : Image} (kind : src.format = own)
    (straight : Into format src out) (detour : Into way src middle) (after : Into format middle via)
    (same : ∀ pixel, pixel.length = own.bpp →
      convertPixel way format (convertPixel own way pixel) = convertPixel own format pixel) : Same via out := by
  subst kind
  have first := sized.into detour
  exact (sized.into straight).agrees sized first ((first.sized sized).into after) same

/-- There and back again through the RGB formats. -/
theorem conversions_round_trip : RoundTrips := by
  refine ⟨?_, ?_, ?_, ?_, ?_, ?_, ?_, ?_⟩
  · intro src dst source fresh format malloc valid known pixels given
    exact conversion_succeeds valid known pixels given dst
  · intro src planar back sized format there home
    apply sized.restored format there home
    intro pixel _
    rfl
  · intro src packed back sized format there home
    apply sized.restored format there home
    intro pixel _
    rfl
  · intro src packed back sized format there home
    apply sized.restored format there home
    intro pixel length
    exact rgb565_restored length
  · intro src planar back sized format there home
    apply sized.restored format there home
    intro pixel length
    exact rgb565_restored length
  · intro src direct planar via sized format straight detour after
    apply sized.agreed format straight detour after
    intro pixel _
    rfl
  · intro src direct planar via sized format straight detour after
    apply sized.agreed format straight detour after
    intro pixel _
    rfl
  · intro src copy sized done
    exact (sized.into done).copies sized

end Image
end ArduinoK210.Imaging
