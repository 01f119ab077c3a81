import ArduinoK210.Imaging.Cut

/-! Where `cut_to_new_format` makes what `cut` and a conversion make. -/

namespace ArduinoK210.Imaging

open Nor (slice)
open Raster (lay)

private theorem toU32_nat {value : Int} (low : 0 ≤ value) (high : value < 4294967296) : (toU32 value : Int) = value := by
  have same : value % (4294967296 : Nat) = value := Int.emod_eq_of_lt low high
  rw [toU32, u32Range, same]
  exact Int.toNat_of_nonneg low

namespace Rectangle

variable {r : Rectangle} {src : Image}

theorem Inside.exact (inside : r.Inside src) : (r.left : Int) = r.x.toInt ∧ (r.top : Int) = r.y.toInt ∧
    (r.width : Int) = r.w.toInt ∧ (r.height : Int) = r.h.toInt := by
  have far := r.x.toInt_lt
  have deep := r.y.toInt_lt
  have wide := r.w.toInt_lt
  have high := r.h.toInt_lt
  refine ⟨toU32_nat inside.left ?_, toU32_nat inside.top ?_, toU32_nat (Int.le_of_lt inside.width) ?_,
    toU32_nat (Int.le_of_lt inside.height) ?_⟩
  all_goals omega

theorem Inside.positive (inside : r.Inside src) : 0 < r.width := by
  have width := inside.width
  have exact := inside.exact
  omega

theorem Inside.size (inside : r.Inside src) : r.width ≤ src.width ∧ r.height ≤ src.height := by
  have left := inside.left
  have top := inside.top
  have right := inside.right
  have bottom := inside.bottom
  have exact := inside.exact
  omega

theorem Inside.fits (inside : r.Inside src) : ¬ r.TooLarge src := by
  have left := inside.left
  have top := inside.top
  have width := inside.width
  have height := inside.height
  have right := inside.right
  have bottom := inside.bottom
  have exact := inside.exact
  have far := r.x.toInt_lt
  have deep := r.y.toInt_lt
  have wide := r.w.toInt_lt
  have high := r.h.toInt_lt
  have edge := toU32_nat (by omega : 0 ≤ r.x.toInt + r.w.toInt) (by omega)
  have floor := toU32_nat (by omega : 0 ≤ r.y.toInt + r.h.toInt) (by omega)
  unfold TooLarge
  omega

end Rectangle

namespace Image

def cellOf (src : Image) (r : Rectangle) (y x : Nat) : Nat := (r.top + y) * src.width + r.left + x

variable {src : Image} {r : Rectangle} {source buffer filled : Nat → UInt8} {x y : Nat}

private theorem pixelPtr_add (src : Image) (r : Rectangle) (y x : Nat) :
    src.pixelPtr r.left (r.top + y) + x * src.bpp = src.cellOf r y x * src.bpp := by
  rw [pixelPtr, ← Nat.add_mul, cellOf]

private theorem rowWord_eq (bpp : src.bpp = 2) (source : Nat → UInt8) (y x : Nat) :
    src.rowWord r source y x = rgb565At source (src.cellOf r y x) := by
  have place := src.pixelPtr_add r y x
  rw [bpp] at place
  rw [rowWord, place, rgb565At]

private theorem rowRgb_eq (bpp : src.bpp = 3) (source : Nat → UInt8) (y x : Nat) :
    src.rowRgb r source y x = rgb888At source (src.cellOf r y x) := by
  have place := src.pixelPtr_add r y x
  rw [bpp] at place
  simp only [rowRgb, place, rgb888At]

private theorem rowPlanes_eq (source : Nat → UInt8) (y x : Nat) :
    src.rowPlanes r source y x = rgbp888At src.count source (src.cellOf r y x) := rfl

/-- Rows copied from where the pixels of the rectangle start keep every pixel. -/
theorem copied_texel {format : Format} (packed : format.layout = .packed) (bpp : src.bpp = format.bpp)
    {start : Nat → Nat} (starts : start y + x * src.bpp = src.cellOf r y x * src.bpp) (buffer : Nat → UInt8)
    (row : y < r.height) (column : x < r.width) :
    format.texel (r.width * r.height)
      (lay 0 (r.width * src.bpp) r.height (fun i => slice source (start i) (r.width * src.bpp)) buffer)
      (y * r.width + x) = format.texel src.count source (src.cellOf r y x) := by
  rw [bpp] at starts
  rw [Format.texel, Format.texel, packed, bpp, Raster.texel_copied source start buffer row column, starts]
  rfl

private theorem copied_planes_texel (start : Nat → Nat → Nat)
    (starts : ∀ c, start c y + x = c * src.count + src.cellOf r y x) (buffer : Nat → UInt8)
    (row : y < r.height) (column : x < r.width) :
    Format.rgbp888.texel (r.width * r.height)
      (lay (r.width * r.height * 2) r.width r.height (fun i => slice source (start 2 i) r.width)
        (lay (r.width * r.height * 1) r.width r.height (fun i => slice source (start 1 i) r.width)
          (lay (r.width * r.height * 0) r.width r.height (fun i => slice source (start 0 i) r.width) buffer)))
      (y * r.width + x) = Format.rgbp888.texel src.count source (src.cellOf r y x) := by
  refine (Raster.texel_copied_planes source start buffer row column).trans ?_
  rw [starts, starts, starts]
  rfl

theorem cutLoop_texel (bpp : src.bpp = src.format.bpp) (done : src.cutLoop r source buffer = some filled)
    (row : y < r.height) (column : x < r.width) :
    src.format.texel (r.width * r.height) filled (y * r.width + x) =
      src.format.texel src.count source (src.cellOf r y x) := by
  have starts : (src.width * (y + r.top) + r.left) * src.bpp + x * src.bpp = src.cellOf r y x * src.bpp := by
    rw [← Nat.add_mul, cellOf, Nat.mul_comm src.width, Nat.add_comm y r.top]
  unfold cutLoop at done
  cases format : src.format with
  | rgbp888 =>
    simp only [format, Option.some.injEq] at done
    rw [← done]
    refine copied_planes_texel (fun c i => src.width * (i + r.top) + r.left + src.width * src.height * c) (fun c => ?_) buffer
      row column
    rw [cellOf, Image.count, Nat.mul_comm src.width (y + r.top), Nat.add_comm y r.top, Nat.mul_comm c]
    omega
  | invalid =>
    simp only [format] at done
    cases done
  | _ =>
    simp only [format, Option.some.injEq] at done
    rw [← done]
    exact copied_texel rfl (bpp.trans (congrArg Format.bpp format)) starts buffer row column

/-- What the fused loops make of a pixel. Two of them do not do what the conversion does. -/
def fusedPixel (src : Image) (r : Rectangle) (format : Format) (source : Nat → UInt8) (y x : Nat) : List UInt8 :=
  match src.format, format with
  | .rgb565, .rgb888 => rgbBytes (rgb565Bytes (src.rowByte r source y x))
  | .rgb888, .grayscale => [lumaThousandths (src.rowRgb r source y x)]
  | .rgbp888, .grayscale => [lumaThousandths (src.rowPlanes r source y x)]
  | _, _ => convertPixel src.format format (src.format.texel src.count source (src.cellOf r y x))

private theorem packRows_texel {format : Format} (packed : format.layout = .packed) {cell : Nat → Nat → List UInt8}
    (sized : ∀ y x, (cell y x).length = format.bpp) (buffer : Nat → UInt8) (row : y < r.height) (column : x < r.width) :
    format.texel (r.width * r.height) (packRows r format.bpp cell buffer) (y * r.width + x) = cell y x := by
  rw [Format.texel, packed]
  exact Raster.texel_rows sized buffer row column

private theorem planeRows_texel (cell : Nat → Nat → UInt8 × UInt8 × UInt8) (buffer : Nat → UInt8) (row : y < r.height)
    (column : x < r.width) :
    Format.rgbp888.texel (r.width * r.height) (planeRows r cell buffer) (y * r.width + x) = rgbBytes (cell y x) :=
  Raster.texel_plane_rows cell buffer row column

private theorem fusedCopy_texel (bpp : src.bpp = src.format.bpp) (done : src.fusedLoop r src.format source buffer = some filled)
    (row : y < r.height) (column : x < r.width) :
    src.format.texel (r.width * r.height) filled (y * r.width + x) =
      src.format.texel src.count source (src.cellOf r y x) := by
  unfold fusedLoop at done
  rw [if_pos rfl] at done
  split at done
  next planar =>
    have three : src.bpp = 3 := by rw [bpp, planar, Format.bpp]
    rw [three] at done
    rw [planar, ← Option.some.inj done]
    refine copied_planes_texel (fun c i => src.width * src.height * c + (r.top + i) * src.width + r.left) (fun c => ?_) buffer
      row column
    rw [cellOf, Image.count, Nat.mul_comm c]
    omega
  next packed =>
    have layout : src.format.layout = .packed := by
      cases format : src.format with
      | rgbp888 => exact absurd format packed
      | _ => rfl
    rw [← bpp] at done
    rw [← Option.some.inj done]
    exact copied_texel layout bpp (src.pixelPtr_add r y x) buffer row column

private theorem fusedPixel_self (src : Image) (r : Rectangle) (source : Nat → UInt8) (y x : Nat) :
    src.fusedPixel r src.format source y x = src.format.texel src.count source (src.cellOf r y x) := by
  unfold fusedPixel
  cases src.format <;> rfl

private theorem fusedLoop_texel (bpp : src.bpp = src.format.bpp) {format : Format}
    (done : src.fusedLoop r format source buffer = some filled) (row : y < r.height) (column : x < r.width) :
    format.texel (r.width * r.height) filled (y * r.width + x) = src.fusedPixel r format source y x := by
  by_cases same : src.format = format
  · subst same
    rw [fusedPixel_self]
    exact fusedCopy_texel bpp done row column
  · have packs : ∀ (kind : Format) (cell : Nat → Nat → List UInt8), kind.layout = .packed →
        (∀ y x, (cell y x).length = kind.bpp) →
          kind.texel (r.width * r.height) (packRows r kind.bpp cell buffer) (y * r.width + x) = cell y x :=
      fun kind cell layout sized => packRows_texel layout sized buffer row column
    have planes := fun cell => planeRows_texel cell buffer row column
    unfold fusedLoop at done
    rw [if_neg same] at done
    unfold fusedPixel
    split at done
    next kind =>
      rw [kind] at bpp ⊢
      cases done
      rw [planes, rowWord_eq bpp, convertPixel, wordOf_texel]
    next kind =>
      rw [kind]
      cases done
      exact packs .rgb888 _ rfl fun _ _ => rfl
    next kind =>
      rw [kind] at bpp ⊢
      cases done
      refine (packs .grayscale _ rfl fun _ _ => rfl).trans ?_
      rw [rowWord_eq bpp, convertPixel, wordOf_texel]
    next kind =>
      rw [kind] at bpp ⊢
      cases done
      refine (packs .rgb565 _ rfl fun _ _ => rfl).trans ?_
      rw [rowRgb_eq bpp, texel_rgb888]
      rfl
    next kind =>
      rw [kind] at bpp ⊢
      cases done
      rw [planes, rowRgb_eq bpp, texel_rgb888]
      rfl
    next kind =>
      rw [kind]
      cases done
      exact packs .grayscale _ rfl fun _ _ => rfl
    next kind =>
      rw [kind]
      cases done
      refine (packs .rgb565 _ rfl fun _ _ => rfl).trans ?_
      rw [rowPlanes_eq, texel_rgbp888]
      rfl
    next kind =>
      rw [kind]
      cases done
      refine (packs .rgb888 _ rfl fun _ _ => rfl).trans ?_
      rw [rowPlanes_eq, texel_rgbp888]
      rfl
    next kind =>
      rw [kind]
      cases done
      exact packs .grayscale _ rfl fun _ _ => rfl
    next => cases done

def Cut (r : Rectangle) (src out : Image) : Prop := ∃ malloc dst create, cut malloc src dst r create = (0, out)

def CutInto (r : Rectangle) (format : Format) (src out : Image) : Prop :=
  ∃ malloc dst create, cutToNewFormat malloc src dst r format create = (0, out)

structure Drawn (r : Rectangle) (format : Format) (pixel : Nat → Nat → List UInt8) (out : Image) : Prop where
  width : out.width = r.width
  height : out.height = r.height
  bpp : out.bpp = format.bpp
  kind : out.format = format
  pixels : ∃ filled, out.pixel = some filled ∧ ∀ y x, y < r.height → x < r.width →
    format.texel (r.width * r.height) filled (y * r.width + x) = pixel y x

theorem Cut.drawn {out : Image} (bpp : src.bpp = src.format.bpp) (pixels : src.pixel = some source) (made : Cut r src out) :
    Drawn r src.format (fun y x => src.format.texel src.count source (src.cellOf r y x)) out := by
  obtain ⟨malloc, dst, create, done⟩ := made
  simp only [cut, pixels] at done
  split at done
  next => cases done
  next =>
    split at done
    next => cases done
    next =>
      split at done
      next => cases done
      next buffer _ =>
        split at done
        next => cases done
        next filled looped =>
          cases done
          exact ⟨rfl, rfl, bpp, rfl, filled, rfl, fun y x row column => cutLoop_texel bpp looped row column⟩

private theorem CutInto.drawn {out : Image} {format : Format} (bpp : src.bpp = src.format.bpp) (pixels : src.pixel = some source)
    (made : CutInto r format src out) : Drawn r format (src.fusedPixel r format source) out := by
  obtain ⟨malloc, dst, create, done⟩ := made
  simp only [cutToNewFormat, pixels] at done
  split at done
  next => cases done
  next =>
    split at done
    next => cases done
    next buffer after created =>
      obtain ⟨width, height, size, kind⟩ := createDestImage_some created
      split at done
      next => cases done
      next filled looped =>
        cases done
        exact ⟨width, height, size, kind, filled, rfl, fun y x row column => fusedLoop_texel bpp looped row column⟩

private theorem Drawn.sized {out : Image} {format : Format} {pixel : Nat → Nat → List UInt8} (drawn : Drawn r format pixel out)
    (sized : src.Sized) (inside : r.Inside src) : out.Sized := by
  obtain ⟨narrow, low⟩ := inside.size
  refine ⟨drawn.bpp.trans (congrArg Format.bpp drawn.kind.symm), ?_⟩
  rw [drawn.width, drawn.height]
  exact Nat.lt_of_le_of_lt (Nat.mul_le_mul_right 3 (Nat.mul_le_mul narrow low)) sized.size

theorem Drawn.converted {middle out : Image} {from_ format : Format} {pixel : Nat → Nat → List UInt8}
    (drawn : Drawn r from_ pixel middle) (converted : Converted format middle out) :
    Drawn r format (fun y x => convertPixel from_ format (pixel y x)) out := by
  obtain ⟨filled, pixels, cells⟩ := drawn.pixels
  obtain ⟨source, last, read, made, results⟩ := converted.pixels
  cases pixels.symm.trans read
  have count : middle.count = r.width * r.height := by rw [Image.count, drawn.width, drawn.height]
  refine ⟨converted.width.trans drawn.width, converted.height.trans drawn.height, converted.bpp, converted.kind, last, made,
    fun y x row column => ?_⟩
  have result := results (y * r.width + x) (count ▸ Raster.row_lt row column)
  rw [count, drawn.kind, cells y x row column] at result
  exact result

/-- Two drawn images have the same bytes exactly when they draw the same pixels. -/
theorem Drawn.bytes_eq_iff {first second : Image} {format : Format} {one other : Nat → Nat → List UInt8}
    (drawn : Drawn r format one first) (again : Drawn r format other second) (sized : first.Sized) (sizes : second.Sized) :
    first.bytes = second.bytes ↔ ∀ y x, y < r.height → x < r.width → one y x = other y x := by
  obtain ⟨firstMem, firstPixels, firstCells⟩ := drawn.pixels
  obtain ⟨secondMem, secondPixels, secondCells⟩ := again.pixels
  have count : second.count = r.width * r.height := by rw [Image.count, again.width, again.height]
  have counts : first.count = second.count := by rw [count, Image.count, drawn.width, drawn.height]
  rw [sizes.bytes_eq_iff sized counts (drawn.kind.trans again.kind.symm) secondPixels firstPixels, count, again.kind]
  refine ⟨fun same y x row column => ?_, fun same i inside => ?_⟩
  · rw [← firstCells y x row column, ← secondCells y x row column]
    exact same _ (Raster.row_lt row column)
  · have positive : 0 < r.width := Nat.pos_of_ne_zero fun zero => by simp [zero] at inside
    have row : i / r.width < r.height := Nat.div_lt_of_lt_mul inside
    have column : i % r.width < r.width := Nat.mod_lt _ positive
    have cell := (firstCells _ _ row column).trans ((same _ _ row column).trans (secondCells _ _ row column).symm)
    rwa [Nat.div_add_mod'] at cell

/-- The byte `x` of a row belongs to an earlier word, or to the first. -/
theorem byte_of_zero_words {mem : Nat → UInt8} {start x : Nat} (high : mem (start + 1) = 0) (later : 0 < x)
    (words : ∀ i, 0 < i → i < x → load16 mem (start + i * 2) = 0) : mem (start + x) = 0 := by
  obtain one | more : x = 1 ∨ 1 < x := by omega
  · rw [one, high]
  · obtain ⟨low, top⟩ := (load16_zero_iff _ _).mp (words (x / 2) (by omega) (by omega))
    obtain even | odd : x = x / 2 * 2 ∨ x = x / 2 * 2 + 1 := by omega
    · rw [even, low]
    · rw [odd, ← Nat.add_assoc, top]

/-- Bytes read in place of 16-bit words are right exactly when the first word is a byte and the others are zero. -/
theorem bytes_for_words_iff (mem : Nat → UInt8) (start : Nat) {width : Nat} (positive : 0 < width) :
    (∀ x, x < width → (mem (start + x)).toUInt16 = load16 mem (start + x * 2)) ↔
      mem (start + 1) = 0 ∧ ∀ x, 0 < x → x < width → load16 mem (start + x * 2) = 0 := by
  constructor
  · intro same
    have high := ((load16_byte_iff _ _ _).mp (same 0 positive)).2
    refine ⟨high, fun x => ?_⟩
    induction x using Nat.strongRecOn with
    | ind x earlier =>
      intro later inside
      have zero := byte_of_zero_words high later fun i first before => earlier i before first (Nat.lt_trans before inside)
      rw [← same x inside, zero]
      rfl
  · intro ⟨high, words⟩ x inside
    apply (load16_byte_iff _ _ _).mpr
    obtain first | later : x = 0 ∨ 0 < x := by omega
    · subst first
      exact ⟨rfl, high⟩
    · have zero := byte_of_zero_words high later fun i first before => words i first (Nat.lt_trans before inside)
      rw [zero]
      exact (load16_zero_iff _ _).mp (words x later inside)

def SameLuma (rgb : UInt8 × UInt8 × UInt8) : Prop :=
  (299 * rgb.1.toNat + 587 * rgb.2.1.toNat + 114 * rgb.2.2.toNat) / 1000 =
    (38 * rgb.1.toNat + 75 * rgb.2.1.toNat + 15 * rgb.2.2.toNat) / 128

instance (rgb : UInt8 × UInt8 × UInt8) : Decidable (SameLuma rgb) := inferInstanceAs (Decidable (_ = _))

private theorem sameLuma_iff (rgb : UInt8 × UInt8 × UInt8) : lumaThousandths rgb = toY rgb ↔ SameLuma rgb := by
  have red := rgb.1.toNat_lt
  have green := rgb.2.1.toNat_lt
  have blue := rgb.2.2.toNat_lt
  rw [SameLuma, lumaThousandths, toY, rgb888ToY, Nat.shiftRight_eq_div_pow, ← UInt8.toNat_inj, UInt8.toNat_ofNat',
    UInt8.toNat_ofNat', Nat.mod_eq_of_lt (by omega), Nat.mod_eq_of_lt (by omega)]
  omega

/-- The images on which the fused loops do what a cut and a conversion do. From RGB565 to RGB888 they read bytes in place of
words, and to grayscale they use another luma. -/
def Agrees (src : Image) (r : Rectangle) (format : Format) (source : Nat → UInt8) : Prop :=
  match src.format, format with
  | .rgb565, .rgb888 => ∀ y, y < r.height → source (src.pixelPtr r.left (r.top + y) + 1) = 0 ∧
      ∀ x, 0 < x → x < r.width → src.rowWord r source y x = 0
  | .rgb888, .grayscale => ∀ y x, y < r.height → x < r.width → SameLuma (src.rowRgb r source y x)
  | .rgbp888, .grayscale => ∀ y x, y < r.height → x < r.width → SameLuma (src.rowPlanes r source y x)
  | _, _ => True

def steppedPixel (src : Image) (r : Rectangle) (format : Format) (source : Nat → UInt8) (y x : Nat) : List UInt8 :=
  convertPixel src.format format (src.format.texel src.count source (src.cellOf r y x))

private theorem bytePixels_iff (bpp : src.bpp = src.format.bpp) (kind : src.format = .rgb565) (positive : 0 < r.width) :
    (∀ y x, y < r.height → x < r.width → src.fusedPixel r .rgb888 source y x = src.steppedPixel r .rgb888 source y x) ↔
      src.Agrees r .rgb888 source := by
  have pixel : ∀ y x, src.fusedPixel r .rgb888 source y x = src.steppedPixel r .rgb888 source y x ↔
      src.rowByte r source y x = src.rowWord r source y x := by
    intro y x
    rw [kind] at bpp
    simp only [fusedPixel, steppedPixel, kind, convertPixel, wordOf_texel]
    rw [← rowWord_eq bpp]
    exact ⟨fun same => rgb565Bytes_injective (congrArg rgbOf same), fun same => by rw [same]⟩
  simp only [pixel, Agrees, kind]
  constructor
  · intro same y row
    exact (bytes_for_words_iff source _ positive).mp fun x => same y x row
  · intro agrees y x row
    exact (bytes_for_words_iff source _ positive).mpr (agrees y row) x

private theorem lumaPixels_iff (bpp : src.bpp = src.format.bpp) (kind : src.format = .rgb888 ∨ src.format = .rgbp888) :
    (∀ y x, y < r.height → x < r.width →
      src.fusedPixel r .grayscale source y x = src.steppedPixel r .grayscale source y x) ↔
        src.Agrees r .grayscale source := by
  obtain packed | planar := kind
  · rw [packed] at bpp
    have pixel : ∀ y x, src.fusedPixel r .grayscale source y x = src.steppedPixel r .grayscale source y x ↔
        SameLuma (src.rowRgb r source y x) := by
      intro y x
      simp only [fusedPixel, steppedPixel, packed, convertPixel, texel_rgb888]
      rw [← sameLuma_iff, rowRgb_eq bpp]
      exact List.singleton_inj
    simp only [pixel, Agrees, packed]
  · have pixel : ∀ y x, src.fusedPixel r .grayscale source y x = src.steppedPixel r .grayscale source y x ↔
        SameLuma (src.rowPlanes r source y x) := by
      intro y x
      simp only [fusedPixel, steppedPixel, planar, convertPixel, texel_rgbp888]
      rw [← sameLuma_iff, rowPlanes_eq]
      exact List.singleton_inj
    simp only [pixel, Agrees, planar]

/-- The fused loops make the pixels of the two steps exactly on these images. -/
theorem fusedPixel_agrees_iff (bpp : src.bpp = src.format.bpp) (positive : 0 < r.width) (format : Format) :
    (∀ y x, y < r.height → x < r.width → src.fusedPixel r format source y x = src.steppedPixel r format source y x) ↔
      src.Agrees r format source := by
  cases kind : src.format with
  | rgb565 =>
    cases format with
    | rgb888 => exact bytePixels_iff bpp kind positive
    | _ => simp [fusedPixel, steppedPixel, Agrees, kind]
  | rgb888 =>
    cases format with
    | grayscale => exact lumaPixels_iff bpp (.inl kind)
    | _ => simp [fusedPixel, steppedPixel, Agrees, kind]
  | rgbp888 =>
    cases format with
    | grayscale => exact lumaPixels_iff bpp (.inr kind)
    | _ => simp [fusedPixel, steppedPixel, Agrees, kind]
  | _ => simp [fusedPixel, steppedPixel, Agrees, kind]

/-- The pairs of formats that `cut_to_new_format` has a loop for. A grayscale image is only copied. -/
def Accepted : Format → Format → Prop
  | .invalid, _ | _, .invalid => False
  | .grayscale, format => format = .grayscale
  | _, _ => True

private theorem fusedLoop_accepts (src : Image) (r : Rectangle) {format : Format} (valid : src.format ≠ .invalid)
    (source buffer : Nat → UInt8) :
    (∃ filled, src.fusedLoop r format source buffer = some filled) ↔ Accepted src.format format := by
  unfold fusedLoop
  cases kind : src.format with
  | invalid => exact absurd kind valid
  | _ => cases format <;> simp [Accepted]

/-- With an allocator that serves every request both ways end with an image. -/
def Succeeds (src : Image) (r : Rectangle) (format : Format) : Prop :=
  ∀ (malloc : Nat → Option (Nat → UInt8)) (dst other last : Image), (∀ size, ∃ fresh, malloc size = some fresh) →
    (cutToNewFormat malloc src dst r format true).1 = 0 ∧
      ∃ middle, cut malloc src other r true = (0, middle) ∧ (conversion format malloc middle last true).1 = 0

theorem cutLoop_total (src : Image) (r : Rectangle) (valid : src.format ≠ .invalid) (source buffer : Nat → UInt8) :
    ∃ filled, src.cutLoop r source buffer = some filled := by
  unfold cutLoop
  cases kind : src.format with
  | invalid => exact absurd kind valid
  | _ => exact ⟨_, rfl⟩

private theorem Accepted.valid {first second : Format} (accepted : Accepted first second) : first ≠ .invalid ∧ second ≠ .invalid := by
  cases first <;> cases second <;> simp_all [Accepted]

private theorem Accepted.succeeds {format : Format} (accepted : Accepted src.format format) (pixels : src.pixel = some source)
    (inside : r.Inside src) : Succeeds src r format := by
  intro malloc dst other last serves
  obtain ⟨valid, known⟩ := accepted.valid
  have fits := inside.fits
  constructor
  · obtain ⟨fresh, given⟩ := serves (u32 (r.width * r.height * format.bpp))
    obtain ⟨filled, looped⟩ := (fusedLoop_accepts src r valid source fresh).mpr accepted
    simp [cutToNewFormat, pixels, fits, createDestImage, given, looped]
  · obtain ⟨fresh, given⟩ := serves (u32 (r.width * r.height * src.bpp))
    obtain ⟨filled, looped⟩ := cutLoop_total src r valid source fresh
    refine ⟨⟨r.width, r.height, src.bpp, src.format, some filled⟩, ?_, ?_⟩
    · simp [cut, pixels, fits, given, looped]
    · obtain ⟨room, more⟩ := serves (u32 (r.width * r.height * format.bpp))
      apply conversion_succeeds ?_ known rfl more
      exact valid

/-- `cut_to_new_format` makes the bytes of `cut` and the conversion exactly on the images where its loops agree with them. -/
theorem cutToNewFormat_agrees_iff (sized : src.Sized) (pixels : src.pixel = some source) (inside : r.Inside src)
    {format : Format} (accepted : Accepted src.format format) :
    Succeeds src r format ∧ ∀ fused middle converted, CutInto r format src fused → Cut r src middle →
      Into format middle converted → (fused.bytes = converted.bytes ↔ src.Agrees r format source) := by
  refine ⟨accepted.succeeds pixels inside, ?_⟩
  intro fused middle converted whole first second
  have direct := CutInto.drawn sized.bpp pixels whole
  have stepped := Cut.drawn sized.bpp pixels first
  have result := stepped.converted ((stepped.sized sized inside).into second)
  rw [direct.bytes_eq_iff result (direct.sized sized inside) (result.sized sized inside)]
  exact fusedPixel_agrees_iff sized.bpp inside.positive format

def onePixel (format : Format) (bytes : List UInt8) : Image := ⟨1, 1, format.bpp, format, some fun i => bytes.getD i 0⟩

def onePixelRectangle : Rectangle := ⟨0, 0, 1, 1⟩

private theorem onePixel_inside (format : Format) (bytes : List UInt8) : onePixelRectangle.Inside (onePixel format bytes) :=
  ⟨Int.le_refl 0, Int.le_refl 0, Int.one_pos, Int.one_pos, Int.le_refl 1, Int.le_refl 1⟩

private theorem onePixel_sized (format : Format) (bytes : List UInt8) : (onePixel format bytes).Sized := by
  refine ⟨rfl, ?_⟩
  change 1 * 1 * 3 < 4294967296
  omega

def zeros (_ : Nat) : Option (Nat → UInt8) := some fun _ => 0

def grays : Image := ⟨3, 2, 3, .rgb888, some fun i => UInt8.ofNat (i / 3 + 1)⟩

/-- The last two pixels of the second row. A gray pixel has one luma. -/
theorem cutToNewFormat_agrees_gray : ∃ fused middle converted,
    CutInto ⟨1, 1, 2, 1⟩ .grayscale grays fused ∧ Cut ⟨1, 1, 2, 1⟩ grays middle ∧ Into .grayscale middle converted ∧
      fused.bytes = converted.bytes ∧ fused.bytes = [5, 6] := by
  have agrees : Agrees grays ⟨1, 1, 2, 1⟩ .grayscale (fun i => UInt8.ofNat (i / 3 + 1)) := by
    have each : ∀ y < 1, ∀ x < 2, SameLuma (grays.rowRgb ⟨1, 1, 2, 1⟩ (fun i => UInt8.ofNat (i / 3 + 1)) y x) := by decide
    exact fun y x row column => each y row x column
  have inside : Rectangle.Inside ⟨1, 1, 2, 1⟩ grays := by constructor <;> decide
  let middle := (cut zeros grays (onePixel .invalid []) ⟨1, 1, 2, 1⟩ true).2
  have whole : CutInto ⟨1, 1, 2, 1⟩ .grayscale grays _ := ⟨zeros, onePixel .invalid [], true, rfl⟩
  have first : Cut ⟨1, 1, 2, 1⟩ grays middle := ⟨zeros, onePixel .invalid [], true, rfl⟩
  have second : Into .grayscale middle _ := ⟨zeros, onePixel .invalid [], true, rfl⟩
  have accepted : Accepted .rgb888 .grayscale := trivial
  refine ⟨_, _, _, whole, first, second, ?_, by decide⟩
  apply ((cutToNewFormat_agrees_iff ⟨rfl, by decide⟩ rfl inside accepted).2 _ _ _ whole first second).mpr
  exact agrees

/-- The bytes of a red RGB565 pixel, cut to RGB888, are read as a black one. -/
theorem cutToNewFormat_loses_red :
    ¬ ∀ (src : Image) (r : Rectangle) (format : Format) (fused middle converted : Image), src.Sized → r.Inside src →
      Accepted src.format format → CutInto r format src fused → Cut r src middle → Into format middle converted →
        fused.bytes = converted.bytes := by
  intro always
  have same := always (onePixel .rgb565 [0x00, 0xf8]) onePixelRectangle .rgb888 _ _ _ (onePixel_sized _ _)
    (onePixel_inside _ _) trivial ⟨zeros, onePixel .invalid [], true, rfl⟩
    ⟨zeros, onePixel .invalid [], true, rfl⟩ ⟨zeros, onePixel .invalid [], true, rfl⟩
  revert same
  decide

end Image
end ArduinoK210.Imaging
