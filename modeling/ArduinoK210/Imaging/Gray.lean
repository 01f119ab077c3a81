import ArduinoK210.Imaging.RoundTrip

/-! The ways from a grayscale image. -/

namespace ArduinoK210.Imaging

private theorem usat8_toNat (gray : UInt8) : usat8 gray.toNat = gray := by
  have most := gray.toNat_lt
  have low : min (gray.toNat : Int) 255 = gray.toNat := by omega
  have high : max (gray.toNat : Int) 0 = gray.toNat := by omega
  rw [usat8, low, high, Int.toNat_natCast, UInt8.ofNat_toNat]

private theorem yuvToRgb888_gray (gray : UInt8) : yuvToRgb888 gray 0 0 = (gray, gray, gray) := by
  simp [yuvToRgb888, usat8_toNat]

private theorem rgb888ToY_gray (gray : UInt8) : rgb888ToY gray gray gray = gray := by
  have sum : (gray.toNat * 38 + gray.toNat * 75 + gray.toNat * 15) >>> 7 = gray.toNat := by
    rw [Nat.shiftRight_eq_div_pow]
    omega
  rw [rgb888ToY, sum, UInt8.ofNat_toNat]

private theorem toWord_gray_offset_below : ∀ gray, gray < 256 →
    Image.toWord (UInt8.ofNat gray, UInt8.ofNat gray, UInt8.ofNat gray) ≠ yuvToRgb565 (UInt8.ofNat gray) 0 0 := by
  decide +kernel

/-- The offset turns the highest bit of every gray value. -/
theorem toWord_gray_offset (gray : UInt8) : Image.toWord (gray, gray, gray) ≠ yuvToRgb565 gray 0 0 := by
  have below := toWord_gray_offset_below gray.toNat gray.toNat_lt
  rwa [UInt8.ofNat_toNat] at below

namespace Image

structure GrayPaths (src : Image) : Prop where
  rgb888 : ∀ packed back, Into .rgb888 src packed → Into .grayscale packed back → Same back src
  rgbp888 : ∀ planar back, Into .rgbp888 src planar → Into .grayscale planar back → Same back src
  rgb565 : ∀ direct packed via, Into .rgb565 src direct → Into .rgb888 src packed → Into .rgb565 packed via → Same via direct
  rgb565Planar : ∀ direct planar via, Into .rgb565 src direct → Into .rgbp888 src planar → Into .rgb565 planar via →
    Same via direct

variable {src : Image} {source : Nat → UInt8}

private theorem gray_restored {pixel : List UInt8} (length : pixel.length = 1) : [toY (yuvToRgb888 (firstOf pixel) 0 0)] = pixel := by
  match pixel, length with
  | [gray], _ =>
    rw [yuvToRgb888_gray]
    exact congrArg (fun value => [value]) (rgb888ToY_gray gray)

/-- No gray pixel comes out of both ways to RGB565 alike. -/
theorem gray565_differs (pixel : List UInt8) :
    bytes16 (toWord (yuvToRgb888 (firstOf pixel) 0 0)) ≠ bytes16 (yuvToRgb565 (firstOf pixel) 0 0) := by
  intro same
  rw [yuvToRgb888_gray] at same
  exact toWord_gray_offset _ (bytes16_injective same)

private theorem exists_into (valid : src.format ≠ .invalid) (pixels : src.pixel = some source) {format : Format}
    (known : format ≠ .invalid) : ∃ out, Into format src out := by
  let malloc : Nat → Option (Nat → UInt8) := fun _ => some source
  have given : malloc (u32 (src.width * src.height * format.bpp)) = some source := rfl
  have done := conversion_succeeds valid known pixels given src
  exact ⟨_, _, _, _, Prod.ext done rfl⟩

/-- The two ways to RGB565 meet only on an image without pixels. -/
theorem gray565_paths_iff (sized : src.Sized) (gray : src.format = .grayscale) (pixels : src.pixel = some source)
    {way : Format} (rgb : way = .rgb888 ∨ way = .rgbp888) :
    (∀ direct middle via, Into .rgb565 src direct → Into way src middle → Into .rgb565 middle via → Same via direct) ↔
      src.count = 0 := by
  have known : way ≠ .invalid := by rcases rgb with rfl | rfl <;> intro impossible <;> cases impossible
  have agrees : ∀ direct middle via, Into .rgb565 src direct → Into way src middle → Into .rgb565 middle via →
      (Same via direct ↔ src.count = 0) := by
    intro direct middle via straight detour after
    have first := sized.into detour
    rw [(sized.into straight).agrees_iff sized pixels first ((first.sized sized).into after), gray]
    refine ⟨fun same => ?_, fun none i inside => absurd inside (by omega)⟩
    by_contra some
    have pixel := same 0 (Nat.pos_of_ne_zero some)
    rcases rgb with rfl | rfl <;> exact gray565_differs _ pixel
  have packed : Format.rgb565 ≠ .invalid := by
    intro impossible
    cases impossible
  have valid : src.format ≠ .invalid := by
    rw [gray]
    intro impossible
    cases impossible
  obtain ⟨direct, straight⟩ := exists_into valid pixels packed
  obtain ⟨middle, detour⟩ := exists_into valid pixels known
  have converted := sized.into detour
  obtain ⟨_, filled, _, made, _⟩ := converted.pixels
  obtain ⟨via, after⟩ := exists_into (converted.kind ▸ known) made packed
  refine ⟨fun same => ?_, fun none direct middle via straight detour after => ?_⟩
  · exact (agrees direct middle via straight detour after).mp (same direct middle via straight detour after)
  · exact (agrees direct middle via straight detour after).mpr none

/-- The paths from a grayscale image agree only when it has no pixels: `to_rgb565` turns the highest bit of every value. -/
theorem grayPaths_iff (src : Image) (sized : src.Sized) (gray : src.format = .grayscale) (source : Nat → UInt8)
    (pixels : src.pixel = some source) : GrayPaths src ↔ src.count = 0 := by
  constructor
  · intro paths
    exact (gray565_paths_iff sized gray pixels (.inl rfl)).mp paths.rgb565
  · intro none
    refine ⟨?_, ?_, (gray565_paths_iff sized gray pixels (.inl rfl)).mpr none,
      (gray565_paths_iff sized gray pixels (.inr rfl)).mpr none⟩
    · intro packed back there home
      apply sized.restored gray there home
      intro pixel length
      exact gray_restored length
    · intro planar back there home
      apply sized.restored gray there home
      intro pixel length
      exact gray_restored length

def black (side : Nat) : Image := ⟨side, side, 1, .grayscale, some fun _ => 0⟩

theorem grayPaths_empty : GrayPaths (black 0) :=
  (grayPaths_iff (black 0) ⟨rfl, Nat.zero_lt_succ _⟩ rfl (fun _ => 0) rfl).mpr rfl

/-- One black pixel is enough: the direct way makes it 0x8410. -/
theorem grayPaths_black :
    ¬ ∀ src : Image, src.Sized → src.format = .grayscale → src.pixel ≠ none → GrayPaths src := by
  intro always
  have sized : (black 1).Sized := by
    refine ⟨rfl, ?_⟩
    change 1 * 1 * 3 < 4294967296
    omega
  have paths := always (black 1) sized rfl (by intro missing; cases missing)
  have none := (gray565_paths_iff sized rfl rfl (.inl rfl)).mp paths.rgb565
  cases none

end Image
end ArduinoK210.Imaging
