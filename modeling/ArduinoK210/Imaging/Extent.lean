import ArduinoK210.Imaging.Fused

/-! Which rectangles `Image::cut` takes, and which bytes it touches for them. -/

namespace ArduinoK210.Imaging

open Nor (put slice)
open Raster (lay)

structure Copy where
  dst : Int
  src : Int
  size : Nat
  deriving DecidableEq

namespace Copy

def Within (copy : Copy) (source destination : Nat) : Prop :=
  copy.size = 0 ∨ 0 ≤ copy.dst ∧ copy.dst + copy.size ≤ destination ∧ 0 ≤ copy.src ∧ copy.src + copy.size ≤ source

def run (source : Nat → UInt8) (mem : Nat → UInt8) (copy : Copy) : Nat → UInt8 :=
  put mem copy.dst.toNat (slice source copy.src.toNat copy.size)

end Copy

namespace Image

/-- The rows of a packed format. The offsets are formed in 32 bits. -/
def packedCopy (src : Image) (r : Rectangle) (i : Nat) : Copy :=
  ⟨u32 (i * r.width * src.bpp), u32 ((src.width * (i + r.top) + r.left) * src.bpp), u32 (r.width * src.bpp)⟩

/-- The rows of plane `c`. Pointers are moved by an unsigned offset, and by one of the type of the fields. -/
def planeCopy (src : Image) (r : Rectangle) (c i : Nat) : Copy :=
  ⟨u32 (i * r.width) + r.w.toInt * r.h.toInt * c, u32 (src.width * (i + r.top)) + r.x.toInt + u32 (src.width * src.height * c), r.width⟩

/-- What `cut` copies, in its order. -/
def cutCopies (src : Image) (r : Rectangle) : List Copy :=
  match src.format with
  | .grayscale | .rgb565 | .rgb888 => (List.range r.height).map (src.packedCopy r)
  | .rgbp888 =>
      (List.range r.height).map (src.planeCopy r 0) ++
        ((List.range r.height).map (src.planeCopy r 1) ++ (List.range r.height).map (src.planeCopy r 2))
  | .invalid => []

variable {src dst : Image} {r : Rectangle} {malloc : Nat → Option (Nat → UInt8)} {create : Bool} {source : Nat → UInt8}

theorem row_within (inside : r.Inside src) {i : Nat} (row : i < r.height) :
    src.width * (i + r.top) + r.left + r.width ≤ src.width * src.height := by
  have exact := inside.exact
  have right := inside.right
  have bottom := inside.bottom
  have rows : i + r.top + 1 ≤ src.height := by omega
  have columns : r.left + r.width ≤ src.width := by omega
  have below := Nat.mul_le_mul_left src.width rows
  rw [Nat.mul_succ] at below
  omega

private theorem area_le (inside : r.Inside src) : r.width * r.height ≤ src.width * src.height :=
  Nat.mul_le_mul inside.size.1 inside.size.2

private theorem packedCopy_eq (sized : src.Sized) (inside : r.Inside src) {i : Nat} (row : i < r.height) :
    src.packedCopy r i =
      ⟨(i * (r.width * src.bpp) : Nat), ((src.width * (i + r.top) + r.left) * src.bpp : Nat), r.width * src.bpp⟩ := by
  have three : src.bpp ≤ 3 := by
    rw [sized.bpp]
    cases src.format <;> decide
  have total : src.width * src.height * src.bpp < u32Range :=
    (Nat.mul_le_mul_left _ three).trans_lt sized.size
  have reach := Nat.mul_le_mul_right src.bpp (row_within inside row)
  rw [Nat.add_mul] at reach
  have cells : i * r.width + r.width ≤ src.width * src.height := by
    have area := area_le inside
    have rows := Nat.mul_le_mul_left r.width row
    rw [Nat.mul_succ, Nat.mul_comm r.width i] at rows
    omega
  have written := Nat.mul_le_mul_right src.bpp cells
  rw [Nat.add_mul] at written
  rw [packedCopy, u32_fits (by omega), u32_fits (by omega), u32_fits (by omega), Nat.mul_assoc]

private theorem planeCopy_eq (sized : src.Sized) (inside : r.Inside src) {c i : Nat} (plane : c < 3) (row : i < r.height) :
    src.planeCopy r c i =
      ⟨(r.width * r.height * c + i * r.width : Nat), (src.width * (i + r.top) + r.left + src.width * src.height * c : Nat), r.width⟩ := by
  have exact := inside.exact
  have reach := row_within inside row
  have total := sized.size
  have planes : src.width * src.height * c ≤ src.width * src.height * 3 := Nat.mul_le_mul_left _ (by omega)
  have rows : i * r.width ≤ src.width * src.height := by
    have area := area_le inside
    have below := Nat.mul_le_mul_left r.width row
    rw [Nat.mul_succ, Nat.mul_comm r.width i] at below
    omega
  have whole : src.width * src.height ≤ src.width * src.height * 3 := Nat.le_mul_of_pos_right _ (by decide)
  rw [planeCopy, u32_fits (by omega), u32_fits (by omega), u32_fits (by omega), ← exact.1, ← exact.2.2.1, ← exact.2.2.2]
  congr 1
  push_cast
  exact Int.add_comm _ _

/-- The loops of `cut` are these copies one after the other. -/
theorem cutCopies_run (sized : src.Sized) (inside : r.Inside src) (valid : src.format ≠ .invalid) (buffer : Nat → UInt8) :
    src.cutLoop r source buffer = some ((src.cutCopies r).foldl (Copy.run source) buffer) := by
  have packed : lay 0 (r.width * src.bpp) r.height
      (fun i => slice source ((src.width * (i + r.top) + r.left) * src.bpp) (r.width * src.bpp)) buffer =
      ((List.range r.height).map (src.packedCopy r)).foldl (Copy.run source) buffer := by
    rw [List.foldl_map]
    refine Raster.sweep_congr (fun i row => ?_) buffer
    funext mem
    rw [packedCopy_eq sized inside row, Nat.zero_add]
    rfl
  have planar : ∀ (c : Nat), c < 3 → ∀ mem, src.copyPlane r source c mem =
      ((List.range r.height).map (src.planeCopy r c)).foldl (Copy.run source) mem := by
    intro c plane mem
    rw [List.foldl_map]
    refine Raster.sweep_congr (fun i row => ?_) mem
    funext mem
    rw [planeCopy_eq sized inside plane row]
    rfl
  unfold cutLoop cutCopies
  cases format : src.format with
  | invalid => exact absurd format valid
  | rgbp888 =>
    dsimp only
    rw [planar 0 (by decide), planar 1 (by decide), planar 2 (by decide), ← List.foldl_append, ← List.foldl_append]
  | _ =>
    dsimp only
    rw [packed]

private theorem within_iff {d s size : Nat} (some : 0 < size) (source destination : Nat) :
    (⟨d, s, size⟩ : Copy).Within source destination ↔ d + size ≤ destination ∧ s + size ≤ source := by
  unfold Copy.Within
  dsimp only
  omega

private theorem Inside.high (inside : r.Inside src) : 0 < r.height := by
  have height := inside.height
  have exact := inside.exact
  omega

private theorem row_le {i : Nat} (row : i < r.height) : i * r.width + r.width ≤ r.width * r.height := by
  have below := Nat.mul_le_mul_left r.width row
  rwa [Nat.mul_succ, Nat.mul_comm r.width i] at below

private theorem last_row (high : 0 < r.height) : (r.height - 1) * r.width + r.width = r.width * r.height := by
  rw [← Nat.succ_mul, Nat.succ_eq_add_one, Nat.sub_add_cancel high, Nat.mul_comm]

private theorem packedCopy_within_iff (sized : src.Sized) (inside : r.Inside src) (positive : 0 < src.bpp) (capacity : Nat) :
    (∀ copy ∈ (List.range r.height).map (src.packedCopy r), copy.Within (src.count * src.bpp) capacity) ↔
      r.width * r.height * src.bpp ≤ capacity := by
  have some := Nat.mul_pos inside.positive positive
  have high := Inside.high inside
  rw [List.forall_mem_map]
  constructor
  · intro all
    have last := all (r.height - 1) (List.mem_range.mpr (by omega))
    rw [packedCopy_eq sized inside (by omega), within_iff some, ← Nat.mul_assoc, ← Nat.add_mul, last_row high] at last
    exact last.1
  · intro room i row
    have row := List.mem_range.mp row
    rw [packedCopy_eq sized inside row, within_iff some, ← Nat.mul_assoc, ← Nat.add_mul, ← Nat.add_mul]
    exact ⟨(Nat.mul_le_mul_right _ (row_le row)).trans room, Nat.mul_le_mul_right _ (row_within inside row)⟩

private theorem planeCopy_within_iff (sized : src.Sized) (inside : r.Inside src) {c : Nat} (plane : c < 3) (capacity : Nat) :
    (∀ copy ∈ (List.range r.height).map (src.planeCopy r c), copy.Within (src.count * 3) capacity) ↔
      r.width * r.height * (c + 1) ≤ capacity := by
  have some := inside.positive
  have high := Inside.high inside
  have last := last_row high
  have next : r.width * r.height * (c + 1) = r.width * r.height * c + r.width * r.height := Nat.mul_succ _ _
  rw [List.forall_mem_map]
  constructor
  · intro all
    have final := all (r.height - 1) (List.mem_range.mpr (by omega))
    rw [planeCopy_eq sized inside plane (by omega), within_iff some] at final
    omega
  · intro room i row
    have row := List.mem_range.mp row
    have reach := row_within inside row
    have planes : src.width * src.height * (c + 1) ≤ src.width * src.height * 3 := Nat.mul_le_mul_left _ plane
    have here := row_le row
    have rest : src.width * src.height * (c + 1) = src.width * src.height * c + src.width * src.height := Nat.mul_succ _ _
    rw [planeCopy_eq sized inside plane row, within_iff some, Image.count]
    omega

/-- The copies stay in the two buffers exactly when the destination has room for the pixels. -/
theorem cutCopies_within_iff (sized : src.Sized) (inside : r.Inside src) (valid : src.format ≠ .invalid) (capacity : Nat) :
    (∀ copy ∈ src.cutCopies r, copy.Within (src.count * src.bpp) capacity) ↔ r.width * r.height * src.bpp ≤ capacity := by
  have positive : 0 < src.bpp := by
    rw [sized.bpp]
    cases format : src.format with
    | invalid => exact absurd format valid
    | _ => decide
  unfold cutCopies
  cases format : src.format with
  | invalid => exact absurd format valid
  | rgbp888 =>
    have three : src.bpp = 3 := sized.bpp.trans (by rw [format]; rfl)
    dsimp only
    rw [List.forall_mem_append, List.forall_mem_append, three, planeCopy_within_iff sized inside (by decide),
      planeCopy_within_iff sized inside (by decide), planeCopy_within_iff sized inside (by decide)]
    omega
  | _ => exact packedCopy_within_iff sized inside positive capacity

/-- The buffer that a call fills: a fresh one, or that of the destination. -/
def cutBuffer (malloc : Nat → Option (Nat → UInt8)) (src dst : Image) (r : Rectangle) (create : Bool) : Option (Nat → UInt8) :=
  if create then malloc (u32 (r.width * r.height * src.bpp)) else dst.pixel

def cutCapacity (src : Image) (r : Rectangle) (create : Bool) (capacity : Nat) : Nat :=
  if create then u32 (r.width * r.height * src.bpp) else capacity

/-- With a buffer, a call succeeds exactly for rectangles inside the image. It makes their pixels, and touches no byte
outside the two buffers. A call that fails leaves the destination as it was. -/
structure CutSound (malloc : Nat → Option (Nat → UInt8)) (src dst : Image) (r : Rectangle) (create : Bool) (source : Nat → UInt8)
    (capacity : Nat) : Prop where
  succeeds : (cutBuffer malloc src dst r create).isSome → ((cut malloc src dst r create).1 = 0 ↔ r.Inside src)
  pixels : (cut malloc src dst r create).1 = 0 →
    Drawn r src.format (fun y x => src.format.texel src.count source (src.cellOf r y x)) (cut malloc src dst r create).2
  touches : (cut malloc src dst r create).1 = 0 →
    ∀ copy ∈ src.cutCopies r, copy.Within (src.count * src.bpp) (src.cutCapacity r create capacity)
  keeps : (cut malloc src dst r create).1 ≠ 0 → (cut malloc src dst r create).2 = dst

private theorem cut_refused (pixels : src.pixel = some source) (refused : create = false ∧ dst.pixel = none ∨ r.TooLarge src) :
    cut malloc src dst r create = (-1, dst) := by
  simp only [cut, pixels]
  rcases refused with ⟨kept, bare⟩ | large
  · simp [kept, bare]
  · rw [if_pos large]
    split <;> rfl

theorem cut_starved (pixels : src.pixel = some source) (given : ¬ (create = false ∧ dst.pixel = none)) (small : ¬ r.TooLarge src)
    (starved : cutBuffer malloc src dst r create = none) :
    cut malloc src dst r create = (-1, ⟨r.width, r.height, src.bpp, src.format, none⟩) := by
  simp only [cut, pixels, Option.isNone_iff_eq_none, if_neg given, if_neg small]
  unfold cutBuffer at starved
  rw [starved]

private theorem cut_succeeds (pixels : src.pixel = some source) (valid : src.format ≠ .invalid)
    (given : ¬ (create = false ∧ dst.pixel = none)) (small : ¬ r.TooLarge src) {buffer : Nat → UInt8}
    (granted : cutBuffer malloc src dst r create = some buffer) : (cut malloc src dst r create).1 = 0 := by
  obtain ⟨filled, looped⟩ := cutLoop_total src r valid source buffer
  simp only [cut, pixels, Option.isNone_iff_eq_none, if_neg given, if_neg small]
  unfold cutBuffer at granted
  rw [granted]
  simp only [looped]

/-- When a call does what it should: it is refused for want of a buffer or by the test, or the rectangle is one and the
buffer has room, or the allocation fails and the destination has the new shape and no pixels already. -/
theorem cut_rectangle_iff (sized : src.Sized) (pixels : src.pixel = some source) (valid : src.format ≠ .invalid) (capacity : Nat) :
    CutSound malloc src dst r create source capacity ↔
      create = false ∧ dst.pixel = none ∨ r.TooLarge src ∨
      (cutBuffer malloc src dst r create).isSome ∧ r.Inside src ∧ r.width * r.height * src.bpp ≤ src.cutCapacity r create capacity ∨
      create = true ∧ cutBuffer malloc src dst r create = none ∧ dst = ⟨r.width, r.height, src.bpp, src.format, none⟩ := by
  by_cases refused : create = false ∧ dst.pixel = none ∨ r.TooLarge src
  · have failed : cut malloc src dst r create = (-1, dst) := cut_refused pixels refused
    have outside : (cutBuffer malloc src dst r create).isSome → ¬ r.Inside src := by
      intro some inside
      rcases refused with ⟨kept, bare⟩ | large
      · simp [cutBuffer, kept, bare] at some
      · exact inside.fits large
    refine ⟨fun _ => or_assoc.mp (Or.inl refused), fun _ => ⟨fun some => ?_, ?_, ?_, fun _ => by rw [failed]⟩⟩
    · simp [failed, outside some]
    · simp [failed]
    · simp [failed]
  · have given := fun bare => refused (Or.inl bare)
    have small := fun large => refused (Or.inr large)
    have rest : ∀ p : Prop, (create = false ∧ dst.pixel = none ∨ r.TooLarge src ∨ p) ↔ p := fun p =>
      ⟨fun one => (one.resolve_left given).resolve_left small, fun holds => Or.inr (Or.inr holds)⟩
    rw [rest]
    cases granted : cutBuffer malloc src dst r create with
    | none =>
      have made : create = true := by
        by_contra kept
        exact given ⟨Bool.eq_false_of_not_eq_true kept, by simpa [cutBuffer, kept] using granted⟩
      have starved := cut_starved pixels given small granted
      constructor
      · intro sound
        have same := sound.keeps (by simp [starved])
        rw [starved] at same
        exact Or.inr ⟨made, rfl, same.symm⟩
      · rintro (⟨some, _⟩ | ⟨_, _, same⟩)
        · cases some
        · refine ⟨fun some => ?_, ?_, ?_, fun _ => ?_⟩
          · rw [granted] at some
            cases some
          · simp [starved]
          · simp [starved]
          · rw [starved, ← same]
    | some buffer =>
      have done := cut_succeeds pixels valid given small granted
      have result : cut malloc src dst r create = (0, (cut malloc src dst r create).2) := Prod.ext done rfl
      constructor
      · intro sound
        have inside := (sound.succeeds (by rw [granted]; rfl)).mp done
        exact Or.inl ⟨rfl, inside, (cutCopies_within_iff sized inside valid _).mp (sound.touches done)⟩
      · rintro (⟨_, inside, room⟩ | ⟨_, none, _⟩)
        · exact ⟨fun _ => ⟨fun _ => inside, fun _ => done⟩, fun _ => Cut.drawn sized.bpp pixels ⟨malloc, dst, create, result⟩,
            fun _ => (cutCopies_within_iff sized inside valid _).mpr room, fun failed => absurd done failed⟩
        · cases none

def emptyRectangle : Rectangle := ⟨0, 0, 0, 1⟩

def onePixelGray : Image := ⟨1, 1, 1, .grayscale, some fun _ => 7⟩

theorem cut_sound_one : CutSound (fun _ => some fun _ => 0) onePixelGray onePixelGray onePixelRectangle true (fun _ => 7) 1 ↔
    (true = false ∧ onePixelGray.pixel = none ∨ onePixelRectangle.TooLarge onePixelGray ∨
      (cutBuffer (fun _ => some fun _ => 0) onePixelGray onePixelGray onePixelRectangle true).isSome ∧
        onePixelRectangle.Inside onePixelGray ∧
        onePixelRectangle.width * onePixelRectangle.height * 1 ≤ onePixelGray.cutCapacity onePixelRectangle true 1 ∨
      true = true ∧ cutBuffer (fun _ => some fun _ => 0) onePixelGray onePixelGray onePixelRectangle true = none ∧
        onePixelGray = ⟨onePixelRectangle.width, onePixelRectangle.height, 1, .grayscale, none⟩) :=
  cut_rectangle_iff ⟨rfl, by decide⟩ rfl (by decide) 1

/-- It is cut out into a buffer that is there, although it has no pixels. -/
theorem empty_rectangle_cut : ¬ CutSound (fun _ => none) onePixelGray onePixelGray emptyRectangle false (fun _ => 7) 1 := by
  intro sound
  have inside := (sound.succeeds rfl).mp rfl
  exact absurd inside.width (by decide)

end Image

end ArduinoK210.Imaging
