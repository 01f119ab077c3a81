import ArduinoK210.Display.Panel
import ArduinoK210.Imaging.Color
import Mathlib.Tactic.Linarith

/-! Bitmaps that are copied into the framebuffer row by row. The sizes of the copies are `int`s that
`memcpy` takes as `size_t`, and the places count from the framebuffer, to either side. -/

namespace ArduinoK210.Display

/-- A call of `memcpy` from the bitmap into the framebuffer, in pixels. -/
structure Copy where
  dst : Int
  src : Int
  count : Int

/-- The display with the memory in front of its framebuffer, and the copies so far. -/
structure Canvas where
  lcd : St7789v
  below : Nat → UInt16
  copies : List Copy

def copied (bytes : Int) : Int := bytes % 2 ^ 64 / 2

namespace Copy

def covers (copy : Copy) (place : Int) : Prop := copy.dst ≤ place ∧ place < copy.dst + copy.count

instance (copy : Copy) (place : Int) : Decidable (copy.covers place) := inferInstanceAs (Decidable (_ ∧ _))

def put (bitmap : Int → UInt16) (place : Int) (old : UInt16) (copy : Copy) : UInt16 :=
  if copy.covers place then bitmap (copy.src + (place - copy.dst)) else old

end Copy

namespace Canvas

/-- The memory at a distance from the framebuffer. -/
def pixelAt (place : Int) (canvas : Canvas) : UInt16 :=
  if 0 ≤ place then canvas.lcd.frameBuffer place.toNat else canvas.below (-1 - place).toNat

def memcpy (bitmap : Int → UInt16) (canvas : Canvas) (copy : Copy) : Canvas where
  lcd := { canvas.lcd with frameBuffer := fun cell => copy.put bitmap cell (canvas.lcd.frameBuffer cell) }
  below := fun depth => copy.put bitmap (-1 - depth) (canvas.below depth)
  copies := canvas.copies ++ [copy]

def markAll (canvas : Canvas) : Canvas :=
  { canvas with lcd := { canvas.lcd with
      pixelMap := fun entry => if entry < canvas.lcd.pixelMapSize then 0xFF else canvas.lcd.pixelMap entry } }

end Canvas

namespace St7789v

/-- The test of `drawFastRGBBitmap`. -/
def Overhangs (rx ry rw rh : Int16) (lcd : St7789v) : Prop :=
  lcd.width.toInt < rx.toInt + rw.toInt ∨ lcd.height.toInt < ry.toInt + rh.toInt

instance (rx ry rw rh : Int16) (lcd : St7789v) : Decidable (lcd.Overhangs rx ry rw rh) := inferInstanceAs (Decidable (_ ∨ _))

/-- The test for the whole screen. -/
def Whole (rx ry rw rh : Int16) (lcd : St7789v) : Prop := rx = 0 ∧ ry = 0 ∧ rw = lcd.width ∧ rh = lcd.height

instance (rx ry rw rh : Int16) (lcd : St7789v) : Decidable (lcd.Whole rx ry rw rh) := inferInstanceAs (Decidable (_ ∧ _))

def wholeCopy (lcd : St7789v) : Copy := ⟨0, 0, copied (lcd.width.toInt * lcd.height.toInt * 2)⟩

def rowCopy (rx ry rw : Int16) (i : Nat) (lcd : St7789v) : Copy :=
  ⟨(i + ry.toInt) * lcd.width.toInt + rx.toInt, i * rw.toInt, copied (rw.toInt * 2)⟩

end St7789v

structure Picture where
  format : Imaging.Format
  width : UInt32
  height : UInt32
  pixel : Option (Int → UInt16)

namespace Canvas

def drawFastRGBBitmap (rx ry rw rh : Int16) (bitmap : Int → UInt16) (canvas : Canvas) : Canvas :=
  let lcd := canvas.lcd
  let canvas := canvas.markAll
  if lcd.Overhangs rx ry rw rh then canvas
  else if lcd.Whole rx ry rw rh then canvas.memcpy bitmap lcd.wholeCopy
  else (List.range rh.toInt.toNat).foldl (fun canvas i => canvas.memcpy bitmap (lcd.rowCopy rx ry rw i)) canvas

/-- The tests of `drawImage`: the sums have the width of the image's fields, and the screen's size becomes one of those. -/
def Skips (img : Picture) (x y : Int16) (canvas : Canvas) : Prop :=
  img.format ≠ .rgb565 ∨ asUInt32 canvas.lcd.width.toInt < asUInt32 (img.width.toNat + x.toInt) ∨
    asUInt32 canvas.lcd.height.toInt < asUInt32 (img.height.toNat + y.toInt)

instance (img : Picture) (x y : Int16) (canvas : Canvas) : Decidable (canvas.Skips img x y) := inferInstanceAs (Decidable (_ ∨ _))

def drawImage (img : Picture) (x y : Int16) (canvas : Canvas) : Canvas :=
  if canvas.Skips img x y then canvas
  else
    match img.pixel with
    | none => canvas
    | some bitmap => canvas.drawFastRGBBitmap x y (.ofNat img.width.toNat) (.ofNat img.height.toNat) bitmap

/-- The pixel of the screen in column `px` and row `py`, where it lies in a rectangle. -/
structure Pixel (x y w h px py : Int) (lcd : St7789v) : Prop where
  columns : x ≤ px ∧ px < x + w
  rows : y ≤ py ∧ py < y + h
  across : 0 ≤ px ∧ px < lcd.width.toInt
  down : 0 ≤ py ∧ py < lcd.height.toInt

/-- Every pixel that is written is one of the rectangle and of the framebuffer, and gets the bitmap's pixel of that place. -/
structure Draws (x y w h : Int) (bitmap : Int → UInt16) (canvas after : Canvas) : Prop where
  writes : ∃ more, after.copies = canvas.copies ++ more ∧
    ∀ copy ∈ more, ∀ k, 0 ≤ k → k < copy.count → canvas.lcd.hasBuffer = true ∧
      ∃ px py, Pixel x y w h px py canvas.lcd ∧ copy.dst + k = py * canvas.lcd.width.toInt + px ∧
        copy.src + k = (py - y) * w + (px - x)
  changes : ∀ place, after.pixelAt place ≠ canvas.pixelAt place →
    ∃ px py, Pixel x y w h px py canvas.lcd ∧ place = py * canvas.lcd.width.toInt + px ∧
      after.pixelAt place = bitmap ((py - y) * w + (px - x))

/-- The copies of an accepted call stay on the screen: there are none, or the rectangle is not empty and starts on it. -/
def Placed (rx ry rw rh : Int16) (lcd : St7789v) : Prop :=
  rw = 0 ∨ rh = 0 ∨ (rh.toInt < 0 ∧ ¬lcd.Whole rx ry rw rh) ∨
    (lcd.hasBuffer = true ∧ 0 ≤ rx.toInt ∧ 0 ≤ ry.toInt ∧ 0 < rw.toInt ∧ 0 < rh.toInt)

def Marked (lcd : St7789v) : Prop := ∀ entry, entry < lcd.pixelMapSize → lcd.pixelMap entry = 0xFF

/-- The copies of an accepted call. -/
def copiesOf (rx ry rw rh : Int16) (lcd : St7789v) : List Copy :=
  if lcd.Whole rx ry rw rh then [lcd.wholeCopy] else (List.range rh.toInt.toNat).map (lcd.rowCopy rx ry rw)

/-- What a copy needs: each of its pixels is one of the rectangle and of the framebuffer. -/
def Stays (x y w h : Int) (lcd : St7789v) (copy : Copy) : Prop :=
  ∀ k, 0 ≤ k → k < copy.count → lcd.hasBuffer = true ∧
    ∃ px py, Pixel x y w h px py lcd ∧ copy.dst + k = py * lcd.width.toInt + px ∧ copy.src + k = (py - y) * w + (px - x)

variable {canvas : Canvas} {lcd : St7789v} {rx ry rw rh : Int16} {bitmap : Int → UInt16} {x y w h : Int}

private theorem pixelAt_memcpy (bitmap : Int → UInt16) (canvas : Canvas) (copy : Copy) (place : Int) :
    (canvas.memcpy bitmap copy).pixelAt place = copy.put bitmap place (canvas.pixelAt place) := by
  unfold pixelAt memcpy
  dsimp only
  split
  next front => rw [Int.toNat_of_nonneg front]
  next behind =>
    have back : -1 - ((-1 - place).toNat : Int) = place := by omega
    rw [back]

/-- What a place holds after some copies it held before or has from one of them. -/
theorem pixelAt_copies (bitmap : Int → UInt16) (copies : List Copy) (canvas : Canvas) (place : Int) :
    (copies.foldl (memcpy bitmap) canvas).pixelAt place = canvas.pixelAt place ∨
      ∃ copy ∈ copies, copy.covers place ∧ (copies.foldl (memcpy bitmap) canvas).pixelAt place = bitmap (copy.src + (place - copy.dst)) := by
  induction copies generalizing canvas with
  | nil => exact .inl rfl
  | cons copy copies ih =>
    rw [List.foldl_cons]
    obtain kept | ⟨other, member, covered, value⟩ := ih (canvas.memcpy bitmap copy)
    · rw [kept, pixelAt_memcpy]
      unfold Copy.put
      split
      next covered => exact .inr ⟨copy, List.mem_cons_self, covered, rfl⟩
      next => exact .inl rfl
    · exact .inr ⟨other, List.mem_cons_of_mem _ member, covered, value⟩

private theorem copies_log (copies : List Copy) (canvas : Canvas) :
    (copies.foldl (memcpy bitmap) canvas).copies = canvas.copies ++ copies := by
  induction copies generalizing canvas with
  | nil => exact (List.append_nil _).symm
  | cons copy copies ih =>
    rw [List.foldl_cons, ih]
    exact List.append_assoc _ [copy] copies

private theorem drawn_copies (fits : ¬canvas.lcd.Overhangs rx ry rw rh) :
    canvas.drawFastRGBBitmap rx ry rw rh bitmap = (copiesOf rx ry rw rh canvas.lcd).foldl (memcpy bitmap) canvas.markAll := by
  unfold drawFastRGBBitmap copiesOf
  dsimp only
  rw [if_neg fits]
  split
  next => rfl
  next => rw [List.foldl_map]

private theorem refused_marks (wide : canvas.lcd.Overhangs rx ry rw rh) : canvas.drawFastRGBBitmap rx ry rw rh bitmap = canvas.markAll :=
  if_pos wide

/-- An accepted call draws what it should just when its copies stay on the screen. -/
theorem draws_iff_stays (fits : ¬canvas.lcd.Overhangs rx ry rw rh) :
    Draws x y w h bitmap canvas (canvas.drawFastRGBBitmap rx ry rw rh bitmap) ↔
      ∀ copy ∈ copiesOf rx ry rw rh canvas.lcd, Stays x y w h canvas.lcd copy := by
  rw [drawn_copies fits]
  constructor
  · rintro ⟨⟨more, log, inside⟩, -⟩
    rw [copies_log] at log
    rw [List.append_cancel_left log]
    exact inside
  · intro stays
    refine ⟨⟨_, copies_log _ _, stays⟩, fun place differs => ?_⟩
    obtain same | ⟨copy, member, covered, value⟩ := pixelAt_copies bitmap (copiesOf rx ry rw rh canvas.lcd) canvas.markAll place
    · exact absurd same differs
    · obtain ⟨-, px, py, pixel, cell, source⟩ := stays copy member (place - copy.dst) (by have := covered.1; omega)
        (by have := covered.2; omega)
      refine ⟨px, py, pixel, by omega, ?_⟩
      rw [value, source]

private theorem copied_pos {bytes : Int} (some : bytes ≠ 0) (low : -4294967296 ≤ bytes) (high : bytes ≤ 4294967296) (even : bytes % 2 = 0) :
    0 < copied bytes := by
  unfold copied
  omega

private theorem copied_row {size : Int} (positive : 0 ≤ size) (high : size ≤ 4294967296) : copied (size * 2) = size := by
  unfold copied
  omega

private theorem product_bounds (a b : Int16) : -2147483648 ≤ a.toInt * b.toInt ∧ a.toInt * b.toInt ≤ 2147483648 := by
  have left := a.le_toInt
  have right := a.toInt_lt
  have top := b.le_toInt
  have bottom := b.toInt_lt
  constructor <;> nlinarith

/-- A pixel on the screen has its cell among the first ones. -/
theorem Pixel.cell_lt {px py : Int} (pixel : Pixel x y w h px py lcd) :
    py * lcd.width.toInt + px < 1073741824 := by
  have right := lcd.width.toInt_lt
  have bottom := lcd.height.toInt_lt
  have across := pixel.across
  have down := pixel.down
  nlinarith

theorem Pixel.corner {px py : Int} (pixel : Pixel x y w h px py lcd) (source : 0 = (py - y) * w + (px - x)) : px = x ∧ py = y := by
  obtain ⟨columns, rows, -, -⟩ := pixel
  have wide : 0 < w := by omega
  by_cases same : py = y
  · rw [same, Int.sub_self, Int.zero_mul] at source
    exact ⟨by omega, same⟩
  · have further : w ≤ (py - y) * w := le_mul_of_one_le_left (Int.le_of_lt wide) (by omega)
    omega

theorem wholeCopy_corner (width : lcd.width.toInt ≠ 0) (height : lcd.height.toInt ≠ 0) (stays : Stays x y w h lcd lcd.wholeCopy) :
    lcd.hasBuffer = true ∧ 0 < lcd.width.toInt ∧ 0 < lcd.height.toInt := by
  have bounds := product_bounds lcd.width lcd.height
  have some : lcd.width.toInt * lcd.height.toInt ≠ 0 := Int.mul_ne_zero width height
  have counts : 0 < lcd.wholeCopy.count := copied_pos (by omega) (by omega) (by omega) (by omega)
  obtain ⟨buffer, px, py, pixel, -, -⟩ := stays 0 (Int.le_refl 0) counts
  have across := pixel.across
  have down := pixel.down
  exact ⟨buffer, by omega, by omega⟩

/-- The first row starts with the corner of the rectangle. -/
theorem rowCopy_corner (some : rw.toInt ≠ 0) (stays : Stays rx.toInt ry.toInt w h lcd (lcd.rowCopy rx ry rw 0)) :
    lcd.hasBuffer = true ∧ (0 ≤ rx.toInt ∧ rx.toInt < lcd.width.toInt) ∧ 0 ≤ ry.toInt ∧ ry.toInt < lcd.height.toInt := by
  have left := rw.le_toInt
  have right := rw.toInt_lt
  have counts : 0 < (lcd.rowCopy rx ry rw 0).count := copied_pos (by omega) (by omega) (by omega) (by omega)
  obtain ⟨buffer, px, py, pixel, -, source⟩ := stays 0 (Int.le_refl 0) counts
  obtain ⟨rfl, rfl⟩ := pixel.corner (by simpa [St7789v.rowCopy] using source)
  exact ⟨buffer, pixel.across, pixel.down⟩

/-- A negative width is a size of almost the whole address space, and its first row leaves the screen. -/
theorem rowCopy_huge (negative : rw.toInt < 0) (left : 0 ≤ rx.toInt) (top : 0 ≤ ry.toInt) (screen : 0 ≤ lcd.width.toInt) :
    ¬Stays x y w h lcd (lcd.rowCopy rx ry rw 0) := by
  intro stays
  have least := rw.le_toInt
  have huge : 4611686018427387904 < (lcd.rowCopy rx ry rw 0).count := by
    show (4611686018427387904 : Int) < rw.toInt * 2 % 2 ^ 64 / 2
    omega
  obtain ⟨-, px, py, pixel, cell, -⟩ := stays 4611686018427387904 (by decide) huge
  have most := pixel.cell_lt
  have start : 0 ≤ ((0 : Nat) + ry.toInt) * lcd.width.toInt + rx.toInt := by
    have product : 0 ≤ ry.toInt * lcd.width.toInt := Int.mul_nonneg top screen
    rw [Int.natCast_zero, Int.zero_add]
    omega
  have place : ((0 : Nat) + ry.toInt) * lcd.width.toInt + rx.toInt + 4611686018427387904 = py * lcd.width.toInt + px := cell
  omega

private theorem stays_placed
    (stays : ∀ copy ∈ copiesOf rx ry rw rh lcd, Stays rx.toInt ry.toInt w h lcd copy) : Placed rx ry rw rh lcd := by
  by_contra unplaced
  obtain ⟨someWidth, someHeight, notAbove, notBelow⟩ : rw.toInt ≠ 0 ∧ rh.toInt ≠ 0 ∧ ¬(rh.toInt < 0 ∧ ¬lcd.Whole rx ry rw rh) ∧
      ¬(lcd.hasBuffer = true ∧ 0 ≤ rx.toInt ∧ 0 ≤ ry.toInt ∧ 0 < rw.toInt ∧ 0 < rh.toInt) := by
    simpa only [Placed, not_or, ← Int16.toInt_inj, Int16.toInt_zero] using unplaced
  unfold copiesOf at stays
  by_cases whole : lcd.Whole rx ry rw rh
  · rw [if_pos whole] at stays
    obtain ⟨left, top, width, height⟩ := whole
    obtain ⟨buffer, wide, high⟩ := wholeCopy_corner (width ▸ someWidth) (height ▸ someHeight) (stays lcd.wholeCopy List.mem_cons_self)
    apply notBelow
    rw [left, top, width, height, Int16.toInt_zero]
    exact ⟨buffer, Int.le_refl 0, Int.le_refl 0, wide, high⟩
  · rw [if_neg whole] at stays
    have high : 0 < rh.toInt := by
      have nonneg : ¬rh.toInt < 0 := fun negative => notAbove ⟨negative, whole⟩
      omega
    have first : lcd.rowCopy rx ry rw 0 ∈ (List.range rh.toInt.toNat).map (lcd.rowCopy rx ry rw) :=
      List.mem_map_of_mem (List.mem_range.mpr (by omega))
    obtain ⟨buffer, across, down⟩ := rowCopy_corner someWidth (stays _ first)
    have negative : rw.toInt < 0 := by
      by_contra positive
      exact notBelow ⟨buffer, across.1, down.1, by omega, high⟩
    exact rowCopy_huge negative across.1 down.1 (by omega) (stays _ first)

private theorem wholeCopy_stays (buffer : lcd.hasBuffer = true) (wide : 0 < lcd.width.toInt) (high : 0 < lcd.height.toInt) :
    Stays 0 0 lcd.width.toInt lcd.height.toInt lcd lcd.wholeCopy := by
  intro k front behind
  have bounds := product_bounds lcd.width lcd.height
  have counted : lcd.wholeCopy.count = lcd.width.toInt * lcd.height.toInt :=
    copied_row (Int.mul_nonneg (Int.le_of_lt wide) (Int.le_of_lt high)) (by omega)
  rw [counted] at behind
  have column := Int.emod_nonneg k (Int.ne_of_gt wide)
  have column' := Int.emod_lt_of_pos k wide
  have row : 0 ≤ k / lcd.width.toInt := Int.ediv_nonneg front (Int.le_of_lt wide)
  have row' : k / lcd.width.toInt < lcd.height.toInt := Int.ediv_lt_of_lt_mul wide (by rwa [Int.mul_comm] at behind)
  have split : k / lcd.width.toInt * lcd.width.toInt + k % lcd.width.toInt = k := Int.ediv_mul_add_emod k _
  refine ⟨buffer, k % lcd.width.toInt, k / lcd.width.toInt, ⟨by omega, by omega, by omega, by omega⟩, ?_, ?_⟩
  · show 0 + k = _
    rw [split, Int.zero_add]
  · show 0 + k = _
    rw [Int.sub_zero, Int.sub_zero, split, Int.zero_add]

private theorem rowCopy_stays (fits : ¬lcd.Overhangs rx ry rw rh) (buffer : lcd.hasBuffer = true) (left : 0 ≤ rx.toInt) (top : 0 ≤ ry.toInt)
    (wide : 0 < rw.toInt) {i : Nat} (inside : (i : Int) < rh.toInt) :
    Stays rx.toInt ry.toInt rw.toInt rh.toInt lcd (lcd.rowCopy rx ry rw i) := by
  intro k front behind
  have room : rx.toInt + rw.toInt ≤ lcd.width.toInt ∧ ry.toInt + rh.toInt ≤ lcd.height.toInt := by
    unfold St7789v.Overhangs at fits
    omega
  have most := rw.toInt_lt
  have counted : (lcd.rowCopy rx ry rw i).count = rw.toInt := copied_row (by omega) (by omega)
  rw [counted] at behind
  refine ⟨buffer, rx.toInt + k, i + ry.toInt, ⟨by omega, by omega, by omega, by omega⟩, ?_, ?_⟩
  · exact Int.add_assoc _ _ _
  · show (i : Int) * rw.toInt + k = _
    rw [Int.add_sub_cancel, add_sub_cancel_left]

theorem empty_stays {copy : Copy} (empty : copy.count = 0) : Stays x y w h lcd copy :=
  fun _ front behind => absurd (empty ▸ behind) (Int.not_lt.mpr front)

private theorem placed_stays (fits : ¬lcd.Overhangs rx ry rw rh) (placed : Placed rx ry rw rh lcd)
    (same : 0 ≤ rx.toInt → 0 ≤ ry.toInt → 0 < rw.toInt → 0 < rh.toInt → w = rw.toInt ∧ h = rh.toInt) :
    ∀ copy ∈ copiesOf rx ry rw rh lcd, Stays rx.toInt ry.toInt w h lcd copy := by
  intro copy member
  unfold copiesOf at member
  by_cases whole : lcd.Whole rx ry rw rh
  · rw [if_pos whole, List.mem_singleton] at member
    obtain ⟨left, top, width, height⟩ := whole
    rw [member]
    have nothing : lcd.width.toInt = 0 ∨ lcd.height.toInt = 0 → lcd.wholeCopy.count = 0 := by
      intro zero
      rw [St7789v.wholeCopy, Int.mul_eq_zero.mpr zero]
      rfl
    obtain zero | zero | ⟨-, partly⟩ | ⟨buffer, -, -, wide, high⟩ := placed
    · exact empty_stays (nothing (.inl (by rw [← width, zero]; rfl)))
    · exact empty_stays (nothing (.inr (by rw [← height, zero]; rfl)))
    · exact absurd ⟨left, top, width, height⟩ partly
    · obtain ⟨width', height'⟩ := same (by rw [left]; decide) (by rw [top]; decide) wide high
      rw [left, top, width', height', width, height]
      exact wholeCopy_stays buffer (width ▸ wide) (height ▸ high)
  · rw [if_neg whole] at member
    obtain ⟨i, inside, rfl⟩ := List.mem_map.mp member
    have bound := List.mem_range.mp inside
    obtain zero | zero | ⟨negative, -⟩ | ⟨buffer, left, top, wide, high⟩ := placed
    · rw [zero]
      exact empty_stays rfl
    · rw [zero] at bound
      exact absurd bound (Nat.not_lt_zero i)
    · omega
    · obtain ⟨rfl, rfl⟩ := same left top wide high
      exact rowCopy_stays fits buffer left top wide (by omega)

/-- Neither the framebuffer nor the map has changed. -/
def Kept (canvas after : Canvas) : Prop :=
  after.lcd.frameBuffer = canvas.lcd.frameBuffer ∧ after.lcd.pixelMap = canvas.lcd.pixelMap

private theorem kept_markAll_iff : Kept canvas canvas.markAll ↔ Marked canvas.lcd := by
  constructor
  · rintro ⟨-, map⟩ entry inside
    have same : (if entry < canvas.lcd.pixelMapSize then 0xFF else canvas.lcd.pixelMap entry) = canvas.lcd.pixelMap entry :=
      congrFun map entry
    rw [if_pos inside] at same
    exact same.symm
  · intro marked
    refine ⟨rfl, funext fun entry => ?_⟩
    show (if entry < canvas.lcd.pixelMapSize then 0xFF else canvas.lcd.pixelMap entry) = canvas.lcd.pixelMap entry
    split
    next inside => exact (marked entry inside).symm
    next => rfl

private theorem Draws.refl {after : Canvas} (copies : after.copies = canvas.copies) (places : ∀ place, after.pixelAt place = canvas.pixelAt place) :
    Draws x y w h bitmap canvas after := by
  refine ⟨⟨[], by rw [copies, List.append_nil], fun copy member => absurd member List.not_mem_nil⟩, fun place differs => ?_⟩
  exact absurd (places place) differs

/-- The condition for both: a refused call finds a map that is marked already, and the copies of an accepted one stay. -/
def Proper (rx ry rw rh : Int16) (lcd : St7789v) : Prop := if lcd.Overhangs rx ry rw rh then Marked lcd else Placed rx ry rw rh lcd

/-- The rectangle whose sizes are those of the bitmap, and one that only turns into it. -/
theorem drawFast_proper_iff (bitmap : Int → UInt16) (canvas : Canvas)
    (same : ¬canvas.lcd.Overhangs rx ry rw rh → 0 ≤ rx.toInt → 0 ≤ ry.toInt → 0 < rw.toInt → 0 < rh.toInt → w = rw.toInt ∧ h = rh.toInt) :
    (Draws rx.toInt ry.toInt w h bitmap canvas (canvas.drawFastRGBBitmap rx ry rw rh bitmap) ∧
      (canvas.lcd.Overhangs rx ry rw rh → Kept canvas (canvas.drawFastRGBBitmap rx ry rw rh bitmap))) ↔
        Proper rx ry rw rh canvas.lcd := by
  unfold Proper
  by_cases wide : canvas.lcd.Overhangs rx ry rw rh
  · rw [if_pos wide, refused_marks wide, ← kept_markAll_iff]
    exact ⟨fun both => both.2 wide, fun kept => ⟨.refl rfl fun _ => rfl, fun _ => kept⟩⟩
  · rw [if_neg wide, draws_iff_stays wide]
    exact ⟨fun both => stays_placed both.1, fun placed => ⟨placed_stays wide placed (same wide), fun refused => absurd refused wide⟩⟩

/-- An image that is not skipped and whose truncated sizes fit behind its place has sizes that fit 16 bits. -/
theorem size_exact {size : UInt32} {place screen : Int16} (taken : ¬asUInt32 screen.toInt < asUInt32 (size.toNat + place.toInt))
    (front : 0 ≤ place.toInt) (positive : 0 < (Int16.ofNat size.toNat).toInt)
    (fits : place.toInt + (Int16.ofNat size.toNat).toInt ≤ screen.toInt) : (size.toNat : Int) = (Int16.ofNat size.toNat).toInt := by
  have bound := size.toNat_lt
  have last := screen.toInt_lt
  have truncated : (Int16.ofNat size.toNat).toInt = (size.toNat : Int).bmod (2 ^ 16) := Int16.toInt_ofNat'
  rw [truncated, Int.bmod_def] at positive fits ⊢
  unfold asUInt32 at taken
  split at positive <;> omega

/-- What is promised of `drawImage`, whose refusals are its own and those of the bitmap. -/
def DrawsImage (img : Picture) (x y : Int16) (canvas : Canvas) : Prop :=
  Draws x.toInt y.toInt img.width.toNat img.height.toNat (img.pixel.getD fun _ => 0) canvas (canvas.drawImage img x y) ∧
    (canvas.Skips img x y ∨ img.pixel = none ∨ canvas.lcd.Overhangs x y (.ofNat img.width.toNat) (.ofNat img.height.toNat) →
      Kept canvas (canvas.drawImage img x y))

private theorem drawImage_iff (img : Picture) (x y : Int16) (canvas : Canvas) :
    DrawsImage img x y canvas ↔ canvas.Skips img x y ∨ img.pixel = none ∨
      Proper x y (.ofNat img.width.toNat) (.ofNat img.height.toNat) canvas.lcd := by
  unfold DrawsImage drawImage
  by_cases skips : canvas.Skips img x y
  · rw [if_pos skips]
    exact ⟨fun _ => .inl skips, fun _ => ⟨.refl rfl fun _ => rfl, fun _ => ⟨rfl, rfl⟩⟩⟩
  · rw [if_neg skips]
    cases pixel : img.pixel with
    | none => exact ⟨fun _ => .inr (.inl rfl), fun _ => ⟨.refl rfl fun _ => rfl, fun _ => ⟨rfl, rfl⟩⟩⟩
    | some bitmap =>
      have only : (canvas.Skips img x y ∨ some bitmap = none ∨
          Proper x y (.ofNat img.width.toNat) (.ofNat img.height.toNat) canvas.lcd) ↔
            Proper x y (.ofNat img.width.toNat) (.ofNat img.height.toNat) canvas.lcd := by
        simp [skips]
      have refusal : (canvas.Skips img x y ∨ some bitmap = none ∨
          canvas.lcd.Overhangs x y (.ofNat img.width.toNat) (.ofNat img.height.toNat)) ↔
            canvas.lcd.Overhangs x y (.ofNat img.width.toNat) (.ofNat img.height.toNat) := by
        simp [skips]
      rw [only, refusal]
      apply drawFast_proper_iff bitmap canvas
      intro fits left top wide high
      unfold Skips at skips
      unfold St7789v.Overhangs at fits
      have across : ¬asUInt32 canvas.lcd.width.toInt < asUInt32 (img.width.toNat + x.toInt) := fun less => skips (.inr (.inl less))
      have down : ¬asUInt32 canvas.lcd.height.toInt < asUInt32 (img.height.toNat + y.toInt) := fun less => skips (.inr (.inr less))
      exact ⟨size_exact across left wide (by omega), size_exact down top high (by omega)⟩

/-- Both ways to draw a bitmap stay in the rectangle and on the screen, and leave everything alone when they refuse, just when a
refused call finds the whole map marked and an accepted one has nothing to copy or a corner on the screen and a size. -/
theorem bitmaps_iff (canvas : Canvas) :
    (∀ rx ry rw rh bitmap,
      (Draws rx.toInt ry.toInt rw.toInt rh.toInt bitmap canvas (canvas.drawFastRGBBitmap rx ry rw rh bitmap) ∧
        (canvas.lcd.Overhangs rx ry rw rh → Kept canvas (canvas.drawFastRGBBitmap rx ry rw rh bitmap))) ↔
          Proper rx ry rw rh canvas.lcd) ∧
      ∀ img x y, DrawsImage img x y canvas ↔ canvas.Skips img x y ∨ img.pixel = none ∨
        Proper x y (.ofNat img.width.toNat) (.ofNat img.height.toNat) canvas.lcd :=
  ⟨fun _ _ _ _ bitmap => drawFast_proper_iff bitmap canvas fun _ _ _ _ _ => ⟨rfl, rfl⟩, fun img x y => drawImage_iff img x y canvas⟩

def oneTile : Canvas := ⟨⟨8, 8, 8, 8, true, false, fun _ => 0, fun _ => 0, 1, false, coldBus⟩, fun _ => 0, []⟩

/-- A rectangle that starts left of the screen has its first pixel at the end of the row above. -/
theorem left_of_screen_wraps : ¬Draws (-1) 1 2 1 (fun _ => 7) oneTile (oneTile.drawFastRGBBitmap (-1) 1 2 1 fun _ => 7) := by
  intro draws
  have fits : ¬oneTile.lcd.Overhangs (-1) 1 2 1 := by decide
  have placed := stays_placed ((draws_iff_stays (x := (-1 : Int16).toInt) (y := (1 : Int16).toInt) fits).mp draws)
  unfold Placed at placed
  revert placed
  decide

end Canvas
end ArduinoK210.Display
