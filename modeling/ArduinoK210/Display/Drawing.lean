import ArduinoK210.Display.St7789v
import ArduinoK210.Display.Panel
import Mathlib.Data.List.Induction

/-! Draws between `startWrite` and `endWrite`: what they leave in the framebuffer and in the
map, whose entries count modulo 256, and that they stay within the map. -/

namespace ArduinoK210.Display
open Tft Dma

structure Draw where
  x : Int16
  y : Int16
  color : UInt16

namespace St7789v

/-- A display with the framebuffer that `begin` allocates, in one of the four rotations. -/
structure Owned (lcd : St7789v) : Prop where
  buffer : lcd.hasBuffer = true
  own : lcd.userFrmBuff = false
  map : lcd.pixelMapSize = mapSize lcd.maxWidth lcd.maxHeight
  turned : lcd.width = lcd.maxWidth ∧ lcd.height = lcd.maxHeight ∨ lcd.width = lcd.maxHeight ∧ lcd.height = lcd.maxWidth
  wired : Wired lcd.bus
  calm : lcd.mapFault = false

private theorem Owned.upright {lcd : St7789v} (owned : Owned lcd) {bus : Bus} (wired : Wired bus) :
    Owned { lcd with width := lcd.maxWidth, height := lcd.maxHeight, bus } :=
  ⟨owned.buffer, owned.own, owned.map, .inl ⟨rfl, rfl⟩, wired, owned.calm⟩

private theorem Owned.sideways {lcd : St7789v} (owned : Owned lcd) {bus : Bus} (wired : Wired bus) :
    Owned { lcd with width := lcd.maxHeight, height := lcd.maxWidth, bus } :=
  ⟨owned.buffer, owned.own, owned.map, .inr ⟨rfl, rfl⟩, wired, owned.calm⟩

private theorem Owned.setRotation {lcd : St7789v} (owned : Owned lcd) (r : UInt8) : Owned (lcd.setRotation r) := by
  have turn := writeCommand_delivers owned.wired memoryAccessCtl
  have whole := turn.trans (writeData_delivers (turn.wired owned.wired) [direction (r &&& 3).toNat])
  have wired := whole.wired owned.wired
  unfold St7789v.setRotation
  dsimp only
  split
  · exact owned.upright wired
  · exact owned.sideways wired

private theorem initRegister_wired {bus : Bus} (wired : Wired bus) : Wired (initRegister bus) := by
  have reset := (writeCommand_delivers wired 0x01).wired wired
  have awake := (writeCommand_delivers reset 0x11).wired reset
  have format := (writeCommand_delivers awake 0x3A).wired awake
  have pixels := (writeData_delivers format [0x55]).wired format
  unfold initRegister
  exact (writeCommand_delivers pixels 0x29).wired pixels

theorem owned_made (w h : Int16) (memory : Nat → UInt16) {bus : Bus} (wired : Wired bus) :
    Owned ⟨w, h, w, h, true, false, memory, fun _ => 0, mapSize w h, false, bus⟩ :=
  ⟨rfl, rfl, rfl, .inl ⟨rfl, rfl⟩, wired, rfl⟩

/-- A display that is constructed with any size, begun and turned is one of those. -/
theorem owned_begin (w h : Int16) {bus : Bus} (wired : Wired bus) (pll0 : Nat) (clk cs dc : Int8) (freq : Nat)
    (memory : Nat → UInt16) (r : UInt8) :
    Owned (((construct w h bus).begin pll0 clk cs dc freq (some memory)).setRotation r) := by
  have begun : Wired (bus.halTftBegin pll0 clk cs dc freq) := by
    simp only [Wired, Bus.halTftBegin]
    exact wired
  have same : (construct w h bus).begin pll0 clk cs dc freq (some memory) =
      (St7789v.mk w h w h true false memory (fun _ => 0) (mapSize w h) false
        (initRegister (bus.halTftBegin pll0 clk cs dc freq))).setRotation 0 := by
    simp [begin, construct]
  rw [same]
  exact ((owned_made w h memory (initRegister_wired begun)).setRotation 0).setRotation r

def drawAll (draws : List Draw) (lcd : St7789v) : St7789v :=
  draws.foldl (fun lcd draw => lcd.drawPixel draw.x draw.y draw.color) lcd

def entryOf (lcd : St7789v) (x y : Int16) : Nat :=
  (y.toInt.tdiv 8 * lcd.width.toInt.tdiv 8 + x.toInt.tdiv 8).toNat

def hits (lcd : St7789v) (draws : List Draw) (entry : Nat) : Nat :=
  draws.countP fun draw => lcd.InRange draw.x draw.y ∧ lcd.entryOf draw.x draw.y = entry

def lastColor (draws : List Draw) (x y : Int16) : Option UInt16 :=
  draws.foldl (fun last draw => if draw.x = x ∧ draw.y = y then some draw.color else last) none

def cellOf (lcd : St7789v) (x y : Int16) : Nat := (x.toInt + y.toInt * lcd.width.toInt).toNat

variable {lcd : St7789v} {x y : Int16}

theorem InRange.nat (inside : lcd.InRange x y) : x.toInt.toNat < lcd.width.toInt.toNat ∧ y.toInt.toNat < lcd.height.toInt.toNat := by
  obtain ⟨left, top, right, bottom⟩ := inside
  omega

private theorem toNat_tdiv (value : Int) : (value.tdiv 8).toNat = value.toNat / 8 := by
  cases value with
  | ofNat n => rfl
  | negSucc n =>
    have quotient : (Int.negSucc n).tdiv 8 = -((n + 1) / 8 : Nat) := rfl
    rw [quotient, Int.toNat_negSucc]
    omega

private theorem tdiv_toNat {value : Int} (nonneg : 0 ≤ value) : value.tdiv 8 = (value.toNat / 8 : Nat) := by
  rw [Int.tdiv_eq_ediv_of_nonneg nonneg]
  omega

theorem tileColumns_eq (lcd : St7789v) : lcd.tileColumns = lcd.width.toInt.toNat / 8 := toNat_tdiv _

theorem tileRows_eq (lcd : St7789v) : lcd.tileRows = lcd.height.toInt.toNat / 8 := toNat_tdiv _

theorem InRange.entry (inside : lcd.InRange x y) :
    lcd.entryOf x y = y.toInt.toNat / 8 * lcd.tileColumns + x.toInt.toNat / 8 := by
  obtain ⟨left, top, right, bottom⟩ := inside
  have positive : 0 ≤ lcd.width.toInt := by omega
  rw [entryOf, tdiv_toNat left, tdiv_toNat top, tdiv_toNat positive, tileColumns_eq, ← Int.natCast_mul, ← Int.natCast_add,
    Int.toNat_natCast]

theorem InRange.cell (inside : lcd.InRange x y) :
    lcd.cellOf x y = x.toInt.toNat + y.toInt.toNat * lcd.width.toInt.toNat := by
  obtain ⟨left, top, right, bottom⟩ := inside
  have positive : 0 ≤ lcd.width.toInt := by omega
  rw [cellOf, Int.toNat_add left (Int.mul_nonneg top positive), Int.toNat_mul top positive]

/-- Places of a screen have one cell each. -/
theorem InRange.cell_inj {x' y' : Int16} (inside : lcd.InRange x y) (other : lcd.InRange x' y')
    (same : lcd.cellOf x y = lcd.cellOf x' y') : x = x' ∧ y = y' := by
  rw [inside.cell, other.cell] at same
  have column := inside.nat.1
  have column' := other.nat.1
  obtain ⟨left, top, right, bottom⟩ := inside
  obtain ⟨left', top', right', bottom'⟩ := other
  have columns : x.toInt.toNat = x'.toInt.toNat := by
    have rest := congrArg (· % lcd.width.toInt.toNat) same
    simpa only [Nat.add_mul_mod_self_right, Nat.mod_eq_of_lt column, Nat.mod_eq_of_lt column'] using rest
  have rows : y.toInt.toNat = y'.toInt.toNat := by
    rw [columns] at same
    have products : y.toInt.toNat * lcd.width.toInt.toNat = y'.toInt.toNat * lcd.width.toInt.toNat := by omega
    exact Nat.eq_of_mul_eq_mul_right (by omega) products
  exact ⟨Int16.toInt.inj (by omega), Int16.toInt.inj (by omega)⟩

private theorem mapSize_comm (w h : Int16) : mapSize w h = mapSize h w := by
  rw [mapSize, mapSize, Int.mul_comm]

theorem Owned.size (owned : Owned lcd) (wide : 0 < lcd.width.toInt) (high : 0 < lcd.height.toInt) :
    lcd.pixelMapSize = (lcd.width.toInt.toNat + 7) / 8 * ((lcd.height.toInt.toNat + 7) / 8) := by
  have turned : lcd.pixelMapSize = mapSize lcd.width lcd.height := by
    rw [owned.map]
    obtain ⟨w, h⟩ | ⟨w, h⟩ := owned.turned
    · rw [w, h]
    · rw [w, h, mapSize_comm]
  have right := lcd.width.toInt_lt
  have bottom := lcd.height.toInt_lt
  have columns : (lcd.width.toInt + 7).tdiv 8 = ((lcd.width.toInt.toNat + 7) / 8 : Nat) := by
    rw [Int.tdiv_eq_ediv_of_nonneg (by omega)]
    omega
  have rows : (lcd.height.toInt + 7).tdiv 8 = ((lcd.height.toInt.toNat + 7) / 8 : Nat) := by
    rw [Int.tdiv_eq_ediv_of_nonneg (by omega)]
    omega
  have fits : (lcd.width.toInt.toNat + 7) / 8 * ((lcd.height.toInt.toNat + 7) / 8) ≤ 4096 * 4096 :=
    Nat.mul_le_mul (by omega) (by omega)
  rw [turned, mapSize, columns, rows, ← Int.natCast_mul, asUInt32]
  omega

theorem grid_lt {a b c columns rows stride : Nat} (row : a < rows) (column : b < columns) (narrow : stride ≤ columns) (same : c = a * stride + b) :
    c < columns * rows := by
  have across : a * stride ≤ a * columns := Nat.mul_le_mul_left a narrow
  have down : (a + 1) * columns ≤ rows * columns := Nat.mul_le_mul_right columns row
  rw [Nat.add_mul] at down
  rw [Nat.mul_comm columns rows]
  omega

/-- The map is smaller by its stride than what `begin` allocates, so that every place counts within it. -/
theorem Owned.entry_lt (owned : Owned lcd) (inside : lcd.InRange x y) : lcd.entryOf x y < lcd.pixelMapSize := by
  have entry := inside.entry
  have ⟨column, row⟩ := inside.nat
  obtain ⟨left, top, right, bottom⟩ := inside
  rw [owned.size (by omega) (by omega)]
  apply grid_lt _ _ _ entry
  · omega
  · omega
  · rw [tileColumns_eq]
    omega

private theorem hits_append (lcd : St7789v) (draws : List Draw) (draw : Draw) (entry : Nat) :
    hits lcd (draws ++ [draw]) entry =
      hits lcd draws entry + if lcd.InRange draw.x draw.y ∧ lcd.entryOf draw.x draw.y = entry then 1 else 0 := by
  simp [hits, List.countP_append, List.countP_cons]

private theorem lastColor_append (draws : List Draw) (draw : Draw) (x y : Int16) :
    lastColor (draws ++ [draw]) x y = if draw.x = x ∧ draw.y = y then some draw.color else lastColor draws x y := by
  rw [lastColor, List.foldl_append]
  rfl

theorem lastColor_some {draws : List Draw} (drawn : ∃ draw ∈ draws, draw.x = x ∧ draw.y = y) :
    ∃ color, lastColor draws x y = some color := by
  induction draws using List.reverseRecOn with
  | nil =>
    obtain ⟨draw, impossible, _⟩ := drawn
    cases impossible
  | append_singleton draws last ih =>
    rw [lastColor_append]
    split
    · exact ⟨last.color, rfl⟩
    · next other =>
      obtain ⟨draw, member, there⟩ := drawn
      obtain earlier | here := List.mem_append.mp member
      · exact ih ⟨draw, earlier, there⟩
      · rw [List.mem_singleton.mp here] at there
        exact absurd there other

theorem lastColor_drawn {draws : List Draw} {color : UInt16} (last : lastColor draws x y = some color) :
    ∃ draw ∈ draws, draw.x = x ∧ draw.y = y := by
  induction draws using List.reverseRecOn with
  | nil => cases last
  | append_singleton draws draw ih =>
    rw [lastColor_append] at last
    split at last
    · next here => exact ⟨draw, by simp, here⟩
    · obtain ⟨earlier, member, there⟩ := ih last
      exact ⟨earlier, List.mem_append_left _ member, there⟩

/-- What draws since `startWrite` have left. -/
structure Drawn (lcd : St7789v) (draws : List Draw) (after : St7789v) : Prop where
  rest : after = { lcd with frameBuffer := after.frameBuffer, pixelMap := after.pixelMap }
  counts : ∀ entry, entry < lcd.pixelMapSize → after.pixelMap entry = UInt8.ofNat (hits lcd draws entry)
  cells : ∀ x y color, lcd.InRange x y → lastColor draws x y = some color → after.frameBuffer (lcd.cellOf x y) = color

private theorem Owned.drawPixel (owned : Owned lcd) (inside : lcd.InRange x y) (color : UInt16) :
    lcd.drawPixel x y color =
      { lcd with
        frameBuffer := Function.update lcd.frameBuffer (lcd.cellOf x y) color
        pixelMap := Function.update lcd.pixelMap (lcd.entryOf x y) (lcd.pixelMap (lcd.entryOf x y) + 1) } := by
  have within : decide (lcd.pixelMapSize ≤ lcd.entryOf x y) = false :=
    decide_eq_false (Nat.not_le.mpr (owned.entry_lt inside))
  rw [St7789v.drawPixel, if_neg (by simp [owned.buffer]), if_neg (not_not.mpr inside)]
  simp only [owned.own, Bool.false_eq_true, if_false, touch]
  rw [← cellOf, ← entryOf, within, Bool.or_false]

namespace Drawn

variable {draws : List Draw} {after : St7789v} (drawn : Drawn lcd draws after)
include drawn

theorem width : after.width = lcd.width := by
  rw [drawn.rest]

theorem height : after.height = lcd.height := by
  rw [drawn.rest]

theorem inRange : after.InRange x y ↔ lcd.InRange x y := by
  rw [InRange, InRange, drawn.width, drawn.height]

private theorem entryOf : after.entryOf x y = lcd.entryOf x y := by
  rw [St7789v.entryOf, St7789v.entryOf, drawn.width]

private theorem cellOf : after.cellOf x y = lcd.cellOf x y := by
  rw [St7789v.cellOf, St7789v.cellOf, drawn.width]

theorem owned (owned : Owned lcd) : Owned after := by
  rw [drawn.rest]
  exact ⟨owned.buffer, owned.own, owned.map, owned.turned, owned.wired, owned.calm⟩

theorem hit (owned : Owned lcd) {draw : Draw} (inside : lcd.InRange draw.x draw.y) :
    Drawn lcd (draws ++ [draw]) (after.drawPixel draw.x draw.y draw.color) := by
  rw [(drawn.owned owned).drawPixel (drawn.inRange.mpr inside), drawn.entryOf, drawn.cellOf]
  refine ⟨?_, fun entry within => ?_, fun x y color here last => ?_⟩
  · exact congrArg (fun base : St7789v => { base with
      frameBuffer := Function.update after.frameBuffer (lcd.cellOf draw.x draw.y) draw.color
      pixelMap := Function.update after.pixelMap (lcd.entryOf draw.x draw.y)
        (after.pixelMap (lcd.entryOf draw.x draw.y) + 1) }) drawn.rest
  · rw [hits_append]
    by_cases same : lcd.entryOf draw.x draw.y = entry
    · rw [if_pos ⟨inside, same⟩, same, UInt8.ofNat_add, ← drawn.counts entry within]
      exact Function.update_self _ _ _
    · rw [if_neg fun both => same both.2]
      exact (Function.update_of_ne (Ne.symm same) _ _).trans (drawn.counts entry within)
  · rw [lastColor_append] at last
    split at last
    · next there =>
      obtain ⟨rfl, rfl⟩ := there
      cases last
      exact Function.update_self _ _ _
    · next other =>
      have apart : lcd.cellOf x y ≠ lcd.cellOf draw.x draw.y := by
        intro same
        obtain ⟨column, row⟩ := here.cell_inj inside same
        exact other ⟨column.symm, row.symm⟩
      exact (Function.update_of_ne apart _ _).trans (drawn.cells x y color here last)

private theorem miss {draw : Draw} (outside : ¬lcd.InRange draw.x draw.y) :
    Drawn lcd (draws ++ [draw]) (after.drawPixel draw.x draw.y draw.color) := by
  have skipped : after.drawPixel draw.x draw.y draw.color = after := by
    rw [St7789v.drawPixel]
    split
    · rfl
    · rw [if_pos fun inside => outside (drawn.inRange.mp inside)]
  rw [skipped]
  refine ⟨drawn.rest, fun entry within => ?_, fun x y color here last => ?_⟩
  · rw [hits_append, if_neg fun both => outside both.1]
    exact drawn.counts entry within
  · rw [lastColor_append, if_neg] at last
    · exact drawn.cells x y color here last
    · rintro ⟨rfl, rfl⟩
      exact outside here

end Drawn

theorem Owned.drawn (owned : Owned lcd) (draws : List Draw) : Drawn lcd draws (drawAll draws lcd.startWrite) := by
  induction draws using List.reverseRecOn with
  | nil =>
    rw [drawAll, List.foldl_nil, startWrite, if_neg (by simp [owned.own])]
    refine ⟨rfl, fun entry within => ?_, fun x y color _ impossible => ?_⟩
    · exact if_pos within
    · cases impossible
  | append_singleton draws draw ih =>
    rw [drawAll, List.foldl_append]
    by_cases inside : lcd.InRange draw.x draw.y
    · exact ih.hit owned inside
    · exact ih.miss inside

end St7789v
end ArduinoK210.Display
