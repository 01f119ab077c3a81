import ArduinoK210.Tft.Bus

/-! The `ST7789V` display over `Bus8080`: the framebuffer, the map that counts the draws in
each tile of 8 by 8 pixels, and the two ways in which `endWrite` sends what was drawn. -/

namespace ArduinoK210.Display
open Tft

def highByte (value : Int) : UInt8 := UInt8.ofNat (value / 256 % 256).toNat

def lowByte (value : Int) : UInt8 := UInt8.ofNat (value % 256).toNat

def asUInt32 (value : Int) : Nat := (value % 4294967296).toNat

namespace Bus8080

def writeCommand (command : UInt8) (bus : Bus) : Bus := bus.halTftWriteCommand [command]

def writeData (data : List UInt8) (bus : Bus) : Bus := bus.halTftWriteByte data

/-- Swaps the pixels of each pair, in the caller's memory, until the pointer meets the end. -/
def cvtU16ToU32 : Nat → Nat → Nat → (Nat → UInt16) → Option (Nat → UInt16)
  | 0, _, _, _ => none
  | fuel + 1, img, fin, mem =>
      if img = fin then some mem
      else cvtU16ToU32 fuel (img + 2) fin (Function.update (Function.update mem img (mem (img + 1))) (img + 1) (mem img))

def wordAt (mem : Nat → UInt16) (index : Nat) : UInt32 :=
  (mem (2 * index)).toUInt32 ||| (mem (2 * index + 1)).toUInt32 <<< 16

/-- `writeData` for `uint16_t`: the memory it leaves behind, and the bus. -/
def writePixels (fuel : Nat) (mem : Nat → UInt16) (len : Nat) (bus : Bus) : Option ((Nat → UInt16) × Bus) :=
  match cvtU16ToU32 fuel 0 len mem with
  | none => none
  | some mem => some (mem, bus.halTftWriteWord ((List.range (len / 2)).map (wordAt mem)))

end Bus8080

def horizontalAddressSet : UInt8 := 0x2A
def verticalAddressSet : UInt8 := 0x2B
def memoryWrite : UInt8 := 0x2C
def memoryAccessCtl : UInt8 := 0x36

/-- `maxWidth` and `maxHeight` are `WIDTH` and `HEIGHT` of the constructor. `mapFault` is set by an access to the map
outside of what `begin` allocated. -/
structure St7789v where
  maxWidth : Int16
  maxHeight : Int16
  width : Int16
  height : Int16
  hasBuffer : Bool
  userFrmBuff : Bool
  frameBuffer : Nat → UInt16
  pixelMap : Nat → UInt8
  pixelMapSize : Nat
  mapFault : Bool
  bus : Bus

namespace St7789v

def construct (w h : Int16) (bus : Bus) : St7789v :=
  ⟨w, h, w, h, false, false, fun _ => 0, fun _ => 0, 0, false, bus⟩

/-- The `lcd_dir_t` of a rotation. -/
def direction (rotation : Nat) : UInt8 :=
  match rotation with
  | 0 => 0x00
  | 1 => 0x60
  | 2 => 0xC0
  | _ => 0xA0

def setRotation (r : UInt8) (lcd : St7789v) : St7789v :=
  let rotation := (r &&& 3).toNat
  let turned := if rotation % 2 = 0 then { lcd with width := lcd.maxWidth, height := lcd.maxHeight }
    else { lcd with width := lcd.maxHeight, height := lcd.maxWidth }
  { turned with bus := Bus8080.writeData [direction rotation] (Bus8080.writeCommand memoryAccessCtl lcd.bus) }

def initRegister (bus : Bus) : Bus :=
  Bus8080.writeCommand 0x29 <| Bus8080.writeData [0x55] <| Bus8080.writeCommand 0x3A <| Bus8080.writeCommand 0x11 <|
    Bus8080.writeCommand 0x01 bus

/-- The size of the map, through `int16_t` and `int` to `uint32_t`. -/
def mapSize (w h : Int16) : Nat := asUInt32 ((w.toInt + 7).tdiv 8 * (h.toInt + 7).tdiv 8)

/-- `memory` is what `rt_malloc_align` returns, if it does, with the contents that it happens to have. -/
def begin (pll0 : Nat) (clk cs dc : Int8) (freq : Nat) (memory : Option (Nat → UInt16)) (lcd : St7789v) : St7789v :=
  if lcd.hasBuffer then lcd
  else
    let sized := { lcd with pixelMapSize := mapSize lcd.maxWidth lcd.maxHeight }
    match memory with
    | none => sized
    | some frameBuffer =>
        { sized with
          hasBuffer := true
          userFrmBuff := false
          frameBuffer
          pixelMap := fun _ => 0
          bus := initRegister (lcd.bus.halTftBegin pll0 clk cs dc freq) }.setRotation 0

def setArea (x1 y1 x2 y2 : Int) (bus : Bus) : Bus :=
  Bus8080.writeCommand memoryWrite <|
    Bus8080.writeData [highByte y1, lowByte y1, highByte y2, lowByte y2] <| Bus8080.writeCommand verticalAddressSet <|
    Bus8080.writeData [highByte x1, lowByte x1, highByte x2, lowByte x2] <| Bus8080.writeCommand horizontalAddressSet bus

def touch (entry : Nat) (lcd : St7789v) : St7789v :=
  { lcd with mapFault := lcd.mapFault || decide (lcd.pixelMapSize ≤ entry) }

/-- The columns of whole tiles, which is also the stride of the map. -/
def tileColumns (lcd : St7789v) : Nat := (lcd.width.toInt.tdiv 8).toNat

def tileRows (lcd : St7789v) : Nat := (lcd.height.toInt.tdiv 8).toNat

def InRange (lcd : St7789v) (x y : Int16) : Prop :=
  0 ≤ x.toInt ∧ 0 ≤ y.toInt ∧ x.toInt < lcd.width.toInt ∧ y.toInt < lcd.height.toInt

instance (lcd : St7789v) (x y : Int16) : Decidable (lcd.InRange x y) := inferInstanceAs (Decidable (_ ∧ _))

def drawPixel (x y : Int16) (color : UInt16) (lcd : St7789v) : St7789v :=
  if lcd.hasBuffer = false then lcd
  else if ¬ lcd.InRange x y then lcd
  else
    let drawn := { lcd with
      frameBuffer := Function.update lcd.frameBuffer (x.toInt + y.toInt * lcd.width.toInt).toNat color }
    if lcd.userFrmBuff then drawn
    else
      let entry := (y.toInt.tdiv 8 * lcd.width.toInt.tdiv 8 + x.toInt.tdiv 8).toNat
      { drawn.touch entry with pixelMap := Function.update lcd.pixelMap entry (lcd.pixelMap entry + 1) }

def startWrite (lcd : St7789v) : St7789v :=
  if lcd.userFrmBuff then lcd
  else { lcd with pixelMap := fun entry => if entry < lcd.pixelMapSize then 0 else lcd.pixelMap entry }

def dirtyCount (lcd : St7789v) : Nat := (List.range lcd.pixelMapSize).countP fun entry => lcd.pixelMap entry ≠ 0

/-- The test that picks the full path. -/
def FullScreen (lcd : St7789v) : Prop := asUInt32 ((lcd.width.toInt * lcd.height.toInt).tdiv 2) ≤ lcd.dirtyCount

instance (lcd : St7789v) : Decidable lcd.FullScreen := inferInstanceAs (Decidable (_ ≤ _))

def refresh (fuel : Nat) (lcd : St7789v) : Option St7789v :=
  let bus := setArea 0 0 (lcd.width.toInt - 1) (lcd.height.toInt - 1) lcd.bus
  match Bus8080.writePixels fuel lcd.frameBuffer (asUInt32 (lcd.width.toInt * lcd.height.toInt)) bus with
  | none => none
  | some (frameBuffer, bus) => some { lcd with frameBuffer, bus }

/-- `tmp_pixel` for the tile in row `i` and column `j`. -/
def tilePixels (i j : Nat) (lcd : St7789v) (n : Nat) : UInt16 :=
  lcd.frameBuffer ((i * 8 + n / 8) * lcd.width.toInt.toNat + (j * 8 + n % 8))

def sendTile (fuel i j : Nat) (lcd : St7789v) : Option St7789v :=
  let bus := setArea (j * 8 : Nat) (i * 8 : Nat) (j * 8 + 7 : Nat) (i * 8 + 7 : Nat) lcd.bus
  match Bus8080.writePixels fuel (lcd.tilePixels i j) 64 bus with
  | none => none
  | some (_, bus) => some { lcd with bus }

/-- The two loops over the whole tiles, left as soon as no dirty entry remains. -/
def sendTiles (fuel : Nat) : List (Nat × Nat) → Nat → St7789v → Option St7789v
  | [], _, lcd => some lcd
  | (i, j) :: tiles, dirty, lcd =>
      let entry := i * lcd.tileColumns + j
      let lcd := lcd.touch entry
      if lcd.pixelMap entry ≠ 0 then
        match sendTile fuel i j { lcd with pixelMap := Function.update lcd.pixelMap entry 0 } with
        | none => none
        | some lcd => if dirty - 1 = 0 then some lcd else sendTiles fuel tiles (dirty - 1) lcd
      else if dirty = 0 then some lcd
      else sendTiles fuel tiles dirty lcd

def tiles (lcd : St7789v) : List (Nat × Nat) :=
  (List.range lcd.tileRows).flatMap fun i => (List.range lcd.tileColumns).map fun j => (i, j)

def endWrite (fuel : Nat) (lcd : St7789v) : Option St7789v :=
  if lcd.userFrmBuff then some lcd
  else if lcd.FullScreen then lcd.refresh fuel
  else sendTiles fuel lcd.tiles lcd.dirtyCount lcd

end St7789v
end ArduinoK210.Display
