import ArduinoK210.Display.St7789v
import ArduinoK210.Tft.Format

/-! The panel at the other end of the bus, in the coordinates of its rotation: a window, a
cursor that walks through it row by row, and the pixels. Each transfer that gets a channel
reaches it with what its elements carry. -/

namespace ArduinoK210.Display
open Tft Dma

/-- `written` is every pixel received so far with its place, the newest last. -/
structure Panel where
  command : UInt8
  params : List UInt8
  columns : Nat × Nat
  rows : Nat × Nat
  cursor : Nat
  cells : Nat → Nat → UInt16
  written : List (Nat × Nat × UInt16)

/-- The place of the `n`th pixel in a window. -/
def place (columns rows : Nat × Nat) (n : Nat) : Nat × Nat :=
  (columns.1 + n % (columns.2 + 1 - columns.1), rows.1 + n / (columns.2 + 1 - columns.1) % (rows.2 + 1 - rows.1))

namespace Panel

def onCommand (byte : UInt8) (panel : Panel) : Panel :=
  { panel with command := byte, params := [], cursor := if byte = memoryWrite then 0 else panel.cursor }

def addressPair (a b c d : UInt8) : Nat × Nat := (a.toNat * 256 + b.toNat, c.toNat * 256 + d.toNat)

/-- A parameter of the last command. The fourth one of an address command sets the window. -/
def onParameter (byte : UInt8) (panel : Panel) : Panel :=
  let params := panel.params ++ [byte]
  match params with
  | [a, b, c, d] =>
      if panel.command = horizontalAddressSet then { panel with params, columns := addressPair a b c d }
      else if panel.command = verticalAddressSet then { panel with params, rows := addressPair a b c d }
      else { panel with params }
  | _ => { panel with params }

def onPixel (color : UInt16) (panel : Panel) : Panel :=
  if panel.command ≠ memoryWrite then panel
  else
    let (x, y) := place panel.columns panel.rows panel.cursor
    { panel with
      cursor := panel.cursor + 1
      cells := Function.update panel.cells x (Function.update (panel.cells x) y color)
      written := panel.written ++ [(x, y, color)] }

end Panel

/-- What the elements of a transfer carry: the high half of a word goes first. -/
def pixelsOf : Kind → List UInt32 → List UInt16
  | .word, words | .fill, words => words.flatMap fun (word : UInt32) => [(word >>> 16).toUInt16, word.toUInt16]
  | .half, words => words.map UInt32.toUInt16
  | _, _ => []

def Panel.receive (transfer : Kind × List UInt32) (panel : Panel) : Panel :=
  match transfer.1 with
  | .command => transfer.2.foldl (fun panel word => panel.onCommand word.toUInt8) panel
  | .byte => transfer.2.foldl (fun panel word => panel.onParameter word.toUInt8) panel
  | kind => (pixelsOf kind transfer.2).foldl (fun panel color => panel.onPixel color) panel

def Panel.receiveAll (transfers : List (Kind × List UInt32)) (panel : Panel) : Panel :=
  transfers.foldl (fun panel transfer => panel.receive transfer) panel

def traffic (bus : Bus) : List (Kind × List UInt32) := bus.transfers.map fun transfer => (transfer.kind, transfer.words)

def trafficSince (before after : Bus) : List (Kind × List UInt32) := (traffic after).drop (traffic before).length

def coldBus : Bus :=
  Bus.start (Spi.Controllers.start (fun _ => ⟨false, 0, 0, 0, 0, 0, 0, 0, 0, 0, 0, 0⟩) ⟨fun _ => 0, fun _ => 0⟩ (fun _ => 0)
    fun _ => ⟨0, 0⟩) dmaChnInfo

def Wired (bus : Bus) : Prop := bus.dma.map DmaChnInfo.chn = dmaChnInfo.map DmaChnInfo.chn

private theorem lend_restores {table : List DmaChnInfo} (wired : table.map DmaChnInfo.chn = dmaChnInfo.map DmaChnInfo.chn)
    (granted : Granted table) : halDmaReleasChn (halDmaGetFreeChn table).1 (halDmaGetFreeChn table).2 = table := by
  obtain ⟨⟨a, i⟩, rest, rfl, here, wired⟩ := List.map_eq_cons_iff.mp wired
  obtain ⟨⟨b, j⟩, rest, rfl, here', wired⟩ := List.map_eq_cons_iff.mp wired
  obtain ⟨⟨c, k⟩, rest, rfl, here'', wired⟩ := List.map_eq_cons_iff.mp wired
  obtain ⟨⟨d, l⟩, rest, rfl, here''', wired⟩ := List.map_eq_cons_iff.mp wired
  obtain rfl := List.map_eq_nil_iff.mp wired
  simp only at here here' here'' here'''
  subst here here' here'' here'''
  revert granted
  unfold Granted
  cases a <;> cases b <;> cases c <;> cases d <;> decide

/-- A call that sends `content` when a channel is free, and nothing otherwise, and gives the channel back. -/
structure Delivers (content : List (Kind × List UInt32)) (before after : Bus) : Prop where
  dma : after.dma = before.dma
  sent : Granted before.dma → traffic after = traffic before ++ content
  lost : ¬Granted before.dma → traffic after = traffic before

namespace Delivers

variable {first second : List (Kind × List UInt32)} {one two three : Bus}

theorem trans (here : Delivers first one two) (there : Delivers second two three) : Delivers (first ++ second) one three := by
  refine ⟨there.dma.trans here.dma, fun granted => ?_, fun refused => ?_⟩
  · rw [there.sent (here.dma ▸ granted), here.sent granted, List.append_assoc]
  · rw [there.lost (here.dma ▸ refused), here.lost refused]

theorem wired (here : Delivers first one two) (wired : Wired one) : Wired two := by
  rw [Wired, here.dma]
  exact wired

theorem since (here : Delivers first one two) (granted : Granted one.dma) : trafficSince one two = first := by
  rw [trafficSince, here.sent granted, List.drop_left]

theorem since_lost (here : Delivers first one two) (refused : ¬Granted one.dma) : trafficSince one two = [] := by
  rw [trafficSince, here.lost refused, List.drop_length]

end Delivers

private theorem send_delivers {bus : Bus} (wired : Wired bus) (kind : Kind) (words : List UInt32) :
    Delivers [(kind, words)] bus (bus.send kind words) := by
  unfold Bus.send
  split
  next chn table lent =>
    have granted_iff : Granted bus.dma ↔ ¬dmacChannelMax ≤ chn := by
      rw [Granted, lent]
      exact Nat.not_le.symm
    split
    · next refused => exact ⟨rfl, fun granted => absurd refused (granted_iff.mp granted), fun _ => rfl⟩
    · next granted =>
      refine ⟨?_, fun _ => ?_, fun refused => absurd (granted_iff.mpr granted) refused⟩
      · have restored := lend_restores wired (granted_iff.mpr granted)
        rw [lent] at restored
        exact restored
      · simp [traffic, Bus.setPort]

variable {bus : Bus} (wired : Wired bus)
include wired

theorem prepare_delivers (kind : Kind) (words : List UInt32) : Delivers [(kind, words)] bus ((bus.prepare kind).send kind words) := by
  have same : (bus.prepare kind).dma = bus.dma := bus.prepare_dma kind
  have traffics : traffic (bus.prepare kind) = traffic bus := by rw [traffic, bus.prepare_transfers kind, traffic]
  have ready : Wired (bus.prepare kind) := by
    rw [Wired, same]
    exact wired
  have delivers := send_delivers ready kind words
  refine ⟨delivers.dma.trans same, fun granted => ?_, fun refused => ?_⟩
  · rw [delivers.sent (same ▸ granted), traffics]
  · rw [delivers.lost (same ▸ refused), traffics]

theorem writeCommand_delivers (command : UInt8) :
    Delivers [(.command, [command.toUInt32])] bus (Bus8080.writeCommand command bus) :=
  prepare_delivers wired .command _

theorem writeData_delivers (data : List UInt8) :
    Delivers [(.byte, data.map UInt8.toUInt32)] bus (Bus8080.writeData data bus) :=
  prepare_delivers wired .byte _

def areaTraffic (x1 y1 x2 y2 : Int) : List (Kind × List UInt32) :=
  [(.command, [horizontalAddressSet.toUInt32]),
    (.byte, [highByte x1, lowByte x1, highByte x2, lowByte x2].map UInt8.toUInt32),
    (.command, [verticalAddressSet.toUInt32]),
    (.byte, [highByte y1, lowByte y1, highByte y2, lowByte y2].map UInt8.toUInt32),
    (.command, [memoryWrite.toUInt32])]

theorem setArea_delivers (x1 y1 x2 y2 : Int) : Delivers (areaTraffic x1 y1 x2 y2) bus (St7789v.setArea x1 y1 x2 y2 bus) := by
  have horizontal := writeCommand_delivers wired horizontalAddressSet
  have columns := writeData_delivers (horizontal.wired wired) [highByte x1, lowByte x1, highByte x2, lowByte x2]
  have first := horizontal.trans columns
  have vertical := writeCommand_delivers (first.wired wired) verticalAddressSet
  have second := first.trans vertical
  have rows := writeData_delivers (second.wired wired) [highByte y1, lowByte y1, highByte y2, lowByte y2]
  have third := second.trans rows
  exact third.trans (writeCommand_delivers (third.wired wired) memoryWrite)

end ArduinoK210.Display
