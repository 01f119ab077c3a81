import ArduinoK210.Dma.Channels
import ArduinoK210.Spi.Controllers

/-! The TFT bus over SPI0. The frame width and the instruction format are programmed when
the cached mode changes, and every transfer goes through a DMA channel that is lent for it. -/

namespace ArduinoK210

namespace Spi.SpiPort

def setBit (bits mask value : Nat) : Nat := bits &&& (0xFFFFFFFF ^^^ mask) ||| value &&& mask

/-- `spi_init_non_standard`, without the wait cycles that no caller here uses. -/
def spiInitNonStandard (instructionLength addressLength transMode : Nat) (port : SpiPort) : SpiPort :=
  let instL := match instructionLength with
    | 4 => 1
    | 8 => 2
    | 16 => 3
    | _ => 0
  { port with spiCtrlr0 := instL <<< 8 ||| (addressLength / 4) <<< 2 ||| transMode }

/-- The transmit-only mode, which every transfer sets again. -/
def spiSetTmodTrans (port : SpiPort) : SpiPort := { port with ctrlr0 := setBit port.ctrlr0 (3 <<< 8) (1 <<< 8) }

/-- The controller as it is while the DMA feeds it. -/
def sending (chipSelect : Nat) (port : SpiPort) : SpiPort :=
  { port.spiSetTmodTrans with dmacr := 0x2, ssienr := 0x01, ser := 1 <<< chipSelect }

def sent (chipSelect : Nat) (port : SpiPort) : SpiPort := { port.sending chipSelect with ser := 0x00, ssienr := 0x00 }

def frameBits (port : SpiPort) : Nat := (port.ctrlr0 >>> 16) % 32 + 1

end Spi.SpiPort

namespace Tft
open Spi Dma

inductive Mode where
  | command | dataByte | dataHalf | dataWord | dataFill | invalid
  deriving DecidableEq

/-- The five functions that send. -/
inductive Kind where
  | command | byte | half | word | fill
  deriving DecidableEq

/-- A DMA transfer: the words that go to the data register, and the controller that takes them. -/
structure Transfer where
  kind : Kind
  chn : Nat
  port : SpiPort
  words : List UInt32

/-- `spi` has the pins and the registers, `mode` the cache; `transfers` is every transfer so far, the newest last. -/
structure Bus where
  spi : Controllers
  mode : Mode
  dma : List DmaChnInfo
  transfers : List Transfer

namespace Bus

def port (bus : Bus) : SpiPort := bus.spi.ports 0

def setPort (port : SpiPort) (bus : Bus) : Bus :=
  { bus with spi := { bus.spi with ports := Function.update bus.spi.ports 0 port } }

/-- The part that is skipped when the cached mode is one of `fits`. -/
def program (fits : List Mode) (mode : Mode) (width instructionLength addressLength : Nat) (bus : Bus) : Bus :=
  if bus.mode ∈ fits then bus
  else
    { bus with mode }.setPort
      ((bus.port.spiInit 0 .octal width 0).spiInitNonStandard instructionLength addressLength 2)

/-- The part that needs a channel. -/
def send (kind : Kind) (words : List UInt32) (bus : Bus) : Bus :=
  let (chn, table) := halDmaGetFreeChn bus.dma
  if dmacChannelMax ≤ chn then bus
  else
    let transfer : Transfer := ⟨kind, chn, bus.port.sending bus.spi.tftBus.cs, words⟩
    { bus with dma := halDmaReleasChn chn table, transfers := bus.transfers ++ [transfer] }.setPort
      (bus.port.sent bus.spi.tftBus.cs)

def halTftWriteCommand (cmd : List UInt8) (bus : Bus) : Bus :=
  (bus.program [.dataByte, .command] .command 8 8 0).send .command (cmd.map UInt8.toUInt32)

def halTftWriteByte (data : List UInt8) (bus : Bus) : Bus :=
  (bus.program [.dataByte, .command] .dataByte 8 8 0).send .byte (data.map UInt8.toUInt32)

def halTftWriteHalf (data : List UInt16) (bus : Bus) : Bus :=
  (bus.program [.dataHalf] .dataHalf 16 16 0).send .half (data.map UInt16.toUInt32)

def halTftWriteWord (data : List UInt32) (bus : Bus) : Bus :=
  (bus.program [.dataWord] .dataWord 32 0 32).send .word data

/-- The DMA reads the one word of the buffer `length` times. -/
def halTftFillData (word : UInt32) (length : Nat) (bus : Bus) : Bus :=
  (bus.program [.dataFill] .dataFill 32 0 32).send .fill (List.replicate length word)

/-- `begin` initialises the controller and leaves the cached mode as it is. -/
def halTftBegin (pll0 : Nat) (clkPin csPin dcPin : Int8) (freq : Nat) (bus : Bus) : Bus :=
  { bus with spi := bus.spi.halTftBegin pll0 clkPin csPin dcPin freq }

def halTftEnd (bus : Bus) : Bus := { bus with spi := bus.spi.halTftEnd, mode := .invalid }

def start (spi : Controllers) (dma : List DmaChnInfo) : Bus := ⟨spi, .invalid, dma, []⟩

end Bus

inductive Event where
  | begin (clkPin csPin dcPin : Int8) (freq : Nat)
  | finish
  | writeCommand (cmd : List UInt8)
  | writeByte (data : List UInt8)
  | writeHalf (data : List UInt16)
  | writeWord (data : List UInt32)
  | fillData (word : UInt32) (length : Nat)
  | others (table : List DmaChnInfo)

def Bus.step (pll0 : Nat) : Event → Bus → Bus
  | .begin clkPin csPin dcPin freq, bus => bus.halTftBegin pll0 clkPin csPin dcPin freq
  | .finish, bus => bus.halTftEnd
  | .writeCommand cmd, bus => bus.halTftWriteCommand cmd
  | .writeByte data, bus => bus.halTftWriteByte data
  | .writeHalf data, bus => bus.halTftWriteHalf data
  | .writeWord data, bus => bus.halTftWriteWord data
  | .fillData word length, bus => bus.halTftFillData word length
  | .others table, bus => { bus with dma := table }

end Tft
end ArduinoK210
