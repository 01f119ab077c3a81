import ArduinoK210.Gpio.Fpioa
import Mathlib.Logic.Function.Basic

/-! The controllers SPI0 and SPI1 and the three clients that start on them: the
`SPIClass` objects, the TFT bus and the SD card. The GPIO block, which drives the
TFT's data/command line and the card's chip select, is left out. -/

namespace ArduinoK210.Spi
open Gpio

def funcSpi0D0 : Nat := 4
def funcSpi0Ss0 : Nat := 12
def funcSpi0Sclk : Nat := 17
def funcGpio0 : Nat := 56
def funcSpi1D0 : Nat := 70
def funcSpi1D1 : Nat := 71
def funcSpi1Sclk : Nat := 83
def softSpiCsxxGpioFunc : Nat := 4
def tftDcxGpioFunc : Nat := 0

/-- The registers of a controller and its clock gate. -/
structure SpiPort where
  clockEn : Bool
  clockThreshold : Nat
  baudr : Nat
  imr : Nat
  dmacr : Nat
  dmatdlr : Nat
  dmardlr : Nat
  ser : Nat
  ssienr : Nat
  ctrlr0 : Nat
  spiCtrlr0 : Nat
  endian : Nat
  deriving DecidableEq

inductive FrameFormat where
  | standard | dual | quad | octal
  deriving DecidableEq

def FrameFormat.code : FrameFormat → Nat
  | .standard => 0
  | .dual => 1
  | .quad => 2
  | .octal => 3

namespace SpiPort

def spiInit (workMode : Nat) (frameFormat : FrameFormat) (dataBitLength endian : Nat) (port : SpiPort) : SpiPort :=
  { clockEn := true
    clockThreshold := 0
    baudr := if port.baudr = 0 then 0x14 else port.baudr
    imr := 0x00
    dmacr := 0x00
    dmatdlr := 0x10
    dmardlr := 0x00
    ser := 0x00
    ssienr := 0x00
    ctrlr0 := workMode <<< 6 ||| frameFormat.code <<< 21 ||| (dataBitLength - 1) <<< 16
    spiCtrlr0 := 0
    endian }

def sysctlClockGetFreq (pll0 : Nat) (port : SpiPort) : Nat := pll0 / ((port.clockThreshold + 1) * 2)

def spiSetClkRate (pll0 spiClk : Nat) (port : SpiPort) : SpiPort :=
  { port with baudr := min (max (port.sysctlClockGetFreq pll0 / spiClk) 2) 65534 }

end SpiPort

structure SpiSettings where
  clock : Nat
  dataMode : Nat

structure SpiObject where
  bus : Nat
  ready : Bool
  pins : List Int8
  settings : SpiSettings

structure TftBus where
  dcxPin : Int8
  csxPin : Int8
  clkPin : Int8
  cs : Nat
  dcGpioFunc : Nat
  freq : Nat

structure Controllers where
  ports : Nat → SpiPort
  fpioa : Fpioa
  owners : Nat → Option Nat
  objects : Nat → SpiObject
  tftBus : TftBus
  spi0InUse : Bool
  sdcardUseHwSpi1 : Bool
  spiDvpDataEnable : Bool

def pinNumber (pin : Int8) : Nat := pin.toUInt8.toNat

/-- What `begin` accepts: each pin is -1 or a pad, and no pad occurs twice. -/
def PinsValid (pins : List Int8) : Prop :=
  (∀ pin ∈ pins, -1 ≤ pin.toInt ∧ pin.toInt < k210IoNums) ∧
    pins.Pairwise fun first second => 0 ≤ second.toInt → second ≠ first

instance (pins : List Int8) : Decidable (PinsValid pins) := inferInstanceAs (Decidable (_ ∧ _))

def route (pins : List Int8) (funcs : List Nat) (fpioa : Fpioa) : Fpioa :=
  (pins.zip funcs).foldl (fun fpioa entry =>
    if 0 ≤ entry.1.toInt then fpioa.halFpioaSetPinFunc (pinNumber entry.1) entry.2 else fpioa) fpioa

def unroute (pins : List Int8) (fpioa : Fpioa) : Fpioa :=
  pins.foldl (fun fpioa pin => if 0 ≤ pin.toInt then fpioa.halFpioaClrPinFunc (pinNumber pin) else fpioa) fpioa

namespace Controllers

def configure (pll0 id : Nat) (spi : Controllers) : Controllers :=
  let object := spi.objects id
  if object.ready then
    { spi with
      ports := Function.update spi.ports object.bus
        ((spi.ports object.bus).spiInit object.settings.dataMode .standard 8 0 |>.spiSetClkRate pll0 object.settings.clock) }
  else spi

/-- `SPIClass::begin`; `mutex` says whether `rt_mutex_create` returns one. -/
def spiBegin (pll0 id : Nat) (sck miso mosi cs : Int8) (mutex : Bool) (spi : Controllers) : Controllers :=
  let object := spi.objects id
  let pins := [sck, miso, mosi, cs]
  if object.ready ∨ 1 < object.bus then spi
  else if ¬ PinsValid pins then spi
  else if (object.bus = 0 ∧ spi.spi0InUse) ∨ (object.bus = 1 ∧ spi.sdcardUseHwSpi1) then spi
  else if spi.owners object.bus ≠ none then spi
  else
    let owned := { spi with owners := Function.update spi.owners object.bus (some id) }
    if mutex = false then { owned with owners := Function.update owned.owners object.bus none }
    else
      let base := if object.bus = 0 then funcSpi0D0 else funcSpi1D0
      { owned with
        fpioa := route pins [base + 13, base + 1, base, base + 8] owned.fpioa
        objects := Function.update owned.objects id { object with ready := true, pins } }
      |>.configure pll0 id

def spiEnd (id : Nat) (spi : Controllers) : Controllers :=
  let object := spi.objects id
  if object.ready then
    { spi with
      ports := Function.update spi.ports object.bus { spi.ports object.bus with ser := 0, ssienr := 0 }
      fpioa := unroute object.pins spi.fpioa
      objects := Function.update spi.objects id { object with ready := false, pins := object.pins.map fun _ => -1 }
      owners := Function.update spi.owners object.bus none }
  else spi

def halTftBegin (pll0 : Nat) (clkPin csPin dcPin : Int8) (freq : Nat) (spi : Controllers) : Controllers :=
  if clkPin = -1 ∨ csPin = -1 then spi
  else
    let tftBus := { spi.tftBus with clkPin, csxPin := csPin, dcxPin := dcPin, freq }
    let fpioa :=
      if 0 ≤ dcPin.toInt then spi.fpioa.halFpioaSetPinFunc (pinNumber dcPin) (funcGpio0 + tftBus.dcGpioFunc)
      else spi.fpioa
    { spi with
      tftBus
      fpioa := (fpioa.halFpioaSetPinFunc (pinNumber clkPin) funcSpi0Sclk).halFpioaSetPinFunc (pinNumber csPin)
        (funcSpi0Ss0 + tftBus.cs)
      ports := Function.update spi.ports 0 ((spi.ports 0).spiInit 0 .octal 8 0 |>.spiSetClkRate pll0 freq)
      spiDvpDataEnable := true
      spi0InUse := true }

def halTftEnd (spi : Controllers) : Controllers :=
  let fpioa := (spi.fpioa.halFpioaClrPinFunc (pinNumber spi.tftBus.clkPin)).halFpioaClrPinFunc
    (pinNumber spi.tftBus.csxPin)
  { spi with
    ports := Function.update spi.ports 0 { spi.ports 0 with clockEn := false }
    fpioa := if 0 ≤ spi.tftBus.dcxPin.toInt then fpioa.halFpioaClrPinFunc (pinNumber spi.tftBus.dcxPin) else fpioa
    tftBus := ⟨-1, -1, -1, 3, tftDcxGpioFunc, 10 * 1000 * 1000⟩
    spi0InUse := false }

def hardSpiInit (pll0 : Nat) (sck miso mosi cs : Int8) (spi : Controllers) : Controllers :=
  { spi with
    fpioa := spi.fpioa
      |>.halFpioaSetPinFunc (pinNumber cs) (funcGpio0 + softSpiCsxxGpioFunc)
      |>.halFpioaSetPinFunc (pinNumber sck) funcSpi1Sclk
      |>.halFpioaSetPinFunc (pinNumber miso) funcSpi1D1
      |>.halFpioaSetPinFunc (pinNumber mosi) funcSpi1D0
    ports := Function.update spi.ports 1 ((spi.ports 1).spiInit 0 .standard 8 0 |>.spiSetClkRate pll0 (400 * 1000))
    sdcardUseHwSpi1 := true }

inductive Op where
  | spiBegin (id : Nat) (sck miso mosi cs : Int8) (mutex : Bool)
  | spiEnd (id : Nat)
  | tftBegin (clkPin csPin dcPin : Int8) (freq : Nat)
  | tftEnd
  | hardSpiInit (sck miso mosi cs : Int8)

def perform (pll0 : Nat) : Op → Controllers → Controllers
  | .spiBegin id sck miso mosi cs mutex, spi => spi.spiBegin pll0 id sck miso mosi cs mutex
  | .spiEnd id, spi => spi.spiEnd id
  | .tftBegin clkPin csPin dcPin freq, spi => spi.halTftBegin pll0 clkPin csPin dcPin freq
  | .tftEnd, spi => spi.halTftEnd
  | .hardSpiInit sck miso mosi cs, spi => spi.hardSpiInit pll0 sck miso mosi cs

def start (ports : Nat → SpiPort) (fpioa : Fpioa) (bus : Nat → Nat) (settings : Nat → SpiSettings) : Controllers where
  ports
  fpioa
  owners := fun _ => none
  objects := fun id => ⟨bus id, false, [-1, -1, -1, -1], settings id⟩
  tftBus := ⟨-1, -1, -1, 3, tftDcxGpioFunc, 10 * 1000 * 1000⟩
  spi0InUse := false
  sdcardUseHwSpi1 := false
  spiDvpDataEnable := false

end Controllers
end ArduinoK210.Spi
