import ArduinoK210.Gpio.Fpioa
import Mathlib.Data.UInt

/-! The UART HAL and the `HardwareSerial` object over it. The serial device itself belongs to the operating system. -/

namespace ArduinoK210.Serial
open Gpio (Fpioa)

structure SerialConfigure where
  baudRate : UInt32 := 115200
  dataBits : Nat := 8
  stopBits : Nat := 0
  parity : Nat := 0
  bufsz : UInt16 := 64
  deriving DecidableEq

/-- The operating system's device of one port. A control that sets the notification is what decides whether arriving data is
reported to the HAL. -/
structure RtDevice (σ : Type) where
  find : σ → Bool
  register : UInt16 → σ → σ
  bufsz : σ → UInt16
  openDevice : σ → Option σ
  configure : SerialConfigure → σ → Option σ
  setNotify : Bool → σ → σ × Bool
  close : σ → Option σ
  opened : σ → Bool
  notifies : σ → Bool
  notifies_setNotify : ∀ wanted device, notifies (setNotify wanted device).1 = wanted

/-- The functions that a port's record can hold. -/
inductive OnDataRecv where
  | onDateRecvCallBack
  deriving DecidableEq

abbrev Address := Nat

/-- The record of one port, its pins and its device. -/
structure HalUart (σ : Type) where
  num : Nat
  dev : Bool := false
  userRxNotify : Option OnDataRecv := none
  userRxNotifyData : Option Address := none
  clock : Bool := false
  fpioa : Fpioa
  device : σ

def uartDeviceMax : Nat := 3
def funcUart1Rx : Nat := 64
def funcUart1Tx : Nat := 65

/-- The low four bits select the parity, then the stop bits, then the data bits. -/
def serialConfigure (config baudrate : UInt32) (bufsz : UInt16) : SerialConfigure where
  baudRate := baudrate
  dataBits :=
    if config &&& 0xF00 = 0x100 then 5 else if config &&& 0xF00 = 0x200 then 6 else if config &&& 0xF00 = 0x300 then 7 else 8
  stopBits := if config &&& 0xF0 = 0x20 then 1 else if config &&& 0xF0 = 0x30 then 2 else 0
  parity := if config &&& 0xF = 0x1 then 2 else if config &&& 0xF = 0x2 then 1 else 0
  bufsz := bufsz

namespace HalUart
variable {σ : Type} (os : RtDevice σ)

/-- A pin is an `int8_t` that the multiplexer takes as an unsigned byte. -/
def setPinFunc (pin : Int8) (func : Nat) (uart : HalUart σ) : HalUart σ :=
  { uart with fpioa := uart.fpioa.halFpioaSetPinFunc pin.toUInt8.toNat func }

def clrPinFunc (pin : Int8) (uart : HalUart σ) : HalUart σ :=
  { uart with fpioa := uart.fpioa.halFpioaClrPinFunc pin.toUInt8.toNat }

def onDataRecv (callback : Option OnDataRecv) (userData : Option Address) (uart : HalUart σ) : HalUart σ × Bool :=
  if uart.dev then
    if callback.isSome && userData.isSome then
      let (device, done) := os.setNotify true uart.device
      ({ uart with userRxNotify := callback, userRxNotifyData := userData, device }, done)
    else
      let (device, done) := os.setNotify false uart.device
      ({ uart with userRxNotify := none, userRxNotifyData := none, device }, done)
  else (uart, false)

/-- `none` is a failed assertion, after which nothing runs. -/
def endUart (uart : HalUart σ) : Option (HalUart σ) :=
  if uart.dev then do
    let uart := (uart.onDataRecv os none none).1
    let device ← os.close uart.device
    return { uart with device, clock := false, dev := false }
  else some uart

/-- The device is registered when it is not found. -/
def findDevice (bufferSize : UInt16) (uart : HalUart σ) : HalUart σ :=
  if os.find uart.device then { uart with dev := true }
  else
    let device := os.register bufferSize uart.device
    { uart with device, dev := os.find device }

/-- The found device is opened and configured, and nobody is told of its data. -/
def connect (baudrate config : UInt32) (uart : HalUart σ) : Option (HalUart σ) := do
  let config := serialConfigure config baudrate (os.bufsz uart.device)
  let device ← os.openDevice uart.device
  let device ← os.configure config device
  return (HalUart.onDataRecv os none none { uart with device }).1

def beginUart (baudrate config : UInt32) (rxPin txPin : Int8) (bufferSize : UInt16) (uart : HalUart σ) : Option (HalUart σ) :=
  (if uart.dev then uart.endUart os else some uart).bind fun uart =>
    let uart := { uart with clock := true }
    let uart := uart.setPinFunc txPin (funcUart1Tx + uart.num * 2)
    let uart := uart.setPinFunc rxPin (funcUart1Rx + uart.num * 2)
    let uart := uart.findDevice os bufferSize
    if uart.dev then uart.connect os baudrate config else some uart

def isOpened (uart : HalUart σ) : Bool := uart.dev && os.opened uart.device

/-- The function and the data that arriving bytes call. -/
def rxNotify (uart : HalUart σ) : Option (OnDataRecv × Option Address) :=
  if os.notifies uart.device then uart.userRxNotify.map fun notify => (notify, uart.userRxNotifyData) else none

end HalUart

/-- The object of one port, and whether its pointer to the HAL's record is set. `C` stands for the functions that a sketch registers. -/
structure HardwareSerial (C σ : Type) where
  this : Address
  uart : Bool := false
  bufferSize : UInt16 := 256
  rxPin : Int8 := -1
  txPin : Int8 := -1
  onRecvCallback : Option C := none
  hal : HalUart σ

namespace HardwareSerial
variable {C σ : Type} (os : RtDevice σ)

def uart1Rx : Int8 := 4
def uart1Tx : Int8 := 5

/-- The pins that a call of `begin` asks for; the first port has pins of its own. -/
def pins (num : Nat) (rxPin txPin : Int8) : Option (Int8 × Int8) :=
  if num = 0 ∧ rxPin < 0 ∧ txPin < 0 then some (uart1Rx, uart1Tx)
  else if rxPin < 0 ∧ txPin < 0 then none
  else some (rxPin, txPin)

def begin (baud config : UInt32) (rxPin txPin : Int8) (serial : HardwareSerial C σ) : Option (HardwareSerial C σ) :=
  match pins serial.hal.num rxPin txPin with
  | none => some serial
  | some (rxPin, txPin) =>
      let serial := { serial with rxPin, txPin }
      if uartDeviceMax ≤ serial.hal.num then some { serial with uart := false }
      else do
        let hal ← serial.hal.beginUart os baud config rxPin txPin serial.bufferSize
        return { serial with hal, uart := true }

def endSerial (serial : HardwareSerial C σ) : Option (HardwareSerial C σ) :=
  (if serial.uart then serial.hal.endUart os else some serial.hal).bind fun hal =>
    let hal := if 0 ≤ serial.rxPin then hal.clrPinFunc serial.rxPin else hal
    let hal := if 0 ≤ serial.txPin then hal.clrPinFunc serial.txPin else hal
    some { serial with hal, uart := false }

def onReceive (callback : Option C) (serial : HardwareSerial C σ) : HardwareSerial C σ :=
  let serial := { serial with onRecvCallback := callback }
  if serial.uart then
    match callback with
    | some _ => { serial with hal := (serial.hal.onDataRecv os (some .onDateRecvCallBack) (some serial.this)).1 }
    | none => { serial with hal := (serial.hal.onDataRecv os none none).1 }
  else serial

/-- The callback that arriving data invokes, and the object it is given. -/
def arrive (serial : HardwareSerial C σ) : Option (C × Address) :=
  match serial.hal.rxNotify os with
  | some (.onDateRecvCallBack, some address) =>
      if address = serial.this then serial.onRecvCallback.map fun callback => (callback, address) else none
  | _ => none

end HardwareSerial
end ArduinoK210.Serial
