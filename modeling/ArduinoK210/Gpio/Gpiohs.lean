import ArduinoK210.Gpio.Fpioa
import Mathlib.Logic.Function.Basic
import Mathlib.Data.List.Sort
import Mathlib.Order.Monotone.Basic

/-! The table that lends the 32 GPIOHS functions to 48 pins, least recently used
first, and the Arduino pin calls over it. -/

namespace ArduinoK210.Gpio

/-- A row of `gpiohs_func_table`; pin 255 marks a function without a pin. -/
structure FuncInfo where
  lastTime : Nat
  func : Nat
  pin : Nat
  deriving DecidableEq

def unbound : Nat := 255

def gpiohsFuncSize : Nat := 32

inductive PinMode where
  | input | output | inputPullup | inputPulldown | outputOpendrain
  deriving DecidableEq

inductive DriveMode where
  | input | inputPullDown | inputPullUp | output
  deriving DecidableEq

inductive Pull where
  | none | down | up
  deriving DecidableEq

/-- The microsecond clock and the C library's `qsort`, each by the number of the
call; `qsort` may break ties as it likes. -/
structure Env where
  timeUs : Nat → Nat
  increasing : StrictMono timeUs
  qsort : Nat → List FuncInfo → List FuncInfo
  perm : ∀ call table, (qsort call table).Perm table
  sorted : ∀ call table, (qsort call table).Pairwise fun first second => first.lastTime ≤ second.lastTime
  inputVal : Nat → Nat → Bool

/-- The table and the hardware. `owner func` is the pin that last received the
function by a `pinMode` and was not cleared since, and whether that mode was an
output; no call reads it. -/
structure Pins where
  table : List FuncInfo
  fpioa : Fpioa
  outputEn : Nat → Bool
  inputEn : Nat → Bool
  outputVal : Nat → Bool
  pull : Nat → Pull
  readings : Nat
  sorts : Nat
  owner : Nat → Option (Nat × Bool)

def updateFirst (pin : Nat) (change : FuncInfo → FuncInfo) : List FuncInfo → Option (FuncInfo × List FuncInfo)
  | [] => none
  | info :: rest =>
    if pin = info.pin then some (info, change info :: rest)
    else (updateFirst pin change rest).map fun found => (found.1, info :: found.2)

namespace Pins

def initPins (pins : Pins) : Pins :=
  { pins with table := (List.range gpiohsFuncSize).map fun i => ⟨0, funcGpiohs0 + i, unbound⟩ }

def halGpiohsSetPinFunc (env : Env) (pinNumber : Nat) (pins : Pins) : Nat × Pins :=
  if k210IoNums ≤ pinNumber then (funcMax, pins)
  else
    match env.qsort pins.sorts pins.table with
    | [] => (funcMax, pins)
    | info :: rest =>
      (info.func, { pins with
        table := ⟨env.timeUs pins.readings, info.func, pinNumber⟩ :: rest
        fpioa := pins.fpioa.halFpioaSetPinFunc pinNumber info.func
        readings := pins.readings + 1
        sorts := pins.sorts + 1 })

def halGpiohsGetPinFunc (env : Env) (pinNumber : Nat) (pins : Pins) : Nat × Pins :=
  match updateFirst pinNumber (fun info => { info with lastTime := env.timeUs pins.readings }) pins.table with
  | some (info, table) => (info.func, { pins with table, readings := pins.readings + 1 })
  | none => (funcMax, pins)

def halGpiohsClrPinFunc (pinNumber : Nat) (pins : Pins) : Pins :=
  match updateFirst pinNumber (fun info => { info with pin := unbound, lastTime := 0 }) pins.table with
  | some (_, table) => { pins with table, fpioa := pins.fpioa.halFpioaClrPinFunc pinNumber }
  | none => pins

/-- The source stops on an assertion when no pad carries the function. -/
def gpiohsSetDriveMode (pin : Nat) (mode : DriveMode) (pins : Pins) : Pins :=
  match pins.fpioa.fpioaGetIoByFunction (funcGpiohs0 + pin) with
  | none => pins
  | some ioNumber =>
    let pull := match mode with
      | .input => Pull.none
      | .inputPullDown | .output => Pull.down
      | .inputPullUp => Pull.up
    let dir := decide (mode = .output)
    { pins with
      pull := Function.update pins.pull ioNumber pull
      outputEn := Function.update pins.outputEn pin dir
      inputEn := Function.update pins.inputEn pin !dir }

def driveMode : PinMode → DriveMode
  | .input => .input
  | .inputPullup => .inputPullUp
  | .inputPulldown => .inputPullDown
  | .output | .outputOpendrain => .output

def isGpiohs (func : Nat) : Prop := funcGpiohs0 ≤ func ∧ func ≤ funcGpiohs31

instance (func : Nat) : Decidable (isGpiohs func) := inferInstanceAs (Decidable (_ ∧ _))

def pinMode (env : Env) (pinNumber : Nat) (mode : PinMode) (pins : Pins) : Pins :=
  if k210IoNums ≤ pinNumber then pins
  else
    let set := pins.halGpiohsSetPinFunc env pinNumber
    let owned := { set.2 with
      owner := Function.update set.2.owner set.1 (some (pinNumber, decide (driveMode mode = .output))) }
    if isGpiohs set.1 then owned.gpiohsSetDriveMode (set.1 - funcGpiohs0) (driveMode mode) else owned

def pinModeClear (pinNumber : Nat) (pins : Pins) : Pins :=
  { pins.halGpiohsClrPinFunc pinNumber with
    owner := fun func => (pins.owner func).filter fun held => held.1 ≠ pinNumber }

def digitalWrite (env : Env) (pinNumber : Nat) (status : Bool) (pins : Pins) : Pins :=
  if k210IoNums ≤ pinNumber then pins
  else
    let got := pins.halGpiohsGetPinFunc env pinNumber
    if isGpiohs got.1 then
      { got.2 with outputVal := Function.update got.2.outputVal (got.1 - funcGpiohs0) status }
    else got.2

def digitalRead (env : Env) (pinNumber : Nat) (pins : Pins) : Bool × Pins :=
  if k210IoNums ≤ pinNumber then (false, pins)
  else
    let got := pins.halGpiohsGetPinFunc env pinNumber
    (if isGpiohs got.1 then env.inputVal pins.readings (got.1 - funcGpiohs0) else false, got.2)

def padLevel (pad : Nat) (pins : Pins) : Option Bool :=
  if isGpiohs (pins.fpioa.chSel pad) ∧ pins.outputEn (pins.fpioa.chSel pad - funcGpiohs0) = true then
    some (pins.outputVal (pins.fpioa.chSel pad - funcGpiohs0))
  else none

inductive Op where
  | pinMode (pin : Fin 48) (mode : PinMode)
  | pinModeClear (pin : Fin 48)
  | digitalWrite (pin : Fin 48) (status : Bool)
  | digitalRead (pin : Fin 48)

def perform (env : Env) : Op → Pins → Pins
  | .pinMode pin mode, pins => pins.pinMode env pin mode
  | .pinModeClear pin, pins => pins.pinModeClear pin
  | .digitalWrite pin status, pins => pins.digitalWrite env pin status
  | .digitalRead pin, pins => (pins.digitalRead env pin).2

/-- Power-on registers, with the table set up. -/
def start (fpioa : Fpioa) (outputEn inputEn outputVal : Nat → Bool) (pull : Nat → Pull) : Pins :=
  initPins ⟨[], fpioa, outputEn, inputEn, outputVal, pull, 0, 0, fun _ => none⟩

end Pins
end ArduinoK210.Gpio
