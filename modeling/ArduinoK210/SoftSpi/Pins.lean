import ArduinoK210.Gpio.Fpioa
import ArduinoK210.Lib.Link
import Mathlib.Data.UInt

/-! The pins of the SPI in software: the registers of the GPIO, and the slave behind them. -/

namespace ArduinoK210.SoftSpi

open Gpio (Fpioa)
open Link (Peer Line Edge)

def softSpiCpha : UInt8 := (1 : UInt8) <<< 0
def softSpiCpol : UInt8 := (1 : UInt8) <<< 1
def softSpiMsb : UInt8 := (1 : UInt8) <<< 2
def softSpiMode3 : UInt8 := softSpiCpol ||| softSpiCpha
def softSpiMode : UInt8 := softSpiMode3 ||| softSpiMsb

def sclk : Nat := 1
def miso : Nat := 2
def mosi : Nat := 3
def funcGpio0 : Nat := 56

/-- The registers of the pins, the remembered level of the clock and the slave, with the edges of the clock so far.
`slept` is the time spent in waits, in microseconds. -/
structure Board (σ : Type) where
  fpioa : Fpioa
  direction : BitVec 32
  output : BitVec 32
  softSpiSclkSts : UInt32
  state : σ
  edges : List Edge
  slept : Nat

/-- The slave, and what the inputs that are not its own read as. -/
structure Circuit (σ : Type) where
  slave : Peer σ
  others : Board σ → BitVec 32

variable {σ : Type} (circuit : Circuit σ)

namespace Board

/-- A store to the output register, and what its change of the clock does to the slave. -/
def store (value : BitVec 32) (board : Board σ) : Board σ :=
  let before := board.output.getLsbD sclk
  let after := value.getLsbD sclk
  let bit := value.getLsbD mosi
  { board with
    output := value
    state :=
      if !before && after then circuit.slave.take bit board.state
      else if before && !after then circuit.slave.next board.state
      else board.state
    edges :=
      if !before && after then board.edges ++ [.rise bit (circuit.slave.shown board.state)]
      else if before && !after then board.edges ++ [.fall]
      else board.edges }

def gpioOutHigh (io : Nat) (board : Board σ) : Board σ := board.store circuit (board.output ||| 1#32 <<< io)

def gpioOutLowx (io : Nat) (board : Board σ) : Board σ := board.store circuit (board.output &&& ~~~(1#32 <<< io))

def dataInput (board : Board σ) : BitVec 32 :=
  (circuit.others board &&& ~~~(1#32 <<< miso)) ||| if circuit.slave.shown board.state then 1#32 <<< miso else 0#32

def getGpioValx (io : Nat) (board : Board σ) : BitVec 32 := (board.dataInput circuit >>> io) &&& 1#32

def halSoftSpiToggleSclk (board : Board σ) : Board σ :=
  let board := if board.softSpiSclkSts ≠ 0 then board.gpioOutLowx circuit sclk else board.gpioOutHigh circuit sclk
  { board with softSpiSclkSts := 1 - board.softSpiSclkSts }

def k210Usleep (time : Nat) (board : Board σ) : Board σ := { board with slept := board.slept + time }

/-- `gpio_set_drive_mode`, whose assertion has no result. -/
def gpioSetDriveMode (pin : Nat) (output : Bool) (board : Board σ) : Option (Board σ) :=
  match board.fpioa.fpioaGetIoByFunction (funcGpio0 + pin) with
  | none => none
  | some _ =>
      some { board with direction := if output then board.direction ||| 1#32 <<< pin else board.direction &&& ~~~(1#32 <<< pin) }

def halSoftSpiInit (sck misoPin mosiPin : Int8) (board : Board σ) : Option (Board σ) := do
  let fpioa := board.fpioa.halFpioaSetPinFunc sck.toUInt8.toNat (funcGpio0 + sclk)
  let fpioa := fpioa.halFpioaSetPinFunc misoPin.toUInt8.toNat (funcGpio0 + miso)
  let fpioa := fpioa.halFpioaSetPinFunc mosiPin.toUInt8.toNat (funcGpio0 + mosi)
  let board ← { board with fpioa := fpioa }.gpioSetDriveMode sclk true
  let board ← board.gpioSetDriveMode miso false
  let board ← board.gpioSetDriveMode mosi true
  if softSpiMode &&& softSpiCpol ≠ 0 then return { board with softSpiSclkSts := 1 }.gpioOutHigh circuit sclk
  else return { board with softSpiSclkSts := 0 }.gpioOutLowx circuit sclk

/-- The pins and the slave are those of a line, and the remembered level is that of the clock. -/
structure Shows (board : Board σ) (line : Line σ) : Prop where
  clock : board.output.getLsbD sclk = line.clock
  status : board.softSpiSclkSts = if line.clock then 1 else 0
  data : board.output.getLsbD mosi = line.data
  state : board.state = line.state
  edges : board.edges = line.edges

def line (board : Board σ) : Line σ := ⟨board.output.getLsbD sclk, board.output.getLsbD mosi, board.state, board.edges⟩

/-- Between transfers the clock rests, and is remembered to. -/
structure Rests (board : Board σ) : Prop where
  clock : board.output.getLsbD sclk = true
  status : board.softSpiSclkSts = 1

end Board

section Bits
variable (value : BitVec 32) {io other : Nat}

private theorem getLsbD_high (inside : io < 32) : (value ||| 1#32 <<< io).getLsbD other = (value.getLsbD other || decide (other = io)) := by
  rw [BitVec.getLsbD_or, BitVec.getLsbD_shiftLeft, BitVec.getLsbD_one]
  congr 1
  by_cases same : other = io
  · subst same
    simp [inside]
  · simp only [same, decide_false]
    grind

private theorem getLsbD_lowx (inside : other < 32) :
    (value &&& ~~~(1#32 <<< io)).getLsbD other = (value.getLsbD other && decide (other ≠ io)) := by
  rw [BitVec.getLsbD_and, BitVec.getLsbD_not, BitVec.getLsbD_shiftLeft, BitVec.getLsbD_one]
  congr 1
  by_cases same : other = io
  · subst same
    simp [inside]
  · simp only [same, inside, ne_eq, not_false_eq_true, decide_true]
    grind

end Bits

namespace Board
variable {circuit} {board : Board σ} {line : Line σ}

/-- A store that leaves the clock alone is nothing to the slave. -/
theorem store_still {value : BitVec 32} (still : value.getLsbD sclk = board.output.getLsbD sclk) :
    board.store circuit value = { board with output := value } := by
  rw [store, still]
  cases board.output.getLsbD sclk <;> rfl

private theorem store_rise {value : BitVec 32} (low : board.output.getLsbD sclk = false) (high : value.getLsbD sclk = true) :
    board.store circuit value = { board with
      output := value
      state := circuit.slave.take (value.getLsbD mosi) board.state
      edges := board.edges ++ [.rise (value.getLsbD mosi) (circuit.slave.shown board.state)] } := by
  rw [store, low, high]
  rfl

private theorem store_fall {value : BitVec 32} (high : board.output.getLsbD sclk = true) (low : value.getLsbD sclk = false) :
    board.store circuit value = { board with
      output := value
      state := circuit.slave.next board.state
      edges := board.edges ++ [.fall] } := by
  rw [store, low, high]
  rfl

theorem Shows.drive (shows : board.Shows line) (circuit : Circuit σ) (bit : Bool) :
    (if bit then board.gpioOutHigh circuit mosi else board.gpioOutLowx circuit mosi).Shows (line.drive bit) := by
  cases bit with
  | true =>
    have still : (board.output ||| 1#32 <<< mosi).getLsbD sclk = board.output.getLsbD sclk := by
      rw [getLsbD_high _ (by decide), show decide (sclk = mosi) = false from rfl, Bool.or_false]
    rw [if_pos rfl, gpioOutHigh, store_still still]
    refine ⟨still.trans shows.clock, shows.status, ?_, shows.state, shows.edges⟩
    exact (getLsbD_high _ (by decide)).trans (Bool.or_true _)
  | false =>
    have still : (board.output &&& ~~~(1#32 <<< mosi)).getLsbD sclk = board.output.getLsbD sclk := by
      rw [getLsbD_lowx _ (by decide), show decide (sclk ≠ mosi) = true from rfl, Bool.and_true]
    rw [if_neg Bool.false_ne_true, gpioOutLowx, store_still still]
    refine ⟨still.trans shows.clock, shows.status, ?_, shows.state, shows.edges⟩
    exact (getLsbD_lowx _ (by decide)).trans (Bool.and_false _)

/-- The remembered level is the clock's, so it is the clock that is changed. -/
theorem Shows.toggle (shows : board.Shows line) (circuit : Circuit σ) :
    (board.halSoftSpiToggleSclk circuit).Shows (line.toggle circuit.slave) := by
  have status := shows.status
  have clock := shows.clock
  have data := shows.data
  unfold halSoftSpiToggleSclk Line.toggle
  cases level : line.clock with
  | true =>
    rw [level, if_pos rfl] at status
    rw [level] at clock
    have low : (board.output &&& ~~~(1#32 <<< sclk)).getLsbD sclk = false := (getLsbD_lowx _ (by decide)).trans (Bool.and_false _)
    have kept : (board.output &&& ~~~(1#32 <<< sclk)).getLsbD mosi = board.output.getLsbD mosi :=
      (getLsbD_lowx _ (by decide)).trans (Bool.and_true _)
    rw [status, if_pos (by decide), if_pos rfl, gpioOutLowx, store_fall clock low]
    refine ⟨low, ?_, kept.trans data, ?_, ?_⟩
    · change 1 - board.softSpiSclkSts = 0
      rw [status]
      rfl
    · rw [shows.state]
    · rw [shows.edges]
  | false =>
    rw [level, if_neg Bool.false_ne_true] at status
    rw [level] at clock
    have high : (board.output ||| 1#32 <<< sclk).getLsbD sclk = true := (getLsbD_high _ (by decide)).trans (Bool.or_true _)
    have kept : (board.output ||| 1#32 <<< sclk).getLsbD mosi = board.output.getLsbD mosi :=
      (getLsbD_high _ (by decide)).trans (Bool.or_false _)
    rw [status, if_neg (by decide), if_neg Bool.false_ne_true, gpioOutHigh, store_rise clock high]
    refine ⟨high, ?_, kept.trans data, ?_, ?_⟩
    · change 1 - board.softSpiSclkSts = 1
      rw [status]
      rfl
    · rw [kept, data, shows.state]
    · rw [kept, data, shows.state, shows.edges]

/-- The input is the bit that the slave shows. -/
theorem getGpioValx_miso (board : Board σ) :
    (board.getGpioValx circuit miso ≠ 0#32) ↔ circuit.slave.shown board.state = true := by
  have bit : (board.dataInput circuit >>> miso).getLsbD 0 = circuit.slave.shown board.state := by
    rw [BitVec.getLsbD_ushiftRight, dataInput, BitVec.getLsbD_or, getLsbD_lowx _ (by decide)]
    cases circuit.slave.shown board.state with
    | true => rw [if_pos rfl, show (1#32 <<< miso).getLsbD (miso + 0) = true from rfl, Bool.or_true]
    | false =>
      rw [if_neg Bool.false_ne_true, show decide (miso + 0 ≠ miso) = false from rfl, Bool.and_false]
      rfl
  rw [getGpioValx, BitVec.and_one_eq_setWidth_ofBool_getLsbD, bit]
  cases circuit.slave.shown board.state <;> decide

theorem Shows.usleep (shows : board.Shows line) (time : Nat) : (board.k210Usleep time).Shows line :=
  ⟨shows.clock, shows.status, shows.data, shows.state, shows.edges⟩

theorem Rests.shows (rests : board.Rests) : board.Shows board.line :=
  ⟨rfl, by rw [rests.status, line, rests.clock]; rfl, rfl, rfl, rfl⟩

theorem Shows.rests (shows : board.Shows line) (high : line.clock = true) : board.Rests := by
  have status := shows.status
  rw [high, if_pos rfl] at status
  exact ⟨shows.clock.trans high, status⟩

theorem halSoftSpiInit_rests {sck misoPin mosiPin : Int8} {after : Board σ}
    (done : board.halSoftSpiInit circuit sck misoPin mosiPin = some after) : after.Rests := by
  unfold halSoftSpiInit at done
  simp only [Option.bind_eq_bind, Option.bind_eq_some_iff] at done
  obtain ⟨_, _, _, _, last, _, done⟩ := done
  rw [if_pos (by decide)] at done
  cases done
  have high : (last.output ||| 1#32 <<< sclk).getLsbD sclk = true := (getLsbD_high _ (by decide)).trans (Bool.or_true _)
  exact ⟨high, rfl⟩

private theorem gpioSetDriveMode_done {pin pad : Nat} (inside : pad < Gpio.k210IoNums) (carried : board.fpioa.chSel pad = funcGpio0 + pin)
    (output : Bool) : ∃ after, board.gpioSetDriveMode pin output = some after ∧ after.fpioa = board.fpioa := by
  unfold gpioSetDriveMode
  cases found : board.fpioa.fpioaGetIoByFunction (funcGpio0 + pin) with
  | some _ => exact ⟨_, rfl, rfl⟩
  | none =>
    have absent := List.find?_eq_none.mp found pad (List.mem_range.mpr inside)
    exact absurd (decide_eq_true carried) absent

theorem halSoftSpiInit_done {sck misoPin mosiPin : Int8} (sckInside : sck.toUInt8.toNat < Gpio.k210IoNums)
    (misoInside : misoPin.toUInt8.toNat < Gpio.k210IoNums) (mosiInside : mosiPin.toUInt8.toNat < Gpio.k210IoNums)
    (sckMiso : sck.toUInt8.toNat ≠ misoPin.toUInt8.toNat) (sckMosi : sck.toUInt8.toNat ≠ mosiPin.toUInt8.toNat)
    (misoMosi : misoPin.toUInt8.toNat ≠ mosiPin.toUInt8.toNat) (circuit : Circuit σ) (board : Board σ) :
    ∃ after, board.halSoftSpiInit circuit sck misoPin mosiPin = some after := by
  let first := board.fpioa.halFpioaSetPinFunc sck.toUInt8.toNat (funcGpio0 + sclk)
  let second := first.halFpioaSetPinFunc misoPin.toUInt8.toNat (funcGpio0 + miso)
  let third := second.halFpioaSetPinFunc mosiPin.toUInt8.toNat (funcGpio0 + mosi)
  have clock : third.chSel sck.toUInt8.toNat = funcGpio0 + sclk := by
    apply (Fpioa.setPinFunc_elsewhere mosiInside (by decide) (by decide) sckMosi (by decide) (by decide)).mpr
    apply (Fpioa.setPinFunc_elsewhere misoInside (by decide) (by decide) sckMiso (by decide) (by decide)).mpr
    exact Fpioa.setPinFunc_here _ _ _ sckInside (by decide)
  have input : third.chSel misoPin.toUInt8.toNat = funcGpio0 + miso := by
    apply (Fpioa.setPinFunc_elsewhere mosiInside (by decide) (by decide) misoMosi (by decide) (by decide)).mpr
    exact Fpioa.setPinFunc_here _ _ _ misoInside (by decide)
  have data : third.chSel mosiPin.toUInt8.toNat = funcGpio0 + mosi := Fpioa.setPinFunc_here _ _ _ mosiInside (by decide)
  obtain ⟨one, atClock, same⟩ := @gpioSetDriveMode_done σ { board with fpioa := third } _ _ sckInside clock true
  obtain ⟨two, atInput, same'⟩ := gpioSetDriveMode_done misoInside ((congrFun (congrArg Fpioa.chSel same) _).trans input) false
  obtain ⟨last, atData, -⟩ :=
    gpioSetDriveMode_done mosiInside ((congrFun (congrArg Fpioa.chSel (same'.trans same)) _).trans data) true
  rw [halSoftSpiInit, atClock, Option.bind_eq_bind, Option.bind_some, atInput, Option.bind_some, atData, Option.bind_some]
  exact ⟨_, if_pos (by decide)⟩

end Board

end ArduinoK210.SoftSpi
