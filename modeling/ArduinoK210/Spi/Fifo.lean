import ArduinoK210.Spi.Transaction

/-! The controller behind `transferBytes`: two FIFOs, a shift register and the wire, which moves a frame whenever it likes.
The log has what a probe on the wire sees. -/

namespace ArduinoK210.Spi

def fifoDepth : Nat := 32

/-- Chip select goes to a level, the first bit of a frame goes out, the last bit of the answer has come in. -/
inductive WireEvent where
  | chipSelect (asserted : Bool)
  | first (frame : UInt8)
  | last (answer : UInt8)
  deriving DecidableEq

def WireEvent.frame : WireEvent → Option UInt8
  | .first frame => some frame
  | _ => none

def framesOf (log : List WireEvent) : List UInt8 := log.filterMap WireEvent.frame

structure FifoPort where
  ssienr : Bool
  ser : Bool
  ctrlr0 : UInt32
  ctrlr1 : UInt32
  tx : List UInt8
  shift : Option UInt8
  rx : List UInt8
  lost : Nat
  log : List WireEvent

namespace FifoPort

def selected (port : FifoPort) : Bool := port.ssienr && port.ser

/-- Transmit and receive, of the four modes in bits 8 and 9. -/
def fullDuplex (port : FifoPort) : Bool := (port.ctrlr0 >>> 8) &&& 3 == 0

/-- What a write to a control register does to chip select. -/
def settle (before after : FifoPort) : FifoPort :=
  if before.selected = after.selected then after else { after with log := after.log ++ [WireEvent.chipSelect after.selected] }

/-- A disabled controller drops its frames. -/
def disable (port : FifoPort) : FifoPort := port.settle { port with ssienr := false, tx := [], shift := none, rx := [] }

def enable (port : FifoPort) : FifoPort := port.settle { port with ssienr := true }

def writeSer (ser : Bool) (port : FifoPort) : FifoPort := port.settle { port with ser }

def writeCtrlr0 (mask : UInt32) (port : FifoPort) : FifoPort := { port with ctrlr0 := port.ctrlr0 &&& mask }

def writeCtrlr1 (value : UInt32) (port : FifoPort) : FifoPort := { port with ctrlr1 := value }

/-- A write to `dr[0]`. -/
def push (value : UInt8) (port : FifoPort) : FifoPort :=
  if port.tx.length < fifoDepth then { port with tx := port.tx ++ [value] } else port

/-- A read of `dr[0]`. -/
def pop (port : FifoPort) : UInt8 × FifoPort := (port.rx.headD 0, { port with rx := port.rx.tail })

def busy (port : FifoPort) : Bool := port.shift.isSome || !port.tx.isEmpty

/-- The answer to the frame in the shift register goes into the receive FIFO, or is lost. -/
def receive (answer : UInt8) (port : FifoPort) : FifoPort :=
  if port.fullDuplex then
    if port.rx.length < fifoDepth then { port with rx := port.rx ++ [answer] } else { port with lost := port.lost + 1 }
  else port

/-- One move of the wire: the start or the end of a frame. `slave` is what the device answers to the last of the frames
it has got. -/
def move (slave : List UInt8 → UInt8) (port : FifoPort) : FifoPort :=
  if port.selected then
    match port.shift, port.tx with
    | some _, _ =>
        let answer := slave (framesOf port.log)
        { port with shift := none, log := port.log ++ [WireEvent.last answer] }.receive answer
    | none, frame :: rest => { port with shift := some frame, tx := rest, log := port.log ++ [WireEvent.first frame] }
    | none, [] => port
  else port

def movable (port : FifoPort) : Bool := port.selected && port.busy

end FifoPort

/-- A call of `transferBytes`. `ready` is `ready_`, and `granted` says that `rt_mutex_take` returns `RT_EOK`. -/
structure Transfer where
  ready : Bool
  granted : Bool
  settings : BusSettings
  input : Option Nat
  output : Option Nat
  size : Nat

/-- The call gets past its tests. -/
def Transfer.Runs (call : Transfer) : Prop := call.ready = true ∧ call.size ≠ 0 ∧ call.granted = true

instance (call : Transfer) : Decidable call.Runs := inferInstanceAs (Decidable (_ ∧ _))

inductive TransferPc where
  | enter | disable | duplex | frames | enable | select
  | outer | inner | push | drain | pop
  | busy | deselect | stop | done
  deriving DecidableEq

structure TransferState where
  pc : TransferPc
  sent : Nat
  received : Nat
  mem : Nat → UInt8
  port : FifoPort

def Transfer.inputByte (call : Transfer) (mem : Nat → UInt8) (i : Nat) : UInt8 :=
  match call.input with
  | some address => mem (address + i)
  | none => 0xff

def Transfer.store (call : Transfer) (i : Nat) (value : UInt8) (mem : Nat → UInt8) : Nat → UInt8 :=
  match call.output with
  | some address => Function.update mem (address + i) (call.settings.wireByte value)
  | none => mem

/-- One step of `transferBytes`, with at most one access to a register. What the mutex does for other tasks is in
`Transaction`. -/
def Transfer.proceed (call : Transfer) (state : TransferState) : TransferState :=
  match state.pc with
  | .enter => { state with pc := if call.Runs then .disable else .done }
  | .disable => { state with pc := .duplex, port := state.port.disable }
  | .duplex => { state with pc := .frames, port := state.port.writeCtrlr0 (~~~((3 : UInt32) <<< 8)) }
  | .frames => { state with pc := .enable, port := state.port.writeCtrlr1 0 }
  | .enable => { state with pc := .select, port := state.port.enable }
  | .select => { state with pc := .outer, port := state.port.writeSer true }
  | .outer => { state with pc := if state.received < call.size then .inner else .busy }
  | .inner =>
      { state with pc :=
          if state.sent < call.size ∧ state.sent - state.received < 32 ∧ state.port.tx.length < 32 then .push else .drain }
  | .push =>
      let value := call.settings.wireByte (call.inputByte state.mem state.sent)
      { state with pc := .inner, port := state.port.push value, sent := state.sent + 1 }
  | .drain => { state with pc := if state.received < state.sent ∧ state.port.rx.length ≠ 0 then .pop else .outer }
  | .pop =>
      let (value, port) := state.port.pop
      { state with pc := .drain, port, mem := call.store state.received value state.mem, received := state.received + 1 }
  | .busy => { state with pc := if state.port.busy then .busy else .deselect }
  | .deselect => { state with pc := .stop, port := state.port.writeSer false }
  | .stop => { state with pc := .done, port := state.port.disable }
  | .done => state

/-- Who moves next: the task that has called `transferBytes`, or the wire. -/
inductive Mover where
  | task | wire
  deriving DecidableEq

def Transfer.step (call : Transfer) (slave : List UInt8 → UInt8) (mover : Mover) (state : TransferState) : TransferState :=
  match mover with
  | .task => call.proceed state
  | .wire => { state with port := state.port.move slave }

/-- The probe is attached when the call starts. -/
def Transfer.start (port : FifoPort) (mem : Nat → UInt8) : TransferState :=
  ⟨.enter, 0, 0, mem, { port with lost := 0, log := [] }⟩

end ArduinoK210.Spi
