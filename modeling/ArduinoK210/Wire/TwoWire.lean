import Mathlib.Data.List.Basic

/-! One started `TwoWire`, shared by any number of tasks. Its mutex makes each call
one step; what the I2C controller answers is arbitrary. -/

namespace ArduinoK210.Wire

def hardwareI2cBuffLen : Nat := 64

inductive Phase where
  | idle | collecting | commandPending
  deriving DecidableEq

structure TwoWire where
  task : Option Nat
  clock : Nat
  address : Nat
  tx : Nat → UInt8
  rx : Nat → UInt8
  txSize : Nat
  rxSize : Nat
  rxOffset : Nat
  phase : Phase
  overflow : Bool
  writeError : Bool
  transfers : Nat

/-- The SDK's results and the abort register, by the number of the transfer. -/
structure Controller where
  sendResult : Nat → Int
  recvResult : Nat → Int
  recvByte : Nat → Nat → UInt8
  txAbrtSource : Nat → Nat

inductive I2cCall where
  | init (address addressWidth clk : Nat)
  | sendData (bytes : List UInt8)
  | recvData (bytes : List UInt8) (count : Nat)
  deriving DecidableEq

inductive Reply where
  | unit
  | count (n : Nat)
  | status (n : Nat)
  | value (n : Int)
  deriving DecidableEq

/-- What a call returns, the SDK calls it makes and the state it leaves. -/
structure Outcome where
  reply : Reply
  traffic : List I2cCall
  wire : TwoWire

/-- The argument of `write`: a null pointer with a count, or the bytes it points to. -/
inductive Buffer where
  | null (count : Nat)
  | data (bytes : List UInt8)
  deriving DecidableEq

def Buffer.count : Buffer → Nat
  | .null count => count
  | .data bytes => bytes.length

def Buffer.bytes : Buffer → List UInt8
  | .null _ => []
  | .data bytes => bytes

def Buffer.isNull : Buffer → Bool
  | .null _ => true
  | .data _ => false

namespace TwoWire

def accessible (task : Nat) (wire : TwoWire) : Prop := wire.phase = .idle ∨ wire.task = some task

instance (task : Nat) (wire : TwoWire) : Decidable (wire.accessible task) := inferInstanceAs (Decidable (_ ∨ _))

def cancel (wire : TwoWire) : TwoWire := { wire with phase := .idle, task := none, txSize := 0, overflow := false }

def guarded (task : Nat) (refused : Reply) (body : TwoWire → Outcome) (wire : TwoWire) : Outcome :=
  if wire.accessible task then body wire else ⟨refused, [], wire⟩

def txBytes (wire : TwoWire) : List UInt8 := (List.range wire.txSize).map wire.tx

def addressWidth (address : Nat) : Nat := if 127 < address then 10 else 7

def setClock (task frequency : Nat) : TwoWire → Outcome :=
  guarded task .unit fun wire => ⟨.unit, [], if frequency ≠ 0 then { wire with clock := frequency } else wire⟩

def start (task address : Nat) : TwoWire → Outcome :=
  guarded task .unit fun wire =>
    ⟨.unit, [], { wire.cancel with
      address, task := some task, phase := .collecting, writeError := decide (1023 < address) }⟩

def write (task : Nat) (buffer : Buffer) : TwoWire → Outcome :=
  guarded task (.count 0) fun wire =>
    if wire.phase ≠ .collecting ∨ 1023 < wire.address ∨ (buffer.isNull = true ∧ buffer.count ≠ 0) then
      ⟨.count 0, [], { wire with writeError := true }⟩
    else
      let room := hardwareI2cBuffLen - wire.txSize
      let accepted := if buffer.count < room then buffer.count else room
      ⟨.count accepted, [], { wire with
        tx := fun i =>
          if wire.txSize ≤ i ∧ i < wire.txSize + accepted then buffer.bytes.getD (i - wire.txSize) 0 else wire.tx i
        txSize := wire.txSize + accepted
        overflow := wire.overflow || decide (accepted ≠ buffer.count)
        writeError := wire.writeError || decide (accepted ≠ buffer.count) }⟩

/-- Bits 0 to 2 of the abort register are the address cases, bit 3 the data case. -/
def transferStatus (sdkResult : Int) (cause : Nat) : Nat :=
  if sdkResult = 0 then 0
  else if cause &&& (0x1 ||| 0x2 ||| 0x4) ≠ 0 then 2
  else if cause &&& 0x8 ≠ 0 then 3
  else 4

/-- The tail of `endTransmission`, with the status it reports. -/
def finish (status : Nat) (wire : TwoWire) : TwoWire :=
  { wire.cancel with writeError := wire.writeError || decide (status ≠ 0) }

def endTransmission (controller : Controller) (task : Nat) (stop : Bool) : TwoWire → Outcome :=
  guarded task (.status 4) fun wire =>
    if wire.phase = .collecting ∧ wire.address ≤ 1023 then
      if wire.overflow then ⟨.status 1, [], wire.finish 1⟩
      else if wire.writeError = false ∧ wire.txSize ≠ 0 then
        if stop = false then ⟨.status 0, [], { wire with phase := .commandPending }⟩
        else
          let status := transferStatus (controller.sendResult wire.transfers) (controller.txAbrtSource wire.transfers)
          ⟨.status status,
            [.init wire.address (addressWidth wire.address) wire.clock, .sendData wire.txBytes],
            { wire with transfers := wire.transfers + 1 }.finish status⟩
      else ⟨.status 4, [], wire.finish 4⟩
    else ⟨.status 4, [], wire.finish 4⟩

def receive (controller : Controller) (task address count : Nat) (stop : Bool) : TwoWire → Outcome :=
  guarded task (.count 0) fun wire =>
    let cleared := { wire with rxSize := 0, rxOffset := 0 }
    let valid := stop = true ∧ address ≤ 1023 ∧ wire.phase ≠ .collecting ∧
      (wire.phase ≠ .commandPending ∨ address = wire.address)
    if ¬ valid then ⟨.count 0, [], { cleared.cancel with writeError := true }⟩
    else if count = 0 then ⟨.count 0, [], cleared.cancel⟩
    else
      let count := if hardwareI2cBuffLen < count then hardwareI2cBuffLen else count
      let result := controller.recvResult wire.transfers
      let received := { cleared.cancel with
        rx := fun i => if i < count then controller.recvByte wire.transfers i else wire.rx i
        transfers := wire.transfers + 1 }
      ⟨.count (if result = 0 then count else 0),
        [.init address (addressWidth address) wire.clock, .recvData wire.txBytes count],
        if result = 0 then { received with rxSize := count } else { received with writeError := true }⟩

def available (task : Nat) : TwoWire → Outcome :=
  guarded task (.value 0) fun wire => ⟨.value (wire.rxSize - wire.rxOffset : Nat), [], wire⟩

def peek (task : Nat) : TwoWire → Outcome :=
  guarded task (.value (-1)) fun wire =>
    ⟨.value (if wire.rxOffset < wire.rxSize then (wire.rx wire.rxOffset).toNat else -1), [], wire⟩

def read (task : Nat) : TwoWire → Outcome :=
  guarded task (.value (-1)) fun wire =>
    if wire.rxOffset < wire.rxSize then
      ⟨.value (wire.rx wire.rxOffset).toNat, [], { wire with rxOffset := wire.rxOffset + 1 }⟩
    else ⟨.value (-1), [], wire⟩

def flush (task : Nat) : TwoWire → Outcome :=
  guarded task .unit fun wire => ⟨.unit, [], { wire.cancel with rxSize := 0, rxOffset := 0 }⟩

end TwoWire

/-- The calls of a task. The overloads with signed arguments map an address outside
0..1023 to 1024 and a count below 1 to 0. -/
inductive Call where
  | beginTransmission (address : Nat)
  | beginTransmissionInt (address : Int)
  | write (buffer : Buffer)
  | endTransmission (stop : Bool)
  | requestFrom (address count : Nat) (stop : Bool)
  | requestFromInt (address count stop : Int)
  | available
  | peek
  | read
  | flush
  | setClock (frequency : Nat)

def intAddress (address : Int) : Nat := if address < 0 ∨ 1023 < address then 1024 else address.toNat

def Call.perform (controller : Controller) (task : Nat) : Call → TwoWire → Outcome
  | .beginTransmission address => TwoWire.start task address
  | .beginTransmissionInt address => TwoWire.start task (intAddress address)
  | .write buffer => TwoWire.write task buffer
  | .endTransmission stop => TwoWire.endTransmission controller task stop
  | .requestFrom address count stop => TwoWire.receive controller task address count stop
  | .requestFromInt address count stop =>
      TwoWire.receive controller task (intAddress address) (if 0 < count then count.toNat else 0) (decide (stop ≠ 0))
  | .available => TwoWire.available task
  | .peek => TwoWire.peek task
  | .read => TwoWire.read task
  | .flush => TwoWire.flush task
  | .setClock frequency => TwoWire.setClock task frequency

def TwoWire.started (clock address : Nat) (tx rx : Nat → UInt8) : TwoWire :=
  ⟨none, clock, address, tx, rx, 0, 0, 0, .idle, false, false, 0⟩

end ArduinoK210.Wire
