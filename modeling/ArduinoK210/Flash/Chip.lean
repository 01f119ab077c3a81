import ArduinoK210.Lib.Nor
import Mathlib.Algebra.Group.Nat.Defs

/-! The NOR chip that SPI3 reaches, one chip-select window at a time. An accepted
program or erase starts a busy period counted in later windows; while it lasts
the chip answers status reads and ignores everything else. How long each period
lasts, and what an undriven data line reads as, are arbitrary. -/

namespace ArduinoK210.Flash

/-- Programming ANDs the sent byte into the stored one; an erased byte is 0xFF. -/
def byteCell : Nor.Cell UInt8 where
  meet := fun old new => old &&& new
  blank := 0xFF
  meet_self := fun _ => UInt8.and_self
  meet_comm := UInt8.and_comm
  blank_meet := fun _ => UInt8.neg_one_and

namespace Opcode
def writeEnable : UInt8 := 0x06
def readReg1 : UInt8 := 0x05
def readReg2 : UInt8 := 0x35
def readReg3 : UInt8 := 0x15
def writeReg1 : UInt8 := 0x01
def writeReg2 : UInt8 := 0x31
def writeReg3 : UInt8 := 0x11
def fastRead : UInt8 := 0x0B
def fastReadQualIo : UInt8 := 0xEB
def pageProgram : UInt8 := 0x02
def quadPageProgram : UInt8 := 0x32
def sectorErase : UInt8 := 0x20
def block32kErase : UInt8 := 0x52
def block64kErase : UInt8 := 0xD8
def chipErase : UInt8 := 0x60
def readId : UInt8 := 0x90
end Opcode

def reg1BusyMask : UInt8 := 0x01
def reg2QualMask : UInt8 := 0x02
def arraySize : Nat := 2 ^ 24
def pageSize : Nat := 256
def sectorSize : Nat := 4096

/-- One chip-select window. The standard format sends bytes; the quad format
sends an instruction byte and an address word of the configured length. -/
inductive Frame where
  | send (bytes : List UInt8)
  | receive (command : List UInt8) (count : Nat)
  | sendQuad (instruction : UInt8) (address addressLength waitCycles : Nat) (data : List UInt8)
  | receiveQuad (instruction : UInt8) (address addressLength waitCycles count : Nat)

structure Chip where
  mem : Nat → UInt8
  wel : Bool
  reg1 : UInt8
  reg2 : UInt8
  reg3 : UInt8
  manuf : UInt8
  device : UInt8
  busy : Nat
  time : Nat
  latency : Nat → Nat
  settling : Nat → Nat
  undriven : Nat → Nat → UInt8
  quadFaults : Nat

namespace Chip

def qe (chip : Chip) : Bool := chip.reg2 &&& reg2QualMask != 0

def status1 (chip : Chip) : UInt8 :=
  (chip.reg1 &&& 0xFC) ||| (if chip.wel then 0x02 else 0) ||| (if chip.busy = 0 then 0 else reg1BusyMask)

def floating (chip : Chip) (count : Nat) : List UInt8 :=
  (List.range count).map (chip.undriven chip.time)

def readArray (chip : Chip) (address count : Nat) : List UInt8 :=
  (List.range count).map (fun k => chip.mem ((address + k) % arraySize))

def addressOf (high middle low : UInt8) : Nat := high.toNat * 65536 + middle.toNat * 256 + low.toNat

/-- The sent bytes are ANDed in one after the other; past the end of the page
the address continues at its start. -/
def programPage (mem : Nat → UInt8) (page offset : Nat) : List UInt8 → Nat → UInt8
  | [] => mem
  | b :: bs =>
    programPage (fun i => if i = page + offset % pageSize then mem i &&& b else mem i) page (offset + 1) bs

def started (chip : Chip) (mem : Nat → UInt8) : Chip :=
  { chip with mem, wel := false, busy := chip.latency chip.time + 1 }

def programAt (chip : Chip) (address : Nat) (data : List UInt8) : Chip :=
  chip.started (programPage chip.mem (address / pageSize * pageSize) (address % pageSize) data)

def eraseAt (chip : Chip) (address unit : Nat) : Chip :=
  chip.started (Nor.erase byteCell chip.mem (address / unit * unit) unit)

def writeStatus (chip : Chip) (reg1 reg2 reg3 : UInt8) : Chip :=
  { chip with reg1, reg2, reg3, wel := false, busy := chip.settling chip.time }

/-- What an idle chip does with a transmitted command. Everything but the write
enable itself needs the latch that it sets. -/
def obey (chip : Chip) : List UInt8 → Chip
  | [] => chip
  | op :: args =>
    if op = Opcode.writeEnable then { chip with wel := true }
    else if chip.wel then
      match args with
      | [] => if op = Opcode.chipErase then chip.eraseAt 0 arraySize else chip
      | [a] =>
        if op = Opcode.writeReg1 then chip.writeStatus a chip.reg2 chip.reg3
        else if op = Opcode.writeReg2 then chip.writeStatus chip.reg1 a chip.reg3
        else if op = Opcode.writeReg3 then chip.writeStatus chip.reg1 chip.reg2 a
        else chip
      | [a, b] => if op = Opcode.writeReg1 then chip.writeStatus a b chip.reg3 else chip
      | a :: b :: c :: data =>
        if op = Opcode.pageProgram then chip.programAt (addressOf a b c) data
        else if op = Opcode.sectorErase then chip.eraseAt (addressOf a b c) 4096
        else if op = Opcode.block32kErase then chip.eraseAt (addressOf a b c) 32768
        else if op = Opcode.block64kErase then chip.eraseAt (addressOf a b c) 65536
        else chip
    else chip

def answer (chip : Chip) (count : Nat) : List UInt8 → List UInt8
  | [] => chip.floating count
  | op :: args =>
    if op = Opcode.readReg1 then List.replicate count chip.status1
    else if op = Opcode.readReg2 then List.replicate count chip.reg2
    else if op = Opcode.readReg3 then List.replicate count chip.reg3
    else if chip.busy = 0 then
      match args with
      | [a, b, c] =>
        if op = Opcode.readId then
          (List.range count).map (fun k => if (addressOf a b c + k) % 2 = 0 then chip.manuf else chip.device)
        else chip.floating count
      | [a, b, c, _] =>
        if op = Opcode.fastRead then chip.readArray (addressOf a b c) count else chip.floating count
      | _ => chip.floating count
    else chip.floating count

/-- An idle chip with QE set takes 24 address bits for a quad program, and 24
address bits, 8 mode bits and 4 dummy clocks for a quad read. -/
def reply (chip : Chip) : Frame → List UInt8
  | .send _ => []
  | .receive command count => chip.answer count command
  | .sendQuad _ _ _ _ _ => []
  | .receiveQuad instruction address addressLength waitCycles count =>
    if chip.busy = 0 ∧ chip.qe ∧ instruction = Opcode.fastReadQualIo ∧ addressLength = 32 ∧ waitCycles = 4 then
      chip.readArray (address / 256 % arraySize) count
    else chip.floating count

def effect (chip : Chip) : Frame → Chip
  | .send bytes => chip.obey bytes
  | .receive _ _ => chip
  | .sendQuad instruction address addressLength waitCycles data =>
    if chip.wel ∧ chip.qe ∧ instruction = Opcode.quadPageProgram ∧ addressLength = 24 ∧ waitCycles = 0 then
      chip.programAt (address % arraySize) data
    else chip
  | .receiveQuad _ _ _ _ _ => chip

/-- A quad command that arrives while QE is clear is counted as a fault. -/
def quadFault (chip : Chip) : Frame → Nat
  | .send _ | .receive _ _ => 0
  | .sendQuad _ _ _ _ _ | .receiveQuad _ _ _ _ _ => if chip.qe then 0 else 1

def transact (chip : Chip) (frame : Frame) : List UInt8 × Chip :=
  let after := if chip.busy = 0 then chip.effect frame else { chip with busy := chip.busy - 1 }
  (chip.reply frame, { after with time := chip.time + 1, quadFaults := chip.quadFaults + chip.quadFault frame })

theorem programPage_eq (mem : Nat → UInt8) (page offset : Nat) (data : List UInt8)
    (fits : offset + data.length ≤ pageSize) :
    programPage mem page offset data = Nor.program byteCell mem (page + offset) data := by
  induction data generalizing mem offset with
  | nil => simp [programPage]
  | cons b bs ih =>
    have inside : offset < pageSize := by simp only [List.length_cons] at fits; omega
    have first : programPage mem page offset (b :: bs) =
        programPage (Nor.program byteCell mem (page + offset) [b]) page (offset + 1) bs := by
      simp only [programPage, Nat.mod_eq_of_lt inside]
      congr 1
      funext i
      by_cases here : i = page + offset
      · subst here
        simp [Nor.program, byteCell]
      · by_cases above : page + offset ≤ i
        · simp [Nor.program, here, above, show i - (page + offset) ≠ 0 by omega]
        · simp [Nor.program, here, above]
    have rest := ih (Nor.program byteCell mem (page + offset) [b]) (offset + 1)
      (by simp only [List.length_cons] at fits; omega)
    rw [first, rest]
    exact (Nor.program_append byteCell mem (page + offset) [b] bs).symm

private theorem and_or_right (x y z : UInt8) : (x ||| y) &&& z = x &&& z ||| y &&& z := by
  apply UInt8.toBitVec_inj.mp
  simp only [UInt8.toBitVec_and, UInt8.toBitVec_or, BitVec.and_or_distrib_right]

theorem status1_busy (chip : Chip) : chip.status1 &&& reg1BusyMask = if chip.busy = 0 then 0 else reg1BusyMask := by
  have reserved : (0xFC : UInt8) &&& reg1BusyMask = 0 := by decide
  have latch : (0x02 : UInt8) &&& reg1BusyMask = 0 := by decide
  simp only [status1, and_or_right, UInt8.and_assoc, reserved, UInt8.and_zero, UInt8.zero_or]
  by_cases idle : chip.busy = 0
  · cases chip.wel <;> simp [idle, latch]
  · cases chip.wel <;> simp [idle, latch]

theorem addressOf_bytes (address : Nat) :
    addressOf (UInt8.ofNat (address / 65536)) (UInt8.ofNat (address / 256)) (UInt8.ofNat address) =
      address % arraySize := by
  simp only [addressOf, UInt8.toNat_ofNat', arraySize]
  omega

end Chip
end ArduinoK210.Flash
