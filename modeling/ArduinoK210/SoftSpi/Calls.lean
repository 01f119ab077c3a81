import ArduinoK210.Lib.Run
import ArduinoK210.SoftSpi.Transfer

/-! Runs of the SPI in software. Every transfer finds the clock at rest, however many there were before it. -/

namespace ArduinoK210.SoftSpi

open Link (Peer Line Edge)
open Nor (put slice)

variable {σ : Type}

inductive Speed where
  | slow
  | fast

section Code
variable (circuit : Circuit σ)

/-- `_spi_transfer`, a pointer to one of the two. -/
def spiTransfer : Speed → (tx rx : Option Nat) → (size : UInt32) → Machine σ → Machine σ
  | .slow => halSoftSpiTransferSlow circuit
  | .fast => halSoftSpiTransferFast circuit

def spiSpeedNoInitHz : UInt32 := 400000

def softSpiSetSpeed (freq : UInt32) : Speed := if freq > spiSpeedNoInitHz then .fast else .slow

/-- The two variables are at places of the stack. -/
def softSpiWrRdByte (speed : Speed) (byteAt readAt : Nat) (byte : UInt8) (machine : Machine σ) : UInt8 × Machine σ :=
  let mem := put (put machine.mem byteAt [byte]) readAt [0x00]
  let machine := spiTransfer circuit speed (some byteAt) (some readAt) 1 { machine with mem }
  (machine.mem readAt, machine)

def softSpiWrite (speed : Speed) (buffer : Nat) (size : UInt32) (machine : Machine σ) : Machine σ :=
  spiTransfer circuit speed (some buffer) none size machine

def softSpiRead (speed : Speed) (buffer : Nat) (size : UInt32) (machine : Machine σ) : Machine σ :=
  spiTransfer circuit speed none (some buffer) size machine

/-- What happens one after the other: transfers, and whatever the rest of the program and the slave do between them. -/
inductive Call (σ : Type) where
  | transfer (speed : Speed) (tx rx : Option Nat) (size : UInt32)
  | elsewhere (output : BitVec 32) (state : σ) (mem : Nat → UInt8)

def Call.step : Call σ → Machine σ → Machine σ
  | .transfer speed tx rx size, machine => spiTransfer circuit speed tx rx size machine
  | .elsewhere output state mem, machine => ⟨{ machine.board with output, state }, mem⟩

end Code

/-- A transfer has some bytes, and the rest of the program leaves the clock alone. -/
def Call.Allowed : Call σ → Machine σ → Prop
  | .transfer _ _ _ size, _ => 0 < size.toNat
  | .elsewhere output _ _, machine => output.getLsbD sclk = machine.board.output.getLsbD sclk

instance : ∀ (call : Call σ) (machine : Machine σ), Decidable (call.Allowed machine)
  | .transfer _ _ _ size, _ => inferInstanceAs (Decidable (0 < size.toNat))
  | .elsewhere output _ _, machine => inferInstanceAs (Decidable (output.getLsbD sclk = machine.board.output.getLsbD sclk))

/-- A call with its speed left out. -/
def Call.slowed : Call σ → Call σ
  | .transfer _ tx rx size => .transfer .slow tx rx size
  | .elsewhere output state mem => .elsewhere output state mem

/-- What a transfer did: the slave took the bytes that were sent and gave those that were received, bit by bit with a fall and a rise
of the clock for each. -/
structure Transferred (circuit : Circuit σ) (tx rx : Option Nat) (size : Nat) (before after : Machine σ) (sent received : List UInt8) :
    Prop where
  sentLength : sent.length = size
  receivedLength : received.length = size
  each : ∀ k, k < size → sent[k]? = some (sendOf (tx.map (· + k)) (stored rx (received.take k) before.mem))
  apart : Apart tx rx size → sent = held tx size before.mem
  moved : circuit.slave.exchange (sent.flatMap bits) before.board.state = (received.flatMap bits, after.board.state)
  memory : after.mem = stored rx received before.mem
  edges : after.board.edges = before.board.edges ++
    ((sent.flatMap bits).zip (received.flatMap bits)).flatMap fun pair => [.fall, .rise pair.1 pair.2]
  rises : after.board.edges.countP Edge.rises = before.board.edges.countP Edge.rises + 8 * size
  rests : after.board.Rests

/-- Two machines that no one can tell apart but by the time that they took. -/
structure Agree (first second : Machine σ) : Prop where
  line : first.board.line = second.board.line
  mem : first.mem = second.mem

section Proofs
variable {circuit : Circuit σ} {machine : Machine σ}

private theorem Board.Shows.line_eq {board : Board σ} {line : Line σ} (shows : board.Shows line) : board.line = line := by
  rw [Board.line, shows.clock, shows.data, shows.state, shows.edges]

private theorem still_usleep (time : Nat) : Still (@Board.k210Usleep σ time) := fun shows => shows.usleep time

private theorem bits_length (bytes : List UInt8) : (bytes.flatMap bits).length = 8 * bytes.length := by
  induction bytes with
  | nil => rfl
  | cons byte bytes ih =>
    rw [List.flatMap_cons, List.length_append, ih, bits, lowBits_length, List.length_cons, Nat.mul_succ, Nat.add_comm]

theorem spiTransfer_exchange (rests : machine.board.Rests) (speed : Speed) (tx rx : Option Nat) {size : UInt32} (some_ : 0 < size.toNat) :
    let after := exchangeBytes circuit.slave size.toNat tx rx machine.mem machine.board.line
    (spiTransfer circuit speed tx rx size machine).mem = after.1 ∧ (spiTransfer circuit speed tx rx size machine).board.Shows after.2 := by
  cases speed with
  | slow => exact transfer_exchange (still_usleep 1) (still_usleep 1) rests.clock rests.shows some_ tx rx
  | fast => exact transfer_exchange (fun shows => shows) (fun shows => shows) rests.clock rests.shows some_ tx rx

private theorem spiTransfer_rests (rests : machine.board.Rests) (speed : Speed) (tx rx : Option Nat) {size : UInt32} (some_ : 0 < size.toNat) :
    (spiTransfer circuit speed tx rx size machine).board.Rests := by
  obtain ⟨-, shows⟩ := @spiTransfer_exchange σ circuit machine rests speed tx rx size some_
  apply shows.rests
  exact exchangeBytes_high rests.clock _ _ _ _

/-- The bytes of the exchange are those of the transfer, at either speed. -/
theorem Exchanged.transferred (rests : machine.board.Rests) (speed : Speed) {tx rx : Option Nat} {size : UInt32} (some_ : 0 < size.toNat)
    {sent received : List UInt8}
    (exchanged : Exchanged circuit.slave size.toNat tx rx machine.mem machine.board.line
      (exchangeBytes circuit.slave size.toNat tx rx machine.mem machine.board.line) sent received) :
    Transferred circuit tx rx size.toNat machine (spiTransfer circuit speed tx rx size machine) sent received := by
  have high : machine.board.line.clock = true := rests.clock
  obtain ⟨mem, shows⟩ := @spiTransfer_exchange σ circuit machine rests speed tx rx size some_
  obtain ⟨given, state, -, edges⟩ := @Line.exchange_eq σ circuit.slave machine.board.line high (sent.flatMap bits)
  rw [exchanged.moved] at given state edges
  have edges := shows.edges.trans edges
  refine ⟨exchanged.sentLength, exchanged.receivedLength, exchanged.each, exchanged.sent_eq, ?_, mem.trans exchanged.memory, edges, ?_,
    spiTransfer_rests rests speed tx rx some_⟩
  · rw [shows.state]
    exact Prod.ext given.symm state.symm
  · have lengths : (sent.flatMap bits).length ≤ (received.flatMap bits).length := by
      rw [bits_length, bits_length, exchanged.sentLength, exchanged.receivedLength]
    rw [edges, List.countP_append, Line.rises_zip _ _ lengths, bits_length, exchanged.sentLength]
    rfl

/-- From rest, both speeds transfer the same bytes. -/
theorem spiTransfer_transferred (rests : machine.board.Rests) (tx rx : Option Nat) {size : UInt32} (some_ : 0 < size.toNat) :
    ∃ sent received, ∀ speed,
      Transferred circuit tx rx size.toNat machine (spiTransfer circuit speed tx rx size machine) sent received := by
  obtain ⟨sent, received, exchanged⟩ := exchangeBytes_exchanged size.toNat tx rx machine.mem machine.board.line
  exact ⟨sent, received, fun speed => exchanged.transferred rests speed some_⟩

private theorem Call.step_rests (call : Call σ) (machine : Machine σ) (rests : machine.board.Rests) (allowed : call.Allowed machine) :
    (call.step circuit machine).board.Rests := by
  cases call with
  | transfer speed tx rx size => exact spiTransfer_rests rests speed tx rx allowed
  | elsewhere output state mem => exact ⟨Eq.trans allowed rests.clock, rests.status⟩

theorem Call.step_agree {call other : Call σ} (same : call.slowed = other.slowed) {first second : Machine σ} (agree : Agree first second)
    (rests : first.board.Rests) (rests' : second.board.Rests) (allowed : call.Allowed first) :
    other.Allowed second ∧ Agree (call.step circuit first) (other.step circuit second) := by
  cases call with
  | transfer speed tx rx size =>
    cases other with
    | elsewhere => cases same
    | transfer speed' =>
      cases same
      obtain ⟨mem, shows⟩ := @spiTransfer_exchange σ circuit first rests speed tx rx size allowed
      obtain ⟨mem', shows'⟩ := @spiTransfer_exchange σ circuit second rests' speed' tx rx size allowed
      rw [← agree.line, ← agree.mem] at mem' shows'
      exact ⟨allowed, shows.line_eq.trans shows'.line_eq.symm, mem.trans mem'.symm⟩
  | elsewhere output state mem =>
    cases other with
    | transfer => cases same
    | elsewhere =>
      cases same
      have edges : first.board.edges = second.board.edges := congrArg Line.edges agree.line
      refine ⟨Eq.trans allowed (rests.clock.trans rests'.clock.symm), ?_, rfl⟩
      rw [Call.step, Call.step, Board.line, Board.line, edges]

theorem run_agree {calls others : List (Call σ)} (same : calls.map Call.slowed = others.map Call.slowed) {first second : Machine σ}
    (agree : Agree first second) (rests : first.board.Rests) (rests' : second.board.Rests)
    (allowed : Run.Guarded (Call.step circuit) Call.Allowed calls first) :
    Agree (Run.run (Call.step circuit) calls first) (Run.run (Call.step circuit) others second) := by
  induction calls generalizing others first second with
  | nil =>
    cases List.map_eq_nil_iff.mp same.symm
    exact agree
  | cons call calls ih =>
    cases others with
    | nil => cases same
    | cons other others =>
      obtain ⟨here, later⟩ := List.cons.inj same
      obtain ⟨allowed', next⟩ := @Call.step_agree σ circuit call other here first second agree rests rests' allowed.1
      exact ih later next (call.step_rests first rests allowed.1) (other.step_rests second rests' allowed') allowed.2

private theorem run_rests {calls : List (Call σ)} (rests : machine.board.Rests)
    (allowed : Run.Guarded (Call.step circuit) Call.Allowed calls machine) :
    (Run.run (Call.step circuit) calls machine).board.Rests := by
  apply @Run.Guarded.invariant _ _ _ _ (fun machine => machine.board.Rests) _ calls machine allowed rests
  exact fun call machine rests allowed => call.step_rests machine rests allowed

/-- The byte that is read is what the slave gave for the byte. -/
theorem softSpiWrRdByte_bits (rests : machine.board.Rests) (speed : Speed) {byteAt readAt : Nat} (apart : byteAt ≠ readAt) (byte : UInt8) :
    let result := softSpiWrRdByte circuit speed byteAt readAt byte machine
    circuit.slave.exchange (bits byte) machine.board.state = (bits result.1, result.2.board.state) := by
  let mem := put (put machine.mem byteAt [byte]) readAt [0x00]
  let before : Machine σ := { machine with mem }
  obtain ⟨sent, received, both⟩ := @spiTransfer_transferred σ circuit before rests (some byteAt) (some readAt) 1 (by decide)
  have done := both speed
  have places : slice mem byteAt 1 = [byte] := by
    have outside : byteAt + 1 ≤ readAt ∨ readAt + [(0x00 : UInt8)].length ≤ byteAt := by
      rw [List.length_singleton]
      omega
    exact (Memory.slice_put_apart _ outside).trans (Memory.slice_put machine.mem byteAt [byte])
  have sentByte : sent = [byte] := (done.apart (apart_one byteAt readAt)).trans places
  obtain ⟨read, receivedByte⟩ := List.length_eq_one_iff.mp done.receivedLength
  have result : (spiTransfer circuit speed (some byteAt) (some readAt) 1 before).mem readAt = read := by
    rw [done.memory, receivedByte]
    exact Nor.put_inside _ readAt [read] 0 read rfl
  have moved := done.moved
  rw [sentByte, receivedByte, List.flatMap_singleton, List.flatMap_singleton, ← result] at moved
  exact moved

/-- What is written is what the buffer holds. -/
theorem softSpiWrite_sends (rests : machine.board.Rests) (speed : Speed) (buffer : Nat) {size : UInt32} (some_ : 0 < size.toNat) :
    let after := softSpiWrite circuit speed buffer size machine
    (circuit.slave.exchange ((slice machine.mem buffer size.toNat).flatMap bits) machine.board.state).2 = after.board.state ∧
      after.mem = machine.mem := by
  obtain ⟨sent, received, both⟩ := @spiTransfer_transferred σ circuit machine rests (some buffer) none size some_
  have done := both speed
  have moved := done.moved
  rw [done.apart (apart_none_right (some buffer) _)] at moved
  exact ⟨congrArg Prod.snd moved, done.memory⟩

/-- What is read is what the slave gives for ones. -/
theorem softSpiRead_receives (rests : machine.board.Rests) (speed : Speed) (buffer : Nat) {size : UInt32} (some_ : 0 < size.toNat) :
    let after := softSpiRead circuit speed buffer size machine
    circuit.slave.exchange ((List.replicate size.toNat 0xFF).flatMap bits) machine.board.state =
      ((slice after.mem buffer size.toNat).flatMap bits, after.board.state) := by
  obtain ⟨sent, received, both⟩ := @spiTransfer_transferred σ circuit machine rests none (some buffer) size some_
  have done := both speed
  have moved := done.moved
  rw [done.apart (apart_none_left (some buffer) _)] at moved
  have buffered : slice (spiTransfer circuit speed none (some buffer) size machine).mem buffer size.toNat = received := by
    rw [done.memory]
    nth_rewrite 1 [← done.receivedLength]
    exact Memory.slice_put machine.mem buffer received
  rw [← buffered] at moved
  exact moved

end Proofs

/-- After an initialisation and any calls, a transfer at either speed moves the same bytes, bit by bit and the most significant first,
and leaves the clock at rest. Runs that differ in their speeds alone cannot be told apart on the line or in the memory. -/
theorem softSpi_transfers (circuit : Circuit σ) {sck misoPin mosiPin : Int8} {start board : Board σ}
    (initialised : start.halSoftSpiInit circuit sck misoPin mosiPin = some board) (mem : Nat → UInt8) {calls : List (Call σ)}
    (allowed : Run.Guarded (Call.step circuit) Call.Allowed calls ⟨board, mem⟩) (tx rx : Option Nat) {size : UInt32}
    (some_ : 0 < size.toNat) :
    let before := Run.run (Call.step circuit) calls ⟨board, mem⟩
    before.board.Rests ∧
      (∃ sent received,
        Transferred circuit tx rx size.toNat before (halSoftSpiTransferSlow circuit tx rx size before) sent received ∧
          Transferred circuit tx rx size.toNat before (halSoftSpiTransferFast circuit tx rx size before) sent received) ∧
      ∀ others, calls.map Call.slowed = others.map Call.slowed → Agree before (Run.run (Call.step circuit) others ⟨board, mem⟩) := by
  have initial : board.Rests := Board.halSoftSpiInit_rests initialised
  have rests := @run_rests σ circuit ⟨board, mem⟩ calls initial allowed
  obtain ⟨sent, received, both⟩ := @spiTransfer_transferred σ circuit _ rests tx rx size some_
  refine ⟨rests, ⟨sent, received, both .slow, both .fast⟩, ?_⟩
  intro others same
  exact run_agree same ⟨rfl, rfl⟩ initial initial allowed

/-- A slave that gives back the bits that it takes, one bit late. -/
def echo : Peer (Bool × List Bool) where
  next state := (state.2.headD false, state.2)
  shown state := state.1
  take bit state := (state.1, bit :: state.2)
  held _ _ := rfl

theorem softSpi_transfers_echo :
    let circuit : Circuit (Bool × List Bool) := ⟨echo, fun _ => 0⟩
    let start : Board (Bool × List Bool) := ⟨⟨fun _ => Gpio.funcResv0, fun _ => Gpio.funcMax⟩, 0, 0, 0, (false, []), [], 0⟩
    let calls : List (Call (Bool × List Bool)) := [.transfer .fast (some 0) none 2, .elsewhere 2 (true, []) fun _ => 0xA5]
    ∃ board, start.halSoftSpiInit circuit 27 26 28 = some board ∧
      let before := Run.run (Call.step circuit) calls ⟨board, fun _ => 0x5A⟩
      let after := halSoftSpiTransferSlow circuit none (some 0) 3 before
      ∃ sent received, Transferred circuit none (some 0) 3 before after sent received := by
  intro circuit start calls
  obtain ⟨board, done⟩ := @Board.halSoftSpiInit_done _ 27 26 28 (by decide) (by decide) (by decide) (by decide) (by decide) (by decide)
    circuit start
  have kept : (2#32).getLsbD sclk = true := rfl
  have first :=
    @spiTransfer_rests _ circuit ⟨board, fun _ => 0x5A⟩ (Board.halSoftSpiInit_rests done) .fast (some 0) none 2 (by decide)
  have allowed : Run.Guarded (Call.step circuit) Call.Allowed calls ⟨board, fun _ => 0x5A⟩ :=
    ⟨(by decide : 0 < (2 : UInt32).toNat), kept.trans first.clock.symm, trivial⟩
  obtain ⟨-, ⟨sent, received, slow, -⟩, -⟩ :=
    @softSpi_transfers _ circuit _ _ _ _ _ done (fun _ => 0x5A) calls allowed none (some 0) 3 (by decide)
  exact ⟨board, done, sent, received, slow⟩

end ArduinoK210.SoftSpi
