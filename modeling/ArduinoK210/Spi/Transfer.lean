import ArduinoK210.Spi.Flow
import ArduinoK210.Lib.Fair
import Mathlib.Tactic.IntervalCases

/-! `transferBytes` on every schedule of the task and the wire. -/

namespace ArduinoK210.Spi

open WireEvent (chipSelect)

/-- What the probe sees of a call that runs. -/
def transcript (call : Transfer) (slave : List UInt8 → UInt8) (mem : Nat → UInt8) : List WireEvent :=
  chipSelect true :: (exchanges call slave mem call.size ++ [chipSelect false])

structure Fresh (mem : Nat → UInt8) (state : TransferState) : Prop where
  sent : state.sent = 0
  received : state.received = 0
  mem : state.mem = mem
  lost : state.port.lost = 0

structure Off (mem : Nat → UInt8) (state : TransferState) : Prop extends Fresh mem state where
  ssienr : state.port.ssienr = false
  log : state.port.log = []

def FifoPort.Empty (port : FifoPort) : Prop := port.tx = [] ∧ port.shift = none ∧ port.rx = []

structure Complete (call : Transfer) (slave : List UInt8 → UInt8) (mem : Nat → UInt8) (state : TransferState) : Prop where
  log : state.port.log = transcript call slave mem
  lost : state.port.lost = 0
  selected : state.port.selected = false
  mem : state.mem = filled call slave mem call.size

structure Finished (call : Transfer) (slave : List UInt8 → UInt8) (mem : Nat → UInt8) (state : TransferState) : Prop where
  ran : call.Runs → Complete call slave mem state
  refused : ¬call.Runs → Off mem state
  off : state.port.ssienr = false

/-- The invariant, by the place in the code. -/
def Tracked (call : Transfer) (slave : List UInt8 → UInt8) (mem : Nat → UInt8) (state : TransferState) : Prop :=
  match state.pc with
  | .enter => Off mem state
  | .disable => call.Runs ∧ Off mem state
  | .duplex => call.Runs ∧ Off mem state ∧ state.port.Empty
  | .frames | .enable => call.Runs ∧ Off mem state ∧ state.port.Empty ∧ state.port.fullDuplex = true
  | .select =>
      call.Runs ∧ Fresh mem state ∧ state.port.Empty ∧ state.port.fullDuplex = true ∧ state.port.ssienr = true ∧
        state.port.log = if state.port.ser then [chipSelect true] else []
  | .outer | .drain => call.Runs ∧ ∃ ended begun, Flow call slave mem state ended begun
  | .inner => call.Runs ∧ state.received < call.size ∧ ∃ ended begun, Flow call slave mem state ended begun
  | .push =>
      call.Runs ∧ (state.sent < call.size ∧ state.sent - state.received < 32) ∧
        ∃ ended begun, Flow call slave mem state ended begun
  | .pop => call.Runs ∧ ∃ ended begun, state.received < ended ∧ Flow call slave mem state ended begun
  | .busy | .deselect =>
      call.Runs ∧ state.received = call.size ∧ Flow call slave mem state call.size call.size
  | .stop => call.Runs ∧ Complete call slave mem state
  | .done => Finished call slave mem state

section Wire

variable {call : Transfer} {slave : List UInt8 → UInt8} {mem : Nat → UInt8} {state : TransferState}

theorem FifoPort.move_unselected {port : FifoPort} (unselected : port.selected = false) : port.move slave = port := by
  rw [FifoPort.move, unselected]
  rfl

private theorem FifoPort.move_empty {port : FifoPort} (empty : port.Empty) : port.move slave = port := by
  rw [FifoPort.move, empty.1, empty.2.1]
  split <;> rfl

theorem Off.unselected (off : Off mem state) : state.port.selected = false := by
  rw [FifoPort.selected, off.ssienr, Bool.false_and]

/-- How far the frames have come, in four moves for each: sent, begun, ended and received. -/
def moves (state : TransferState) : Nat :=
  state.sent + (state.sent - state.port.tx.length) +
    (state.sent - state.port.tx.length - state.port.shift.isSome.toNat) + state.received

theorem Flow.moves_eq {ended begun : Nat} (flow : Flow call slave mem state ended begun) :
    moves state = state.sent + begun + ended + state.received := by
  have overlap := flow.overlap
  have sent := flow.sent
  rw [moves, flow.tx_length, flow.shift]
  split
  · simp only [Option.isSome_some, Bool.toNat_true]
    omega
  · simp only [Option.isSome_none, Bool.toNat_false]
    omega

theorem Flow.moves_le {ended begun : Nat} (flow : Flow call slave mem state ended begun) : moves state ≤ 4 * call.size := by
  have stored := flow.stored
  have overlap := flow.overlap
  have sent := flow.sent
  rw [flow.moves_eq]
  omega

theorem Flow.wire {ended begun : Nat} (flow : Flow call slave mem state ended begun) :
    ∃ ended' begun', ended ≤ ended' ∧ Flow call slave mem { state with port := state.port.move slave } ended' begun' ∧
      (state.port.movable = true → moves { state with port := state.port.move slave } = moves state + 1) := by
  have overlap := flow.overlap
  by_cases active : ended < begun
  · have moved := flow.end_frame active
    refine ⟨_, _, Nat.le_succ ended, moved, fun _ => ?_⟩
    rw [moved.moves_eq, flow.moves_eq]
    show state.sent + begun + (ended + 1) + state.received = _
    omega
  · have idle : ended = begun := by omega
    by_cases waiting : begun < state.sent
    · have moved := flow.begin_frame idle waiting
      refine ⟨_, _, Nat.le_refl ended, moved, fun _ => ?_⟩
      rw [moved.moves_eq, flow.moves_eq]
      show state.sent + (begun + 1) + ended + state.received = _
      omega
    · have sent := flow.sent
      refine ⟨ended, begun, Nat.le_refl ended, ?_, fun movable => ?_⟩
      · rw [flow.still idle (by omega)]
        exact flow
      · have possible := flow.movable_iff.mp movable
        omega

theorem tracked_wire (tracked : Tracked call slave mem state) : Tracked call slave mem (call.step slave .wire state) := by
  obtain ⟨pc, sent, received, memory, port⟩ := state
  have unchanged (same : port.move slave = port) :
      Tracked call slave mem (call.step slave .wire ⟨pc, sent, received, memory, port⟩) := by
    rw [Transfer.step, same]
    exact tracked
  cases pc with
  | enter => exact unchanged (FifoPort.move_unselected tracked.unselected)
  | disable => exact unchanged (FifoPort.move_unselected tracked.2.unselected)
  | duplex => exact unchanged (FifoPort.move_unselected tracked.2.1.unselected)
  | frames => exact unchanged (FifoPort.move_unselected tracked.2.1.unselected)
  | enable => exact unchanged (FifoPort.move_unselected tracked.2.1.unselected)
  | select => exact unchanged (FifoPort.move_empty tracked.2.2.1)
  | outer =>
    obtain ⟨runs, ended, begun, flow⟩ := tracked
    obtain ⟨ended', begun', _, moved, _⟩ := flow.wire
    exact ⟨runs, ended', begun', moved⟩
  | drain =>
    obtain ⟨runs, ended, begun, flow⟩ := tracked
    obtain ⟨ended', begun', _, moved, _⟩ := flow.wire
    exact ⟨runs, ended', begun', moved⟩
  | inner =>
    obtain ⟨runs, more, ended, begun, flow⟩ := tracked
    obtain ⟨ended', begun', _, moved, _⟩ := flow.wire
    exact ⟨runs, more, ended', begun', moved⟩
  | push =>
    obtain ⟨runs, allowed, ended, begun, flow⟩ := tracked
    obtain ⟨ended', begun', _, moved, _⟩ := flow.wire
    exact ⟨runs, allowed, ended', begun', moved⟩
  | pop =>
    obtain ⟨runs, ended, begun, some, flow⟩ := tracked
    obtain ⟨ended', begun', later, moved, _⟩ := flow.wire
    exact ⟨runs, ended', begun', Nat.lt_of_lt_of_le some later, moved⟩
  | busy =>
    have flow := tracked.2.2
    exact unchanged (flow.still rfl (Nat.le_antisymm flow.sent.1 flow.sent.2))
  | deselect =>
    have flow := tracked.2.2
    exact unchanged (flow.still rfl (Nat.le_antisymm flow.sent.1 flow.sent.2))
  | stop => exact unchanged (FifoPort.move_unselected tracked.2.selected)
  | done =>
    apply unchanged
    apply FifoPort.move_unselected
    rw [FifoPort.selected, tracked.off, Bool.false_and]

end Wire

private theorem duplex_masked (ctrlr0 : UInt32) : ((ctrlr0 &&& ~~~((3 : UInt32) <<< 8)) >>> 8) &&& 3 = 0 := by
  apply UInt32.eq_of_toBitVec_eq
  simp only [UInt32.toBitVec_and, UInt32.toBitVec_shiftRight, UInt32.toBitVec_not, UInt32.toBitVec_shiftLeft,
    UInt32.toBitVec_ofNat]
  generalize ctrlr0.toBitVec = bits
  ext i inside
  interval_cases i <;> simp

section Task

variable {call : Transfer} {slave : List UInt8 → UInt8} {mem : Nat → UInt8} {state : TransferState}

private theorem Off.at (off : Off mem state) (pc : TransferPc) : Off mem { state with pc } :=
  ⟨⟨off.sent, off.received, off.mem, off.lost⟩, off.ssienr, off.log⟩

private theorem Off.disable (off : Off mem state) (pc : TransferPc) : Off mem { state with pc, port := state.port.disable } := by
  have same : state.port.disable = { state.port with ssienr := false, tx := [], shift := none, rx := [] } := by
    rw [FifoPort.disable, FifoPort.settle, off.unselected]
    rfl
  rw [same]
  exact ⟨⟨off.sent, off.received, off.mem, off.lost⟩, rfl, off.log⟩

private theorem Fresh.flow (fresh : Fresh mem state) (empty : state.port.Empty) (duplex : state.port.fullDuplex = true)
    (selected : state.port.selected = true) (log : state.port.log = [chipSelect true]) : Flow call slave mem state 0 0 := by
  refine ⟨?_, ⟨Nat.le_refl 0, Nat.zero_le _⟩, ?_, ?_, ?_, empty.2.1, ?_, log, selected, duplex, fresh.lost, ?_⟩
  · exact Nat.le_of_eq fresh.received
  · rw [fresh.sent]
    exact ⟨Nat.le_refl 0, Nat.zero_le _⟩
  · rw [fresh.sent]
    exact Nat.zero_le _
  · rw [empty.1, fresh.sent]
    rfl
  · rw [empty.2.2, fresh.received]
    rfl
  · rw [fresh.mem, fresh.received]
    rfl

/-- Chip select is asserted now, or has been since `ssienr` was set. -/
theorem Fresh.select (fresh : Fresh mem state) (empty : state.port.Empty) (duplex : state.port.fullDuplex = true)
    (enabled : state.port.ssienr = true) (log : state.port.log = if state.port.ser then [chipSelect true] else []) :
    Flow call slave mem { state with pc := .outer, port := state.port.writeSer true } 0 0 := by
  have before : state.port.selected = state.port.ser := by rw [FifoPort.selected, enabled, Bool.true_and]
  have after : FifoPort.selected { state.port with ser := true } = true := by
    rw [FifoPort.selected, enabled]
    rfl
  unfold FifoPort.writeSer FifoPort.settle
  rw [before, after]
  cases level : state.port.ser with
  | false =>
    rw [level] at log
    exact Fresh.flow ⟨fresh.sent, fresh.received, fresh.mem, fresh.lost⟩ empty duplex after (by simp [log])
  | true =>
    rw [level] at log
    exact Fresh.flow ⟨fresh.sent, fresh.received, fresh.mem, fresh.lost⟩ empty duplex after (by simp [log])

private theorem Flow.deselect (flow : Flow call slave mem state call.size call.size) (all : state.received = call.size) :
    Complete call slave mem { state with pc := .stop, port := state.port.writeSer false } := by
  have released : FifoPort.selected { state.port with ser := false } = false := Bool.and_false _
  have log : state.port.log = chipSelect true :: (exchanges call slave mem call.size ++ []) := by
    have log := flow.log
    rwa [if_neg (Nat.lt_irrefl _)] at log
  have written : state.port.writeSer false = { state.port with ser := false, log := state.port.log ++ [chipSelect false] } := by
    rw [FifoPort.writeSer, FifoPort.settle, flow.selected, released]
    rfl
  rw [written]
  refine ⟨?_, flow.lost, released, ?_⟩
  · show state.port.log ++ _ = _
    rw [log, List.append_nil]
    rfl
  · show state.mem = _
    rw [flow.mem, all]

section Place

variable {sent received : Nat} {memory : Nat → UInt8} {port : FifoPort}

private theorem tracked_enable (tracked : Tracked call slave mem ⟨.enable, sent, received, memory, port⟩) :
    Tracked call slave mem ⟨.select, sent, received, memory, port.enable⟩ := by
  obtain ⟨runs, off, empty, duplex⟩ := tracked
  have log : port.log = [] := off.log
  have before : port.selected = false := off.unselected
  have after : FifoPort.selected { port with ssienr := true } = port.ser := Bool.true_and _
  unfold FifoPort.enable FifoPort.settle
  rw [before, after]
  cases level : port.ser with
  | false => exact ⟨runs, ⟨off.sent, off.received, off.mem, off.lost⟩, empty, duplex, rfl, by simp [log]⟩
  | true => exact ⟨runs, ⟨off.sent, off.received, off.mem, off.lost⟩, empty, duplex, rfl, by simp [log]⟩

/-- The loop goes on until as many frames have come back as were sent. -/
theorem tracked_outer (tracked : Tracked call slave mem ⟨.outer, sent, received, memory, port⟩) :
    Tracked call slave mem ⟨if received < call.size then .inner else .busy, sent, received, memory, port⟩ := by
  obtain ⟨runs, ended, begun, flow⟩ := tracked
  split
  next more => exact ⟨runs, more, ended, begun, flow.same .inner⟩
  next all =>
    have stored : received ≤ ended := flow.stored
    have overlap := flow.overlap
    have bounds : begun ≤ sent ∧ sent ≤ call.size := flow.sent
    have ends : ended = call.size := by omega
    have begins : begun = call.size := by omega
    have received_all : received = call.size := by omega
    rw [ends, begins] at flow
    exact ⟨runs, received_all, flow.same .busy⟩

private theorem tracked_inner (tracked : Tracked call slave mem ⟨.inner, sent, received, memory, port⟩) :
    Tracked call slave mem
      ⟨if sent < call.size ∧ sent - received < 32 ∧ port.tx.length < 32 then .push else .drain, sent, received, memory, port⟩ := by
  obtain ⟨runs, more, ended, begun, flow⟩ := tracked
  split
  next allowed => exact ⟨runs, ⟨allowed.1, allowed.2.1⟩, ended, begun, flow.same .push⟩
  next => exact ⟨runs, ended, begun, flow.same .drain⟩

private theorem tracked_drain (tracked : Tracked call slave mem ⟨.drain, sent, received, memory, port⟩) :
    Tracked call slave mem ⟨if received < sent ∧ port.rx.length ≠ 0 then .pop else .outer, sent, received, memory, port⟩ := by
  obtain ⟨runs, ended, begun, flow⟩ := tracked
  split
  next some =>
    have filled : port.rx.length = ended - received := flow.rx_length
    have waiting : received < ended := by omega
    exact ⟨runs, ended, begun, waiting, flow.same .pop⟩
  next => exact ⟨runs, ended, begun, flow.same .outer⟩

private theorem tracked_busy (tracked : Tracked call slave mem ⟨.busy, sent, received, memory, port⟩) :
    Tracked call slave mem ⟨if port.busy then .busy else .deselect, sent, received, memory, port⟩ := by
  obtain ⟨runs, all, flow⟩ := tracked
  split
  next => exact ⟨runs, all, flow⟩
  next => exact ⟨runs, all, flow.same .deselect⟩

private theorem tracked_stop (tracked : Tracked call slave mem ⟨.stop, sent, received, memory, port⟩) :
    Tracked call slave mem ⟨.done, sent, received, memory, port.disable⟩ := by
  obtain ⟨runs, complete⟩ := tracked
  have selected : port.selected = false := complete.selected
  have same : port.disable = { port with ssienr := false, tx := [], shift := none, rx := [] } := by
    rw [FifoPort.disable, FifoPort.settle, selected]
    rfl
  rw [same]
  exact ⟨fun _ => ⟨complete.log, complete.lost, rfl, complete.mem⟩, fun refused => absurd runs refused, rfl⟩

end Place

/-- One case for each place. -/
theorem tracked_task (apart : call.Apart) (tracked : Tracked call slave mem state) :
    Tracked call slave mem (call.step slave .task state) := by
  obtain ⟨pc, sent, received, memory, port⟩ := state
  cases pc with
  | enter =>
    have off : Off mem ⟨.enter, sent, received, memory, port⟩ := tracked
    show Tracked call slave mem ⟨if call.Runs then .disable else .done, sent, received, memory, port⟩
    split
    next runs => exact ⟨runs, off.at .disable⟩
    next refused => exact ⟨fun ran => absurd ran refused, fun _ => off.at .done, off.ssienr⟩
  | disable =>
    obtain ⟨runs, off⟩ := tracked
    refine ⟨runs, off.disable .duplex, ?_⟩
    show port.disable.Empty
    unfold FifoPort.disable FifoPort.settle
    split <;> exact ⟨rfl, rfl, rfl⟩
  | duplex =>
    obtain ⟨runs, off, empty⟩ := tracked
    refine ⟨runs, ⟨⟨off.sent, off.received, off.mem, off.lost⟩, off.ssienr, off.log⟩, empty, ?_⟩
    show ((port.ctrlr0 &&& ~~~((3 : UInt32) <<< 8)) >>> 8 &&& 3 == 0) = true
    rw [duplex_masked]
    rfl
  | frames =>
    obtain ⟨runs, off, empty, duplex⟩ := tracked
    exact ⟨runs, ⟨⟨off.sent, off.received, off.mem, off.lost⟩, off.ssienr, off.log⟩, empty, duplex⟩
  | enable => exact tracked_enable tracked
  | select =>
    obtain ⟨runs, fresh, empty, duplex, enabled, log⟩ := tracked
    exact ⟨runs, 0, 0, fresh.select empty duplex enabled log⟩
  | outer => exact tracked_outer tracked
  | inner => exact tracked_inner tracked
  | push =>
    obtain ⟨runs, ⟨more, allowed⟩, ended, begun, flow⟩ := tracked
    have stored : received ≤ ended := flow.stored
    have overlap := flow.overlap
    have bounds : begun ≤ sent ∧ sent ≤ call.size := flow.sent
    have left : sent < call.size := more
    have unfinished : received < call.size := by omega
    exact ⟨runs, unfinished, ended, begun, flow.push apart more allowed⟩
  | drain => exact tracked_drain tracked
  | pop =>
    obtain ⟨runs, ended, begun, some, flow⟩ := tracked
    have waiting : received < ended := some
    have filled : port.rx.length ≠ 0 := by
      have length : port.rx.length = ended - received := flow.rx_length
      omega
    exact ⟨runs, ended, begun, flow.pop filled⟩
  | busy => exact tracked_busy tracked
  | deselect =>
    obtain ⟨runs, all, flow⟩ := tracked
    exact ⟨runs, flow.deselect all⟩
  | stop => exact tracked_stop tracked
  | done => exact tracked

end Task

/-- The steps that the task has to make until it moves a frame, when the wire has nothing to do. -/
def distance (call : Transfer) (state : TransferState) : Nat :=
  match state.pc with
  | .outer => if state.received = call.size then 5 else if state.received < state.sent then 4 else 3
  | .inner => if state.received < state.sent then 3 else 2
  | .drain => if state.received = call.size then 6 else if state.received < state.sent then 2 else 4
  | _ => 1

def rank (call : Transfer) (state : TransferState) : Nat :=
  match state.pc with
  | .enter => 128 * call.size + 36
  | .disable => 128 * call.size + 35
  | .duplex => 128 * call.size + 34
  | .frames => 128 * call.size + 33
  | .enable => 128 * call.size + 32
  | .select => 128 * call.size + 31
  | .outer | .inner | .push | .drain | .pop =>
      32 * (4 * call.size - moves state) + if state.port.movable then 0 else distance call state
  | .busy => 4
  | .deselect => 3
  | .stop => 2
  | .done => 0

/-- The one whose turn gets the transfer further. -/
def helper (state : TransferState) : Mover := if state.port.movable then .wire else .task

end ArduinoK210.Spi
