import ArduinoK210.Spi.Fifo

/-! Where the frames of a transfer are: still to be sent, in the transmit FIFO, on the wire, in the receive FIFO, or stored. -/

namespace ArduinoK210.Spi

open WireEvent (chipSelect first last)

/-- The answer does not overwrite input that is still to be sent. Two separate buffers are like that, and one for both. -/
def Transfer.Apart (call : Transfer) : Prop :=
  ∀ input output, call.input = some input → call.output = some output → output ≤ input ∨ input + call.size ≤ output

section Expected

variable (call : Transfer) (slave : List UInt8 → UInt8) (mem : Nat → UInt8)

def frame (i : Nat) : UInt8 := call.settings.wireByte (call.inputByte mem i)

def frames (count : Nat) : List UInt8 := (List.range count).map (frame call mem)

/-- What comes in with frame `i`. -/
def answer (i : Nat) : UInt8 := slave (frames call mem (i + 1))

def exchanges (count : Nat) : List WireEvent :=
  (List.range count).flatMap fun i => [first (frame call mem i), last (answer call slave mem i)]

/-- The memory with the first answers stored. -/
def filled : Nat → Nat → UInt8
  | 0 => mem
  | count + 1 => call.store count (answer call slave mem count) (filled count)

variable {call slave mem}

private theorem frames_succ (count : Nat) : frames call mem (count + 1) = frames call mem count ++ [frame call mem count] := by
  rw [frames, List.range_succ, List.map_append]
  rfl

private theorem exchanges_succ (count : Nat) :
    exchanges call slave mem (count + 1) =
      exchanges call slave mem count ++ [first (frame call mem count), last (answer call slave mem count)] := by
  rw [exchanges, List.range_succ, List.flatMap_append, List.flatMap_singleton]
  rfl

theorem framesOf_append (front rest : List WireEvent) : framesOf (front ++ rest) = framesOf front ++ framesOf rest :=
  List.filterMap_append

theorem framesOf_exchanges (count : Nat) : framesOf (exchanges call slave mem count) = frames call mem count := by
  induction count with
  | zero => rfl
  | succ count ih =>
    rw [exchanges_succ, framesOf_append, ih, frames_succ]
    rfl

theorem filled_of_none (none : call.output = none) (count : Nat) : filled call slave mem count = mem := by
  induction count with
  | zero => rfl
  | succ count ih => rw [filled, Transfer.store, none, ih]

theorem filled_outside {output a : Nat} (given : call.output = some output) {count : Nat}
    (outside : a < output ∨ output + count ≤ a) : filled call slave mem count a = mem a := by
  induction count with
  | zero => rfl
  | succ count ih =>
    rw [filled, Transfer.store, given]
    exact (Function.update_of_ne (by omega) _ _).trans (ih (by omega))

theorem filled_inside {output i : Nat} (given : call.output = some output) {count : Nat} (inside : i < count) :
    filled call slave mem count (output + i) = call.settings.wireByte (answer call slave mem i) := by
  induction count with
  | zero => omega
  | succ count ih =>
    rw [filled, Transfer.store, given]
    by_cases latest : i = count
    · rw [latest]
      exact Function.update_self _ _ _
    · exact (Function.update_of_ne (by omega) _ _).trans (ih (by omega))

theorem inputByte_filled (apart : call.Apart) {count i : Nat} (order : count ≤ i) (inside : i < call.size) :
    call.inputByte (filled call slave mem count) i = call.inputByte mem i := by
  unfold Transfer.inputByte
  split
  next input given =>
    cases target : call.output with
    | none => rw [filled_of_none target]
    | some output =>
      apply filled_outside target
      have := apart input output given target
      omega
  next => rfl

end Expected

/-- The task is in its loop, `ended` frames have gone through the wire and `begun` have got there. -/
structure Flow (call : Transfer) (slave : List UInt8 → UInt8) (mem : Nat → UInt8) (state : TransferState)
    (ended begun : Nat) : Prop where
  stored : state.received ≤ ended
  overlap : ended ≤ begun ∧ begun ≤ ended + 1
  sent : begun ≤ state.sent ∧ state.sent ≤ call.size
  outstanding : state.sent ≤ state.received + fifoDepth
  tx : state.port.tx = (List.range' begun (state.sent - begun)).map (frame call mem)
  shift : state.port.shift = if ended < begun then some (frame call mem ended) else none
  rx : state.port.rx = (List.range' state.received (ended - state.received)).map (answer call slave mem)
  log : state.port.log =
    chipSelect true :: (exchanges call slave mem ended ++ if ended < begun then [first (frame call mem ended)] else [])
  selected : state.port.selected = true
  fullDuplex : state.port.fullDuplex = true
  lost : state.port.lost = 0
  mem : state.mem = filled call slave mem state.received

namespace Flow

variable {call : Transfer} {slave : List UInt8 → UInt8} {mem : Nat → UInt8} {state : TransferState} {ended begun : Nat}

theorem same (flow : Flow call slave mem state ended begun) (pc : TransferPc) :
    Flow call slave mem { state with pc } ended begun :=
  ⟨flow.stored, flow.overlap, flow.sent, flow.outstanding, flow.tx, flow.shift, flow.rx, flow.log, flow.selected,
    flow.fullDuplex, flow.lost, flow.mem⟩

theorem tx_length (flow : Flow call slave mem state ended begun) : state.port.tx.length = state.sent - begun := by
  rw [flow.tx, List.length_map, List.length_range']

theorem rx_length (flow : Flow call slave mem state ended begun) : state.port.rx.length = ended - state.received := by
  rw [flow.rx, List.length_map, List.length_range']

/-- The last bit of a frame. There is room for the answer, since it is one of those that are outstanding. -/
theorem end_frame (flow : Flow call slave mem state ended begun) (active : ended < begun) :
    Flow call slave mem { state with port := state.port.move slave } (ended + 1) begun := by
  have received := flow.stored
  have overlap := flow.overlap
  have sent := flow.sent
  have outstanding := flow.outstanding
  have shift := flow.shift
  rw [if_pos active] at shift
  have log := flow.log
  rw [if_pos active] at log
  have seen : framesOf state.port.log = frames call mem (ended + 1) := by
    rw [log, frames_succ, ← @framesOf_exchanges call slave mem]
    exact framesOf_append (exchanges call slave mem ended) _
  have room : state.port.rx.length < fifoDepth := by
    rw [flow.rx_length]
    omega
  have moved : state.port.move slave =
      { state.port with
        shift := none
        rx := state.port.rx ++ [answer call slave mem ended]
        log := state.port.log ++ [last (answer call slave mem ended)] } := by
    have duplex : FifoPort.fullDuplex
        { state.port with shift := none, log := state.port.log ++ [last (answer call slave mem ended)] } = true := flow.fullDuplex
    rw [FifoPort.move, if_pos flow.selected, shift]
    simp only [seen, FifoPort.receive]
    rw [show slave (frames call mem (ended + 1)) = answer call slave mem ended from rfl, if_pos duplex, if_pos room]
  have passed : ¬ended + 1 < begun := by omega
  rw [moved]
  refine ⟨by show state.received ≤ ended + 1; omega, by omega, sent, outstanding, flow.tx, ?_, ?_, ?_, flow.selected,
    flow.fullDuplex, flow.lost, flow.mem⟩
  · rw [if_neg passed]
  · show state.port.rx ++ [_] = _
    have longer : ended + 1 - state.received = (ended - state.received) + 1 := by omega
    have at_ended : state.received + (ended - state.received) = ended := by omega
    show _ = (List.range' state.received (ended + 1 - state.received)).map _
    rw [flow.rx, longer, List.range'_1_concat, List.map_append, at_ended]
    rfl
  · rw [if_neg passed, List.append_nil, exchanges_succ]
    show state.port.log ++ [_] = _
    rw [log]
    simp only [List.cons_append, List.append_assoc, List.nil_append]

theorem begin_frame (flow : Flow call slave mem state ended begun) (idle : ended = begun) (waiting : begun < state.sent) :
    Flow call slave mem { state with port := state.port.move slave } ended (begun + 1) := by
  have sent := flow.sent
  have inactive : ¬ended < begun := by omega
  have shift := flow.shift
  rw [if_neg inactive] at shift
  have log := flow.log
  rw [if_neg inactive, List.append_nil] at log
  have tx : state.port.tx = frame call mem begun :: (List.range' (begun + 1) (state.sent - (begun + 1))).map (frame call mem) := by
    have split : state.sent - begun = (state.sent - (begun + 1)) + 1 := by omega
    rw [flow.tx, split, List.range'_succ, List.map_cons]
  have moved : state.port.move slave =
      { state.port with
        shift := some (frame call mem begun)
        tx := (List.range' (begun + 1) (state.sent - (begun + 1))).map (frame call mem)
        log := state.port.log ++ [first (frame call mem begun)] } := by
    rw [FifoPort.move, if_pos flow.selected, shift, tx]
  have active : ended < begun + 1 := by omega
  rw [moved]
  refine ⟨flow.stored, by omega, ⟨waiting, sent.2⟩, flow.outstanding, rfl, ?_, flow.rx, ?_, flow.selected, flow.fullDuplex,
    flow.lost, flow.mem⟩
  · rw [if_pos active, idle]
  · rw [if_pos active]
    show state.port.log ++ [_] = _
    rw [log, idle]
    rfl

theorem still (flow : Flow call slave mem state ended begun) (idle : ended = begun) (empty : begun = state.sent) :
    state.port.move slave = state.port := by
  have shift := flow.shift
  rw [if_neg (by omega)] at shift
  have tx := flow.tx
  rw [empty, Nat.sub_self] at tx
  rw [FifoPort.move, if_pos flow.selected, shift, tx]
  rfl

theorem movable_iff (flow : Flow call slave mem state ended begun) :
    state.port.movable = true ↔ ended < begun ∨ begun < state.sent := by
  have shift : state.port.shift.isSome = true ↔ ended < begun := by
    rw [flow.shift]
    split <;> simp_all
  have tx : state.port.tx.isEmpty = false ↔ begun < state.sent := by
    rw [flow.tx, List.isEmpty_eq_false_iff, ← List.length_pos_iff, List.length_map, List.length_range']
    omega
  rw [FifoPort.movable, flow.selected, Bool.true_and, FifoPort.busy, Bool.or_eq_true, shift, Bool.not_eq_true', tx]

theorem push (flow : Flow call slave mem state ended begun) (apart : call.Apart) (more : state.sent < call.size)
    (allowed : state.sent - state.received < 32) :
    Flow call slave mem
      { state with
        pc := .inner
        port := state.port.push (call.settings.wireByte (call.inputByte state.mem state.sent))
        sent := state.sent + 1 } ended begun := by
  have received := flow.stored
  have overlap := flow.overlap
  have sent := flow.sent
  have room : state.port.tx.length < fifoDepth := by
    rw [flow.tx_length]
    simp only [fifoDepth]
    omega
  have value : call.settings.wireByte (call.inputByte state.mem state.sent) = frame call mem state.sent := by
    rw [flow.mem, inputByte_filled apart (by omega) more]
    rfl
  rw [FifoPort.push, if_pos room, value]
  refine ⟨received, overlap, by show begun ≤ state.sent + 1 ∧ state.sent + 1 ≤ call.size; omega, ?_, ?_, flow.shift, flow.rx,
    flow.log, flow.selected, flow.fullDuplex, flow.lost, flow.mem⟩
  · show state.sent + 1 ≤ state.received + fifoDepth
    simp only [fifoDepth]
    omega
  · show state.port.tx ++ [_] = (List.range' begun (state.sent + 1 - begun)).map _
    have longer : state.sent + 1 - begun = (state.sent - begun) + 1 := by omega
    have at_sent : begun + (state.sent - begun) = state.sent := by omega
    rw [flow.tx, longer, List.range'_1_concat, List.map_append, at_sent]
    rfl

theorem pop (flow : Flow call slave mem state ended begun) (some : state.port.rx.length ≠ 0) :
    Flow call slave mem
      { state with
        pc := .drain
        port := state.port.pop.2
        mem := call.store state.received state.port.pop.1 state.mem
        received := state.received + 1 } ended begun := by
  rw [flow.rx_length] at some
  have rx : state.port.rx = answer call slave mem state.received ::
      (List.range' (state.received + 1) (ended - (state.received + 1))).map (answer call slave mem) := by
    have split : ended - state.received = (ended - (state.received + 1)) + 1 := by omega
    rw [flow.rx, split, List.range'_succ, List.map_cons]
  have popped : state.port.pop = (answer call slave mem state.received,
      { state.port with
        rx := (List.range' (state.received + 1) (ended - (state.received + 1))).map (answer call slave mem) }) := by
    rw [FifoPort.pop, rx]
    rfl
  rw [popped]
  have outstanding := flow.outstanding
  refine ⟨by show state.received + 1 ≤ ended; omega, flow.overlap, flow.sent, by show state.sent ≤ state.received + 1 + _; omega,
    flow.tx, flow.shift, rfl, flow.log, flow.selected, flow.fullDuplex, flow.lost, ?_⟩
  show call.store state.received _ state.mem = filled call slave mem (state.received + 1)
  rw [filled, flow.mem]

end Flow

end ArduinoK210.Spi
