import ArduinoK210.Lib.Nor
import ArduinoK210.Lib.Run

/-! The two storage slots of an `I2SClass`, the calls that address one of them, and the
DMA transfer that has the other until its completion interrupt. -/

namespace ArduinoK210.I2s

open Nor (put slice)

def intMax : Int := 2147483647
def defaultI2sBufferSize : Nat := 2048

/-- `storage` is addressed from `storage_` on. -/
structure I2sDoubleBuffer where
  allocated : Bool
  storage : Nat → UInt8
  capacity : Nat
  application : Nat
  used : Nat
  consumed : Nat

namespace I2sDoubleBuffer

def setSize (size : Int) (buffer : I2sDoubleBuffer) : I2sDoubleBuffer :=
  if buffer.allocated = false ∧ 4 ≤ size ∧ size ≤ intMax / 2 then { buffer with capacity := (size - size % 4).toNat }
  else buffer

def flush (buffer : I2sDoubleBuffer) : I2sDoubleBuffer := { buffer with used := 0, consumed := 0 }

/-- `fresh` is what a successful allocation finds in the memory. -/
def reset (fresh : Nat → UInt8) (buffer : I2sDoubleBuffer) : I2sDoubleBuffer :=
  let stored := if buffer.allocated then buffer.storage else fresh
  { buffer with allocated := true, storage := stored, application := 0 }.flush

def availableForWrite (buffer : I2sDoubleBuffer) : Nat := if buffer.allocated then buffer.capacity - buffer.used else 0

def available (buffer : I2sDoubleBuffer) : Nat := if buffer.allocated then buffer.used - buffer.consumed else 0

def slot (buffer : I2sDoubleBuffer) : Nat := buffer.application * buffer.capacity

def data (buffer : I2sDoubleBuffer) : Nat := (1 - buffer.application) * buffer.capacity

def write (input : List UInt8) (buffer : I2sDoubleBuffer) : Nat × I2sDoubleBuffer :=
  let size := min input.length buffer.availableForWrite
  (size, { buffer with
    storage := put buffer.storage (buffer.slot + buffer.used) (input.take size), used := buffer.used + size })

def peek (size : Nat) (buffer : I2sDoubleBuffer) : List UInt8 :=
  slice buffer.storage (buffer.slot + buffer.consumed) (min size buffer.available)

def read (size : Nat) (buffer : I2sDoubleBuffer) : List UInt8 × I2sDoubleBuffer :=
  let output := buffer.peek size
  (output, { buffer with consumed := buffer.consumed + output.length })

def swap (length : Nat) (buffer : I2sDoubleBuffer) : I2sDoubleBuffer :=
  if buffer.allocated then
    { buffer with application := 1 - buffer.application, consumed := 0, used := min length buffer.capacity }
  else buffer

/-- Two slots of whole words, of which the calls have filled and read a part of one. -/
structure Shaped (buffer : I2sDoubleBuffer) : Prop where
  allocated : buffer.allocated = true
  words : buffer.capacity % 4 = 0
  room : 4 ≤ buffer.capacity
  side : buffer.application ≤ 1
  order : buffer.consumed ≤ buffer.used
  fits : buffer.used ≤ buffer.capacity

variable {buffer : I2sDoubleBuffer}

theorem Shaped.available (shaped : Shaped buffer) : buffer.available = buffer.used - buffer.consumed := if_pos shaped.allocated

theorem Shaped.availableForWrite (shaped : Shaped buffer) : buffer.availableForWrite = buffer.capacity - buffer.used :=
  if_pos shaped.allocated

theorem Shaped.sides (shaped : Shaped buffer) :
    (buffer.slot = 0 ∧ buffer.data = buffer.capacity) ∨ (buffer.slot = buffer.capacity ∧ buffer.data = 0) := by
  have side := shaped.side
  unfold slot data
  rcases Nat.le_one_iff_eq_zero_or_eq_one.mp side with zero | one
  · exact .inl ⟨by rw [zero, Nat.zero_mul], by rw [zero, Nat.sub_zero, Nat.one_mul]⟩
  · exact .inr ⟨by rw [one, Nat.one_mul], by rw [one, Nat.sub_self, Nat.zero_mul]⟩

theorem Shaped.swap (shaped : Shaped buffer) (length : Nat) : Shaped (buffer.swap length) := by
  simp only [I2sDoubleBuffer.swap, shaped.allocated, if_true]
  exact ⟨rfl, shaped.words, shaped.room, Nat.sub_le 1 _, Nat.zero_le _, Nat.min_le_right _ _⟩

theorem Shaped.swap_slot (shaped : Shaped buffer) (length : Nat) : (buffer.swap length).slot = buffer.data := by
  simp only [I2sDoubleBuffer.swap, shaped.allocated, if_true]
  rfl

theorem Shaped.swap_data (shaped : Shaped buffer) (length : Nat) : (buffer.swap length).data = buffer.slot := by
  have side := shaped.side
  simp only [I2sDoubleBuffer.swap, shaped.allocated, if_true, data, slot]
  congr 1
  omega

theorem Shaped.flush (shaped : Shaped buffer) : Shaped buffer.flush :=
  ⟨shaped.allocated, shaped.words, shaped.room, shaped.side, Nat.le_refl 0, Nat.zero_le _⟩

theorem Shaped.write (shaped : Shaped buffer) (input : List UInt8) : Shaped (buffer.write input).2 := by
  have order := shaped.order
  have fits := shaped.fits
  have room := shaped.availableForWrite
  refine ⟨shaped.allocated, shaped.words, shaped.room, shaped.side, ?_, ?_⟩
  · simp only [I2sDoubleBuffer.write]
    omega
  · simp only [I2sDoubleBuffer.write]
    omega

theorem peek_length (buffer : I2sDoubleBuffer) (size : Nat) : (buffer.peek size).length = min size buffer.available :=
  Nor.slice_length _ _ _

theorem Shaped.read (shaped : Shaped buffer) (size : Nat) : Shaped (buffer.read size).2 := by
  have order := shaped.order
  have available := shaped.available
  refine ⟨shaped.allocated, shaped.words, shaped.room, shaped.side, ?_, shaped.fits⟩
  simp only [I2sDoubleBuffer.read, peek_length]
  omega

def store (address : Nat) (value : UInt8) (buffer : I2sDoubleBuffer) : I2sDoubleBuffer :=
  { buffer with storage := Function.update buffer.storage address value }

theorem Shaped.store (shaped : Shaped buffer) (address : Nat) (value : UInt8) : Shaped (buffer.store address value) :=
  ⟨shaped.allocated, shaped.words, shaped.room, shaped.side, shaped.order, shaped.fits⟩

theorem Shaped.store_apart (shaped : Shaped buffer) (value : UInt8) {index i : Nat} (inside : index < buffer.capacity)
    (within : i < buffer.capacity) :
    (buffer.store (buffer.data + index) value).storage (buffer.slot + i) = buffer.storage (buffer.slot + i) := by
  apply Function.update_of_ne
  rcases shaped.sides with ⟨slot, data⟩ | ⟨slot, data⟩
  · rw [slot, data]
    omega
  · rw [slot, data]
    omega

def held (buffer : I2sDoubleBuffer) : List UInt8 := buffer.peek buffer.available

theorem held_length (buffer : I2sDoubleBuffer) : buffer.held.length = buffer.available := by
  rw [held, peek_length, Nat.min_self]

theorem Shaped.held_store (shaped : Shaped buffer) (value : UInt8) {index : Nat} (inside : index < buffer.capacity) :
    (buffer.store (buffer.data + index) value).held = buffer.held := by
  have order := shaped.order
  have fits := shaped.fits
  have available := shaped.available
  apply Memory.slice_congr
  intro i within
  have bound : i < buffer.available := Nat.lt_of_lt_of_le within (Nat.min_le_left _ _)
  have apart := shaped.store_apart value inside (show buffer.consumed + i < buffer.capacity by omega)
  rw [← Nat.add_assoc] at apart
  exact apart

theorem Shaped.held_write (shaped : Shaped buffer) (input : List UInt8) :
    (buffer.write input).2.held = buffer.held ++ input.take (buffer.write input).1 := by
  have order := shaped.order
  have count : (input.take (buffer.write input).1).length = (buffer.write input).1 := by
    simp only [I2sDoubleBuffer.write, List.length_take]
    omega
  have before : buffer.slot + buffer.consumed + (buffer.used - buffer.consumed) = buffer.slot + buffer.used := by omega
  have size : (buffer.write input).2.available = (buffer.used - buffer.consumed) + (input.take (buffer.write input).1).length := by
    rw [(shaped.write input).available, count]
    simp only [I2sDoubleBuffer.write]
    omega
  have extend := Memory.slice_extend buffer.storage (buffer.slot + buffer.consumed) (buffer.used - buffer.consumed)
    (input.take (buffer.write input).1)
  rw [before] at extend
  unfold held peek
  rw [Nat.min_self, Nat.min_self, size, shaped.available]
  exact extend

theorem Shaped.write_apart (shaped : Shaped buffer) (input : List UInt8) {i : Nat} (inside : i < buffer.capacity) :
    (buffer.write input).2.storage (buffer.data + i) = buffer.storage (buffer.data + i) := by
  have fits := shaped.fits
  have room := shaped.availableForWrite
  apply Nor.put_outside
  simp only [List.length_take]
  rcases shaped.sides with ⟨slot, data⟩ | ⟨slot, data⟩
  · rw [slot, data]
    omega
  · rw [slot, data]
    omega

/-- A read takes from the front of what the calls find. -/
theorem Shaped.held_read (shaped : Shaped buffer) (size : Nat) :
    buffer.held = (buffer.read size).1 ++ (buffer.read size).2.held := by
  have count := peek_length buffer size
  have rest : (buffer.read size).2.available = buffer.available - min size buffer.available := by
    rw [(shaped.read size).available, shaped.available]
    simp only [I2sDoubleBuffer.read, count, shaped.available]
    omega
  have split : buffer.available = min size buffer.available + (buffer.available - min size buffer.available) := by omega
  unfold held
  conv => lhs; rw [peek, Nat.min_self, split, Memory.slice_add]
  congr 1
  rw [peek, rest, Nat.min_self, Nat.add_assoc, ← count]
  rfl

end I2sDoubleBuffer

inductive Direction where
  | idle | sending | receiving
  deriving DecidableEq

theorem Direction.sending_chosen : Direction.sending ≠ .idle := fun impossible => nomatch impossible

theorem Direction.receiving_chosen : Direction.receiving ≠ .idle := fun impossible => nomatch impossible

/-- A transfer of `count` bytes at `base`. `seen` has what the DMA has moved so far. -/
structure Transfer where
  filling : Bool
  base : Nat
  count : Nat
  seen : Nat → Option UInt8

def Transfer.Done (transfer : Transfer) : Prop := ∀ i, i < transfer.count → (transfer.seen i).isSome

instance (transfer : Transfer) : Decidable transfer.Done := Nat.decidableBallLT _ _

/-- The transfer after the DMA has moved `value` at `index`. -/
def Transfer.move (index : Nat) (value : UInt8) (transfer : Transfer) : Transfer :=
  { transfer with seen := Function.update transfer.seen index (some value) }

theorem Transfer.move_seen {transfer : Transfer} {index i : Nat} {value found : UInt8}
    (seen : (transfer.move index value).seen i = some found) :
    (i = index ∧ value = found) ∨ (i ≠ index ∧ transfer.seen i = some found) := by
  simp only [move, Function.update_apply] at seen
  split at seen
  next same => exact .inl ⟨same, Option.some.inj seen⟩
  next different => exact .inr ⟨different, seen⟩

def Transfer.moved (transfer : Transfer) : List UInt8 :=
  (List.range transfer.count).map fun i => (transfer.seen i).getD 0

/-- `transfer` is what the DMA controller is at. -/
structure I2sClass where
  ready : Bool
  direction : Direction
  bits : Nat
  busy : Bool
  received : Bool
  buffer : I2sDoubleBuffer
  transfer : Option Transfer

namespace I2sClass

def setBufferSize (size : Int) (i2s : I2sClass) : I2sClass :=
  if i2s.ready then i2s else { i2s with buffer := i2s.buffer.setSize size }

/-- A `begin` that finds its arguments in range, the device free, the memory and a DMA
channel. -/
def begin (bits : Nat) (fresh : Nat → UInt8) (i2s : I2sClass) : I2sClass :=
  { i2s with
    buffer := i2s.buffer.reset fresh, bits, direction := .idle, busy := false, received := false, ready := true }

def select (direction : Direction) (i2s : I2sClass) : Option I2sClass :=
  if i2s.ready = false ∨ i2s.direction ≠ .idle ∧ i2s.direction ≠ direction then none else some { i2s with direction }

/-- The transfer takes whole words from or to the slot that the calls do not address. -/
def handleDataDma (filling : Bool) (words : Nat) (i2s : I2sClass) : I2sClass :=
  { i2s with busy := true, transfer := some ⟨filling, i2s.buffer.data, 4 * words, fun _ => none⟩ }

def service (i2s : I2sClass) : I2sClass :=
  if i2s.ready = false ∨ i2s.busy ∨ i2s.direction = .idle then i2s
  else if i2s.direction = .sending then
    let count := i2s.buffer.available
    if count = 0 ∨ count % 4 ≠ 0 then i2s
    else { i2s with buffer := i2s.buffer.swap 0 }.handleDataDma false (count / 4)
  else if i2s.received then
    if i2s.buffer.available ≠ 0 then i2s
    else { i2s with buffer := i2s.buffer.swap i2s.buffer.capacity, received := false }.handleDataDma true
      (i2s.buffer.capacity / 4)
  else i2s.handleDataDma true (i2s.buffer.capacity / 4)

def width (i2s : I2sClass) : Nat := if i2s.bits = 16 then 2 else 4

theorem width_pos (i2s : I2sClass) : 0 < i2s.width := by
  unfold width
  split <;> omega

/-- What no part of `service` touches. -/
structure Serves (i2s after : I2sClass) : Prop where
  direction : after.direction = i2s.direction
  width : after.width = i2s.width
  storage : after.buffer.storage = i2s.buffer.storage

private theorem swap_storage (length : Nat) (buffer : I2sDoubleBuffer) : (buffer.swap length).storage = buffer.storage := by
  unfold I2sDoubleBuffer.swap
  split <;> rfl

theorem service_serves (i2s : I2sClass) : Serves i2s i2s.service := by
  unfold service
  split
  next => exact ⟨rfl, rfl, rfl⟩
  next =>
    split
    next =>
      dsimp only
      split
      next => exact ⟨rfl, rfl, rfl⟩
      next => exact ⟨rfl, rfl, swap_storage 0 i2s.buffer⟩
    next =>
      split
      next =>
        split
        next => exact ⟨rfl, rfl, rfl⟩
        next => exact ⟨rfl, rfl, swap_storage i2s.buffer.capacity i2s.buffer⟩
      next => exact ⟨rfl, rfl, rfl⟩

def available (i2s : I2sClass) : Nat × I2sClass :=
  match i2s.select .receiving with
  | none => (0, i2s)
  | some selected => (selected.service.buffer.available, selected.service)

def availableForWrite (i2s : I2sClass) : Nat × I2sClass :=
  match i2s.select .sending with
  | none => (0, i2s)
  | some selected => (selected.buffer.availableForWrite, selected)

def read (size : Nat) (i2s : I2sClass) : List UInt8 × I2sClass :=
  match i2s.select .receiving with
  | none => ([], i2s)
  | some selected =>
      let reply := selected.service.buffer.read size
      (reply.1, { selected.service with buffer := reply.2 }.service)

def peek (i2s : I2sClass) : Option (List UInt8) × I2sClass :=
  match i2s.select .receiving with
  | none => (none, i2s)
  | some selected =>
      let served := selected.service
      let sample := served.buffer.peek served.width
      (if served.buffer.available < served.width ∨ sample.length ≠ served.width then none else some sample, served)

/-- A null `input` is like an empty one. -/
def write (input : List UInt8) (i2s : I2sClass) : Nat × I2sClass :=
  if input = [] then (0, i2s)
  else match i2s.select .sending with
    | none => (0, i2s)
    | some selected =>
        let reply := selected.buffer.write input
        (reply.1, { selected with buffer := reply.2 }.service)

/-- What the overloads of `write` for one sample pass on. -/
def sampleBytes (value : UInt32) (i2s : I2sClass) : List UInt8 :=
  (List.range i2s.width).map fun i => UInt8.ofNat (value.toNat >>> (8 * i))

/-- `flush` when receiving, else one iteration of its loop with the zeros that it wrote. -/
def flush (i2s : I2sClass) : Nat × I2sClass :=
  if i2s.ready = false then (0, i2s)
  else if i2s.direction = .receiving then (0, { i2s with buffer := i2s.buffer.flush }.service)
  else
    let remainder := i2s.buffer.available % 4
    if remainder ≠ 0 then
      let reply := i2s.buffer.write (List.replicate (4 - remainder) 0)
      (reply.1, { i2s with buffer := reply.2 }.service)
    else (0, i2s.service)

def onTransferComplete (i2s : I2sClass) : I2sClass :=
  if i2s.ready = false then i2s
  else { i2s with busy := false, received := decide (i2s.direction = Direction.receiving) }.service

/-- The DMA moves one byte of its transfer. -/
def access (index : Nat) (value : UInt8) (i2s : I2sClass) : I2sClass :=
  match i2s.transfer with
  | none => i2s
  | some transfer =>
      if transfer.count ≤ index then i2s
      else if transfer.filling then
        { i2s with buffer := i2s.buffer.store (transfer.base + index) value, transfer := some (transfer.move index value) }
      else { i2s with transfer := some (transfer.move index (i2s.buffer.storage (transfer.base + index))) }

private theorem select_some {direction : Direction} {i2s selected : I2sClass} (accepted : i2s.select direction = some selected) :
    selected.buffer = i2s.buffer ∧ (i2s.direction = .idle ∨ i2s.direction = direction) := by
  unfold select at accepted
  split at accepted
  next => cases accepted
  next allowed =>
    cases accepted
    refine ⟨rfl, ?_⟩
    by_cases idle : i2s.direction = .idle
    · exact .inl idle
    · simp only [not_or, not_and, Decidable.not_not] at allowed
      exact .inr (allowed.2 idle)

theorem available_storage (i2s : I2sClass) : i2s.available.2.buffer.storage = i2s.buffer.storage := by
  unfold available
  split
  next => rfl
  next selected accepted =>
    rw [← (select_some accepted).1]
    exact selected.service_serves.storage

theorem peek_storage (i2s : I2sClass) : i2s.peek.2.buffer.storage = i2s.buffer.storage := by
  unfold peek
  split
  next => rfl
  next selected accepted =>
    rw [← (select_some accepted).1]
    exact selected.service_serves.storage

theorem availableForWrite_storage (i2s : I2sClass) : i2s.availableForWrite.2.buffer.storage = i2s.buffer.storage := by
  unfold availableForWrite
  split
  next => rfl
  next selected accepted => rw [← (select_some accepted).1]

theorem read_storage (i2s : I2sClass) (size : Nat) : (i2s.read size).2.buffer.storage = i2s.buffer.storage := by
  unfold read
  split
  next => rfl
  next selected accepted =>
    rw [← (select_some accepted).1]
    exact (service_serves _).storage.trans selected.service_serves.storage

theorem write_storage (i2s : I2sClass) (input : List UInt8) :
    (i2s.write input).2.buffer.storage = i2s.buffer.storage ∨
      (i2s.direction ≠ .receiving ∧ (i2s.write input).2.buffer.storage = (i2s.buffer.write input).2.storage) := by
  unfold write
  split
  next => exact .inl rfl
  next =>
    split
    next => exact .inl rfl
    next selected accepted =>
      obtain ⟨same, direction⟩ := select_some accepted
      refine .inr ⟨?_, ?_⟩
      · rcases direction with idle | sending
        · simp [idle]
        · simp [sending]
      · rw [← same]
        exact (service_serves _).storage

theorem flush_storage (i2s : I2sClass) : i2s.flush.2.buffer.storage = i2s.buffer.storage ∨
    (i2s.direction ≠ .receiving ∧ ∃ input, i2s.flush.2.buffer.storage = (i2s.buffer.write input).2.storage) := by
  unfold flush
  split
  next => exact .inl rfl
  next =>
    split
    next => exact .inl (service_serves _).storage
    next sending =>
      dsimp only
      split
      next => exact .inr ⟨sending, _, (service_serves _).storage⟩
      next => exact .inl (service_serves _).storage

theorem onTransferComplete_storage (i2s : I2sClass) : i2s.onTransferComplete.buffer.storage = i2s.buffer.storage := by
  unfold onTransferComplete
  split
  next => rfl
  next => exact (service_serves _).storage

end I2sClass
end ArduinoK210.I2s
