import ArduinoK210.I2s.DoubleBuffer

/-! What an `I2SClass` sends and receives over whole runs: the guarded sections of its
calls, and the DMA between any two of them. -/

namespace ArduinoK210.I2s

open Nor (slice)

/-- What enters the stream to send: the bytes that a `write` accepted, or zeros from `flush`. -/
inductive Entry where
  | written (accepted : List UInt8)
  | padding (zeros : Nat)

def Entry.bytes : Entry → List UInt8
  | .written accepted => accepted
  | .padding zeros => List.replicate zeros 0

/-- What leaves the received stream: the bytes that a `read` returned, or those that
`flush` threw away. -/
inductive Taken where
  | returned (output : List UInt8)
  | discarded (unread : List UInt8)

def Taken.bytes : Taken → List UInt8
  | .returned output => output
  | .discarded unread => unread

/-- `sent` and `fills` are the completed transfers of either direction. `sampling` says
that `read()` is between its `available` and its read of one sample. -/
structure Stream where
  i2s : I2sClass
  sampling : Bool
  sent : List (List UInt8)
  fills : List (List UInt8)
  entered : List Entry
  taken : List Taken

inductive Event where
  | setBufferSize (size : Int)
  | availableForWrite
  | write (input : List UInt8)
  | writeSample (value : UInt32)
  | flush
  | available
  | peek
  | read (size : Nat)
  | readSample
  | access (index : Nat) (value : UInt8)
  | complete

namespace Stream

def write (input : List UInt8) (stream : Stream) : Stream :=
  let reply := stream.i2s.write input
  { stream with i2s := reply.2, entered := stream.entered ++ [.written (input.take reply.1)] }

def flush (stream : Stream) : Stream :=
  let reply := stream.i2s.flush
  if stream.i2s.direction = .receiving then
    { stream with i2s := reply.2, taken := stream.taken ++ [.discarded stream.i2s.buffer.held] }
  else { stream with i2s := reply.2, entered := stream.entered ++ [.padding reply.1] }

def read (size : Nat) (stream : Stream) : Stream :=
  let reply := stream.i2s.read size
  { stream with i2s := reply.2, taken := stream.taken ++ [.returned reply.1] }

/-- The first part of `read()`, which returns here or goes on to read a sample. -/
def readSample (stream : Stream) : Stream :=
  let reply := stream.i2s.available
  { stream with i2s := reply.2, sampling := decide (stream.i2s.width ≤ reply.1) }

/-- The second part of `read()`: a short sample is lost. -/
def finishSample (stream : Stream) : Stream :=
  let reply := stream.i2s.read stream.i2s.width
  if reply.1.length = stream.i2s.width then
    { stream with i2s := reply.2, sampling := false, taken := stream.taken ++ [.returned reply.1] }
  else { stream with i2s := reply.2, sampling := false }

def complete (stream : Stream) : Stream :=
  match stream.i2s.transfer with
  | none => stream
  | some transfer =>
      if transfer.Done then
        let i2s := { stream.i2s with transfer := none }.onTransferComplete
        if transfer.filling then { stream with i2s, fills := stream.fills ++ [transfer.moved] }
        else { stream with i2s, sent := stream.sent ++ [transfer.moved] }
      else stream

/-- A call of the task. Within `read()` the task makes no other call. -/
def call : Event → Stream → Stream
  | .setBufferSize size, stream => { stream with i2s := stream.i2s.setBufferSize size }
  | .availableForWrite, stream => { stream with i2s := stream.i2s.availableForWrite.2 }
  | .write input, stream => stream.write input
  | .writeSample value, stream => stream.write (stream.i2s.sampleBytes value)
  | .flush, stream => stream.flush
  | .available, stream => { stream with i2s := stream.i2s.available.2 }
  | .peek, stream => { stream with i2s := stream.i2s.peek.2 }
  | .read size, stream => stream.read size
  | .readSample, stream => stream.readSample
  | .access _ _, stream | .complete, stream => stream

def step (event : Event) (stream : Stream) : Stream :=
  match event with
  | .access index value => { stream with i2s := stream.i2s.access index value }
  | .complete => stream.complete
  | event => if stream.sampling then stream.finishSample else stream.call event

/-- A new object, with `setBufferSize` calls before its `begin`. -/
def start (sizes : List Int) (bits : Nat) (fresh : Nat → UInt8) : Stream :=
  let buffer : I2sDoubleBuffer := ⟨false, fresh, defaultI2sBufferSize, 0, 0, 0⟩
  let i2s := Run.run I2sClass.setBufferSize sizes ⟨false, .idle, 0, false, false, buffer, none⟩
  ⟨i2s.begin bits fresh, false, [], [], [], []⟩

def enteredBytes (stream : Stream) : List UInt8 := stream.entered.flatMap Entry.bytes

def takenBytes (stream : Stream) : List UInt8 := stream.taken.flatMap Taken.bytes

def inFlight (stream : Stream) : List UInt8 :=
  match stream.i2s.transfer with
  | none => []
  | some transfer => slice stream.i2s.buffer.storage transfer.base transfer.count

/-- A complete fill that waits until the other slot is read out. -/
def waiting (stream : Stream) : List UInt8 :=
  if stream.i2s.received then slice stream.i2s.buffer.storage stream.i2s.buffer.data stream.i2s.buffer.capacity else []

/-- Zeros stand only where they complete a word. -/
def Padded (entered : List Entry) : Prop :=
  ∀ front zeros back, entered = front ++ Entry.padding zeros :: back →
    zeros < 4 ∧ ((front.flatMap Entry.bytes).length + zeros) % 4 = 0

/-- What the DMA has moved is what still stands in the memory. -/
def Seen (stream : Stream) (transfer : Transfer) : Prop :=
  ∀ i value, transfer.seen i = some value →
    i < transfer.count ∧ stream.i2s.buffer.storage (transfer.base + i) = value

/-- The transfers have sent the front of the stream, in order. -/
structure Sending (stream : Stream) : Prop where
  calm : stream.sampling = false
  unread : stream.i2s.buffer.consumed = 0
  unfilled : stream.i2s.received = false
  flight : ∀ transfer, stream.i2s.transfer = some transfer → transfer.filling = false ∧
    transfer.base = stream.i2s.buffer.data ∧ transfer.count ≠ 0 ∧ transfer.count ≤ stream.i2s.buffer.capacity ∧
    transfer.count % 4 = 0 ∧ stream.Seen transfer
  whole : ∀ bytes ∈ stream.sent, bytes ≠ [] ∧ bytes.length % 4 = 0
  order : stream.enteredBytes = stream.sent.flatten ++ (stream.inFlight ++ stream.i2s.buffer.held)
  padded : Padded stream.entered

/-- The calls have taken the front of the fills, in order. -/
structure Receiving (stream : Stream) : Prop where
  flight : ∀ transfer, stream.i2s.transfer = some transfer → transfer.filling = true ∧
    transfer.base = stream.i2s.buffer.data ∧ transfer.count = stream.i2s.buffer.capacity ∧ stream.i2s.received = false ∧
    stream.Seen transfer
  order : stream.fills.flatten = stream.takenBytes ++ (stream.i2s.buffer.held ++ stream.waiting)
  sample : stream.sampling = true →
    stream.i2s.direction = .receiving ∧ stream.i2s.width ≤ stream.i2s.buffer.available

structure Kept (stream : Stream) : Prop where
  ready : stream.i2s.ready = true
  shaped : stream.i2s.buffer.Shaped
  busy : stream.i2s.busy = stream.i2s.transfer.isSome
  quiet : stream.i2s.direction = .idle → stream.i2s.buffer.used = 0
  sending : stream.i2s.direction ≠ .receiving → stream.Sending
  receiving : stream.i2s.direction ≠ .sending → stream.Receiving

variable {stream : Stream}

/-- A size is rounded down to whole words, and a bad one is ignored. -/
def Unstarted (i2s : I2sClass) : Prop :=
  i2s.transfer = none ∧ i2s.buffer.capacity % 4 = 0 ∧ 4 ≤ i2s.buffer.capacity

private theorem setBufferSize_unstarted (size : Int) (i2s : I2sClass) (unstarted : Unstarted i2s) :
    Unstarted (i2s.setBufferSize size) := by
  obtain ⟨free, words, room⟩ := unstarted
  unfold I2sClass.setBufferSize I2sDoubleBuffer.setSize
  split
  next => exact ⟨free, words, room⟩
  next =>
    split
    next accepted =>
      refine ⟨free, ?_, ?_⟩
      · simp only
        omega
      · simp only
        omega
    next => exact ⟨free, words, room⟩

theorem start_kept (sizes : List Int) (bits : Nat) (fresh : Nat → UInt8) : Kept (start sizes bits fresh) := by
  have unstarted : Unstarted (Run.run I2sClass.setBufferSize sizes
      ⟨false, .idle, 0, false, false, ⟨false, fresh, defaultI2sBufferSize, 0, 0, 0⟩, none⟩) := by
    apply Run.invariant setBufferSize_unstarted
    exact ⟨rfl, by simp [defaultI2sBufferSize], by simp [defaultI2sBufferSize]⟩
  obtain ⟨free, words, room⟩ := unstarted
  have transfer : (start sizes bits fresh).i2s.transfer = none := free
  have shaped : (start sizes bits fresh).i2s.buffer.Shaped :=
    ⟨rfl, words, room, Nat.zero_le _, Nat.le_refl 0, Nat.zero_le _⟩
  have empty : (start sizes bits fresh).i2s.buffer.held = [] := by
    apply List.eq_nil_of_length_eq_zero
    rw [I2sDoubleBuffer.held_length, shaped.available]
    rfl
  refine ⟨rfl, shaped, ?_, fun _ => rfl, fun _ => ⟨rfl, rfl, rfl, ?_, ?_, ?_, ?_⟩, fun _ => ⟨?_, ?_, ?_⟩⟩
  · rw [transfer]
    rfl
  · intro flight some
    cases transfer.symm.trans some
  · intro bytes member
    cases member
  · rw [inFlight, transfer, empty]
    rfl
  · intro front zeros back impossible
    cases front <;> cases impossible
  · intro flight some
    cases transfer.symm.trans some
  · rw [empty]
    rfl
  · intro impossible
    cases impossible

private theorem inFlight_none (free : stream.i2s.transfer = none) : stream.inFlight = [] := by
  rw [inFlight, free]

theorem inFlight_congr {after : Stream} (same : after.i2s.transfer = stream.i2s.transfer)
    (stored : ∀ transfer, stream.i2s.transfer = some transfer → ∀ i, i < transfer.count →
      after.i2s.buffer.storage (transfer.base + i) = stream.i2s.buffer.storage (transfer.base + i)) :
    after.inFlight = stream.inFlight := by
  unfold inFlight
  rw [same]
  cases flight : stream.i2s.transfer with
  | none => rfl
  | some transfer => exact Memory.slice_congr (stored transfer flight)

/-- When the DMA is free, what the calls have written goes out whole. -/
theorem Kept.send (kept : Kept stream) (free : stream.i2s.transfer = none) (direction : stream.i2s.direction = .sending)
    (some : stream.i2s.buffer.available ≠ 0) (words : stream.i2s.buffer.available % 4 = 0) :
    Kept { stream with i2s :=
      { stream.i2s with buffer := stream.i2s.buffer.swap 0 }.handleDataDma false (stream.i2s.buffer.available / 4) } := by
  have shaped := kept.shaped
  have sending := kept.sending (by simp [direction])
  have count : 4 * (stream.i2s.buffer.available / 4) = stream.i2s.buffer.available := by omega
  have fits : stream.i2s.buffer.available ≤ stream.i2s.buffer.capacity := by
    rw [shaped.available]
    exact Nat.le_trans (Nat.sub_le _ _) shaped.fits
  have storage : (stream.i2s.buffer.swap 0).storage = stream.i2s.buffer.storage := by
    simp only [I2sDoubleBuffer.swap, shaped.allocated, if_true]
  have capacity : (stream.i2s.buffer.swap 0).capacity = stream.i2s.buffer.capacity := by
    simp only [I2sDoubleBuffer.swap, shaped.allocated, if_true]
  have fresh : (stream.i2s.buffer.swap 0).consumed = 0 := by
    simp only [I2sDoubleBuffer.swap, shaped.allocated, if_true]
  have empty : (stream.i2s.buffer.swap 0).held = [] := by
    apply List.eq_nil_of_length_eq_zero
    rw [I2sDoubleBuffer.held_length, (shaped.swap 0).available]
    simp [I2sDoubleBuffer.swap, shaped.allocated]
  have out : slice stream.i2s.buffer.storage stream.i2s.buffer.slot stream.i2s.buffer.available =
      stream.i2s.buffer.held := by
    rw [I2sDoubleBuffer.held, I2sDoubleBuffer.peek, sending.unread, Nat.add_zero, Nat.min_self]
  refine ⟨kept.ready, shaped.swap 0, rfl, fun idle => (by cases direction.symm.trans idle), fun _ => ⟨sending.calm, fresh, sending.unfilled, ?_, sending.whole, ?_,
    sending.padded⟩, fun other => absurd direction other⟩
  · rintro transfer ⟨⟩
    refine ⟨rfl, rfl, ?_, ?_, ?_, fun i value impossible => (by cases impossible)⟩
    · rw [count]
      exact some
    · rw [count]
      exact Nat.le_trans fits (Nat.le_of_eq capacity.symm)
    · rw [count]
      exact words
  · have before := sending.order
    rw [inFlight_none free, List.nil_append] at before
    simp only [inFlight, I2sClass.handleDataDma, empty, List.append_nil, storage, shaped.swap_data, count, out]
    exact before

private theorem Kept.fill (kept : Kept stream) (direction : stream.i2s.direction = .receiving) (empty : stream.waiting = []) :
    Kept { stream with i2s := stream.i2s.handleDataDma true (stream.i2s.buffer.capacity / 4) } := by
  have shaped := kept.shaped
  have receiving := kept.receiving (by simp [direction])
  have words := shaped.words
  have count : 4 * (stream.i2s.buffer.capacity / 4) = stream.i2s.buffer.capacity := by omega
  have idle : stream.i2s.received = false := by
    apply eq_false_of_ne_true
    intro received
    have length := congrArg List.length empty
    rw [waiting, if_pos received, Nor.slice_length] at length
    have room := shaped.room
    simp only [List.length_nil] at length
    omega
  refine ⟨kept.ready, shaped, rfl, kept.quiet, fun other => absurd direction other, fun _ => ⟨?_, receiving.order, receiving.sample⟩⟩
  rintro transfer ⟨⟩
  exact ⟨rfl, rfl, count, idle, fun i value impossible => (by cases impossible)⟩

/-- A waiting fill becomes what the calls read once the other slot is read out. -/
theorem Kept.turn (kept : Kept stream) (free : stream.i2s.transfer = none) (direction : stream.i2s.direction = .receiving)
    (received : stream.i2s.received = true) (empty : stream.i2s.buffer.available = 0) :
    Kept { stream with i2s :=
      { stream.i2s with buffer := stream.i2s.buffer.swap stream.i2s.buffer.capacity, received := false } } := by
  have shaped := kept.shaped
  have receiving := kept.receiving (by simp [direction])
  have turned := shaped.swap stream.i2s.buffer.capacity
  have storage : (stream.i2s.buffer.swap stream.i2s.buffer.capacity).storage = stream.i2s.buffer.storage := by
    simp only [I2sDoubleBuffer.swap, shaped.allocated, if_true]
  have fresh : (stream.i2s.buffer.swap stream.i2s.buffer.capacity).consumed = 0 := by
    simp only [I2sDoubleBuffer.swap, shaped.allocated, if_true]
  have full : (stream.i2s.buffer.swap stream.i2s.buffer.capacity).available = stream.i2s.buffer.capacity := by
    rw [turned.available, fresh]
    simp only [I2sDoubleBuffer.swap, shaped.allocated, if_true, Nat.min_self, Nat.sub_zero]
  have readOut : stream.i2s.buffer.held = [] := by
    apply List.eq_nil_of_length_eq_zero
    rw [I2sDoubleBuffer.held_length, empty]
  have held : (stream.i2s.buffer.swap stream.i2s.buffer.capacity).held = stream.waiting := by
    rw [waiting, if_pos received, I2sDoubleBuffer.held, I2sDoubleBuffer.peek, full, Nat.min_self, fresh, Nat.add_zero,
      shaped.swap_slot, storage]
  refine ⟨kept.ready, turned, kept.busy, fun idle => (by cases direction.symm.trans idle), fun other => absurd direction other, fun _ => ⟨?_, ?_, ?_⟩⟩
  · intro transfer some
    cases free.symm.trans some
  · have before := receiving.order
    rw [readOut, List.nil_append] at before
    simp only [waiting, Bool.false_eq_true, if_false, List.append_nil, held]
    exact before
  · intro sampling
    have many := (receiving.sample sampling).2
    have positive := stream.i2s.width_pos
    omega

theorem Kept.service (kept : Kept stream) : Kept { stream with i2s := stream.i2s.service } := by
  unfold I2sClass.service
  split
  next => exact kept
  next active =>
    simp only [not_or, Bool.not_eq_true] at active
    obtain ⟨_, idle, chosen⟩ := active
    have free : stream.i2s.transfer = none := by
      have busy := kept.busy
      rw [idle] at busy
      exact Option.not_isSome_iff_eq_none.mp (by simp [← busy])
    split
    next direction =>
      dsimp only
      split
      next => exact kept
      next whole =>
        simp only [not_or, Decidable.not_not] at whole
        exact kept.send free direction whole.1 whole.2
    next other =>
      have direction : stream.i2s.direction = .receiving := by
        cases case : stream.i2s.direction with
        | idle => exact absurd case chosen
        | sending => exact absurd case other
        | receiving => rfl
      split
      next received =>
        split
        next => exact kept
        next empty =>
          have turned := kept.turn free direction received (by omega)
          have capacity : (stream.i2s.buffer.swap stream.i2s.buffer.capacity).capacity = stream.i2s.buffer.capacity := by
            simp only [I2sDoubleBuffer.swap, kept.shaped.allocated, if_true]
          have filled := turned.fill direction (if_neg (by simp))
          simp only [capacity] at filled
          exact filled
      next unfilled => exact kept.fill direction (if_neg unfilled)

/-- A call is refused, or the object has its direction from then on. -/
theorem Kept.select (kept : Kept stream) {direction : Direction} (chosen : direction ≠ .idle) :
    (stream.i2s.select direction = none ∧ stream.i2s.direction ≠ .idle ∧ stream.i2s.direction ≠ direction) ∨
      (stream.i2s.select direction = some { stream.i2s with direction } ∧
        Kept { stream with i2s := { stream.i2s with direction } }) := by
  unfold I2sClass.select
  split
  next refused =>
    refine .inl ⟨rfl, ?_⟩
    rcases refused with unready | different
    · cases unready.symm.trans kept.ready
    · exact different
  next accepted =>
    simp only [not_or, not_and, Decidable.not_not] at accepted
    refine .inr ⟨rfl, kept.ready, kept.shaped, kept.busy, fun idle => absurd idle chosen, fun other => ?_, fun other => ?_⟩
    · have before := kept.sending fun receiving => other (accepted.2 (by simp [receiving]) ▸ receiving)
      exact ⟨before.calm, before.unread, before.unfilled, before.flight, before.whole, before.order, before.padded⟩
    · have before := kept.receiving fun sending => other (accepted.2 (by simp [sending]) ▸ sending)
      refine ⟨before.flight, before.order, fun sampling => ?_⟩
      have now := before.sample sampling
      exact ⟨(accepted.2 (by simp [now.1])).symm.trans now.1, now.2⟩

end Stream
end ArduinoK210.I2s
