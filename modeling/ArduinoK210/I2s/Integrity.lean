import ArduinoK210.I2s.Calls

/-! The DMA keeps what an `I2SClass` promises, and with the calls it does so over whole
runs. -/

namespace ArduinoK210.I2s

open Nor (slice)

namespace Stream

variable {stream : Stream}

/-- The kind of a transfer tells the direction. -/
theorem Kept.flight (kept : Kept stream) {transfer : Transfer} (flight : stream.i2s.transfer = some transfer) :
    (transfer.filling = false ∧ stream.i2s.direction = .sending) ∨
      (transfer.filling = true ∧ stream.i2s.direction = .receiving) := by
  cases direction : stream.i2s.direction with
  | idle =>
    have out := ((kept.sending (by simp [direction])).flight transfer flight).1
    have into := ((kept.receiving (by simp [direction])).flight transfer flight).1
    cases out.symm.trans into
  | sending => exact .inl ⟨((kept.sending (by simp [direction])).flight transfer flight).1, rfl⟩
  | receiving => exact .inr ⟨((kept.receiving (by simp [direction])).flight transfer flight).1, rfl⟩

private theorem Kept.accessOut (kept : Kept stream) {transfer : Transfer} (flight : stream.i2s.transfer = some transfer)
    (direction : stream.i2s.direction = .sending) {index : Nat} (inside : index < transfer.count) :
    Kept { stream with i2s := { stream.i2s with
      transfer := some (transfer.move index (stream.i2s.buffer.storage (transfer.base + index))) } } := by
  have sending := kept.sending (by simp [direction])
  obtain ⟨kind, base, nonempty, fits, words, seen⟩ := sending.flight transfer flight
  have busy : stream.i2s.busy = true := by rw [kept.busy, flight, Option.isSome_some]
  refine ⟨kept.ready, kept.shaped, busy, kept.quiet, fun _ => ⟨sending.calm, sending.unread, sending.unfilled, ?_,
    sending.whole, ?_, sending.padded⟩, fun other => absurd direction other⟩
  · rintro _ ⟨⟩
    refine ⟨kind, base, nonempty, fits, words, fun i value moved => ?_⟩
    rcases Transfer.move_seen moved with ⟨rfl, found⟩ | ⟨_, earlier⟩
    · exact ⟨inside, found⟩
    · exact seen i value earlier
  · have before := sending.order
    rw [inFlight, flight] at before
    exact before

private theorem Kept.accessIn (kept : Kept stream) {transfer : Transfer} (flight : stream.i2s.transfer = some transfer)
    (direction : stream.i2s.direction = .receiving) {index : Nat} (inside : index < transfer.count) (value : UInt8) :
    Kept { stream with i2s := { stream.i2s with
      buffer := stream.i2s.buffer.store (transfer.base + index) value
      transfer := some (transfer.move index value) } } := by
  have receiving := kept.receiving (by simp [direction])
  obtain ⟨kind, base, size, unfilled, seen⟩ := receiving.flight transfer flight
  have busy : stream.i2s.busy = true := by rw [kept.busy, flight, Option.isSome_some]
  have held := kept.shaped.held_store value (size ▸ inside)
  refine ⟨kept.ready, kept.shaped.store _ value, busy, kept.quiet, fun other => absurd direction other,
    fun _ => ⟨?_, ?_, receiving.sample⟩⟩
  · rintro _ ⟨⟩
    refine ⟨kind, base, size, unfilled, fun i found moved => ?_⟩
    rcases Transfer.move_seen moved with ⟨rfl, same⟩ | ⟨different, earlier⟩
    · exact ⟨inside, (Function.update_self _ _ _).trans same⟩
    · obtain ⟨within, stored⟩ := seen i found earlier
      have apart : transfer.base + i ≠ transfer.base + index := by omega
      exact ⟨within, (Function.update_of_ne apart _ _).trans stored⟩
  · have before := receiving.order
    simp only [waiting, unfilled, Bool.false_eq_true, if_false, List.append_nil] at before ⊢
    rw [base, held]
    exact before

private theorem Kept.access (kept : Kept stream) (index : Nat) (value : UInt8) :
    Kept { stream with i2s := stream.i2s.access index value } := by
  unfold I2sClass.access
  split
  next => exact kept
  next transfer flight =>
    split
    next => exact kept
    next inside =>
      have within : index < transfer.count := Nat.lt_of_not_le inside
      rcases kept.flight flight with ⟨out, direction⟩ | ⟨into, direction⟩
      · rw [if_neg (by simp [out])]
        exact kept.accessOut flight direction within
      · rw [if_pos into]
        exact kept.accessIn flight direction within value

theorem Seen.moved {transfer : Transfer} (seen : stream.Seen transfer) (done : transfer.Done) :
    transfer.moved = slice stream.i2s.buffer.storage transfer.base transfer.count := by
  apply List.map_congr_left
  intro i member
  obtain ⟨value, found⟩ := Option.isSome_iff_exists.mp (done i (List.mem_range.mp member))
  rw [found]
  exact (seen i value found).2.symm

private theorem Kept.completeOut (kept : Kept stream) {transfer : Transfer} (flight : stream.i2s.transfer = some transfer)
    (done : transfer.Done) (direction : stream.i2s.direction = .sending) :
    Kept { stream with
      i2s := { stream.i2s with transfer := none, busy := false, received := false }
      sent := stream.sent ++ [transfer.moved] } := by
  have sending := kept.sending (by simp [direction])
  obtain ⟨_, _, nonempty, _, words, seen⟩ := sending.flight transfer flight
  have moved := seen.moved done
  have length : transfer.moved.length = transfer.count := by rw [moved, Nor.slice_length]
  refine ⟨kept.ready, kept.shaped, rfl, kept.quiet, fun _ => ⟨sending.calm, sending.unread, rfl, ?_, ?_, ?_,
    sending.padded⟩, fun other => absurd direction other⟩
  · rintro _ ⟨⟩
  · intro bytes member
    rcases List.mem_append.mp member with earlier | last
    · exact sending.whole bytes earlier
    · rw [List.mem_singleton.mp last]
      refine ⟨?_, length ▸ words⟩
      intro empty
      rw [empty] at length
      exact nonempty length.symm
  · have before := sending.order
    rw [inFlight, flight] at before
    simpa [inFlight, enteredBytes, moved] using before

private theorem Kept.completeIn (kept : Kept stream) {transfer : Transfer} (flight : stream.i2s.transfer = some transfer)
    (done : transfer.Done) (direction : stream.i2s.direction = .receiving) :
    Kept { stream with
      i2s := { stream.i2s with transfer := none, busy := false, received := true }
      fills := stream.fills ++ [transfer.moved] } := by
  have receiving := kept.receiving (by simp [direction])
  obtain ⟨_, base, size, unfilled, seen⟩ := receiving.flight transfer flight
  have moved := seen.moved done
  refine ⟨kept.ready, kept.shaped, rfl, kept.quiet, fun other => absurd direction other,
    fun _ => ⟨?_, ?_, receiving.sample⟩⟩
  · rintro _ ⟨⟩
  · have before := receiving.order
    rw [waiting, if_neg (by simp [unfilled]), List.append_nil] at before
    simp only [waiting, if_true, List.flatten_append, List.flatten_singleton, moved, base, size, before]
    exact List.append_assoc _ _ _

private theorem Kept.complete (kept : Kept stream) : Kept stream.complete := by
  unfold Stream.complete
  split
  next => exact kept
  next transfer flight =>
    split
    next done =>
      have ready : ¬ stream.i2s.ready = false := by simp [kept.ready]
      simp only [I2sClass.onTransferComplete, if_neg ready]
      rcases kept.flight flight with ⟨out, direction⟩ | ⟨into, direction⟩
      · rw [if_neg (by simp [out])]
        simp only [direction, reduceCtorEq, decide_false]
        have completed := (kept.completeOut flight done direction).service
        simp only [direction] at completed
        exact completed
      · rw [if_pos into]
        simp only [direction, decide_true]
        have completed := (kept.completeIn flight done direction).service
        simp only [direction] at completed
        exact completed
    next => exact kept

private theorem Kept.call (kept : Kept stream) (calm : stream.sampling = false) (event : Event) : Kept (stream.call event) := by
  cases event with
  | setBufferSize size =>
    simp only [Stream.call, I2sClass.setBufferSize, kept.ready, if_true]
    exact kept
  | availableForWrite => exact kept.availableForWrite
  | write input => exact kept.write input
  | writeSample value => exact kept.write _
  | flush => exact kept.flush calm
  | available => exact kept.available
  | peek => exact kept.peek
  | read size => exact kept.read calm size
  | readSample => exact kept.readSample
  | access index value => exact kept
  | complete => exact kept

private theorem Kept.step (kept : Kept stream) (event : Event) : Kept (step event stream) := by
  have task : Kept (if stream.sampling then stream.finishSample else stream.call event) := by
    split
    next sampling => exact kept.finishSample sampling
    next calm => exact kept.call (eq_false_of_ne_true calm) event
  cases event with
  | access index value => exact kept.access index value
  | complete => exact kept.complete
  | _ => exact task

private theorem call_storage (stream : Stream) (event : Event) :
    (stream.call event).i2s.buffer.storage = stream.i2s.buffer.storage ∨ (stream.i2s.direction ≠ .receiving ∧
      ∃ input, (stream.call event).i2s.buffer.storage = (stream.i2s.buffer.write input).2.storage) := by
  cases event with
  | setBufferSize size =>
    refine .inl ?_
    simp only [call, I2sClass.setBufferSize, I2sDoubleBuffer.setSize]
    split
    next => rfl
    next => split <;> rfl
  | availableForWrite => exact .inl (I2sClass.availableForWrite_storage _)
  | write input => exact (I2sClass.write_storage _ input).imp_right fun written => ⟨written.1, input, written.2⟩
  | writeSample value => exact (I2sClass.write_storage _ _).imp_right fun written => ⟨written.1, _, written.2⟩
  | flush =>
    simp only [call, flush]
    split
    next => exact I2sClass.flush_storage _
    next => exact I2sClass.flush_storage _
  | available => exact .inl (I2sClass.available_storage _)
  | peek => exact .inl (I2sClass.peek_storage _)
  | read size => exact .inl (I2sClass.read_storage _ size)
  | readSample => exact .inl (I2sClass.available_storage _)
  | access index value => exact .inl rfl
  | complete => exact .inl rfl

private theorem finishSample_storage (stream : Stream) : stream.finishSample.i2s.buffer.storage = stream.i2s.buffer.storage := by
  unfold finishSample
  dsimp only
  split
  next => exact I2sClass.read_storage _ _
  next => exact I2sClass.read_storage _ _

private theorem complete_storage (stream : Stream) : stream.complete.i2s.buffer.storage = stream.i2s.buffer.storage := by
  unfold complete
  split
  next => rfl
  next =>
    split
    next =>
      split
      next => exact I2sClass.onTransferComplete_storage _
      next => exact I2sClass.onTransferComplete_storage _
    next => rfl

/-- A step leaves alone the slot that the DMA sends from, and the slot that the calls
read from. -/
structure Undisturbed (event : Event) (stream : Stream) : Prop where
  sending : ∀ transfer, stream.i2s.transfer = some transfer → stream.i2s.direction = .sending →
    ∀ i, i < stream.i2s.buffer.capacity →
      (step event stream).i2s.buffer.storage (transfer.base + i) = stream.i2s.buffer.storage (transfer.base + i)
  receiving : stream.i2s.direction = .receiving → ∀ i, i < stream.i2s.buffer.capacity →
    (step event stream).i2s.buffer.storage (stream.i2s.buffer.slot + i) =
      stream.i2s.buffer.storage (stream.i2s.buffer.slot + i)

private theorem Undisturbed.of_same {event : Event}
    (same : (step event stream).i2s.buffer.storage = stream.i2s.buffer.storage) : Undisturbed event stream :=
  ⟨fun _ _ _ _ _ => congrFun same _, fun _ _ _ => congrFun same _⟩

private theorem Kept.undisturbed (kept : Kept stream) (event : Event) : Undisturbed event stream := by
  have task : (Stream.step event stream = if stream.sampling then stream.finishSample else stream.call event) →
      Undisturbed event stream := by
    intro taken
    split at taken
    next => exact .of_same (taken ▸ stream.finishSample_storage)
    next =>
      rcases stream.call_storage event with same | ⟨sends, input, written⟩
      · exact .of_same (taken ▸ same)
      · refine ⟨fun transfer flight direction i inside => ?_, fun direction => absurd direction sends⟩
        rw [taken, written, ((kept.sending sends).flight transfer flight).2.1]
        exact kept.shaped.write_apart input inside
  cases event with
  | complete => exact .of_same stream.complete_storage
  | access index value =>
    cases flight : stream.i2s.transfer with
    | none => exact .of_same (by simp only [Stream.step, I2sClass.access, flight])
    | some transfer =>
      by_cases outside : transfer.count ≤ index
      · exact .of_same (by simp only [Stream.step, I2sClass.access, flight, if_pos outside])
      · rcases kept.flight flight with ⟨out, direction⟩ | ⟨into, direction⟩
        · exact .of_same (by simp only [Stream.step, I2sClass.access, flight, if_neg outside, out, Bool.false_eq_true, if_false])
        · obtain ⟨_, base, size, _⟩ := (kept.receiving (by simp [direction])).flight transfer flight
          refine ⟨fun _ _ sends => ?_, fun _ i inside => ?_⟩
          · cases direction.symm.trans sends
          · simp only [Stream.step, I2sClass.access, flight, if_neg outside, if_pos into, base]
            exact kept.shaped.store_apart value (by omega) inside
  | _ => exact task rfl

/-- What the transfers have moved and the calls have taken, in either direction. -/
structure Intact (stream : Stream) : Prop where
  sent : stream.i2s.direction = .sending → stream.sent.flatten <+: stream.enteredBytes
  sending : ∀ transfer, stream.i2s.transfer = some transfer → stream.i2s.direction = .sending →
    ∀ i value, transfer.seen i = some value → stream.enteredBytes[stream.sent.flatten.length + i]? = some value
  padded : stream.i2s.direction = .sending → Padded stream.entered
  words : stream.i2s.direction = .sending → ∀ bytes ∈ stream.sent, bytes ≠ [] ∧ bytes.length % 4 = 0
  flight : ∀ transfer, stream.i2s.transfer = some transfer → transfer.count ≠ 0 ∧ transfer.count % 4 = 0
  taken : stream.i2s.direction = .receiving →
    stream.fills.flatten = stream.takenBytes ++ (stream.i2s.buffer.held ++ stream.waiting)

private theorem Kept.intact (kept : Kept stream) : Intact stream := by
  refine ⟨fun direction => ?_, fun transfer flight direction i value seen => ?_, fun direction => ?_, fun direction => ?_,
    fun transfer flight => ?_, fun direction => ?_⟩
  · rw [(kept.sending (by simp [direction])).order]
    exact List.prefix_append _ _
  · have sending := kept.sending (by simp [direction])
    obtain ⟨inside, found⟩ := (sending.flight transfer flight).2.2.2.2.2 i value seen
    have first : stream.inFlight[i]? = some value := by
      rw [inFlight, flight]
      simp only [Nor.slice_getElem?, if_pos inside, found]
    rw [sending.order, List.getElem?_append_right (Nat.le_add_right _ _), Nat.add_sub_cancel_left]
    rw [List.getElem?_append_left (List.getElem?_eq_some_iff.mp first).1]
    exact first
  · exact (kept.sending (by simp [direction])).padded
  · exact (kept.sending (by simp [direction])).whole
  · rcases kept.flight flight with ⟨_, direction⟩ | ⟨_, direction⟩
    · obtain ⟨_, _, nonempty, _, words, _⟩ := (kept.sending (by simp [direction])).flight transfer flight
      exact ⟨nonempty, words⟩
    · obtain ⟨_, _, size, _⟩ := (kept.receiving (by simp [direction])).flight transfer flight
      have room := kept.shaped.room
      exact ⟨by omega, size ▸ kept.shaped.words⟩
  · exact (kept.receiving (by simp [direction])).order

/-- No order of calls, DMA accesses and completions loses, repeats or overwrites a byte. -/
theorem i2s_stream_intact (sizes : List Int) (bits : Nat) (fresh : Nat → UInt8) (events : List Event) :
    let stream := Run.run step events (start sizes bits fresh)
    Intact stream ∧ ∀ event, Undisturbed event stream := by
  have kept : Kept (Run.run step events (start sizes bits fresh)) := by
    apply Run.invariant
    · exact fun event _ before => Kept.step before event
    · exact start_kept sizes bits fresh
  exact ⟨kept.intact, kept.undisturbed⟩

end Stream
end ArduinoK210.I2s
