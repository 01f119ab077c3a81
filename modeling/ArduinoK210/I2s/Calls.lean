import ArduinoK210.I2s.Stream

/-! The guarded sections of the calls keep what an `I2SClass` promises. -/

namespace ArduinoK210.I2s

namespace Stream

variable {stream : Stream}

private theorem Padded.append {entered : List Entry} (padded : Padded entered) {entry : Entry}
    (last : ∀ zeros, entry = .padding zeros → zeros < 4 ∧ ((entered.flatMap Entry.bytes).length + zeros) % 4 = 0) :
    Padded (entered ++ [entry]) := by
  intro front zeros back same
  rcases List.eq_nil_or_concat back with nil | ⟨rest, final, concat⟩
  · rw [nil] at same
    obtain ⟨fronts, entries⟩ := List.append_inj' same rfl
    exact fronts ▸ last zeros (List.cons.inj entries).1
  · rw [concat, List.concat_eq_append, ← List.cons_append, ← List.append_assoc] at same
    obtain ⟨fronts, _⟩ := List.append_inj' same rfl
    exact padded front zeros rest fronts

theorem Sending.entered_mod (sending : stream.Sending) :
    stream.enteredBytes.length % 4 = stream.i2s.buffer.available % 4 := by
  have sent : ∀ buffers : List (List UInt8), (∀ bytes ∈ buffers, bytes ≠ [] ∧ bytes.length % 4 = 0) →
      buffers.flatten.length % 4 = 0 := by
    intro buffers whole
    induction buffers with
    | nil => rfl
    | cons bytes rest ih =>
      have first := (whole bytes List.mem_cons_self).2
      have later := ih fun bytes member => whole bytes (List.mem_cons_of_mem _ member)
      rw [List.flatten_cons, List.length_append]
      omega
  have flight : stream.inFlight.length % 4 = 0 := by
    unfold inFlight
    split
    next => rfl
    next transfer some =>
      rw [Nor.slice_length]
      exact (sending.flight transfer some).2.2.2.2.1
  have before := sent stream.sent sending.whole
  rw [sending.order, List.length_append, List.length_append, I2sDoubleBuffer.held_length]
  omega

theorem Kept.enter (kept : Kept stream) (direction : stream.i2s.direction = .sending) (input : List UInt8) (entry : Entry)
    (bytes : entry.bytes = input.take (stream.i2s.buffer.write input).1)
    (last : ∀ zeros, entry = .padding zeros → zeros < 4 ∧ (stream.enteredBytes.length + zeros) % 4 = 0) :
    Kept { stream with
      i2s := { stream.i2s with buffer := (stream.i2s.buffer.write input).2 }
      entered := stream.entered ++ [entry] } := by
  have shaped := kept.shaped
  have sending := kept.sending (by simp [direction])
  have flight : ∀ transfer, stream.i2s.transfer = some transfer → ∀ i, i < transfer.count →
      (stream.i2s.buffer.write input).2.storage (transfer.base + i) = stream.i2s.buffer.storage (transfer.base + i) := by
    intro transfer some i inside
    have known := sending.flight transfer some
    rw [known.2.1]
    exact shaped.write_apart input (Nat.lt_of_lt_of_le inside known.2.2.2.1)
  refine ⟨kept.ready, shaped.write input, kept.busy, fun idle => (nomatch direction.symm.trans idle), fun _ => ⟨sending.calm, sending.unread, sending.unfilled, ?_,
    sending.whole, ?_, sending.padded.append last⟩, fun other => absurd direction other⟩
  · intro transfer some
    obtain ⟨kind, base, nonempty, fits, words, seen⟩ := sending.flight transfer some
    refine ⟨kind, base, nonempty, fits, words, fun i value moved => ?_⟩
    obtain ⟨inside, found⟩ := seen i value moved
    exact ⟨inside, (flight transfer some i inside).trans found⟩
  · calc
      (stream.entered ++ [entry]).flatMap Entry.bytes = stream.enteredBytes ++ entry.bytes := by
        simp [enteredBytes]
      _ = stream.sent.flatten ++ (stream.inFlight ++ (stream.i2s.buffer.write input).2.held) := by
        rw [sending.order, bytes, shaped.held_write]
        simp only [List.append_assoc]
      _ = _ := by
        congr 2
        apply Eq.symm
        apply inFlight_congr
        · rfl
        · exact flight

theorem Kept.pad_nothing (kept : Kept stream) (words : stream.i2s.direction ≠ .receiving → stream.i2s.buffer.available % 4 = 0) :
    Kept { stream with entered := stream.entered ++ [.padding 0] } := by
  refine ⟨kept.ready, kept.shaped, kept.busy, kept.quiet, fun other => ?_, fun other => ?_⟩
  · have sending := kept.sending other
    refine ⟨sending.calm, sending.unread, sending.unfilled, sending.flight, sending.whole, ?_, sending.padded.append ?_⟩
    · simpa [enteredBytes, Entry.bytes, inFlight] using sending.order
    · rintro zeros ⟨⟩
      exact ⟨by omega, sending.entered_mod.trans (words other)⟩
  · have receiving := kept.receiving other
    exact ⟨receiving.flight, receiving.order, receiving.sample⟩

private theorem Kept.write_nothing (kept : Kept stream) : Kept { stream with entered := stream.entered ++ [.written []] } := by
  refine ⟨kept.ready, kept.shaped, kept.busy, kept.quiet, fun other => ?_, fun other => ?_⟩
  · have sending := kept.sending other
    refine ⟨sending.calm, sending.unread, sending.unfilled, sending.flight, sending.whole, ?_, sending.padded.append ?_⟩
    · simpa [enteredBytes, Entry.bytes, inFlight] using sending.order
    · intro zeros impossible
      cases impossible
  · have receiving := kept.receiving other
    exact ⟨receiving.flight, receiving.order, receiving.sample⟩

theorem Kept.write (kept : Kept stream) (input : List UInt8) : Kept (stream.write input) := by
  by_cases empty : input = []
  · simpa [Stream.write, I2sClass.write, empty] using kept.write_nothing
  · rcases kept.select Direction.sending_chosen with ⟨refused, _⟩ | ⟨selected, sending⟩
    · simpa [Stream.write, I2sClass.write, empty, refused] using kept.write_nothing
    · simp only [Stream.write, I2sClass.write, if_neg empty, selected]
      exact (sending.enter rfl input (.written _) rfl fun zeros impossible => (nomatch impossible)).service

theorem Kept.take (kept : Kept stream) (direction : stream.i2s.direction = .receiving) (size : Nat) (entry : Taken)
    (bytes : entry.bytes = (stream.i2s.buffer.read size).1) (calm : stream.sampling = false) :
    Kept { stream with
      i2s := { stream.i2s with buffer := (stream.i2s.buffer.read size).2 }
      taken := stream.taken ++ [entry] } := by
  have receiving := kept.receiving (by simp [direction])
  refine ⟨kept.ready, kept.shaped.read size, kept.busy, kept.quiet, fun other => absurd direction other,
    fun _ => ⟨receiving.flight, ?_, fun sampling => ?_⟩⟩
  · calc
      stream.fills.flatten = stream.takenBytes ++ (stream.i2s.buffer.held ++ stream.waiting) := receiving.order
      _ = (stream.taken ++ [entry]).flatMap Taken.bytes ++ ((stream.i2s.buffer.read size).2.held ++ stream.waiting) := by
        rw [kept.shaped.held_read size, ← bytes]
        simp [takenBytes]
  · cases calm.symm.trans sampling

private theorem Kept.discard (kept : Kept stream) (direction : stream.i2s.direction = .receiving) (calm : stream.sampling = false) :
    Kept { stream with
      i2s := { stream.i2s with buffer := stream.i2s.buffer.flush }
      taken := stream.taken ++ [.discarded stream.i2s.buffer.held] } := by
  have receiving := kept.receiving (by simp [direction])
  have empty : stream.i2s.buffer.flush.held = [] := by
    apply List.eq_nil_of_length_eq_zero
    rw [I2sDoubleBuffer.held_length, kept.shaped.flush.available]
    rfl
  refine ⟨kept.ready, kept.shaped.flush, kept.busy, fun _ => rfl, fun other => absurd direction other,
    fun _ => ⟨receiving.flight, ?_, fun sampling => ?_⟩⟩
  · calc
      stream.fills.flatten = stream.takenBytes ++ (stream.i2s.buffer.held ++ stream.waiting) := receiving.order
      _ = (stream.taken ++ [Taken.discarded stream.i2s.buffer.held]).flatMap Taken.bytes ++
          (stream.i2s.buffer.flush.held ++ stream.waiting) := by
        rw [empty]
        simp [takenBytes, Taken.bytes]
  · cases calm.symm.trans sampling

private theorem Kept.take_nothing (kept : Kept stream) : Kept { stream with taken := stream.taken ++ [.returned []] } := by
  refine ⟨kept.ready, kept.shaped, kept.busy, kept.quiet, fun other => ?_, fun other => ?_⟩
  · have sending := kept.sending other
    exact ⟨sending.calm, sending.unread, sending.unfilled, sending.flight, sending.whole, sending.order, sending.padded⟩
  · have receiving := kept.receiving other
    refine ⟨receiving.flight, ?_, receiving.sample⟩
    simpa [takenBytes, Taken.bytes, waiting] using receiving.order

theorem Kept.flush (kept : Kept stream) (calm : stream.sampling = false) : Kept stream.flush := by
  unfold Stream.flush I2sClass.flush
  have ready : ¬ stream.i2s.ready = false := by simp [kept.ready]
  simp only [if_neg ready]
  by_cases receiving : stream.i2s.direction = .receiving
  · simp only [if_pos receiving]
    exact (kept.discard receiving calm).service
  · simp only [if_neg receiving]
    split
    next remainder =>
      have sending := kept.sending receiving
      have mod := sending.entered_mod
      have fits := kept.shaped.fits
      have words := kept.shaped.words
      have available : stream.i2s.buffer.available = stream.i2s.buffer.used := by
        rw [kept.shaped.available, sending.unread, Nat.sub_zero]
      have direction : stream.i2s.direction = .sending := by
        cases case : stream.i2s.direction with
        | idle =>
          have empty := kept.quiet case
          omega
        | sending => rfl
        | receiving => exact absurd case receiving
      have all : (stream.i2s.buffer.write (List.replicate (4 - stream.i2s.buffer.available % 4) 0)).1 =
          4 - stream.i2s.buffer.available % 4 := by
        simp only [I2sDoubleBuffer.write, List.length_replicate, kept.shaped.availableForWrite]
        omega
      have entered := kept.enter direction (List.replicate (4 - stream.i2s.buffer.available % 4) 0)
        (.padding (4 - stream.i2s.buffer.available % 4)) (by simp [all, Entry.bytes]) (by
          rintro zeros ⟨⟩
          omega)
      simp only [all]
      exact entered.service
    next whole =>
      have words : stream.i2s.buffer.available % 4 = 0 := Decidable.not_not.mp whole
      exact (kept.pad_nothing fun _ => words).service

theorem Kept.read (kept : Kept stream) (calm : stream.sampling = false) (size : Nat) : Kept (stream.read size) := by
  unfold Stream.read I2sClass.read
  rcases kept.select Direction.receiving_chosen with ⟨refused, _⟩ | ⟨selected, receiving⟩
  · simp only [refused]
    exact kept.take_nothing
  · simp only [selected]
    exact (receiving.service.take (I2sClass.service_serves _).direction size (.returned _) rfl calm).service

theorem Kept.available (kept : Kept stream) : Kept { stream with i2s := stream.i2s.available.2 } := by
  unfold I2sClass.available
  rcases kept.select Direction.receiving_chosen with ⟨refused, _⟩ | ⟨selected, receiving⟩
  · simp only [refused]
    exact kept
  · simp only [selected]
    exact receiving.service

theorem Kept.peek (kept : Kept stream) : Kept { stream with i2s := stream.i2s.peek.2 } := by
  unfold I2sClass.peek
  rcases kept.select Direction.receiving_chosen with ⟨refused, _⟩ | ⟨selected, receiving⟩
  · simp only [refused]
    exact kept
  · simp only [selected]
    exact receiving.service

theorem Kept.availableForWrite (kept : Kept stream) : Kept { stream with i2s := stream.i2s.availableForWrite.2 } := by
  unfold I2sClass.availableForWrite
  rcases kept.select Direction.sending_chosen with ⟨refused, _⟩ | ⟨selected, sending⟩
  · simp only [refused]
    exact kept
  · simp only [selected]
    exact sending

private theorem Kept.resample (kept : Kept stream) (sampling : Bool)
    (sample : sampling = true → stream.i2s.direction = .receiving ∧ stream.i2s.width ≤ stream.i2s.buffer.available) :
    Kept { stream with sampling } := by
  refine ⟨kept.ready, kept.shaped, kept.busy, kept.quiet, fun other => ?_, fun other => ?_⟩
  · have sending := kept.sending other
    refine ⟨eq_false_of_ne_true fun set => other (sample set).1, sending.unread, sending.unfilled, sending.flight,
      sending.whole, sending.order, sending.padded⟩
  · have receiving := kept.receiving other
    exact ⟨receiving.flight, receiving.order, sample⟩

theorem Kept.readSample (kept : Kept stream) : Kept stream.readSample := by
  have available := kept.available
  unfold Stream.readSample
  refine available.resample _ fun enough => ?_
  have count := of_decide_eq_true enough
  rcases kept.select Direction.receiving_chosen with ⟨refused, _⟩ | ⟨selected, _⟩
  · have positive := stream.i2s.width_pos
    simp only [I2sClass.available, refused] at count
    omega
  · have serves := ({ stream.i2s with direction := .receiving } : I2sClass).service_serves
    simp only [I2sClass.available, selected] at count ⊢
    refine ⟨serves.direction, ?_⟩
    rw [serves.width]
    exact count

/-- Between its two parts `read()` loses no byte of its sample. -/
theorem Kept.finishSample (kept : Kept stream) (sampling : stream.sampling = true) : Kept stream.finishSample := by
  have direction : stream.i2s.direction = .receiving := by
    cases case : stream.i2s.direction with
    | idle => cases (kept.sending (by simp [case])).calm.symm.trans sampling
    | sending => cases (kept.sending (by simp [case])).calm.symm.trans sampling
    | receiving => rfl
  rcases kept.select Direction.receiving_chosen with ⟨_, _, other⟩ | ⟨selected, receiving⟩
  · exact absurd direction other
  · have served := receiving.service
    have serves := ({ stream.i2s with direction := .receiving } : I2sClass).service_serves
    have enough := ((served.receiving (by simp [serves.direction])).sample sampling).2
    have calm := served.resample false fun impossible => (nomatch impossible)
    have taken := calm.take serves.direction stream.i2s.width (.returned _) rfl rfl
    have complete : (stream.i2s.read stream.i2s.width).1.length = stream.i2s.width := by
      simp only [I2sClass.read, selected, I2sDoubleBuffer.read, I2sDoubleBuffer.peek_length]
      rw [serves.width] at enough
      exact Nat.min_eq_left enough
    simp only [Stream.finishSample, complete, if_true]
    simp only [I2sClass.read, selected]
    exact taken.service

end Stream
end ArduinoK210.I2s
