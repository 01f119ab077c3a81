import ArduinoK210.Serial.RingBuffer

/-! The ring buffer is a bounded queue at every point where the two sides can be preempted. The bytes accepted and not yet
delivered are numbered; the slot of a number is its remainder, and no more than the capacity are open at once. -/

namespace ArduinoK210.Serial

/-- Numbers that are less than a round apart have different slots. -/
theorem slot_inj {N a b : Nat} (low : a ≤ b) (high : b < a + N) (same : a % N = b % N) : a = b := by
  have divides : N ∣ b - a := (Nat.modEq_iff_dvd' low).mp same
  have zero : b - a = 0 := Nat.eq_zero_of_dvd_of_lt divides (by omega)
  omega

private theorem next_slot (N a : Nat) : (a % N + 1) % N = (a + 1) % N := Nat.mod_add_mod a N 1

structure Fifo (N : Nat) (ring : RingBuffer) : Prop where
  bound : ring.accepted.length ≤ ring.delivered.length + N
  counted : ring.delivered.length + ring.consumer.waits + ring.producer.shift.uncounted ≤ ring.accepted.length
  count : ring.count = ring.accepted.length - ring.producer.shift.uncounted - ring.delivered.length
  write : ring.write = (ring.accepted.length - ring.producer.shift.uncounted + ring.producer.shift.ahead) % N
  read : ring.read = (ring.delivered.length + ring.consumer.moved) % N
  order : ring.delivered <+: ring.accepted
  data : ∀ k, ring.delivered.length ≤ k → k + ring.producer.shift.unstored < ring.accepted.length →
    ring.accepted[k]? = some (ring.data (k % N))
  live : ∀ slot, ring.live slot = true ↔
    ∃ k, ring.delivered.length + ring.consumer.loaded ≤ k ∧ k + ring.producer.shift.unstored < ring.accepted.length ∧ k % N = slot
  producer : match ring.producer with
    | .index value => ring.accepted[ring.accepted.length - 1]? = some value
    | .store value slot => ring.accepted[ring.accepted.length - 1]? = some value ∧ slot = ring.write
    | .advance slot => slot = ring.write
    | _ => True
  consumer : match ring.consumer with
    | .load _ slot => slot = ring.read
    | .reload value | .release value => ring.accepted[ring.delivered.length]? = some value
    | .advance value slot => ring.accepted[ring.delivered.length]? = some value ∧ slot = ring.read
    | _ => True

variable {N : Nat} {ring : RingBuffer}

private theorem Fifo.initial : Fifo N {} := by
  refine ⟨Nat.zero_le _, Nat.le_refl _, rfl, (Nat.zero_mod N).symm, (Nat.zero_mod N).symm, List.prefix_refl _, ?_, ?_, trivial, trivial⟩
  · intro k _ high
    exact absurd high (Nat.not_lt_zero _)
  · intro slot
    refine ⟨nofun, ?_⟩
    rintro ⟨k, _, high, _⟩
    exact absurd high (Nat.not_lt_zero _)

private theorem Fifo.store (fifo : Fifo N ring) (value : UInt8) (idle : ring.producer = .idle) :
    Fifo N { ring with producer := .check value } := by
  obtain ⟨bound, counted, count, write, read, order, data, live, _, consumer⟩ := fifo
  rw [idle] at counted count write data live
  exact ⟨bound, counted, count, write, read, order, data, live, trivial, consumer⟩

/-- A byte is accepted only while a slot is free. -/
theorem Fifo.accept (fifo : Fifo N ring) {value : UInt8} (here : ring.producer = .check value) (free : ring.count ≠ N) :
    Fifo N { ring with producer := .index value, accepted := ring.accepted ++ [value] } := by
  obtain ⟨bound, counted, count, write, read, order, data, live, _, consumer⟩ := fifo
  rw [here] at counted count write data live
  simp only [Producer.shift, Nat.cast_zero, sub_zero, Nat.add_zero, Nat.sub_zero] at counted count write data live
  have room : ring.accepted.length < ring.delivered.length + N := by omega
  have length : (ring.accepted ++ [value]).length = ring.accepted.length + 1 := by simp
  have early : ∀ k, k < ring.accepted.length → (ring.accepted ++ [value])[k]? = ring.accepted[k]? :=
    fun k low => List.getElem?_append_left low
  refine ⟨?_, ?_, ?_, ?_, read, ?_, ?_, ?_, ?_, ?_⟩
  · show (ring.accepted ++ [value]).length ≤ ring.delivered.length + N
    omega
  · show ring.delivered.length + ring.consumer.waits + 1 ≤ (ring.accepted ++ [value]).length
    omega
  · show ring.count = (ring.accepted ++ [value]).length - 1 - ring.delivered.length
    rw [length]
    push_cast
    omega
  · show ring.write = ((ring.accepted ++ [value]).length - 1 + 0) % N
    rw [length]
    exact write
  · exact order.trans (List.prefix_append _ _)
  · intro k low high
    have inside : k < ring.accepted.length := by
      have bound : k + 1 < (ring.accepted ++ [value]).length := high
      omega
    show (ring.accepted ++ [value])[k]? = some (ring.data (k % N))
    rw [early k inside]
    exact data k low inside
  · intro slot
    rw [live slot]
    have same : ∀ k, k + 1 < (ring.accepted ++ [value]).length ↔ k < ring.accepted.length := by
      intro k
      omega
    exact exists_congr fun k => and_congr_right fun _ => and_congr_left fun _ => (same k).symm
  · show (ring.accepted ++ [value])[(ring.accepted ++ [value]).length - 1]? = some value
    simp
  · revert consumer
    dsimp only
    split
    · exact id
    · intro seen
      rw [early _ (List.getElem?_eq_some_iff.mp seen).1]
      exact seen
    · intro seen
      rw [early _ (List.getElem?_eq_some_iff.mp seen).1]
      exact seen
    · rintro ⟨seen, same⟩
      rw [early _ (List.getElem?_eq_some_iff.mp seen).1]
      exact ⟨seen, same⟩
    · exact id

/-- The slot of the byte that is about to be stored holds no byte that is still to be read. -/
theorem Fifo.slot_free (fifo : Fifo N ring) {value : UInt8} {slot : Nat} (here : ring.producer = .store value slot) :
    slot = (ring.accepted.length - 1) % N ∧ 1 ≤ ring.accepted.length ∧
      ∀ k, ring.delivered.length ≤ k → k + 1 < ring.accepted.length → k % N ≠ slot := by
  obtain ⟨bound, counted, _, write, _, _, _, _, producer, _⟩ := fifo
  rw [here] at counted write producer
  simp only [Producer.shift, Nat.add_zero] at counted write producer
  refine ⟨producer.2.trans write, by omega, ?_⟩
  intro k low high same
  rw [producer.2.trans write] at same
  have equal := slot_inj (by omega) (by omega) same
  omega

private theorem Fifo.put (fifo : Fifo N ring) {value : UInt8} {slot : Nat} (here : ring.producer = .store value slot) :
    Fifo N { ring with
      data := Function.update ring.data slot value
      live := Function.update ring.live slot true
      producer := .reload } := by
  obtain ⟨own, some_byte, others⟩ := fifo.slot_free here
  obtain ⟨bound, counted, count, write, read, order, data, live, producer, consumer⟩ := fifo
  rw [here] at counted count write data live producer
  simp only [Producer.shift] at counted count write data live producer
  refine ⟨bound, counted, count, write, read, order, ?_, ?_, trivial, consumer⟩
  · intro k low high
    dsimp only [Producer.shift] at high ⊢
    rcases Nat.lt_or_ge (k + 1) ring.accepted.length with early | last
    · rw [Function.update_of_ne (others k low early)]
      exact data k low early
    · have same : k = ring.accepted.length - 1 := by omega
      subst same
      rw [← own, Function.update_self]
      exact producer.1
  · intro other
    dsimp only [Producer.shift]
    by_cases same : other = slot
    · subst same
      rw [Function.update_self]
      refine ⟨fun _ => ⟨ring.accepted.length - 1, ?_, by omega, own.symm⟩, fun _ => rfl⟩
      have waits : ring.consumer.loaded ≤ ring.consumer.waits := by
        cases ring.consumer <;> simp [Consumer.loaded, Consumer.waits]
      omega
    · rw [Function.update_of_ne same, live other]
      constructor
      · rintro ⟨k, low, high, slot_same⟩
        exact ⟨k, low, by omega, slot_same⟩
      · rintro ⟨k, low, high, slot_same⟩
        refine ⟨k, low, ?_, slot_same⟩
        by_contra last
        have equal : k = ring.accepted.length - 1 := by omega
        exact same (slot_same.symm.trans (equal ▸ own.symm))

private theorem Fifo.produce (fifo : Fifo N ring) : Fifo N (ring.produce N) := by
  unfold RingBuffer.produce
  split
  · exact fifo
  · next value here =>
    split
    · obtain ⟨bound, counted, count, write, read, order, data, live, _, consumer⟩ := fifo
      rw [here] at counted count write data live
      exact ⟨bound, counted, count, write, read, order, data, live, trivial, consumer⟩
    · next free => exact fifo.accept here free
  · next value here =>
    obtain ⟨bound, counted, count, write, read, order, data, live, producer, consumer⟩ := fifo
    rw [here] at counted count write data live producer
    exact ⟨bound, counted, count, write, read, order, data, live, ⟨producer, rfl⟩, consumer⟩
  · next value slot here => exact fifo.put here
  · next here =>
    obtain ⟨bound, counted, count, write, read, order, data, live, _, consumer⟩ := fifo
    rw [here] at counted count write data live
    exact ⟨bound, counted, count, write, read, order, data, live, rfl, consumer⟩
  · next slot here =>
    obtain ⟨bound, counted, count, write, read, order, data, live, producer, consumer⟩ := fifo
    rw [here] at counted count write data live producer
    simp only [Producer.shift, Nat.add_zero] at counted count write producer
    refine ⟨bound, counted, count, ?_, read, order, data, live, trivial, consumer⟩
    show (slot + 1) % N = _
    rw [producer, write, next_slot]
    rfl
  · next here =>
    obtain ⟨bound, counted, count, write, read, order, data, live, _, consumer⟩ := fifo
    rw [here] at counted count write data live
    simp only [Producer.shift, Nat.add_zero] at counted count write data live
    refine ⟨bound, ?_, ?_, ?_, read, order, data, live, trivial, consumer⟩
    · show ring.delivered.length + ring.consumer.waits + 0 ≤ ring.accepted.length
      omega
    · show ring.count + 1 = ring.accepted.length - (0 : Nat) - ring.delivered.length
      push_cast at count ⊢
      omega
    · show ring.write = (ring.accepted.length - 0 + 0) % N
      rw [write]
      congr 1
      omega

theorem Fifo.answer (fifo : Fifo N ring) (op : Op) (result : Int) (nothing : ring.consumer.loaded = 0 ∧ ring.consumer.moved = 0) :
    Fifo N (ring.answer op result) := by
  obtain ⟨bound, counted, count, write, read, order, data, live, producer, _⟩ := fifo
  rw [nothing.1] at live
  rw [nothing.2] at read
  refine ⟨bound, ?_, count, write, read, order, data, live, producer, trivial⟩
  show ring.delivered.length + 0 + ring.producer.shift.uncounted ≤ ring.accepted.length
  omega

theorem Fifo.front (fifo : Fifo N ring) {op : Op} {slot : Nat} (here : ring.consumer = .load op slot) :
    slot = ring.delivered.length % N ∧ ring.delivered.length + ring.producer.shift.uncounted < ring.accepted.length ∧
      ring.accepted[ring.delivered.length]? = some (ring.data slot) := by
  obtain ⟨bound, counted, _, _, read, _, data, _, _, consumer⟩ := fifo
  rw [here] at counted read consumer
  simp only [Consumer.waits, Consumer.moved, Nat.add_zero] at counted read consumer
  have own := consumer.trans read
  have stored : ring.producer.shift.unstored ≤ ring.producer.shift.uncounted := by
    cases ring.producer <;> simp [Producer.shift]
  refine ⟨own, by omega, ?_⟩
  rw [own]
  exact data _ (Nat.le_refl _) (by omega)

private theorem Fifo.take (fifo : Fifo N ring) {slot : Nat} (here : ring.consumer = .load .readChar slot) :
    Fifo N { ring with consumer := .reload (ring.data slot), live := Function.update ring.live slot false } := by
  obtain ⟨own, open_byte, value⟩ := fifo.front here
  obtain ⟨bound, counted, count, write, read, order, data, live, producer, consumer⟩ := fifo
  rw [here] at counted read live
  refine ⟨bound, counted, count, write, read, order, data, ?_, producer, value⟩
  intro other
  simp only [Consumer.loaded, Nat.add_zero] at live ⊢
  by_cases same : other = slot
  · subst same
    rw [Function.update_self]
    refine ⟨nofun, ?_⟩
    rintro ⟨k, low, high, slot_same⟩
    rw [own] at slot_same
    have equal := slot_inj (by omega) (by omega) slot_same.symm
    omega
  · rw [Function.update_of_ne same, live other]
    constructor
    · rintro ⟨k, low, high, slot_same⟩
      refine ⟨k, ?_, high, slot_same⟩
      by_contra first
      have equal : k = ring.delivered.length := by omega
      exact same (slot_same.symm.trans (equal ▸ own.symm))
    · rintro ⟨k, low, high, slot_same⟩
      exact ⟨k, by omega, high, slot_same⟩

private theorem Fifo.deliver (fifo : Fifo N ring) {value : UInt8} (here : ring.consumer = .release value) :
    Fifo N { ring.answer .readChar value.toNat with count := ring.count - 1, delivered := ring.delivered ++ [value] } := by
  obtain ⟨bound, counted, count, write, read, order, data, live, producer, consumer⟩ := fifo
  rw [here] at counted read live consumer
  simp only [Consumer.waits, Consumer.moved, Consumer.loaded] at counted read live consumer
  have length : (ring.delivered ++ [value]).length = ring.delivered.length + 1 := by simp
  refine ⟨?_, ?_, ?_, write, ?_, ?_, ?_, ?_, producer, trivial⟩
  · show ring.accepted.length ≤ (ring.delivered ++ [value]).length + N
    omega
  · show (ring.delivered ++ [value]).length + 0 + ring.producer.shift.uncounted ≤ ring.accepted.length
    omega
  · show ring.count - 1 = ring.accepted.length - ring.producer.shift.uncounted - ((ring.delivered ++ [value]).length : Int)
    rw [length]
    push_cast
    omega
  · show ring.read = ((ring.delivered ++ [value]).length + 0) % N
    rw [length]
    exact read
  · obtain ⟨rest, whole⟩ := order
    have head : rest.head? = some value := by
      rw [← whole, List.getElem?_append_right (Nat.le_refl _), Nat.sub_self] at consumer
      exact List.head?_eq_getElem?.trans consumer
    cases rest with
    | nil => cases head
    | cons first rest =>
      cases head
      refine ⟨rest, ?_⟩
      show ring.delivered ++ [value] ++ rest = ring.accepted
      rw [← whole, List.append_assoc]
      rfl
  · intro k low high
    have below : ring.delivered.length ≤ k := by
      have bound : (ring.delivered ++ [value]).length ≤ k := low
      omega
    exact data k below high
  · intro slot
    show ring.live slot = true ↔ ∃ k, (ring.delivered ++ [value]).length + 0 ≤ k ∧
      k + ring.producer.shift.unstored < ring.accepted.length ∧ k % N = slot
    rw [live slot, length]

private theorem Fifo.consume (fifo : Fifo N ring) : Fifo N (ring.consume N) := by
  unfold RingBuffer.consume
  split
  · exact fifo
  · next here => exact fifo.answer _ _ (by rw [here]; exact ⟨rfl, rfl⟩)
  · next here => exact fifo.answer _ _ (by rw [here]; exact ⟨rfl, rfl⟩)
  · next op _ _ here =>
    split
    · exact fifo.answer _ _ (by rw [here]; exact ⟨rfl, rfl⟩)
    · next some_byte =>
      obtain ⟨bound, counted, count, write, read, order, data, live, producer, _⟩ := fifo
      rw [here] at counted read live
      refine ⟨bound, ?_, count, write, read, order, data, live, producer, trivial⟩
      simp only [Consumer.waits, Nat.add_zero] at counted ⊢
      omega
  · next op here =>
    obtain ⟨bound, counted, count, write, read, order, data, live, producer, _⟩ := fifo
    rw [here] at counted read live
    exact ⟨bound, counted, count, write, read, order, data, live, producer, rfl⟩
  · next slot here => exact fifo.take here
  · next op slot _ here => exact fifo.answer _ _ (by rw [here]; exact ⟨rfl, rfl⟩)
  · next value here =>
    obtain ⟨bound, counted, count, write, read, order, data, live, producer, consumer⟩ := fifo
    rw [here] at counted read live consumer
    exact ⟨bound, counted, count, write, read, order, data, live, producer, consumer, rfl⟩
  · next value slot here =>
    obtain ⟨bound, counted, count, write, read, order, data, live, producer, consumer⟩ := fifo
    rw [here] at counted read live consumer
    obtain ⟨seen, same⟩ := consumer
    refine ⟨bound, counted, count, write, ?_, order, data, live, producer, seen⟩
    simp only [Consumer.moved, Nat.add_zero] at read
    show (slot + 1) % N = _
    rw [same, read, next_slot]
    rfl
  · next value here => exact fifo.deliver here

private theorem Fifo.turn (fifo : Fifo N ring) (turn : RingTurn) : Fifo N (ring.turn N turn) := by
  cases turn with
  | store value =>
    rw [RingBuffer.turn]
    split
    · next idle => exact fifo.store value idle
    · exact fifo
  | produce => exact fifo.produce
  | call op =>
    rw [RingBuffer.turn]
    split
    · next idle =>
      obtain ⟨bound, counted, count, write, read, order, data, live, producer, _⟩ := fifo
      rw [idle] at counted read live
      exact ⟨bound, counted, count, write, read, order, data, live, producer, trivial⟩
    · exact fifo
  | consume => exact fifo.consume

private theorem RingBuffer.reads_answer (ring : RingBuffer) (op : Op) (result : Int) :
    (ring.answer op result).reads = ring.reads ++ (byteRead (op, result)).toList := by
  rw [RingBuffer.reads, RingBuffer.answer, List.filterMap_append]
  cases read : byteRead (op, result) <;> simp [RingBuffer.reads, read]

/-- What the finished calls of `read_char` have returned is what has been delivered. -/
def RingBuffer.Reported (ring : RingBuffer) : Prop := ring.reads = ring.delivered.map fun value => (value.toNat : Int)

private theorem RingBuffer.Reported.answer (reported : ring.Reported) {op : Op} {result : Int} (nothing : RingBuffer.byteRead (op, result) = none) :
    (ring.answer op result).Reported := by
  show (ring.answer op result).reads = ring.delivered.map fun value => (value.toNat : Int)
  rw [RingBuffer.reads_answer, nothing]
  exact (List.append_nil _).trans reported

private theorem RingBuffer.Reported.consume (reported : ring.Reported) : (ring.consume N).Reported := by
  unfold RingBuffer.consume
  split
  · exact reported
  · exact reported.answer rfl
  · exact reported.answer rfl
  · next op _ _ _ =>
    split
    · apply reported.answer
      cases op <;> rfl
    · exact reported
  · exact reported
  · exact reported
  · next op slot other _ =>
    apply reported.answer
    cases op with
    | readChar => exact (other rfl).elim
    | peek | available | availableForStore => rfl
  · exact reported
  · exact reported
  · next value _ =>
    show (ring.answer .readChar value.toNat).reads = (ring.delivered ++ [value]).map fun value => (value.toNat : Int)
    have byte : RingBuffer.byteRead (.readChar, (value.toNat : Int)) = some (value.toNat : Int) := by
      rw [RingBuffer.byteRead]
      exact if_neg (by omega)
    rw [RingBuffer.reads_answer, byte, List.map_append]
    exact congrArg (· ++ [(value.toNat : Int)]) reported

private theorem RingBuffer.Reported.turn (reported : ring.Reported) (turn : RingTurn) : (ring.turn N turn).Reported := by
  cases turn with
  | store value =>
    rw [RingBuffer.turn]
    split <;> exact reported
  | produce =>
    rw [RingBuffer.turn, RingBuffer.produce]
    split
    · exact reported
    · split <;> exact reported
    all_goals exact reported
  | call op =>
    rw [RingBuffer.turn]
    split <;> exact reported
  | consume => exact reported.consume

private theorem Fifo.after (turns : List RingTurn) : Fifo N (RingBuffer.after N turns) := by
  rw [RingBuffer.after]
  exact Run.invariant (fun turn _ fifo => fifo.turn turn) turns _ Fifo.initial

private theorem RingBuffer.Reported.after (turns : List RingTurn) : (RingBuffer.after N turns).Reported := by
  rw [RingBuffer.after]
  apply Run.invariant fun turn _ reported => reported.turn turn
  rfl

/-- A byte is discarded only when as many bytes as there are slots are still to be delivered. -/
private theorem Fifo.discards (fifo : Fifo N ring) {value : UInt8} (here : ring.producer = .check value)
    (discarded : (ring.produce N).accepted ≠ ring.accepted ++ [value]) : ring.accepted.length = ring.delivered.length + N := by
  have bound := fifo.bound
  have count := fifo.count
  rw [here] at count
  simp only [Producer.shift, Nat.cast_zero] at count
  by_cases full : ring.count = N
  · omega
  · apply absurd _ discarded
    simp only [RingBuffer.produce, here, if_neg full]

/-- What the two sides can rely on at any time. -/
structure BoundedFifo (N : Nat) (ring : RingBuffer) : Prop where
  reads : ring.reads = ring.delivered.map fun value => (value.toNat : Int)
  order : ring.delivered <+: ring.accepted
  lossless : (ring.accepted.length : Int) = ring.delivered.length + ring.count + ring.producer.shift.uncounted
  delivers : ∀ value, ring.consumer = .release value → ring.accepted[ring.delivered.length]? = some value
  peeks : ∀ slot, ring.consumer = .load .peek slot → ring.accepted[ring.delivered.length]? = some (ring.data slot)
  discards : ∀ value, ring.producer = .check value → (ring.produce N).accepted ≠ ring.accepted ++ [value] →
    ring.accepted.length = ring.delivered.length + N
  untouched : ∀ value slot, ring.producer = .store value slot → ring.live slot = false
  count : 0 ≤ ring.count ∧ ring.count ≤ N
  indices : ring.read < N ∧ ring.write < N

/-- The buffer is a bounded queue under every interleaving of the steps of one producer and one consumer. -/
theorem ringBuffer_fifo (N : Nat) (positive : 0 < N) (turns : List RingTurn) : BoundedFifo N (RingBuffer.after N turns) := by
  have fifo : Fifo N (RingBuffer.after N turns) := Fifo.after turns
  have reported : (RingBuffer.after N turns).Reported := RingBuffer.Reported.after turns
  generalize RingBuffer.after N turns = ring at fifo reported
  have counted := fifo.counted
  have bound := fifo.bound
  have count := fifo.count
  refine ⟨reported, fifo.order, by omega, ?_, ?_, ?_, ?_, by omega, ?_⟩
  · intro value here
    have consumer := fifo.consumer
    rw [here] at consumer
    exact consumer
  · intro slot here
    exact (fifo.front here).2.2
  · intro value here discarded
    exact fifo.discards here discarded
  · intro value slot here
    obtain ⟨_, _, others⟩ := fifo.slot_free here
    rw [← Bool.not_eq_true, fifo.live slot]
    rintro ⟨k, low, high, same⟩
    rw [here] at high
    exact others k (by omega) high same
  · rw [fifo.read, fifo.write]
    exact ⟨Nat.mod_lt _ positive, Nat.mod_lt _ positive⟩

/-- A byte is read while the next one is stored, and the fourth is discarded while two are held. -/
theorem ringBuffer_fifo_two :
    let turns : List RingTurn := .store 7 :: List.replicate 6 .produce ++ .call .readChar :: List.replicate 3 .consume ++
      .store 8 :: List.replicate 6 .produce ++ List.replicate 3 .consume ++ .store 9 :: List.replicate 6 .produce ++ [.store 10]
    let ring := RingBuffer.after 2 turns
    0 < 2 ∧ ring.reads = [7] ∧ ring.accepted = [7, 8, 9] ∧ (ring.produce 2).accepted = [7, 8, 9] ∧ BoundedFifo 2 ring := by
  refine ⟨by decide, by decide, by decide, by decide, ringBuffer_fifo 2 (by decide) _⟩

end ArduinoK210.Serial
