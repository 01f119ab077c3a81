import ArduinoK210.Spi.Completion
import ArduinoK210.Lib.Nor

/-! What the wire and the memory have after a transfer, and the words of `transfer16` and `transfer32` as bits on the wire. -/

namespace ArduinoK210.Spi

open Nor (put)

section Delivery

variable {call : Transfer} {slave : List UInt8 → UInt8} {mem : Nat → UInt8}

/-- The result of one call: the frames on the wire in one assertion of chip select, the answers in the output and the rest
of the memory as it was. -/
structure Delivered (call : Transfer) (slave : List UInt8 → UInt8) (mem : Nat → UInt8) (state : TransferState) : Prop where
  frames : framesOf state.port.log = (List.range call.size).map fun i => call.settings.wireByte (call.inputByte mem i)
  selected : call.size ≠ 0 → ∃ moves : List WireEvent,
    state.port.log = .chipSelect true :: (moves ++ [.chipSelect false]) ∧ ∀ level, .chipSelect level ∉ moves
  answers : ∀ output i, call.output = some output → i < call.size →
    state.mem (output + i) = call.settings.wireByte (slave ((framesOf state.port.log).take (i + 1)))
  unchanged : ∀ a, (∀ output, call.output = some output → a < output ∨ output + call.size ≤ a) → state.mem a = mem a
  lost : state.port.lost = 0
  off : state.port.ssienr = false

private theorem frames_take {i : Nat} (inside : i < call.size) :
    (frames call mem call.size).take (i + 1) = frames call mem (i + 1) := by
  rw [frames, ← List.map_take, List.take_range, Nat.min_eq_left inside, frames]

private theorem framesOf_transcript : framesOf (transcript call slave mem) = frames call mem call.size := by
  show framesOf (exchanges call slave mem call.size ++ [.chipSelect false]) = _
  rw [framesOf_append, framesOf_exchanges]
  exact List.append_nil _

private theorem Finished.delivered {state : TransferState} (finished : Finished call slave mem state) (ready : call.ready = true)
    (granted : call.granted = true) : Delivered call slave mem state := by
  by_cases empty : call.size = 0
  · have off := finished.refused fun runs => runs.2.1 empty
    refine ⟨?_, fun some => absurd empty some, fun output i _ inside => ?_, fun a _ => by rw [off.mem], off.lost, off.ssienr⟩
    · rw [off.log, empty]
      rfl
    · rw [empty] at inside
      exact absurd inside (Nat.not_lt_zero i)
  · have complete := finished.ran ⟨ready, empty, granted⟩
    refine ⟨?_, fun _ => ⟨_, complete.log, fun level member => ?_⟩, fun output i given inside => ?_, fun a outside => ?_,
      complete.lost, finished.off⟩
    · rw [complete.log, framesOf_transcript]
      rfl
    · obtain ⟨i, _, event⟩ := List.mem_flatMap.mp member
      simp at event
    · rw [complete.log, framesOf_transcript, frames_take inside, complete.mem]
      exact filled_inside given inside
    · rw [complete.mem]
      cases given : call.output with
      | none => rw [filled_of_none given]
      | some output => exact filled_outside given (outside output given)

private theorem Tracked.lost {state : TransferState} (tracked : Tracked call slave mem state) : state.port.lost = 0 := by
  by_cases loops : state.pc.Loops
  · obtain ⟨ended, begun, flow⟩ := tracked.flow loops
    exact flow.lost
  · obtain ⟨pc, sent, received, memory, port⟩ := state
    cases pc with
    | enter =>
      have off : Off mem ⟨.enter, sent, received, memory, port⟩ := tracked
      exact off.lost
    | disable => exact tracked.2.lost
    | duplex => exact tracked.2.1.lost
    | frames => exact tracked.2.1.lost
    | enable => exact tracked.2.1.lost
    | select => exact tracked.2.1.lost
    | busy => exact tracked.2.2.lost
    | deselect => exact tracked.2.2.lost
    | stop => exact tracked.2.lost
    | done =>
      by_cases runs : call.Runs
      · exact (tracked.ran runs).lost
      · exact (tracked.refused runs).lost
    | _ => exact absurd trivial loops

end Delivery

def wireBits (frame : UInt8) : List Bool := (List.range 8).map fun i => frame.toNat.testBit (7 - i)

private theorem reversed_testBit (value : UInt8) {j : Nat} (inside : j < 8) :
    (reversed value).toNat.testBit (7 - j) = value.toNat.testBit j := by
  simp only [reversed, List.range_succ, List.range_zero, List.nil_append, List.foldl_append, List.foldl_cons, List.foldl_nil]
  simp only [← UInt8.toNat_toBitVec, BitVec.testBit_toNat, UInt8.toBitVec_or, UInt8.toBitVec_and, UInt8.toBitVec_shiftLeft,
    UInt8.toBitVec_shiftRight, UInt8.toBitVec_ofNat]
  generalize value.toBitVec = bits
  interval_cases j <;> simp

private theorem reversed_reversed (value : UInt8) : reversed (reversed value) = value := by
  apply UInt8.toNat.inj
  apply Nat.eq_of_testBit_eq
  intro j
  by_cases inside : j < 8
  · have back := reversed_testBit (reversed value) (j := 7 - j) (by omega)
    have there := reversed_testBit value inside
    rw [Nat.sub_sub_self (by omega)] at back
    rw [back, there]
  · have outside (byte : UInt8) : byte.toNat.testBit j = false := by
      apply Nat.testBit_lt_two_pow
      exact Nat.lt_of_lt_of_le (UInt8.toNat_lt byte) (Nat.pow_le_pow_right (by decide) (Nat.le_of_not_lt inside))
    rw [outside, outside]

theorem wireBits_wireByte (settings : BusSettings) (value : UInt8) :
    wireBits (settings.wireByte value) =
      (List.range 8).map fun i => value.toNat.testBit (if settings.bitOrder = spiLsbFirst then i else 7 - i) := by
  unfold BusSettings.wireByte wireBits
  split
  next =>
    apply List.map_congr_left
    intro i inside
    exact reversed_testBit value (List.mem_range.mp inside)
  next => rfl

private theorem wireByte_wireByte (settings : BusSettings) (value : UInt8) : settings.wireByte (settings.wireByte value) = value := by
  unfold BusSettings.wireByte
  split
  · exact reversed_reversed value
  · rfl

/-- What `transfer16` and `transfer32` work with: how many bytes. -/
def wordSize (wide : Bool) : Nat := if wide then 4 else 2

namespace BusSettings

variable (settings : BusSettings)

/-- `8 * (… == SPI_MSBFIRST ? bytes - 1 - i : i)` -/
def wordShift (wide : Bool) (i : Nat) : Nat := 8 * if settings.bitOrder = spiMsbFirst then wordSize wide - 1 - i else i

/-- The call of `transferBytes` in `wordTransfer`. The arrays `input` and `output` of four bytes lie at `stack`. -/
def wordCall (wide : Bool) (stack : Nat) : Transfer := ⟨true, true, settings, some stack, some (stack + 4), wordSize wide⟩

def wordMem (value : Nat) (wide : Bool) (stack : Nat) (mem : Nat → UInt8) : Nat → UInt8 :=
  put (put mem (stack + 4) [0, 0, 0, 0]) stack (settings.wordBytes value wide)

/-- The second loop of `wordTransfer`. -/
def wordResult (wide : Bool) (stack : Nat) (mem : Nat → UInt8) : Nat :=
  (List.range (wordSize wide)).foldl
    (fun result i => result ||| (mem (stack + 4 + i)).toNat <<< settings.wordShift wide i) 0

variable {settings} {value stack : Nat} {wide : Bool} {mem : Nat → UInt8}

private theorem wordBytes_eq :
    settings.wordBytes value wide =
      (List.range (wordSize wide)).map fun i => UInt8.ofNat (value >>> settings.wordShift wide i) := rfl

private theorem wordMem_input {i : Nat} (inside : i < wordSize wide) :
    settings.wordMem value wide stack mem (stack + i) = UInt8.ofNat (value >>> settings.wordShift wide i) := by
  apply Nor.put_inside
  rw [wordBytes_eq, List.getElem?_map, List.getElem?_range inside]
  rfl

private theorem wordSize_le (wide : Bool) : wordSize wide ≤ 4 := by
  cases wide <;> decide

private theorem wordCall_apart : (settings.wordCall wide stack).Apart := by
  intro input output inputAt outputAt
  have small := wordSize_le wide
  cases inputAt
  cases outputAt
  right
  show stack + wordSize wide ≤ stack + 4
  omega

private theorem ofNat_testBit (value shift : Nat) {j : Nat} (inside : j < 8) :
    (UInt8.ofNat (value >>> shift)).toNat.testBit j = value.testBit (shift + j) := by
  rw [UInt8.toNat_ofNat', Nat.testBit_mod_two_pow, decide_eq_true inside, Bool.true_and, Nat.testBit_shiftRight]

/-- Eight bits at a time, the frames of a word are its bits from one end to the other. -/
theorem wordBytes_bits (known : settings.bitOrder ≤ spiMsbFirst) :
    ((settings.wordBytes value wide).map settings.wireByte).flatMap wireBits =
      (List.range (8 * wordSize wide)).map fun i =>
        value.testBit (if settings.bitOrder = spiMsbFirst then 8 * wordSize wide - 1 - i else i) := by
  rw [wordBytes_eq, List.map_map, List.flatMap_map]
  have byte (i : Nat) : wireBits ((settings.wireByte ∘ fun i => UInt8.ofNat (value >>> settings.wordShift wide i)) i) =
      (List.range 8).map fun j =>
        value.testBit (settings.wordShift wide i + if settings.bitOrder = spiLsbFirst then j else 7 - j) := by
    rw [Function.comp_apply, wireBits_wireByte]
    apply List.map_congr_left
    intro j inside
    apply ofNat_testBit
    have := List.mem_range.mp inside
    split <;> omega
  simp only [byte]
  simp only [wordShift]
  have order : settings.bitOrder = spiMsbFirst ∨ settings.bitOrder = spiLsbFirst := by
    simp only [spiMsbFirst, spiLsbFirst] at *
    omega
  rcases order with msb | lsb
  · rw [msb]
    cases wide <;> rfl
  · rw [lsb]
    cases wide <;> rfl

private theorem foldl_or_testBit (part : Nat → Nat) (indices : List Nat) (j : Nat) :
    ∀ start, (indices.foldl (fun result i => result ||| part i) start).testBit j =
      (start.testBit j || indices.any fun i => (part i).testBit j) := by
  induction indices with
  | nil => exact fun start => (Bool.or_false _).symm
  | cons i indices ih =>
    intro start
    rw [List.foldl_cons, ih, Nat.testBit_or, List.any_cons, Bool.or_assoc]

theorem wordShift_surjective (settings : BusSettings) {wide : Bool} {j : Nat} (inside : j < 8 * wordSize wide) :
    ∃ i, i < wordSize wide ∧ settings.wordShift wide i = 8 * (j / 8) := by
  unfold wordShift
  by_cases msb : settings.bitOrder = spiMsbFirst
  · exact ⟨wordSize wide - 1 - j / 8, by omega, by rw [if_pos msb]; omega⟩
  · exact ⟨j / 8, by omega, by rw [if_neg msb]⟩

theorem wordResult_bytes {after : Nat → UInt8}
    (bytes : ∀ i, i < wordSize wide → after (stack + 4 + i) = UInt8.ofNat (value >>> settings.wordShift wide i))
    (small : value < 2 ^ (8 * wordSize wide)) : settings.wordResult wide stack after = value := by
  have fold : settings.wordResult wide stack after =
      (List.range (wordSize wide)).foldl
        (fun result i => result ||| (value >>> settings.wordShift wide i % 2 ^ 8) <<< settings.wordShift wide i) 0 := by
    unfold wordResult
    apply List.foldl_ext
    intro result i inside
    rw [bytes i (List.mem_range.mp inside), UInt8.toNat_ofNat']
  have part (shift j : Nat) : ((value >>> shift % 2 ^ 8) <<< shift).testBit j =
      (decide (shift ≤ j) && decide (j - shift < 8) && value.testBit j) := by
    rw [Nat.testBit_shiftLeft, Nat.testBit_mod_two_pow, Nat.testBit_shiftRight, ← Bool.and_assoc]
    by_cases above : shift ≤ j
    · rw [Nat.add_sub_cancel' above]
    · simp [above]
  rw [fold]
  apply Nat.eq_of_testBit_eq
  intro j
  rw [foldl_or_testBit, Nat.zero_testBit, Bool.false_or]
  simp only [part]
  by_cases inside : j < 8 * wordSize wide
  · obtain ⟨i, index, shift⟩ := wordShift_surjective settings inside
    cases bit : value.testBit j with
    | true =>
      apply List.any_eq_true.mpr
      refine ⟨i, List.mem_range.mpr index, ?_⟩
      have below : settings.wordShift wide i ≤ j := by omega
      have near : j - settings.wordShift wide i < 8 := by omega
      simp [below, near]
    | false => simp
  · have beyond : value.testBit j = false := by
      apply Nat.testBit_lt_two_pow
      exact Nat.lt_of_lt_of_le small (Nat.pow_le_pow_right (by decide) (Nat.le_of_not_lt inside))
    simp [beyond]

end BusSettings

def loopback (frames : List UInt8) : UInt8 := frames.getLastD 0

private theorem loopback_take {frames : List UInt8} {i : Nat} {frame : UInt8} (found : frames[i]? = some frame) :
    loopback (frames.take (i + 1)) = frame := by
  rw [List.take_add_one, found, loopback, Option.toList_some, List.getLastD_concat]

/-- On this schedule a call loses no frame, comes to its end, and stays there with a good result. -/
structure Completes (call : Transfer) (slave : List UInt8 → UInt8) (port : FifoPort) (mem : Nat → UInt8)
    (schedule : Nat → Mover) (good : TransferState → Prop) : Prop where
  lossless : ∀ time, (Fair.after (call.step slave) schedule (Transfer.start port mem) time).port.lost = 0
  ends : ∃ time, ∀ later, time ≤ later →
    (Fair.after (call.step slave) schedule (Transfer.start port mem) later).pc = .done ∧
      good (Fair.after (call.step slave) schedule (Transfer.start port mem) later)

private theorem Completes.weaken {call : Transfer} {slave : List UInt8 → UInt8} {port : FifoPort} {mem : Nat → UInt8}
    {schedule : Nat → Mover} {good better : TransferState → Prop} (completes : Completes call slave port mem schedule better)
    (enough : ∀ state, better state → good state) : Completes call slave port mem schedule good := by
  obtain ⟨lossless, time, ends⟩ := completes
  exact ⟨lossless, time, fun later order => ⟨(ends later order).1, enough _ (ends later order).2⟩⟩

private theorem transferBytes_completes (call : Transfer) (ready : call.ready = true) (granted : call.granted = true)
    (apart : call.Apart) (slave : List UInt8 → UInt8) {port : FifoPort} (off : port.ssienr = false) (mem : Nat → UInt8)
    {schedule : Nat → Mover} (everyone : Fair.Everyone schedule) :
    Completes call slave port mem schedule (Delivered call slave mem) := by
  have initial := start_tracked call slave off mem
  constructor
  · intro time
    have tracked := Fair.invariant (progress apart).preserves schedule initial time
    exact tracked.lost
  · obtain ⟨time, finishes⟩ := transfer_finishes apart slave off mem everyone
    refine ⟨time, fun later order => ?_⟩
    obtain ⟨done, finished⟩ := finishes later order
    exact ⟨done, finished.delivered ready granted⟩

/-- A word on the wire and, when the wire leads back, what comes of it. -/
theorem Delivered.word {settings : BusSettings} {value stack : Nat} {wide : Bool} {slave : List UInt8 → UInt8}
    {mem : Nat → UInt8} {state : TransferState}
    (delivered : Delivered (settings.wordCall wide stack) slave (settings.wordMem value wide stack mem) state) :
    framesOf state.port.log = (settings.wordBytes value wide).map settings.wireByte ∧
      (slave = loopback → value < 2 ^ (8 * wordSize wide) → settings.wordResult wide stack state.mem = value) := by
  have frames : framesOf state.port.log = (settings.wordBytes value wide).map settings.wireByte := by
    rw [delivered.frames, BusSettings.wordBytes_eq, List.map_map]
    apply List.map_congr_left
    intro i inside
    exact congrArg settings.wireByte (BusSettings.wordMem_input (List.mem_range.mp inside))
  refine ⟨frames, fun back small => BusSettings.wordResult_bytes (fun i inside => ?_) small⟩
  have answer := delivered.answers (stack + 4) i rfl inside
  have latest : loopback ((framesOf state.port.log).take (i + 1)) =
      settings.wireByte (UInt8.ofNat (value >>> settings.wordShift wide i)) := by
    apply loopback_take
    rw [frames, BusSettings.wordBytes_eq, List.getElem?_map, List.getElem?_map, List.getElem?_range inside]
    rfl
  rw [answer, back, latest]
  exact wireByte_wireByte settings _

/-- Every transfer, on every schedule that leaves neither the task nor the wire out: of a buffer, and of a word, whose bits
go out in the bit order of the settings. -/
theorem transfer_fifo (slave : List UInt8 → UInt8) (port : FifoPort) (off : port.ssienr = false) (mem : Nat → UInt8)
    (schedule : Nat → Mover) (everyone : Fair.Everyone schedule) :
    (∀ call : Transfer, call.ready = true → call.granted = true → call.Apart →
      Completes call slave port mem schedule (Delivered call slave mem)) ∧
    ∀ (settings : BusSettings) (value stack : Nat) (wide : Bool), settings.bitOrder ≤ spiMsbFirst →
      value < 2 ^ (8 * wordSize wide) →
      Completes (settings.wordCall wide stack) slave port (settings.wordMem value wide stack mem) schedule fun state =>
        (framesOf state.port.log).flatMap wireBits =
            ((List.range (8 * wordSize wide)).map fun i =>
              value.testBit (if settings.bitOrder = spiMsbFirst then 8 * wordSize wide - 1 - i else i)) ∧
          (slave = loopback → settings.wordResult wide stack state.mem = value) := by
  refine ⟨fun call ready granted apart => transferBytes_completes call ready granted apart slave off mem everyone, ?_⟩
  intro settings value stack wide known small
  have completes := transferBytes_completes (settings.wordCall wide stack) rfl rfl BusSettings.wordCall_apart slave off
    (settings.wordMem value wide stack mem) everyone
  apply completes.weaken
  intro state delivered
  obtain ⟨frames, back⟩ := delivered.word
  refine ⟨?_, fun leads => back leads small⟩
  rw [frames]
  exact BusSettings.wordBytes_bits known

def turns (time : Nat) : Mover := if time % 2 = 0 then .task else .wire

private theorem turns_everyone : Fair.Everyone turns := by
  intro mover time
  cases mover with
  | task => exact ⟨2 * time, by omega, if_pos (by omega)⟩
  | wire => exact ⟨2 * time + 1, by omega, if_neg (by omega)⟩

def resetPort : FifoPort := ⟨false, true, 0x100, 7, [1], none, [2], 3, []⟩

def inPlace : Transfer := ⟨true, true, ⟨1000000, spiLsbFirst, 0⟩, some 16, some 16, 2⟩

theorem transfer_fifo_turns :
    Completes inPlace loopback resetPort (fun a => UInt8.ofNat a) turns (Delivered inPlace loopback fun a => UInt8.ofNat a) ∧
      Completes (BusSettings.wordCall ⟨1000000, spiMsbFirst, 0⟩ true 64) loopback resetPort
        (BusSettings.wordMem ⟨1000000, spiMsbFirst, 0⟩ 0x12345678 true 64 fun a => UInt8.ofNat a) turns fun state =>
          (framesOf state.port.log).flatMap wireBits = (List.range 32).map (fun i => (0x12345678 : Nat).testBit (31 - i)) ∧
            (loopback = loopback → BusSettings.wordResult ⟨1000000, spiMsbFirst, 0⟩ true 64 state.mem = 0x12345678) := by
  obtain ⟨buffers, words⟩ := transfer_fifo loopback resetPort rfl (fun a => UInt8.ofNat a) turns turns_everyone
  constructor
  · apply buffers inPlace rfl rfl
    intro input output inputAt outputAt
    cases inputAt
    cases outputAt
    exact .inl (Nat.le_refl 16)
  · exact words ⟨1000000, spiMsbFirst, 0⟩ 0x12345678 64 true (by decide) (by decide)

end ArduinoK210.Spi
