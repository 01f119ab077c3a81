import ArduinoK210.Lib.Nor
import ArduinoK210.SoftSpi.Pins

/-! The transfers of the SPI in software, bit by bit and byte by byte. -/

namespace ArduinoK210.SoftSpi

open Link (Peer Line)
open Nor (put slice)

structure Machine (σ : Type) where
  board : Board σ
  mem : Nat → UInt8

variable {σ : Type}

/-- A read through a buffer that may be `NULL`. -/
def sendOf (tx : Option Nat) (mem : Nat → UInt8) : UInt8 :=
  match tx with
  | none => 0xFF
  | some tx => mem tx

/-- What there is to send in a buffer that may be `NULL`. -/
def held (tx : Option Nat) (size : Nat) (mem : Nat → UInt8) : List UInt8 :=
  match tx with
  | none => List.replicate size 0xFF
  | some tx => slice mem tx size

/-- Writes through a buffer that may be `NULL`. -/
def stored (rx : Option Nat) (data : List UInt8) (mem : Nat → UInt8) : Nat → UInt8 :=
  match rx with
  | none => mem
  | some rx => put mem rx data

section Code
variable (circuit : Circuit σ) (wait settle : Board σ → Board σ)

/-- The loop over the bits of a byte, with `left` of them left. -/
def transferBits (send : UInt8) (size : Nat) : (left : Nat) → (read : UInt8) → Board σ → UInt8 × Board σ
  | 0, read, board => (read, board)
  | left + 1, read, board =>
      let i := 7 - left
      let msb := softSpiMode &&& softSpiMsb ≠ 0
      let bit := if msb then send &&& (1 : UInt8) <<< UInt8.ofNat (7 - i) else send &&& (1 : UInt8) <<< UInt8.ofNat i
      let read := if msb then read <<< 1 else read >>> 1
      let rbit : UInt8 := if msb then 0x01 else 0x80
      let board := if bit ≠ 0 then board.gpioOutHigh circuit mosi else board.gpioOutLowx circuit mosi
      let board := wait (board.halSoftSpiToggleSclk circuit)
      let read := if board.getGpioValx circuit miso ≠ 0#32 then read ||| rbit else read &&& ~~~rbit
      let board :=
        if softSpiMode &&& softSpiCpha = 0 ∨ size ≠ 0 ∨ i < 7 then settle (board.halSoftSpiToggleSclk circuit) else board
      transferBits send size left read board

/-- `while (size--)`. -/
def transferBytes : (size : Nat) → (tx rx : Option Nat) → Machine σ → Machine σ
  | 0, _, _, machine => machine
  | size + 1, tx, rx, machine =>
      let (read, board) := transferBits circuit wait settle (sendOf tx machine.mem) size 8 0xFF machine.board
      transferBytes size (tx.map (· + 1)) (rx.map (· + 1)) ⟨board, stored rx [read] machine.mem⟩

def transfer (tx rx : Option Nat) (size : UInt32) (machine : Machine σ) : Machine σ :=
  let board := if softSpiMode &&& softSpiCpha ≠ 0 then machine.board.halSoftSpiToggleSclk circuit else machine.board
  transferBytes circuit wait settle size.toNat tx rx { machine with board }

end Code

/-- Four of these take no time that is counted. -/
def nop (board : Board σ) : Board σ := board

def halSoftSpiTransferSlow (circuit : Circuit σ) : (tx rx : Option Nat) → (size : UInt32) → Machine σ → Machine σ :=
  transfer circuit (Board.k210Usleep 1) (Board.k210Usleep 1)

def halSoftSpiTransferFast (circuit : Circuit σ) : (tx rx : Option Nat) → (size : UInt32) → Machine σ → Machine σ :=
  transfer circuit (nop ∘ nop ∘ nop ∘ nop) id

section Bits

/-- The last bits of a byte, the most significant first. -/
def lowBits (byte : UInt8) : Nat → List Bool
  | 0 => []
  | left + 1 => byte.toBitVec.getLsbD left :: lowBits byte left

def bits (byte : UInt8) : List Bool := lowBits byte 8

def collect (read : UInt8) (bit : Bool) : UInt8 := if bit then read <<< 1 ||| 0x01 else read <<< 1 &&& ~~~0x01

theorem lowBits_length (byte : UInt8) (left : Nat) : (lowBits byte left).length = left := by
  induction left with
  | zero => rfl
  | succ left ih => rw [lowBits, List.length_cons, ih]

private theorem getLsbD_collect (read : UInt8) (bit : Bool) {i : Nat} (inside : i < 8) :
    (collect read bit).toBitVec.getLsbD i = if i = 0 then bit else read.toBitVec.getLsbD (i - 1) := by
  have one : (0x01 : UInt8).toBitVec = 1#8 := rfl
  have shift : (read <<< 1).toBitVec = read.toBitVec <<< 1 := rfl
  cases bit with
  | true =>
    rw [collect, if_pos rfl, UInt8.toBitVec_or, one, shift, BitVec.getLsbD_or, BitVec.getLsbD_one, BitVec.getLsbD_shiftLeft]
    split
    next zero => simp [zero]
    next other => simp [inside, other]
  | false =>
    rw [collect, if_neg Bool.false_ne_true, UInt8.toBitVec_and, UInt8.toBitVec_not, one, shift, BitVec.getLsbD_and, BitVec.getLsbD_not,
      BitVec.getLsbD_one, BitVec.getLsbD_shiftLeft]
    split
    next zero => simp [zero]
    next other => simp [inside, other]

private theorem lowBits_collect (read : UInt8) (bit : Bool) {left : Nat} (inside : left < 8) :
    lowBits (collect read bit) (left + 1) = lowBits read left ++ [bit] := by
  induction left with
  | zero => exact congrArg (· :: []) (getLsbD_collect read bit inside)
  | succ left ih =>
    have first : (collect read bit).toBitVec.getLsbD (left + 1) = read.toBitVec.getLsbD left := getLsbD_collect read bit inside
    rw [lowBits, first, ih (Nat.lt_of_succ_lt inside)]
    rfl

theorem lowBits_foldl (read : UInt8) (received : List Bool) (few : received.length ≤ 8) :
    lowBits (received.foldl collect read) received.length = received := by
  induction received using List.reverseRecOn with
  | nil => rfl
  | append_singleton received bit ih =>
    rw [List.length_append, List.length_singleton] at few ⊢
    rw [List.foldl_append, List.foldl_cons, List.foldl_nil, lowBits_collect _ bit few, ih (Nat.le_of_succ_le few)]

theorem mask_toBitVec {left : Nat} (inside : left < 8) : ((1 : UInt8) <<< UInt8.ofNat left).toBitVec = 1#8 <<< left := by
  have all : ∀ left < 8, ((1 : UInt8) <<< UInt8.ofNat left).toBitVec = 1#8 <<< left := by decide
  exact all left inside

private theorem mask_ne_zero (send : UInt8) {left : Nat} (inside : left < 8) :
    send &&& (1 : UInt8) <<< UInt8.ofNat left ≠ 0 ↔ send.toBitVec.getLsbD left = true := by
  have some_ : BitVec.twoPow 8 left ≠ 0#8 := by
    have all : ∀ left < 8, BitVec.twoPow 8 left ≠ 0#8 := by decide
    exact all left inside
  rw [ne_eq, ← UInt8.toBitVec_inj, UInt8.toBitVec_and, mask_toBitVec inside, ← BitVec.twoPow_eq, BitVec.and_twoPow]
  cases send.toBitVec.getLsbD left with
  | true => exact iff_of_true some_ rfl
  | false => exact iff_of_false (not_not_intro rfl) Bool.false_ne_true

end Bits

section Refinement
variable {circuit : Circuit σ} {wait settle : Board σ → Board σ} {board : Board σ} {line : Line σ}

/-- A wait is nothing to the line. -/
def Still (wait : Board σ → Board σ) : Prop := ∀ {board : Board σ} {line : Line σ}, board.Shows line → (wait board).Shows line

theorem transferBits_succ (send : UInt8) (size : Nat) {left : Nat} (inside : left < 8) (read : UInt8) (board : Board σ) :
    let driven := if send.toBitVec.getLsbD left then board.gpioOutHigh circuit mosi else board.gpioOutLowx circuit mosi
    let up := wait (driven.halSoftSpiToggleSclk circuit)
    transferBits circuit wait settle send size (left + 1) read board =
      transferBits circuit wait settle send size left (collect read (circuit.slave.shown up.state))
        (if left ≠ 0 ∨ size ≠ 0 then settle (up.halSoftSpiToggleSclk circuit) else up) := by
  have msb : softSpiMode &&& softSpiMsb ≠ 0 := by decide
  have cpha : ¬softSpiMode &&& softSpiCpha = 0 := by decide
  have place : 7 - (7 - left) = left := by omega
  have last : size ≠ 0 ∨ 7 - left < 7 ↔ left ≠ 0 ∨ size ≠ 0 := by omega
  simp only [transferBits, if_pos msb, cpha, false_or, place, mask_ne_zero send inside, Board.getGpioValx_miso, collect, last]

theorem transferBits_shows (still : Still wait) (still' : Still settle) (shows : board.Shows line) (send : UInt8) (size : Nat)
    {left : Nat} (inside : left ≤ 8) (read : UInt8) :
    let moved := line.clockBits circuit.slave (decide (size ≠ 0)) (lowBits send left)
    (transferBits circuit wait settle send size left read board).1 = moved.1.foldl collect read ∧
      (transferBits circuit wait settle send size left read board).2.Shows moved.2 := by
  induction left generalizing read board line with
  | zero => exact ⟨rfl, shows⟩
  | succ left ih =>
    have up := still ((shows.drive circuit (send.toBitVec.getLsbD left)).toggle circuit)
    have more : (!(lowBits send left).isEmpty || decide (size ≠ 0)) = true ↔ left ≠ 0 ∨ size ≠ 0 := by
      cases left <;> simp [lowBits]
    rw [transferBits_succ send size inside, lowBits, Line.clockBits]
    dsimp only
    rw [List.foldl_cons, up.state]
    apply ih
    · rw [if_congr more rfl rfl]
      split
      next => exact still' (up.toggle circuit)
      next => exact up
    · exact Nat.le_of_succ_le inside

theorem transferBits_exchange (still : Still wait) (still' : Still settle) (high : line.clock = true)
    (shows : board.Shows (line.toggle circuit.slave)) (send : UInt8) (size : Nat) :
    let moved := line.exchange circuit.slave (bits send)
    (transferBits circuit wait settle send size 8 0xFF board).1 = moved.1.foldl collect 0xFF ∧
      (transferBits circuit wait settle send size 8 0xFF board).2.Shows
        (if size = 0 then moved.2 else moved.2.toggle circuit.slave) := by
  obtain ⟨read, last⟩ := transferBits_shows still still' shows send size (Nat.le_refl 8) 0xFF
  have some_ : lowBits send 8 ≠ [] := List.cons_ne_nil _ _
  rw [Line.clockBits_exchange high _ some_] at read last
  refine ⟨read, ?_⟩
  by_cases zero : size = 0
  · rw [if_neg (by simp [zero])] at last
    rw [if_pos zero]
    exact last
  · rw [if_pos (by simp [zero])] at last
    rw [if_neg zero]
    exact last

end Refinement

/-- What a transfer is for: bytes for bytes, through buffers that may be `NULL`. -/
def exchangeBytes (slave : Peer σ) : (size : Nat) → (tx rx : Option Nat) → (Nat → UInt8) → Line σ → (Nat → UInt8) × Line σ
  | 0, _, _, mem, line => (mem, line)
  | size + 1, tx, rx, mem, line =>
      let moved := line.exchange slave (bits (sendOf tx mem))
      let read := moved.1.foldl collect 0xFF
      exchangeBytes slave size (tx.map (· + 1)) (rx.map (· + 1)) (stored rx [read] mem) moved.2

section Bytes
variable {circuit : Circuit σ} {slave : Peer σ} {wait settle : Board σ → Board σ} {line : Line σ} {machine : Machine σ}
  {tx rx : Option Nat}

private theorem exchange_high (high : line.clock = true) (sent : List Bool) : (line.exchange slave sent).2.clock = true :=
  (Line.exchange_eq high sent).2.2.1

theorem exchangeBytes_high (high : line.clock = true) (size : Nat) (tx rx : Option Nat) (mem : Nat → UInt8) :
    (exchangeBytes slave size tx rx mem line).2.clock = true := by
  induction size generalizing tx rx mem line with
  | zero => exact high
  | succ size ih => exact ih (exchange_high high _) _ _ _

theorem transferBytes_exchange (still : Still wait) (still' : Still settle) (high : line.clock = true)
    (shows : machine.board.Shows (line.toggle circuit.slave)) {size : Nat} (some_ : 0 < size) (tx rx : Option Nat) :
    (transferBytes circuit wait settle size tx rx machine).mem = (exchangeBytes circuit.slave size tx rx machine.mem line).1 ∧
      (transferBytes circuit wait settle size tx rx machine).board.Shows
        (exchangeBytes circuit.slave size tx rx machine.mem line).2 := by
  induction size generalizing tx rx machine line with
  | zero => exact absurd some_ (Nat.lt_irrefl 0)
  | succ size ih =>
    obtain ⟨read, last⟩ := transferBits_exchange still still' high shows (sendOf tx machine.mem) size
    rw [transferBytes, exchangeBytes]
    dsimp only
    rw [← read]
    cases size with
    | zero => exact ⟨rfl, last⟩
    | succ size => exact ih (exchange_high high _) last (Nat.succ_pos size) _ _

/-- A transfer of some bytes is their exchange, and the clock rests again. -/
theorem transfer_exchange (still : Still wait) (still' : Still settle) (high : line.clock = true) (shows : machine.board.Shows line)
    {size : UInt32} (some_ : 0 < size.toNat) (tx rx : Option Nat) :
    (transfer circuit wait settle tx rx size machine).mem = (exchangeBytes circuit.slave size.toNat tx rx machine.mem line).1 ∧
      (transfer circuit wait settle tx rx size machine).board.Shows
        (exchangeBytes circuit.slave size.toNat tx rx machine.mem line).2 := by
  have cpha : softSpiMode &&& softSpiCpha ≠ 0 := by decide
  rw [transfer, if_pos cpha]
  exact transferBytes_exchange still still' high (shows.toggle circuit) some_ tx rx

private theorem held_length (tx : Option Nat) (size : Nat) (mem : Nat → UInt8) : (held tx size mem).length = size := by
  cases tx with
  | none => exact List.length_replicate
  | some tx => exact Nor.slice_length mem tx size

private theorem stored_cons (rx : Option Nat) (first : UInt8) (data : List UInt8) (mem : Nat → UInt8) :
    stored (rx.map (· + 1)) data (stored rx [first] mem) = stored rx (first :: data) mem := by
  cases rx with
  | none => rfl
  | some rx => exact (Nor.put_append mem rx [first] data).symm

private theorem stored_nil (rx : Option Nat) (mem : Nat → UInt8) : stored rx [] mem = mem := by
  cases rx with
  | none => rfl
  | some rx => exact Nor.put_nil mem rx

private theorem bits_foldl (send : UInt8) (line : Line σ) :
    bits ((line.exchange slave (bits send)).1.foldl collect 0xFF) = (line.exchange slave (bits send)).1 := by
  have length : ((line.exchange slave (bits send)).1).length = 8 :=
    (Line.exchange_length _ _).trans (lowBits_length send 8)
  have kept := lowBits_foldl 0xFF (line.exchange slave (bits send)).1 (Nat.le_of_eq length)
  rwa [length] at kept

/-- The bytes that were sent and received: each was sent as the buffer held it when those before it had been received. -/
structure Exchanged (slave : Peer σ) (size : Nat) (tx rx : Option Nat) (mem : Nat → UInt8) (line : Line σ)
    (after : (Nat → UInt8) × Line σ) (sent received : List UInt8) : Prop where
  sentLength : sent.length = size
  receivedLength : received.length = size
  moved : line.exchange slave (sent.flatMap bits) = (received.flatMap bits, after.2)
  memory : after.1 = stored rx received mem
  each : ∀ k, k < size → sent[k]? = some (sendOf (tx.map (· + k)) (stored rx (received.take k) mem))

theorem exchangeBytes_exchanged (size : Nat) (tx rx : Option Nat) (mem : Nat → UInt8) (line : Line σ) :
    ∃ sent received, Exchanged slave size tx rx mem line (exchangeBytes slave size tx rx mem line) sent received := by
  induction size generalizing tx rx mem line with
  | zero => exact ⟨[], [], rfl, rfl, rfl, (stored_nil rx mem).symm, fun k inside => absurd inside (Nat.not_lt_zero k)⟩
  | succ size ih =>
    let send := sendOf tx mem
    let moved := line.exchange slave (bits send)
    let read := moved.1.foldl collect 0xFF
    obtain ⟨sent, received, rest⟩ := ih (tx.map (· + 1)) (rx.map (· + 1)) (stored rx [read] mem) moved.2
    refine ⟨send :: sent, read :: received, congrArg (· + 1) rest.sentLength, congrArg (· + 1) rest.receivedLength, ?_, ?_, ?_⟩
    · rw [List.flatMap_cons, List.flatMap_cons, Line.exchange_append, rest.moved, bits_foldl]
      rfl
    · rw [← stored_cons]
      exact rest.memory
    · intro k inside
      cases k with
      | zero =>
        rw [List.take_zero, stored_nil]
        cases tx <;> rfl
      | succ k =>
        have next := rest.each k (Nat.lt_of_succ_lt_succ inside)
        rw [stored_cons] at next
        rw [List.getElem?_cons_succ, next]
        cases tx with
        | none => rfl
        | some tx =>
          have place : tx + 1 + k = tx + (k + 1) := by omega
          exact congrArg some (congrArg (stored rx (read :: received.take k) mem) place)

/-- Buffers of which no byte is received into before it has been sent. -/
def Apart (tx rx : Option Nat) (size : Nat) : Prop := ∀ a b, tx = some a → rx = some b → b ≤ a ∨ a + size ≤ b

theorem apart_none_left (rx : Option Nat) (size : Nat) : Apart none rx size := by
  intro a b here
  cases here

theorem apart_none_right (tx : Option Nat) (size : Nat) : Apart tx none size := by
  intro a b here there
  cases there

theorem apart_one (a b : Nat) : Apart (some a) (some b) 1 := by
  intro a' b' here there
  cases here
  cases there
  exact (Nat.lt_or_ge a b).symm

/-- Without such a byte what is sent is what the buffer held. -/
theorem Exchanged.sent_eq {size : Nat} {mem : Nat → UInt8} {after : (Nat → UInt8) × Line σ} {sent received : List UInt8}
    (exchanged : Exchanged slave size tx rx mem line after sent received) (apart : Apart tx rx size) :
    sent = held tx size mem := by
  apply List.ext_getElem?
  intro k
  by_cases inside : k < size
  · rw [exchanged.each k inside]
    cases tx with
    | none => exact (List.getElem?_replicate_of_lt inside).symm
    | some a =>
      rw [held, Nor.slice_getElem?, if_pos inside]
      apply congrArg some
      cases rx with
      | none => rfl
      | some b =>
        have far := apart a b rfl rfl
        have few := List.length_take_le k received
        exact Nor.put_outside mem b (received.take k) (a + k) (by omega)
  · have past : size ≤ k := Nat.not_lt.mp inside
    rw [List.getElem?_eq_none (Nat.le_trans (Nat.le_of_eq exchanged.sentLength) past),
      List.getElem?_eq_none (Nat.le_trans (Nat.le_of_eq (held_length tx size mem)) past)]

end Bytes

end ArduinoK210.SoftSpi
