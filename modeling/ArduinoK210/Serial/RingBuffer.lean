import ArduinoK210.Lib.Run
import Mathlib.Data.Nat.ModEq
import Mathlib.Logic.Function.Basic
import Mathlib.Tactic.Linarith

/-! The ring buffer between an interrupt that stores and a task that reads. Every load and store of a shared variable is a step
of its own, so that the two can be preempted anywhere. -/

namespace ArduinoK210.Serial

/-- Where `store_char` stands. -/
inductive Producer where
  | idle
  | check (value : UInt8)
  | index (value : UInt8)
  | store (value : UInt8) (slot : Nat)
  | reload
  | advance (slot : Nat)
  | publish
  deriving DecidableEq

inductive Op where
  | readChar
  | peek
  | available
  | availableForStore
  deriving DecidableEq

/-- Where a call of the reading side stands. -/
inductive Consumer where
  | idle
  | check (op : Op)
  | index (op : Op)
  | load (op : Op) (slot : Nat)
  | reload (value : UInt8)
  | advance (value : UInt8) (slot : Nat)
  | release (value : UInt8)
  deriving DecidableEq

/-- The variables of the buffer and the two sides. What has been accepted, delivered and returned so far, and which slots
hold a byte that nobody has read, is recorded along the way. -/
structure RingBuffer where
  data : Nat → UInt8 := fun _ => 0
  read : Nat := 0
  write : Nat := 0
  count : Int := 0
  producer : Producer := .idle
  consumer : Consumer := .idle
  accepted : List UInt8 := []
  delivered : List UInt8 := []
  returned : List (Op × Int) := []
  live : Nat → Bool := fun _ => false

inductive RingTurn where
  | store (value : UInt8)
  | produce
  | call (op : Op)
  | consume

namespace RingBuffer
variable (N : Nat)

/-- One memory step of `store_char`. -/
def produce (ring : RingBuffer) : RingBuffer :=
  match ring.producer with
  | .idle => ring
  | .check value =>
      if ring.count = N then { ring with producer := .idle }
      else { ring with producer := .index value, accepted := ring.accepted ++ [value] }
  | .index value => { ring with producer := .store value ring.write }
  | .store value slot =>
      { ring with
        data := Function.update ring.data slot value
        live := Function.update ring.live slot true
        producer := .reload }
  | .reload => { ring with producer := .advance ring.write }
  | .advance slot => { ring with write := (slot + 1) % N, producer := .publish }
  | .publish => { ring with count := ring.count + 1, producer := .idle }

def answer (ring : RingBuffer) (op : Op) (result : Int) : RingBuffer :=
  { ring with consumer := .idle, returned := ring.returned ++ [(op, result)] }

/-- One memory step of `read_char`, `peek`, `available` or `availableForStore`. -/
def consume (ring : RingBuffer) : RingBuffer :=
  match ring.consumer with
  | .idle => ring
  | .check .available => ring.answer .available ring.count
  | .check .availableForStore => ring.answer .availableForStore (N - ring.count)
  | .check op => if ring.count = 0 then ring.answer op (-1) else { ring with consumer := .index op }
  | .index op => { ring with consumer := .load op ring.read }
  | .load .readChar slot =>
      { ring with consumer := .reload (ring.data slot), live := Function.update ring.live slot false }
  | .load op slot => ring.answer op (ring.data slot).toNat
  | .reload value => { ring with consumer := .advance value ring.read }
  | .advance value slot => { ring with read := (slot + 1) % N, consumer := .release value }
  | .release value =>
      { ring.answer .readChar value.toNat with count := ring.count - 1, delivered := ring.delivered ++ [value] }

def turn (turn : RingTurn) (ring : RingBuffer) : RingBuffer :=
  match turn with
  | .store value => if ring.producer = .idle then { ring with producer := .check value } else ring
  | .produce => ring.produce N
  | .call op => if ring.consumer = .idle then { ring with consumer := .check op } else ring
  | .consume => ring.consume N

/-- The byte that a finished call has taken out. -/
def byteRead : Op × Int → Option Int
  | (.readChar, result) => if result = -1 then none else some result
  | _ => none

def reads (ring : RingBuffer) : List Int := ring.returned.filterMap byteRead

def after (turns : List RingTurn) : RingBuffer := Run.run (turn N) turns {}

end RingBuffer

/-- How many bytes the producer has accepted and not stored, stored and not counted, or moved its index over. -/
structure Producer.Shift where
  unstored : Nat
  uncounted : Nat
  ahead : Nat

def Producer.shift : Producer → Producer.Shift
  | .idle | .check _ => ⟨0, 0, 0⟩
  | .index _ | .store _ _ => ⟨1, 1, 0⟩
  | .reload | .advance _ => ⟨0, 1, 0⟩
  | .publish => ⟨0, 1, 1⟩

/-- Whether the consumer has loaded the byte it is going to deliver, and moved its index over it. -/
def Consumer.loaded : Consumer → Nat
  | .reload _ | .advance _ _ | .release _ => 1
  | _ => 0

def Consumer.moved : Consumer → Nat
  | .release _ => 1
  | _ => 0

/-- Past its check, the reading side knows of a byte. -/
def Consumer.waits : Consumer → Nat
  | .idle | .check _ => 0
  | _ => 1

end ArduinoK210.Serial
