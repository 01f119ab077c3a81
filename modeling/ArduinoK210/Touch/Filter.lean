import Mathlib.Data.Fin.VecNotation
import Mathlib.Logic.Function.Basic

/-! The filters of the touch screen: a median over an index that is kept sorted, a mean over a running sum, and the two in a row with
the calibration behind them; and the poll of the NS2009, whose record of the last event stays between polls, so a branch that pushes
nothing leaves it to be returned again. -/

namespace ArduinoK210.Touch

def intMax : Int := 0x7fffffff

/-- `index` lists the positions of the window in the order of their values. -/
structure MedianFilter where
  buffer : Nat → Int
  index : Nat → Nat
  length : Nat
  position : Nat
  count : Nat

structure MeanFilter where
  buffer : Nat → Int
  length : Nat
  index : Nat
  count : Nat
  sum : Int

namespace MedianFilter

def alloc (length : Nat) (buffer : Nat → Int) (index : Nat → Nat) : MedianFilter := ⟨buffer, index, length, 0, 0⟩

/-- The place of a position in the index, looked for in `left` places. -/
def seek (index : Nat → Nat) (pos : Nat) : Nat → Nat → Nat
  | 0, oidx => oidx
  | left + 1, oidx => if index oidx ≠ pos then seek index pos left (oidx + 1) else oidx

/-- Moves the entry at `oidx` up past smaller values, with `left` entries above it. -/
def moveUp (buffer : Nat → Int) (value : Int) : Nat → Nat → (Nat → Nat) → Nat → Nat
  | 0, _, index => index
  | left + 1, oidx, index =>
      let cidx := index (oidx + 1)
      if buffer cidx < value then
        moveUp buffer value left (oidx + 1) (Function.update (Function.update index (oidx + 1) (index oidx)) oidx cidx)
      else index

/-- Moves the entry at `oidx` down past larger values. -/
def moveDown (buffer : Nat → Int) (value : Int) : Nat → (Nat → Nat) → Nat → Nat
  | 0, index => index
  | oidx + 1, index =>
      let cidx := index oidx
      if value < buffer cidx then
        moveDown buffer value oidx (Function.update (Function.update index oidx (index (oidx + 1))) (oidx + 1) cidx)
      else index

/-- The middle part of `median_update`, for a window that is not empty. -/
def insert (value : Int) (filter : MedianFilter) : MedianFilter :=
  let pos := filter.position
  let cnt := filter.count
  let opened := if cnt = filter.length then filter.index else Function.update filter.index pos pos
  let oidx := if cnt = filter.length then seek filter.index pos filter.length 0 else pos
  let oval := if cnt = filter.length then filter.buffer pos else intMax
  let buffer := Function.update filter.buffer pos value
  { filter with
    buffer
    index :=
      if oval < value then moveUp buffer value (cnt - (oidx + 1)) oidx opened
      else if value < oval then moveDown buffer value oidx opened
      else opened }

def update (value : Int) (filter : MedianFilter) : Int × MedianFilter :=
  let pos := filter.position
  let cnt := filter.count
  let (result, after) :=
    if 0 < cnt then
      let inserted := filter.insert value
      (inserted.buffer (inserted.index (cnt / 2)), inserted)
    else
      (value, { filter with
        buffer := Function.update filter.buffer 0 value
        index := Function.update filter.index 0 0
        position := 0
        count := 0 })
  (result, { after with
    position := if pos + 1 = filter.length then 0 else pos + 1
    count := if cnt < filter.length then after.count + 1 else after.count })

theorem update_length (value : Int) (filter : MedianFilter) : (filter.update value).2.length = filter.length := by
  unfold update
  dsimp only
  split <;> rfl

def clear (filter : MedianFilter) : MedianFilter := { filter with position := 0, count := 0 }

end MedianFilter

namespace MeanFilter

def alloc (length : Nat) : MeanFilter := ⟨fun _ => 0, length, 0, 0, 0⟩

def update (value : Int) (filter : MeanFilter) : Int × MeanFilter :=
  let sum := filter.sum - filter.buffer filter.index + value
  let count := if filter.count < filter.length then filter.count + 1 else filter.count
  (sum.tdiv count,
    { filter with
      buffer := Function.update filter.buffer filter.index value
      index := (filter.index + 1) % filter.length
      count
      sum })

def clear (filter : MeanFilter) : MeanFilter :=
  { filter with buffer := fun i => if i < filter.length then 0 else filter.buffer i, index := 0, count := 0, sum := 0 }

end MeanFilter

structure TsFilter where
  mx : MedianFilter
  my : MedianFilter
  nx : MeanFilter
  ny : MeanFilter
  cal : Fin 7 → Int

namespace TsFilter

/-- The buffers of the medians hold what the allocator left there. -/
def alloc (ml nl : Nat) (buffer : Nat → Int) (index : Nat → Nat) : TsFilter :=
  ⟨.alloc ml buffer index, .alloc ml buffer index, .alloc nl, .alloc nl, ![1, 0, 0, 0, 1, 0, 1]⟩

def setcal (cal : Fin 7 → Int) (filter : TsFilter) : TsFilter := { filter with cal }

def update (x y : Int) (filter : TsFilter) : (Int × Int) × TsFilter :=
  let (mx, medianX) := filter.mx.update x
  let (my, medianY) := filter.my.update y
  let (tx, meanX) := filter.nx.update mx
  let (ty, meanY) := filter.ny.update my
  let cal := filter.cal
  (((cal 2 + cal 0 * tx + cal 1 * ty).tdiv (cal 6), (cal 5 + cal 3 * tx + cal 4 * ty).tdiv (cal 6)),
    { filter with mx := medianX, my := medianY, nx := meanX, ny := meanY })

def clear (filter : TsFilter) : TsFilter :=
  { filter with mx := filter.mx.clear, my := filter.my.clear, nx := filter.nx.clear, ny := filter.ny.clear }

end TsFilter

inductive EventType where
  | none | begin | move | finish
  deriving DecidableEq

structure TsEvent where
  type : EventType
  x : Int
  y : Int
  deriving DecidableEq

structure Sample where
  z : Option (UInt8 × UInt8)
  x : Option (UInt8 × UInt8)
  y : Option (UInt8 × UInt8)

/-- What `ts_read` makes of its answer. -/
def tsRead (answer : Option (UInt8 × UInt8)) : Option Int :=
  answer.map fun buf => ((buf.1.toNat <<< 4 ||| buf.2.toNat >>> 4 : Nat) : Int)

structure Ns2009 where
  filter : TsFilter
  event : TsEvent
  x : Int
  y : Int
  press : Bool

namespace Ns2009

def start (cal : Fin 7 → Int) (buffer : Nat → Int) (index : Nat → Nat) : Ns2009 :=
  ⟨(TsFilter.alloc 5 5 buffer index).setcal cal, ⟨.none, 0, 0⟩, 0, 0, false⟩

/-- A touch with the two values that the reads left behind. -/
def pressed (x y : Int) (ts : Ns2009) : Ns2009 :=
  let ((x, y), filter) := ts.filter.update x y
  let event :=
    if ts.press = false then ⟨.begin, x, y⟩
    else if ts.x ≠ x ∨ ts.y ≠ y then ⟨.move, x, y⟩
    else ts.event
  { filter, event, x, y, press := true }

def released (ts : Ns2009) : Ns2009 :=
  if ts.press then { ts with filter := ts.filter.clear, event := ⟨.finish, ts.x, ts.y⟩, press := false } else ts

/-- `_poll`. A read of X or Y that fails leaves the zero that the variable started with. -/
def poll (sample : Sample) (ts : Ns2009) : Ns2009 :=
  match tsRead sample.z with
  | none => { ts with event := ⟨.none, 0, 0⟩ }
  | some z1 =>
      if 70 < z1 ∧ z1 < 2000 then ts.pressed ((tsRead sample.x).getD 0) ((tsRead sample.y).getD 0)
      else ts.released

end Ns2009
end ArduinoK210.Touch
