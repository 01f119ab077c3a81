import ArduinoK210.Text.World

/-! `WString.cpp`. Each operation goes from the memory before it to the memory after it. -/

namespace ArduinoK210.Text

open Nor (slice)

section Storage

variable (lib : Library)

def clear (id : Nat) (world : World) : World :=
  let str := world.str id
  (world.store str.data [0]).set id { str with size := 0 }

def resetInvalid (id : Nat) (world : World) : World :=
  let cleared := clear id world
  cleared.set id { cleared.str id with valid := false }

/-- The move to the block that `reserve` got. -/
def grow (id next capacity : Nat) (world : World) : World :=
  let str := world.str id
  let copied := world.store next (slice world.mem str.data (str.size + 1))
  let freed := if str.data ≠ str.home then lib.free str.data (str.capacity + 1) copied else copied
  { freed.set id { str with data := next, capacity := capacity, valid := true } with
    asked := world.asked + 1, top := max world.top (next + (capacity + 1)) }

def reserve (id count : Nat) (world : World) : Bool × World :=
  let str := world.str id
  if count = uintMax then (false, world)
  else if str.capacity < count then
    let grown := if str.capacity ≤ (uintMax - 2) / 2 then str.capacity * 2 + 1 else uintMax - 1
    let capacity := if grown < count then count else grown
    match lib.malloc world (capacity + 1) with
    | none => (false, { world with asked := world.asked + 1, refused := world.refused + 1 })
    | some next => (true, grow lib id next capacity world)
  else (true, world.set id { str with valid := true })

/-- The end of `assign` and `concat`: the characters, the new size and the terminator. -/
def fill (id start : Nat) (text : List UInt8) (world : World) : World :=
  let str := world.str id
  ((world.store (str.data + start) text).store (str.data + start + text.length) [0]).set id
    { str with size := start + text.length }

/-- The text refers into the current storage. -/
def Str.internal (str : Str) (text : Nat) : Bool := str.data ≤ text && text - str.data ≤ str.size

/-- `memmove` from the text, wherever the storage may be by now. -/
def source (internal : Bool) (text offset count id : Nat) (world : World) : List UInt8 :=
  slice world.mem (if internal then (world.str id).data + offset else text) count

def assign (id : Nat) (text : Option Nat) (count : Nat) (world : World) : World :=
  match text with
  | none => resetInvalid id world
  | some text =>
      let str := world.str id
      let internal := str.internal text
      let offset := if internal then text - str.data else 0
      let count := if internal ∧ str.size - offset < count then str.size - offset else count
      match reserve lib id count world with
      | (false, world) => resetInvalid id world
      | (true, world) => fill id 0 (source internal text offset count id world) world

/-- `concat` after its tests of the text. `text` is read when the room has been made. -/
def append (id count : Nat) (text : World → List UInt8) (world : World) : Bool × World :=
  match reserve lib id ((world.str id).size + count) world with
  | (false, world) => (false, world)
  | (true, world) => (true, fill id (world.str id).size (text world) world)

def concat (id : Nat) (text : Option Nat) (count : Nat) (world : World) : Bool × World :=
  match text with
  | none => (false, world)
  | some text =>
      let str := world.str id
      let internal := str.internal text
      let offset := if internal then text - str.data else 0
      if uintMax - str.size - 1 < count then (false, world)
      else if internal ∧ str.size - offset < count then (false, world)
      else append lib id count (source internal text offset count id) world

def concatChar (id : Nat) (value : UInt8) (world : World) : Bool × World :=
  if uintMax - (world.str id).size - 1 < 1 then (false, world) else append lib id 1 (fun _ => [value]) world

def cStr (id : Nat) (world : World) : Option Nat := if (world.str id).valid then some (world.str id).data else none

def concatString (id other : Nat) (world : World) : Bool × World :=
  concat lib id (cStr other world) (world.str other).size world

def take (id other : Nat) (world : World) : World :=
  let str := world.str id
  let from_ := world.str other
  let taken :=
    if from_.data = from_.home then
      (world.store str.home (slice world.mem from_.home localSize)).set id
        { str with data := str.home, capacity := localSize - 1, size := from_.size, valid := from_.valid }
    else
      (world.set id { str with data := from_.data, capacity := from_.capacity, size := from_.size, valid := from_.valid }).set
        other { from_ with data := from_.home, capacity := localSize - 1 }
  let cleared := clear other taken
  cleared.set other { cleared.str other with valid := true }

def drop (id : Nat) (world : World) : World :=
  let str := world.str id
  if str.data ≠ str.home then lib.free str.data (str.capacity + 1) world else world

def assignString (id other : Nat) (world : World) : World :=
  if id = other then world else assign lib id (cStr other world) (world.str other).size world

def assignMove (id other : Nat) (world : World) : World :=
  if id = other then world else take id other (drop lib id world)

/-- The members before the body of a constructor. -/
def create (id home : Nat) (world : World) : World :=
  { (world.store home (List.replicate localSize 0)).set id ⟨true, home, home, 0, localSize - 1, true⟩ with
    top := max world.top (home + localSize) }

def construct (id home : Nat) (text : Option Nat) (count : Nat) (world : World) : World :=
  assign lib id text count (create id home world)

def constructString (id home other : Nat) (world : World) : World :=
  let created := create id home world
  assign lib id (cStr other created) (created.str other).size created

def constructMove (id home other : Nat) (world : World) : World := take id other (create id home world)

def destroy (id : Nat) (world : World) : World :=
  let dropped := lib.free (world.str id).home localSize (drop lib id world)
  dropped.set id { dropped.str id with alive := false }

end Storage

section Search

variable (world : World)

def startsWith (id prefix_ offset : Nat) : Bool :=
  let str := world.str id
  let start := world.str prefix_
  offset ≤ str.size && start.size ≤ str.size - offset &&
    slice world.mem (str.data + offset) start.size == slice world.mem start.data start.size

/-- The conversion of an index to `int`. -/
def asInt (index : Nat) : Int := if index < 2147483648 then index else (index : Int) - 4294967296

def found (index : Option Nat) : Int := (index.map asInt).getD (-1)

/-- `memchr` finds the first of equal characters. -/
def indexOfChar (id : Nat) (value : UInt8) (start : Nat) : Int :=
  let str := world.str id
  if str.size ≤ start then -1
  else found ((List.range' start (str.size - start)).find? fun i => world.mem (str.data + i) == value)

def indexOf (id value start : Nat) : Int :=
  let str := world.str id
  let sought := world.str value
  if str.size < start ∨ str.size - start < sought.size then -1
  else found ((List.range' start (str.size - sought.size + 1 - start)).find? fun pos => startsWith world id value pos)

def lastIndexOfChar (id : Nat) (value : UInt8) (start : Nat) : Int :=
  let str := world.str id
  if str.size = 0 then -1
  else
    let pos := if start < str.size then start else str.size - 1
    found ((List.range (pos + 1)).reverse.find? fun i => world.mem (str.data + i) == value)

def lastIndexOf (id value start : Nat) : Int :=
  let str := world.str id
  let sought := world.str value
  if str.size < sought.size then -1
  else
    let pos := if start < str.size - sought.size then start else str.size - sought.size
    found ((List.range (pos + 1)).reverse.find? fun pos => startsWith world id value pos)

end Search

section Edit

def setCharAt (id index : Nat) (value : UInt8) (world : World) : World :=
  let str := world.str id
  if index < str.size then world.store (str.data + index) [value] else world

def replaceChar (id : Nat) (before after : UInt8) (world : World) : World :=
  let str := world.str id
  world.store str.data ((slice world.mem str.data str.size).map fun c => if c = before then after else c)

def remove (id first count : Nat) (world : World) : World :=
  let str := world.str id
  if str.size ≤ first then world
  else
    let count := if str.size - first < count then str.size - first else count
    (world.store (str.data + first) (slice world.mem (str.data + first + count) (str.size - first - count + 1))).set id
      { str with size := str.size - count }

def isspace (c : UInt8) : Bool := c == 32 || (9 ≤ c && c ≤ 13)

/-- `while (size_ && isspace(data_[size_ - 1])) data_[--size_] = 0`. The number is `size_`. -/
def trimEnd (id : Nat) (world : World) : Nat → World
  | 0 => world
  | size + 1 =>
      let str := world.str id
      if isspace (world.mem (str.data + size)) then
        trimEnd id ((world.store (str.data + size) [0]).set id { str with size := size }) size
      else world

def trim (id : Nat) (world : World) : World :=
  let trimmed := trimEnd id world (world.str id).size
  let str := trimmed.str id
  let first := ((List.range str.size).find? fun i => !isspace (trimmed.mem (str.data + i))).getD str.size
  remove id 0 first trimmed

variable (lib : Library)

/-- The result is constructed in `id`. `empty` is the address of `""`. -/
def substring (id home empty src first last : Nat) (world : World) : World :=
  let low := if last < first then last else first
  let high := if last < first then first else last
  let str := world.str src
  let created := create id home world
  if str.size ≤ low then assign lib id (some empty) 0 created
  else
    let high := if str.size < high then str.size else high
    assign lib id (some (str.data + low)) (high - low) created

/-- The loop of `replace`, which fills `result`. It does not change `size`, which is `size_`, nor `width`, one less than
`before.size_`. The flag says that it got through. -/
def replaceLoop (id before after result size width pos : Nat) (world : World) : Bool × World :=
  if pos < size then
    if startsWith world id before pos then
      match concatString lib result after world with
      | (false, world) => (false, world)
      | (true, world) => replaceLoop id before after result size width (pos + (width + 1)) world
    else
      match concatChar lib result (world.mem ((world.str id).data + pos)) world with
      | (false, world) => (false, world)
      | (true, world) => replaceLoop id before after result size width (pos + 1) world
  else (true, world)
termination_by size - pos

/-- `result` is the variable of that name, at the address `stack`. -/
def replace (id before after result stack : Nat) (world : World) : World :=
  match (world.str before).size with
  | 0 => world
  | width + 1 =>
      match replaceLoop lib id before after result (world.str id).size width 0 (create result stack world) with
      | (false, world) => destroy lib result world
      | (true, world) => destroy lib result (assignMove lib id result world)

end Edit

end ArduinoK210.Text
