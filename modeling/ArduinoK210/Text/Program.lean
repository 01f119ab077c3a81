import ArduinoK210.Text.Lifetime

/-! Programs of `String` operations. The rest of the program may do what it likes in between, away from the `String`s. -/

namespace ArduinoK210.Text

/-- `elsewhere` is a time in which no operation runs. -/
inductive Op where
  | construct (id home : Nat) (text : Option Nat) (count : Nat)
  | constructString (id home other : Nat)
  | constructMove (id home other : Nat)
  | substring (id home empty src first last : Nat)
  | destroy (id : Nat)
  | assign (id : Nat) (text : Option Nat) (count : Nat)
  | assignString (id other : Nat)
  | assignMove (id other : Nat)
  | concat (id : Nat) (text : Option Nat) (count : Nat)
  | concatChar (id : Nat) (c : UInt8)
  | concatString (id other : Nat)
  | reserve (id count : Nat)
  | replace (id before after result stack : Nat)
  | replaceChar (id : Nat) (before after : UInt8)
  | remove (id first count : Nat)
  | trim (id : Nat)
  | setCharAt (id index : Nat) (c : UInt8)
  | indexOfChar (id : Nat) (c : UInt8) (start : Nat)
  | indexOf (id value start : Nat)
  | lastIndexOfChar (id : Nat) (c : UInt8) (start : Nat)
  | lastIndexOf (id value start : Nat)
  | elsewhere (next : World)

namespace World

variable (world : World)

/-- An object that the program may construct now, at an address where nothing is. -/
def Fresh (id home : Nat) : Prop := (world.str id).alive = false ∧ world.Free home localSize

def Living (id : Nat) : Prop := (world.str id).alive = true

/-- The program has not touched the `String`s, and what it has got in the meantime is its own. -/
structure Elsewhere (next : World) : Prop where
  str : next.str = world.str
  kept : ∀ id zone a, Zone.Of id zone → world.Holds zone a → next.mem a = world.mem a
  away : ∀ number a, next.Holds (.foreign number) a → ∀ id zone, Zone.Of id zone → ¬world.Holds zone a
  apart : ∀ number other a, next.Holds (.foreign number) a → next.Holds (.foreign other) a → number = other
  below : ∀ number a, next.Holds (.foreign number) a → a < next.top
  top : world.top ≤ next.top

structure Start : Prop where
  dead : ∀ id, (world.str id).alive = false
  apart : ∀ number other a, world.Holds (.foreign number) a → world.Holds (.foreign other) a → number = other
  below : ∀ number a, world.Holds (.foreign number) a → a < world.top

end World

namespace Op

/-- What C++ asks of a call: living objects, new ones where there is room, texts that may be read, and `unsigned` counts. -/
def Legal (op : Op) (world : World) : Prop :=
  match op with
  | .construct id home text count =>
      world.Fresh id home ∧ count ≤ uintMax ∧
        ∀ start, text = some start → ∃ zone, ∀ a, start ≤ a → a < start + count → world.Holds zone a
  | .constructString id home other => world.Fresh id home ∧ world.Living other
  | .constructMove id home other => world.Fresh id home ∧ world.Living other
  | .substring id home _ src _ _ => world.Fresh id home ∧ world.Living src
  | .destroy id => world.Living id
  | .assign id text count => world.Living id ∧ count ≤ uintMax ∧ ∀ start, text = some start → world.Readable id start count
  | .assignString id other => world.Living id ∧ world.Living other
  | .assignMove id other => world.Living id ∧ world.Living other
  | .concat id text count => world.Living id ∧ ∀ start, text = some start → world.Readable id start count
  | .concatChar id _ => world.Living id
  | .concatString id other => world.Living id ∧ world.Living other
  | .reserve id count => world.Living id ∧ count ≤ uintMax
  | .replace id before after result stack =>
      world.Living id ∧ world.Living before ∧ world.Living after ∧ world.Fresh result stack
  | .replaceChar id _ _ => world.Living id
  | .remove id _ _ => world.Living id
  | .trim id => world.Living id
  | .setCharAt id _ _ => world.Living id
  | .indexOfChar id _ _ => world.Living id
  | .indexOf id value _ => world.Living id ∧ world.Living value
  | .lastIndexOfChar id _ _ => world.Living id
  | .lastIndexOf id value _ => world.Living id ∧ world.Living value
  | .elsewhere next => world.Elsewhere next

variable (lib : Library)

def run (world : World) : Op → Answer × World
  | .construct id home text count => (.done, Text.construct lib id home text count world)
  | .constructString id home other => (.done, Text.constructString lib id home other world)
  | .constructMove id home other => (.done, Text.constructMove id home other world)
  | .substring id home empty src first last => (.done, Text.substring lib id home empty src first last world)
  | .destroy id => (.done, Text.destroy lib id world)
  | .assign id text count => (.done, Text.assign lib id text count world)
  | .assignString id other => (.done, Text.assignString lib id other world)
  | .assignMove id other => (.done, Text.assignMove lib id other world)
  | .concat id text count =>
      let (ok, world) := Text.concat lib id text count world
      (.flag ok, world)
  | .concatChar id c =>
      let (ok, world) := Text.concatChar lib id c world
      (.flag ok, world)
  | .concatString id other =>
      let (ok, world) := Text.concatString lib id other world
      (.flag ok, world)
  | .reserve id count =>
      let (ok, world) := Text.reserve lib id count world
      (.flag ok, world)
  | .replace id before after result stack => (.done, Text.replace lib id before after result stack world)
  | .replaceChar id before after => (.done, Text.replaceChar id before after world)
  | .remove id first count => (.done, Text.remove id first count world)
  | .trim id => (.done, Text.trim id world)
  | .setCharAt id index c => (.done, Text.setCharAt id index c world)
  | .indexOfChar id c start => (.index (Text.indexOfChar world id c start), world)
  | .indexOf id value start => (.index (Text.indexOf world id value start), world)
  | .lastIndexOfChar id c start => (.index (Text.lastIndexOfChar world id c start), world)
  | .lastIndexOf id value start => (.index (Text.lastIndexOf world id value start), world)
  | .elsewhere next => (.done, next)

/-- The operation on values. A pointer stands for what it points at before the call. -/
def call (world : World) : Op → Call
  | .construct id _ text count => .construct id (text.map (Nor.slice world.mem · count))
  | .constructString id _ other => .construct id (world.value other)
  | .constructMove id _ other => .constructMove id other
  | .substring id _ _ src first last => .substring id src first last
  | .destroy id => .destroy id
  | .assign id text count => .assign id (text.map (world.text id · count))
  | .assignString id other => .assignString id other
  | .assignMove id other => .assignMove id other
  | .concat id text count => .concat id (text.bind (world.whole id · count))
  | .concatChar id c => .concat id (some [c])
  | .concatString id other => .concat id (world.value other)
  | .reserve id count => .reserve id count
  | .replace id before after _ _ => .replace id before after
  | .replaceChar id before after => .replaceChar id before after
  | .remove id first count => .remove id first count
  | .trim id => .trim id
  | .setCharAt id index c => .setCharAt id index c
  | .indexOfChar id c start => .indexOfChar id c start
  | .indexOf id value start => .indexOf id value start
  | .lastIndexOfChar id c start => .lastIndexOfChar id c start
  | .lastIndexOf id value start => .lastIndexOf id value start
  | .elsewhere _ => .idle

def fits (world : World) (op : Op) : Bool := (op.run lib world).2.refused == world.refused

/-- The operations that keep what they have when they do not get more memory. -/
def grows : Op → Bool
  | .concat .. | .concatChar .. | .concatString .. | .reserve .. | .replace .. => true
  | _ => false

/-- The `String` that a construction or an assignment gives a new text. -/
def assigned : Op → Option Nat
  | .construct id .. | .constructString id .. | .substring id .. | .assign id .. | .assignString id _ => some id
  | _ => none

def step (op : Op) (world : World) : World := (op.run lib world).2

end Op

/-- The calls of a program in memory, as calls on values. -/
def trace (lib : Library) : List Op → World → List (Bool × Call)
  | [], _ => []
  | op :: ops, world => (op.fits lib world, op.call world) :: trace lib ops (op.step lib world)

def answers (lib : Library) : List Op → World → List Answer
  | [], _ => []
  | op :: ops, world => (op.run lib world).1 :: answers lib ops (op.step lib world)

end ArduinoK210.Text
