import ArduinoK210.Lib.Nor

/-! `String` objects in one flat memory: the object's own 24 bytes, the heap blocks, and whatever else is live. -/

namespace ArduinoK210.Text

def uintMax : Nat := 4294967295

def localSize : Nat := 24

/-- A `String`. `home` is the address of `local_`. -/
structure Str where
  alive : Bool
  home : Nat
  data : Nat
  size : Nat
  capacity : Nat
  valid : Bool

/-- `foreign` has the other live memory, as addresses and lengths, and `top` is above all that has ever been in use.
`asked` and `refused` count the calls of `malloc`. -/
structure World where
  mem : Nat → UInt8
  str : Nat → Str
  foreign : Nat → Nat × Nat
  top : Nat
  asked : Nat
  refused : Nat

/-- What a byte of memory can belong to. -/
inductive Zone where
  | home (id : Nat)
  | heap (id : Nat)
  | foreign (number : Nat)
  deriving DecidableEq

def Zone.Of (id : Nat) (zone : Zone) : Prop := zone = .home id ∨ zone = .heap id

namespace World

variable (world : World)

def Holds (zone : Zone) (a : Nat) : Prop :=
  match zone with
  | .home id => (world.str id).alive = true ∧ (world.str id).home ≤ a ∧ a < (world.str id).home + localSize
  | .heap id =>
      (world.str id).alive = true ∧ (world.str id).data ≠ (world.str id).home ∧
        (world.str id).data ≤ a ∧ a < (world.str id).data + ((world.str id).capacity + 1)
  | .foreign number => (world.foreign number).1 ≤ a ∧ a < (world.foreign number).1 + (world.foreign number).2

def Free (base length : Nat) : Prop := ∀ zone a, base ≤ a → a < base + length → ¬world.Holds zone a

def content (id : Nat) : List UInt8 := Nor.slice world.mem (world.str id).data (world.str id).size

/-- What holds of one `String` between operations. -/
structure Fine (id : Nat) : Prop where
  fits : (world.str id).size ≤ (world.str id).capacity
  terminated : world.mem ((world.str id).data + (world.str id).size) = 0
  inline : (world.str id).data = (world.str id).home → (world.str id).capacity + 1 = localSize
  small : (world.str id).capacity < uintMax
  invalid : (world.str id).valid = false → (world.str id).size = 0

/-- What holds of all memory between operations. -/
structure Sound : Prop where
  fine : ∀ id, (world.str id).alive = true → world.Fine id
  apart : ∀ zone other a, world.Holds zone a → world.Holds other a → zone = other
  below : ∀ zone a, world.Holds zone a → a < world.top

def set (id : Nat) (str : Str) : World := { world with str := Function.update world.str id str }

@[simp] theorem set_str (id : Nat) (str : Str) : (world.set id str).str id = str := Function.update_self ..

theorem set_others {id j : Nat} (str : Str) (different : j ≠ id) : (world.set id str).str j = world.str j :=
  Function.update_of_ne different _ _

def store (base : Nat) (data : List UInt8) : World := { world with mem := Nor.put world.mem base data }

end World

/-- The allocator. A block that it grants is nobody's, and it may do what it likes with a block that it gets back. -/
structure Library where
  malloc : World → Nat → Option Nat
  junk : World → Nat → UInt8
  fresh : ∀ (world : World) (length base : Nat), world.Sound → malloc world length = some base → world.Free base length

def Library.free (lib : Library) (base length : Nat) (world : World) : World :=
  { world with mem := fun a => if base ≤ a ∧ a < base + length then lib.junk world a else world.mem a }

end ArduinoK210.Text
