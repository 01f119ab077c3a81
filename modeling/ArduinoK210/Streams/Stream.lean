import ArduinoK210.Lib.Nor
import ArduinoK210.Text.WString
import Mathlib.Data.Nat.Find

/-! `Stream.cpp`: numbers and patterns in what a stream delivers. A stream is the bytes that still come before it falls
silent, and `timedPeek` and `timedRead` answer with its first byte, or with `-1` at its end. -/

namespace ArduinoK210.Streams

open Nor (slice)
open Text (isspace)

/-- The bytes that come before the stream falls silent. -/
abbrev Stream := List UInt8

inductive LookaheadMode where
  | skipAll
  | skipNone
  | skipWhitespace
  deriving DecidableEq, Repr

def isDigit (value : UInt8) : Bool := 48 ≤ value && value ≤ 57

/-- `peekNextDigit`: `none` is `-1`, and the bytes that were read are gone from the stream. -/
def peekNextDigit (mode : LookaheadMode) (decimal : Bool) : Stream → Option UInt8 × Stream
  | [] => (none, [])
  | value :: rest =>
      if isDigit value || value == 45 || (decimal && value == 46) then (some value, value :: rest)
      else if mode == .skipNone || (mode == .skipWhitespace && !isspace value) then (none, value :: rest)
      else peekNextDigit mode decimal rest

def LONG_MAX : UInt64 := 9223372036854775807

def LONG_MIN : Int64 := -9223372036854775808

/-- `result > (limit - digit) / 10 ? limit : result * 10 + digit`. -/
def accumulate (limit result : UInt64) (value : UInt8) : UInt64 :=
  let digit := (value - 48).toUInt64
  if result > (limit - digit) / 10 then limit else result * 10 + digit

/-- The loop of `parseInt`. -/
def parseDigits (ignore : UInt8) (limit result : UInt64) : Stream → UInt64 × Stream
  | [] => (result, [])
  | value :: rest =>
      if isDigit value then parseDigits ignore limit (accumulate limit result value) rest
      else if value != ignore then (result, value :: rest)
      else parseDigits ignore limit result rest

def parseInt (mode : LookaheadMode) (ignore : UInt8) (stream : Stream) : Int64 × Stream :=
  match peekNextDigit mode false stream with
  | (none, rest) => (0, rest)
  | (some _, rest) =>
      let negative := rest.head? == some 45
      let rest := if negative then rest.drop 1 else rest
      let limit := if negative then LONG_MAX + 1 else LONG_MAX
      let (result, rest) := parseDigits ignore limit 0 rest
      if negative && result == LONG_MAX + 1 then (LONG_MIN, rest)
      else (if negative then -result.toInt64 else result.toInt64, rest)

structure MultiTarget where
  str : Nat
  len : Nat
  index : Nat

section FindMulti
variable (memory : Nat → UInt8)

/-- `while (prefix && memcmp(p.str, p.str + p.index - prefix, prefix)) --prefix`. -/
def border (p : MultiTarget) : Nat → Nat
  | 0 => 0
  | shorter + 1 =>
      if slice memory p.str (shorter + 1) ≠ slice memory (p.str + p.index - (shorter + 1)) (shorter + 1) then border p shorter
      else shorter + 1

theorem border_le (p : MultiTarget) (longest : Nat) : border memory p longest ≤ longest := by
  induction longest with
  | zero => exact Nat.le_refl 0
  | succ shorter ih =>
    rw [border]
    split
    · exact Nat.le_succ_of_le ih
    · exact Nat.le_refl _

/-- The loop over mismatches. -/
def retain (value : UInt8) (p : MultiTarget) : MultiTarget :=
  if p.index ≠ 0 ∧ memory (p.str + p.index) ≠ value then retain value { p with index := border memory p (p.index - 1) } else p
termination_by p.index
decreasing_by
  have shorter := border_le memory p (p.index - 1)
  omega

/-- One pattern takes one byte. -/
def advance (value : UInt8) (p : MultiTarget) : MultiTarget :=
  let p := retain memory value p
  if memory (p.str + p.index) = value then { p with index := p.index + 1 } else p

/-- The first loop of `findMulti`: its answer, or the patterns with nothing matched. -/
def start : (place : Nat) → List MultiTarget → Except Int (List MultiTarget)
  | _, [] => .ok []
  | place, p :: patterns =>
      let p := { p with index := 0 }
      if p.len = 0 then .error place
      else if p.str = 0 then .error (-1)
      else (start (place + 1) patterns).map (p :: ·)

/-- All patterns take one byte in their order, until one is complete. -/
def advanceAll (value : UInt8) : (place : Nat) → List MultiTarget → Except Int (List MultiTarget)
  | _, [] => .ok []
  | place, p :: patterns =>
      let p := advance memory value p
      if p.index = p.len then .error place else (advanceAll value (place + 1) patterns).map (p :: ·)

/-- The loop over the bytes of the stream. -/
def search : List MultiTarget → Stream → Int × Stream
  | _, [] => (-1, [])
  | patterns, value :: rest =>
      match advanceAll memory value 0 patterns with
      | .error found => (found, rest)
      | .ok patterns => search patterns rest

def findMulti (patterns : List MultiTarget) (stream : Stream) : Int × Stream :=
  if patterns.length = 0 then (-1, stream)
  else
    match start 0 patterns with
    | .error answer => (answer, stream)
    | .ok patterns => search memory patterns stream

def findUntil (pattern count stop stopCount : Nat) (stream : Stream) : Bool × Stream :=
  if pattern = 0 ∨ (stop = 0 ∧ stopCount ≠ 0) then (false, stream)
  else
    let candidates : List MultiTarget := [⟨pattern, count, 0⟩, ⟨stop, stopCount, 0⟩]
    let (found, rest) := findMulti memory (candidates.take (if stop ≠ 0 ∧ stopCount ≠ 0 then 2 else 1)) stream
    (found == 0, rest)

def find (pattern count : Nat) (stream : Stream) : Bool × Stream := findUntil memory pattern count 0 0 stream

/-- A pointer to a text that ends. -/
structure CString where
  address : Nat
  notNull : address ≠ 0
  ends : ∃ length, memory (address + length) = 0

variable {memory}

def strlen (text : CString memory) : Nat := Nat.find text.ends

def findUntilText (pattern stop : Option (CString memory)) (stream : Stream) : Bool × Stream :=
  match pattern with
  | none => (false, stream)
  | some pattern =>
      match stop with
      | none => findUntil memory pattern.address (strlen pattern) 0 0 stream
      | some stop => findUntil memory pattern.address (strlen pattern) stop.address (strlen stop) stream

end FindMulti

end ArduinoK210.Streams
