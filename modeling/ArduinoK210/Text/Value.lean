import ArduinoK210.Text.WString
import Mathlib.Data.List.DropRight

/-! The operations of `String` on plain lists of bytes, and on a family of them. An invalid `String` has no list. -/

namespace ArduinoK210.Text

/-- The bytes of a `String`, if it is valid, or a text, if there is one. -/
abbrev Value := Option (List UInt8)

namespace Value

def bytes (value : Value) : List UInt8 := value.getD []

def stored (fits : Bool) (value : Value) : Value := value.filter fun text => fits && text.length < uintMax

def concat (fits : Bool) (value text : Value) : Bool × Value :=
  match stored fits (text.map (value.bytes ++ ·)) with
  | none => (false, value)
  | some longer => (true, some longer)

def reserve (fits : Bool) (count : Nat) (value : Value) : Bool × Value :=
  if fits && count < uintMax then (true, some value.bytes) else (false, value)

/-- The text with `after` for each `before` in it, from the front. There is none if `before` occurs and `after` is invalid. -/
def replaceAll (before : List UInt8) (after : Value) : List UInt8 → Value
  | [] => some []
  | c :: rest =>
      if before.isPrefixOf (c :: rest) then
        after.bind fun text => (replaceAll before after (rest.drop (before.length - 1))).map (text ++ ·)
      else (replaceAll before after rest).map (c :: ·)
termination_by text => text.length
decreasing_by all_goals simp only [List.length_drop, List.length_cons]; omega

def replace (fits : Bool) (before after value : Value) : Value :=
  if before.bytes = [] then value
  else
    match stored fits (replaceAll before.bytes after value.bytes) with
    | none => value
    | some text => some text

def setCharAt (index : Nat) (c : UInt8) (value : Value) : Value := value.map (·.set index c)

def replaceChar (before after : UInt8) (value : Value) : Value := value.map (·.map fun c => if c = before then after else c)

def remove (first count : Nat) (value : Value) : Value := value.map fun text => text.take first ++ text.drop (first + count)

def trim (value : Value) : Value := value.map fun text => (text.rdropWhile isspace).dropWhile isspace

def substring (first last : Nat) (value : Value) : List UInt8 := (value.bytes.take (max first last)).drop (min first last)

def indexOfChar (c : UInt8) (start : Nat) (text : List UInt8) : Option Nat :=
  (List.range text.length).find? fun i => start ≤ i && text[i]? == some c

def lastIndexOfChar (c : UInt8) (start : Nat) (text : List UInt8) : Option Nat :=
  (List.range text.length).reverse.find? fun i => i ≤ start && text[i]? == some c

def indexOf (sought : List UInt8) (start : Nat) (text : List UInt8) : Option Nat :=
  (List.range (text.length + 1)).find? fun i => start ≤ i && sought.isPrefixOf (text.drop i)

def lastIndexOf (sought : List UInt8) (start : Nat) (text : List UInt8) : Option Nat :=
  (List.range (text.length + 1)).reverse.find? fun i => i ≤ start && sought.isPrefixOf (text.drop i)

end Value

/-- The operations, with the texts that their pointers stand for. -/
inductive Call where
  | construct (id : Nat) (text : Value)
  | constructMove (id other : Nat)
  | substring (id src first last : Nat)
  | destroy (id : Nat)
  | assign (id : Nat) (text : Value)
  | assignString (id other : Nat)
  | assignMove (id other : Nat)
  | concat (id : Nat) (text : Value)
  | reserve (id count : Nat)
  | replace (id before after : Nat)
  | replaceChar (id : Nat) (before after : UInt8)
  | remove (id first count : Nat)
  | trim (id : Nat)
  | setCharAt (id index : Nat) (c : UInt8)
  | indexOfChar (id : Nat) (c : UInt8) (start : Nat)
  | indexOf (id value start : Nat)
  | lastIndexOfChar (id : Nat) (c : UInt8) (start : Nat)
  | lastIndexOf (id value start : Nat)
  | idle

inductive Answer where
  | done
  | flag (ok : Bool)
  | index (place : Int)
  deriving DecidableEq

abbrev Strings := Nat → Option Value

namespace Strings

variable (strings : Strings)

def value (id : Nat) : Value := (strings id).join

def put (id : Nat) (value : Value) : Strings := Function.update strings id (some value)

/-- `fits` says that the memory that the call needs is there. -/
def call (fits : Bool) : Call → Answer × Strings
  | .construct id text => (.done, strings.put id (Value.stored fits text))
  | .constructMove id other => (.done, (strings.put id (strings.value other)).put other (some []))
  | .substring id src first last => (.done, strings.put id (Value.stored fits (some ((strings.value src).substring first last))))
  | .destroy id => (.done, Function.update strings id none)
  | .assign id text => (.done, strings.put id (Value.stored fits text))
  | .assignString id other =>
      (.done, if id = other then strings else strings.put id (Value.stored fits (strings.value other)))
  | .assignMove id other =>
      (.done, if id = other then strings else (strings.put id (strings.value other)).put other (some []))
  | .concat id text =>
      let (ok, value) := (strings.value id).concat fits text
      (.flag ok, strings.put id value)
  | .reserve id count =>
      let (ok, value) := (strings.value id).reserve fits count
      (.flag ok, strings.put id value)
  | .replace id before after =>
      (.done, strings.put id (Value.replace fits (strings.value before) (strings.value after) (strings.value id)))
  | .replaceChar id before after => (.done, strings.put id ((strings.value id).replaceChar before after))
  | .remove id first count => (.done, strings.put id ((strings.value id).remove first count))
  | .trim id => (.done, strings.put id (strings.value id).trim)
  | .setCharAt id index c => (.done, strings.put id ((strings.value id).setCharAt index c))
  | .indexOfChar id c start => (.index (found (Value.indexOfChar c start (strings.value id).bytes)), strings)
  | .indexOf id value start => (.index (found (Value.indexOf (strings.value value).bytes start (strings.value id).bytes)), strings)
  | .lastIndexOfChar id c start => (.index (found (Value.lastIndexOfChar c start (strings.value id).bytes)), strings)
  | .lastIndexOf id value start =>
      (.index (found (Value.lastIndexOf (strings.value value).bytes start (strings.value id).bytes)), strings)
  | .idle => (.done, strings)

/-- A program on values. Each call comes with whether it gets its memory. -/
def run : List (Bool × Call) → Strings → List Answer × Strings
  | [], strings => ([], strings)
  | (fits, operation) :: calls, strings =>
      let (answer, next) := strings.call fits operation
      let (answers, last) := run calls next
      (answer :: answers, last)

end Strings

end ArduinoK210.Text
