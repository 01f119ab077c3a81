import ArduinoK210.Lib.Numeral
import Mathlib.Data.Fin.Basic

/-! Reading and writing IP addresses. A text is what stands before the NUL: at its end the source sees the character 0. -/

namespace ArduinoK210.Net
open Numeral (scan)

inductive IPType where
  | IPv4
  | IPv6
  deriving DecidableEq

/-- An IPv4 address has its four bytes behind twelve zeros. -/
@[ext] structure IPAddress where
  bytes : Fin 16 → UInt8
  family : IPType
  padded : family = .IPv4 → ∀ index, index.val < 12 → bytes index = 0

namespace IPAddress

def ofOctets (a b c d : UInt8) : IPAddress where
  bytes index :=
    if index.val = 12 then a else if index.val = 13 then b else if index.val = 14 then c else if index.val = 15 then d else 0
  family := .IPv4
  padded _ index low := by
    rw [if_neg (by omega), if_neg (by omega), if_neg (by omega), if_neg (by omega)]

def ofWords (words : Nat → UInt16) : IPAddress where
  bytes index := if index.val % 2 = 0 then (words (index.val / 2) >>> 8).toUInt8 else (words (index.val / 2)).toUInt8
  family := .IPv6
  padded := nofun

/-- `bytes_[2 * i] << 8 | bytes_[2 * i + 1]`. -/
def word (address : IPAddress) (index : Fin 8) : UInt16 :=
  (address.bytes ⟨2 * index.val, by omega⟩).toUInt16 <<< 8 ||| (address.bytes ⟨2 * index.val + 1, by omega⟩).toUInt16

end IPAddress

def decimalValue (ch : Char) : Option Nat := if '0' ≤ ch ∧ ch ≤ '9' then some (ch.toNat - '0'.toNat) else none

def hexValue (ch : Char) : Option Nat :=
  if '0' ≤ ch ∧ ch ≤ '9' then some (ch.toNat - '0'.toNat)
  else if 'a' ≤ ch ∧ ch ≤ 'f' then some (ch.toNat - 'a'.toNat + 10)
  else if 'A' ≤ ch ∧ ch ≤ 'F' then some (ch.toNat - 'A'.toNat + 10)
  else none

def octetFits (digits value : Nat) : Bool := digits ≤ 3 && value ≤ 255

def groupFits (digits _ : Nat) : Bool := digits ≤ 4

/-- The loop of `parseV4` with `left` octets to come. -/
def parseOctets : Nat → List Char → Option (List UInt8)
  | 0, _ => some []
  | left + 1, text =>
      match scan decimalValue 10 octetFits 0 0 text with
      | none => none
      | some (value, digits, rest) =>
          if digits = 0 then none
          else if left = 0 then if rest = [] then some [UInt8.ofNat value] else none
          else
            match rest with
            | '.' :: rest => (parseOctets left rest).map (UInt8.ofNat value :: ·)
            | _ => none

def parseV4 (text : List Char) : Option (List UInt8) := parseOctets 4 text

/-- The two words of a dotted quad. -/
def quadWords : List UInt8 → List UInt16
  | [a, b, c, d] => [a.toUInt16 <<< 8 ||| b.toUInt16, c.toUInt16 <<< 8 ||| d.toUInt16]
  | _ => []

/-- The loop of `fromString6`. `left` is `8 - count`, and `words` are the words read so far. -/
def parseGroups : Nat → List UInt16 → Option Nat → List Char → Option (List UInt16 × Option Nat)
  | _, words, hole, [] => some (words, hole)
  | 0, _, _, _ :: _ => none
  | left + 1, words, hole, ch :: cursor =>
      match scan hexValue 16 groupFits 0 0 (ch :: cursor) with
      | none => none
      | some (_, _, '.' :: _) =>
          if 6 < words.length then none else (parseV4 (ch :: cursor)).map fun octets => (words ++ quadWords octets, hole)
      | some (value, digits, rest) =>
          if digits = 0 then none
          else
            let words := words ++ [UInt16.ofNat value]
            match rest with
            | [] => some (words, hole)
            | ':' :: ':' :: rest => if hole.isSome then none else parseGroups left words (some words.length) rest
            | [':'] => none
            | ':' :: rest => parseGroups left words hole rest
            | _ => none

/-- The words behind the hole move to the end, and zeros take their place. -/
def fillHole (words : List UInt16) : Option Nat → Option (List UInt16)
  | none => if words.length = 8 then some words else none
  | some hole =>
      if 8 ≤ words.length then none
      else some (words.take hole ++ List.replicate (8 - words.length) 0 ++ words.drop hole)

def parseV6 : List Char → Option (List UInt16)
  | [] => none
  | ':' :: ':' :: rest => (parseGroups 8 [] (some 0) rest).bind fun (words, hole) => fillHole words hole
  | ':' :: _ => none
  | text => (parseGroups 8 [] none text).bind fun (words, hole) => fillHole words hole

def fromString4 (text : List Char) (address : IPAddress) : Bool × IPAddress :=
  match parseV4 text with
  | some [a, b, c, d] => (true, .ofOctets a b c d)
  | _ => (false, address)

def fromString6 (text : List Char) (address : IPAddress) : Bool × IPAddress :=
  match parseV6 text with
  | some words => (true, .ofWords fun index => words.getD index 0)
  | none => (false, address)

def fromString (text : List Char) (address : IPAddress) : Bool × IPAddress :=
  if ':' ∈ text then fromString6 text address else fromString4 text address

def IPAddress.isZero (address : IPAddress) (index : Nat) : Bool :=
  if inside : index < 8 then
    address.bytes ⟨2 * index, by omega⟩ == 0 && address.bytes ⟨2 * index + 1, by omega⟩ == 0
  else false

/-- The inner loop over the zero groups from `last` on. -/
def runEnd (zero : Nat → Bool) : Nat → Nat → Nat
  | 0, last => last
  | left + 1, last => if zero last then runEnd zero left (last + 1) else last

/-- The search for the run to shorten; `left` bounds the rounds of the loop. -/
def bestRun (zero : Nat → Bool) : Nat → Nat → Nat × Nat → Nat × Nat
  | 0, _, best => best
  | left + 1, index, best =>
      if 8 ≤ index then best
      else if zero index then
        let last := runEnd zero (8 - index) index
        bestRun zero left last (if best.2 < last - index ∧ 2 ≤ last - index then (index, last - index) else best)
      else bestRun zero left (index + 1) best

/-- The loop that writes the groups from `index` on behind `text`. -/
def printGroups (words : Nat → UInt16) (best : Nat × Nat) : Nat → Nat → List Char → List Char
  | 0, _, text => text
  | left + 1, index, text =>
      if 8 ≤ index then text
      else if index = best.1 then printGroups words best left (index + best.2) (text ++ [':', ':'])
      else
        let text := if text ≠ [] ∧ text.getLast? ≠ some ':' then text ++ [':'] else text
        printGroups words best left (index + 1) (text ++ Nat.toDigits 16 (words index).toNat)

/-- The text that `printTo` hands to its destination. -/
def IPAddress.printTo (address : IPAddress) : List Char :=
  match address.family with
  | .IPv4 =>
      Nat.toDigits 10 (address.bytes 12).toNat ++ '.' :: Nat.toDigits 10 (address.bytes 13).toNat ++
        '.' :: Nat.toDigits 10 (address.bytes 14).toNat ++ '.' :: Nat.toDigits 10 (address.bytes 15).toNat
  | .IPv6 =>
      let words := fun index => if inside : index < 8 then address.word ⟨index, inside⟩ else 0
      printGroups words (bestRun address.isZero 8 0 (8, 0)) 8 0 []

end ArduinoK210.Net
