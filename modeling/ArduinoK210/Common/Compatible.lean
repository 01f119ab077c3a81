import ArduinoK210.Lib.Nor
import Mathlib.Data.UInt

/-! The string functions with a size: `strlcpy` and `strlcat`. -/

namespace ArduinoK210.Common

open Nor (put slice)

def space : Nat := 18446744073709551616

/-- Memory, and the places and lengths of what has been written to it. -/
structure Ram where
  bytes : Nat → UInt8
  written : List (Nat × Nat)

namespace Ram

def write (base : Nat) (data : List UInt8) (ram : Ram) : Ram :=
  ⟨put ram.bytes base data, ram.written ++ [(base, data.length)]⟩

/-- A copy between places that overlap, or past the last address, has no result. -/
def rtMemcpy (dest src count : Nat) (ram : Ram) : Option Ram :=
  if dest + count ≤ space ∧ src + count ≤ space ∧ (dest + count ≤ src ∨ src + count ≤ dest) then
    some (ram.write dest (slice ram.bytes src count))
  else none

def poke (place : Nat) (value : UInt8) (ram : Ram) : Option Ram := if place < space then some (ram.write place [value]) else none

end Ram

/-- The length of the text at an address, if it ends in the next `room` bytes. -/
def length (bytes : Nat → UInt8) : (room address : Nat) → Option Nat
  | 0, _ => none
  | room + 1, address => if bytes address = 0 then some 0 else (length bytes room (address + 1)).map (· + 1)

def rtStrlen (address : Nat) (ram : Ram) : Option UInt64 := (length ram.bytes (space - address) address).map UInt64.ofNat

def strlcat (dest src : Nat) (n : UInt64) (ram : Ram) : Option (UInt64 × Ram) := do
  let dsize ← rtStrlen dest ram
  let len ← rtStrlen src ram
  let res := dsize + len
  let dest := dest + dsize.toNat
  let n := n - dsize
  let len := if len ≥ n then n - 1 else len
  let ram ← ram.rtMemcpy dest src len.toNat
  let ram ← ram.poke (dest + len.toNat) 0
  return (res, ram)

def strlcpy (dest src : Nat) (n : UInt64) (ram : Ram) : Option (UInt64 × Ram) := do
  let ret ← rtStrlen src ram
  if n ≠ 0 then
    let len := if ret ≥ n then n - 1 else ret
    let ram ← ram.rtMemcpy dest src len.toNat
    let ram ← ram.poke (dest + len.toNat) 0
    return (ret, ram)
  else
    return (ret, ram)

/-- What a caller gives: a buffer of `n` bytes, and a text outside of it that ends. -/
structure Call (ram : Ram) where
  dest : Nat
  src : Nat
  n : UInt64
  len : Nat
  room : dest + n.toNat ≤ space
  text : length ram.bytes (space - src) src = some len
  apart : dest + n.toNat ≤ src ∨ src + len + 1 ≤ dest

namespace Call
variable {ram : Ram} (call : Call ram)

def Terminated : Prop := ∃ i, i < call.n.toNat ∧ ram.bytes (call.dest + i) = 0

def size : Nat := (length ram.bytes call.n.toNat call.dest).getD call.n.toNat

/-- How many bytes of the source fit behind `start` bytes. -/
def fitting (start : Nat) : Nat := min call.len (call.n.toNat - 1 - start)

/-- The source, or its longest front that fits, is behind the first `start` bytes of the buffer, and nothing else has been
written. -/
structure Bounded (start : Nat) (returned : UInt64) (after : Ram) : Prop where
  returns : returned.toNat = start + call.len
  inside : ∃ more, after.written = ram.written ++ more ∧
    ∀ place count, (place, count) ∈ more → call.dest ≤ place ∧ place + count ≤ call.dest + call.n.toNat
  outside : ∀ a, a < call.dest ∨ call.dest + call.n.toNat ≤ a → after.bytes a = ram.bytes a
  kept : slice after.bytes call.dest start = slice ram.bytes call.dest start
  copied : start < call.n.toNat →
    slice after.bytes (call.dest + start) (call.fitting start) = slice ram.bytes call.src (call.fitting start)
  ends : start < call.n.toNat → after.bytes (call.dest + start + call.fitting start) = 0

end Call

private theorem length_some_iff {bytes : Nat → UInt8} {room address k : Nat} :
    length bytes room address = some k ↔ k < room ∧ bytes (address + k) = 0 ∧ ∀ i, i < k → bytes (address + i) ≠ 0 := by
  induction room generalizing address k with
  | zero => exact ⟨fun found => absurd found (Option.some_ne_none k).symm, fun found => absurd found.1 (Nat.not_lt_zero k)⟩
  | succ room ih =>
    rw [length]
    by_cases ends : bytes address = 0
    · rw [if_pos ends]
      constructor
      · rintro ⟨⟩
        exact ⟨Nat.succ_pos room, ends, fun i inside => absurd inside (Nat.not_lt_zero i)⟩
      · rintro ⟨-, -, others⟩
        cases k with
        | zero => rfl
        | succ k => exact absurd ends (others 0 (Nat.succ_pos k))
    · rw [if_neg ends]
      cases k with
      | zero =>
        refine ⟨fun found => ?_, fun found => absurd found.2.1 ends⟩
        obtain ⟨_, _, wrong⟩ := Option.map_eq_some_iff.mp found
        cases wrong
      | succ k =>
        have next (i : Nat) : address + 1 + i = address + (i + 1) := by omega
        have tail : (length bytes room (address + 1)).map (· + 1) = some (k + 1) ↔ length bytes room (address + 1) = some k := by
          rw [Option.map_eq_some_iff]
          exact ⟨fun ⟨_, found, same⟩ => Nat.succ.inj same ▸ found, fun found => ⟨k, found, rfl⟩⟩
        rw [tail, ih, Nat.succ_lt_succ_iff, next]
        refine and_congr_right fun _ => and_congr_right fun _ => ⟨fun others i inside => ?_, fun others i inside => ?_⟩
        · cases i with
          | zero => exact ends
          | succ i => exact next i ▸ others i (Nat.lt_of_succ_lt_succ inside)
        · exact next i ▸ others (i + 1) (Nat.succ_lt_succ inside)

theorem length_none_iff {bytes : Nat → UInt8} {room address : Nat} :
    length bytes room address = none ↔ ∀ i, i < room → bytes (address + i) ≠ 0 := by
  rw [Option.eq_none_iff_forall_ne_some]
  constructor
  · intro none i inside ends
    have some_ : ∃ i, i < room ∧ bytes (address + i) = 0 := ⟨i, inside, ends⟩
    have least : ∀ k, k < Nat.find some_ → bytes (address + k) ≠ 0 := fun k before ends =>
      Nat.find_min some_ before ⟨Nat.lt_trans before (Nat.find_spec some_).1, ends⟩
    exact none (Nat.find some_) (length_some_iff.mpr ⟨(Nat.find_spec some_).1, (Nat.find_spec some_).2, least⟩)
  · intro others k found
    obtain ⟨inside, ends, -⟩ := length_some_iff.mp found
    exact others k inside ends

namespace Call
variable {ram : Ram} (call : Call ram)

private theorem text_lt : call.src + call.len < space := by
  have inside := (length_some_iff.mp call.text).1
  omega

private theorem rtStrlen_src : rtStrlen call.src ram = some (UInt64.ofNat call.len) := by
  rw [rtStrlen, call.text, Option.map_some]

private theorem len_toNat : (UInt64.ofNat call.len).toNat = call.len :=
  UInt64.toNat_ofNat_of_lt' (Nat.lt_of_le_of_lt (Nat.le_add_left _ _) call.text_lt)

/-- A copy of what fits, and the end behind it. -/
theorem copies {start : Nat} (inside : start < call.n.toNat) {count : Nat} (count_eq : count = call.fitting start) :
    ∃ middle after, ram.rtMemcpy (call.dest + start) call.src count = some middle ∧
      middle.poke (call.dest + start + count) 0 = some after ∧ ∀ returned : UInt64, returned.toNat = start + call.len →
        call.Bounded start returned after := by
  have room := call.room
  have below := call.text_lt
  have apart := call.apart
  have most : count ≤ call.n.toNat - 1 - start := count_eq ▸ Nat.min_le_right _ _
  have less : count ≤ call.len := count_eq ▸ Nat.min_le_left _ _
  let data := slice ram.bytes call.src count
  have size : data.length = count := Nor.slice_length ram.bytes call.src count
  have after : put (put ram.bytes (call.dest + start) data) (call.dest + start + count) [0] =
      put ram.bytes (call.dest + start) (data ++ [0]) := by
    rw [Nor.put_append, size]
  have whole : (data ++ [0]).length = count + 1 := by rw [List.length_append, size, List.length_singleton]
  refine ⟨_, _, if_pos ⟨by omega, by omega, by omega⟩, if_pos (by omega), fun returned returns => ?_⟩
  have bytes : ∀ a, a < call.dest + start ∨ call.dest + call.n.toNat ≤ a →
      put (put ram.bytes (call.dest + start) data) (call.dest + start + count) [0] a = ram.bytes a := by
    intro a outside
    rw [after, Nor.put_outside _ _ _ _ (by omega)]
  refine ⟨returns, ⟨[(call.dest + start, data.length), (call.dest + start + count, 1)], ?_, ?_⟩, ?_, ?_, ?_, ?_⟩
  · exact List.append_assoc _ _ _
  · rintro place length (_ | ⟨_, _ | ⟨_, ⟨⟩⟩⟩)
    · omega
    · omega
  · exact fun a outside => bytes a (by omega)
  · exact Memory.slice_congr fun i before => bytes _ (by omega)
  · intro _
    rw [← count_eq]
    change slice (put (put ram.bytes (call.dest + start) data) (call.dest + start + count) [0]) (call.dest + start) count = data
    rw [Memory.slice_put_apart _ (.inl (Nat.le_refl _)), ← size, Memory.slice_put]
  · intro _
    rw [← count_eq]
    exact Nor.put_inside _ _ [0] 0 0 rfl

theorem limited_toNat {room : UInt64} (positive : 0 < room.toNat) :
    (if UInt64.ofNat call.len ≥ room then room - 1 else UInt64.ofNat call.len).toNat = min call.len (room.toNat - 1) := by
  have len := call.len_toNat
  split
  next large =>
    have large := UInt64.le_iff_toNat_le.mp large
    rw [UInt64.toNat_sub_of_le _ _ (UInt64.le_iff_toNat_le.mpr (show (1 : UInt64).toNat ≤ _ from positive))]
    exact (Nat.min_eq_right (by omega)).symm
  next small =>
    have small := mt UInt64.le_iff_toNat_le.mpr small
    omega

private theorem strlcpy_bounded : ∃ returned after, strlcpy call.dest call.src call.n ram = some (returned, after) ∧
    call.Bounded 0 returned after := by
  unfold strlcpy
  rw [call.rtStrlen_src]
  dsimp only [Option.bind_eq_bind, Option.bind_some]
  by_cases none : call.n = 0
  · rw [if_neg (not_not_intro none)]
    have zero : call.n.toNat = 0 := by rw [none]; rfl
    refine ⟨_, _, rfl, by rw [call.len_toNat, Nat.zero_add], ⟨[], (List.append_nil _).symm, fun _ _ member => nomatch member⟩,
      fun _ _ => rfl, rfl, fun inside => ?_, fun inside => ?_⟩
    · rw [zero] at inside
      exact absurd inside (Nat.lt_irrefl 0)
    · rw [zero] at inside
      exact absurd inside (Nat.lt_irrefl 0)
  · rw [if_pos none]
    have positive : 0 < call.n.toNat := Nat.pos_of_ne_zero fun zero => none (UInt64.toNat_inj.mp zero)
    obtain ⟨middle, after, copied, ended, bounded⟩ := call.copies positive (call.limited_toNat positive)
    refine ⟨UInt64.ofNat call.len, after, ?_, bounded _ (by rw [call.len_toNat, Nat.zero_add])⟩
    rw [Nat.add_zero] at copied ended
    rw [copied, Option.bind_some, ended]
    rfl

/-- A text that ends in the buffer is the one that is found. -/
theorem size_of_terminated (terminated : call.Terminated) :
    call.size < call.n.toNat ∧ rtStrlen call.dest ram = some (UInt64.ofNat call.size) := by
  have room := call.room
  obtain ⟨i, inside, ends⟩ := terminated
  cases found : length ram.bytes call.n.toNat call.dest with
  | none => exact absurd ends (length_none_iff.mp found i inside)
  | some d =>
    obtain ⟨less, end_, others⟩ := length_some_iff.mp found
    have whole : length ram.bytes (space - call.dest) call.dest = some d := length_some_iff.mpr ⟨by omega, end_, others⟩
    rw [size, found, rtStrlen, whole]
    exact ⟨less, rfl⟩

private theorem size_of_unterminated (unterminated : ¬call.Terminated) : call.size = call.n.toNat := by
  rw [size, length_none_iff.mpr fun i inside ends => unterminated ⟨i, inside, ends⟩]
  rfl

private theorem strlcat_bounded (terminated : call.Terminated) :
    ∃ returned after, strlcat call.dest call.src call.n ram = some (returned, after) ∧ call.Bounded call.size returned after := by
  obtain ⟨less, found⟩ := call.size_of_terminated terminated
  have room := call.room
  have below := call.text_lt
  have apart := call.apart
  have small := call.n.toNat_lt
  have size : (UInt64.ofNat call.size).toNat = call.size := UInt64.toNat_ofNat_of_lt' (Nat.lt_trans less small)
  have left : (call.n - UInt64.ofNat call.size).toNat = call.n.toNat - call.size := by
    rw [UInt64.toNat_sub_of_le _ _ (UInt64.le_iff_toNat_le.mpr (by omega)), size]
  have count : (if UInt64.ofNat call.len ≥ call.n - UInt64.ofNat call.size then call.n - UInt64.ofNat call.size - 1
      else UInt64.ofNat call.len).toNat = call.fitting call.size := by
    rw [call.limited_toNat (by omega), left, fitting, Nat.sub_right_comm]
  have sum : (UInt64.ofNat call.size + UInt64.ofNat call.len).toNat = call.size + call.len := by
    rw [UInt64.toNat_add, size, call.len_toNat]
    apply Nat.mod_eq_of_lt
    change _ < space
    omega
  obtain ⟨middle, after, copied, ended, bounded⟩ := call.copies less count
  refine ⟨_, after, ?_, bounded _ sum⟩
  unfold strlcat
  rw [found, call.rtStrlen_src]
  dsimp only [Option.bind_eq_bind, Option.bind_some]
  rw [size, copied, Option.bind_some, ended]
  rfl

/-- A full buffer is asked to take all of memory, and with a longer text the length that is returned is that of both. -/
theorem strlcat_unbounded (unterminated : ¬call.Terminated) {returned : UInt64} {after : Ram}
    (done : strlcat call.dest call.src call.n ram = some (returned, after)) : ¬call.Bounded call.size returned after := by
  intro bounded
  have returns := bounded.returns
  rw [call.size_of_unterminated unterminated] at returns
  unfold strlcat at done
  rw [call.rtStrlen_src] at done
  simp only [Option.bind_eq_bind, Option.bind_eq_some_iff, Option.some.injEq, exists_eq_left'] at done
  obtain ⟨dsize, found, middle, copied, last, ended, same⟩ := done
  obtain ⟨d, whole, rfl⟩ := Option.map_eq_some_iff.mp found
  obtain ⟨less, ends, -⟩ := length_some_iff.mp whole
  have small : d < 2 ^ 64 := Nat.lt_of_lt_of_le less (Nat.sub_le _ _)
  have size : (UInt64.ofNat d).toNat = d := UInt64.toNat_ofNat_of_lt' small
  have long : call.n.toNat ≤ d := Nat.not_lt.mp fun inside => unterminated ⟨d, inside, ends⟩
  rcases Nat.eq_or_lt_of_le long with full | more
  · have room : call.n - UInt64.ofNat d = 0 := by
      rw [← full, UInt64.ofNat_toNat, UInt64.sub_self]
    rw [room, if_pos (UInt64.le_iff_toNat_le.mpr (Nat.zero_le _))] at copied
    have count : (0 - 1 : UInt64).toNat = 18446744073709551615 := by decide
    rw [count, Ram.rtMemcpy, if_neg] at copied
    · cases copied
    · unfold space
      omega
  · cases same
    rw [UInt64.toNat_add, size, call.len_toNat] at returns
    have below := call.text_lt
    unfold space at below
    omega

/-- `strlcpy` keeps to the first `n` bytes, and `strlcat` does just if the text in the buffer ends there. -/
theorem strlcpy_strlcat_bounded_iff :
    (∃ returned after, strlcpy call.dest call.src call.n ram = some (returned, after) ∧ call.Bounded 0 returned after) ∧
      ((∃ returned after, strlcat call.dest call.src call.n ram = some (returned, after) ∧ call.Bounded call.size returned after) ↔
        call.Terminated) := by
  refine ⟨call.strlcpy_bounded, ?_, call.strlcat_bounded⟩
  rintro ⟨returned, after, done, bounded⟩
  by_contra unterminated
  exact call.strlcat_unbounded unterminated done bounded

end Call

def texts : Ram := ⟨fun a => if a = 100 then 97 else if a = 101 then 98 else if a = 200 then 99 else 0, []⟩

/-- The text `c`, for the first byte of a buffer that holds `ab`. -/
def overfull : Call texts where
  dest := 100
  src := 200
  n := 1
  len := 1
  room := by decide
  text := length_some_iff.mpr ⟨by decide, rfl, by decide⟩
  apart := by decide

/-- Three bytes of text, of which two are behind the buffer, and a length of three instead of two. -/
theorem strlcat_overfull :
    strlcat 100 200 1 texts = some (3, ⟨put (put texts.bytes 102 [99]) 103 [0], [(102, 1), (103, 1)]⟩) ∧
      overfull.size + overfull.len = 2 ∧
      ¬∃ returned after, strlcat overfull.dest overfull.src overfull.n texts = some (returned, after) ∧
        overfull.Bounded overfull.size returned after := by
  have dest : rtStrlen 100 texts = some 2 := by
    rw [rtStrlen, (length_some_iff.mpr ⟨by decide, rfl, by decide⟩ : length texts.bytes (space - 100) 100 = some 2)]
    rfl
  have src : rtStrlen 200 texts = some 1 := overfull.rtStrlen_src
  have done : strlcat 100 200 1 texts = some (3, ⟨put (put texts.bytes 102 [99]) 103 [0], [(102, 1), (103, 1)]⟩) := by
    rw [strlcat, dest, src]
    rfl
  refine ⟨done, rfl, ?_⟩
  rintro ⟨returned, after, again, bounded⟩
  cases done.symm.trans again
  exact absurd bounded.returns (by decide)

end ArduinoK210.Common
