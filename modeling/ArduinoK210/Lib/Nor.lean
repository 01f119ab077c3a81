import Mathlib.Data.List.Basic
import Mathlib.Data.Nat.Basic

/-! Storage whose cells can only lose bits until a whole region is erased. Nothing here knows a particular chip: a cell is a meet
operation with a blank element, a memory is a function from addresses, and the laws say when programming, with or without an erase
before it, stores exactly the bytes that were sent. Then buffers in a memory: what a copy leaves in a region, and regions end to end. -/

namespace Nor

universe u

/-- Programming a cell meets its old content with the new one; erasing makes it
blank, the element that a meet leaves alone. -/
structure Cell (α : Type u) where
  meet : α → α → α
  blank : α
  meet_self : ∀ a, meet a a = a
  meet_comm : ∀ a b, meet a b = meet b a
  blank_meet : ∀ a, meet blank a = a

variable {α : Type u}

/-- The memory in which `data` replaces whatever stood from `base` on. -/
def put (mem : Nat → α) (base : Nat) (data : List α) : Nat → α :=
  fun i => if base ≤ i then data[i - base]?.getD (mem i) else mem i

def program (cell : Cell α) (mem : Nat → α) (base : Nat) (data : List α) : Nat → α :=
  fun i => if base ≤ i then (data[i - base]?.map (cell.meet (mem i))).getD (mem i) else mem i

def erase (cell : Cell α) (mem : Nat → α) (base size : Nat) : Nat → α :=
  fun i => if base ≤ i ∧ i < base + size then cell.blank else mem i

def slice (mem : Nat → α) (base size : Nat) : List α :=
  (List.range size).map (fun k => mem (base + k))

/-- `old` with `chunk` written over it from `offset` on. -/
def splice (old : List α) (offset : Nat) (chunk : List α) : List α :=
  old.take offset ++ chunk ++ old.drop (offset + chunk.length)

@[simp] theorem put_nil (mem : Nat → α) (base : Nat) : put mem base [] = mem := by
  funext i
  simp [put]

@[simp] theorem program_nil (cell : Cell α) (mem : Nat → α) (base : Nat) : program cell mem base [] = mem := by
  funext i
  simp [program]

@[simp] theorem erase_zero (cell : Cell α) (mem : Nat → α) (base : Nat) : erase cell mem base 0 = mem := by
  funext i
  have outside : ¬(base ≤ i ∧ i < base + 0) := by omega
  simp only [erase, if_neg outside]

@[simp] theorem slice_length (mem : Nat → α) (base size : Nat) : (slice mem base size).length = size := by
  simp [slice]

theorem slice_getElem? (mem : Nat → α) (base size k : Nat) :
    (slice mem base size)[k]? = if k < size then some (mem (base + k)) else none := by
  by_cases inside : k < size
  · simp [slice, inside]
  · simp [slice, inside]

theorem splice_length (old : List α) (offset : Nat) (chunk : List α)
    (fits : offset + chunk.length ≤ old.length) : (splice old offset chunk).length = old.length := by
  simp only [splice, List.length_append, List.length_take, List.length_drop]
  omega

theorem splice_getElem? (old : List α) (offset : Nat) (chunk : List α)
    (fits : offset + chunk.length ≤ old.length) (k : Nat) :
    (splice old offset chunk)[k]? =
      if offset ≤ k ∧ k < offset + chunk.length then chunk[k - offset]? else old[k]? := by
  have front : (old.take offset).length = offset := by simp only [List.length_take]; omega
  simp only [splice]
  by_cases before : k < offset
  · rw [List.append_assoc, List.getElem?_append_left (by omega), List.getElem?_take_of_lt before,
      if_neg (by omega)]
  · by_cases inside : k < offset + chunk.length
    · rw [List.getElem?_append_left (by simp only [List.length_append, front]; omega),
        List.getElem?_append_right (by omega), front, if_pos (by omega)]
    · rw [List.getElem?_append_right (by simp only [List.length_append, front]; omega),
        List.getElem?_drop, if_neg (by omega), List.length_append, front]
      congr 1
      omega

theorem put_inside (mem : Nat → α) (base : Nat) (data : List α) (k : Nat) (b : α)
    (found : data[k]? = some b) : put mem base data (base + k) = b := by
  simp only [put, Nat.le_add_right, if_true, Nat.add_sub_cancel_left, found, Option.getD_some]

theorem put_outside (mem : Nat → α) (base : Nat) (data : List α) (i : Nat)
    (outside : i < base ∨ base + data.length ≤ i) : put mem base data i = mem i := by
  simp only [put]
  split
  · rw [List.getElem?_eq_none (by omega), Option.getD_none]
  · rfl

theorem put_append (mem : Nat → α) (base : Nat) (first second : List α) :
    put mem base (first ++ second) = put (put mem base first) (base + first.length) second := by
  funext i
  simp only [put]
  by_cases above : base ≤ i
  · by_cases later : base + first.length ≤ i
    · simp only [above, later, if_true, List.getElem?_append_right (show first.length ≤ i - base by omega),
        List.getElem?_eq_none (show first.length ≤ i - base by omega), Option.getD_none]
      congr 2
      omega
    · simp only [above, later, if_true, if_false, List.getElem?_append_left (show i - base < first.length by omega)]
  · simp only [above, if_false, show ¬ base + first.length ≤ i by omega]

theorem program_append (cell : Cell α) (mem : Nat → α) (base : Nat) (first second : List α) :
    program cell mem base (first ++ second) =
      program cell (program cell mem base first) (base + first.length) second := by
  funext i
  simp only [program]
  by_cases above : base ≤ i
  · by_cases later : base + first.length ≤ i
    · simp only [above, later, if_true, List.getElem?_append_right (show first.length ≤ i - base by omega),
        List.getElem?_eq_none (show first.length ≤ i - base by omega), Option.map_none, Option.getD_none]
      congr 3
      omega
    · simp only [above, later, if_true, if_false, List.getElem?_append_left (show i - base < first.length by omega)]
  · simp only [above, if_false, show ¬ base + first.length ≤ i by omega]

/-- Writing a chunk into a region without an erase stores it, and restores the
rest of the region, when every byte of the chunk only clears bits of the old one. -/
theorem program_splice (cell : Cell α) (mem : Nat → α) (base size offset : Nat) (chunk : List α)
    (fits : offset + chunk.length ≤ size)
    (clears : ∀ k b, chunk[k]? = some b → b = cell.meet b (mem (base + offset + k))) :
    program cell mem base (splice (slice mem base size) offset chunk) = put mem (base + offset) chunk := by
  have room : offset + chunk.length ≤ (slice mem base size).length := by simpa using fits
  funext i
  simp only [program]
  by_cases above : base ≤ i
  · have place : base + (i - base) = i := by omega
    simp only [above, if_true, splice_getElem? _ _ _ room]
    by_cases inside : offset ≤ i - base ∧ i - base < offset + chunk.length
    · obtain ⟨b, found⟩ : ∃ b, chunk[i - base - offset]? = some b :=
        ⟨_, List.getElem?_eq_getElem (show i - base - offset < chunk.length by omega)⟩
      have here : base + offset + (i - base - offset) = i := by omega
      have stored := put_inside mem (base + offset) chunk _ b found
      have kept := clears _ _ found
      rw [here] at stored kept
      rw [stored, if_pos inside, found, Option.map_some, Option.getD_some, cell.meet_comm, ← kept]
    · rw [if_neg inside, slice_getElem?, put_outside _ _ _ _ (by omega)]
      split
      · simp only [Option.map_some, Option.getD_some, place, cell.meet_self]
      · rfl
  · rw [if_neg above, put_outside _ _ _ _ (by omega)]

/-- After an erase every byte can be programmed, so the same image of the region
always stores the chunk and restores its neighbours. -/
theorem program_erase_splice (cell : Cell α) (mem : Nat → α) (base size offset : Nat) (chunk : List α)
    (fits : offset + chunk.length ≤ size) :
    program cell (erase cell mem base size) base (splice (slice mem base size) offset chunk) =
      put mem (base + offset) chunk := by
  have room : offset + chunk.length ≤ (slice mem base size).length := by simpa using fits
  funext i
  simp only [program, erase]
  by_cases region : base ≤ i ∧ i < base + size
  · have place : base + (i - base) = i := by omega
    simp only [region, and_self, if_true, splice_getElem? _ _ _ room]
    by_cases inside : offset ≤ i - base ∧ i - base < offset + chunk.length
    · obtain ⟨b, found⟩ : ∃ b, chunk[i - base - offset]? = some b :=
        ⟨_, List.getElem?_eq_getElem (show i - base - offset < chunk.length by omega)⟩
      have stored := put_inside mem (base + offset) chunk _ b found
      rw [show base + offset + (i - base - offset) = i by omega] at stored
      rw [stored, if_pos inside, found, Option.map_some, Option.getD_some, cell.blank_meet]
    · rw [if_neg inside, slice_getElem?, if_pos (by omega), put_outside _ _ _ _ (by omega)]
      simp only [Option.map_some, Option.getD_some, place, cell.blank_meet]
  · have beyond : base ≤ i → (splice (slice mem base size) offset chunk)[i - base]? = none := by
      intro above
      apply List.getElem?_eq_none
      rw [splice_length _ _ _ room, slice_length]
      omega
    rw [put_outside _ _ _ _ (by omega), if_neg region]
    split
    next above => rw [beyond above, Option.map_none, Option.getD_none]
    next => rfl

end Nor

namespace Memory

open Nor (put slice)

universe u

variable {α : Type u}

theorem slice_congr {first second : Nat → α} {base size : Nat} (same : ∀ i, i < size → first (base + i) = second (base + i)) :
    slice first base size = slice second base size := by
  apply List.map_congr_left
  intro i inside
  exact same i (List.mem_range.mp inside)

theorem slice_add (mem : Nat → α) (base first second : Nat) :
    slice mem base (first + second) = slice mem base first ++ slice mem (base + first) second := by
  unfold slice
  rw [List.range_add, List.map_append, List.map_map]
  congr 1
  apply List.map_congr_left
  intro i _
  simp only [Function.comp_apply, Nat.add_assoc]

theorem slice_put (mem : Nat → α) (base : Nat) (data : List α) : slice (put mem base data) base data.length = data := by
  apply List.ext_getElem?
  intro i
  rw [Nor.slice_getElem?]
  split
  next inside =>
    have found := List.getElem?_eq_getElem inside
    rw [found, Nor.put_inside mem base data i _ found]
  next outside => exact (List.getElem?_eq_none (Nat.le_of_not_lt outside)).symm

theorem slice_put_apart (mem : Nat → α) {base start size : Nat} {data : List α}
    (apart : start + size ≤ base ∨ base + data.length ≤ start) :
    slice (put mem base data) start size = slice mem start size := by
  apply slice_congr
  intro i inside
  apply Nor.put_outside
  omega

/-- A copy to the end of a filled region extends it. -/
theorem slice_extend (mem : Nat → α) (base filled : Nat) (data : List α) :
    slice (put mem (base + filled) data) base (filled + data.length) = slice mem base filled ++ data := by
  rw [slice_add, slice_put, slice_put_apart mem (.inl (Nat.le_refl _))]

theorem slice_take (mem : Nat → α) (base : Nat) {count size : Nat} (inside : count ≤ size) :
    (slice mem base size).take count = slice mem base count := by
  obtain ⟨rest, rfl⟩ := Nat.exists_eq_add_of_le inside
  rw [slice_add, List.take_left' (Nor.slice_length ..)]

theorem slice_window (mem : Nat → α) (base : Nat) {offset count size : Nat} (inside : offset + count ≤ size) :
    ((slice mem base size).drop offset).take count = slice mem (base + offset) count := by
  obtain ⟨rest, rfl⟩ := Nat.exists_eq_add_of_le inside
  rw [Nat.add_assoc, slice_add, List.drop_left' (Nor.slice_length ..), slice_take mem _ (Nat.le_add_right _ _)]

end Memory
