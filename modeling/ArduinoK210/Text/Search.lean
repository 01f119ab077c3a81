import ArduinoK210.Text.Content
import Mathlib.Data.List.Find

/-! Searches in the storage, as searches in the lists. -/

namespace ArduinoK210.Text

section Find

variable {p q : Nat → Bool}

theorem find_middle {front middle back : List Nat} (before : ∀ i ∈ front, p i = false) (same : ∀ i ∈ middle, p i = q i)
    (behind : ∀ i ∈ back, p i = false) : (front ++ middle ++ back).find? p = middle.find? q := by
  have first : front.find? p = none := List.find?_eq_none.mpr fun i here => by rw [before i here]; exact Bool.false_ne_true
  have last : back.find? p = none := List.find?_eq_none.mpr fun i here => by rw [behind i here]; exact Bool.false_ne_true
  rw [List.find?_append, List.find?_append, first, last, Option.none_or, Option.or_none]
  exact List.find?_congr same

private theorem find_window {low high n : Nat} (order : low ≤ high) (bound : high ≤ n) (same : ∀ i, low ≤ i → i < high → p i = q i)
    (before : ∀ i, i < low → p i = false) (behind : ∀ i, high ≤ i → i < n → p i = false) :
    (List.range n).find? p = (List.range' low (high - low)).find? q := by
  have parts : List.range n = List.range' 0 low ++ List.range' low (high - low) ++ List.range' high (n - high) := by
    have first : List.range' 0 low ++ List.range' (0 + low) (high - low) = _ := List.range'_append_1
    have second : List.range' 0 high ++ List.range' (0 + high) (n - high) = _ := List.range'_append_1
    rw [Nat.zero_add] at first second
    rw [first, Nat.add_sub_cancel' order, second, Nat.add_sub_cancel' bound, List.range_eq_range']
  rw [parts]
  apply find_middle
  · intro i here
    have inside := List.mem_range'_1.mp here
    exact before i (by omega)
  · intro i here
    have inside := List.mem_range'_1.mp here
    exact same i inside.1 (by omega)
  · intro i here
    have inside := List.mem_range'_1.mp here
    exact behind i inside.1 (by omega)

private theorem find_last {high n : Nat} (bound : high ≤ n) (same : ∀ i, i < high → p i = q i)
    (behind : ∀ i, high ≤ i → i < n → p i = false) :
    (List.range n).reverse.find? p = (List.range high).reverse.find? q := by
  have parts : (List.range n).reverse = (List.range' high (n - high)).reverse ++ (List.range high).reverse ++ [] := by
    have whole : List.range' 0 high ++ List.range' (0 + high) (n - high) = _ := List.range'_append_1
    rw [Nat.zero_add, Nat.add_sub_cancel' bound] at whole
    rw [List.append_nil, ← List.reverse_append, List.range_eq_range', List.range_eq_range', whole]
  rw [parts]
  apply find_middle
  · intro i here
    have inside := List.mem_range'_1.mp (List.mem_reverse.mp here)
    exact behind i inside.1 (by omega)
  · intro i here
    exact same i (List.mem_range.mp (List.mem_reverse.mp here))
  · intro i here
    cases here

end Find

variable (world : World) (id value start : Nat)

theorem startsWith_eq (offset : Nat) :
    startsWith world id value offset =
      (decide (offset ≤ (world.str id).size) && (world.content value).isPrefixOf ((world.content id).drop offset)) := by
  have length := content_length world value
  rw [Bool.eq_iff_iff]
  simp only [startsWith, Bool.and_eq_true, decide_eq_true_eq, beq_iff_eq, List.isPrefixOf_iff_prefix, List.prefix_iff_eq_take, length,
    and_assoc]
  apply and_congr_right
  intro inside
  constructor
  · rintro ⟨room, same⟩
    rw [World.content, World.content, Memory.slice_window world.mem _ (by omega), same]
  · intro same
    have size := congrArg List.length same
    rw [List.length_take, List.length_drop, length, content_length] at size
    have room : (world.str value).size ≤ (world.str id).size - offset := by omega
    rw [World.content, World.content, Memory.slice_window world.mem _ (by omega)] at same
    exact ⟨room, same.symm⟩

theorem prefix_room {offset : Nat} (inside : offset ≤ (world.str id).size)
    (short : (world.str id).size < offset + (world.str value).size) :
    (world.content value).isPrefixOf ((world.content id).drop offset) = false := by
  rw [Bool.eq_false_iff, Ne, List.isPrefixOf_iff_prefix]
  intro found
  have room := found.length_le
  rw [List.length_drop, content_length, content_length] at room
  omega

theorem indexOf_eq : indexOf world id value start = found (Value.indexOf (world.content value) start (world.content id)) := by
  have length := content_length world id
  unfold indexOf Value.indexOf
  dsimp only
  by_cases room : (world.str id).size < start ∨ (world.str id).size - start < (world.str value).size
  · have nowhere : ((List.range ((world.content id).length + 1)).find? fun i =>
        decide (start ≤ i) && (world.content value).isPrefixOf ((world.content id).drop i)) = none := by
      rw [List.find?_eq_none]
      intro i here
      have inside := List.mem_range.mp here
      by_cases late : start ≤ i
      · rw [prefix_room world id value (by omega) (by omega), Bool.and_false]
        exact Bool.false_ne_true
      · rw [decide_eq_false late, Bool.false_and]
        exact Bool.false_ne_true
    rw [if_pos room, nowhere]
    rfl
  · rw [if_neg room, length]
    congr 1
    symm
    apply find_window (by omega) (by omega)
    · intro i low high
      rw [startsWith_eq, decide_eq_true low, decide_eq_true (show i ≤ (world.str id).size by omega)]
    · intro i low
      rw [decide_eq_false (Nat.not_le.mpr low), Bool.false_and]
    · intro i low high
      rw [prefix_room world id value (by omega) (by omega), Bool.and_false]

theorem lastIndexOf_eq :
    lastIndexOf world id value start = found (Value.lastIndexOf (world.content value) start (world.content id)) := by
  have length := content_length world id
  unfold lastIndexOf Value.lastIndexOf
  dsimp only
  by_cases room : (world.str id).size < (world.str value).size
  · have nowhere : ((List.range ((world.content id).length + 1)).reverse.find? fun i =>
        decide (i ≤ start) && (world.content value).isPrefixOf ((world.content id).drop i)) = none := by
      rw [List.find?_eq_none]
      intro i here
      have inside := List.mem_range.mp (List.mem_reverse.mp here)
      rw [prefix_room world id value (by omega) (by omega), Bool.and_false]
      exact Bool.false_ne_true
    rw [if_pos room, nowhere]
    rfl
  · have least : (if start < (world.str id).size - (world.str value).size then start
        else (world.str id).size - (world.str value).size) = min start ((world.str id).size - (world.str value).size) := by
      split <;> omega
    rw [if_neg room, length, least]
    congr 1
    symm
    apply find_last (by omega)
    · intro i low
      rw [startsWith_eq, decide_eq_true (show i ≤ start by omega), decide_eq_true (show i ≤ (world.str id).size by omega)]
    · intro i low high
      by_cases late : i ≤ start
      · rw [prefix_room world id value (by omega) (by omega), Bool.and_false]
      · rw [decide_eq_false late, Bool.false_and]

variable (c : UInt8)

private theorem char_at {i : Nat} (inside : i < (world.str id).size) :
    ((world.content id)[i]? == some c) = (world.mem ((world.str id).data + i) == c) := by
  rw [World.content, Nor.slice_getElem?, if_pos inside]
  rfl

theorem indexOfChar_eq : indexOfChar world id c start = found (Value.indexOfChar c start (world.content id)) := by
  unfold indexOfChar Value.indexOfChar
  rw [content_length]
  dsimp only
  by_cases past : (world.str id).size ≤ start
  · have nowhere : ((List.range (world.str id).size).find? fun i =>
        decide (start ≤ i) && (world.content id)[i]? == some c) = none := by
      rw [List.find?_eq_none]
      intro i here
      have inside := List.mem_range.mp here
      rw [decide_eq_false (show ¬start ≤ i by omega), Bool.false_and]
      exact Bool.false_ne_true
    rw [if_pos past, nowhere]
    rfl
  · rw [if_neg past]
    congr 1
    symm
    apply find_window (by omega) (Nat.le_refl _)
    · intro i low high
      rw [char_at world id c high, decide_eq_true low, Bool.true_and]
    · intro i low
      rw [decide_eq_false (Nat.not_le.mpr low), Bool.false_and]
    · intro i low high
      omega

theorem lastIndexOfChar_eq : lastIndexOfChar world id c start = found (Value.lastIndexOfChar c start (world.content id)) := by
  unfold lastIndexOfChar Value.lastIndexOfChar
  rw [content_length]
  dsimp only
  by_cases empty : (world.str id).size = 0
  · rw [if_pos empty, empty]
    rfl
  · have least : (if start < (world.str id).size then start else (world.str id).size - 1) =
        min start ((world.str id).size - 1) := by
      split <;> omega
    rw [if_neg empty, least]
    congr 1
    symm
    apply find_last (by omega)
    · intro i low
      rw [char_at world id c (by omega), decide_eq_true (show i ≤ start by omega), Bool.true_and]
    · intro i low high
      rw [decide_eq_false (show ¬i ≤ start by omega), Bool.false_and]

end ArduinoK210.Text
