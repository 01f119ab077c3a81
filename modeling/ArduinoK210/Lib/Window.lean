import ArduinoK210.Lib.Rank
import Mathlib.Logic.Function.Basic

/-! A circular buffer that keeps the newest values of a stream. `position` is where the next
value goes; while the buffer fills this is the number of values. -/

namespace ArduinoK210.Window

variable {α : Type}

/-- Where the value stands that came `age` values before the newest. -/
def slot (length position age : Nat) : Nat := if age < position then position - 1 - age else position + length - 1 - age

def next (length position : Nat) : Nat := if position + 1 = length then 0 else position + 1

/-- The buffer holds the values of `window`, the newest first. -/
structure Holds (length position : Nat) (buffer : Nat → α) (window : List α) : Prop where
  fits : window.length ≤ length
  inside : position < length
  fresh : window.length < length → position = window.length
  cell : ∀ age (young : age < window.length), buffer (slot length position age) = window[age]

variable {length position : Nat} {buffer : Nat → α} {window : List α}

theorem next_eq_mod (inside : position < length) : next length position = (position + 1) % length := by
  unfold next
  split
  next last => rw [last, Nat.mod_self]
  next => exact (Nat.mod_eq_of_lt (by omega)).symm

theorem holds_nil (sized : 0 < length) (buffer : Nat → α) : Holds length 0 buffer [] :=
  ⟨Nat.zero_le _, sized, fun _ => rfl, fun _ young => absurd young (Nat.not_lt_zero _)⟩

theorem slot_lt (holds : Holds length position buffer window) {age : Nat} (young : age < window.length) :
    slot length position age < window.length := by
  obtain ⟨fits, inside, fresh, -⟩ := holds
  unfold slot
  split <;> omega

theorem slot_inj (holds : Holds length position buffer window) {age other : Nat} (young : age < window.length)
    (youthful : other < window.length) (same : slot length position age = slot length position other) : age = other := by
  obtain ⟨fits, inside, fresh, -⟩ := holds
  unfold slot at same
  split at same <;> split at same <;> omega

theorem Holds.perm (holds : Holds length position buffer window) : ((List.range window.length).map buffer).Perm window := by
  have slots := Rank.perm_range (fun _ young => slot_lt holds young) fun _ _ young youthful same => slot_inj holds young youthful same
  have cells : ((List.range window.length).map (slot length position)).map buffer = window := by
    rw [List.map_map]
    apply List.ext_getElem
    · rw [List.length_map, List.length_range]
    · intro age _ young
      rw [List.getElem_map, List.getElem_range]
      exact holds.cell age young
  have moved := slots.map buffer
  rw [cells] at moved
  exact moved.symm

/-- A full buffer has its oldest value where the next one goes. -/
theorem Holds.oldest (holds : Holds length position buffer window) (full : window.length = length)
    (last : length - 1 < window.length) : buffer position = window[length - 1] := by
  have sized := holds.inside
  have here : slot length position (length - 1) = position := by
    unfold slot
    split <;> omega
  have cell := holds.cell (length - 1) last
  rwa [here] at cell

theorem slot_next {age : Nat} (young : age + 1 < length) :
    slot length (next length position) (age + 1) = slot length position age := by
  unfold slot next
  split_ifs <;> omega

theorem slot_next_zero : slot length (next length position) 0 = position := by
  unfold slot next
  split_ifs <;> omega

theorem next_lt (inside : position < length) : next length position < length := by
  unfold next
  split <;> omega

theorem Holds.push (holds : Holds length position buffer window) (value : α) :
    Holds length (next length position) (Function.update buffer position value) ((value :: window).take length) := by
  have sized := holds.inside
  refine ⟨?_, next_lt sized, ?_, ?_⟩
  · rw [List.length_take]
    exact Nat.min_le_left _ _
  · intro short
    rw [List.length_take, List.length_cons] at short ⊢
    have start := holds.fresh (by omega)
    unfold next
    split <;> omega
  · intro age young
    rw [List.getElem_take]
    rw [List.length_take, List.length_cons] at young
    cases age with
    | zero => rw [slot_next_zero, Function.update_self, List.getElem_cons_zero]
    | succ age =>
      have apart : slot length position age ≠ position := by
        have fresh := holds.fresh
        unfold slot
        split <;> omega
      rw [slot_next (by omega), Function.update_of_ne apart, List.getElem_cons_succ]
      exact holds.cell age (by omega)

end ArduinoK210.Window
