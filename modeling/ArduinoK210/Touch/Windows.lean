import ArduinoK210.Lib.Run
import ArduinoK210.Lib.Window
import ArduinoK210.Touch.Filter
import Mathlib.Algebra.Ring.Int.Defs

/-! What the filters compute: the median the middle of the newest values, from an index that stays
sorted through every update, and the mean the quotient of their sum. -/

namespace ArduinoK210.Touch

open Rank Window

inductive FilterCall where
  | update (value : Int)
  | clear

def MedianFilter.step : FilterCall → MedianFilter → MedianFilter
  | .update value, filter => (filter.update value).2
  | .clear, filter => filter.clear

def MeanFilter.step : FilterCall → MeanFilter → MeanFilter
  | .update value, filter => (filter.update value).2
  | .clear, filter => filter.clear

/-- The values since the last clear, the newest first. -/
def FilterCall.note : FilterCall → List Int → List Int
  | .update value, values => value :: values
  | .clear, _ => []

def since (calls : List FilterCall) : List Int := Run.run FilterCall.note calls []

namespace MedianFilter

/-- The index lists the window in order. -/
structure Sound (filter : MedianFilter) (values : List Int) : Prop where
  count : filter.count = min values.length filter.length
  holds : Holds filter.length filter.position filter.buffer (values.take filter.length)
  sorts : Sorts filter.count filter.buffer filter.index
  ints : ∀ value ∈ values, value ≤ intMax

variable {filter : MedianFilter} {values : List Int} {value : Int} {buffer : Nat → Int} {index : Nat → Nat} {count place : Nat}

private theorem seek_finds (pos : Nat) : ∀ left start i, start ≤ i → i < start + left → index i = pos →
    seek index pos left start < start + left ∧ index (seek index pos left start) = pos := by
  intro left
  induction left with
  | zero => intro start i first last _; omega
  | succ left ih =>
    intro start i first last here
    rw [seek]
    split
    next miss =>
      have later : start ≠ i := fun same => miss (same ▸ here)
      have found := ih (start + 1) i (by omega) (by omega) here
      exact ⟨by omega, found.2⟩
    next hit => exact ⟨by omega, not_not.mp hit⟩

/-- The loop upward leaves the window in order when only the entry at `place` was not, and nothing below it was larger. -/
theorem moveUp_sorts (left : Nat) (total : place + 1 + left = count) (perm : ((List.range count).map index).Perm (List.range count))
    (but : OrderedBut place count (buffer ∘ index)) (below : ∀ i, i < place → (buffer ∘ index) i ≤ (buffer ∘ index) place) :
    Sorts count buffer (moveUp buffer (buffer (index place)) left place index) := by
  induction left generalizing place index with
  | zero =>
    refine ⟨perm, but.ordered below fun j after inside => ?_⟩
    omega
  | succ left ih =>
    rw [moveUp]
    split
    next less =>
      rw [← Equiv.comp_swap_eq_update]
      have inside : place + 1 < count := by omega
      have moved := @ih (index ∘ Equiv.swap place (place + 1)) (place + 1) (by omega) (perm_swap perm (by omega) inside)
        (but.up inside) (below_up below less.le)
      rwa [swap_right] at moved
    next more =>
      refine ⟨perm, but.ordered below fun j after inside => ?_⟩
      apply (not_lt.mp more).trans
      by_cases here : j = place + 1
      · rw [here, Function.comp_apply]
      · exact but _ j (by omega) inside (by omega) (by omega)

private theorem moveDown_sorts (inside : place < count) (perm : ((List.range count).map index).Perm (List.range count))
    (but : OrderedBut place count (buffer ∘ index)) (above : ∀ j, place < j → j < count → (buffer ∘ index) place ≤ (buffer ∘ index) j) :
    Sorts count buffer (moveDown buffer (buffer (index place)) place index) := by
  induction place generalizing index with
  | zero => exact ⟨perm, but.ordered (fun i before => absurd before (Nat.not_lt_zero i)) above⟩
  | succ place ih =>
    rw [moveDown]
    split
    next more =>
      rw [← Equiv.comp_swap_eq_update]
      have moved := @ih (index ∘ Equiv.swap (place + 1) place) (by omega) (perm_swap perm inside (by omega))
        (but.down inside) (above_down above more.le)
      rwa [swap_right] at moved
    next less =>
      refine ⟨perm, but.ordered (fun i before => ?_) above⟩
      have last := not_lt.mp less
      by_cases here : i = place
      · rw [here]
        exact last
      · exact (but i place (by omega) (by omega) (by omega) (by omega)).trans last

/-- A new value at `place`, in a window that is in order but there, moves to where it belongs. -/
theorem settle_sorts (buffer : Nat → Int) (old : Int) (inside : place < count) (perm : ((List.range count).map index).Perm (List.range count))
    (but : OrderedBut place count (buffer ∘ index))
    (below : old ≤ buffer (index place) → ∀ i, i < place → (buffer ∘ index) i ≤ (buffer ∘ index) place)
    (above : buffer (index place) ≤ old → ∀ j, place < j → j < count → (buffer ∘ index) place ≤ (buffer ∘ index) j) :
    Sorts count buffer
      (if old < buffer (index place) then moveUp buffer (buffer (index place)) (count - (place + 1)) place index
      else if buffer (index place) < old then moveDown buffer (buffer (index place)) place index
      else index) := by
  split
  next more => exact moveUp_sorts _ (by omega) perm but (below more.le)
  next notMore =>
    split
    next less => exact moveDown_sorts inside perm but (above less.le)
    next notLess => exact ⟨perm, but.ordered (below (not_lt.mp notLess)) (above (not_lt.mp notMore))⟩

variable (sound : filter.Sound values)
include sound

private theorem Sound.full_or_filling :
    filter.count = filter.length ∨ filter.count < filter.length ∧ filter.position = filter.count ∧ filter.count = values.length := by
  have count := sound.count
  by_cases full : filter.count = filter.length
  · exact .inl full
  · have fresh := sound.holds.fresh
    rw [List.length_take] at fresh
    exact .inr (by omega)

private theorem Sound.window_length : (values.take filter.length).length = filter.count := by
  have count := sound.count
  rw [List.length_take]
  omega

theorem Sound.stored {place : Nat} (inside : place < filter.count) : filter.buffer place ≤ intMax := by
  have perm := sound.holds.perm
  rw [sound.window_length] at perm
  have member : filter.buffer place ∈ values.take filter.length :=
    perm.mem_iff.mp (List.mem_map_of_mem (List.mem_range.mpr inside))
  exact sound.ints _ (List.mem_of_mem_take member)

/-- In a full window the new value takes the place of the oldest. -/
theorem insert_full (full : filter.count = filter.length) (value : Int) :
    Sorts filter.count (filter.insert value).buffer (filter.insert value).index := by
  have sized := sound.holds.inside
  have perm := sound.sorts.perm
  have used : filter.position < filter.count := by omega
  obtain ⟨i, before, here⟩ := perm_reaches perm used
  obtain ⟨inside, found⟩ := seek_finds filter.position filter.length 0 i (Nat.zero_le i) (by omega) here
  unfold insert
  dsimp only
  rw [if_pos full, if_pos full, if_pos full]
  generalize seek filter.index filter.position filter.length 0 = place at inside found
  have bound : place < filter.count := by omega
  have stored : Function.update filter.buffer filter.position value (filter.index place) = value := by
    rw [found, Function.update_self]
  have others : ∀ i, i < filter.count → i ≠ place →
      (Function.update filter.buffer filter.position value ∘ filter.index) i = (filter.buffer ∘ filter.index) i := by
    intro i inside apart
    rw [Function.comp_apply, Function.update_of_ne]
    · rfl
    · exact fun same => apart (perm_inj perm inside bound (same.trans found.symm))
  have oldest : (filter.buffer ∘ filter.index) place = filter.buffer filter.position := by rw [Function.comp_apply, found]
  have settled := settle_sorts (Function.update filter.buffer filter.position value) (filter.buffer filter.position) bound perm
  rw [stored] at settled
  apply settled
  · intro i j before inside first second
    rw [others i (by omega) first, others j inside second]
    exact sound.sorts.ordered i j before inside
  · intro more i before
    rw [others i (by omega) (by omega), Function.comp_apply (x := place), stored]
    apply (sound.sorts.ordered i place before bound).trans
    rwa [oldest]
  · intro less j after inside
    rw [others j inside (by omega), Function.comp_apply (x := place), stored]
    apply less.trans
    rw [← oldest]
    exact sound.sorts.ordered place j after inside

/-- While the window fills, the new value starts behind all the others. -/
theorem insert_filling (short : filter.count < filter.length) (start : filter.position = filter.count) (value : Int) :
    Sorts (filter.count + 1) (filter.insert value).buffer (filter.insert value).index := by
  have perm := sound.sorts.perm
  unfold insert
  dsimp only
  rw [if_neg short.ne, if_neg short.ne, if_neg short.ne, start]
  have old : ∀ i, i < filter.count → Function.update filter.index filter.count filter.count i = filter.index i :=
    fun i inside => Function.update_of_ne (by omega) _ _
  have grown : ((List.range (filter.count + 1)).map (Function.update filter.index filter.count filter.count)).Perm
      (List.range (filter.count + 1)) := by
    have front : (List.range filter.count).map (Function.update filter.index filter.count filter.count) =
        (List.range filter.count).map filter.index := List.map_congr_left fun i member => old i (List.mem_range.mp member)
    rw [List.range_succ, List.map_append, front, List.map_singleton, Function.update_self]
    exact perm.append_right _
  have stored : Function.update filter.buffer filter.count value (Function.update filter.index filter.count filter.count filter.count) =
      value := by rw [Function.update_self, Function.update_self]
  have others : ∀ i, i < filter.count →
      (Function.update filter.buffer filter.count value ∘ Function.update filter.index filter.count filter.count) i =
        (filter.buffer ∘ filter.index) i := by
    intro i inside
    rw [Function.comp_apply, old i inside, Function.update_of_ne]
    · rfl
    · exact (perm_lt perm inside).ne
  have settled := settle_sorts (Function.update filter.buffer filter.count value) intMax (Nat.lt_succ_self filter.count) grown
  rw [stored, Nat.sub_self] at settled
  rw [Nat.sub_eq_zero_of_le (Nat.le_succ filter.count)]
  apply settled
  · intro i j before inside first second
    rw [others i (by omega), others j (by omega)]
    exact sound.sorts.ordered i j before (by omega)
  · intro largest i before
    rw [others i before, Function.comp_apply (x := filter.count), stored]
    exact (sound.stored (perm_lt perm before)).trans largest
  · intro _ j after inside
    omega

theorem update_sorts (value : Int) :
    Sorts (filter.update value).2.count (filter.update value).2.buffer (filter.update value).2.index ∧
      (filter.update value).2.buffer = Function.update filter.buffer filter.position value ∧
      (filter.update value).2.count = min (filter.count + 1) filter.length := by
  have sized := sound.holds.inside
  unfold update
  by_cases some : 0 < filter.count
  · simp only [if_pos some]
    obtain full | ⟨short, start, -⟩ := sound.full_or_filling
    · simp only [if_neg (show ¬filter.count < filter.length by omega)]
      refine ⟨insert_full sound full value, rfl, ?_⟩
      show filter.count = _
      omega
    · simp only [if_pos short]
      refine ⟨insert_filling sound short start value, rfl, ?_⟩
      show filter.count + 1 = _
      omega
  · have none : filter.count = 0 := by omega
    have short : filter.count < filter.length := by omega
    simp only [if_neg some, if_pos short]
    obtain full | ⟨-, start, -⟩ := sound.full_or_filling
    · omega
    · refine ⟨⟨?_, fun i j before inside => ?_⟩, by rw [start, none], by omega⟩
      · rw [List.range_one, List.map_singleton, Function.update_self]
      · omega

private theorem update_sound (fits : value ≤ intMax) : (filter.update value).2.Sound (value :: values) := by
  obtain ⟨sorts, buffer, count⟩ := update_sorts sound value
  have length := update_length value filter
  have position : (filter.update value).2.position = next filter.length filter.position := rfl
  refine ⟨?_, ?_, sorts, ?_⟩
  · rw [count, length, sound.count, List.length_cons]
    omega
  · rw [length, position, buffer]
    have pushed := sound.holds.push value
    rwa [← List.take_succ_cons, List.take_take, Nat.min_eq_left (Nat.le_succ _)] at pushed
  · intro other member
    obtain here | before := List.mem_cons.mp member
    · rwa [here]
    · exact sound.ints other before

private theorem update_result (fits : value ≤ intMax) :
    some (filter.update value).1 = rank (min values.length filter.length / 2) ((value :: values).take filter.length) := by
  have sized := sound.holds.inside
  have after := update_sound sound fits
  have perm := after.holds.perm
  have length := after.window_length
  obtain ⟨sorts, buffer, count⟩ := update_sorts sound value
  rw [length, update_length] at perm
  have middle : filter.count / 2 < (filter.update value).2.count := by
    have most := sound.count
    omega
  rw [← sound.count, sorts.rank perm middle]
  congr 1
  unfold update
  by_cases some : 0 < filter.count
  · simp only [if_pos some]
  · have none : filter.count = 0 := by omega
    simp only [if_neg some]
    rw [none, Nat.zero_div, Function.update_self, Function.update_self]

omit sound in
private theorem alloc_sound (length : Nat) (sized : 0 < length) (buffer : Nat → Int) (index : Nat → Nat) :
    (alloc length buffer index).Sound [] :=
  ⟨(Nat.zero_min length).symm, by rw [List.take_nil]; exact holds_nil sized buffer, ⟨List.Perm.refl _, fun _ j _ inside => absurd inside (Nat.not_lt_zero j)⟩,
    fun _ member => absurd member List.not_mem_nil⟩

private theorem clear_sound : filter.clear.Sound [] := alloc_sound filter.length (by have := sound.holds.inside; omega) filter.buffer filter.index

end MedianFilter

namespace MeanFilter

/-- The cells that are not in use are zero, so that the sum is that of the window. -/
structure Sound (filter : MeanFilter) (values : List Int) : Prop where
  count : filter.count = min values.length filter.length
  holds : Holds filter.length filter.index filter.buffer (values.take filter.length)
  blank : ∀ place, filter.count ≤ place → place < filter.length → filter.buffer place = 0
  sum : filter.sum = (values.take filter.length).sum

variable {filter : MeanFilter} {values : List Int}

private theorem alloc_sound (length : Nat) (sized : 0 < length) : (alloc length).Sound [] :=
  ⟨(Nat.zero_min length).symm, by rw [List.take_nil]; exact holds_nil sized _, fun _ _ _ => rfl, by rw [List.take_nil]; rfl⟩

private theorem clear_sound (sized : 0 < filter.length) : filter.clear.Sound [] :=
  ⟨(Nat.zero_min filter.length).symm, by rw [List.take_nil]; exact holds_nil sized _, fun _ _ inside => if_pos inside, by rw [List.take_nil]; rfl⟩

/-- What the value that goes adds to the sum of the window is what stood in the cell. -/
theorem sum_push (sound : filter.Sound values) (value : Int) :
    filter.sum - filter.buffer filter.index + value = ((value :: values).take filter.length).sum := by
  have sized := sound.holds.inside
  obtain ⟨last, same⟩ : ∃ last, filter.length = last + 1 := ⟨filter.length - 1, by omega⟩
  have window := sound.sum
  rw [same, List.take_succ_cons, List.sum_cons, window]
  have count := sound.count
  by_cases full : filter.length ≤ values.length
  · have whole : (values.take filter.length).length = filter.length := by
      rw [List.length_take]
      omega
    have inside : last < values.length := by omega
    have oldest := sound.holds.oldest whole (by omega)
    rw [List.getElem_take] at oldest
    simp only [same, Nat.add_sub_cancel] at oldest
    have front : (values.take filter.length).sum = (values.take last).sum + values[last] := by
      rw [same, List.take_succ_eq_append_getElem inside, List.sum_append, List.sum_singleton]
    rw [front, oldest]
    omega
  · have start := sound.holds.fresh (by rw [List.length_take]; omega)
    rw [List.length_take] at start
    rw [sound.blank filter.index (by omega) sized, List.take_of_length_le (by omega), List.take_of_length_le (by omega)]
    omega

private theorem update_sound (sound : filter.Sound values) (value : Int) : (filter.update value).2.Sound (value :: values) := by
  have sized := sound.holds.inside
  have count : (filter.update value).2.count = min (values.length + 1) filter.length := by
    show (if filter.count < filter.length then filter.count + 1 else filter.count) = _
    rw [sound.count]
    split <;> omega
  refine ⟨count, ?_, ?_, sum_push sound value⟩
  · have pushed := sound.holds.push value
    rw [← List.take_succ_cons, List.take_take, Nat.min_eq_left (Nat.le_succ _), next_eq_mod sized] at pushed
    exact pushed
  · intro place unused inside
    rw [count] at unused
    have least := sound.count
    have start := sound.holds.fresh
    rw [List.length_take] at start
    have inside' : place < filter.length := inside
    show Function.update filter.buffer filter.index value place = 0
    rw [Function.update_of_ne (by omega)]
    exact sound.blank place (by omega) inside

private theorem update_result (sound : filter.Sound values) (value : Int) :
    (filter.update value).1 = ((value :: values).take filter.length).sum.tdiv (min (values.length + 1) filter.length : Nat) := by
  have after := update_sound sound value
  rw [← sum_push sound value]
  exact congrArg (fun count : Nat => Int.tdiv _ count) after.count

end MeanFilter

section Runs
variable {length : Nat} (calls : List FilterCall)

/-- Every run keeps the median's index sorted. -/
theorem median_runs {filter : MedianFilter} {values : List Int} (ints : ∀ value, .update value ∈ calls → value ≤ intMax)
    (sound : filter.Sound values) :
    (Run.run MedianFilter.step calls filter).Sound (Run.run FilterCall.note calls values) ∧
      (Run.run MedianFilter.step calls filter).length = filter.length := by
  induction calls generalizing filter values with
  | nil => exact ⟨sound, rfl⟩
  | cons call calls ih =>
    have later := fun value (member : .update value ∈ calls) => ints value (List.mem_cons_of_mem _ member)
    cases call with
    | update value =>
      obtain ⟨after, same⟩ := ih later (MedianFilter.update_sound sound (ints value List.mem_cons_self))
      exact ⟨after, same.trans (MedianFilter.update_length value filter)⟩
    | clear => exact ih later (MedianFilter.clear_sound sound)

private theorem mean_runs {filter : MeanFilter} {values : List Int} (sound : filter.Sound values) :
    (Run.run MeanFilter.step calls filter).Sound (Run.run FilterCall.note calls values) ∧
      (Run.run MeanFilter.step calls filter).length = filter.length := by
  induction calls generalizing filter values with
  | nil => exact ⟨sound, rfl⟩
  | cons call calls ih =>
    cases call with
    | update value => exact ih (MeanFilter.update_sound sound value)
    | clear => exact ih (MeanFilter.clear_sound (by have := sound.holds.inside; omega))

/-- After any calls the median's index sorts its window, and the next update returns the value of middle rank and the
truncated mean of the newest values. -/
theorem filters_window (length : Nat) (sized : 0 < length) (buffer : Nat → Int) (index : Nat → Nat) (calls : List FilterCall)
    (ints : ∀ value, .update value ∈ calls → value ≤ intMax) :
    Sorts (min (since calls).length length) (Run.run MedianFilter.step calls (.alloc length buffer index)).buffer
        (Run.run MedianFilter.step calls (.alloc length buffer index)).index ∧
      ∀ value, value ≤ intMax →
        some ((Run.run MedianFilter.step calls (.alloc length buffer index)).update value).1 =
            rank (min (since calls).length length / 2) ((value :: since calls).take length) ∧
          ((Run.run MeanFilter.step calls (.alloc length)).update value).1 =
            ((value :: since calls).take length).sum.tdiv ((value :: since calls).take length).length := by
  obtain ⟨median, same⟩ := median_runs calls ints (MedianFilter.alloc_sound length sized buffer index)
  obtain ⟨mean, long⟩ := mean_runs calls (MeanFilter.alloc_sound length sized)
  have sorts := median.sorts
  rw [median.count, same] at sorts
  refine ⟨sorts, fun value fits => ⟨?_, ?_⟩⟩
  · have middle := MedianFilter.update_result median fits
    rwa [same] at middle
  · have quotient := MeanFilter.update_result mean value
    rw [long] at quotient
    rw [List.length_take, List.length_cons, Nat.min_comm]
    exact quotient

theorem filters_window_three :
    ((Run.run MedianFilter.step [.update 7, .clear, .update 7, .update 1] (.alloc 3 (fun _ => 9) fun _ => 4)).update 5).1 = 5 ∧
      ((Run.run MeanFilter.step [.update 7, .clear, .update 7, .update 1] (.alloc 3)).update 5).1 = 4 := by
  obtain ⟨middle, quotient⟩ := (filters_window 3 (by decide) (fun _ => 9) (fun _ => 4) [.update 7, .clear, .update 7, .update 1]
    (by simp [intMax])).2 5 (by decide)
  exact ⟨Option.some.inj (middle.trans (by decide)), quotient.trans (by decide)⟩

end Runs
end ArduinoK210.Touch
