import Mathlib.Data.List.Basic

/-! Loops over the offsets `0, step, 2 * step, …` below a size that collect what each round yields, and the same loops
with a way out after a round. -/

namespace Stride

universe u v

variable {α : Type u} {β : Type v} {step size : Nat} {positive : 0 < step} {body : Nat → List α}

def strides (step size : Nat) (positive : 0 < step) (body : Nat → List α) (offset : Nat) : List α :=
  if offset < size then body offset ++ strides step size positive body (offset + step) else []
termination_by size - offset

/-- The loop that ends after a round when `stop` says so of all that was collected. The flag tells that it did. -/
def stridesUntil (stop : List α → Bool) (step size : Nat) (positive : 0 < step) (body : Nat → List α) (done : List α)
    (offset : Nat) : List α × Bool :=
  if offset < size then
    if stop (done ++ body offset) then (done ++ body offset, true)
    else stridesUntil stop step size positive body (done ++ body offset) (offset + step)
  else (done, false)
termination_by size - offset

theorem mem_strides {offset : Nat} {x : α} :
    x ∈ strides step size positive body offset ↔ ∃ k, offset + k * step < size ∧ x ∈ body (offset + k * step) := by
  fun_induction strides step size positive body offset with
  | case1 offset inside ih =>
    rw [List.mem_append, ih]
    constructor
    · rintro (here | ⟨k, below, later⟩)
      · exact ⟨0, by simpa using inside, by simpa using here⟩
      · have next : offset + (k + 1) * step = offset + step + k * step := by
          rw [Nat.succ_mul]
          omega
        exact ⟨k + 1, next ▸ below, next ▸ later⟩
    · rintro ⟨k, below, found⟩
      cases k with
      | zero => exact .inl (by simpa using found)
      | succ k =>
        have next : offset + (k + 1) * step = offset + step + k * step := by
          rw [Nat.succ_mul]
          omega
        exact .inr ⟨k, next ▸ below, next ▸ found⟩
  | case2 offset outside =>
    simp only [List.not_mem_nil, false_iff, not_exists, not_and]
    intro k below
    omega

/-- The rounds of the loop, counted. -/
theorem strides_eq_range (offset : Nat) : strides step size positive body offset =
    (List.range ((size - offset + step - 1) / step)).flatMap fun k => body (offset + k * step) := by
  fun_induction strides step size positive body offset with
  | case1 offset inside ih =>
    have more : (size - offset + step - 1) / step = (size - (offset + step) + step - 1) / step + 1 := by
      by_cases last : size - offset ≤ step
      · have none : size - (offset + step) + step - 1 < step := by omega
        rw [Nat.div_eq_of_lt none]
        exact Nat.div_eq_of_lt_le (by omega) (by omega)
      · have split : size - offset + step - 1 = size - (offset + step) + step - 1 + step := by omega
        rw [split, Nat.add_div_right _ positive]
    have shift : ∀ k, offset + (k + 1) * step = offset + step + k * step := by
      intro k
      rw [Nat.succ_mul]
      omega
    rw [more, List.range_succ_eq_map, List.flatMap_cons, List.flatMap_map, ih, Nat.zero_mul, Nat.add_zero]
    simp only [shift]
  | case2 offset outside =>
    have none : size - offset + step - 1 < step := by omega
    rw [Nat.div_eq_of_lt none]
    rfl

/-- A target is met in one round when each round meets what lies between its offset and the next. -/
theorem strides_flatMap {view : α → List β} {target : Nat} {yield : List β} (inside : target < size) {offset : Nat}
    (aligned : offset % step = 0)
    (round : ∀ offset, offset < size → offset % step = 0 →
      (body offset).flatMap view = if offset ≤ target ∧ target < offset + step then yield else []) :
    (strides step size positive body offset).flatMap view = if offset ≤ target then yield else [] := by
  fun_induction strides step size positive body offset with
  | case1 offset below ih =>
    have next : (offset + step) % step = 0 := by rw [Nat.add_mod_right, aligned]
    rw [List.flatMap_append, round offset below aligned, ih next]
    by_cases reached : offset ≤ target
    · by_cases here : target < offset + step
      · have passed : ¬offset + step ≤ target := by omega
        simp [reached, here, passed]
      · have later : offset + step ≤ target := by omega
        simp [reached, here, later]
    · have beyond : ¬offset + step ≤ target := by omega
      simp [reached, beyond]
  | case2 offset outside =>
    have beyond : ¬offset ≤ target := by omega
    simp [beyond]

/-- The same with a counted loop, where each round meets one target. -/
theorem range_flatMap {view : Nat → List β} {base count target : Nat} {yield : List β}
    (round : ∀ i, i < count → view i = if base + i = target then yield else []) :
    (List.range count).flatMap view = if base ≤ target ∧ target < base + count then yield else [] := by
  induction count with
  | zero =>
    have nowhere : ¬(base ≤ target ∧ target < base + 0) := by omega
    rw [if_neg nowhere]
    rfl
  | succ count ih =>
    rw [List.range_succ, List.flatMap_append, ih fun i below => round i (Nat.lt_succ_of_lt below), List.flatMap_singleton,
      round count (Nat.lt_succ_self count)]
    by_cases last : base + count = target
    · have here : base ≤ target ∧ target < base + (count + 1) := by omega
      have earlier : ¬(base ≤ target ∧ target < base + count) := by omega
      rw [if_neg earlier, if_pos last, if_pos here, List.nil_append]
    · have same : (base ≤ target ∧ target < base + (count + 1)) ↔ (base ≤ target ∧ target < base + count) := by omega
      rw [if_neg last, List.append_nil, if_congr same rfl rfl]

theorem bands {offset target half : Nat} (yield : List β) :
    (if offset ≤ target ∧ target < offset + half then yield else []) ++
        (if offset + half ≤ target ∧ target < offset + half + half then yield else []) =
      if offset ≤ target ∧ target < offset + half * 2 then yield else [] := by
  by_cases first : offset ≤ target ∧ target < offset + half
  · have second : ¬(offset + half ≤ target ∧ target < offset + half + half) := by omega
    have either : offset ≤ target ∧ target < offset + half * 2 := by omega
    rw [if_pos first, if_neg second, if_pos either, List.append_nil]
  · have same : (offset + half ≤ target ∧ target < offset + half + half) ↔ (offset ≤ target ∧ target < offset + half * 2) := by
      omega
    rw [if_neg first, if_congr same rfl rfl, List.nil_append]

theorem stridesUntil_sublist (stop : List α → Bool) (done : List α) (offset : Nat) {x : α}
    (found : x ∈ (stridesUntil stop step size positive body done offset).1) :
    x ∈ done ∨ x ∈ strides step size positive body offset := by
  fun_induction stridesUntil stop step size positive body done offset with
  | case1 done offset inside stopped =>
    rw [strides, if_pos inside]
    rcases List.mem_append.mp found with old | here
    · exact .inl old
    · exact .inr (List.mem_append_left _ here)
  | case2 done offset inside going ih =>
    rw [strides, if_pos inside]
    rcases ih found with collected | later
    · rcases List.mem_append.mp collected with old | here
      · exact .inl old
      · exact .inr (List.mem_append_left _ here)
    · exact .inr (List.mem_append_right _ later)
  | case3 done offset outside => exact .inl found

theorem stridesUntil_finished {stop : List α → Bool} {done : List α} {offset : Nat}
    (finished : (stridesUntil stop step size positive body done offset).2 = false) :
    (stridesUntil stop step size positive body done offset).1 = done ++ strides step size positive body offset := by
  fun_induction stridesUntil stop step size positive body done offset with
  | case1 done offset inside stopped => simp at finished
  | case2 done offset inside going ih =>
    rw [strides, if_pos inside, ih finished, List.append_assoc]
  | case3 done offset outside =>
    rw [strides, if_neg outside, List.append_nil]

theorem stridesUntil_never (done : List α) (offset : Nat) :
    stridesUntil (fun _ => false) step size positive body done offset =
      (done ++ strides step size positive body offset, false) := by
  have finished : (stridesUntil (fun _ => false) step size positive body done offset).2 = false := by
    fun_induction stridesUntil (fun _ => false) step size positive body done offset with
    | case1 done offset inside stopped => exact absurd stopped (by simp)
    | case2 done offset inside going ih => exact ih
    | case3 done offset outside => rfl
  exact Prod.ext (stridesUntil_finished finished) finished

/-- A loop that was not stopped goes the same way when it is stopped less often. -/
theorem stridesUntil_patient {stop stop' : List α → Bool} (patient : ∀ done, stop done = false → stop' done = false) {done : List α}
    {offset : Nat} (finished : (stridesUntil stop step size positive body done offset).2 = false) :
    stridesUntil stop' step size positive body done offset = stridesUntil stop step size positive body done offset := by
  fun_induction stridesUntil stop step size positive body done offset with
  | case1 done offset inside stopped => simp at finished
  | case2 done offset inside going ih =>
    have going' : ¬stop' (done ++ body offset) = true := ne_true_of_eq_false (patient _ (eq_false_of_ne_true going))
    rw [stridesUntil, if_pos inside, if_neg going']
    exact ih finished
  | case3 done offset outside => rw [stridesUntil, if_neg outside]

theorem stridesUntil_asked {stop : List α → Bool} {done : List α} {offset : Nat} (asked : offset < size ∨ stop done = false)
    (finished : (stridesUntil stop step size positive body done offset).2 = false) :
    stop (stridesUntil stop step size positive body done offset).1 = false := by
  fun_induction stridesUntil stop step size positive body done offset with
  | case1 done offset inside stopped => simp at finished
  | case2 done offset inside going ih => exact ih (.inr (eq_false_of_ne_true going)) finished
  | case3 done offset outside => exact asked.resolve_left outside

theorem stridesUntil_unstopped {stop : List α → Bool} {done : List α} {offset : Nat}
    (going : ∀ collected, collected <+: done ++ strides step size positive body offset → stop collected = false) :
    (stridesUntil stop step size positive body done offset).2 = false := by
  fun_induction stridesUntil stop step size positive body done offset with
  | case1 done offset inside stopped =>
    rw [strides, if_pos inside, ← List.append_assoc] at going
    exact (ne_true_of_eq_false (going _ (List.prefix_append _ _)) stopped).elim
  | case2 done offset inside open_ ih =>
    rw [strides, if_pos inside, ← List.append_assoc] at going
    exact ih going
  | case3 done offset outside => rfl

theorem strides_lengths {body' : Nat → List β} (lengths : ∀ offset, (body offset).length = (body' offset).length) (offset : Nat) :
    (strides step size positive body offset).length = (strides step size positive body' offset).length := by
  fun_induction strides step size positive body offset with
  | case1 offset inside ih =>
    have round : strides step size positive body' offset = body' offset ++ strides step size positive body' (offset + step) := by
      conv_lhs => rw [strides, if_pos inside]
    rw [round, List.length_append, List.length_append, lengths, ih]
  | case2 offset outside =>
    rw [strides, if_neg outside]
    rfl

/-- They stop after the same round when only the number counts. -/
theorem stridesUntil_lengths {body' : Nat → List β} (lengths : ∀ offset, (body offset).length = (body' offset).length)
    {stop : List α → Bool} {stop' : List β → Bool} (alike : ∀ done done', done.length = done'.length → stop done = stop' done')
    {done : List α} {done' : List β} (equal : done.length = done'.length) (offset : Nat) :
    (stridesUntil stop step size positive body done offset).1.length = (stridesUntil stop' step size positive body' done' offset).1.length ∧
      (stridesUntil stop step size positive body done offset).2 = (stridesUntil stop' step size positive body' done' offset).2 := by
  fun_induction stridesUntil stop step size positive body done offset generalizing done' with
  | case1 done offset inside stopped =>
    have longer : (done ++ body offset).length = (done' ++ body' offset).length := by
      rw [List.length_append, List.length_append, equal, lengths]
    rw [stridesUntil, if_pos inside, if_pos (alike _ _ longer ▸ stopped)]
    exact ⟨longer, rfl⟩
  | case2 done offset inside going ih =>
    have longer : (done ++ body offset).length = (done' ++ body' offset).length := by
      rw [List.length_append, List.length_append, equal, lengths]
    have same : stridesUntil stop' step size positive body' done' offset =
        stridesUntil stop' step size positive body' (done' ++ body' offset) (offset + step) := by
      conv_lhs => rw [stridesUntil, if_pos inside, if_neg (alike _ _ longer ▸ going)]
    rw [same]
    exact ih longer
  | case3 done offset outside =>
    rw [stridesUntil, if_neg outside]
    exact ⟨equal, rfl⟩

end Stride
