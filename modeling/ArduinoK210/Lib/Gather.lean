import ArduinoK210.Lib.Raster
import Mathlib.Data.Int.Basic
import Mathlib.Data.List.Nodup
import Mathlib.Data.List.Pairwise
import Mathlib.Data.List.Perm.Subperm
import Mathlib.Logic.Nontrivial.Basic

/-! Loops that compute each cell of one buffer from cells of another. An access outside
the buffers, or a value that is none, ends a run without a result. -/

namespace Gather

open Nor (put)

universe u

/-- One assignment: the cell written, the cells read, and what is made of them. -/
structure Step (α : Type u) where
  dst : Int
  reads : List Int
  value : List α → Option α

variable {α : Type u}

namespace Step

def Within (step : Step α) (size capacity : Nat) : Prop :=
  (∀ place ∈ step.reads, 0 ≤ place ∧ place < size) ∧ 0 ≤ step.dst ∧ step.dst < capacity

instance (step : Step α) (size capacity : Nat) : Decidable (step.Within size capacity) := inferInstanceAs (Decidable (_ ∧ _))

def result (source : Nat → α) (step : Step α) : Option α := step.value (step.reads.map fun place => source place.toNat)

def run (source : Nat → α) (size capacity : Nat) (mem : Nat → α) (step : Step α) : Option (Nat → α) :=
  if step.Within size capacity then (step.result source).map fun value => put mem step.dst.toNat [value] else none

def move (dst place : Int) : Step α := ⟨dst, [place], List.head?⟩

def undefined : Step α := ⟨0, [], fun _ => none⟩

theorem move_within (dst place : Int) (size capacity : Nat) :
    (move dst place : Step α).Within size capacity ↔ (0 ≤ place ∧ place < size) ∧ 0 ≤ dst ∧ dst < capacity := by
  simp [Within, move]

theorem move_result (source : Nat → α) (dst place : Int) : (move dst place).result source = some (source place.toNat) := rfl

end Step

def raster (rows width : Nat) (pixel : Nat → Nat → List (Step α)) : List (Step α) :=
  (List.range rows).flatMap fun y => (List.range width).flatMap (pixel y)

def run (source : Nat → α) (size capacity : Nat) (steps : List (Step α)) (mem : Nat → α) : Option (Nat → α) :=
  steps.foldlM (Step.run source size capacity) mem

def Safe (steps : List (Step α)) (size capacity : Nat) : Prop := ∀ step ∈ steps, step.Within size capacity

def Covers (steps : List (Step α)) (capacity : Nat) : Prop := ∀ a : Nat, a < capacity → ∃ step ∈ steps, step.dst = a

theorem mem_raster {rows width : Nat} {pixel : Nat → Nat → List (Step α)} {step : Step α} :
    step ∈ raster rows width pixel ↔ ∃ y x, y < rows ∧ x < width ∧ step ∈ pixel y x := by
  simp only [raster, List.mem_flatMap, List.mem_range]
  constructor
  · rintro ⟨y, row, x, column, inside⟩
    exact ⟨y, x, row, column, inside⟩
  · rintro ⟨y, x, row, column, inside⟩
    exact ⟨y, row, x, column, inside⟩

theorem forall_raster {rows width : Nat} {pixel : Nat → Nat → List (Step α)} {P : Step α → Prop} :
    (∀ step ∈ raster rows width pixel, P step) ↔ ∀ y x, y < rows → x < width → ∀ step ∈ pixel y x, P step := by
  constructor
  · intro all y x row column step inside
    exact all step (mem_raster.mpr ⟨y, x, row, column, inside⟩)
  · intro all step inside
    obtain ⟨y, x, row, column, inside⟩ := mem_raster.mp inside
    exact all y x row column step inside

theorem raster_length {rows width size : Nat} {pixel : Nat → Nat → List (Step α)}
    (sized : ∀ y x, (pixel y x).length ≤ size) : (raster rows width pixel).length ≤ rows * (width * size) := by
  have total : ∀ (count bound : Nat) (body : Nat → List (Step α)), (∀ i, (body i).length ≤ bound) →
      ((List.range count).flatMap body).length ≤ count * bound := by
    intro count bound body small
    induction count with
    | zero => simp
    | succ count ih =>
      have last := small count
      rw [List.range_succ, List.flatMap_append, List.length_append, Nat.succ_mul]
      simp only [List.flatMap_cons, List.flatMap_nil, List.append_nil]
      omega
  exact total _ _ _ fun y => total _ _ _ (sized y)

section Run
variable {source : Nat → α} {size capacity : Nat} {steps : List (Step α)} {mem filled : Nat → α}

theorem run_cons (step : Step α) (steps : List (Step α)) (mem : Nat → α) :
    run source size capacity (step :: steps) mem =
      (step.run source size capacity mem).bind (run source size capacity steps) := rfl

theorem step_run_some {step : Step α} {after : Nat → α} :
    step.run source size capacity mem = some after ↔
      step.Within size capacity ∧ ∃ value, step.result source = some value ∧ put mem step.dst.toNat [value] = after := by
  unfold Step.run
  split
  next within => simp [within]
  next outside => simp [outside]

/-- A run has a result exactly when every step stays in the buffers and has a value. -/
theorem run_isSome_iff : (run source size capacity steps mem).isSome ↔
    Safe steps size capacity ∧ ∀ step ∈ steps, (step.result source).isSome := by
  induction steps generalizing mem with
  | nil => simp [run, Safe]
  | cons step steps ih =>
    rw [run_cons, Safe, List.forall_mem_cons, List.forall_mem_cons]
    cases head : step.run source size capacity mem with
    | none =>
      have fails : ¬ (step.Within size capacity ∧ (step.result source).isSome) := by
        rintro ⟨within, valued⟩
        obtain ⟨value, made⟩ := Option.isSome_iff_exists.mp valued
        have done : step.run source size capacity mem = some (put mem step.dst.toNat [value]) :=
          step_run_some.mpr ⟨within, value, made, rfl⟩
        rw [head] at done
        cases done
      rw [Option.bind_none]
      constructor
      · intro some
        cases some
      · rintro ⟨⟨within, _⟩, valued, _⟩
        exact absurd ⟨within, valued⟩ fails
    | some after =>
      obtain ⟨within, value, made, _⟩ := step_run_some.mp head
      rw [Option.bind_some, ih, made]
      constructor
      · rintro ⟨safe, valued⟩
        exact ⟨⟨within, safe⟩, rfl, valued⟩
      · rintro ⟨⟨_, safe⟩, _, valued⟩
        exact ⟨safe, valued⟩

/-- A cell that is not written stays as it was. A written one holds the value of a step that writes it. -/
theorem run_cell (done : run source size capacity steps mem = some filled) (a : Nat) :
    (∃ step ∈ steps, step.dst = a ∧ step.result source = some (filled a)) ∨
      (∀ step ∈ steps, step.dst ≠ a) ∧ filled a = mem a := by
  induction steps generalizing mem with
  | nil =>
    cases done
    exact Or.inr ⟨fun _ none => absurd none List.not_mem_nil, rfl⟩
  | cons step steps ih =>
    rw [run_cons, Option.bind_eq_some_iff] at done
    obtain ⟨after, head, done⟩ := done
    obtain ⟨⟨_, nonneg, _⟩, value, made, rfl⟩ := step_run_some.mp head
    rcases ih done with ⟨later, inside, place, own⟩ | ⟨others, kept⟩
    · exact Or.inl ⟨later, List.mem_cons_of_mem _ inside, place, own⟩
    · by_cases here : step.dst = a
      · have at' : step.dst.toNat = a := by omega
        rw [at', Raster.put_one] at kept
        exact Or.inl ⟨step, List.mem_cons_self, here, kept ▸ made⟩
      · rw [Raster.put_one_other _ _ (by omega)] at kept
        exact Or.inr ⟨List.forall_mem_cons.mpr ⟨here, others⟩, kept⟩

theorem run_written (done : run source size capacity steps mem = some filled) {a : Nat}
    (written : ∃ step ∈ steps, step.dst = a) : ∃ step ∈ steps, step.dst = a ∧ step.result source = some (filled a) := by
  obtain ⟨writer, inside, place⟩ := written
  rcases run_cell done a with own | ⟨none, _⟩
  · exact own
  · exact absurd place (none writer inside)

theorem run_kept (done : run source size capacity steps mem = some filled) {a : Nat} (none : ∀ step ∈ steps, step.dst ≠ a) :
    filled a = mem a := by
  rcases run_cell done a with ⟨step, inside, place, _⟩ | ⟨_, kept⟩
  · exact absurd place (none step inside)
  · exact kept

end Run

/-- From any content of the buffer, a run leaves the wanted value in each of the first cells. -/
def Makes (source : Nat → α) (size capacity : Nat) (steps : List (Step α)) (count : Nat) (wanted : Nat → α) : Prop :=
  ∀ mem, ∃ filled, run source size capacity steps mem = some filled ∧ ∀ a, a < count → filled a = wanted a

section Makes
variable {source : Nat → α} {size capacity count : Nat} {steps : List (Step α)} {wanted : Nat → α}

/-- Steps that each have the value wanted where they write make what is wanted of the cells that they cover. -/
theorem makes_of_values (safe : Safe steps size capacity) (covers : Covers steps count)
    (values : ∀ step ∈ steps, ∀ a : Nat, step.dst = a → step.result source = some (wanted a)) :
    Makes source size capacity steps count wanted := by
  intro mem
  have valued : ∀ step ∈ steps, (step.result source).isSome := by
    intro step inside
    obtain ⟨a, place⟩ := Int.eq_ofNat_of_zero_le (safe step inside).2.1
    rw [values step inside a place]
    rfl
  have ends : (run source size capacity steps mem).isSome := run_isSome_iff.mpr ⟨safe, valued⟩
  obtain ⟨filled, done⟩ := Option.isSome_iff_exists.mp ends
  refine ⟨filled, done, fun a inside => ?_⟩
  obtain ⟨step, member, place, own⟩ := run_written done (covers a inside)
  rw [values step member a place] at own
  exact (Option.some.inj own).symm

theorem Makes.complete (makes : Makes source size capacity steps count wanted) :
    Safe steps size capacity ∧ ∀ step ∈ steps, (step.result source).isSome := by
  obtain ⟨filled, done, _⟩ := makes wanted
  exact run_isSome_iff.mp (Option.isSome_iff_exists.mpr ⟨filled, done⟩)

/-- What is made from any content is written. -/
theorem Makes.covers [Nontrivial α] (makes : Makes source size capacity steps count wanted) : Covers steps count := by
  intro a inside
  by_contra unwritten
  obtain ⟨other, different⟩ := exists_ne (wanted a)
  obtain ⟨filled, done, cells⟩ := makes fun _ => other
  have kept := run_kept done fun step member place => unwritten ⟨step, member, place⟩
  exact different (kept.symm.trans (cells a inside))

theorem Makes.written [Nontrivial α] (makes : Makes source size capacity steps count wanted) {a : Nat} (inside : a < count) :
    ∃ step ∈ steps, step.dst = a ∧ step.result source = some (wanted a) := by
  obtain ⟨filled, done, cells⟩ := makes wanted
  obtain ⟨step, member, place, own⟩ := run_written done (makes.covers a inside)
  rw [cells a inside] at own
  exact ⟨step, member, place, own⟩

/-- A larger buffer does not change a run that has a result. -/
theorem run_mono {room : Nat} (more : capacity ≤ room) {mem filled : Nat → α}
    (done : run source size capacity steps mem = some filled) : run source size room steps mem = some filled := by
  induction steps generalizing mem with
  | nil => exact done
  | cons step steps ih =>
    rw [run_cons, Option.bind_eq_some_iff] at done ⊢
    obtain ⟨after, head, done⟩ := done
    obtain ⟨⟨reads, nonneg, below⟩, value, made, same⟩ := step_run_some.mp head
    exact ⟨after, step_run_some.mpr ⟨⟨reads, nonneg, by omega⟩, value, made, same⟩, ih done⟩

theorem Makes.mono (makes : Makes source size capacity steps count wanted) {room : Nat} (more : capacity ≤ room) :
    Makes source size room steps count wanted := by
  intro mem
  obtain ⟨filled, done, cells⟩ := makes mem
  exact ⟨filled, run_mono more done, cells⟩

end Makes

/-- A loop over rows and columns covers the buffer when each pixel writes its own cells. -/
theorem covers_raster (layout : Raster.Layout) {rows width : Nat} (size : Nat) {pixel : Nat → Nat → List (Step α)}
    (writes : ∀ y x k, y < rows → x < width → k < size →
      ∃ step ∈ pixel y x, step.dst = layout.address (width * rows) size (y * width + x) k) :
    Covers (raster rows width pixel) (width * rows * size) := by
  intro a inside
  obtain ⟨i, k, cell, byte, rfl⟩ := layout.address_surjective inside
  have wide : 0 < width := Nat.pos_of_ne_zero fun none => by simp [none] at cell
  have row : i / width < rows := Nat.div_lt_of_lt_mul cell
  have column : i % width < width := Nat.mod_lt _ wide
  obtain ⟨step, member, place⟩ := writes _ _ k row column byte
  rw [Nat.div_add_mod'] at place
  exact ⟨step, mem_raster.mpr ⟨_, _, row, column, member⟩, place⟩

theorem Covers.subperm {steps : List (Step α)} {capacity : Nat} (covers : Covers steps capacity) :
    ((List.range capacity).map Int.ofNat).Subperm (steps.map Step.dst) := by
  refine List.subperm_of_subset (List.nodup_range.map Int.ofNat_injective) fun place inside => ?_
  obtain ⟨a, bound, rfl⟩ := List.mem_map.mp inside
  obtain ⟨step, member, writes⟩ := covers a (List.mem_range.mp bound)
  exact List.mem_map.mpr ⟨step, member, writes⟩

theorem Covers.le_length {steps : List (Step α)} {capacity : Nat} (covers : Covers steps capacity) : capacity ≤ steps.length := by
  simpa using covers.subperm.length_le

/-- As many steps as cells cover the cells only when no two of them write the same one. -/
theorem Covers.nodup {steps : List (Step α)} {capacity : Nat} (covers : Covers steps capacity)
    (few : steps.length ≤ capacity) : (steps.map Step.dst).Nodup := by
  have permuted := covers.subperm.perm_of_length_le (by simpa using few)
  exact permuted.nodup_iff.mp (List.nodup_range.map Int.ofNat_injective)

theorem disjoint_of_nodup {β γ : Type*} {items : List β} {parts : β → List γ} (nodup : (items.flatMap parts).Nodup) {one two : β}
    (first : one ∈ items) (second : two ∈ items) (different : one ≠ two) : (parts one).Disjoint (parts two) := by
  have symmetric : Std.Symm (Function.onFun List.Disjoint parts) := ⟨fun _ _ apart _ inside other => apart other inside⟩
  exact (List.nodup_flatMap.mp nodup).2.forall first second different

/-- Two pixels of a raster without repetition write apart. -/
theorem raster_apart {rows width : Nat} {pixel : Nat → Nat → List (Step α)}
    (nodup : ((raster rows width pixel).map Step.dst).Nodup) {y x row column : Nat} (first : y < rows) (across : x < width)
    (second : row < rows) (along : column < width) (different : y ≠ row ∨ x ≠ column) {one two : Step α}
    (left : one ∈ pixel y x) (right : two ∈ pixel row column) : one.dst ≠ two.dst := by
  intro same
  rw [raster, List.map_flatMap] at nodup
  by_cases rows : y = row
  · subst rows
    have line := (List.nodup_flatMap.mp nodup).1 y (List.mem_range.mpr first)
    rw [List.map_flatMap] at line
    have columns : x ≠ column := different.resolve_left fun other => other rfl
    have apart := disjoint_of_nodup line (List.mem_range.mpr across) (List.mem_range.mpr along) columns
    have shared : one.dst ∈ (pixel y column).map Step.dst := by
      rw [same]
      exact List.mem_map_of_mem right
    exact apart (List.mem_map_of_mem left) shared
  · have apart := disjoint_of_nodup nodup (List.mem_range.mpr first) (List.mem_range.mpr second) rows
    have shared : one.dst ∈ ((List.range width).flatMap (pixel row)).map Step.dst := by
      rw [same]
      exact List.mem_map_of_mem (List.mem_flatMap.mpr ⟨column, List.mem_range.mpr along, right⟩)
    exact apart (List.mem_map_of_mem (List.mem_flatMap.mpr ⟨x, List.mem_range.mpr across, left⟩)) shared

end Gather
