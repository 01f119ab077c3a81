import Mathlib.Data.List.Sort
import Mathlib.Logic.Equiv.Basic

/-! Tables of keys that stay in order while one of them is replaced: the new key moves past
its neighbours until it stands between them. The rank of a value in a list is its place in order. -/

namespace ArduinoK210.Rank

section
variable {β : Type} {table : Nat → β}

theorem swap_apart {a b i : Nat} (first : i ≠ a) (second : i ≠ b) : (table ∘ Equiv.swap a b) i = table i := by
  rw [Function.comp_apply, Equiv.swap_apply_of_ne_of_ne first second]

theorem swap_left (a b : Nat) : (table ∘ Equiv.swap a b) a = table b := by rw [Function.comp_apply, Equiv.swap_apply_left]

theorem swap_right (a b : Nat) : (table ∘ Equiv.swap a b) b = table a := by rw [Function.comp_apply, Equiv.swap_apply_right]

end

variable {α : Type} [LinearOrder α]

/-- The value at place `k` of the list in order. -/
def rank (k : Nat) (values : List α) : Option α := (values.insertionSort (· ≤ ·))[k]?

def Ordered (count : Nat) (key : Nat → α) : Prop := ∀ i j, i < j → j < count → key i ≤ key j

/-- In order but for the key at `place`. -/
def OrderedBut (place count : Nat) (key : Nat → α) : Prop :=
  ∀ i j, i < j → j < count → i ≠ place → j ≠ place → key i ≤ key j

/-- `index` lists the positions below `count` in the order of their values. -/
structure Sorts (count : Nat) (value : Nat → α) (index : Nat → Nat) : Prop where
  perm : ((List.range count).map index).Perm (List.range count)
  ordered : Ordered count (value ∘ index)

variable {count place : Nat} {key value : Nat → α} {index : Nat → Nat}

theorem OrderedBut.ordered (but : OrderedBut place count key) (below : ∀ i, i < place → key i ≤ key place)
    (above : ∀ j, place < j → j < count → key place ≤ key j) : Ordered count key := by
  intro i j before inside
  by_cases first : i = place
  · cases first
    exact above j before inside
  · by_cases second : j = place
    · cases second
      exact below i before
    · exact but i j before inside first second

/-- The key that is out of order changes places with its neighbour. -/
theorem OrderedBut.up (but : OrderedBut place count key) (inside : place + 1 < count) :
    OrderedBut (place + 1) count (key ∘ Equiv.swap place (place + 1)) := by
  intro i j before bound first second
  by_cases here : i = place
  · cases here
    rw [swap_left, swap_apart (by omega) second]
    exact but _ j (by omega) bound (by omega) (by omega)
  · by_cases there : j = place
    · cases there
      rw [swap_left, swap_apart here first]
      exact but i _ (by omega) inside here (by omega)
    · rw [swap_apart here first, swap_apart there second]
      exact but i j before bound here there

theorem OrderedBut.down (but : OrderedBut (place + 1) count key) (inside : place + 1 < count) :
    OrderedBut place count (key ∘ Equiv.swap (place + 1) place) := by
  intro i j before bound first second
  by_cases here : i = place + 1
  · cases here
    rw [swap_left, swap_apart (by omega) second]
    exact but _ j (by omega) bound (by omega) (by omega)
  · by_cases there : j = place + 1
    · cases there
      rw [swap_left, swap_apart here first]
      exact but i _ (by omega) (by omega) here (by omega)
    · rw [swap_apart here first, swap_apart there second]
      exact but i j before bound here there

theorem below_up (below : ∀ i, i < place → key i ≤ key place) (less : key (place + 1) ≤ key place) (i : Nat) (before : i < place + 1) :
    (key ∘ Equiv.swap place (place + 1)) i ≤ (key ∘ Equiv.swap place (place + 1)) (place + 1) := by
  rw [swap_right]
  by_cases here : i = place
  · cases here
    rwa [swap_left]
  · rw [swap_apart here (by omega)]
    exact below i (by omega)

theorem above_down (above : ∀ j, place + 1 < j → j < count → key (place + 1) ≤ key j) (more : key (place + 1) ≤ key place)
    (j : Nat) (after : place < j) (inside : j < count) :
    (key ∘ Equiv.swap (place + 1) place) place ≤ (key ∘ Equiv.swap (place + 1) place) j := by
  rw [swap_right]
  by_cases here : j = place + 1
  · cases here
    rwa [swap_left]
  · rw [swap_apart here (by omega)]
    exact above j (by omega) inside

/-- A map of the positions below `count` that is one to one rearranges them. -/
theorem perm_range (inside : ∀ i, i < count → index i < count)
    (distinct : ∀ i j, i < count → j < count → index i = index j → i = j) :
    ((List.range count).map index).Perm (List.range count) := by
  have nodup : ((List.range count).map index).Nodup := by
    apply List.Nodup.map_on _ List.nodup_range
    intro i first j second same
    exact distinct i j (List.mem_range.mp first) (List.mem_range.mp second) same
  have subset : (List.range count).map index ⊆ List.range count := by
    intro place member
    obtain ⟨i, source, rfl⟩ := List.mem_map.mp member
    exact List.mem_range.mpr (inside i (List.mem_range.mp source))
  apply (List.subperm_of_subset nodup subset).perm_of_length_le
  rw [List.length_map]

theorem perm_lt (perm : ((List.range count).map index).Perm (List.range count)) {i : Nat} (inside : i < count) : index i < count :=
  List.mem_range.mp (perm.mem_iff.mp (List.mem_map_of_mem (List.mem_range.mpr inside)))

theorem perm_inj (perm : ((List.range count).map index).Perm (List.range count)) {i j : Nat} (first : i < count) (second : j < count)
    (same : index i = index j) : i = j := by
  have nodup : ((List.range count).map index).Nodup := perm.nodup_iff.mpr List.nodup_range
  exact List.inj_on_of_nodup_map nodup (List.mem_range.mpr first) (List.mem_range.mpr second) same

theorem perm_reaches (perm : ((List.range count).map index).Perm (List.range count)) {place : Nat} (inside : place < count) :
    ∃ i, i < count ∧ index i = place := by
  obtain ⟨i, source, same⟩ := List.mem_map.mp (perm.mem_iff.mpr (List.mem_range.mpr inside))
  exact ⟨i, List.mem_range.mp source, same⟩

theorem perm_swap (perm : ((List.range count).map index).Perm (List.range count)) {a b : Nat} (first : a < count) (second : b < count) :
    ((List.range count).map (index ∘ Equiv.swap a b)).Perm (List.range count) := by
  have inside : ∀ i, i < count → Equiv.swap a b i < count := by
    intro i bound
    rw [Equiv.swap_apply_def]
    split_ifs <;> omega
  have moved : ((List.range count).map (Equiv.swap a b)).Perm (List.range count) :=
    perm_range inside fun i j _ _ same => (Equiv.swap a b).injective same
  rw [← List.map_map]
  exact (moved.map index).trans perm

/-- What stands at place `k` of keys in order has rank `k` among them. -/
theorem rank_of_ordered {values : List α} {k : Nat} (ordered : Ordered count key) (perm : ((List.range count).map key).Perm values)
    (inside : k < count) : rank k values = some (key k) := by
  have sorted : ((List.range count).map key).Pairwise (· ≤ ·) := by
    rw [List.pairwise_map]
    exact List.pairwise_lt_range.imp_of_mem fun _ second before => ordered _ _ before (List.mem_range.mp second)
  have same : values.insertionSort (· ≤ ·) = (List.range count).map key :=
    ((List.perm_insertionSort (· ≤ ·) values).trans perm.symm).eq_of_pairwise' (List.pairwise_insertionSort (· ≤ ·) values) sorted
  rw [rank, same, List.getElem?_map, List.getElem?_range inside, Option.map_some]

theorem Sorts.rank {values : List α} {k : Nat} (sorts : Sorts count value index) (perm : ((List.range count).map value).Perm values)
    (inside : k < count) : rank k values = some (value (index k)) := by
  apply rank_of_ordered sorts.ordered _ inside
  rw [← List.map_map]
  exact (sorts.perm.map value).trans perm

end ArduinoK210.Rank
