import Mathlib.Algebra.Order.Field.Basic
import Mathlib.Algebra.Order.Ring.Rat
import Mathlib.Algebra.Field.Rat
import Mathlib.Tactic.Positivity
import Mathlib.Data.List.Nodup
import Mathlib.Data.List.Pairwise
import ArduinoK210.Lib.Greedy

/-! Non-maximum suppression in the region layer: `do_nms_sort`, and what `region_layer_output` makes of its result. The
numbers are exact, and the overlap of two boxes is any function of them. -/

namespace ArduinoK210.Kpu.Nms
open Greedy

structure Box (α : Type) where
  x : α
  y : α
  w : α
  h : α
  deriving DecidableEq, Repr

/-- The fields of `yolo2_region_layer_t` that the suppression and the output read. -/
structure RegionLayer (α : Type) where
  threshold : α
  nmsValue : α
  imageWidth : Nat
  imageHeight : Nat
  classes : Nat
  boxesNumber : Nat

/-- `probs[i][c]`, by box and class. -/
abbrev Probs (α : Type) := Nat → Nat → α

structure SortableBox where
  index : Nat
  class_ : Nat
  deriving DecidableEq, Repr

/-- What is obtained from `qsort` by a comparator that orders the items. -/
def Sorts (qsort : (SortableBox → SortableBox → Int) → List SortableBox → List SortableBox) : Prop :=
  ∀ (compar : SortableBox → SortableBox → Int) (items : List SortableBox),
    (∀ a ∈ items, ∀ b ∈ items, compar a b ≤ 0 ∨ compar b a ≤ 0) →
    (∀ a ∈ items, ∀ b ∈ items, ∀ c ∈ items, compar a b ≤ 0 → compar b c ≤ 0 → compar a c ≤ 0) →
    (qsort compar items).Perm items ∧ (qsort compar items).Pairwise fun a b => compar a b ≤ 0

/-- One object of `obj_info_t`. -/
structure Obj (α : Type) where
  x : UInt32
  y : UInt32
  w : UInt32
  h : UInt32
  classId : Nat
  prob : α
  deriving DecidableEq, Repr

def regionLayerMaxObjNum : Nat := 10

variable {α : Type} [Field α] [LinearOrder α]

def descending (first second : α) : Int :=
  let diff := first - second
  if diff < 0 then 1 else if 0 < diff then -1 else 0

def nmsComparator (probs : Probs α) (a b : SortableBox) : Int := descending (probs a.index b.class_) (probs b.index b.class_)

def nmsComparator0 (probs : Probs α) (a b : SortableBox) : Int := descending (probs a.index 0) (probs b.index 0)

namespace RegionLayer

variable (rl : RegionLayer α)

/-- A layer without classes is handled as one class. -/
def columns : Nat := if rl.classes = 0 then 1 else rl.classes

def comparator (probs : Probs α) : SortableBox → SortableBox → Int :=
  if 0 < rl.classes then nmsComparator probs else nmsComparator0 probs

variable (boxIou : Box α → Box α → α) (boxes : Nat → Box α)

/-- The inner loop: the boxes that come later and overlap `a` are cleared. -/
def clearLoop (k : Nat) (a : Box α) : List SortableBox → Probs α → Probs α
  | [], probs => probs
  | b :: rest, probs =>
    clearLoop k a rest (if rl.nmsValue < boxIou a (boxes b.index) then
      Function.update probs b.index (Function.update (probs b.index) k 0) else probs)

def nmsLoop (k : Nat) : List SortableBox → Probs α → Probs α
  | [], probs => probs
  | s :: rest, probs =>
    if probs s.index k = 0 then nmsLoop k rest probs
    else nmsLoop k rest (rl.clearLoop boxIou boxes k (boxes s.index) rest probs)

variable (qsort : (SortableBox → SortableBox → Int) → List SortableBox → List SortableBox)

/-- One class: the array of the class before is sorted again. -/
def nmsClass (state : List SortableBox × Probs α) (k : Nat) : List SortableBox × Probs α :=
  let s := qsort (rl.comparator state.2) (state.1.map fun box => { box with class_ := k })
  (s, rl.nmsLoop boxIou boxes k s state.2)

def doNmsSort (probs : Probs α) : Probs α :=
  let s := (List.range rl.boxesNumber).map fun i => (⟨i, 0⟩ : SortableBox)
  ((List.range rl.columns).foldl (rl.nmsClass boxIou boxes qsort) (s, probs)).2

end RegionLayer

def maxIndexLoop (a : Nat → α) : Nat → Nat → Nat → α → Nat
  | 0, _, maxI, _ => maxI
  | remaining + 1, i, maxI, max =>
    if max < a i then maxIndexLoop a remaining (i + 1) i (a i) else maxIndexLoop a remaining (i + 1) maxI max

def maxIndex (a : Nat → α) (n : Nat) : Nat := maxIndexLoop a (n - 1) 1 0 (a 0)

namespace RegionLayer

variable (rl : RegionLayer α) (toUint32 : α → UInt32) (boxes : Nat → Box α) (probs : Probs α)

/-- What is reported of box `i`. `toUint32` is what the machine makes of a number that becomes an `uint32_t`. -/
def object (i : Nat) : Obj α :=
  let class_ := maxIndex (probs i) rl.classes
  let b := boxes i
  let x := toUint32 (b.x * rl.imageWidth - b.w * rl.imageWidth / 2)
  let y := toUint32 (b.y * rl.imageHeight - b.h * rl.imageHeight / 2)
  let x2 := toUint32 (b.x * rl.imageWidth + b.w * rl.imageWidth / 2)
  let y2 := toUint32 (b.y * rl.imageHeight + b.h * rl.imageHeight / 2)
  ⟨x, y, x2 - x, y2 - y, class_, probs i class_⟩

/-- The loop from box `i` on, which stops when the table is full. -/
def outputLoop : Nat → Nat → Nat → List (Obj α)
  | 0, _, _ => []
  | remaining + 1, i, objNumber =>
    if rl.threshold < probs i (maxIndex (probs i) rl.classes) then
      if regionLayerMaxObjNum ≤ objNumber + 1 then [rl.object toUint32 boxes probs i]
      else rl.object toUint32 boxes probs i :: outputLoop remaining (i + 1) (objNumber + 1)
    else outputLoop remaining (i + 1) objNumber

def regionLayerOutput : List (Obj α) := rl.outputLoop toUint32 boxes probs rl.boxesNumber 0 0

end RegionLayer

variable {rl : RegionLayer α} {boxIou : Box α → Box α → α} {boxes : Nat → Box α} {probs : Probs α}

def overlaps (rl : RegionLayer α) (boxIou : Box α → Box α → α) (boxes : Nat → Box α) (i j : Nat) : Bool :=
  decide (rl.nmsValue < boxIou (boxes i) (boxes j))

def cleared (before : Nat → α) (i : Nat) : Bool := decide (before i = 0)

/-- A column after the greedy choice from its boxes in some order. -/
structure Settled (conflict : Nat → Nat → Bool) (order : List Nat) (before after : Nat → α) : Prop where
  taken : ∀ i ∈ greedy conflict (cleared before) order, after i = before i
  left : ∀ i ∈ order, i ∉ greedy conflict (cleared before) order → after i = 0
  apart : ∀ i, i ∉ order → after i = before i

private theorem clearLoop_other {k c : Nat} (other : c ≠ k) (a : Box α) (s : List SortableBox) (i : Nat) :
    rl.clearLoop boxIou boxes k a s probs i c = probs i c := by
  induction s generalizing probs with
  | nil => rfl
  | cons b rest ih =>
    rw [RegionLayer.clearLoop, ih]
    split
    · by_cases same : i = b.index
      · rw [same, Function.update_self, Function.update_of_ne other]
      · rw [Function.update_of_ne same]
    · rfl

private theorem clearLoop_apart {k i : Nat} (a : Box α) {s : List SortableBox} (apart : i ∉ s.map SortableBox.index) :
    rl.clearLoop boxIou boxes k a s probs i k = probs i k := by
  induction s generalizing probs with
  | nil => rfl
  | cons b rest ih =>
    rw [List.map_cons, List.mem_cons, not_or] at apart
    rw [RegionLayer.clearLoop, ih apart.2]
    split
    · rw [Function.update_of_ne apart.1]
    · rfl

private theorem clearLoop_zero {k i : Nat} (a : Box α) (s : List SortableBox) (zero : probs i k = 0) :
    rl.clearLoop boxIou boxes k a s probs i k = 0 := by
  induction s generalizing probs with
  | nil => exact zero
  | cons b rest ih =>
    rw [RegionLayer.clearLoop]
    apply ih
    split
    · by_cases same : i = b.index
      · rw [same, Function.update_self, Function.update_self]
      · rw [Function.update_of_ne same, zero]
    · exact zero

private theorem clearLoop_member {k i j : Nat} {s : List SortableBox} (member : i ∈ s.map SortableBox.index) :
    rl.clearLoop boxIou boxes k (boxes j) s probs i k = if overlaps rl boxIou boxes j i then 0 else probs i k := by
  induction s generalizing probs with
  | nil => exact absurd member List.not_mem_nil
  | cons b rest ih =>
    rw [RegionLayer.clearLoop]
    by_cases same : i = b.index
    · subst same
      by_cases large : rl.nmsValue < boxIou (boxes j) (boxes b.index)
      · rw [if_pos large, overlaps, if_pos (decide_eq_true large)]
        exact clearLoop_zero _ _ (by rw [Function.update_self, Function.update_self])
      · rw [if_neg large, overlaps, decide_eq_false large]
        by_cases again : b.index ∈ rest.map SortableBox.index
        · rw [ih again, overlaps, decide_eq_false large]
        · exact clearLoop_apart _ again
    · have later : i ∈ rest.map SortableBox.index := (List.mem_cons.mp member).resolve_left same
      rw [ih later]
      split
      · rfl
      · split
        · rw [Function.update_of_ne same]
        · rfl

private theorem nmsLoop_other {k c : Nat} (other : c ≠ k) (s : List SortableBox) (i : Nat) :
    rl.nmsLoop boxIou boxes k s probs i c = probs i c := by
  induction s generalizing probs with
  | nil => rfl
  | cons a rest ih =>
    rw [RegionLayer.nmsLoop]
    split
    · exact ih
    · rw [ih, clearLoop_other other]

/-- The loop makes the greedy choice in the order of the array. -/
theorem nmsLoop_settled (k : Nat) {s : List SortableBox} (distinct : (s.map SortableBox.index).Nodup) :
    Settled (overlaps rl boxIou boxes) (s.map SortableBox.index) (fun i => probs i k)
      fun i => rl.nmsLoop boxIou boxes k s probs i k := by
  induction s generalizing probs with
  | nil => exact ⟨fun _ _ => rfl, fun _ member => absurd member List.not_mem_nil, fun _ _ => rfl⟩
  | cons a rest ih =>
    rw [List.map_cons, List.nodup_cons] at distinct
    by_cases zero : probs a.index k = 0
    · have run : rl.nmsLoop boxIou boxes k (a :: rest) probs = rl.nmsLoop boxIou boxes k rest probs := if_pos zero
      have settled := @ih probs distinct.2
      rw [run]
      have barred : cleared (fun i => probs i k) a.index = true := decide_eq_true zero
      have choice := @greedy_barred _ (overlaps rl boxIou boxes) _ _ (rest.map SortableBox.index) barred
      refine ⟨fun i member => ?_, fun i member out => ?_, fun i out => ?_⟩
      · rw [List.map_cons, choice] at member
        exact settled.taken i member
      · rw [List.map_cons, choice] at out
        rcases List.mem_cons.mp member with rfl | later
        · exact (settled.apart _ distinct.1).trans zero
        · exact settled.left i later out
      · exact settled.apart i fun later => out (List.mem_cons_of_mem _ later)
    · have run : rl.nmsLoop boxIou boxes k (a :: rest) probs =
          rl.nmsLoop boxIou boxes k rest (rl.clearLoop boxIou boxes k (boxes a.index) rest probs) := if_neg zero
      have settled := @ih (rl.clearLoop boxIou boxes k (boxes a.index) rest probs) distinct.2
      -- On the rest, what the inner loop cleared is what `a` bars.
      have same : greedy (overlaps rl boxIou boxes) (cleared fun i => rl.clearLoop boxIou boxes k (boxes a.index) rest probs i k)
          (rest.map SortableBox.index) =
          greedy (overlaps rl boxIou boxes) (bar (overlaps rl boxIou boxes) a.index (cleared fun i => probs i k))
            (rest.map SortableBox.index) := by
        apply greedy_congr
        intro i member
        rw [cleared, clearLoop_member member, bar]
        cases clash : overlaps rl boxIou boxes a.index i with
        | true => simp
        | false => simp [cleared]
      have free : cleared (fun i => probs i k) a.index = false := decide_eq_false zero
      have choice := @greedy_taken _ (overlaps rl boxIou boxes) _ _ (rest.map SortableBox.index) free
      rw [run]
      refine ⟨fun i member => ?_, fun i member out => ?_, fun i out => ?_⟩
      · rw [List.map_cons, choice] at member
        rcases List.mem_cons.mp member with rfl | later
        · exact (settled.apart _ distinct.1).trans (clearLoop_apart _ distinct.1)
        · have free := (Bool.or_eq_false_iff.mp (greedy_free _ _ i later)).2
          refine (settled.taken i (same ▸ later)).trans ?_
          rw [clearLoop_member ((greedy_sublist _ _).subset later), free, if_neg Bool.false_ne_true]
      · rw [List.map_cons, choice, List.mem_cons, not_or] at out
        exact settled.left i ((List.mem_cons.mp member).resolve_left out.1) (same ▸ out.2)
      · rw [List.map_cons, List.mem_cons, not_or] at out
        exact (settled.apart i out.2).trans (clearLoop_apart _ out.2)

/-- What the suppression makes of the column of one class. -/
structure Suppressed (rl : RegionLayer α) (boxIou : Box α → Box α → α) (boxes : Nat → Box α)
    (before after : Nat → α) : Prop where
  kept : ∀ i, after i = before i ∨ after i = 0
  apart : ∀ i, i < rl.boxesNumber → ∀ j, j < rl.boxesNumber → i ≠ j → after i ≠ 0 → after j ≠ 0 →
    boxIou (boxes i) (boxes j) ≤ rl.nmsValue
  dominated : ∀ i, i < rl.boxesNumber → before i ≠ 0 → after i = 0 →
    ∃ j, j < rl.boxesNumber ∧ rl.nmsValue < boxIou (boxes j) (boxes i) ∧ after j ≠ 0 ∧ before i ≤ after j

private theorem Settled.suppressed {order : List Nat} {before after : Nat → α} (settled : Settled (overlaps rl boxIou boxes) order before after)
    (all : order.Perm (List.range rl.boxesNumber)) (sorted : order.Pairwise fun i j => before j ≤ before i)
    (symmetric : ∀ a b, boxIou a b = boxIou b a) : Suppressed rl boxIou boxes before after := by
  have member : ∀ i, i ∈ order ↔ i < rl.boxesNumber := fun i => all.mem_iff.trans List.mem_range
  have survivor : ∀ i, i < rl.boxesNumber → after i ≠ 0 → i ∈ greedy (overlaps rl boxIou boxes) (cleared before) order := by
    intro i inside alive
    by_contra out
    exact alive (settled.left i ((member i).mpr inside) out)
  have either : Std.Symm fun i j => overlaps rl boxIou boxes i j = false := by
    constructor
    intro i j free
    rw [overlaps, symmetric]
    exact free
  refine ⟨fun i => ?_, fun i inside j within different aliveI aliveJ => ?_, fun i inside nonzero gone => ?_⟩
  · by_cases ordered : i ∈ order
    · by_cases taken : i ∈ greedy (overlaps rl boxIou boxes) (cleared before) order
      · exact Or.inl (settled.taken i taken)
      · exact Or.inr (settled.left i ordered taken)
    · exact Or.inl (settled.apart i ordered)
  · have free := (greedy_apart _ order).forall (survivor i inside aliveI) (survivor j within aliveJ) different
    exact not_lt.mp (of_decide_eq_false free)
  · have out : i ∉ greedy (overlaps rl boxIou boxes) (cleared before) order :=
      fun taken => nonzero ((settled.taken i taken).symm.trans gone)
    obtain ⟨j, taken, clash, larger⟩ :=
      (greedy_dominates (cleared before) sorted ((member i).mpr inside) (decide_eq_false nonzero)).resolve_left out
    have same := settled.taken j taken
    refine ⟨j, (member j).mp ((greedy_sublist _ _).subset taken), of_decide_eq_true clash, ?_, same ▸ larger⟩
    rw [same]
    exact of_decide_eq_false (greedy_free _ _ j taken)

section

omit [Field α]

private theorem maxIndexLoop_best {a : Nat → α} (remaining : Nat) {i maxI : Nat} (before : maxI < i) (best : ∀ c, c < i → a c ≤ a maxI) :
    maxIndexLoop a remaining i maxI (a maxI) < i + remaining ∧
      ∀ c, c < i + remaining → a c ≤ a (maxIndexLoop a remaining i maxI (a maxI)) := by
  induction remaining generalizing i maxI with
  | zero => exact ⟨before, best⟩
  | succ remaining ih =>
    have shift : i + (remaining + 1) = i + 1 + remaining := by omega
    rw [maxIndexLoop, shift]
    by_cases larger : a maxI < a i
    · rw [if_pos larger]
      refine ih (Nat.lt_succ_self i) fun c below => ?_
      rcases Nat.lt_succ_iff_lt_or_eq.mp below with earlier | rfl
      · exact (best c earlier).trans larger.le
      · exact le_rfl
    · rw [if_neg larger]
      refine ih (before.trans (Nat.lt_succ_self i)) fun c below => ?_
      rcases Nat.lt_succ_iff_lt_or_eq.mp below with earlier | rfl
      · exact best c earlier
      · exact not_lt.mp larger

/-- Also an array of no items has a best one, which is read. -/
theorem maxIndex_best (a : Nat → α) (n : Nat) :
    maxIndex a n < (if n = 0 then 1 else n) ∧ ∀ c, c < (if n = 0 then 1 else n) → a c ≤ a (maxIndex a n) := by
  have count : 1 + (n - 1) = if n = 0 then 1 else n := by split <;> omega
  have first : ∀ c, c < 1 → a c ≤ a 0 := by
    intro c below
    rw [Nat.lt_one_iff.mp below]
  rw [← count]
  exact maxIndexLoop_best (n - 1) Nat.one_pos first

end

/-- The objects are those of some boxes in their order, each above the threshold. -/
theorem outputLoop_reports (rl : RegionLayer α) (toUint32 : α → UInt32) (boxes : Nat → Box α) (probs : Probs α)
    (remaining i objNumber : Nat) :
    ∃ found : List Nat, rl.outputLoop toUint32 boxes probs remaining i objNumber = found.map (rl.object toUint32 boxes probs) ∧
      found.Sublist (List.range' i remaining) ∧ ∀ j ∈ found, rl.threshold < (rl.object toUint32 boxes probs j).prob := by
  induction remaining generalizing i objNumber with
  | zero => exact ⟨[], rfl, List.Sublist.refl _, fun j member => absurd member List.not_mem_nil⟩
  | succ remaining ih =>
    rw [RegionLayer.outputLoop, List.range'_succ]
    by_cases above : rl.threshold < probs i (maxIndex (probs i) rl.classes)
    · rw [if_pos above]
      have single : ∀ found : List Nat, (∀ j ∈ found, rl.threshold < (rl.object toUint32 boxes probs j).prob) →
          ∀ j ∈ i :: found, rl.threshold < (rl.object toUint32 boxes probs j).prob :=
        fun found rest => List.forall_mem_cons.mpr ⟨above, rest⟩
      split
      · exact ⟨[i], rfl, (List.nil_sublist _).cons_cons i, single [] fun j member => absurd member List.not_mem_nil⟩
      · obtain ⟨found, same, sublist, rest⟩ := ih (i + 1) (objNumber + 1)
        exact ⟨i :: found, congrArg (_ :: ·) same, sublist.cons_cons i, single found rest⟩
    · rw [if_neg above]
      obtain ⟨found, same, sublist, rest⟩ := ih (i + 1) objNumber
      exact ⟨found, same, sublist.cons i, rest⟩

/-- No probability is raised or new, and every class is suppressed. -/
structure Pruned (rl : RegionLayer α) (boxIou : Box α → Box α → α) (boxes : Nat → Box α) (before after : Probs α) : Prop where
  kept : ∀ i c, after i c = before i c ∨ after i c = 0
  lower : ∀ i, i < rl.boxesNumber → ∀ c, c < rl.columns → after i c ≤ before i c
  column : ∀ c, c < rl.columns → Suppressed rl boxIou boxes (fun i => before i c) fun i => after i c

/-- The objects are those of different boxes. Each has the best class of its box, above the threshold, and those of one
class do not overlap. -/
structure Reported (rl : RegionLayer α) (boxIou : Box α → Box α → α) (toUint32 : α → UInt32) (boxes : Nat → Box α)
    (probs : Probs α) (found : List Nat) (objs : List (Obj α)) : Prop where
  objects : objs = found.map (rl.object toUint32 boxes probs)
  distinct : found.Nodup
  inside : ∀ i ∈ found, i < rl.boxesNumber
  above : ∀ obj ∈ objs, rl.threshold < obj.prob
  best : ∀ i ∈ found, let obj := rl.object toUint32 boxes probs i
    obj.classId < rl.columns ∧ obj.prob = probs i obj.classId ∧ ∀ c, c < rl.columns → probs i c ≤ obj.prob
  apart : ∀ i ∈ found, ∀ j ∈ found, i ≠ j →
    (rl.object toUint32 boxes probs i).classId = (rl.object toUint32 boxes probs j).classId →
    boxIou (boxes i) (boxes j) ≤ rl.nmsValue

private theorem regionLayerOutput_reported {after : Probs α} (threshold : 0 ≤ rl.threshold) (pruned : Pruned rl boxIou boxes probs after)
    (toUint32 : α → UInt32) :
    ∃ found, Reported rl boxIou toUint32 boxes after found (rl.regionLayerOutput toUint32 boxes after) := by
  obtain ⟨found, same, sublist, above⟩ := outputLoop_reports rl toUint32 boxes after rl.boxesNumber 0 0
  have inside : ∀ i ∈ found, i < rl.boxesNumber := by
    intro i member
    have := List.mem_range'_1.mp (sublist.subset member)
    omega
  have best := fun i => maxIndex_best (after i) rl.classes
  have alive : ∀ i ∈ found, after i (rl.object toUint32 boxes after i).classId ≠ 0 :=
    fun i member => (threshold.trans_lt (above i member)).ne'
  refine ⟨found, same, sublist.nodup List.nodup_range', inside, ?_, fun i _ => ⟨(best i).1, rfl, (best i).2⟩, ?_⟩
  · intro obj member
    rw [RegionLayer.regionLayerOutput, same] at member
    obtain ⟨i, chosen, rfl⟩ := List.mem_map.mp member
    exact above i chosen
  · intro i first j second different class_
    have column := pruned.column _ (best i).1
    refine column.apart i (inside i first) j (inside j second) different (alive i first) ?_
    have other := alive j second
    rw [← class_] at other
    exact other

variable [IsStrictOrderedRing α]

private theorem descending_le (first second : α) : descending first second ≤ 0 ↔ second ≤ first := by
  unfold descending
  dsimp only
  rcases lt_trichotomy first second with less | same | greater
  · rw [if_pos (sub_neg.mpr less)]
    exact ⟨fun wrong => absurd wrong (by decide), fun order => absurd less (not_lt.mpr order)⟩
  · rw [same, sub_self, if_neg (lt_irrefl _), if_neg (lt_irrefl _)]
    exact ⟨fun _ => le_rfl, fun _ => le_rfl⟩
  · rw [if_neg (not_lt.mpr (sub_nonneg.mpr greater.le)), if_pos (sub_pos.mpr greater)]
    exact ⟨fun _ => greater.le, fun _ => by decide⟩

theorem comparator_le {k : Nat} (column : k < rl.columns) {a b : SortableBox} (same : b.class_ = k) :
    rl.comparator probs a b ≤ 0 ↔ probs b.index k ≤ probs a.index k := by
  unfold RegionLayer.comparator
  split
  · rw [nmsComparator, descending_le, same]
  next none =>
    have zero : k = 0 := by
      rw [RegionLayer.columns, if_pos (by omega)] at column
      omega
    rw [nmsComparator0, descending_le, zero]

variable {qsort : (SortableBox → SortableBox → Int) → List SortableBox → List SortableBox}

theorem nmsClass_sorts (sorts : Sorts qsort) {state : List SortableBox × Probs α} {k : Nat} (column : k < rl.columns) :
    ((rl.nmsClass boxIou boxes qsort state k).1.map SortableBox.index).Perm (state.1.map SortableBox.index) ∧
      ((rl.nmsClass boxIou boxes qsort state k).1.map SortableBox.index).Pairwise fun i j => state.2 j k ≤ state.2 i k := by
  let items := state.1.map fun box => ({ box with class_ := k } : SortableBox)
  have classes : ∀ box ∈ items, box.class_ = k := by
    intro box member
    obtain ⟨_, _, rfl⟩ := List.mem_map.mp member
    rfl
  have compares : ∀ a, ∀ b ∈ items, rl.comparator state.2 a b ≤ 0 ↔ state.2 b.index k ≤ state.2 a.index k :=
    fun a b member => comparator_le column (classes b member)
  obtain ⟨same, sorted⟩ := sorts (rl.comparator state.2) items
    (fun a first b second => by
      rw [compares a b second, compares b a first]
      exact le_total _ _)
    (fun a _ b second c third => by
      rw [compares a b second, compares b c third, compares a c third]
      exact fun lower upper => upper.trans lower)
  have indices : items.map SortableBox.index = state.1.map SortableBox.index := by
    rw [List.map_map]
    rfl
  refine ⟨(same.map SortableBox.index).trans (List.Perm.of_eq indices), List.pairwise_map.mpr ?_⟩
  exact sorted.imp_of_mem fun {a b} _ second order => (compares a b (same.subset second)).mp order

/-- The state of the loop over the classes: the columns below `k` are suppressed, and the others as they were. -/
structure Through (rl : RegionLayer α) (boxIou : Box α → Box α → α) (boxes : Nat → Box α) (probs : Probs α) (k : Nat)
    (state : List SortableBox × Probs α) : Prop where
  order : (state.1.map SortableBox.index).Perm (List.range rl.boxesNumber)
  done : ∀ c, c < k → Suppressed rl boxIou boxes (fun i => probs i c) fun i => state.2 i c
  ahead : ∀ c, k ≤ c → ∀ i, state.2 i c = probs i c

private theorem Through.step (sorts : Sorts qsort) (symmetric : ∀ a b, boxIou a b = boxIou b a) {state : List SortableBox × Probs α}
    {k : Nat} (column : k < rl.columns) (through : Through rl boxIou boxes probs k state) :
    Through rl boxIou boxes probs (k + 1) (rl.nmsClass boxIou boxes qsort state k) := by
  obtain ⟨same, sorted⟩ := @nmsClass_sorts _ _ _ _ boxIou boxes _ _ sorts state _ column
  have all := same.trans through.order
  have other : ∀ c, c ≠ k → ∀ i, (rl.nmsClass boxIou boxes qsort state k).2 i c = state.2 i c :=
    fun c different i => nmsLoop_other different _ i
  refine ⟨all, fun c before => ?_, fun c after i => ?_⟩
  · by_cases now : c = k
    · subst now
      have distinct := all.nodup_iff.mpr List.nodup_range
      have settled := @nmsLoop_settled _ _ _ rl boxIou boxes state.2 c _ distinct
      have suppressed := settled.suppressed all sorted symmetric
      simp only [through.ahead c le_rfl] at suppressed
      exact suppressed
    · simpa only [other c now] using through.done c (by omega)
  · rw [other c (by omega), through.ahead c (by omega)]

private theorem doNmsSort_through (sorts : Sorts qsort) (symmetric : ∀ a b, boxIou a b = boxIou b a) (k : Nat) (columns : k ≤ rl.columns) :
    Through rl boxIou boxes probs k
      ((List.range k).foldl (rl.nmsClass boxIou boxes qsort) ((List.range rl.boxesNumber).map fun i => ⟨i, 0⟩, probs)) := by
  induction k with
  | zero =>
    refine ⟨?_, fun c below => absurd below (Nat.not_lt_zero c), fun _ _ _ => rfl⟩
    rw [List.range_zero, List.foldl_nil, List.map_map]
    exact List.Perm.of_eq (List.map_id _)
  | succ k ih =>
    rw [List.range_succ, List.foldl_append]
    exact (ih (by omega)).step sorts symmetric (by omega)

/-- The suppression in exact numbers, for any symmetric overlap and any sort: what it clears, what it keeps, and what is
reported then. -/
theorem nms_sound (sorts : Sorts qsort) (symmetric : ∀ a b, boxIou a b = boxIou b a) (rl : RegionLayer α)
    (threshold : 0 ≤ rl.threshold) (boxes : Nat → Box α) (probs : Probs α)
    (nonneg : ∀ i, i < rl.boxesNumber → ∀ c, c < rl.columns → 0 ≤ probs i c) (toUint32 : α → UInt32) :
    Pruned rl boxIou boxes probs (rl.doNmsSort boxIou boxes qsort probs) ∧
      ∃ found, Reported rl boxIou toUint32 boxes (rl.doNmsSort boxIou boxes qsort probs) found
        (rl.regionLayerOutput toUint32 boxes (rl.doNmsSort boxIou boxes qsort probs)) := by
  have through : Through rl boxIou boxes probs rl.columns _ := doNmsSort_through sorts symmetric rl.columns le_rfl
  have pruned : Pruned rl boxIou boxes probs (rl.doNmsSort boxIou boxes qsort probs) := by
    have kept : ∀ i c, rl.doNmsSort boxIou boxes qsort probs i c = probs i c ∨ rl.doNmsSort boxIou boxes qsort probs i c = 0 := by
      intro i c
      by_cases column : c < rl.columns
      · exact (through.done c column).kept i
      · exact Or.inl (through.ahead c (by omega) i)
    refine ⟨kept, fun i inside c column => ?_, through.done⟩
    rcases kept i c with same | zero
    · exact same.le
    · exact zero ▸ nonneg i inside c column
  exact ⟨pruned, regionLayerOutput_reported threshold pruned toUint32⟩

/-- A sort as the suppression takes one. -/
def mergeQsort (compar : SortableBox → SortableBox → Int) (items : List SortableBox) : List SortableBox :=
  (items.attach.mergeSort fun a b => decide (compar a.1 b.1 ≤ 0)).map Subtype.val

private theorem mergeQsort_sorts : Sorts mergeQsort := by
  intro compar items total trans
  refine ⟨?_, List.pairwise_map.mpr ?_⟩
  · have same := (List.mergeSort_perm items.attach fun a b => decide (compar a.1 b.1 ≤ 0)).map Subtype.val
    rwa [List.attach_map_subtype_val] at same
  · have sorted : (items.attach.mergeSort fun a b => decide (compar a.1 b.1 ≤ 0)).Pairwise
        fun a b => decide (compar a.1 b.1 ≤ 0) = true :=
      List.pairwise_mergeSort
        (fun a b c first second =>
          decide_eq_true (trans a.1 a.2 b.1 b.2 c.1 c.2 (of_decide_eq_true first) (of_decide_eq_true second)))
        (fun a b => by simpa using total a.1 a.2 b.1 b.2) items.attach
    exact sorted.imp of_decide_eq_true

def threeBoxes : Nat → Box Rat := fun i => if i = 2 then ⟨3, 3, 1, 1⟩ else ⟨1, 1, 1, 1⟩

def threeProbs : Probs Rat := fun i c => if c = 0 then (i + 1) / 4 else 0

def samePlace (a b : Box Rat) : Rat := if a = b then 1 else 0

def truncated (value : Rat) : UInt32 := UInt32.ofNat value.floor.toNat

def threeLayer : RegionLayer Rat := ⟨1 / 5, 1 / 2, 320, 240, 1, 3⟩

theorem nms_sound_three :
    Pruned threeLayer samePlace threeBoxes threeProbs (threeLayer.doNmsSort samePlace threeBoxes mergeQsort threeProbs) ∧
      ∃ found, Reported threeLayer samePlace truncated threeBoxes (threeLayer.doNmsSort samePlace threeBoxes mergeQsort threeProbs)
        found (threeLayer.regionLayerOutput truncated threeBoxes
          (threeLayer.doNmsSort samePlace threeBoxes mergeQsort threeProbs)) := by
  have symmetric : ∀ a b, samePlace a b = samePlace b a := fun a b => by simp only [samePlace, eq_comm]
  have nonneg : ∀ i, i < threeLayer.boxesNumber → ∀ c, c < threeLayer.columns → 0 ≤ threeProbs i c := by
    intro i _ c _
    unfold threeProbs
    split
    · positivity
    · exact le_rfl
  have threshold : 0 ≤ threeLayer.threshold := by
    unfold threeLayer
    positivity
  exact nms_sound mergeQsort_sorts symmetric threeLayer threshold threeBoxes threeProbs nonneg truncated

end ArduinoK210.Kpu.Nms
