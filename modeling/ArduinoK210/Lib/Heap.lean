import Mathlib.Logic.Function.Basic

/-! A heap whose blocks remember how they were allocated, and slots that own them. A
release that does not fit its block, and a use of a block that is gone, leave a fault
behind, so that a run without faults has made neither. -/

namespace Heap

universe u v

structure Store (κ : Type u) where
  next : Nat
  live : Nat → Option κ
  faulty : Bool

variable {κ : Type u} {ι : Type v}

namespace Store

def empty : Store κ := ⟨0, fun _ => none, false⟩

/-- The allocation of the block `next`. -/
def grant (kind : κ) (heap : Store κ) : Store κ :=
  { heap with next := heap.next + 1, live := Function.update heap.live heap.next (some kind) }

theorem grant_live (kind : κ) (heap : Store κ) : (heap.grant kind).live = Function.update heap.live heap.next (some kind) := rfl

def release [DecidableEq κ] (kind : κ) (block : Nat) (heap : Store κ) : Store κ :=
  { heap with
    live := Function.update heap.live block none
    faulty := heap.faulty || decide (heap.live block ≠ some kind) }

def use (block : Nat) (heap : Store κ) : Store κ := { heap with faulty := heap.faulty || (heap.live block).isNone }

def fault (heap : Store κ) : Store κ := { heap with faulty := true }

end Store

/-- Nothing went wrong, every slot owns a block of its kind, no two slots own the same
one, and every block is owned. -/
structure Tidy (heap : Store κ) (slots : ι → Option (Nat × κ)) : Prop where
  calm : heap.faulty = false
  held : ∀ i block kind, slots i = some (block, kind) → heap.live block = some kind
  alone : ∀ i j block one other, slots i = some (block, one) → slots j = some (block, other) → i = j
  owned : ∀ block kind, heap.live block = some kind → ∃ i, slots i = some (block, kind)
  bounded : ∀ block, heap.next ≤ block → heap.live block = none

variable {heap : Store κ} {slots : ι → Option (Nat × κ)} {i : ι} {kind : κ} {block : Nat}

theorem Tidy.empty : Tidy (Store.empty : Store κ) (fun _ : ι => none) := by
  refine ⟨rfl, ?_, ?_, ?_, fun _ _ => rfl⟩
  · intro i block kind impossible
    cases impossible
  · intro i j block one other impossible
    cases impossible
  · intro block kind impossible
    cases impossible

theorem Tidy.fresh (tidy : Tidy heap slots) {j : ι} (held : slots j = some (block, kind)) : block ≠ heap.next := by
  intro same
  have dead := tidy.bounded heap.next (Nat.le_refl _)
  rw [← same, tidy.held j block kind held] at dead
  cases dead

theorem Tidy.carry (tidy : Tidy heap slots) {other : Store κ} (calm : other.faulty = false)
    (same : other.live = heap.live) (later : heap.next ≤ other.next) : Tidy other slots := by
  refine ⟨calm, ?_, tidy.alone, ?_, ?_⟩
  · intro i block kind held
    rw [same]
    exact tidy.held i block kind held
  · intro block kind live
    rw [same] at live
    exact tidy.owned block kind live
  · intro block beyond
    rw [same]
    exact tidy.bounded block (Nat.le_trans later beyond)

theorem Store.use_live (live : heap.live block ≠ none) : heap.use block = heap := by
  cases found : heap.live block with
  | none => exact absurd found live
  | some kind => simp [Store.use, found]

theorem Store.use_calm (calm : (heap.use block).faulty = false) : heap.use block = heap := by
  apply Store.use_live
  intro dead
  simp [Store.use, dead] at calm

variable [DecidableEq ι]

theorem Tidy.grant (tidy : Tidy heap slots) (vacant : slots i = none) (kind : κ) :
    Tidy (heap.grant kind) (Function.update slots i (some (heap.next, kind))) := by
  have other : ∀ {j block kind'}, j ≠ i → Function.update slots i (some (heap.next, kind)) j = some (block, kind') →
      slots j = some (block, kind') := by
    intro j block kind' different held
    rwa [Function.update_of_ne different] at held
  refine ⟨tidy.calm, ?_, ?_, ?_, ?_⟩
  · intro j block kind' held
    by_cases same : j = i
    · subst same
      rw [Function.update_self] at held
      cases held
      exact Function.update_self _ _ _
    · have before := other same held
      exact (Function.update_of_ne (tidy.fresh before) _ _).trans (tidy.held j block kind' before)
  · intro j k block one two first second
    by_cases here : j = i
    · by_cases there : k = i
      · rw [here, there]
      · subst here
        rw [Function.update_self] at first
        cases first
        exact absurd rfl (tidy.fresh (other there second))
    · by_cases there : k = i
      · subst there
        rw [Function.update_self] at second
        cases second
        exact absurd rfl (tidy.fresh (other here first))
      · exact tidy.alone j k block one two (other here first) (other there second)
  · intro block kind' live
    by_cases new : block = heap.next
    · rw [new, Store.grant_live, Function.update_self] at live
      exact ⟨i, by rw [new, Function.update_self, Option.some.inj live]⟩
    · have before : heap.live block = some kind' := (Function.update_of_ne new _ _).symm.trans live
      obtain ⟨j, held⟩ := tidy.owned block kind' before
      have different : j ≠ i := by
        intro same
        rw [same, vacant] at held
        cases held
      exact ⟨j, (Function.update_of_ne different _ _).trans held⟩
  · intro block beyond
    have past : heap.next + 1 ≤ block := beyond
    exact (Function.update_of_ne (by omega) _ _).trans (tidy.bounded block (by omega))

variable [DecidableEq κ]

omit [DecidableEq ι] in
theorem release_faulty (heap : Store κ) (kind : κ) (block : Nat) :
    (heap.release kind block).faulty = false ↔ heap.faulty = false ∧ heap.live block = some kind := by
  simp [Store.release]

theorem Tidy.release (tidy : Tidy heap slots) (held : slots i = some (block, kind)) :
    Tidy (heap.release kind block) (Function.update slots i none) := by
  have other : ∀ {j one}, Function.update slots i none j = some one → j ≠ i ∧ slots j = some one := by
    intro j one owned
    by_cases same : j = i
    · subst same
      rw [Function.update_self] at owned
      cases owned
    · exact ⟨same, by rwa [Function.update_of_ne same] at owned⟩
  refine ⟨(release_faulty heap kind block).mpr ⟨tidy.calm, tidy.held i block kind held⟩, ?_, ?_, ?_, ?_⟩
  · intro j one kind' owned
    obtain ⟨different, before⟩ := other owned
    have apart : one ≠ block := by
      intro same
      subst same
      exact different (tidy.alone j i one kind' kind before held)
    exact (Function.update_of_ne apart _ _).trans (tidy.held j one kind' before)
  · intro j k one kind' kind'' first second
    exact tidy.alone j k one kind' kind'' (other first).2 (other second).2
  · intro one kind' live
    by_cases same : one = block
    · subst same
      cases (Function.update_self _ _ _).symm.trans live
    · have before : heap.live one = some kind' := (Function.update_of_ne same _ _).symm.trans live
      obtain ⟨j, owned⟩ := tidy.owned one kind' before
      have different : j ≠ i := by
        intro equal
        rw [equal, held] at owned
        cases owned
        exact same rfl
      exact ⟨j, (Function.update_of_ne different _ _).trans owned⟩
  · intro one beyond
    by_cases same : one = block
    · subst same
      exact Function.update_self _ _ _
    · exact (Function.update_of_ne same _ _).trans (tidy.bounded one beyond)

omit [DecidableEq κ] in
theorem Tidy.move (tidy : Tidy heap slots) {j : ι} (held : slots i = some (block, kind)) (vacant : slots j = none) :
    Tidy heap (Function.update (Function.update slots i none) j (some (block, kind))) := by
  have apart : i ≠ j := by
    intro same
    rw [same, vacant] at held
    cases held
  have before : ∀ {k one other}, Function.update (Function.update slots i none) j (some (block, kind)) k = some (one, other) →
      (k = j ∧ one = block ∧ other = kind) ∨ (k ≠ j ∧ k ≠ i ∧ slots k = some (one, other)) := by
    intro k one other owned
    by_cases here : k = j
    · subst here
      rw [Function.update_self] at owned
      cases owned
      exact .inl ⟨rfl, rfl, rfl⟩
    · rw [Function.update_of_ne here] at owned
      by_cases there : k = i
      · subst there
        rw [Function.update_self] at owned
        cases owned
      · rw [Function.update_of_ne there] at owned
        exact .inr ⟨here, there, owned⟩
  refine ⟨tidy.calm, ?_, ?_, ?_, tidy.bounded⟩
  · intro k one other owned
    rcases before owned with ⟨-, rfl, rfl⟩ | ⟨-, -, owned⟩
    · exact tidy.held i _ _ held
    · exact tidy.held k one other owned
  · intro k l one other another first second
    rcases before first with ⟨atK, blockK, -⟩ | ⟨-, outK, beforeK⟩
    · rcases before second with ⟨atL, -, -⟩ | ⟨-, outL, beforeL⟩
      · exact atK.trans atL.symm
      · rw [blockK] at beforeL
        exact absurd (tidy.alone l i _ _ _ beforeL held) outL
    · rcases before second with ⟨-, blockL, -⟩ | ⟨-, -, beforeL⟩
      · rw [blockL] at beforeK
        exact absurd (tidy.alone k i _ _ _ beforeK held) outK
      · exact tidy.alone k l one other another beforeK beforeL
  · intro one other live
    obtain ⟨k, owned⟩ := tidy.owned one other live
    by_cases there : k = i
    · subst there
      rw [held] at owned
      cases owned
      exact ⟨j, Function.update_self _ _ _⟩
    · refine ⟨k, ?_⟩
      have away : k ≠ j := by
        intro same
        rw [same, vacant] at owned
        cases owned
      rw [Function.update_of_ne away, Function.update_of_ne there]
      exact owned

theorem transient_live (dead : heap.live heap.next = none) :
    ((heap.grant kind).release kind heap.next).live = heap.live := by
  funext block
  by_cases same : block = heap.next
  · subst same
    exact (Function.update_self _ _ _).trans dead.symm
  · exact (Function.update_of_ne same _ _).trans (Function.update_of_ne same _ _)

omit [DecidableEq ι] in
theorem Tidy.transient (tidy : Tidy heap slots) (kind : κ) : Tidy ((heap.grant kind).release kind heap.next) slots := by
  apply tidy.carry
  · exact (release_faulty _ _ _).mpr ⟨tidy.calm, Function.update_self _ _ _⟩
  · exact transient_live (tidy.bounded _ (Nat.le_refl _))
  · exact Nat.le_succ _

end Heap
