import Mathlib.Init

/-! Stateful computations that may fail to come back. A computation that has run
out of steps leaves the state it has reached, so that what it did so far can still
be stated. -/

def Comp (σ α : Type) : Type := σ → Option α × σ

namespace Comp

variable {σ α β : Type}

def run (computation : Comp σ α) (state : σ) : Option α × σ := computation state

instance : Monad (Comp σ) where
  pure value := fun state => (some value, state)
  bind first next := fun state =>
    match first state with
    | (some value, middle) => next value middle
    | (none, middle) => (none, middle)

def act (step : σ → α × σ) : Comp σ α := fun state => (some (step state).1, (step state).2)

def stuck : Comp σ α := fun state => (none, state)

@[simp] theorem run_act (step : σ → α × σ) (state : σ) : (act step).run state = (some (step state).1, (step state).2) :=
  rfl

theorem run_bind_some {first : Comp σ α} {next : α → Comp σ β} {state middle : σ} {value : α}
    (returned : first.run state = (some value, middle)) : (first >>= next).run state = (next value).run middle := by
  have unfolded : (first >>= next).run state = match first.run state with
    | (some value, middle) => (next value).run middle
    | (none, middle) => (none, middle) := rfl
  rw [unfolded, returned]

theorem run_bind_none {first : Comp σ α} {next : α → Comp σ β} {state middle : σ}
    (lost : first.run state = (none, middle)) : (first >>= next).run state = (none, middle) := by
  have unfolded : (first >>= next).run state = match first.run state with
    | (some value, middle) => (next value).run middle
    | (none, middle) => (none, middle) := rfl
  rw [unfolded, lost]

@[simp] theorem run_act_bind (step : σ → α × σ) (next : α → Comp σ β) (state : σ) :
    (act step >>= next).run state = (next (step state).1).run (step state).2 := rfl

/-- Whatever the first one comes back with, the second one does too. -/
structure Extends (less more : Comp σ α) : Prop where
  keeps : ∀ {state value after}, less.run state = (some value, after) → more.run state = (some value, after)

theorem Extends.bind {less more : Comp σ α} {short long : α → Comp σ β} (first : Extends less more)
    (next : ∀ value, Extends (short value) (long value)) : Extends (less >>= short) (more >>= long) := by
  refine ⟨fun {state value after} returned => ?_⟩
  cases outcome : less.run state with
  | mk answer middle =>
    cases answer with
    | none =>
      rw [run_bind_none outcome] at returned
      cases returned
    | some answer =>
      rw [run_bind_some outcome] at returned
      rw [run_bind_some (first.keeps outcome)]
      exact (next answer).keeps returned

/-- A program with a bound on its steps: a larger bound keeps what it has come back with. -/
structure Steady (program : Nat → Comp σ α) : Prop where
  grows : ∀ {less more : Nat}, less ≤ more → Extends (program less) (program more)

theorem Steady.const (computation : Comp σ α) : Steady fun _ => computation := ⟨fun _ => ⟨id⟩⟩

theorem Steady.bind {program : Nat → Comp σ α} {rest : Nat → α → Comp σ β} (first : Steady program)
    (next : ∀ value, Steady fun bound => rest bound value) : Steady fun bound => program bound >>= rest bound :=
  ⟨fun order => (first.grows order).bind fun value => (next value).grows order⟩

theorem Steady.ite {yes no : Nat → Comp σ α} {condition : Prop} [Decidable condition] (left : Steady yes)
    (right : Steady no) : Steady fun bound => if condition then yes bound else no bound := by
  by_cases holds : condition
  · simpa only [if_pos holds] using left
  · simpa only [if_neg holds] using right

/-- The program comes back, with some bound and so with every larger one. -/
def Returns (program : Nat → Comp σ α) (state : σ) (value : α) (after : σ) : Prop :=
  ∃ bound, (program bound).run state = (some value, after)

theorem Returns.unique {program : Nat → Comp σ α} {state after other : σ} {value result : α}
    (one : Returns program state value after) (steady : Steady program) (two : Returns program state result other) :
    value = result ∧ after = other := by
  obtain ⟨first, early⟩ := one
  obtain ⟨second, late⟩ := two
  have left := (steady.grows (Nat.le_max_left first second)).keeps early
  have right := (steady.grows (Nat.le_max_right first second)).keeps late
  have same := left.symm.trans right
  exact ⟨Option.some.inj (congrArg Prod.fst same), congrArg Prod.snd same⟩

/-- From every state the program comes back. -/
structure Converges (program : Nat → Comp σ α) : Prop where
  steady : Steady program
  returns : ∀ state, ∃ value after, Returns program state value after

theorem Converges.act (step : σ → α × σ) : Converges fun _ => Comp.act step :=
  ⟨.const _, fun state => ⟨_, _, 0, run_act step state⟩⟩

theorem Converges.pure (value : α) : Converges fun _ => (Pure.pure value : Comp σ α) :=
  ⟨.const _, fun state => ⟨value, state, 0, rfl⟩⟩

theorem Converges.bind {program : Nat → Comp σ α} {rest : Nat → α → Comp σ β} (first : Converges program)
    (next : ∀ value, Converges fun bound => rest bound value) : Converges fun bound => program bound >>= rest bound := by
  refine ⟨first.steady.bind fun value => (next value).steady, fun state => ?_⟩
  obtain ⟨value, middle, few, early⟩ := first.returns state
  obtain ⟨result, after, many, late⟩ := (next value).returns middle
  refine ⟨result, after, max few many, ?_⟩
  rw [run_bind_some ((first.steady.grows (Nat.le_max_left few many)).keeps early)]
  exact ((next value).steady.grows (Nat.le_max_right few many)).keeps late

theorem Converges.ite {yes no : Nat → Comp σ α} {condition : Prop} [Decidable condition] (left : Converges yes)
    (right : Converges no) : Converges fun bound => if condition then yes bound else no bound := by
  by_cases holds : condition
  · simpa only [if_pos holds] using left
  · simpa only [if_neg holds] using right

end Comp
