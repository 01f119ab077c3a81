import Mathlib.Data.List.Basic

/-! Finite runs of a deterministic system whose steps may be restricted by a guard on the state they start from. One step lemma gives
every run its invariant. Then systems that answer each event: a relation between the states of two systems that every allowed step
keeps, with equal answers, makes all their answers equal over a whole run. -/

namespace Run

universe u v

variable {σ : Type u} {ι : Type v} (step : ι → σ → σ) (ok : ι → σ → Prop)

def run : List ι → σ → σ
  | [], state => state
  | event :: events, state => run events (step event state)

/-- Every event of the run meets the guard in the state it finds. -/
def Guarded : List ι → σ → Prop
  | [], _ => True
  | event :: events, state => ok event state ∧ Guarded events (step event state)

instance [decidable : ∀ event state, Decidable (ok event state)] :
    ∀ events state, Decidable (Guarded step ok events state)
  | [], _ => inferInstanceAs (Decidable True)
  | event :: events, state =>
    haveI := instDecidableGuarded events (step event state)
    inferInstanceAs (Decidable (_ ∧ _))

theorem run_append (first second : List ι) (state : σ) :
    run step (first ++ second) state = run step second (run step first state) := by
  induction first generalizing state with
  | nil => rfl
  | cons event events ih => exact ih (step event state)

variable {step ok}

theorem Guarded.invariant {invariant : σ → Prop}
    (preserves : ∀ event state, invariant state → ok event state → invariant (step event state))
    {events : List ι} {state : σ} (guarded : Guarded step ok events state) (initial : invariant state) :
    invariant (run step events state) := by
  induction events generalizing state with
  | nil => exact initial
  | cons event events ih => exact ih guarded.2 (preserves event state initial guarded.1)

theorem Guarded.front {front events : List ι} {state : σ} (sub : front <+: events) (guarded : Guarded step ok events state) :
    Guarded step ok front state := by
  induction events generalizing front state with
  | nil =>
    cases List.prefix_nil.mp sub
    trivial
  | cons event events ih =>
    cases front with
    | nil => trivial
    | cons head rest =>
      obtain ⟨same, later⟩ := List.cons_prefix_cons.mp sub
      cases same
      exact ⟨guarded.1, ih later guarded.2⟩

theorem Guarded.back {front back : List ι} {state : σ} (guarded : Guarded step ok (front ++ back) state) :
    Guarded step ok back (run step front state) := by
  induction front generalizing state with
  | nil => exact guarded
  | cons event front ih => exact ih guarded.2

theorem invariant {invariant : σ → Prop} (preserves : ∀ event state, invariant state → invariant (step event state))
    (events : List ι) (state : σ) (initial : invariant state) : invariant (run step events state) := by
  induction events generalizing state with
  | nil => exact initial
  | cons event events ih => exact ih (step event state) (preserves event state initial)

/-- Two guards that say the same wherever the invariant holds allow the same runs. -/
theorem guarded_congr {good : ι → σ → Prop} {invariant : σ → Prop}
    (same : ∀ event state, invariant state → (good event state ↔ ok event state))
    (preserves : ∀ event state, invariant state → ok event state → invariant (step event state))
    (events : List ι) (state : σ) (initial : invariant state) :
    Guarded step good events state ↔ Guarded step ok events state := by
  induction events generalizing state with
  | nil => exact Iff.rfl
  | cons event events ih =>
    refine ⟨fun ⟨first, rest⟩ => ?_, fun ⟨first, rest⟩ => ?_⟩
    · have allowed := (same event state initial).mp first
      exact ⟨allowed, (ih _ (preserves event state initial allowed)).mp rest⟩
    · exact ⟨(same event state initial).mpr first, (ih _ (preserves event state initial first)).mpr rest⟩

/-- Where the guard is exactly what a step needs to keep the invariant, the guarded
runs are those that keep it in every state they pass. -/
theorem guarded_iff {invariant : σ → Prop}
    (exact_guard : ∀ event state, invariant state → (invariant (step event state) ↔ ok event state))
    (events : List ι) (state : σ) (initial : invariant state) :
    (∀ front, front <+: events → invariant (run step front state)) ↔ Guarded step ok events state := by
  induction events generalizing state with
  | nil =>
    refine ⟨fun _ => trivial, fun _ front sub => ?_⟩
    cases List.prefix_nil.mp sub
    exact initial
  | cons event events ih =>
    refine ⟨fun kept => ?_, fun guarded front sub => ?_⟩
    · have next : invariant (step event state) := kept [event] (List.prefix_append [event] events)
      refine ⟨(exact_guard event state initial).mp next, (ih _ next).mp fun front sub => ?_⟩
      exact kept (event :: front) (List.cons_prefix_cons.mpr ⟨rfl, sub⟩)
    · cases front with
      | nil => exact initial
      | cons head rest =>
        obtain ⟨same, later⟩ := List.cons_prefix_cons.mp sub
        cases same
        have next := (exact_guard _ state initial).mpr guarded.1
        exact (ih _ next).mpr guarded.2 rest later

variable {τ : Type v}

/-- A part of the state that the steps change on its own runs on its own. -/
theorem run_project {step : ι → σ → σ} {inner : ι → τ → τ} (part : σ → τ)
    (commutes : ∀ event state, part (step event state) = inner event (part state)) (events : List ι) (state : σ) :
    part (run step events state) = run inner events (part state) := by
  induction events generalizing state with
  | nil => rfl
  | cons event events ih =>
    rw [run, ih, commutes]
    rfl

theorem guarded_project {step : ι → σ → σ} {inner : ι → τ → τ} {ok : ι → τ → Prop} (part : σ → τ)
    (commutes : ∀ event state, part (step event state) = inner event (part state)) (events : List ι) (state : σ) :
    Guarded step (fun event state => ok event (part state)) events state ↔ Guarded inner ok events (part state) := by
  induction events generalizing state with
  | nil => exact Iff.rfl
  | cons event events ih =>
    rw [Guarded, Guarded, ih, commutes]

end Run

namespace Simulation

universe u v w x

variable {ι : Type u} {ο : Type v} {σ : Type w} {τ : Type x}

def answers (step : ι → σ → ο × σ) : List ι → σ → List ο
  | [], _ => []
  | event :: events, state => (step event state).1 :: answers step events (step event state).2

def after (step : ι → σ → ο × σ) : List ι → σ → σ :=
  Run.run fun event state => (step event state).2

/-- Every event of the run is allowed in the state in which it comes. -/
def Allowed (step : ι → τ → ο × τ) (ok : ι → τ → Prop) : List ι → τ → Prop :=
  Run.Guarded (fun event state => (step event state).2) ok

instance (step : ι → τ → ο × τ) (ok : ι → τ → Prop) [decidable : ∀ event state, Decidable (ok event state)] (events : List ι)
    (state : τ) : Decidable (Allowed step ok events state) :=
  inferInstanceAs (Decidable (Run.Guarded _ _ _ _))

/-- What two systems do with one event: equal answers, and states that are related again. -/
def Agree (related : σ → τ → Prop) (concrete : ο × σ) (abstract : ο × τ) : Prop :=
  concrete.1 = abstract.1 ∧ related concrete.2 abstract.2

/-- The second system allows an event or not, and the first one follows it through what is allowed. -/
def Follows (step : ι → σ → ο × σ) (step' : ι → τ → ο × τ) (ok : ι → τ → Prop) (related : σ → τ → Prop) : Prop :=
  ∀ event state state', related state state' → ok event state' → Agree related (step event state) (step' event state')

variable {step : ι → σ → ο × σ} {step' : ι → τ → ο × τ} {ok : ι → τ → Prop} {related : σ → τ → Prop}

theorem answers_eq (follows : Follows step step' ok related) {events : List ι} {state : σ} {state' : τ}
    (start : related state state') (allowed : Allowed step' ok events state') :
    answers step events state = answers step' events state' := by
  induction events generalizing state state' with
  | nil => rfl
  | cons event events ih =>
    obtain ⟨same, next⟩ := follows event state state' start allowed.1
    exact congrArg₂ List.cons same (ih next allowed.2)

theorem Allowed.keeps {invariant : τ → Prop}
    (preserves : ∀ event state, invariant state → ok event state → invariant (step' event state).2) {events : List ι} {state : τ}
    (allowed : Allowed step' ok events state) (initial : invariant state) : invariant (after step' events state) :=
  Run.Guarded.invariant preserves allowed initial

theorem after_append (step : ι → σ → ο × σ) (first second : List ι) (state : σ) :
    after step (first ++ second) state = after step second (after step first state) :=
  Run.run_append _ first second state

theorem after_invariant {step : ι → σ → ο × σ} (invariant : σ → Prop)
    (preserves : ∀ event state, invariant state → invariant (step event state).2) (events : List ι) {state : σ}
    (initial : invariant state) : invariant (after step events state) :=
  Run.invariant preserves events state initial

end Simulation
