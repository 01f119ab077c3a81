import ArduinoK210.Lib.Run

/-! Processes that take turns on a shared state. A process has an assertion about the state it finds; a turn keeps the
assertions of all when it keeps its own and those of the others. Where only one process is active at a time, the
others need no care. -/

namespace Interleave

universe u v w

variable {σ : Type u} {ρ : Type v} {ω : Type w}

structure World (σ : Type u) (ρ : Type v) where
  shared : σ
  processes : List ρ

/-- A process starts, or the one at an index moves. -/
inductive Turn (ρ : Type v) (ω : Type w) where
  | start (process : ρ)
  | act (index : Nat) (outcome : ω)

section
variable (move : ω → σ → ρ → σ × ρ)

def step : Turn ρ ω → World σ ρ → World σ ρ
  | .start process, world => { world with processes := world.processes ++ [process] }
  | .act index outcome, world =>
      match world.processes[index]? with
      | none => world
      | some process =>
          let (shared, process) := move outcome world.shared process
          ⟨shared, world.processes.set index process⟩

/-- The processes that may start. -/
def Starts (allowed : ρ → Prop) : Turn ρ ω → World σ ρ → Prop
  | .start process, _ => allowed process
  | .act _ _, _ => True

/-- A process starts only when all others are at rest. -/
def Serial (quiet : ρ → Prop) : Turn ρ ω → World σ ρ → Prop
  | .start _, world => ∀ process ∈ world.processes, quiet process
  | .act _ _, _ => True

end

variable {move : ω → σ → ρ → σ × ρ} {global : σ → Prop} {assertion : σ → ρ → Prop}

def Consistent (global : σ → Prop) (assertion : σ → ρ → Prop) (world : World σ ρ) : Prop :=
  global world.shared ∧ ∀ process ∈ world.processes, assertion world.shared process

theorem Consistent.step {allowed : ρ → Prop}
    (starts : ∀ shared process, global shared → allowed process → assertion shared process)
    (own : ∀ outcome shared process, global shared → assertion shared process →
      global (move outcome shared process).1 ∧ assertion (move outcome shared process).1 (move outcome shared process).2)
    (others : ∀ outcome shared process other, global shared → assertion shared process → assertion shared other →
      assertion (move outcome shared process).1 other)
    (turn : Turn ρ ω) (world : World σ ρ) (consistent : Consistent global assertion world) (ok : Starts allowed turn world) :
    Consistent global assertion (step move turn world) := by
  obtain ⟨kept, all⟩ := consistent
  cases turn with
  | start process =>
    refine ⟨kept, fun one member => ?_⟩
    rcases List.mem_append.mp member with old | new
    · exact all one old
    · cases List.mem_singleton.mp new
      exact starts world.shared process kept ok
  | act index outcome =>
    rw [Interleave.step]
    split
    · exact ⟨kept, all⟩
    · next process there =>
      have member := List.mem_of_getElem? there
      obtain ⟨after, self⟩ := own outcome world.shared process kept (all process member)
      refine ⟨after, fun one among => ?_⟩
      rcases List.mem_or_eq_of_mem_set among with old | rfl
      · exact others outcome world.shared process one kept (all process member) (all one old)
      · exact self

/-- At most one process is active, and the assertion is about that one. -/
structure Solo (quiet : ρ → Prop) (global : σ → Prop) (assertion : σ → ρ → Prop) (world : World σ ρ) : Prop where
  shared : global world.shared
  active : ∀ (index : Nat) (process : ρ), world.processes[index]? = some process → quiet process ∨ assertion world.shared process ∧
    ∀ (other : Nat) (idle : ρ), world.processes[other]? = some idle → other ≠ index → quiet idle

theorem concat_some {items : List ρ} {last item : ρ} {index : Nat} (there : (items ++ [last])[index]? = some item) :
    items[index]? = some item ∨ index = items.length ∧ item = last := by
  rw [List.getElem?_append] at there
  split at there
  · exact .inl there
  · next beyond =>
    rw [List.getElem?_singleton] at there
    split at there
    · next first => exact .inr ⟨by omega, (Option.some.inj there).symm⟩
    · cases there

theorem set_some {items : List ρ} {new item : ρ} {index place : Nat} (there : (items.set index new)[place]? = some item) :
    place = index ∧ item = new ∨ place ≠ index ∧ items[place]? = some item := by
  rw [List.getElem?_set] at there
  split at there
  · next same =>
    split at there
    · exact .inl ⟨same.symm, (Option.some.inj there).symm⟩
    · cases there
  · next apart => exact .inr ⟨Ne.symm apart, there⟩

/-- Where the others are at rest, a process has only its own turns to care for. -/
theorem Solo.step {quiet allowed : ρ → Prop}
    (rests : ∀ outcome shared process, quiet process → move outcome shared process = (shared, process))
    (starts : ∀ shared process, global shared → allowed process → assertion shared process)
    (own : ∀ outcome shared process, global shared → assertion shared process → global (move outcome shared process).1 ∧
      (quiet (move outcome shared process).2 ∨ assertion (move outcome shared process).1 (move outcome shared process).2))
    (turn : Turn ρ ω) (world : World σ ρ) (solo : Solo quiet global assertion world)
    (ok : Serial quiet turn world ∧ Starts allowed turn world) : Solo quiet global assertion (step move turn world) := by
  cases turn with
  | start process =>
    have all : ∀ (index : Nat) (one : ρ), world.processes[index]? = some one → quiet one :=
      fun index one there => ok.1 one (List.mem_of_getElem? there)
    refine ⟨solo.shared, fun index one there => ?_⟩
    rcases concat_some there with old | ⟨last, rfl⟩
    · exact .inl (all index one old)
    · refine .inr ⟨starts world.shared one solo.shared ok.2, fun other idle here apart => ?_⟩
      rcases concat_some here with old | ⟨same, _⟩
      · exact all other idle old
      · exact absurd (same.trans last.symm) apart
  | act index outcome =>
    rw [Interleave.step]
    split
    · exact solo
    · next process there =>
      rcases solo.active index process there with rest | ⟨asserted, others⟩
      · obtain ⟨bound, same⟩ := List.getElem?_eq_some_iff.mp there
        have still : world.processes.set index process = world.processes := by
          rw [← same, List.set_getElem_self]
        rw [rests outcome world.shared process rest]
        dsimp only
        rw [still]
        exact solo
      · obtain ⟨after, self⟩ := own outcome world.shared process solo.shared asserted
        refine ⟨after, fun place one here => ?_⟩
        rcases set_some here with ⟨rfl, rfl⟩ | ⟨apart, old⟩
        · refine self.imp_right fun next => ⟨next, fun other idle there' away => ?_⟩
          rcases set_some there' with ⟨same, _⟩ | ⟨_, old⟩
          · exact absurd same away
          · exact others other idle old away
        · exact .inl (others place one old apart)

end Interleave
