import Mathlib.Data.List.Basic
import Mathlib.Logic.Function.Basic

/-! Who uses which resource, as a list of pairs, and that no two users share one; and a recursive mutex, with an account of the
holds that each thread has on it. -/

namespace Owners

universe u v

variable {υ : Type u} {ρ : Type v}

def Exclusive (uses : List (υ × ρ)) : Prop :=
  ∀ first second resource, (first, resource) ∈ uses → (second, resource) ∈ uses → first = second

theorem Exclusive.nil : Exclusive ([] : List (υ × ρ)) := by
  intro first second resource impossible
  cases impossible

theorem Exclusive.subset {uses fewer : List (υ × ρ)} (exclusive : Exclusive uses) (sub : fewer ⊆ uses) :
    Exclusive fewer :=
  fun first second resource one two => exclusive first second resource (sub one) (sub two)

/-- One more use is safe exactly when nobody else has the resource. -/
theorem exclusive_cons_iff {uses : List (υ × ρ)} (exclusive : Exclusive uses) (user : υ) (resource : ρ) :
    Exclusive ((user, resource) :: uses) ↔ ∀ other, (other, resource) ∈ uses → other = user := by
  refine ⟨fun after other held => ?_, fun alone first second wanted one two => ?_⟩
  · exact after other user resource (List.mem_cons_of_mem _ held) List.mem_cons_self
  · rcases List.mem_cons.mp one with here | before
    · cases here
      rcases List.mem_cons.mp two with also | earlier
      · cases also
        rfl
      · exact (alone second earlier).symm
    · rcases List.mem_cons.mp two with also | earlier
      · cases also
        exact alone first before
      · exact exclusive first second wanted before earlier

end Owners

universe u

structure Mutex (τ : Type u) where
  owner : Option τ
  hold : Nat

namespace Mutex

variable {τ : Type u} [DecidableEq τ]

def free : Mutex τ := ⟨none, 0⟩

/-- The thread can take the mutex without waiting. -/
def Available (thread : τ) (mutex : Mutex τ) : Prop := mutex.owner = none ∨ mutex.owner = some thread

instance (thread : τ) (mutex : Mutex τ) : Decidable (mutex.Available thread) := inferInstanceAs (Decidable (_ ∨ _))

def take (thread : τ) (mutex : Mutex τ) : Mutex τ := ⟨some thread, mutex.hold + 1⟩

/-- A release by a thread that does not hold the mutex fails without effect. -/
def release (thread : τ) (mutex : Mutex τ) : Mutex τ :=
  if mutex.owner = some thread then
    if mutex.hold ≤ 1 then free else { mutex with hold := mutex.hold - 1 }
  else mutex

/-- Each thread owes as many releases as it has holds. -/
structure Accounts (mutex : Mutex τ) (debt : τ → Nat) : Prop where
  owed : ∀ thread, debt thread = if mutex.owner = some thread then mutex.hold else 0
  held : mutex.owner = none ↔ mutex.hold = 0

variable {mutex : Mutex τ} {debt after : τ → Nat} {thread : τ}

theorem Accounts.free : Accounts (free : Mutex τ) fun _ => 0 := ⟨fun _ => rfl, ⟨fun _ => rfl, fun _ => rfl⟩⟩

theorem Accounts.owner (accounts : Accounts mutex debt) (owes : debt thread ≠ 0) : mutex.owner = some thread := by
  have value := accounts.owed thread
  split at value
  next holds => exact holds
  next => exact absurd value owes

theorem Accounts.alone (accounts : Accounts mutex debt) {other : τ} (owes : debt thread ≠ 0) (different : other ≠ thread) :
    debt other = 0 := by
  rw [accounts.owed other, if_neg]
  intro holds
  exact different (Option.some.inj (holds.symm.trans (accounts.owner owes)))

theorem Accounts.congr (accounts : Accounts mutex debt) (same : ∀ thread, after thread = debt thread) :
    Accounts mutex after :=
  ⟨fun thread => (same thread).trans (accounts.owed thread), accounts.held⟩

theorem Accounts.take (accounts : Accounts mutex debt) (available : mutex.Available thread)
    (more : after thread = debt thread + 1) (others : ∀ other, other ≠ thread → after other = debt other) :
    Accounts (mutex.take thread) after := by
  have held : mutex.hold = debt thread := by
    rcases available with none | own
    · rw [accounts.owed, none, accounts.held.mp none]
      rfl
    · rw [accounts.owed, if_pos own]
  refine ⟨fun other => ?_, ⟨fun none => (nomatch none), fun none => (nomatch none)⟩⟩
  by_cases same : other = thread
  · subst same
    simp only [Mutex.take, if_true, more, held]
  · have idle : debt other = 0 := by
      rw [accounts.owed other]
      rcases available with none | own
      · simp [none]
      · exact if_neg fun holds => same (Option.some.inj (holds.symm.trans own))
    have apart : ¬ some thread = some other := fun equal => same (Option.some.inj equal).symm
    rw [others other same, idle]
    exact (if_neg apart).symm

theorem Accounts.release (accounts : Accounts mutex debt) (less : after thread + 1 = debt thread)
    (others : ∀ other, other ≠ thread → after other = debt other) : Accounts (mutex.release thread) after := by
  have owner : mutex.owner = some thread := accounts.owner (by omega)
  have held : mutex.hold = debt thread := by rw [accounts.owed, if_pos owner]
  have idle : ∀ other, other ≠ thread → after other = 0 := by
    intro other different
    rw [others other different]
    exact accounts.alone (by omega) different
  simp only [Mutex.release, owner, if_true]
  split
  next last =>
    refine ⟨fun other => ?_, ⟨fun _ => rfl, fun _ => rfl⟩⟩
    by_cases same : other = thread
    · subst same
      simp only [Mutex.free, reduceCtorEq, if_false]
      omega
    · rw [idle other same]
      rfl
  next more =>
    refine ⟨fun other => ?_, ⟨fun none => (nomatch none), fun none => ?_⟩⟩
    · by_cases same : other = thread
      · subst same
        simp only [if_true]
        omega
      · have apart : ¬ some thread = some other := fun equal => same (Option.some.inj equal).symm
        rw [idle other same]
        exact (if_neg apart).symm
    · have positive : mutex.hold - 1 = 0 := none
      omega

/-- A thread that owes nothing releases in vain. -/
theorem Accounts.release_idle (accounts : Accounts mutex debt) (nothing : debt thread = 0) :
    mutex.release thread = mutex := by
  apply if_neg
  intro owner
  have value := accounts.owed thread
  rw [if_pos owner, nothing] at value
  cases owner.symm.trans (accounts.held.mpr value.symm)

end Mutex
