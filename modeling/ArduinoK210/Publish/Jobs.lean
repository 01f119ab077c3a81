import ArduinoK210.Publish.Plans
import ArduinoK210.Publish.Reads

/-! Publish runs that take turns on GitHub, or follow one another. The pages branch changes only when a run moves it from the
commit that its plan was made for. -/

namespace ArduinoK210.Publish

variable {host : Host}

structure Job (host : Host) where
  build : Build host
  phase : Phase build

namespace Job

def finished (job : Job host) : Bool := job.phase.finished

def move (outcome : Phase.Outcome) (github : GitHub) (job : Job host) : GitHub × Job host :=
  if job.finished then (github, job)
  else ((job.phase.step outcome github).1, ⟨job.build, (job.phase.step outcome github).2⟩)

def Fresh (allowed : Build host → Prop) (job : Job host) : Prop := job.phase = .find ∧ allowed job.build

/-- What holds of a run at any time. -/
def Sane (allowed : Build host → Prop) (github : GitHub) (job : Job host) : Prop := job.phase.Sane github ∧ allowed job.build

variable {allowed : Build host → Prop} {github : GitHub} {job : Job host}

theorem Fresh.sane (fresh : job.Fresh allowed) (github : GitHub) : job.Sane allowed github := by
  refine ⟨?_, fresh.2⟩
  rw [fresh.1]
  exact Phase.Sane.find github

/-- A move is nothing, the effect of the request, or an asset that a failed upload leaves. -/
theorem move_cases (outcome : Phase.Outcome) (github : GitHub) (job : Job host) :
    (job.move outcome github).1 = github ∧ ((job.move outcome github).2 = job ∨ (job.move outcome github).2 = ⟨job.build, .stopped⟩) ∨
    (∃ after, job.phase.effect github = some after ∧ (job.move outcome github).1 = after ∧
      ((job.move outcome github).2 = ⟨job.build, job.phase.resume github⟩ ∨ (job.move outcome github).2 = ⟨job.build, .stopped⟩)) ∨
    ∃ plan release seen file files state content digested, job.phase = .upload plan release seen file files ∧
      github.attach release.id (job.build.fileName file) state content digested = some (job.move outcome github).1 ∧
      (job.move outcome github).2 = ⟨job.build, .stopped⟩ := by
  by_cases rest : job.finished = true
  · rw [move, if_pos rest]
    exact .inl ⟨rfl, .inl rfl⟩
  · rw [move, if_neg rest]
    rcases @Phase.step_cases _ _ github job.phase outcome with same | ⟨after, done, moved⟩ | left
    · rw [same]
      exact .inl ⟨rfl, .inr rfl⟩
    · refine .inr (.inl ⟨after, done, ?_⟩)
      rcases moved with served | lost
      · rw [served]
        exact ⟨rfl, .inl rfl⟩
      · rw [lost]
        exact ⟨rfl, .inr rfl⟩
    · obtain ⟨plan, release, seen, file, files, state, content, digested, after, here, done, moved⟩ := left
      refine .inr (.inr ⟨plan, release, seen, file, files, state, content, digested, here, ?_⟩)
      rw [moved]
      exact ⟨done, rfl⟩

theorem move_build (outcome : Phase.Outcome) (github : GitHub) (job : Job host) : (job.move outcome github).2.build = job.build := by
  unfold move
  split <;> rfl

private theorem move_grows (valid : github.Valid) (sane : job.phase.Sane github) (outcome : Phase.Outcome) :
    GitHub.Grows github (job.move outcome github).1 := by
  rcases move_cases outcome github job with ⟨same, _⟩ | ⟨after, done, same, _⟩ | ⟨plan, release, seen, file, files, state, content, digested, _, done, _⟩
  · rw [same]
    exact GitHub.Grows.refl github
  · rw [same]
    exact Phase.effect_grows valid sane done
  · exact GitHub.attach_grows valid done

private theorem move_valid (valid : github.Valid) (outcome : Phase.Outcome) : (job.move outcome github).1.Valid := by
  rcases move_cases outcome github job with ⟨same, _⟩ | ⟨after, done, same, _⟩ | ⟨plan, release, seen, file, files, state, content, digested, _, done, _⟩
  · rw [same]
    exact valid
  · rw [same]
    exact Phase.effect_valid valid done
  · exact (GitHub.attach_edit valid done).valid valid

theorem move_sane (valid : github.Valid) (sane : job.phase.Sane github) (outcome : Phase.Outcome) :
    (job.move outcome github).2.phase.Sane (job.move outcome github).1 := by
  have grows := move_grows valid sane outcome
  rcases move_cases outcome github job with ⟨same, stays | stops⟩ | ⟨after, done, same, served | lost⟩ | left
  · rw [stays]
    exact sane.grows grows
  · rw [stops]
    exact Phase.Sane.stopped _
  · rw [served, same]
    exact Phase.Sane.step valid sane done
  · rw [lost]
    exact Phase.Sane.stopped _
  · obtain ⟨_, _, _, _, _, _, _, _, _, _, stops⟩ := left
    rw [stops]
    exact Phase.Sane.stopped _

/-- The pages move only from the commit that a plan was made for. -/
theorem move_pages (sane : job.phase.Sane github) (outcome : Phase.Outcome) :
    (job.move outcome github).1.pages = github.pages ∨ ∃ plan : Plan job.build, job.phase = .reference plan ∧
      plan.parent = github.pages ∧ (job.move outcome github).1.pages = plan.snapshot :: github.pages := by
  rcases move_cases outcome github job with ⟨same, _⟩ | ⟨after, done, same, _⟩ | ⟨plan, release, seen, file, files, state, content, digested, _, done, _⟩
  · exact .inl (congrArg GitHub.pages same)
  · rw [same]
    obtain ⟨build, phase⟩ := job
    cases phase with
    | reference plan =>
      rcases GitHub.push_parent (sane.parent _ rfl) done with from_parent | noop
      · have pages := (GitHub.push_some done).2.2.1
        exact .inr ⟨plan, rfl, from_parent, pages.trans (congrArg (plan.snapshot :: ·) from_parent)⟩
      · exact .inl noop.symm
    | create plan =>
      cases done
      exact .inl rfl
    | clear plan release seen asset file files => exact .inl (by rw [GitHub.deleteAsset_some done])
    | upload plan release seen file files =>
      obtain ⟨_, _, _, rfl⟩ := GitHub.attach_some done
      exact .inl rfl
    | undraft plan release =>
      obtain ⟨_, _, _, _, pages⟩ := GitHub.publishRelease_some done
      exact .inl pages
    | deleteRelease plan release releases tags =>
      cases done
      exact .inl rfl
    | deleteRef plan tag tags => exact .inl (by rw [GitHub.deleteRef_some done])
    | _ =>
      cases done
      exact .inl rfl
  · obtain ⟨_, _, _, made⟩ := GitHub.attach_some done
    rw [made]
    exact .inl rfl

end Job

abbrev World (host : Host) := Interleave.World GitHub (Job host)

abbrev Turn (host : Host) := Interleave.Turn (Job host) Phase.Outcome

abbrev World.next (turn : Turn host) (world : World host) : World host := Interleave.step Job.move turn world

abbrev World.after (turns : List (Turn host)) (world : World host) : World host := Run.run World.next turns world

def World.top (world : World host) : Snapshot := world.shared.pages.top

def World.initial (github : GitHub) : World host := ⟨github, []⟩

/-- Runs of allowed builds start at any time, also while others are under way. -/
abbrev World.Open (allowed : Build host → Prop) (turns : List (Turn host)) (world : World host) : Prop :=
  Run.Guarded World.next (Interleave.Starts (Job.Fresh allowed)) turns world

abbrev World.Series (allowed : Build host → Prop) (turns : List (Turn host)) (world : World host) : Prop :=
  Run.Guarded World.next (fun turn world => Interleave.Serial (fun job => job.finished = true) turn world ∧
    Interleave.Starts (Job.Fresh allowed) turn world) turns world

abbrev World.Sound (allowed : Build host → Prop) (world : World host) : Prop :=
  Interleave.Consistent GitHub.Valid (Job.Sane allowed) world

section
variable {allowed : Build host → Prop} {world : World host}

theorem World.Sound.next (turn : Turn host) (sound : world.Sound allowed) (ok : Interleave.Starts (Job.Fresh allowed) turn world) :
    (World.next turn world).Sound allowed := by
  have starts : ∀ (github : GitHub) (job : Job host), github.Valid → job.Fresh allowed → job.Sane allowed github :=
    fun github _ _ fresh => fresh.sane github
  have own : ∀ outcome (github : GitHub) (job : Job host), github.Valid → job.Sane allowed github →
      (job.move outcome github).1.Valid ∧ (job.move outcome github).2.Sane allowed (job.move outcome github).1 := by
    intro outcome github job valid sane
    refine ⟨Job.move_valid valid outcome, Job.move_sane valid sane.1 outcome, ?_⟩
    rw [Job.move_build]
    exact sane.2
  have others : ∀ outcome (github : GitHub) (job other : Job host), github.Valid → job.Sane allowed github →
      other.Sane allowed github → other.Sane allowed (job.move outcome github).1 := by
    intro outcome github job other valid sane sane'
    exact ⟨sane'.1.grows (Job.move_grows valid sane.1 outcome), sane'.2⟩
  exact Interleave.Consistent.step starts own others turn world sound ok

theorem World.initial_sound {github : GitHub} (valid : github.Valid) : (World.initial github : World host).Sound allowed :=
  ⟨valid, fun _ member => absurd member List.not_mem_nil⟩

theorem World.Series.opened {turns : List (Turn host)} (series : World.Series allowed turns world) : World.Open allowed turns world := by
  induction turns generalizing world with
  | nil => trivial
  | cons turn turns ih => exact ⟨series.1.2, ih series.2⟩

theorem World.Open.mono {other : Build host → Prop} (implies : ∀ build, allowed build → other build) {turns : List (Turn host)}
    (opened : World.Open allowed turns world) : World.Open other turns world := by
  induction turns generalizing world with
  | nil => trivial
  | cons turn turns ih =>
    refine ⟨?_, ih opened.2⟩
    cases turn with
    | start job => exact ⟨opened.1.1, implies job.build opened.1.2⟩
    | act index outcome => trivial

theorem World.Open.acts (count index : Nat) (outcome : Phase.Outcome) :
    World.Open allowed (List.replicate count (.act index outcome)) world := by
  induction count generalizing world with
  | zero => trivial
  | succ count ih => exact ⟨trivial, ih⟩

/-- The step of the pages that a plan makes. -/
def Updates (allowed : Build host → Prop) (before after : Commit) : Prop :=
  ∃ build, allowed build ∧ ∃ plan : Plan build, plan.parent = before ∧ after = plan.snapshot :: before

theorem World.Sound.pages (turn : Turn host) (sound : world.Sound allowed) :
    (World.next turn world).shared.pages = world.shared.pages ∨ Updates allowed world.shared.pages (World.next turn world).shared.pages := by
  cases turn with
  | start job => exact .inl rfl
  | act index outcome =>
    dsimp only [World.next, Interleave.step]
    split
    · exact .inl rfl
    · next job there =>
      obtain ⟨sane, allows⟩ := sound.2 job (List.mem_of_getElem? there)
      rcases Job.move_pages sane outcome with same | ⟨plan, _, from_parent, moved⟩
      · exact .inl same
      · exact .inr ⟨job.build, allows, plan, from_parent, moved⟩

/-- What updates of the indexes keep, every run keeps. -/
theorem World.Sound.keeps {good : Snapshot → Prop}
    (update : ∀ (build : Build host) (plan : Plan build), allowed build → good plan.parent.top → good plan.snapshot)
    {turns : List (Turn host)} (sound : world.Sound allowed) (opened : World.Open allowed turns world) (initial : good world.top) :
    (World.after turns world).Sound allowed ∧ good (World.after turns world).top := by
  have preserves : ∀ turn (world : World host), world.Sound allowed ∧ good world.top → Interleave.Starts (Job.Fresh allowed) turn world →
      (World.next turn world).Sound allowed ∧ good (World.next turn world).top := by
    intro turn world ⟨sound, kept⟩ ok
    refine ⟨sound.next turn ok, ?_⟩
    rw [World.top]
    rcases sound.pages turn with same | ⟨build, allows, plan, from_parent, moved⟩
    · rw [same]
      exact kept
    · rw [moved]
      exact update build plan allows (from_parent ▸ kept)
  exact Run.Guarded.invariant preserves opened ⟨sound, initial⟩

end

end ArduinoK210.Publish
