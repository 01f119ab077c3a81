import ArduinoK210.Publish.Past

/-! A run that no other disturbs: what it has listed is all that there is, so it goes on only if its tag is not past, and once it
removes anything its own prerelease is published. -/

namespace ArduinoK210.Publish

variable {host : Host}

namespace Plan
variable {build : Build host} {github : GitHub}

/-- A run that goes on has seen no newer snapshot published. -/
theorem current (plan : Plan build) (listed : build.channel = .dev → plan.listed = github.releases) : ¬github.Past host build.tag := by
  rintro ⟨generated, release, member, published, prerelease, is, newer⟩
  have dev := build.sound.generated.mp generated
  rw [← listed dev] at member
  exact absurd (plan.published_le dev member published prerelease is) (not_le_of_gt newer)

/-- The release that a run of a snapshot finds published is a prerelease. -/
theorem owns (plan : Plan build) {release : Release} (found : plan.release = some release) (member : release ∈ github.releases)
    (tag : release.tag = build.tag) (dev : build.channel = .dev) (published : release.draft = false) : github.Owns build := by
  have classified := plan.classified
  have full := classify_dev dev classified
  rw [found] at classified
  exact ⟨release, member, tag, published, (classify_published published classified).trans full⟩

end Plan

namespace Phase
variable {build : Build host} {github after : GitHub} {phase : Phase build}

/-- What the run has read is what GitHub holds. -/
def Read (github : GitHub) : Phase build → Prop
  | .list found number listed => (∀ release ∈ found, release ∈ github.releases) ∧ listed = github.releases.take (100 * number)
  | .ref known | .stable known _ | .dev known _ =>
      (∀ release ∈ known.release, release ∈ github.releases) ∧ (build.channel = .dev → known.listed = github.releases)
  | .assets _ release _ _ | .clear _ release _ _ _ _ | .verify _ release _ _ _ | .upload _ release _ _ _ =>
      build.channel = .dev → release.draft = false → github.Owns build
  | .base _ | .tree _ | .commit _ | .reference _ | .refs _ | .deleteRelease .. | .deleteRef .. => build.channel = .dev → github.Owns build
  | _ => True

structure Alone (github : GitHub) (phase : Phase build) : Prop where
  read : phase.Read github
  current : ∀ plan ∈ phase.plan, ¬github.Past host build.tag

theorem page_last {α : Type} {number : Nat} {items : List α} (short : (GitHub.page number items).length < 100) :
    items.take (100 * number) ++ GitHub.page number items = items := by
  have rest : (items.drop (100 * number)).length < 100 := by
    rw [GitHub.page, List.length_take] at short
    omega
  rw [GitHub.page, List.take_of_length_le rest.le, List.take_append_drop]

theorem page_next {α : Type} (number : Nat) (items : List α) :
    items.take (100 * number) ++ GitHub.page number items = items.take (100 * (number + 1)) := by
  rw [GitHub.page, Nat.mul_succ, List.take_add]

private theorem Alone.stopped (github : GitHub) : (.stopped : Phase build).Alone github := ⟨trivial, nofun⟩

private theorem Alone.done (github : GitHub) : (.done : Phase build).Alone github := ⟨trivial, nofun⟩

section Next
variable {plan : Plan build}

private theorem plan_only {plan : Plan build} (current : ¬github.Past host build.tag) :
    ∀ one ∈ (some plan : Option (Plan build)), ¬github.Past host build.tag := fun _ _ => current

private theorem Alone.prune (current : ¬github.Past host build.tag) (owns : build.channel = .dev → github.Owns build) :
    (Phase.prune plan).Alone github := by
  apply prune_rule
  · intro _
    exact ⟨owns, plan_only current⟩
  · exact Alone.done github

private theorem Alone.complete (current : ¬github.Past host build.tag) (owns : build.channel = .dev → github.Owns build) :
    (Phase.complete plan).Alone github := by
  apply complete_rule
  · intro _ _
    exact ⟨owns, plan_only current⟩
  · intro _
    exact ⟨owns, plan_only current⟩
  · intro _
    exact Alone.prune current owns

private theorem Alone.proceed {release : Release} {seen : List Asset} (files : List File) (current : ¬github.Past host build.tag)
    (owns : build.channel = .dev → release.draft = false → github.Owns build) : (Phase.proceed plan release seen files).Alone github := by
  apply proceed_rule (R := True) files (.inr trivial) (fun _ _ _ _ _ => trivial)
  · exact Alone.stopped github
  · intro _ _
    exact ⟨trivial, plan_only current⟩
  · intro _ published
    exact Alone.complete current fun dev => owns dev published
  · intro _ _ _
    exact ⟨owns, plan_only current⟩
  · intro _ _ _ _ _ _
    exact ⟨owns, plan_only current⟩
  · intro _ _ _ _ _
    exact ⟨owns, plan_only current⟩

private theorem Alone.decide {known : Known build} {parent : Commit} (sane : (Phase.stable known parent).Sane github)
    (read : (Phase.ref known).Read github) : (Phase.decide known parent).Alone github := by
  apply decide_rule (Alone.stopped github) (fun _ _ _ _ _ => Alone.done github)
  intro plan same _
  subst same
  have current := Plan.current plan read.2
  apply enter_rule
  · intro _
    exact ⟨trivial, plan_only current⟩
  · intro release found
    refine ⟨fun dev published => ?_, plan_only current⟩
    exact Plan.owns plan found (read.1 release found) (sane.target release found).2 dev published

private theorem Alone.classified {release : Option Release} {listed : List Release} (found : ∀ one ∈ release, one ∈ github.releases)
    (all : build.channel = .dev → listed = github.releases) : (Phase.classified release listed : Phase build).Alone github := by
  apply classified_rule (Alone.stopped github)
  intro known first second
  refine ⟨⟨?_, ?_⟩, nofun⟩
  · rw [first]
    exact found
  · rw [second]
    exact all

private theorem Alone.sweep {releases : List Release} {tags : List Text} (current : ¬github.Past host build.tag)
    (owns : build.channel = .dev → github.Owns build) : (Phase.sweep plan releases tags).Alone github := by
  apply sweep_rule
  · intro _ _ _
    exact ⟨owns, plan_only current⟩
  · intro _ _ _
    exact ⟨owns, plan_only current⟩
  · exact Alone.done github

end Next

section Step

theorem sought_tag {release : Release} (sane : phase.Sane github) (target : release ∈ phase.target) :
    ∀ current ∈ github.releases, current.id = release.id → current.tag = build.tag := by
  intro current member same
  obtain ⟨named, tag⟩ := sane.target release target
  exact (named.2 current member same).trans tag

/-- A request of a run that no other disturbs. -/
theorem effect_advances (proper : github.Proper) (sane : phase.Sane github) (alone : phase.Alone github)
    (done : phase.effect github = some after) : GitHub.Acts build github after ∧ GitHub.Advances host github after := by
  have grows := effect_grows proper.valid sane done
  cases phase with
  | create plan =>
    cases done
    have acts := @GitHub.createRelease_acts _ github build build.tag plan.prerelease
    exact ⟨acts, acts.advances (alone.current plan rfl) (GitHub.createRelease_proper proper _ _) grows (GitHub.createRelease_keeps _ _)⟩
  | clear plan release seen asset file files =>
    have made := GitHub.deleteAsset_edit proper.valid done
    have acts : GitHub.Acts build github after := by
      apply made.acts
      · intro release
        exact ⟨rfl, rfl⟩
      · intro release _ asset inside
        exact .inl (List.mem_of_mem_filter inside)
    refine ⟨acts, acts.advances (alone.current plan rfl) ?_ grows ?_⟩
    · exact proper.edit made (GitHub.deleteAsset_single proper.valid proper.single done) fun release asset => List.mem_of_mem_filter
    · apply GitHub.deleteAsset_keeps proper.valid done
      intro current member same
      obtain ⟨inside, starter⟩ := sane.formed
      rw [(sane.seen asset inside release rfl).same current member same]
      exact starter
  | upload plan release seen file files =>
    have acts := GitHub.attach_acts proper.valid done (sought_tag sane rfl)
    exact ⟨acts, acts.advances (alone.current plan rfl) (GitHub.attach_proper proper done) grows (GitHub.attach_keeps proper.valid done)⟩
  | undraft plan release =>
    have acts := GitHub.publishRelease_acts proper.valid done (sought_tag sane rfl) fun dev => classify_dev dev plan.classified
    refine ⟨acts, acts.advances (alone.current plan rfl) ?_ grows (GitHub.publishRelease_keeps proper.valid done)⟩
    apply proper.edit (GitHub.publishRelease_edit proper.valid done) (GitHub.publishRelease_single proper.valid proper.single done)
    intro release asset inside
    split at inside <;> exact inside
  | reference plan =>
    obtain ⟨releases, _, _, _⟩ := GitHub.push_some done
    have acts : GitHub.Acts build github after := GitHub.Acts.of_releases releases
    refine ⟨acts, acts.advances (alone.current plan rfl) ?_ grows (GitHub.Keeps.of_releases releases)⟩
    apply proper.shrink (GitHub.push_valid proper.valid done)
    · intro one first other second
      exact proper.single one (releases ▸ first) other (releases ▸ second)
    · intro release member asset inside
      exact ⟨release, releases ▸ member, rfl, inside⟩
  | deleteRelease plan release releases tags =>
    cases done
    obtain ⟨dev, old, _⟩ := sane.formed
    obtain ⟨listed, obsolete⟩ := old release List.mem_cons_self
    obtain ⟨generated, older, _⟩ := Plan.obsolete_iff.mp obsolete
    refine GitHub.deleteRelease_advances proper ⟨dev, alone.read dev, ?_⟩ (alone.current plan rfl)
    intro current member same
    rw [(sane.listing release listed).2 current member same]
    exact ⟨generated, older⟩
  | deleteRef plan tag tags =>
    obtain ⟨dev, old⟩ := sane.formed
    obtain ⟨generated, older, _⟩ := Plan.obsolete_iff.mp (old tag List.mem_cons_self)
    refine GitHub.deleteRef_advances proper done ⟨dev, alone.read dev, ?_⟩ (alone.current plan rfl)
    rintro current _ rfl
    exact ⟨generated, older⟩
  | _ =>
    cases done
    exact ⟨GitHub.Acts.of_releases rfl, GitHub.Advances.refl proper⟩

/-- What a run has read is still so after its own request. -/
theorem Alone.step (proper : github.Proper) (sane : phase.Sane github) (alone : phase.Alone github)
    (done : phase.effect github = some after) : (phase.resume github).Alone after := by
  obtain ⟨acts, advances⟩ := effect_advances proper sane alone done
  have current : ∀ plan, plan ∈ phase.plan → ¬after.Past host build.tag := fun plan member => acts.current (alone.current plan member)
  have owns : ∀ plan, plan ∈ phase.plan → build.channel = .dev → github.Owns build → after.Owns build :=
    fun plan member dev => acts.owns (current plan member) dev
  cases phase with
  | find =>
    cases done
    have found : ∀ one ∈ github.releaseByTag build.tag, one ∈ github.releases := fun one member => (GitHub.releaseByTag_some member).1
    dsimp only [resume]
    split
    · exact ⟨⟨found, rfl⟩, nofun⟩
    · next other =>
      exact Alone.classified found fun dev => absurd (.inr dev) other
  | list found number listed =>
    cases done
    obtain ⟨target, all⟩ := alone.read
    dsimp only [resume]
    split
    · next short =>
      rw [all, page_last short]
      apply Alone.classified _ fun _ => rfl
      intro release member
      rcases Option.or_eq_some_iff.mp member with first | ⟨_, second⟩
      · exact target release first
      · exact List.mem_of_find?_eq_some second
    · refine ⟨⟨target, ?_⟩, nofun⟩
      rw [all, page_next]
  | ref known =>
    cases done
    dsimp only [resume]
    split
    · next empty => exact Alone.decide ⟨sane.target, sane.listing, nofun, by rintro commit ⟨⟩; exact List.nil_suffix, trivial⟩ alone.read
    · exact ⟨alone.read, nofun⟩
  | stable known parent =>
    cases done
    exact ⟨alone.read, nofun⟩
  | dev known parent =>
    cases done
    exact Alone.decide ⟨sane.target, sane.listing, nofun, sane.parent, trivial⟩ alone.read
  | create plan =>
    refine ⟨?_, plan_only (current plan rfl)⟩
    intro _ published
    cases published
  | assets plan release number seen =>
    cases done
    dsimp only [resume]
    split
    · exact Alone.stopped github
    · split
      · exact Alone.proceed _ (current plan rfl) alone.read
      · exact ⟨alone.read, plan_only (current plan rfl)⟩
  | clear plan release seen asset file files =>
    exact ⟨fun dev published => owns plan rfl dev (alone.read dev published), plan_only (current plan rfl)⟩
  | verify plan release seen asset files =>
    cases done
    dsimp only [resume]
    split
    · exact Alone.stopped github
    · split
      · exact Alone.stopped github
      · exact Alone.proceed _ (current plan rfl) alone.read
  | upload plan release seen file files =>
    exact Alone.proceed _ (current plan rfl) fun dev published => owns plan rfl dev (alone.read dev published)
  | undraft plan release =>
    refine Alone.complete (current plan rfl) fun dev => ?_
    obtain ⟨old, found, releases, _, _⟩ := GitHub.publishRelease_some done
    obtain ⟨there, here⟩ := GitHub.release_some found
    refine ⟨{ old with draft := false, prerelease := plan.prerelease }, ?_, sought_tag sane rfl old there here, rfl,
      classify_dev dev plan.classified⟩
    rw [releases]
    refine List.mem_map.mpr ⟨old, there, ?_⟩
    rw [if_pos here]
  | base plan | tree plan | commit plan =>
    exact ⟨fun dev => owns plan rfl dev (alone.read dev), plan_only (current plan rfl)⟩
  | reference plan => exact Alone.prune (current plan rfl) fun dev => owns plan rfl dev (alone.read dev)
  | refs plan | deleteRelease plan release releases tags | deleteRef plan tag tags =>
    exact Alone.sweep (current plan rfl) fun dev => owns plan rfl dev (alone.read dev)
  | done => exact Alone.done after
  | stopped => exact Alone.stopped after

end Step

end Phase

end ArduinoK210.Publish
