import ArduinoK210.Publish.Again
import ArduinoK210.Publish.Immutable
import ArduinoK210.Publish.Pruning

/-! A build that is published again. The first run leaves GitHub so that whatever plan is made for it finds the release complete,
the indexes as they are going to be and nothing superseded: the next run reads and changes nothing. -/

namespace ArduinoK210.Publish

variable {host : Host}

/-- The release has the asset of a file, and it is no placeholder. -/
def Build.Filled (build : Build host) (assets : List Asset) (file : File) : Prop :=
  ∃ asset, lastNamed (build.fileName file) assets = some asset ∧ asset.state ≠ .starter

/-- What the first requests told is how GitHub is. -/
structure Known.Exact {build : Build host} (known : Known build) (github : GitHub) : Prop where
  release : known.release = build.resolve github
  listed : build.channel = .dev → known.listed = github.releases

/-- A plan that leaves nothing to do. -/
structure Plan.Quiet {build : Build host} (plan : Plan build) (github : GitHub) : Prop where
  found : plan.release.isSome = true
  published : ∀ release ∈ plan.release, release.draft = false
  filled : ∀ release ∈ plan.release, ∀ current, github.release release.id = some current → ∀ file ∈ plan.files, build.Filled current.assets file
  unchanged : plan.changed = false
  swept : build.channel = .dev → (∀ release ∈ plan.listed, plan.obsolete release.tag = false) ∧
    ∀ tag ∈ github.tags, plan.obsolete tag = false

/-- Every plan for GitHub as it is leaves nothing to do. -/
def GitHub.Idle (github : GitHub) (build : Build host) : Prop :=
  ∀ plan : Plan build, plan.toKnown.Exact github → plan.parent = github.pages → plan.Quiet github

namespace Phase
variable {build : Build host} {github after : GitHub} {phase : Phase build}

/-- The run has not yet made its plan. -/
def reading : Phase build → Bool
  | .find | .list .. | .ref _ | .stable .. | .dev .. => true
  | _ => false

def Knows (github : GitHub) : Phase build → Prop
  | .list found number listed => found = github.releaseByTag build.tag ∧ listed = github.releases.take (100 * number)
  | .ref known => known.Exact github
  | .stable known parent | .dev known parent => known.Exact github ∧ parent = github.pages
  | _ => True

section Reading
variable {P : Phase build → Prop}

private theorem classified_exact {release : Option Release} {listed : List Release} (found : release = build.resolve github)
    (all : build.channel = .dev → listed = github.releases) (reads : ∀ later : Phase build, later.reading = true → later.Knows github → P later)
    (stopped : P .stopped) : P (classified release listed) := by
  apply classified_rule stopped
  intro known first second
  exact reads (.ref known) rfl ⟨first.trans found, fun dev => second.trans (all dev)⟩

private theorem decide_exact {known : Known build} (exact_known : known.Exact github) (stopped : P .stopped)
    (done : (∀ plan : Plan build, plan.toKnown.Exact github → plan.parent ≠ github.pages) → P .done)
    (enter : ∀ plan : Plan build, plan.toKnown.Exact github → plan.parent = github.pages → P (enter plan)) :
    P (Phase.decide known github.pages) := by
  apply decide_rule stopped
  · intro fresh latest _ developed old
    apply done
    intro plan exact_plan here
    have dev : build.channel = .dev := of_decide_eq_true (Bool.and_eq_true _ _ |>.mp old).1
    have same := plan.developed
    rw [here, developed] at same
    have newest := plan.newest
    rw [← (Prod.mk.inj (Option.some.inj same)).2, exact_plan.listed dev, ← exact_known.listed dev, old] at newest
    cases newest
  · rintro plan rfl here
    exact enter plan exact_known here

/-- What a request that reads takes a run to. -/
theorem Knows.resume (knows : phase.Knows github) (reading : phase.reading = true)
    (reads : ∀ later : Phase build, later.reading = true → later.Knows github → P later) (stopped : P .stopped)
    (done : (∀ plan : Plan build, plan.toKnown.Exact github → plan.parent ≠ github.pages) → P .done)
    (enter : ∀ plan : Plan build, plan.toKnown.Exact github → plan.parent = github.pages → P (Phase.enter plan)) :
    P (phase.resume github) := by
  cases phase with
  | find =>
    dsimp only [Phase.resume]
    split
    · exact reads _ rfl ⟨rfl, rfl⟩
    · next other =>
      apply classified_exact _ (fun dev => absurd (.inr dev) other) reads stopped
      obtain ⟨release, found⟩ := Option.ne_none_iff_exists'.mp fun none => other (.inl none)
      rw [Build.resolve, found]
      rfl
  | list found number listed =>
    obtain ⟨rfl, rfl⟩ := knows
    dsimp only [Phase.resume]
    split
    · next short =>
      rw [page_last short]
      exact classified_exact rfl (fun _ => rfl) reads stopped
    · rw [page_next]
      exact reads _ rfl ⟨rfl, rfl⟩
  | ref known =>
    dsimp only [Phase.resume]
    split
    · next empty =>
      rw [← empty]
      exact decide_exact knows stopped done enter
    · exact reads _ rfl ⟨knows, rfl⟩
  | stable known parent => exact reads (.dev known parent) rfl knows
  | dev known parent =>
    obtain ⟨exact_known, rfl⟩ := knows
    exact decide_exact exact_known stopped done enter
  | _ => cases reading

end Reading

section Again

/-- The run finds nothing to do. -/
def Still (github : GitHub) : Phase build → Prop
  | .assets plan release number seen => plan.Quiet github ∧ release ∈ plan.release ∧
      ∀ current, github.release release.id = some current → seen = current.assets.take (100 * number)
  | .verify plan release seen _ files => plan.Quiet github ∧ release.draft = false ∧ ∀ file ∈ files, build.Filled seen file
  | .refs plan => plan.Quiet github ∧ build.channel = .dev
  | .done | .stopped => True
  | phase => phase.reading = true ∧ phase.Knows github

private theorem Still.reads (reading : phase.reading = true) (knows : phase.Knows github) : phase.Still github := by
  cases phase with
  | find | list | ref | stable | dev => exact ⟨reading, knows⟩
  | _ => cases reading

private theorem Still.proceed {plan : Plan build} {release : Release} {seen : List Asset} {files : List File} (quiet : plan.Quiet github)
    (published : release.draft = false) (filled : ∀ file ∈ files, build.Filled seen file) :
    (Phase.proceed plan release seen files).Still github := by
  induction files with
  | nil =>
    rw [Phase.proceed, published, if_neg (by decide), complete, quiet.unchanged, if_neg (by decide), prune]
    split
    · next dev => exact ⟨quiet, dev⟩
    · trivial
  | cons file files ih =>
    have rest := ih fun other member => filled other (List.mem_cons_of_mem file member)
    obtain ⟨asset, found, complete⟩ := filled file List.mem_cons_self
    unfold Phase.proceed
    split
    · next none => exact (Option.some_ne_none asset (found.symm.trans none)).elim
    · next other same =>
      cases found.symm.trans same
      rw [if_neg complete]
      split
      · trivial
      · split
        · split
          · exact ⟨quiet, published, fun other member => filled other (List.mem_cons_of_mem file member)⟩
          · split
            · trivial
            · exact rest
        · exact rest

private theorem Still.step (idle : github.Idle build) (still : phase.Still github) :
    phase.effect github = some github ∧ (phase.resume github).Still github := by
  have enter : ∀ plan : Plan build, plan.toKnown.Exact github → plan.parent = github.pages → (Phase.enter plan).Still github := by
    intro plan exact_plan here
    have quiet := idle plan exact_plan here
    apply enter_rule
    · intro none
      have found := quiet.found
      rw [none] at found
      cases found
    · intro release found
      exact ⟨quiet, found, fun current _ => rfl⟩
  cases phase with
  | find | list | ref | stable | dev =>
    exact ⟨rfl, still.2.resume still.1 (fun _ reading knows => Still.reads reading knows) trivial (fun _ => trivial) enter⟩
  | assets plan release number seen =>
    obtain ⟨quiet, among, all⟩ := still
    refine ⟨rfl, ?_⟩
    dsimp only [Phase.resume]
    split
    · trivial
    · next current found =>
      rw [all current found]
      split
      · next short =>
        rw [page_last short]
        exact Still.proceed quiet (quiet.published release among) (quiet.filled release among current found)
      · refine ⟨quiet, among, fun other same => ?_⟩
        cases found.symm.trans same
        rw [page_next]
  | verify plan release seen asset files =>
    refine ⟨rfl, ?_⟩
    dsimp only [Phase.resume]
    split
    · trivial
    · split
      · trivial
      · exact Still.proceed still.1 still.2.1 still.2.2
  | refs plan =>
    obtain ⟨quiet, dev⟩ := still
    obtain ⟨releases, tags⟩ := quiet.swept dev
    have none_listed : plan.listed.filter (fun release => plan.obsolete release.tag) = [] := by
      rw [List.filter_eq_nil_iff]
      intro release member
      rw [releases release member]
      decide
    have none_left : github.matchingRefs.filter (fun tag => plan.obsolete tag) = [] := by
      rw [List.filter_eq_nil_iff]
      intro tag member
      rw [tags tag (List.mem_of_mem_filter member)]
      decide
    refine ⟨rfl, ?_⟩
    dsimp only [Phase.resume]
    rw [none_listed, none_left]
    trivial
  | done | stopped => exact ⟨rfl, trivial⟩
  | _ => cases still.1

private theorem Still.modifies (still : phase.Still github) : phase.modifies = false := by
  cases phase with
  | create | clear | upload | undraft | tree | commit | reference | deleteRelease | deleteRef => cases still.1
  | _ => rfl

end Again

end Phase

/-- A run by itself, with what becomes of each of its requests. -/
abbrev Job.run (outcomes : List Phase.Outcome) (state : GitHub × Job host) : GitHub × Job host :=
  Run.run (fun outcome state => Job.move outcome state.1 state.2) outcomes state

theorem Job.still_run {build : Build host} {github : GitHub} (idle : github.Idle build) (outcomes : List Phase.Outcome) :
    (Job.run outcomes (github, ⟨build, .find⟩)).1 = github ∧
      (Job.run outcomes (github, ⟨build, .find⟩)).2.phase.modifies = false := by
  have kept := @Run.invariant _ _ (fun outcome (state : GitHub × Job host) => Job.move outcome state.1 state.2)
    (fun state => state.1 = github ∧ ∃ phase : Phase build, state.2 = ⟨build, phase⟩ ∧ phase.Still github) ?_ outcomes
    (github, ⟨build, .find⟩) ⟨rfl, .find, rfl, rfl, trivial⟩
  · obtain ⟨same, phase, here, still⟩ := kept
    exact ⟨same, by rw [Job.run, here]; exact still.modifies⟩
  · rintro outcome ⟨shared, job⟩ ⟨same, phase, here, still⟩
    change shared = github at same
    change job = ⟨build, phase⟩ at here
    subst shared here
    obtain ⟨effect, next⟩ := still.step idle
    rcases Job.move_cases outcome github ⟨build, phase⟩ with ⟨same, stays | stops⟩ | ⟨after, done, same, served | lost⟩ | left
    · exact ⟨same, phase, stays, still⟩
    · exact ⟨same, .stopped, stops, trivial⟩
    · cases effect.symm.trans done
      exact ⟨same, _, served, next⟩
    · cases effect.symm.trans done
      exact ⟨same, .stopped, lost, trivial⟩
    · obtain ⟨_, _, _, _, _, _, _, _, here, _⟩ := left
      change phase = _ at here
      rw [here] at still
      cases still.1

namespace Plan
variable {build : Build host} {plan : Plan build} {github after : GitHub} {release current : Release}

/-- The release that the run fills, among the others that it has listed. -/
structure Around (plan : Plan build) (github : GitHub) (release current : Release) : Prop where
  unambiguous : plan.parent.top.Unambiguous host
  member : current ∈ github.releases
  id : current.id = release.id
  tag : current.tag = build.tag
  draft : current.draft = release.draft
  kind : release.draft = false → current.prerelease = plan.prerelease
  others : build.channel = .dev → ∀ other : Release, other.id ≠ release.id → (other ∈ github.releases ↔ other ∈ plan.listed)

/-- The files that are not pending are there, and those of the rest are still what the run has seen. -/
structure Filling (plan : Plan build) (current : Release) (seen : List Asset) (pending rest : List File) : Prop where
  filled : ∀ file ∈ plan.files, file ∉ pending → build.Filled current.assets file
  seen : ∀ file ∈ rest, lastNamed (build.fileName file) current.assets = lastNamed (build.fileName file) seen
  nodup : pending.Nodup

/-- The release is out, with its files. -/
structure Released (plan : Plan build) (github : GitHub) (current : Release) : Prop where
  unambiguous : plan.parent.top.Unambiguous host
  member : current ∈ github.releases
  tag : current.tag = build.tag
  draft : current.draft = false
  kind : current.prerelease = plan.prerelease
  filled : ∀ file ∈ plan.files, build.Filled current.assets file

/-- What is superseded of the releases and tags has one of the numbers, or is one of the tags. -/
structure Sweeping (plan : Plan build) (github : GitHub) (ids : List Nat) (tags : List Text) : Prop where
  dev : build.channel = .dev
  top : github.pages.top = plan.snapshot
  released : ∃ current, plan.Released github current
  full : ∀ one ∈ plan.listed, one.prerelease = false → one.tag ≠ build.tag → one ∈ github.releases
  releases : ∀ one ∈ github.releases, plan.obsolete one.tag = true → one.id ∈ ids
  tags : ∀ tag ∈ github.tags, plan.obsolete tag = true → tag ∈ tags

private theorem Around.edit (around : plan.Around github release current) {edit : Release → Release}
    (releases : after.releases = github.releases.map edit) (here : (edit current).id = current.id ∧ (edit current).tag = current.tag ∧
      (edit current).draft = current.draft ∧ (edit current).prerelease = current.prerelease)
    (numbered : ∀ other : Release, (edit other).id = other.id)
    (apart : ∀ other ∈ github.releases, other.id ≠ release.id → edit other = other) : plan.Around after release (edit current) := by
  obtain ⟨id, tag, draft, kind⟩ := here
  refine ⟨around.unambiguous, releases ▸ List.mem_map_of_mem around.member, id.trans around.id, tag.trans around.tag,
    draft.trans around.draft, fun published => kind.trans (around.kind published), ?_⟩
  intro dev other away
  rw [← around.others dev other away, releases, List.mem_map]
  constructor
  · rintro ⟨old, there, rfl⟩
    rw [numbered] at away
    rw [apart old there away]
    exact there
  · intro there
    exact ⟨other, there, apart other there away⟩

private theorem Around.released (around : plan.Around github release current) (published : release.draft = false)
    (filled : ∀ file ∈ plan.files, build.Filled current.assets file) : plan.Released github current :=
  ⟨around.unambiguous, around.member, around.tag, around.draft.trans published, around.kind published, filled⟩

private theorem obsolete_own : plan.obsolete build.tag = false := by
  rw [Bool.eq_false_iff]
  intro old
  exact absurd (obsolete_iff.mp old).2.1 (lt_irrefl _)

private theorem obsolete_full {one : Release} (member : one ∈ plan.listed) (full : one.prerelease = false) : plan.obsolete one.tag = false := by
  rw [Bool.eq_false_iff]
  intro old
  apply (obsolete_iff.mp old).2.2
  apply List.mem_append_left
  apply List.mem_append_right
  exact List.mem_map_of_mem (List.mem_filter.mpr ⟨member, by rw [full]; rfl⟩)

/-- Where the plan is carried out, another one comes to the same. -/
theorem Released.quiet (proper : github.Proper) (released : plan.Released github current) (top : github.pages.top = plan.snapshot)
    (swept : build.channel = .dev → plan.Sweeping github [] []) : github.Idle build := by
  intro later exact_later here
  have found : later.release = some current := by
    rw [exact_later.release, Build.resolve, ← released.tag, proper.single.releaseByTag proper.valid released.member released.draft]
    rfl
  have classified := later.classified
  rw [found] at classified
  have kind : later.prerelease = plan.prerelease := (classify_published released.draft classified).symm.trans released.kind
  have old : later.parent.top = plan.snapshot := (congrArg Commit.top here).trans top
  have developed := later.developed
  rw [old, plan.develop_again released.unambiguous] at developed
  obtain ⟨dev, latest⟩ := Prod.mk.inj (Option.some.inj developed)
  have stabilized := later.stabilized
  rw [old, kind, plan.stabilize_again] at stabilized
  have stable := Option.some.inj stabilized
  refine ⟨by rw [found]; rfl, ?_, ?_, ?_, ?_⟩
  · intro release member
    cases found.symm.trans member
    exact released.draft
  · intro release member again there file among
    cases found.symm.trans member
    obtain ⟨inside, same⟩ := GitHub.release_some there
    rw [proper.valid.release_same again inside current released.member same]
    apply released.filled file
    rw [files, stable]
    exact among
  · rw [changed, old, ← dev, ← stable]
    have kept : (plan.stable.any fun released => released ≠ plan.snapshot.stable) = false := by
      rw [snapshot]
      cases plan.stable <;> simp
    rw [kept, Bool.or_false]
    exact decide_eq_false (not_not_intro rfl)
  · intro channel
    have sweeping := swept channel
    have protect : ∀ tag, later.obsolete tag = true → plan.obsolete tag = true := by
      intro tag out
      obtain ⟨generated, older, free⟩ := obsolete_iff.mp out
      refine obsolete_iff.mpr ⟨generated, older, fun guarded => free ?_⟩
      have listed : later.parent.top.stable = plan.parent.top.stable := by rw [old, plan.stable_dev channel]
      rw [protectedTags, ← dev, listed]
      rcases List.mem_append.mp guarded with front | own
      · apply List.mem_append_left
        rcases List.mem_append.mp front with entries | full
        · exact List.mem_append_left _ entries
        · obtain ⟨one, there, rfl⟩ := List.mem_map.mp full
          obtain ⟨among, prerelease⟩ := List.mem_filter.mp there
          have named : one.tag ≠ build.tag := fun same => lt_irrefl _ (same ▸ older)
          apply List.mem_append_right
          apply List.mem_map_of_mem
          rw [List.mem_filter, exact_later.listed channel]
          exact ⟨sweeping.full one among (by simpa using prerelease) named, prerelease⟩
      · exact List.mem_append_right _ own
    constructor
    · intro release member
      rw [Bool.eq_false_iff]
      intro out
      rw [exact_later.listed channel] at member
      exact List.not_mem_nil (sweeping.releases release member (protect _ out))
    · intro tag member
      rw [Bool.eq_false_iff]
      intro out
      exact List.not_mem_nil (sweeping.tags tag member (protect tag out))

private theorem Sweeping.idle (proper : github.Proper) (sweeping : plan.Sweeping github [] []) : github.Idle build := by
  obtain ⟨current, released⟩ := sweeping.released
  exact released.quiet proper sweeping.top fun _ => sweeping

private theorem Sweeping.deleteRelease {id : Nat} {ids : List Nat} {tags : List Text} (sweeping : plan.Sweeping github (id :: ids) tags)
    (old : ∀ one ∈ github.releases, one.id = id → plan.obsolete one.tag = true) : plan.Sweeping (github.deleteRelease id) ids tags := by
  have stays : ∀ one ∈ github.releases, plan.obsolete one.tag = false → one ∈ (github.deleteRelease id).releases := by
    intro one member current
    refine List.mem_filter.mpr ⟨member, ?_⟩
    rw [decide_eq_true_eq]
    intro same
    rw [old one member same] at current
    cases current
  obtain ⟨current, released⟩ := sweeping.released
  refine ⟨sweeping.dev, sweeping.top, ⟨current, released.unambiguous, ?_, released.tag, released.draft, released.kind, released.filled⟩, ?_, ?_,
    sweeping.tags⟩
  · apply stays current released.member
    rw [released.tag]
    exact plan.obsolete_own
  · intro one member full named
    exact stays one (sweeping.full one member full named) (obsolete_full member full)
  · intro one member out
    obtain ⟨there, away⟩ := List.mem_filter.mp member
    exact (List.mem_cons.mp (sweeping.releases one there out)).resolve_left (by simpa using away)

private theorem Sweeping.deleteRef {tag : Text} {tags : List Text} (sweeping : plan.Sweeping github [] (tag :: tags))
    (old : plan.obsolete tag = true) (done : github.deleteRef tag = some after) : plan.Sweeping after [] tags := by
  cases GitHub.deleteRef_some done
  have same : (github.releases.map fun release => if release.tag = tag then { release with draft := true } else release) =
      github.releases := by
    apply (List.map_congr_left ?_).trans (List.map_id _)
    intro one member
    rw [if_neg, id]
    rintro rfl
    exact List.not_mem_nil (sweeping.releases one member old)
  rw [same]
  obtain ⟨current, released⟩ := sweeping.released
  refine ⟨sweeping.dev, sweeping.top,
    ⟨current, released.unambiguous, released.member, released.tag, released.draft, released.kind, released.filled⟩, sweeping.full,
    sweeping.releases, ?_⟩
  intro other member out
  obtain ⟨there, away⟩ := List.mem_filter.mp member
  exact (List.mem_cons.mp (sweeping.tags other there out)).resolve_left (by simpa using away)

end Plan

namespace Phase
variable {build : Build host} {plan : Plan build} {github after : GitHub} {phase : Phase build} {release current : Release}

/-- How far a run that is alone has come. -/
def Follows (github : GitHub) : Phase build → Prop
  | .create plan => plan.toKnown.Exact github ∧ plan.parent = github.pages ∧ github.pages.top.Unambiguous host
  | .assets plan release number seen => plan.parent = github.pages ∧ ∃ current, plan.Around github release current ∧
      seen = current.assets.take (100 * number)
  | .clear plan release seen asset file files => plan.parent = github.pages ∧ ∃ current, plan.Around github release current ∧
      asset ∈ current.assets ∧ asset.name = build.fileName file ∧ plan.Filling current seen (file :: files) files
  | .upload plan release seen file files => plan.parent = github.pages ∧ ∃ current, plan.Around github release current ∧
      plan.Filling current seen (file :: files) files
  | .verify plan release seen _ files => plan.parent = github.pages ∧ ∃ current, plan.Around github release current ∧
      plan.Filling current seen files files
  | .undraft plan release => plan.parent = github.pages ∧ ∃ current, plan.Around github release current ∧
      ∀ file ∈ plan.files, build.Filled current.assets file
  | .base plan | .tree plan | .commit plan | .reference plan => plan.parent = github.pages ∧ ∃ current, plan.Released github current ∧
      (build.channel = .dev → ∀ other : Release, other.id ≠ current.id → (other ∈ github.releases ↔ other ∈ plan.listed))
  | .refs plan => github.pages.top = plan.snapshot ∧ ∃ current, plan.Released github current ∧
      (build.channel = .dev → ∀ other : Release, other.id ≠ current.id → (other ∈ github.releases ↔ other ∈ plan.listed))
  | .deleteRelease plan release releases tags => plan.Sweeping github ((release :: releases).map Release.id) tags
  | .deleteRef plan tag tags => plan.Sweeping github [] (tag :: tags)
  | .done => github.Idle build
  | .stopped => True
  | phase => phase.reading = true ∧ phase.Knows github ∧ github.pages.top.Unambiguous host

private theorem Follows.reads (reading : phase.reading = true) (knows : phase.Knows github) (unambiguous : github.pages.top.Unambiguous host) :
    phase.Follows github := by
  cases phase with
  | find | list | ref | stable | dev => exact ⟨reading, knows, unambiguous⟩
  | _ => cases reading

section Next

private theorem Follows.prune (proper : github.Proper) (top : github.pages.top = plan.snapshot) (released : plan.Released github current)
    (others : build.channel = .dev → ∀ other : Release, other.id ≠ current.id → (other ∈ github.releases ↔ other ∈ plan.listed)) :
    (Phase.prune plan).Follows github := by
  unfold Phase.prune
  split
  · exact ⟨top, current, released, others⟩
  · next other => exact released.quiet proper top fun dev => absurd dev other

private theorem Follows.complete (proper : github.Proper) (here : plan.parent = github.pages) (released : plan.Released github current)
    (others : build.channel = .dev → ∀ other : Release, other.id ≠ current.id → (other ∈ github.releases ↔ other ∈ plan.listed)) :
    (Phase.complete plan).Follows github := by
  apply complete_rule
  · intro _ _
    exact ⟨here, current, released, others⟩
  · intro _
    exact ⟨here, current, released, others⟩
  · intro unchanged
    apply Follows.prune proper _ released others
    rw [plan.snapshot_unchanged unchanged, here]

private theorem Follows.proceed {seen : List Asset} {files : List File} (proper : github.Proper) (here : plan.parent = github.pages)
    (around : plan.Around github release current) (filling : plan.Filling current seen files files) :
    (Phase.proceed plan release seen files).Follows github := by
  induction files with
  | nil =>
    have filled : ∀ file ∈ plan.files, build.Filled current.assets file := fun file member => filling.filled file member List.not_mem_nil
    unfold Phase.proceed
    split
    · exact ⟨here, current, around, filled⟩
    · next published =>
      rw [Bool.not_eq_true] at published
      apply Follows.complete proper here (around.released published filled)
      intro dev other away
      exact around.others dev other (around.id ▸ away)
  | cons file files ih =>
    obtain ⟨fresh, nodup⟩ := List.nodup_cons.mp filling.nodup
    have rest : plan.Filling current seen (file :: files) files :=
      ⟨filling.filled, fun other member => filling.seen other (List.mem_cons_of_mem file member), filling.nodup⟩
    have given := filling.seen file List.mem_cons_self
    unfold Phase.proceed
    split
    · exact ⟨here, current, around, rest⟩
    · next asset found =>
      have there : lastNamed (build.fileName file) current.assets = some asset := given.trans found
      obtain ⟨inside, named⟩ := lastNamed_some there
      split
      · exact ⟨here, current, around, inside, named, rest⟩
      · next complete =>
        have later : plan.Filling current seen files files := by
          refine ⟨?_, rest.seen, nodup⟩
          intro other member away
          by_cases same : other = file
          · exact same ▸ ⟨asset, there, complete⟩
          · exact filling.filled other member fun among => (List.mem_cons.mp among).elim same away
        split
        · trivial
        · split
          · split
            · exact ⟨here, current, around, later⟩
            · split
              · trivial
              · exact ih later
          · exact ih later

private theorem Follows.sweep {releases : List Release} {tags : List Text} (proper : github.Proper)
    (sweeping : plan.Sweeping github (releases.map Release.id) tags) :
    (Phase.sweep plan releases tags).Follows github := by
  cases releases with
  | cons release releases => exact sweeping
  | nil =>
    cases tags with
    | cons tag tags => exact sweeping
    | nil => exact sweeping.idle proper

private theorem Follows.enter (exact_plan : plan.toKnown.Exact github) (here : plan.parent = github.pages)
    (unambiguous : github.pages.top.Unambiguous host) : (Phase.enter plan).Follows github := by
  apply enter_rule
  · intro _
    exact ⟨exact_plan, here, unambiguous⟩
  · intro release found
    have sought := exact_plan.release.symm.trans found
    obtain ⟨member, tag⟩ : release ∈ github.releases ∧ release.tag = build.tag := by
      rcases Option.or_eq_some_iff.mp sought with first | ⟨_, second⟩
      · obtain ⟨member, _, tag⟩ := GitHub.releaseByTag_some first
        exact ⟨member, tag⟩
      · exact ⟨List.mem_of_find?_eq_some second, by simpa using List.find?_some second⟩
    have classified := plan.classified
    rw [found] at classified
    refine ⟨here, release, ⟨?_, member, rfl, tag, rfl, fun published => classify_published published classified, ?_⟩, rfl⟩
    · rw [here]
      exact unambiguous
    · intro dev other _
      rw [exact_plan.listed dev]

end Next

section Step

private theorem Follows.created (exact_plan : plan.toKnown.Exact github) (here : plan.parent = github.pages)
    (unambiguous : github.pages.top.Unambiguous host) :
    (Phase.assets plan (github.created build.tag plan.prerelease) 0 []).Follows (github.createRelease build.tag plan.prerelease) := by
  refine ⟨here, github.created build.tag plan.prerelease, ⟨?_, List.mem_cons_self, rfl, rfl, rfl, nofun, ?_⟩, rfl⟩
  · rw [here]
    exact unambiguous
  · intro dev other away
    rw [exact_plan.listed dev]
    constructor
    · intro member
      exact (List.mem_cons.mp member).resolve_left fun same => away (congrArg Release.id same)
    · exact List.mem_cons_of_mem _

private theorem Follows.listed {seen : List Asset} {number : Nat} (proper : github.Proper)
    (follows : (Phase.assets plan release number seen).Follows github) : ((Phase.assets plan release number seen).resume github).Follows github := by
  obtain ⟨here, current, around, rfl⟩ := follows
  dsimp only [Phase.resume]
  split
  · trivial
  · next again found =>
    obtain ⟨inside, same⟩ := GitHub.release_some found
    have equal := proper.valid.release_same again inside current around.member (same.trans around.id.symm)
    subst equal
    split
    · next short =>
      rw [page_last short]
      apply Follows.proceed proper here around
      refine ⟨fun file member away => absurd member away, fun _ _ => rfl, ?_⟩
      unfold Plan.files
      split <;> decide
    · rw [page_next]
      exact ⟨here, again, around, rfl⟩

private theorem Follows.clears {seen : List Asset} {asset : Asset} {file : File} {files : List File} (valid : github.Valid)
    (follows : (Phase.clear plan release seen asset file files).Follows github) (done : github.deleteAsset asset.id = some after) :
    (Phase.upload plan release seen file files).Follows after := by
  obtain ⟨here, current, around, inside, named, filling⟩ := follows
  cases GitHub.deleteAsset_some done
  have alone : ∀ other ∈ github.releases, ∀ one ∈ other.assets, one.id = asset.id → other.id = release.id ∧ one = asset := by
    intro other member one within same
    obtain ⟨home, equal⟩ := valid.asset_same other member current around.member one within asset inside same
    exact ⟨home.trans around.id, equal⟩
  have kept : ∀ other, other ≠ file → lastNamed (build.fileName other) (GitHub.removeAsset asset.id current).assets =
      lastNamed (build.fileName other) current.assets := by
    intro other different
    apply lastNamed_filter
    intro one within title
    rw [decide_eq_true_eq]
    intro same
    rw [(alone current around.member one within same).2, named] at title
    exact different (build.fileName_inj title).symm
  refine ⟨here, GitHub.removeAsset asset.id current, around.edit rfl ⟨rfl, rfl, rfl, rfl⟩ (fun _ => rfl) ?_, ?_, ?_, filling.nodup⟩
  · intro other member away
    have all : (other.assets.filter fun one => one.id ≠ asset.id) = other.assets := by
      rw [List.filter_eq_self]
      intro one within
      rw [decide_eq_true_eq]
      exact fun same => away (alone other member one within same).1
    rw [GitHub.removeAsset, all]
  · intro other member away
    rw [Build.Filled, kept other fun same => away (same ▸ List.mem_cons_self)]
    exact filling.filled other member away
  · intro other member
    rw [kept other fun same => (List.nodup_cons.mp filling.nodup).1 (same ▸ member)]
    exact filling.seen other member

private theorem Follows.uploads {seen : List Asset} {file : File} {files : List File} (proper : after.Proper)
    (follows : (Phase.upload plan release seen file files).Follows github)
    (done : github.upload release.id (build.fileName file) (plan.fileBytes file) = some after) :
    (Phase.proceed plan release seen files).Follows after := by
  obtain ⟨here, current, around, filling⟩ := follows
  obtain ⟨_, _, _, made⟩ := GitHub.attach_some done
  obtain ⟨fresh, nodup⟩ := List.nodup_cons.mp filling.nodup
  have releases : after.releases = github.releases.map fun one => if one.id = release.id then { one with
      assets := one.assets ++ [⟨github.next, build.fileName file, .uploaded, plan.fileBytes file, true⟩] } else one := by
    rw [made]
    rfl
  have pages : after.pages = github.pages := by
    rw [made]
    rfl
  have edited := around.edit releases
    (by rw [if_pos around.id]; exact ⟨rfl, rfl, rfl, rfl⟩) (fun one => by split <;> rfl) (fun other _ away => if_neg away)
  rw [if_pos around.id] at edited
  apply Follows.proceed proper (here.trans pages.symm) edited
  refine ⟨?_, ?_, nodup⟩
  · intro other member away
    rw [Build.Filled, lastNamed_append]
    split
    · exact ⟨_, rfl, nofun⟩
    · next different =>
      apply filling.filled other member
      intro among
      rcases List.mem_cons.mp among with rfl | later
      · exact different rfl
      · exact away later
  · intro other member
    rw [lastNamed_append, if_neg]
    · exact filling.seen other member
    · intro same
      exact fresh (build.fileName_inj same ▸ member)

private theorem Follows.publishes (proper : after.Proper) (follows : (Phase.undraft plan release).Follows github)
    (done : github.publishRelease release.id plan.prerelease = some after) : (Phase.complete plan).Follows after := by
  obtain ⟨here, current, around, filled⟩ := follows
  obtain ⟨_, _, releases, _, pages⟩ := GitHub.publishRelease_some done
  have member : { current with draft := false, prerelease := plan.prerelease } ∈ after.releases := by
    rw [releases]
    refine List.mem_map.mpr ⟨current, around.member, ?_⟩
    rw [if_pos around.id]
  apply Follows.complete proper (here.trans pages.symm) ⟨around.unambiguous, member, around.tag, rfl, rfl, filled⟩
  intro dev other away
  have apart : other.id ≠ release.id := fun same => away (same.trans around.id.symm)
  rw [← around.others dev other apart, releases, List.mem_map]
  constructor
  · rintro ⟨old, there, rfl⟩
    split at apart
    · next same => exact absurd same apart
    · next other => rw [if_neg other]; exact there
  · intro there
    exact ⟨other, there, if_neg apart⟩

private theorem Follows.swept (valid : github.Valid) (listing : ∀ release ∈ plan.listed, github.Named release) (dev : build.channel = .dev) (top : github.pages.top = plan.snapshot)
    (released : plan.Released github current)
    (others : build.channel = .dev → ∀ other : Release, other.id ≠ current.id → (other ∈ github.releases ↔ other ∈ plan.listed)) :
    plan.Sweeping github ((plan.listed.filter fun release => plan.obsolete release.tag).map Release.id)
      (github.matchingRefs.filter fun tag => plan.obsolete tag) := by
  refine ⟨dev, top, ⟨current, released⟩, ?_, ?_, ?_⟩
  · intro one member _ named
    by_cases same : one.id = current.id
    · exact absurd (((listing one member).2 current released.member same.symm).symm.trans released.tag) named
    · exact (others dev one same).mpr member
  · intro one member old
    have away : one.id ≠ current.id := by
      intro same
      rw [valid.release_same one member current released.member same, released.tag, plan.obsolete_own] at old
      cases old
    exact List.mem_map_of_mem (List.mem_filter.mpr ⟨(others dev one away).mp member, old⟩)
  · intro tag member old
    refine List.mem_filter.mpr ⟨List.mem_filter.mpr ⟨member, ?_⟩, old⟩
    have generated := (Plan.obsolete_iff.mp old).1
    simp only [devTag, Bool.and_eq_true] at generated
    exact generated.1.1.1.2

/-- One request of a run that is alone. -/
theorem Follows.step (proper : github.Proper) (proper' : after.Proper) (sane : phase.Sane github) (follows : phase.Follows github)
    (done : phase.effect github = some after) : (phase.resume github).Follows after := by
  cases phase with
  | find | list | ref | stable | dev =>
    cases done
    obtain ⟨reading, knows, unambiguous⟩ := follows
    refine knows.resume reading (fun _ reading knows => Follows.reads reading knows unambiguous) trivial ?_ ?_
    · intro never plan exact_plan here
      exact absurd here (never plan exact_plan)
    · intro plan exact_plan here
      exact Follows.enter exact_plan here unambiguous
  | create plan =>
    cases done
    obtain ⟨exact_plan, here, unambiguous⟩ := follows
    exact Follows.created exact_plan here unambiguous
  | assets plan release number seen =>
    cases done
    exact Follows.listed proper follows
  | clear plan release seen asset file files => exact Follows.clears proper.valid follows done
  | verify plan release seen asset files =>
    cases done
    obtain ⟨here, current, around, filling⟩ := follows
    dsimp only [Phase.resume]
    split
    · trivial
    · split
      · trivial
      · exact Follows.proceed proper here around filling
  | upload plan release seen file files => exact Follows.uploads proper' follows done
  | undraft plan release => exact Follows.publishes proper' follows done
  | base plan | tree plan | commit plan =>
    cases done
    exact follows
  | reference plan =>
    obtain ⟨here, current, released, others⟩ := follows
    obtain ⟨releases, _, pages, _⟩ := GitHub.push_some done
    have top : after.pages.top = plan.snapshot := by
      rw [pages]
      rfl
    refine Follows.prune proper' top ⟨released.unambiguous, ?_, released.tag, released.draft, released.kind, released.filled⟩ ?_
    · rw [releases]
      exact released.member
    · rw [releases]
      exact others
  | refs plan =>
    cases done
    obtain ⟨top, current, released, others⟩ := follows
    exact Follows.sweep proper (Follows.swept proper.valid sane.listing sane.formed top released others)
  | deleteRelease plan release releases tags =>
    cases done
    obtain ⟨_, old, _⟩ := sane.formed
    obtain ⟨listed, obsolete⟩ := old release List.mem_cons_self
    apply Follows.sweep proper'
    apply Plan.Sweeping.deleteRelease follows
    intro one member same
    rw [(sane.listing release listed).2 one member same]
    exact obsolete
  | deleteRef plan tag tags =>
    obtain ⟨_, old⟩ := sane.formed
    have sweeping : plan.Sweeping after (([] : List Release).map Release.id) tags :=
      Plan.Sweeping.deleteRef follows (old tag List.mem_cons_self) done
    exact Follows.sweep proper' sweeping
  | done =>
    cases done
    exact follows
  | stopped => trivial

end Step

end Phase

namespace Job
variable {build : Build host} {github : GitHub}

/-- What holds of a run that is alone. -/
structure Follows (build : Build host) (github : GitHub) (job : Job host) : Prop where
  proper : github.Proper
  same : job.build = build
  undisturbed : job.Undisturbed github
  follows : job.phase.Follows github

private theorem Follows.move {job : Job host} (follows : job.Follows build github) (outcome : Phase.Outcome) :
    (job.move outcome github).2.phase = .stopped ∨ (job.move outcome github).2.Follows build (job.move outcome github).1 := by
  obtain ⟨proper, rfl, undisturbed, progress⟩ := follows
  have proper' := (move_advances proper undisturbed outcome).proper
  rcases move_cases outcome github job with ⟨same, stays | stops⟩ | ⟨after, done, same, served | lost⟩ | left
  · rw [same, stays]
    exact .inr ⟨proper, rfl, undisturbed, progress⟩
  · rw [stops]
    exact .inl rfl
  · rw [same] at proper' ⊢
    rw [served]
    refine .inr ⟨proper', rfl, ⟨undisturbed.1.step proper.valid done, undisturbed.2.step proper undisturbed.1 done⟩, ?_⟩
    exact progress.step proper proper' undisturbed.1 done
  · rw [lost]
    exact .inl rfl
  · obtain ⟨_, _, _, _, _, _, _, _, _, _, stops⟩ := left
    rw [stops]
    exact .inl rfl

end Job

/-- A run that is done leaves nothing to do for another one of its build. -/
theorem Job.done_idle {github : GitHub} (proper : github.Proper) (unambiguous : github.pages.top.Unambiguous host) (build : Build host)
    {outcomes : List Phase.Outcome} (done : (Job.run outcomes (github, ⟨build, .find⟩)).2.phase = .done) :
    (Job.run outcomes (github, ⟨build, .find⟩)).1.Idle build := by
  have preserves : ∀ outcome (state : GitHub × Job host), state.2.phase = .stopped ∨ state.2.Follows build state.1 →
      (Job.move outcome state.1 state.2).2.phase = .stopped ∨
        (Job.move outcome state.1 state.2).2.Follows build (Job.move outcome state.1 state.2).1 := by
    rintro outcome ⟨shared, job⟩ (stopped | follows)
    · change job.phase = .stopped at stopped
      rw [Job.move_finished outcome (by rw [Job.finished, stopped]; rfl)]
      exact .inl stopped
    · exact follows.move outcome
  have start : (⟨build, .find⟩ : Job host).Follows build github :=
    ⟨proper, rfl, ⟨Phase.Sane.find github, trivial, nofun⟩, rfl, trivial, unambiguous⟩
  rcases Run.invariant preserves outcomes (github, ⟨build, .find⟩) (.inr start) with stopped | follows
  · cases done.symm.trans stopped
  · obtain ⟨_, same, _, progress⟩ := follows
    change Phase.Follows _ (Job.run outcomes (github, ⟨build, .find⟩)).2.phase at progress
    rw [done] at progress
    change GitHub.Idle _ (Job.run outcomes (github, ⟨build, .find⟩)).2.build at progress
    change (Job.run outcomes (github, ⟨build, .find⟩)).2.build = build at same
    rw [same] at progress
    exact progress

/-- A build that is published again right after a run of it was done: whatever becomes of the requests of the second run, none of
them asks for a change, and GitHub stays as it is. -/
theorem publish_again {github : GitHub} (proper : github.Proper) (coherent : github.pages.top.Coherent host) (build : Build host)
    {outcomes : List Phase.Outcome} (done : (Job.run outcomes (github, ⟨build, .find⟩)).2.phase = .done) (again : List Phase.Outcome) :
    (Job.run again ((Job.run outcomes (github, ⟨build, .find⟩)).1, ⟨build, .find⟩)).1 = (Job.run outcomes (github, ⟨build, .find⟩)).1 ∧
      (Job.run again ((Job.run outcomes (github, ⟨build, .find⟩)).1, ⟨build, .find⟩)).2.phase.modifies = false := by
  apply Job.still_run
  exact Job.done_idle proper coherent.unambiguous build done

section Nightly

def Phase.completed {build : Build host} : Phase build → Bool
  | .done => true
  | _ => false

theorem Phase.completed_done {build : Build host} {phase : Phase build} (completed : phase.completed = true) : phase = .done := by
  cases phase with
  | done => rfl
  | _ => cases completed

theorem outdated_proper : outdated.Proper := by
  refine ⟨outdated_valid, ?_, ?_⟩
  · unfold GitHub.Single
    decide
  · decide

theorem outdated_coherent : outdated.pages.top.Coherent nightlyHost := by
  unfold Snapshot.Coherent
  decide +kernel

private theorem nightly_done : (Job.run (List.replicate 17 .served) (outdated, ⟨nightlyBuild, .find⟩)).2.phase.completed = true := by decide +kernel

theorem publish_again_nightly : (Job.run (List.replicate 20 .served)
    ((Job.run (List.replicate 17 .served) (outdated, ⟨nightlyBuild, .find⟩)).1, ⟨nightlyBuild, .find⟩)).2.phase.modifies = false := by
  have done := Phase.completed_done nightly_done
  exact (publish_again outdated_proper outdated_coherent nightlyBuild done (List.replicate 20 .served)).2

end Nightly

end ArduinoK210.Publish
