import ArduinoK210.Lib.Interleave
import ArduinoK210.Publish.Growth

/-! What a run remembers of GitHub between two requests, and that it stays true whatever else happens there: the tags of the
releases it has read, the assets of the one it fills, and the commit its indexes were merged from. -/

namespace ArduinoK210.Publish

variable {host : Host}

namespace GitHub

/-- The release of the number has this tag as long as it exists. -/
def Named (github : GitHub) (release : Release) : Prop :=
  release.id < github.next ∧ ∀ current ∈ github.releases, current.id = release.id → current.tag = release.tag

/-- The asset is the one of its number, and the release of the number `id` keeps it once it is complete. -/
structure Seen (github : GitHub) (id : Nat) (asset : Asset) : Prop where
  fresh : asset.id < github.next
  same : ∀ current ∈ github.assets, current.id = asset.id → current = asset
  inside : ∀ release ∈ github.releases, release.id = id → asset.state ≠ .starter → asset ∈ release.assets

variable {github after : GitHub}

private theorem Named.grows {release : Release} (named : github.Named release) (grows : Grows github after) : after.Named release := by
  refine ⟨named.1.trans_le grows.next, fun current member same => ?_⟩
  obtain ⟨old, there, kept⟩ := grows.releases current member (same ▸ named.1)
  exact kept.tag.symm.trans (named.2 old there (kept.id.trans same))

theorem Seen.grows {id : Nat} {asset : Asset} (seen : github.Seen id asset) (bound : id < github.next) (grows : Grows github after) :
    after.Seen id asset := by
  refine ⟨seen.fresh.trans_le grows.next, ?_, ?_⟩
  · intro current member same
    exact seen.same current (grows.assets current member (same ▸ seen.fresh)) same
  · intro release member same completed
    obtain ⟨old, there, kept⟩ := grows.releases release member (same ▸ bound)
    exact kept.assets asset (seen.inside old there (kept.id.trans same) completed) completed

private theorem Valid.named (valid : github.Valid) {release : Release} (member : release ∈ github.releases) : github.Named release :=
  ⟨valid.release_fresh release member, fun current there same => congrArg Release.tag (valid.release_same current there release member same)⟩

theorem Valid.seen (valid : github.Valid) {release : Release} (member : release ∈ github.releases) {asset : Asset}
    (inside : asset ∈ release.assets) : github.Seen release.id asset := by
  have there := mem_assets.mpr ⟨release, member, inside⟩
  refine ⟨valid.asset_fresh asset there, ?_, ?_⟩
  · intro current here same
    obtain ⟨home, among, within⟩ := mem_assets.mp here
    exact (valid.asset_same home among release member current within asset inside same).2
  · intro other here same _
    rw [valid.release_same other here release member same]
    exact inside

end GitHub

def Known.releases {build : Build host} (known : Known build) : List Release := known.release.toList ++ known.listed

namespace Phase
variable {build : Build host}

section Rules
variable {P : Phase build → Prop}

theorem classified_rule {release : Option Release} {listed : List Release} (stopped : P .stopped)
    (ref : ∀ known : Known build, known.release = release → known.listed = listed → P (.ref known)) : P (classified release listed) := by
  unfold classified
  split
  · exact stopped
  · exact ref _ rfl rfl

theorem enter_rule {plan : Plan build} (create : plan.release = none → P (.create plan))
    (assets : ∀ release, plan.release = some release → P (.assets plan release 0 [])) : P (enter plan) := by
  unfold enter
  split
  · next none => exact create none
  · next release found => exact assets release found

theorem decide_rule {known : Known build} {parent : Commit} (stopped : P .stopped)
    (done : ∀ fresh latest, build.agrees parent.top = true → build.develop parent.top = some (fresh, latest) →
      build.superseded latest known.listed = true → P .done)
    (go : ∀ plan : Plan build, plan.toKnown = known → plan.parent = parent → P (enter plan)) : P (decide known parent) := by
  unfold decide
  split
  · next agrees =>
    split
    · exact stopped
    · next fresh latest developed =>
      split
      · split
        · exact stopped
        · exact go _ rfl rfl
      · next old => exact done fresh latest agrees developed (by simpa using old)
  · exact stopped

theorem prune_rule {plan : Plan build} (refs : build.channel = .dev → P (.refs plan)) (done : P .done) : P (prune plan) := by
  unfold prune
  split
  · next dev => exact refs dev
  · exact done

theorem complete_rule {plan : Plan build} (tree : plan.changed = true → plan.parent = [] → P (.tree plan))
    (base : plan.changed = true → P (.base plan)) (finish : plan.changed = false → P (prune plan)) : P (complete plan) := by
  unfold complete
  split
  · next changed =>
    split
    · next empty => exact tree changed empty
    · exact base changed
  · next unchanged => exact finish (by simpa using unchanged)

/-- The rest of the files: the archive is among them or `R`, which a completed asset with its bytes gives. -/
theorem proceed_rule {plan : Plan build} {release : Release} {seen : List Asset} {R : Prop} (files : List File)
    (ready : .archive ∈ files ∨ R)
    (found : ∀ asset ∈ seen, asset.name = build.archiveName → asset.state = .uploaded →
      host.sha256 asset.content = host.sha256 build.archive → R)
    (stopped : P .stopped)
    (undraft : R → release.draft = true → P (.undraft plan release))
    (last : R → release.draft = false → P (complete plan))
    (upload : ∀ file rest, .archive ∈ file :: rest ∨ R → P (.upload plan release seen file rest))
    (clear : ∀ asset ∈ seen, asset.state = .starter → ∀ file rest, .archive ∈ file :: rest ∨ R →
      P (.clear plan release seen asset file rest))
    (verify : ∀ asset ∈ seen, asset.name = build.archiveName → asset.state = .uploaded → ∀ rest, P (.verify plan release seen asset rest)) :
    P (proceed plan release seen files) := by
  induction files with
  | nil =>
    have given : R := ready.resolve_left (List.not_mem_nil)
    unfold proceed
    split
    · next draft => exact undraft given draft
    · next published => exact last given (by simpa using published)
  | cons file files ih =>
    unfold proceed
    split
    · exact upload file files ready
    · next asset picked =>
      have member : asset ∈ seen := List.mem_reverse.mp (List.mem_of_find?_eq_some picked)
      have named : asset.name = build.fileName file := by simpa using List.find?_some picked
      split
      · next starter => exact clear asset member starter file files ready
      · split
        · exact stopped
        · next complete =>
          have uploaded : asset.state = .uploaded := by
            by_contra other
            exact complete (.inl other)
          split
          · next archive =>
            subst archive
            split
            · exact verify asset member named uploaded files
            · split
              · exact stopped
              · next bytes => exact ih (.inr (found asset member named uploaded (by simpa using bytes)))
          · next other =>
            apply ih
            rcases ready with among | given
            · rcases List.mem_cons.mp among with same | later
              · exact absurd same.symm other
              · exact .inl later
            · exact .inr given

theorem sweep_rule {plan : Plan build} {releases : List Release} {tags : List Text}
    (deleteRelease : ∀ release rest, releases = release :: rest → P (.deleteRelease plan release rest tags))
    (deleteRef : ∀ tag rest, tags = tag :: rest → P (.deleteRef plan tag rest)) (done : P .done) : P (sweep plan releases tags) := by
  cases releases with
  | cons release rest => exact deleteRelease release rest rfl
  | nil =>
    cases tags with
    | cons tag rest => exact deleteRef tag rest rfl
    | nil => exact done

end Rules

def plan : Phase build → Option (Plan build)
  | .create plan | .assets plan .. | .clear plan .. | .verify plan .. | .upload plan .. | .undraft plan _ | .base plan | .tree plan
  | .commit plan | .reference plan | .refs plan | .deleteRelease plan .. | .deleteRef plan .. => some plan
  | _ => none

def target : Phase build → Option Release
  | .list found _ _ => found
  | .ref known | .stable known _ | .dev known _ => known.release
  | .create plan => plan.release
  | .assets _ release _ _ | .clear _ release _ _ _ _ | .verify _ release _ _ _ | .upload _ release _ _ _ | .undraft _ release => some release
  | _ => none

def listing : Phase build → List Release
  | .list _ _ listed => listed
  | .ref known | .stable known _ | .dev known _ => known.listed
  | phase => (phase.plan.map fun plan => plan.listed).getD []

def seen : Phase build → List Asset
  | .assets _ _ _ seen | .clear _ _ seen _ _ _ | .verify _ _ seen _ _ | .upload _ _ seen _ _ => seen
  | _ => []

def parent : Phase build → Option Commit
  | .stable _ parent | .dev _ parent => some parent
  | phase => phase.plan.map fun plan => plan.parent

/-- What the phase itself says of its arguments. -/
def Formed : Phase build → Prop
  | .create plan => plan.release = none
  | .clear _ _ seen asset _ _ => asset ∈ seen ∧ asset.state = .starter
  | .verify _ _ seen asset _ => asset ∈ seen ∧ asset.name = build.archiveName ∧ asset.state = .uploaded
  | .undraft _ release => release.draft = true
  | .base plan | .tree plan | .commit plan | .reference plan => plan.changed = true
  | .refs _ => build.channel = .dev
  | .deleteRelease plan release releases tags => build.channel = .dev ∧
      (∀ one ∈ release :: releases, one ∈ plan.listed ∧ plan.obsolete one.tag = true) ∧ ∀ tag ∈ tags, plan.obsolete tag = true
  | .deleteRef plan tag tags => build.channel = .dev ∧ ∀ one ∈ tag :: tags, plan.obsolete one = true
  | _ => True

structure Sane (github : GitHub) (phase : Phase build) : Prop where
  target : ∀ release ∈ phase.target, github.Named release ∧ release.tag = build.tag
  listing : ∀ release ∈ phase.listing, github.Named release
  seen : ∀ asset ∈ phase.seen, ∀ release ∈ phase.target, github.Seen release.id asset
  parent : ∀ commit ∈ phase.parent, commit <:+ github.pages
  formed : phase.Formed

variable {github after : GitHub} {phase : Phase build}

theorem Sane.grows (sane : phase.Sane github) (grows : GitHub.Grows github after) : phase.Sane after := by
  refine ⟨?_, ?_, ?_, ?_, sane.formed⟩
  · intro release member
    exact ⟨(sane.target release member).1.grows grows, (sane.target release member).2⟩
  · intro release member
    exact (sane.listing release member).grows grows
  · intro asset inside release member
    exact (sane.seen asset inside release member).grows (sane.target release member).1.1 grows
  · intro commit member
    exact (sane.parent commit member).trans grows.pages

private theorem Sane.idle (github : GitHub) (none : phase.plan = none ∧ phase.target = none ∧ phase.listing = [] ∧ phase.seen = [] ∧ phase.parent = none)
    (formed : phase.Formed) : phase.Sane github := by
  obtain ⟨_, target, listing, seen, parent⟩ := none
  refine ⟨?_, ?_, ?_, ?_, formed⟩
  · rw [target]
    nofun
  · rw [listing]
    nofun
  · rw [seen]
    nofun
  · rw [parent]
    nofun

theorem Sane.stopped (github : GitHub) : (.stopped : Phase build).Sane github :=
  Sane.idle github ⟨rfl, rfl, rfl, rfl, rfl⟩ trivial

private theorem Sane.done (github : GitHub) : (.done : Phase build).Sane github :=
  Sane.idle github ⟨rfl, rfl, rfl, rfl, rfl⟩ trivial

theorem Sane.find (github : GitHub) : (.find : Phase build).Sane github :=
  Sane.idle github ⟨rfl, rfl, rfl, rfl, rfl⟩ trivial

private theorem Sane.prune {plan : Plan build} (listing : ∀ release ∈ plan.listed, github.Named release) (parent : plan.parent <:+ github.pages) :
    (Phase.prune plan).Sane github := by
  apply prune_rule
  · intro dev
    refine ⟨nofun, listing, nofun, ?_, dev⟩
    intro commit member
    cases member
    exact parent
  · exact Sane.done github

private theorem Sane.complete {plan : Plan build} (listing : ∀ release ∈ plan.listed, github.Named release) (parent : plan.parent <:+ github.pages) :
    (Phase.complete plan).Sane github := by
  have given : ∀ commit ∈ (some plan.parent : Option Commit), commit <:+ github.pages := by
    intro commit member
    cases member
    exact parent
  apply complete_rule
  · intro changed _
    exact ⟨nofun, listing, nofun, given, changed⟩
  · intro changed
    exact ⟨nofun, listing, nofun, given, changed⟩
  · intro _
    exact Sane.prune listing parent

private theorem Sane.proceed {plan : Plan build} {release : Release} {seen : List Asset} (files : List File)
    (sane : (Phase.assets plan release 0 seen).Sane github) : (Phase.proceed plan release seen files).Sane github := by
  apply proceed_rule (R := True) files (.inr trivial) (fun _ _ _ _ _ => trivial)
  · exact Sane.stopped github
  · intro _ draft
    exact ⟨sane.target, sane.listing, nofun, sane.parent, draft⟩
  · intro _ _
    exact Sane.complete sane.listing (sane.parent _ rfl)
  · intro file rest _
    exact ⟨sane.target, sane.listing, sane.seen, sane.parent, trivial⟩
  · intro asset member starter file rest _
    exact ⟨sane.target, sane.listing, sane.seen, sane.parent, member, starter⟩
  · intro asset member named uploaded rest
    exact ⟨sane.target, sane.listing, sane.seen, sane.parent, member, named, uploaded⟩

private theorem Sane.decide {known : Known build} {parent : Commit} (sane : (Phase.stable known parent).Sane github) :
    (Phase.decide known parent).Sane github := by
  apply decide_rule (Sane.stopped github) (fun _ _ _ _ _ => Sane.done github)
  intro plan same from_parent
  subst same from_parent
  apply enter_rule
  · intro none
    exact ⟨sane.target, sane.listing, nofun, sane.parent, none⟩
  · intro release found
    refine ⟨?_, sane.listing, nofun, sane.parent, trivial⟩
    intro one member
    cases member
    exact sane.target release found

private theorem Sane.classified {release : Option Release} {listed : List Release}
    (target : ∀ one ∈ release, github.Named one ∧ one.tag = build.tag) (listing : ∀ one ∈ listed, github.Named one) :
    (Phase.classified release listed : Phase build).Sane github := by
  apply classified_rule (Sane.stopped github)
  intro known first second
  refine ⟨?_, ?_, nofun, nofun, trivial⟩
  · rw [← first] at target
    exact target
  · rw [← second] at listing
    exact listing

private theorem Sane.sweep {plan : Plan build} {releases : List Release} {tags : List Text} (dev : build.channel = .dev)
    (listing : ∀ release ∈ plan.listed, github.Named release) (parent : plan.parent <:+ github.pages)
    (old : ∀ one ∈ releases, one ∈ plan.listed ∧ plan.obsolete one.tag = true) (old_tags : ∀ tag ∈ tags, plan.obsolete tag = true) :
    (Phase.sweep plan releases tags).Sane github := by
  have given : ∀ commit ∈ (some plan.parent : Option Commit), commit <:+ github.pages := by
    intro commit member
    cases member
    exact parent
  apply sweep_rule
  · intro release rest same
    exact ⟨nofun, listing, nofun, given, dev, same ▸ old, old_tags⟩
  · intro tag rest same
    exact ⟨nofun, listing, nofun, given, dev, same ▸ old_tags⟩
  · exact Sane.done github

theorem mem_page {α : Type} {number : Nat} {items : List α} {item : α} (member : item ∈ GitHub.page number items) : item ∈ items :=
  List.mem_of_mem_drop (List.mem_of_mem_take member)

private theorem Sane.found (valid : github.Valid) : ((Phase.find : Phase build).resume github).Sane github := by
  have target : ∀ release ∈ github.releaseByTag build.tag, github.Named release ∧ release.tag = build.tag := by
    intro release found
    obtain ⟨member, _, tag⟩ := GitHub.releaseByTag_some found
    exact ⟨valid.named member, tag⟩
  dsimp only [Phase.resume]
  split
  · exact ⟨target, nofun, nofun, nofun, trivial⟩
  · exact Sane.classified target nofun

/-- A page of the listing names releases of this repository, and the release of the tag may be among them. -/
theorem Sane.paged {found : Option Release} {number : Nat} {listed : List Release} (valid : github.Valid)
    (sane : (Phase.list found number listed : Phase build).Sane github) :
    ((Phase.list found number listed : Phase build).resume github).Sane github := by
  have listing : ∀ release ∈ listed ++ GitHub.page number github.releases, github.Named release := by
    intro release member
    rcases List.mem_append.mp member with old | new
    · exact sane.listing release old
    · exact valid.named (mem_page new)
  dsimp only [Phase.resume]
  split
  · apply Sane.classified _ listing
    intro release member
    rcases Option.or_eq_some_iff.mp member with first | ⟨_, second⟩
    · exact sane.target release first
    · refine ⟨listing release (List.mem_of_find?_eq_some second), ?_⟩
      simpa using List.find?_some second
  · exact ⟨sane.target, listing, nofun, nofun, trivial⟩

/-- A page of the assets was seen in the release that it belongs to. -/
theorem Sane.paged_assets {plan : Plan build} {release current : Release} {number : Nat} {seen : List Asset} (valid : github.Valid)
    (sane : (Phase.assets plan release number seen).Sane github) (found : github.release release.id = some current) :
    (Phase.assets plan release (number + 1) (seen ++ GitHub.page number current.assets)).Sane github := by
  obtain ⟨there, same⟩ := GitHub.release_some found
  refine ⟨sane.target, sane.listing, ?_, sane.parent, trivial⟩
  intro asset inside one member
  cases member
  rcases List.mem_append.mp inside with old | new
  · exact sane.seen asset old release rfl
  · exact same ▸ valid.seen there (mem_page new)

private theorem Sane.assets {plan : Plan build} {release : Release} {number : Nat} {seen : List Asset} (valid : github.Valid)
    (sane : (Phase.assets plan release number seen).Sane github) :
    ((Phase.assets plan release number seen).resume github).Sane github := by
  dsimp only [Phase.resume]
  split
  · exact Sane.stopped github
  · next current found =>
    have paged := sane.paged_assets valid found
    split
    · exact Sane.proceed _ ⟨paged.target, paged.listing, paged.seen, paged.parent, trivial⟩
    · exact paged

/-- Except for the release it creates, a run knows what it has read. -/
theorem Sane.resume (valid : github.Valid) (sane : phase.Sane github) (reads : ∀ plan, phase ≠ .create plan) :
    (phase.resume github).Sane github := by
  cases phase with
  | find => exact Sane.found valid
  | list found number listed => exact Sane.paged valid sane
  | ref known =>
    have given : (Phase.stable known github.pages).Sane github := by
      refine ⟨sane.target, sane.listing, nofun, ?_, trivial⟩
      intro commit member
      cases member
      exact List.suffix_refl _
    dsimp only [Phase.resume]
    split
    · next empty => exact Sane.decide (empty ▸ given)
    · exact given
  | stable known parent => exact ⟨sane.target, sane.listing, nofun, sane.parent, trivial⟩
  | dev known parent => exact Sane.decide ⟨sane.target, sane.listing, nofun, sane.parent, trivial⟩
  | create plan => exact absurd rfl (reads plan)
  | assets plan release number seen => exact Sane.assets valid sane
  | clear plan release seen asset file files => exact ⟨sane.target, sane.listing, sane.seen, sane.parent, trivial⟩
  | verify plan release seen asset files =>
    dsimp only [Phase.resume]
    split
    · exact Sane.stopped github
    · split
      · exact Sane.stopped github
      · exact Sane.proceed _ ⟨sane.target, sane.listing, sane.seen, sane.parent, trivial⟩
  | upload plan release seen file files => exact Sane.proceed _ ⟨sane.target, sane.listing, sane.seen, sane.parent, trivial⟩
  | undraft plan release => exact Sane.complete sane.listing (sane.parent _ rfl)
  | base plan => exact ⟨nofun, sane.listing, nofun, sane.parent, sane.formed⟩
  | tree plan => exact ⟨nofun, sane.listing, nofun, sane.parent, sane.formed⟩
  | commit plan => exact ⟨nofun, sane.listing, nofun, sane.parent, sane.formed⟩
  | reference plan => exact Sane.prune sane.listing (sane.parent _ rfl)
  | refs plan =>
    apply Sane.sweep sane.formed sane.listing (sane.parent _ rfl)
    · intro release member
      obtain ⟨listed, old⟩ := List.mem_filter.mp member
      exact ⟨listed, old⟩
    · intro tag member
      exact (List.mem_filter.mp member).2
  | deleteRelease plan release releases tags =>
    obtain ⟨dev, old, old_tags⟩ := sane.formed
    exact Sane.sweep dev sane.listing (sane.parent _ rfl) (fun one member => old one (List.mem_cons_of_mem release member)) old_tags
  | deleteRef plan tag tags =>
    obtain ⟨dev, old⟩ := sane.formed
    exact Sane.sweep dev sane.listing (sane.parent _ rfl) nofun fun one member => old one (List.mem_cons_of_mem tag member)
  | done => exact sane
  | stopped => exact sane

theorem effect_valid (valid : github.Valid) (done : phase.effect github = some after) : after.Valid := by
  cases phase with
  | create plan =>
    cases done
    exact GitHub.createRelease_valid valid build.tag plan.prerelease
  | clear plan release seen asset file files => exact (GitHub.deleteAsset_edit valid done).valid valid
  | upload plan release seen file files => exact (GitHub.attach_edit valid done).valid valid
  | undraft plan release => exact (GitHub.publishRelease_edit valid done).valid valid
  | reference plan => exact GitHub.push_valid valid done
  | deleteRelease plan release releases tags =>
    cases done
    exact GitHub.deleteRelease_valid valid release.id
  | deleteRef plan tag tags => exact (GitHub.deleteRef_edit valid done).valid valid
  | _ =>
    cases done
    exact valid

theorem effect_grows (valid : github.Valid) (sane : phase.Sane github) (done : phase.effect github = some after) :
    GitHub.Grows github after := by
  cases phase with
  | create plan =>
    cases done
    exact GitHub.createRelease_grows build.tag plan.prerelease
  | clear plan release seen asset file files =>
    apply GitHub.deleteAsset_grows valid done
    intro current member same
    obtain ⟨inside, starter⟩ := sane.formed
    rw [(sane.seen asset inside release rfl).same current member same]
    exact starter
  | upload plan release seen file files => exact GitHub.attach_grows valid done
  | undraft plan release => exact GitHub.publishRelease_grows valid done
  | reference plan => exact GitHub.push_grows done
  | deleteRelease plan release releases tags =>
    cases done
    exact GitHub.deleteRelease_grows release.id
  | deleteRef plan tag tags => exact GitHub.deleteRef_grows valid done
  | _ =>
    cases done
    exact GitHub.Grows.refl github

/-- What the run knows after its request. -/
theorem Sane.step (valid : github.Valid) (sane : phase.Sane github) (done : phase.effect github = some after) :
    (phase.resume github).Sane after := by
  by_cases created : ∃ plan, phase = .create plan
  · obtain ⟨plan, rfl⟩ := created
    cases done
    have valid' := GitHub.createRelease_valid valid build.tag plan.prerelease
    have grows : GitHub.Grows github (github.createRelease build.tag plan.prerelease) :=
      GitHub.createRelease_grows build.tag plan.prerelease
    refine ⟨?_, ?_, nofun, ?_, trivial⟩
    · intro release member
      cases member
      exact ⟨valid'.named List.mem_cons_self, rfl⟩
    · intro release member
      exact (sane.listing release member).grows grows
    · intro commit member
      exact (sane.parent commit member).trans grows.pages
  · have reads : ∀ plan, phase ≠ .create plan := fun plan same => created ⟨plan, same⟩
    exact (sane.resume valid reads).grows (effect_grows valid sane done)

/-- What a request can do: nothing, its effect, or leave an asset behind. -/
theorem step_cases (outcome : Outcome) : phase.step outcome github = (github, .stopped) ∨
    (∃ after, phase.effect github = some after ∧
      (phase.step outcome github = (after, phase.resume github) ∨ phase.step outcome github = (after, .stopped))) ∨
    ∃ plan release seen file files state content digested after, phase = .upload plan release seen file files ∧
      github.attach release.id (build.fileName file) state content digested = some after ∧
      phase.step outcome github = (after, .stopped) := by
  cases outcome with
  | served =>
    cases done : phase.effect github with
    | none => exact .inl (by simp [Phase.step, done])
    | some after => exact .inr (.inl ⟨after, rfl, .inl (by simp [Phase.step, done])⟩)
  | lost =>
    cases done : phase.effect github with
    | none => exact .inl (by simp [Phase.step, done])
    | some after => exact .inr (.inl ⟨after, rfl, .inr (by simp [Phase.step, done])⟩)
  | refused => exact .inl (by simp [Phase.step])
  | left state content digested =>
    cases phase with
    | upload plan release seen file files =>
      cases done : github.attach release.id (build.fileName file) state content digested with
      | none => exact .inl (by simp [Phase.step, done])
      | some after => exact .inr (.inr ⟨plan, release, seen, file, files, state, content, digested, after, rfl, done, by simp [Phase.step, done]⟩)
    | _ => exact .inl rfl

end Phase

end ArduinoK210.Publish
