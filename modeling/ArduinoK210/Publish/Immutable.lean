import ArduinoK210.Publish.CrashSafety
import ArduinoK210.Publish.Successive

/-! Versions and archives that do not change: what the indexes say of a version stays, and the bytes under a tag are never
replaced, for runs that follow one another and stop anywhere. -/

namespace ArduinoK210.Publish

variable {host : Host}

namespace Job
variable {github : GitHub} {job : Job host}

def Undisturbed (github : GitHub) (job : Job host) : Prop := job.phase.Sane github ∧ job.phase.Alone github

theorem move_finished (outcome : Phase.Outcome) (rest : job.finished = true) : job.move outcome github = (github, job) := by
  rw [move, if_pos rest]

theorem move_advances (proper : github.Proper) (undisturbed : job.Undisturbed github) (outcome : Phase.Outcome) :
    GitHub.Advances host github (job.move outcome github).1 := by
  obtain ⟨sane, alone⟩ := undisturbed
  rcases move_cases outcome github job with ⟨same, _⟩ | ⟨after, done, same, _⟩ | left
  · rw [same]
    exact GitHub.Advances.refl proper
  · rw [same]
    exact (Phase.effect_advances proper sane alone done).2
  · obtain ⟨plan, release, seen, file, files, state, content, digested, here, done, _⟩ := left
    rw [here] at sane alone
    have acts := GitHub.attach_acts proper.valid done (Phase.sought_tag sane rfl)
    exact acts.advances (alone.current plan rfl) (GitHub.attach_proper proper done) (GitHub.attach_grows proper.valid done)
      (GitHub.attach_keeps proper.valid done)

private theorem move_undisturbed (proper : github.Proper) (undisturbed : job.Undisturbed github) (outcome : Phase.Outcome) :
    (job.move outcome github).2.finished = true ∨ (job.move outcome github).2.Undisturbed (job.move outcome github).1 := by
  have next := move_sane proper.valid undisturbed.1 outcome
  obtain ⟨sane, alone⟩ := undisturbed
  rcases move_cases outcome github job with ⟨same, stays | stops⟩ | ⟨after, done, same, served | lost⟩ | left
  · rw [stays, same]
    exact .inr ⟨sane, alone⟩
  · rw [stops]
    exact .inl rfl
  · refine .inr ⟨next, ?_⟩
    rw [served, same]
    exact alone.step proper sane done
  · rw [lost]
    exact .inl rfl
  · obtain ⟨_, _, _, _, _, _, _, _, _, _, stops⟩ := left
    rw [stops]
    exact .inl rfl

end Job

abbrev World.Solo (world : World host) : Prop :=
  Interleave.Solo (fun job => job.finished = true) GitHub.Proper Job.Undisturbed world

section Worlds
variable {allowed : Build host → Prop} {world : World host}

private theorem World.Solo.next (turn : Turn host) (solo : world.Solo)
    (ok : Interleave.Serial (fun job => job.finished = true) turn world ∧ Interleave.Starts (Job.Fresh allowed) turn world) :
    (World.next turn world).Solo := by
  apply Interleave.Solo.step _ _ _ turn world solo ok
  · intro outcome github job rest
    exact Job.move_finished outcome rest
  · intro github job _ ⟨fresh, _⟩
    refine ⟨?_, ?_⟩
    · rw [fresh]
      exact Phase.Sane.find github
    · rw [fresh]
      exact ⟨trivial, nofun⟩
  · intro outcome github job proper undisturbed
    exact ⟨(Job.move_advances proper undisturbed outcome).proper, Job.move_undisturbed proper undisturbed outcome⟩

private theorem World.Solo.advances (turn : Turn host) (solo : world.Solo) :
    GitHub.Advances host world.shared (World.next turn world).shared := by
  cases turn with
  | start job => exact GitHub.Advances.refl solo.shared
  | act index outcome =>
    dsimp only [World.next, Interleave.step]
    split
    · exact GitHub.Advances.refl solo.shared
    · next job there =>
      rcases solo.active index job there with rest | ⟨undisturbed, _⟩
      · rw [Job.move_finished outcome rest]
        exact GitHub.Advances.refl solo.shared
      · exact Job.move_advances solo.shared undisturbed outcome

/-- What requests keep, runs that follow one another keep. -/
theorem World.Solo.keeps {kept : GitHub → Prop}
    (advance : ∀ github after : GitHub, github.Proper → GitHub.Advances host github after → kept github → kept after)
    {turns : List (Turn host)} (solo : world.Solo) (series : World.Series allowed turns world) (initial : kept world.shared) :
    (World.after turns world).Solo ∧ kept (World.after turns world).shared := by
  have preserves : ∀ turn (world : World host), world.Solo ∧ kept world.shared →
      (Interleave.Serial (fun job => job.finished = true) turn world ∧ Interleave.Starts (Job.Fresh allowed) turn world) →
      (World.next turn world).Solo ∧ kept (World.next turn world).shared :=
    fun turn world ⟨solo, still⟩ ok => ⟨solo.next turn ok, advance _ _ solo.shared (solo.advances turn) still⟩
  exact Run.Guarded.invariant preserves series ⟨solo, initial⟩

end Worlds

namespace GitHub
variable {github after : GitHub} {release : Release} {asset : Asset}

/-- What a client may get at the address of a file. -/
def Offers (github : GitHub) (tag name : Text) (asset : Asset) : Prop :=
  ∃ release ∈ github.releases, release.draft = false ∧ release.tag = tag ∧ asset ∈ release.assets ∧ asset.name = name

/-- An asset is put under the tag and the name of another, which no other release of the tag holds. -/
def Replaces (tag : Text) (asset : Asset) (github after : GitHub) : Prop :=
  ∃ release ∈ after.releases, release.tag = tag ∧ ∃ fresh ∈ release.assets, fresh ∉ github.assets ∧ fresh.name = asset.name ∧
    ¬∃ other ∈ after.releases, other.id ≠ release.id ∧ other.tag = tag ∧ asset ∈ other.assets

/-- The release still holds the asset, or its tag is past. -/
def Stored (host : Host) (release : Release) (asset : Asset) (github : GitHub) : Prop :=
  (∃ current ∈ github.releases, current.id = release.id ∧ current.tag = release.tag ∧ asset ∈ current.assets) ∨
    github.Past host release.tag

/-- No other release of the tag is published than this one. -/
structure Public (host : Host) (release : Release) (github : GitHub) : Prop where
  here : (∃ current ∈ github.releases, current.id = release.id ∧ current.tag = release.tag ∧ current.draft = false) ∨
    github.Past host release.tag
  alone : ∀ current ∈ github.releases, current.draft = false → current.tag = release.tag → current.id = release.id

private theorem Advances.stored (advances : Advances host github after) (uploaded : asset.state = .uploaded)
    (stored : Stored host release asset github) : Stored host release asset after := by
  rcases stored with ⟨current, member, same, tag, inside⟩ | past
  · by_cases past : after.Past host release.tag
    · exact .inr past
    · obtain ⟨later, there, kept, _⟩ := advances.keeps current member (tag ▸ past)
      refine .inl ⟨later, there, kept.id.symm.trans same, kept.tag.symm.trans tag, kept.assets asset inside ?_⟩
      rw [uploaded]
      nofun
  · exact .inr (advances.past _ past)

private theorem Advances.public (advances : Advances host github after) (before : github.Public host release) : after.Public host release := by
  have here : (∃ current ∈ after.releases, current.id = release.id ∧ current.tag = release.tag ∧ current.draft = false) ∨
      after.Past host release.tag := by
    rcases before.here with ⟨current, member, same, tag, published⟩ | past
    · by_cases past : after.Past host release.tag
      · exact .inr past
      · obtain ⟨later, there, kept, still⟩ := advances.keeps current member (tag ▸ past)
        exact .inl ⟨later, there, kept.id.symm.trans same, kept.tag.symm.trans tag, still published⟩
    · exact .inr (advances.past _ past)
  refine ⟨here, ?_⟩
  intro current member published tag
  rcases advances.published current member published with ⟨old, there, same, tag', published'⟩ | fresh
  · exact same.symm.trans (before.alone old there published' (tag'.trans tag))
  · rw [tag] at fresh
    obtain ⟨other, there, same, tag', published'⟩ := here.resolve_right fresh
    exact (advances.proper.single current member other there published published' (tag.trans tag'.symm)).trans same

/-- While its release exists, a completed asset stays in it. -/
theorem Advances.kept (advances : Advances host github after) (kept : release.id < github.next ∧ github.Seen release.id asset) :
    release.id < after.next ∧ after.Seen release.id asset :=
  ⟨kept.1.trans_le advances.grows.next, kept.2.grows kept.1 advances.grows⟩

/-- Nothing takes the place of an asset that is stored, or of one whose tag is past. -/
theorem Advances.not_replaces (advances : Advances host github after) (uploaded : asset.state = .uploaded)
    (stored : Stored host release asset github) : ¬Replaces release.tag asset github after := by
  rintro ⟨target, member, tag, fresh, inside, new, named, gone⟩
  have current := (advances.filled target member fresh inside).resolve_left new
  rw [tag] at current
  obtain ⟨old, there, same, tag', held⟩ := stored.resolve_right fun past => current (advances.past _ past)
  obtain ⟨later, here, kept, _⟩ := advances.keeps old there (tag' ▸ current)
  have still : asset ∈ later.assets := by
    apply kept.assets asset held
    rw [uploaded]
    nofun
  refine gone ⟨later, here, ?_, kept.tag.symm.trans tag', still⟩
  intro equal
  rw [advances.proper.valid.release_same later here target member equal] at still
  rw [advances.proper.distinct target member fresh inside asset still named] at new
  exact new (mem_assets.mpr ⟨old, there, held⟩)

private theorem Public.offers (alone : github.Public host release) (proper : github.Proper) (seen : github.Seen release.id asset)
    (uploaded : asset.state = .uploaded) {other : Asset} (offers : github.Offers release.tag asset.name other) : other = asset := by
  obtain ⟨current, member, published, tag, inside, named⟩ := offers
  refine proper.distinct current member other inside asset ?_ named
  apply seen.inside current member (alone.alone current member published tag)
  rw [uploaded]
  nofun

end GitHub

section Immutable
variable {allowed : Build host → Prop} {world : World host}

/-- A completed asset while further runs follow: its release keeps it, its address gives nothing else, and nothing takes its place. -/
structure World.Endures (turns : List (Turn host)) (world : World host) (release : Release) (asset : Asset) : Prop where
  kept : ∀ current ∈ (World.after turns world).shared.releases, current.id = release.id → asset ∈ current.assets
  offered : release.draft = false → ∀ other, (World.after turns world).shared.Offers release.tag asset.name other → other = asset
  placed : ∀ front turn back, turns = front ++ turn :: back →
    ¬GitHub.Replaces release.tag asset (World.after front world).shared (World.next turn (World.after front world)).shared

private theorem World.Solo.endures {turns : List (Turn host)} (solo : world.Solo) (series : World.Series allowed turns world) {release : Release}
    (member : release ∈ world.shared.releases) {asset : Asset} (inside : asset ∈ release.assets) (uploaded : asset.state = .uploaded) :
    World.Endures turns world release asset := by
  obtain ⟨after, _, seen⟩ := solo.keeps (fun _ _ _ advances kept => advances.kept kept) series
    ⟨solo.shared.valid.release_fresh release member, solo.shared.valid.seen member inside⟩
  refine ⟨?_, ?_, ?_⟩
  · intro current there same
    apply seen.inside current there same
    rw [uploaded]
    nofun
  · intro published other offers
    have start : world.shared.Public host release := by
      refine ⟨.inl ⟨release, member, rfl, rfl, published⟩, ?_⟩
      intro current there published' tag
      exact solo.shared.single current there release member published' published tag
    obtain ⟨_, alone⟩ := solo.keeps (fun _ _ _ advances before => advances.public before) series start
    exact alone.offers after.shared seen uploaded offers
  · rintro front turn back rfl
    have start : world.shared.Stored host release asset := .inl ⟨release, member, rfl, rfl, inside⟩
    obtain ⟨before, stored⟩ := solo.keeps (fun _ _ _ advances stored => advances.stored uploaded stored)
      (series.front (List.prefix_append front _)) start
    exact (before.advances turn).not_replaces uploaded stored

/-- An entry of the indexes while further runs follow: its version is listed with its checksum and with no other, or a turn has taken
it away as a snapshot that a newer one supersedes. -/
def World.Fixes (turns : List (Turn host)) (world : World host) (name : Text) (entry : Platform) : Prop :=
  ((World.after turns world).top.Lists name entry ∧
    ∀ other ∈ (World.after turns world).top.entries name, SameVersion other entry → other.checksum = entry.checksum) ∨
  ∃ front turn back, turns = front ++ turn :: back ∧
    Superseded host (World.after front world).top (World.next turn (World.after front world)).top name entry ∧
    ¬(World.next turn (World.after front world)).top.Lists name entry

private theorem World.Sound.fixes {turns : List (Turn host)} {name : Text} {entry : Platform} (sound : world.Sound allowed)
    (opened : World.Open allowed turns world) (conflictless : world.top.Conflictless) (member : entry ∈ world.top.entries name) :
    World.Fixes turns world name entry := by
  rcases sound.versions opened conflictless ⟨entry, member, ⟨rfl, rfl⟩, rfl⟩ with listed | gone
  · obtain ⟨_, after⟩ := sound.keeps (fun _ plan _ before => plan.conflictless before) opened conflictless
    refine .inl ⟨listed, fun other there same => ?_⟩
    obtain ⟨one, among, alike, bytes⟩ := listed
    exact (after name other there one among (same.trans alike.symm)).trans bytes
  · exact .inr gone

private theorem World.initial_solo {github : GitHub} (proper : github.Proper) : (World.initial github : World host).Solo := by
  refine ⟨proper, fun index job there => ?_⟩
  rw [World.initial, List.getElem?_nil] at there
  cases there

/-- Runs that follow one another and stop anywhere change neither the bytes of a version nor those of an archive. -/
theorem versions_immutable {github : GitHub} (proper : github.Proper) (conflictless : github.pages.top.Conflictless)
    {front back : List (Turn host)} (series : World.Series allowed (front ++ back) (World.initial github)) :
    (∀ name, ∀ entry ∈ (World.after front (World.initial github)).top.entries name,
      World.Fixes back (World.after front (World.initial github)) name entry) ∧
    ∀ release ∈ (World.after front (World.initial github)).shared.releases, ∀ asset ∈ release.assets, asset.state = .uploaded →
      World.Endures back (World.after front (World.initial github)) release asset := by
  have later := Run.Guarded.back series
  have early := Run.Guarded.front (List.prefix_append front back) series
  constructor
  · intro name entry member
    have sound : (World.initial github : World host).Sound allowed := World.initial_sound proper.valid
    obtain ⟨sound', still⟩ := sound.keeps (fun _ plan _ before => plan.conflictless before) (World.Series.opened early) conflictless
    exact sound'.fixes (World.Series.opened later) still member
  · intro release member asset inside uploaded
    obtain ⟨solo, _⟩ := @World.Solo.keeps _ _ _ (fun _ => True) (fun _ _ _ _ _ => trivial) _ (World.initial_solo proper) early trivial
    exact solo.endures later member inside uploaded

theorem versions_immutable_rerun :
    World.Fixes (rerun.drop 8) (World.after (rerun.take 8) (World.initial interrupted)) nightlyHost.template.name nightlyBuild.platform ∧
    ∀ release ∈ interrupted.releases, ∀ asset ∈ release.assets, asset.state = .uploaded →
      World.Endures (rerun.drop 8) (World.after (rerun.take 8) (World.initial interrupted)) release asset := by
  have proper : interrupted.Proper := by
    refine ⟨interrupted_valid, interrupted_single, ?_⟩
    decide
  have conflictless : interrupted.pages.top.Conflictless := fun name one member => absurd member List.not_mem_nil
  have series : World.Series (fun _ => True) (rerun.take 8 ++ rerun.drop 8) (World.initial interrupted) := by
    refine ⟨⟨fun _ member => absurd member List.not_mem_nil, rfl, trivial⟩, ?_⟩
    exact ⟨⟨trivial, trivial⟩, ⟨trivial, trivial⟩, ⟨trivial, trivial⟩, ⟨trivial, trivial⟩, ⟨trivial, trivial⟩, ⟨trivial, trivial⟩,
      ⟨trivial, trivial⟩, ⟨trivial, trivial⟩, trivial⟩
  have listed : nightlyBuild.platform ∈ (World.after (rerun.take 8) (World.initial interrupted)).top.entries nightlyHost.template.name := by
    decide +kernel
  have releases : (World.after (rerun.take 8) (World.initial interrupted)).shared.releases = interrupted.releases := rfl
  obtain ⟨entries, assets⟩ := versions_immutable proper conflictless series
  rw [releases] at assets
  exact ⟨entries _ _ listed, assets⟩

end Immutable

end ArduinoK210.Publish
