import ArduinoK210.Publish.Rerun

/-! The retention of development snapshots: which entries of the indexes a run spares, which releases and tags it takes away, that the
newest snapshot never goes back, and that a run leaves nothing to do for the same one again. Where a package lists a version of an
architecture more than once, the first entry counts. -/

namespace ArduinoK210.Publish

variable {host : Host}

/-- The entry is of another package or architecture, or its download tag is not a generated one. -/
def Spared (unicode : Unicode) (repository name architecture package : Text) (entry : Platform) : Prop :=
  package ≠ name ∨ entry.architecture ≠ architecture ∨ devTag unicode (downloadTag repository entry) = false

instance (unicode : Unicode) (repository name architecture package : Text) (entry : Platform) :
    Decidable (Spared unicode repository name architecture package entry) := inferInstanceAs (Decidable (_ ∨ _ ∨ _))

/-- The entries that no run of the board package may drop. -/
abbrev Host.Spares (host : Host) (package : Text) (entry : Platform) : Prop :=
  Spared host.unicode host.repository host.template.name host.template.architecture package entry

section Retain
variable {unicode : Unicode} {repository name architecture : Text}

private theorem Spared.current {entry : Platform} (spared : Spared unicode repository name architecture name entry) (latest : Option Text) :
    entry.obsolete unicode repository architecture latest = false := by
  rw [Bool.eq_false_iff]
  intro old
  obtain ⟨here, generated⟩ := snapshot_iff.mp (obsolete_iff.mp old).1
  rcases spared with other | other | manual
  · exact other rfl
  · exact other here
  · rw [manual] at generated
    cases generated

/-- What `retain_latest_dev` may not drop it keeps, in whatever index. -/
theorem retainLatestDev_spares {packages kept : List Package} {latest : Option Text}
    (done : retainLatestDev unicode repository name architecture packages = some (kept, latest)) {package : Package}
    (member : package ∈ packages) {entry : Platform} (there : entry ∈ package.platforms)
    (spared : Spared unicode repository name architecture package.name entry) :
    ∃ later ∈ kept, later.name = package.name ∧ entry ∈ later.platforms := by
  induction packages generalizing kept with
  | nil => cases member
  | cons head packages ih =>
    rw [retainLatestDev] at done
    split at done
    · next own =>
      cases done
      rcases List.mem_cons.mp member with rfl | later
      · rw [own] at spared
        refine ⟨_, List.mem_cons_self, rfl, List.mem_filter.mpr ⟨there, ?_⟩⟩
        rw [spared.current]
        rfl
      · exact ⟨package, List.mem_cons_of_mem _ later, rfl, there⟩
    · obtain ⟨⟨rest, last⟩, found, same⟩ := Option.map_eq_some_iff.mp done
      cases same
      rcases List.mem_cons.mp member with rfl | later
      · exact ⟨package, List.mem_cons_self, rfl, there⟩
      · obtain ⟨one, among, named, inside⟩ := ih found later
        exact ⟨one, List.mem_cons_of_mem _ among, named, inside⟩

end Retain

/-- Under the key there is still the entry, or the build if the entry was of its version and had its checksum. -/
def Index.Keeps (index : Index) (build : Build host) (name : Text) (key : Text × Text) (entry : Platform) : Prop :=
  index.find name key = some entry ∨
    name = host.template.name ∧ key = build.platform.key ∧ entry.checksum = build.platform.checksum ∧
      index.find name key = some build.platform

/-- What the indexes before the build was published become: an entry that is not spared may make room, and from the development
index alone. -/
structure Snapshot.Spares (build : Build host) (before after : Snapshot) : Prop where
  dev : ∀ name key entry, before.dev.find name key = some entry → host.Spares name entry → after.dev.Keeps build name key entry
  stable : ∀ name key entry, before.stable.find name key = some entry → after.stable.Keeps build name key entry

structure Snapshot.Distinct (snapshot : Snapshot) : Prop where
  stable : ∀ name, Unique name snapshot.stable.packages
  dev : ∀ name, Unique name snapshot.dev.packages

/-- The newest generated tag that the development index references for a package and architecture. -/
def Snapshot.latest (host : Host) (snapshot : Snapshot) (name architecture : Text) : Option Text :=
  latestDev host.unicode host.repository architecture (snapshot.dev.named name)

namespace Plan
variable {build : Build host} (plan : Plan build)

private theorem spares : Snapshot.Spares build plan.parent.top plan.snapshot := by
  -- the build takes the place of an entry of its own version only if `agrees` has found the same checksum there
  have bytes : ∀ entry ∈ plan.parent.top.entries host.template.name, entry.key = build.platform.key →
      entry.checksum = build.platform.checksum := fun entry member same => Build.agrees_key plan.agrees member same
  constructor
  · intro name key entry found spared
    obtain ⟨member, rfl⟩ := Index.find_some found
    by_cases own : name = host.template.name ∧ entry.key = build.platform.key
    · obtain ⟨rfl, same⟩ := own
      refine .inr ⟨rfl, same, bytes entry (List.mem_append_right _ member) same, ?_⟩
      rw [same]
      exact plan.own_found
    · have first : plan.first name entry.key = some entry := by
        rw [Plan.first, Build.find_other own, Option.none_or, found, Option.some_or]
      refine .inl ?_
      change plan.dev.find name entry.key = some entry
      rw [plan.dev_find, first, Option.filter_some, if_pos]
      by_cases here : name = host.template.name
      · subst here
        rw [spared.current, Bool.and_false]
        rfl
      · rw [decide_eq_false here]
        rfl
  · intro name key entry found
    obtain ⟨member, rfl⟩ := Index.find_some found
    rcases plan.stable_find name entry.key with same | ⟨_, merged⟩
    · exact .inl (same.trans found)
    · by_cases own : name = host.template.name ∧ entry.key = build.platform.key
      · obtain ⟨rfl, same⟩ := own
        rw [Build.find_index, if_pos same.symm, Option.some_or] at merged
        exact .inr ⟨rfl, same, bytes entry (List.mem_append_left _ member) same, merged⟩
      · rw [Build.find_other own, Option.none_or, found] at merged
        exact .inl merged

private theorem distinct (apart : plan.parent.top.Distinct) : plan.snapshot.Distinct := by
  have own : ∀ name, Unique name build.index.packages := by
    intro name
    change ((build.index.named name).map Platform.key).Nodup
    rw [Build.named_index]
    split
    · exact List.nodup_singleton _
    · exact List.nodup_nil
  constructor
  · intro name
    rw [snapshot]
    cases released : plan.stable with
    | none => exact apart.stable name
    | some index =>
      have done := plan.stabilized
      rw [released, Build.stabilize] at done
      split at done
      · cases done
      · obtain ⟨made, merging, same⟩ := Option.map_eq_some_iff.mp done
        cases same
        refine merged_distinct (fun source among => ?_) merging
        rcases List.mem_cons.mp among with rfl | rest
        · exact own name
        · cases List.mem_singleton.mp rest
          exact apart.stable name
  · intro name
    obtain ⟨merged, made⟩ := plan.merged
    have all : Unique name merged.packages := by
      refine merged_distinct (fun source among => ?_) made.done
      rcases List.mem_cons.mp among with rfl | rest
      · exact own name
      · rcases List.mem_cons.mp rest with rfl | last
        · exact apart.dev name
        · cases List.mem_singleton.mp last
          exact apart.stable name
    change ((plan.dev.named name).map Platform.key).Nodup
    rw [made.named]
    split
    · next same =>
      subst same
      exact (List.Sublist.map Platform.key List.filter_sublist).nodup all
    · exact all

end Plan

section Worlds
variable {stamp : Text → Text} {allowed : Build host → Prop} {world : World host}

/-- The turn leaves the indexes as they are, or it is one of a run whose build spares what it may not drop. -/
def World.Spares (turn : Turn host) (world : World host) : Prop :=
  (World.next turn world).top = world.top ∨ ∃ index outcome job, turn = .act index outcome ∧ world.processes[index]? = some job ∧
    Snapshot.Spares job.build world.top (World.next turn world).top

private theorem World.Sound.spares (sound : world.Sound allowed) (turn : Turn host) : World.Spares turn world := by
  cases turn with
  | start job => exact .inl rfl
  | act index outcome =>
    dsimp only [World.Spares, World.next, Interleave.step]
    split
    · exact .inl rfl
    · next job there =>
      have sane := (sound.2 job (List.mem_of_getElem? there)).1
      rcases Job.move_pages sane outcome with same | ⟨plan, _, from_parent, moved⟩
      · exact .inl (congrArg Commit.top same)
      · have top : (job.move outcome world.shared).1.pages.top = plan.snapshot := congrArg Commit.top moved
        refine .inr ⟨index, outcome, job, rfl, there, ?_⟩
        change Snapshot.Spares job.build world.shared.pages.top (job.move outcome world.shared).1.pages.top
        rw [top, ← from_parent]
        exact plan.spares

/-- Entries of other packages and architectures stay, and the newest snapshot of the board package makes room for a newer one alone. -/
theorem World.Sound.latest_kept {turns : List (Turn host)} (sound : world.Sound (Stamped stamp)) (genuine : world.top.Genuine host stamp)
    (apart : world.top.Distinct) (opened : World.Open (Stamped stamp) turns world) {name architecture tag : Text}
    (newest : world.top.latest host name architecture = some tag) :
    ∃ later, (World.after turns world).top.latest host name architecture = some later ∧ tag ≤ later := by
  by_cases own : name = host.template.name ∧ architecture = host.template.architecture
  · obtain ⟨rfl, rfl⟩ := own
    exact sound.never_older genuine (apart.dev _) opened newest
  · obtain ⟨⟨entry, member, is, same⟩, _⟩ := latestDev_spec newest
    have found : world.top.dev.find name entry.key = some entry := Keyed.find_nodup (apart.dev name) member
    have foreign : name ≠ host.template.name ∨ entry.key.1 ≠ host.template.architecture := by
      have here : entry.architecture = architecture := (snapshot_iff.mp is).1
      by_cases named : name = host.template.name
      · exact .inr fun equal => own ⟨named, here.symm.trans equal⟩
      · exact .inl named
    have kept := (sound.foreign opened foreign).1 entry found
    obtain ⟨later, top, bound⟩ := latestDev_bound (Index.find_some kept).1 is
    exact ⟨later, top, same.ge.trans bound⟩

/-- The retention of development snapshots. `retain_latest_dev` and every turn of runs in any order spare what they may not drop, and
only superseded releases and tags go away; the newest tag of a package and architecture never goes back, if the indexes list nothing
twice and checksums tell tags; and a run that is done issues no request that modifies anything when it is repeated, if the indexes it
found gave the version of a generated snapshot no other download tag. -/
theorem dev_retention {github : GitHub} (proper : github.Proper) {front back : List (Turn host)} {turn : Turn host}
    (opened : World.Open allowed (front ++ turn :: back) (World.initial github)) :
    (∀ name architecture packages kept latest,
      retainLatestDev host.unicode host.repository name architecture packages = some (kept, latest) →
      ∀ package ∈ packages, ∀ entry ∈ package.platforms, Spared host.unicode host.repository name architecture package.name entry →
        ∃ later ∈ kept, later.name = package.name ∧ entry ∈ later.platforms) ∧
    World.Spares turn (World.after front (World.initial github)) ∧
    Removes (World.Supersedes turn (World.after front (World.initial github))) (World.after front (World.initial github)).shared
      (World.next turn (World.after front (World.initial github))).shared ∧
    (∀ stamp, (∀ build, allowed build → Stamped stamp build) → github.pages.top.Genuine host stamp → github.pages.top.Distinct →
      ∀ name architecture tag, (World.after front (World.initial github)).top.latest host name architecture = some tag →
        ∃ later, (World.after (front ++ turn :: back) (World.initial github)).top.latest host name architecture = some later ∧
          tag ≤ later) ∧
    (github.pages.top.Unambiguous host → ∀ (build : Build host) (outcomes : List Phase.Outcome),
      (Job.run outcomes (github, ⟨build, .find⟩)).2.phase = .done → ∀ again,
        (Job.run again ((Job.run outcomes (github, ⟨build, .find⟩)).1, ⟨build, .find⟩)).2.phase.modifies = false) := by
  have before := World.Sound.after (World.initial_sound proper.valid) (opened.front (List.prefix_append front _))
  refine ⟨?_, before.spares turn, before.removes turn, ?_, ?_⟩
  · intro name architecture packages kept latest done package member entry there spared
    exact retainLatestDev_spares done member there spared
  · intro stamp stamped genuine apart name architecture tag newest
    have stamped_open := opened.mono stamped
    have sound : (World.initial github : World host).Sound (Stamped stamp) := World.initial_sound proper.valid
    have update : ∀ (other : Build host) (plan : Plan other), Stamped stamp other →
        plan.parent.top.Genuine host stamp ∧ plan.parent.top.Distinct → plan.snapshot.Genuine host stamp ∧ plan.snapshot.Distinct :=
      fun other plan stamped kept => ⟨plan.genuine_kept stamped kept.1, plan.distinct kept.2⟩
    obtain ⟨sound', genuine', apart'⟩ := @World.Sound.keeps _ _ _ (fun snapshot => snapshot.Genuine host stamp ∧ snapshot.Distinct)
      update _ sound (stamped_open.front (List.prefix_append front _)) ⟨genuine, apart⟩
    have whole : World.after (front ++ turn :: back) (World.initial github) =
        World.after (turn :: back) (World.after front (World.initial github)) :=
      Run.run_append World.next front (turn :: back) (World.initial github)
    rw [whole]
    exact sound'.latest_kept genuine' apart' stamped_open.back newest
  · intro unambiguous build outcomes done again
    exact (Job.still_run (Job.done_idle proper unambiguous build done) again).2

end Worlds

section Conflicts

/-- The host with files that are not empty. -/
def printingHost : Host := { nightlyHost with dumps := fun _ => [123, 125, 10] }

def printedBuild : Build printingHost := ⟨nightlyMetadata, archiveBytes, nightly_released⟩

private theorem printed_stamped : Stamped earlierStamp printedBuild := nightly_stamped

private theorem printed_opened : World.Open (Stamped earlierStamp) ([] ++ .start ⟨printedBuild, .find⟩ :: List.replicate 17 (.act 0 .served))
    (World.initial outdated) := ⟨⟨rfl, printed_stamped⟩, World.Open.acts 17 0 .served⟩

private theorem outdated_distinct : outdated.pages.top.Distinct := by
  constructor
  · intro name
    exact List.nodup_nil
  · intro name
    have listed : ([earlierPlatform, otherPlatform].map Platform.key).Nodup := by decide
    change ((Publish.named name [_]).map Platform.key).Nodup
    rw [named_cons, named_absent List.not_mem_nil, List.append_nil]
    split
    · exact listed
    · exact List.nodup_nil

private theorem printed_done : (Job.run (List.replicate 17 .served) (outdated, ⟨printedBuild, .find⟩)).2.phase.completed = true := by
  decide +kernel

theorem dev_retention_nightly :
    (∃ later, (World.after (.start ⟨printedBuild, .find⟩ :: List.replicate 17 (.act 0 .served)) (World.initial outdated)).top.latest
      printingHost printingHost.template.name printingHost.template.architecture = some later ∧ earlierTag ≤ later) ∧
    (Job.run (List.replicate 20 .served) ((Job.run (List.replicate 17 .served) (outdated, ⟨printedBuild, .find⟩)).1,
      ⟨printedBuild, .find⟩)).2.phase.modifies = false := by
  obtain ⟨_, _, _, monotone, again⟩ := dev_retention outdated_proper printed_opened
  refine ⟨?_, again outdated_coherent.unambiguous printedBuild _ (Phase.completed_done printed_done) _⟩
  exact monotone earlierStamp (fun _ stamped => stamped) outdated_genuine outdated_distinct _ _ _ (by decide +kernel)

def laterTag : Text := text "dev-20260101030405-0123456789ab"

def addressed (version tag checksum : Text) : Platform :=
  { architecture := text "K210"
    version := version
    url := some (releases (text "kendryte/arduino-k210") ++ tag ++ text "/k210.zip")
    checksum := checksum
    rest := [] }

def repeatedPlatform : Platform := { otherPlatform with checksum := text "SHA-256:01" }

/-- The archive of the build under a tag that is not a generated one. -/
def mirroredPlatform : Platform := addressed nightlyMetadata.version (text "mirror") printedBuild.platform.checksum

/-- Both indexes list version 1.0.0, under three tags. -/
def conflicting : GitHub :=
  { releases := []
    tags := []
    pages := [⟨⟨[⟨text "Kendryte", [], [addressed (text "1.0.0") (text "v1.0.0") (text "SHA-256:02")], []⟩]⟩,
      ⟨[⟨text "Kendryte", [], [addressed (text "1.0.0") earlierTag (text "SHA-256:00"),
        addressed (text "1.0.0") laterTag (text "SHA-256:03"), mirroredPlatform, otherPlatform, repeatedPlatform], []⟩]⟩⟩]
    next := 0 }

/-- The version of the build stands under the tag of a later snapshot. -/
def borrowed : GitHub :=
  { releases := []
    tags := []
    pages := [⟨Index.empty,
      ⟨[⟨text "Kendryte", [], [addressed nightlyMetadata.version laterTag printedBuild.platform.checksum], []⟩]⟩⟩]
    next := 0 }

abbrev published (github : GitHub) : GitHub × Job printingHost := Job.run (List.replicate 15 .served) (github, ⟨printedBuild, .find⟩)

abbrev GitHub.latestPrinted (github : GitHub) : Option Text :=
  github.pages.top.latest printingHost printingHost.template.name printingHost.template.architecture

/-- Of entries with one key a run keeps the first one, and its own before the old ones, so indexes that say two things of one version
lose entries that are no snapshots, go back to an older snapshot, and change once more when the same build is published again. -/
theorem dev_retention_conflicting :
    ((published conflicting).2.phase.completed = true ∧
      (∀ entry ∈ [repeatedPlatform, mirroredPlatform], printingHost.Spares printingHost.template.name entry ∧
        entry ∈ conflicting.pages.top.dev.named printingHost.template.name ∧
        entry ∉ (published conflicting).1.pages.top.dev.named printingHost.template.name) ∧
      conflicting.latestPrinted = some laterTag ∧ (published conflicting).1.latestPrinted = some printedBuild.tag ∧
      (Job.run (List.replicate 7 .served) ((published conflicting).1, ⟨printedBuild, .find⟩)).2.phase.modifies = true) ∧
    ((published borrowed).2.phase.completed = true ∧ borrowed.latestPrinted = some laterTag ∧
      (published borrowed).1.latestPrinted = some printedBuild.tag) ∧
    printedBuild.tag < laterTag := by
  decide +kernel

end Conflicts

end ArduinoK210.Publish
