import ArduinoK210.Publish.Alone
import ArduinoK210.Publish.Versions

/-! The newest snapshot of the development index never goes back, so what a run finds superseded stays superseded while other
runs move the pages. This rests on archives that name their tag: no entry takes the place of one of another tag. -/

namespace ArduinoK210.Publish

variable {host : Host}

/-- The checksum tells the tag of the build, which `core_version.h` in the archive names. -/
def Stamped (stamp : Text → Text) (build : Build host) : Prop := stamp build.platform.checksum = build.tag

/-- The checksum of the entry is that of an archive of its tag. -/
def Genuine (host : Host) (stamp : Text → Text) (entry : Platform) : Prop := stamp entry.checksum = host.tagOf entry

/-- The snapshots of the board package that the indexes list are genuine. -/
def Snapshot.Genuine (host : Host) (stamp : Text → Text) (snapshot : Snapshot) : Prop :=
  ∀ entry ∈ snapshot.entries host.template.name, host.generated entry = true → Publish.Genuine host stamp entry

/-- The development index lists a snapshot that is not older than the tag. -/
def Snapshot.Newest (host : Host) (stamp : Text → Text) (tag : Text) (snapshot : Snapshot) : Prop :=
  ∃ entry, snapshot.dev.find host.template.name entry.key = some entry ∧ host.generated entry = true ∧
    Publish.Genuine host stamp entry ∧ tag ≤ host.tagOf entry

variable {stamp : Text → Text} {build : Build host}

theorem Build.tagOf_platform (build : Build host) : host.tagOf build.platform = build.tag := build.downloadTag_platform

private theorem Stamped.genuine (stamped : Stamped stamp build) : Genuine host stamp build.platform := stamped.trans build.tagOf_platform.symm

private theorem Genuine.tag {one other : Platform} (first : Genuine host stamp one) (second : Genuine host stamp other)
    (same : one.checksum = other.checksum) : host.tagOf one = host.tagOf other :=
  calc host.tagOf one = stamp one.checksum := first.symm
    _ = stamp other.checksum := congrArg stamp same
    _ = host.tagOf other := second

namespace Plan
variable {plan : Plan build} {tag : Text}

theorem genuine_kept (stamped : Stamped stamp build) (genuine : plan.parent.top.Genuine host stamp) : plan.snapshot.Genuine host stamp := by
  intro entry member is
  rcases plan.origin member with old | ⟨_, rfl⟩
  · exact genuine entry old is
  · exact stamped.genuine

/-- Before the retention there is still a snapshot that is not older: the build takes the place of one of its own tag alone. -/
theorem Merged.newest {merged : Index} (made : plan.Merged merged) (stamped : Stamped stamp build)
    (newest : plan.parent.top.Newest host stamp tag) :
    ∃ entry, merged.find host.template.name entry.key = some entry ∧ host.generated entry = true ∧ tag ≤ host.tagOf entry := by
  obtain ⟨entry, found, is, genuine, later⟩ := newest
  by_cases own : build.platform.key = entry.key
  · have member : entry ∈ plan.parent.top.entries host.template.name := List.mem_append_right _ (Index.find_some found).1
    have bytes := Build.agrees_key plan.agrees member own.symm
    have same := genuine.tag stamped.genuine bytes
    rw [same] at later
    refine ⟨build.platform, made.own, ?_, later⟩
    obtain ⟨_, generated⟩ := snapshot_iff.mp is
    change devTag host.unicode (host.tagOf entry) = true at generated
    rw [same] at generated
    exact snapshot_iff.mpr ⟨rfl, generated⟩
  · refine ⟨entry, ?_, is, later⟩
    rw [made.find, Build.find_index, if_neg own, Option.none_or, found, Option.some_or]

theorem newest_kept (stamped : Stamped stamp build) (genuine : plan.parent.top.Genuine host stamp)
    (newest : plan.parent.top.Newest host stamp tag) : plan.snapshot.Newest host stamp tag := by
  obtain ⟨merged, made⟩ := plan.merged
  obtain ⟨entry, found, is, later⟩ := made.newest stamped newest
  have genuine' := plan.genuine_kept stamped genuine
  have member := (Index.find_some found).1
  have listed : ∀ platform, plan.dev.find host.template.name platform.key = some platform → host.generated platform = true →
      tag ≤ host.tagOf platform → plan.snapshot.Newest host stamp tag := by
    intro platform there generated still
    exact ⟨platform, there, generated, genuine' platform (List.mem_append_right _ (Index.find_some there).1) generated, still⟩
  by_cases old : entry.obsolete host.unicode host.repository host.template.architecture plan.latest = true
  · obtain ⟨newer, _, generated, above, there⟩ := made.dropped member old
    exact listed newer there generated (later.trans above.le)
  · exact listed entry (made.kept member old) is later

/-- A development build is published only when no newer snapshot is listed. -/
theorem newest_le (stamped : Stamped stamp build) (dev : build.channel = .dev)
    (newest : plan.parent.top.Newest host stamp tag) : tag ≤ build.tag := by
  obtain ⟨merged, made⟩ := plan.merged
  obtain ⟨entry, found, is, later⟩ := made.newest stamped newest
  obtain ⟨latest, same, bound⟩ := latestDev_bound (Index.find_some found).1 is
  rw [← made.latest] at same
  exact later.trans (bound.trans (plan.latest_le dev same))

private theorem newest_own (stamped : Stamped stamp build) (dev : build.channel = .dev) : plan.snapshot.Newest host stamp build.tag := by
  refine ⟨build.platform, plan.own_found, Build.generated_platform.mpr dev, stamped.genuine, ?_⟩
  exact build.tagOf_platform.ge

/-- None of the entries is of a tag that the plan takes for obsolete. -/
def Clear (plan : Plan build) (snapshot : Snapshot) : Prop :=
  ∀ name, ∀ entry ∈ snapshot.entries name, plan.obsolete (host.tagOf entry) = false

/-- The plan has been carried out, and its tag is not newer than the newest one. -/
structure Settled (plan : Plan build) (stamp : Text → Text) (snapshot : Snapshot) : Prop where
  newest : snapshot.Newest host stamp build.tag
  clear : plan.Clear snapshot

theorem obsolete_iff {candidate : Text} : plan.obsolete candidate = true ↔
    devTag host.unicode candidate = true ∧ candidate < build.tag ∧ candidate ∉ plan.protectedTags := by
  simp only [obsolete, Bool.and_eq_true, decide_eq_true_eq, Bool.not_eq_true', List.contains_eq_mem, decide_eq_false_iff_not, and_assoc]

theorem tag_protected {index : Index} (among : index ∈ [plan.dev, plan.parent.top.stable]) {name : Text} {entry : Platform}
    (member : entry ∈ index.named name) : host.tagOf entry ∈ plan.protectedTags := by
  obtain ⟨package, inside, _, there⟩ := mem_named.mp member
  apply List.mem_append_left
  apply List.mem_append_left
  apply List.mem_flatMap.mpr
  refine ⟨index, among, ?_⟩
  exact List.mem_flatMap.mpr ⟨package, inside, List.mem_map_of_mem there⟩

/-- A development build leaves the stable index as it is. -/
theorem stable_dev (dev : build.channel = .dev) : plan.snapshot.stable = plan.parent.top.stable := by
  have prerelease : plan.prerelease = true := classify_dev dev plan.classified
  have done := plan.stabilized
  rw [Build.stabilize, if_pos prerelease] at done
  rw [snapshot, ← Option.some.inj done]
  rfl

private theorem clear_own (dev : build.channel = .dev) : plan.Clear plan.snapshot := by
  intro name entry member
  rw [Bool.eq_false_iff]
  intro old
  obtain ⟨_, _, unprotected⟩ := obsolete_iff.mp old
  apply unprotected
  rcases List.mem_append.mp member with stable | dev'
  · rw [plan.stable_dev dev] at stable
    exact plan.tag_protected (List.mem_cons_of_mem _ List.mem_cons_self) stable
  · exact plan.tag_protected List.mem_cons_self dev'

theorem settled_own (stamped : Stamped stamp build) (dev : build.channel = .dev) : plan.Settled stamp plan.snapshot :=
  ⟨plan.newest_own stamped dev, plan.clear_own dev⟩

/-- Whoever moves the pages next, the plan stays carried out. -/
theorem Settled.next {other : Build host} {later : Plan other} (settled : plan.Settled stamp later.parent.top)
    (stamped : Stamped stamp other) (genuine : later.parent.top.Genuine host stamp) :
    plan.Settled stamp later.snapshot := by
  refine ⟨later.newest_kept stamped genuine settled.newest, ?_⟩
  intro name entry member
  rcases later.origin member with old | ⟨_, rfl⟩
  · exact settled.clear name entry old
  · rw [Bool.eq_false_iff, Build.tagOf_platform]
    intro old
    obtain ⟨generated, older, _⟩ := obsolete_iff.mp old
    have dev : other.channel = .dev := other.sound.generated.mp generated
    exact absurd (later.newest_le stamped dev settled.newest) (not_le_of_gt older)

/-- A plan that changes nothing has been carried out where it was made. -/
theorem snapshot_unchanged (unchanged : plan.changed = false) : plan.snapshot = plan.parent.top := by
  simp only [changed, Bool.or_eq_false_iff, decide_eq_false_iff_not, ne_eq, not_not] at unchanged
  obtain ⟨dev, stable⟩ := unchanged
  have same : plan.stable.getD plan.parent.top.stable = plan.parent.top.stable := by
    cases released : plan.stable with
    | none => rfl
    | some index =>
      rw [released] at stable
      simpa using stable
  rw [snapshot, same, dev]

end Plan

/-- Under the key of the entry the index has its address and its checksum. -/
def Index.Retains (index : Index) (name : Text) (entry : Platform) : Prop :=
  ∃ kept, index.find name entry.key = some kept ∧ kept.url = entry.url ∧ kept.checksum = entry.checksum

/-- The development index has the entry of the build, or a newer snapshot than the build is. -/
def Snapshot.Retains (build : Build host) (stamp : Text → Text) (snapshot : Snapshot) : Prop :=
  snapshot.dev.Retains host.template.name build.platform ∨
    build.channel = .dev ∧ ∃ tag, build.tag < tag ∧ snapshot.Newest host stamp tag

private theorem tagOf_address {one other : Platform} (same : one.url = other.url) : host.tagOf one = host.tagOf other := by
  rw [Host.tagOf, downloadTag, same]
  rfl

/-- A build that takes the key with the same checksum is one of the same tag, and has the same address. -/
theorem Stamped.address (stamped : Stamped stamp build) {other : Build host} (stamped' : Stamped stamp other)
    (same : other.platform.key = build.platform.key) (bytes : other.platform.checksum = build.platform.checksum) :
    other.platform.url = build.platform.url := by
  have version : other.metadata.version = build.metadata.version := (Prod.mk.inj same).2
  have tag : other.tag = build.tag :=
    calc other.tag = stamp other.platform.checksum := stamped'.symm
      _ = stamp build.platform.checksum := congrArg stamp bytes
      _ = build.tag := stamped
  rw [Build.platform, Build.platform, Build.archiveName, Build.archiveName, tag, version]

namespace Plan
variable {other : Build host} {plan : Plan other}

/-- The build of a plan under the key of a retained entry is that entry again. -/
theorem retained_again (stamped : Stamped stamp build) (stamped' : Stamped stamp other) {index : Index}
    (among : index = plan.parent.top.dev ∨ index = plan.parent.top.stable) (retains : index.Retains host.template.name build.platform)
    (same : other.platform.key = build.platform.key) :
    other.platform.url = build.platform.url ∧ other.platform.checksum = build.platform.checksum := by
  obtain ⟨kept, found, _, bytes⟩ := retains
  obtain ⟨inside, key⟩ := Index.find_some found
  have member : kept ∈ plan.parent.top.entries host.template.name := by
    rcases among with rfl | rfl
    · exact List.mem_append_right _ inside
    · exact List.mem_append_left _ inside
  have own := (Build.agrees_key plan.agrees member (key.trans same.symm)).symm.trans bytes
  exact ⟨stamped.address stamped' same own, own⟩

theorem stable_retains (stamped : Stamped stamp build) (stamped' : Stamped stamp other)
    (retains : plan.parent.top.stable.Retains host.template.name build.platform) :
    plan.snapshot.stable.Retains host.template.name build.platform := by
  have again := plan.retained_again stamped stamped' (.inr rfl) retains
  obtain ⟨kept, found, url, bytes⟩ := retains
  rcases plan.stable_find host.template.name build.platform.key with same | ⟨_, merged⟩
  · exact ⟨kept, same.trans found, url, bytes⟩
  · rw [Build.find_index] at merged
    by_cases own : other.platform.key = build.platform.key
    · rw [if_pos own, Option.some_or] at merged
      exact ⟨other.platform, merged, again own⟩
    · rw [if_neg own, Option.none_or, found] at merged
      exact ⟨kept, merged, url, bytes⟩

private theorem Merged.retains {merged : Index} (made : plan.Merged merged) (stamped : Stamped stamp build) (stamped' : Stamped stamp other)
    (retains : plan.parent.top.dev.Retains host.template.name build.platform) : merged.Retains host.template.name build.platform := by
  have again := plan.retained_again stamped stamped' (.inl rfl) retains
  obtain ⟨kept, found, url, bytes⟩ := retains
  by_cases own : other.platform.key = build.platform.key
  · exact ⟨other.platform, own ▸ made.own, again own⟩
  · refine ⟨kept, ?_, url, bytes⟩
    rw [made.find, Build.find_index, if_neg own, Option.none_or, found, Option.some_or]

/-- The entry of a build stays when another run moves the pages, or makes room for a newer snapshot. -/
theorem retains_next (stamped : Stamped stamp build) (stamped' : Stamped stamp other) (genuine : plan.parent.top.Genuine host stamp)
    (retains : plan.parent.top.Retains build stamp) : plan.snapshot.Retains build stamp := by
  rcases retains with listed | ⟨dev, tag, newer, newest⟩
  · obtain ⟨merged, made⟩ := plan.merged
    obtain ⟨kept, found, url, bytes⟩ := made.retains stamped stamped' listed
    obtain ⟨member, key⟩ := Index.find_some found
    have named : host.tagOf kept = build.tag := (tagOf_address url).trans build.tagOf_platform
    by_cases old : kept.obsolete host.unicode host.repository host.template.architecture plan.latest = true
    · obtain ⟨newer, _, generated, above, there⟩ := made.dropped member old
      have is := (snapshot_iff.mp (Publish.obsolete_iff.mp old).1).2
      rw [named] at above
      change devTag host.unicode (host.tagOf kept) = true at is
      rw [named] at is
      refine .inr ⟨build.sound.generated.mp is, host.tagOf newer, above, newer, there, generated, ?_, le_rfl⟩
      exact plan.genuine_kept stamped' genuine newer (List.mem_append_right _ (Index.find_some there).1) generated
    · refine .inl ⟨kept, ?_, url, bytes⟩
      rw [← key]
      exact made.kept member old
  · exact .inr ⟨dev, tag, newer, plan.newest_kept stamped' genuine newest⟩

theorem retains_own (plan : Plan build) (stamp : Text → Text) : plan.snapshot.Retains build stamp :=
  .inl ⟨build.platform, plan.own_found, rfl, rfl⟩

/-- A full release is in the stable index as well. -/
theorem stable_own (plan : Plan build) (full : plan.stable.isSome = true) :
    plan.snapshot.stable.Retains host.template.name build.platform := by
  obtain ⟨released, same⟩ := Option.isSome_iff_exists.mp full
  have done := plan.stabilized
  rw [same, Build.stabilize] at done
  split at done
  · cases done
  · obtain ⟨made, merging, equal⟩ := Option.map_eq_some_iff.mp done
    cases equal
    refine ⟨build.platform, ?_, rfl, rfl⟩
    rw [snapshot, same, Option.getD_some, merged_find merging, List.flatMap_cons, Keyed.find_append]
    have own := @Build.find_index _ build build.platform.key
    rw [if_pos rfl, Index.find] at own
    rw [own, Option.some_or]

end Plan

end ArduinoK210.Publish
