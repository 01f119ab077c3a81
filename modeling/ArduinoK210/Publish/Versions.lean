import ArduinoK210.Publish.Jobs

/-! Versions in the indexes keep their bytes: every update passes the version check against both old indexes, and a version
leaves them only as a snapshot that a newer one replaces. -/

namespace ArduinoK210.Publish

variable {host : Host}

def Platform.bare (platform : Platform) : Text := removePrefix (text "v") platform.version

/-- Two entries of one version, for one package and architecture. -/
def SameVersion (one other : Platform) : Prop := one.architecture = other.architecture ∧ one.bare = other.bare

private theorem SameVersion.of_key {one other : Platform} (same : one.key = other.key) : SameVersion one other := by
  obtain ⟨architecture, version⟩ := Prod.mk.inj same
  exact ⟨architecture, congrArg (removePrefix (text "v")) version⟩

theorem SameVersion.symm {one other : Platform} (same : SameVersion one other) : SameVersion other one := ⟨same.1.symm, same.2.symm⟩

theorem SameVersion.trans {one other third : Platform} (first : SameVersion one other) (second : SameVersion other third) :
    SameVersion one third := ⟨first.1.trans second.1, first.2.trans second.2⟩

/-- No version of a package and architecture has two checksums in the indexes. -/
def Snapshot.Conflictless (snapshot : Snapshot) : Prop :=
  ∀ name, ∀ one ∈ snapshot.entries name, ∀ other ∈ snapshot.entries name, SameVersion one other → one.checksum = other.checksum

/-- The version of an entry is in the indexes with its checksum. -/
def Snapshot.Lists (snapshot : Snapshot) (name : Text) (entry : Platform) : Prop :=
  ∃ other ∈ snapshot.entries name, SameVersion other entry ∧ other.checksum = entry.checksum

/-- The version of an entry leaves the indexes as a generated snapshot, for a newer one of its package and architecture. -/
def Superseded (host : Host) (before after : Snapshot) (name : Text) (entry : Platform) : Prop :=
  ∃ dropped ∈ before.dev.named name, SameVersion dropped entry ∧ dropped.checksum = entry.checksum ∧
    devTag host.unicode (host.tagOf dropped) = true ∧
    ∃ newer ∈ after.dev.named name, newer.architecture = entry.architecture ∧ devTag host.unicode (host.tagOf newer) = true ∧
      host.tagOf dropped < host.tagOf newer

private theorem mem_find {index : Index} {name : Text} {platform : Platform} (member : platform ∈ index.named name) :
    ∃ first, index.find name platform.key = some first ∧ first ∈ index.named name ∧ first.key = platform.key := by
  obtain ⟨first, found⟩ := Option.isSome_iff_exists.mp (Keyed.find_isSome Platform.key member)
  exact ⟨first, found, Index.find_some found⟩

namespace Plan
variable {build : Build host} (plan : Plan build)

/-- The entry of the build agrees with the old ones of its version. -/
theorem own_checksum {platform : Platform} (member : platform ∈ plan.parent.top.entries host.template.name)
    (same : SameVersion platform build.platform) : platform.checksum = build.platform.checksum :=
  Build.agrees_checksum plan.agrees member same.1 (same.2.trans build.sound.bare)

theorem conflictless (before : plan.parent.top.Conflictless) : plan.snapshot.Conflictless := by
  intro name one first other second same
  rcases plan.origin first with old | ⟨rfl, rfl⟩
  · rcases plan.origin second with old' | ⟨rfl, rfl⟩
    · exact before name one old other old' same
    · exact plan.own_checksum old same
  · rcases plan.origin second with old' | ⟨_, rfl⟩
    · exact (plan.own_checksum old' same.symm).symm
    · rfl

/-- Where the old indexes list a version, an entry of it in the new ones has its checksum. -/
theorem lists {name : Text} {entry platform : Platform} (before : plan.parent.top.Conflictless) (listed : plan.parent.top.Lists name entry)
    (member : platform ∈ plan.snapshot.entries name) (same : SameVersion platform entry) : plan.snapshot.Lists name entry := by
  obtain ⟨other, there, alike, bytes⟩ := listed
  refine ⟨platform, member, same, ?_⟩
  have joined := same.trans alike.symm
  rcases plan.origin member with old | ⟨rfl, rfl⟩
  · exact (before name platform old other there joined).trans bytes
  · exact (plan.own_checksum there joined.symm).symm.trans bytes

/-- What the stable index lists under a key it still lists. -/
theorem stable_kept {name : Text} {platform : Platform} (member : platform ∈ plan.parent.top.stable.named name) :
    ∃ later ∈ plan.snapshot.stable.named name, later.key = platform.key := by
  obtain ⟨first, found, _, _⟩ := mem_find member
  rcases plan.stable_find name platform.key with same | ⟨_, merged⟩
  · exact ⟨first, Index.find_some (same.trans found)⟩
  · rw [found] at merged
    cases own : build.index.find name platform.key with
    | none =>
      rw [own, Option.none_or] at merged
      exact ⟨first, Index.find_some merged⟩
    | some entry =>
      rw [own, Option.some_or] at merged
      exact ⟨entry, Index.find_some merged⟩

/-- A key of the development index stays, unless its first entry is an old snapshot of that index. -/
theorem dev_kept {name : Text} {platform : Platform} (member : platform ∈ plan.parent.top.dev.named name) :
    (∃ later ∈ plan.snapshot.entries name, later.key = platform.key) ∨
      (name = host.template.name ∧ ∃ dropped ∈ plan.parent.top.dev.named name, dropped.key = platform.key ∧ host.generated dropped = true ∧
        ∃ newer ∈ plan.snapshot.dev.named name, host.generated newer = true ∧ host.tagOf dropped < host.tagOf newer) := by
  obtain ⟨merged, made⟩ := plan.merged
  obtain ⟨first, found, _, _⟩ := mem_find member
  obtain ⟨entry, whole⟩ : ∃ entry, merged.find name platform.key = some entry := by
    rw [made.find, found, Option.some_or]
    cases build.index.find name platform.key with
    | none => exact ⟨first, rfl⟩
    | some own => exact ⟨own, rfl⟩
  obtain ⟨inside, same⟩ := Index.find_some whole
  by_cases here : name = host.template.name
  · subst here
    by_cases old : entry.obsolete host.unicode host.repository host.template.architecture plan.latest = true
    · obtain ⟨newer, there, is, later, kept⟩ := made.dropped inside old
      rw [made.find] at whole
      rcases Option.or_eq_some_iff.mp whole with own | ⟨_, rest⟩
      · rw [Build.find_index] at own
        split at own
        · cases own
          exact .inl ⟨build.platform, List.mem_append_right _ (Index.find_some plan.own_found).1, same⟩
        · cases own
      · rcases Option.or_eq_some_iff.mp rest with dev | ⟨_, stable⟩
        · refine .inr ⟨rfl, entry, (Index.find_some dev).1, same, (obsolete_iff.mp old).1, newer, ?_, is, later⟩
          exact (Index.find_some kept).1
        · obtain ⟨still, among, equal⟩ := plan.stable_kept (Index.find_some stable).1
          exact .inl ⟨still, List.mem_append_left _ among, equal.trans same⟩
    · exact .inl ⟨entry, List.mem_append_right _ (Index.find_some (made.kept inside old)).1, same⟩
  · refine .inl ⟨entry, List.mem_append_right _ ?_, same⟩
    have named := made.named name
    rw [if_neg here] at named
    exact named ▸ inside

/-- A version stays in the indexes with its bytes, or leaves them as a superseded snapshot. -/
theorem version_kept {name : Text} {entry : Platform} (before : plan.parent.top.Conflictless) (listed : plan.parent.top.Lists name entry) :
    plan.snapshot.Lists name entry ∨ Superseded host plan.parent.top plan.snapshot name entry := by
  have given := listed
  obtain ⟨platform, member, same, bytes⟩ := given
  rcases List.mem_append.mp member with stable | dev
  · obtain ⟨later, there, key⟩ := plan.stable_kept stable
    exact .inl (plan.lists before listed (List.mem_append_left _ there) ((SameVersion.of_key key).trans same))
  · rcases plan.dev_kept dev with ⟨later, there, key⟩ | ⟨rfl, dropped, there, key, generated, newer, among, is, older⟩
    · exact .inl (plan.lists before listed there ((SameVersion.of_key key).trans same))
    · have alike := SameVersion.of_key key
      obtain ⟨architecture, tag⟩ := snapshot_iff.mp generated
      obtain ⟨architecture', tag'⟩ := snapshot_iff.mp is
      refine .inr ⟨dropped, there, alike.trans same, ?_, tag, newer, among, ?_, tag', older⟩
      · exact (before _ dropped (List.mem_append_right _ there) platform member alike).trans bytes
      · exact architecture'.trans (architecture.symm.trans (alike.trans same).1)

end Plan

section
variable {allowed : Build host → Prop} {world : World host}

/-- A version that is listed keeps its bytes through a run of turns, up to the one that replaces it as an old snapshot. -/
theorem World.Sound.versions {turns : List (Turn host)} {name : Text} {entry : Platform} (sound : world.Sound allowed)
    (opened : World.Open allowed turns world) (conflictless : world.top.Conflictless) (listed : world.top.Lists name entry) :
    (World.after turns world).top.Lists name entry ∨ ∃ front turn back, turns = front ++ turn :: back ∧
      Superseded host (World.after front world).top (World.next turn (World.after front world)).top name entry ∧
      ¬(World.next turn (World.after front world)).top.Lists name entry := by
  induction turns generalizing world with
  | nil => exact .inl listed
  | cons turn turns ih =>
    have sound' := sound.next turn opened.1
    have later : (World.next turn world).top.Conflictless → (World.next turn world).top.Lists name entry →
        (World.after (turn :: turns) world).top.Lists name entry ∨ ∃ front one back, turn :: turns = front ++ one :: back ∧
          Superseded host (World.after front world).top (World.next one (World.after front world)).top name entry ∧
          ¬(World.next one (World.after front world)).top.Lists name entry := by
      intro conflictless' listed'
      rcases ih sound' opened.2 conflictless' listed' with still | ⟨front, one, back, same, gone⟩
      · exact .inl still
      · exact .inr ⟨turn :: front, one, back, by rw [same, List.cons_append], gone⟩
    rcases sound.pages turn with same | ⟨build, _, plan, from_parent, moved⟩
    · have top : (World.next turn world).top = world.top := congrArg Commit.top same
      exact later (top ▸ conflictless) (top ▸ listed)
    · have top : (World.next turn world).top = plan.snapshot := congrArg Commit.top moved
      have old : world.top = plan.parent.top := congrArg Commit.top from_parent.symm
      by_cases listed' : (World.next turn world).top.Lists name entry
      · refine later ?_ listed'
        rw [top]
        exact plan.conflictless (old ▸ conflictless)
      · have gone := (plan.version_kept (old ▸ conflictless) (old ▸ listed)).resolve_left (top ▸ listed')
        rw [← old, ← top] at gone
        exact .inr ⟨[], turn, turns, rfl, gone, listed'⟩

end

end ArduinoK210.Publish
