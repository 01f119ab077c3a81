import ArduinoK210.Publish.Phases
import ArduinoK210.Publish.Merge

/-! What a plan changes in the indexes of a commit, read off the merge and the retention once: where its entries come from,
which entries are found under a key, and that the entry of the build is among them. -/

namespace ArduinoK210.Publish

variable {host : Host}

abbrev Host.tagOf (host : Host) (platform : Platform) : Text := downloadTag host.repository platform

abbrev Host.generated (host : Host) (platform : Platform) : Bool :=
  platform.snapshot host.unicode host.repository host.template.architecture

def Snapshot.entries (snapshot : Snapshot) (name : Text) : List Platform := snapshot.stable.named name ++ snapshot.dev.named name

namespace Build
variable {build : Build host}

theorem named_index (name : Text) : build.index.named name = if host.template.name = name then [build.platform] else [] := by
  rw [Index.named, index, named_cons]
  exact List.append_nil _

theorem find_index (key : Text × Text) :
    build.index.find host.template.name key = if build.platform.key = key then some build.platform else none := by
  rw [Index.find, named_index, if_pos rfl]
  split
  · next same => exact List.find?_cons_of_pos (by simpa using same)
  · next other => exact List.find?_cons_of_neg (by simpa using other)

theorem find_other {name : Text} {key : Text × Text} (other : ¬(name = host.template.name ∧ key = build.platform.key)) :
    build.index.find name key = none := by
  by_cases here : name = host.template.name
  · subst here
    rw [find_index, if_neg]
    exact fun same => other ⟨rfl, same.symm⟩
  · rw [Index.find, named_index, if_neg fun same => here same.symm]
    rfl

theorem generated_platform : host.generated build.platform = true ↔ build.channel = .dev := by
  rw [snapshot_iff, downloadTag_platform, build.sound.generated]
  exact ⟨fun both => both.2, fun dev => ⟨rfl, dev⟩⟩

theorem agrees_checksum {old : Snapshot} (agree : build.agrees old = true) {platform : Platform}
    (member : platform ∈ old.entries host.template.name) (architecture : platform.architecture = host.template.architecture)
    (version : removePrefix (text "v") platform.version = build.metadata.version) : platform.checksum = build.platform.checksum := by
  have all : ∀ index ∈ [old.stable, old.dev], platform ∈ index.named host.template.name → platform.checksum = build.platform.checksum := by
    intro index among there
    obtain ⟨package, inside, named, there⟩ := mem_named.mp there
    have checked := List.all_eq_true.mp (List.all_eq_true.mp agree index among) package inside
    by_contra different
    simp only [named, Bool.or_eq_true, List.all_eq_true, ne_eq, not_true_eq_false, decide_false, Bool.false_eq_true, false_or] at checked
    have refused := checked platform there
    simp [architecture, version, different] at refused
  rcases List.mem_append.mp member with stable | dev
  · exact all old.stable (by simp) stable
  · exact all old.dev (by simp) dev

theorem agrees_key {old : Snapshot} (agree : build.agrees old = true) {platform : Platform}
    (member : platform ∈ old.entries host.template.name) (same : platform.key = build.platform.key) :
    platform.checksum = build.platform.checksum := by
  obtain ⟨architecture, version⟩ := Prod.mk.inj same
  apply agrees_checksum agree member architecture
  rw [version]
  exact build.sound.bare

end Build

namespace Plan
variable {build : Build host} (plan : Plan build)

/-- The merged index before the retention. -/
structure Merged (merged : Index) : Prop where
  done : mergeIndexes host.unicode [build.index, plan.parent.top.dev, plan.parent.top.stable] = some merged
  latest : plan.latest = latestDev host.unicode host.repository host.template.architecture (merged.named host.template.name)
  packages : plan.dev.packages = merged.packages.map fun package =>
    if package.name = host.template.name then package.retained host.unicode host.repository host.template.architecture else package

theorem merged : ∃ merged, plan.Merged merged := by
  obtain ⟨merged, done, kept⟩ := Option.bind_eq_some_iff.mp plan.developed
  obtain ⟨⟨packages, latest⟩, retained, same⟩ := Option.map_eq_some_iff.mp kept
  obtain ⟨dev, last⟩ := Prod.mk.inj same
  obtain ⟨seen, mapped⟩ := retainLatestDev_spec (merged_nodup done) retained
  refine ⟨merged, done, ?_, ?_⟩
  · exact last.symm.trans seen
  · rw [← dev]
    exact mapped

variable {plan} {merged : Index}

theorem Merged.named (made : plan.Merged merged) (name : Text) : plan.dev.named name =
    if name = host.template.name then (merged.named host.template.name).filter fun platform =>
      !platform.obsolete host.unicode host.repository host.template.architecture plan.latest
    else merged.named name := by
  rw [Index.named, made.packages, named_retained (merged_nodup made.done), made.latest]
  rfl

theorem Merged.unique (made : plan.Merged merged) : ((merged.named host.template.name).map Platform.key).Nodup := by
  have alone : ([build.platform].map Platform.key).Nodup := List.nodup_singleton _
  exact merged_unique ⟨host.template.name, host.template.rest, [build.platform], host.template.tools⟩ alone made.done

theorem Merged.find (made : plan.Merged merged) (name : Text) (key : Text × Text) : merged.find name key =
    (build.index.find name key).or ((plan.parent.top.dev.find name key).or (plan.parent.top.stable.find name key)) := by
  rw [merged_find made.done, List.flatMap_cons, List.flatMap_cons, List.flatMap_cons, List.flatMap_nil, List.append_nil,
    Keyed.find_append, Keyed.find_append]
  rfl

theorem Merged.kept (made : plan.Merged merged) {platform : Platform} (member : platform ∈ merged.named host.template.name)
    (current : ¬platform.obsolete host.unicode host.repository host.template.architecture plan.latest = true) :
    plan.dev.find host.template.name platform.key = some platform := by
  rw [Index.find, made.named, if_pos rfl]
  apply Keyed.find_nodup
  · exact (List.Sublist.map Platform.key List.filter_sublist).nodup made.unique
  · rw [List.mem_filter, Bool.not_eq_true', Bool.eq_false_iff]
    exact ⟨member, current⟩

theorem Merged.listed (made : plan.Merged merged) {name : Text} {platform : Platform} (member : platform ∈ plan.dev.named name) :
    platform ∈ merged.named name := by
  rw [made.named] at member
  split at member
  · next same =>
    rw [same]
    exact List.mem_of_mem_filter member
  · exact member

theorem Merged.own (made : plan.Merged merged) : merged.find host.template.name build.platform.key = some build.platform := by
  rw [made.find, Build.find_index, if_pos rfl, Option.some_or]

/-- An entry that goes away makes room for a newer snapshot, which stays. -/
theorem Merged.dropped (made : plan.Merged merged) {platform : Platform} (member : platform ∈ merged.named host.template.name)
    (old : platform.obsolete host.unicode host.repository host.template.architecture plan.latest = true) :
    ∃ newer ∈ merged.named host.template.name, host.generated newer = true ∧ host.tagOf platform < host.tagOf newer ∧
      plan.dev.find host.template.name newer.key = some newer := by
  obtain ⟨latest, same, older⟩ := obsolete_older made.latest.symm member old
  have found := made.latest.symm.trans same
  obtain ⟨⟨newer, there, is, named⟩, _⟩ := latestDev_spec found
  refine ⟨newer, there, is, lt_of_lt_of_eq older named.symm, made.kept there ?_⟩
  intro obsolete
  exact (obsolete_iff.mp obsolete).2 (by rw [named, same])

variable (plan)

/-- A development build is at least as new as the latest snapshot. -/
theorem latest_le (dev : build.channel = .dev) {latest : Text} (found : plan.latest = some latest) : latest ≤ build.tag := by
  have newest := plan.newest
  rw [Build.superseded, Bool.and_eq_false_iff] at newest
  rcases newest with other | top
  · rw [decide_eq_false_iff_not] at other
    exact absurd dev other
  · rw [decide_eq_false_iff_not, not_not] at top
    apply (max?_spec top).2
    rw [found]
    simp

/-- A published snapshot that the run has seen is not newer than its own build. -/
theorem published_le (dev : build.channel = .dev) {release : Release} (member : release ∈ plan.listed) (published : release.draft = false)
    (prerelease : release.prerelease = true) (generated : devTag host.unicode release.tag = true) : release.tag ≤ build.tag := by
  have newest := plan.newest
  rw [Build.superseded, Bool.and_eq_false_iff] at newest
  rcases newest with other | top
  · rw [decide_eq_false_iff_not] at other
    exact absurd dev other
  · rw [decide_eq_false_iff_not, not_not] at top
    apply (max?_spec top).2
    apply List.mem_cons_of_mem
    apply List.mem_cons_of_mem
    apply List.mem_map_of_mem
    rw [List.mem_filter, published, prerelease, generated]
    exact ⟨member, rfl⟩

theorem own_found : plan.dev.find host.template.name build.platform.key = some build.platform := by
  obtain ⟨merged, made⟩ := plan.merged
  have member := (Index.find_some made.own).1
  apply made.kept member
  intro old
  obtain ⟨latest, same, older⟩ := obsolete_older made.latest.symm member old
  have dev := Build.generated_platform.mp (obsolete_iff.mp old).1
  rw [Build.downloadTag_platform] at older
  exact absurd (plan.latest_le dev same) (not_le_of_gt older)

/-- Every entry is an old one or the one of the build. -/
theorem origin {name : Text} {platform : Platform} (member : platform ∈ plan.snapshot.entries name) :
    platform ∈ plan.parent.top.entries name ∨ (name = host.template.name ∧ platform = build.platform) := by
  have own : platform ∈ build.index.named name → name = host.template.name ∧ platform = build.platform := by
    intro inside
    rw [Build.named_index] at inside
    split at inside
    · next same => exact ⟨same.symm, List.mem_singleton.mp inside⟩
    · cases inside
  rcases List.mem_append.mp member with stable | dev
  · rw [snapshot] at stable
    cases released : plan.stable with
    | none =>
      rw [released] at stable
      exact .inl (List.mem_append_left _ stable)
    | some index =>
      rw [released] at stable
      have done := plan.stabilized
      rw [released, Build.stabilize] at done
      split at done
      · cases done
      · obtain ⟨made, merging, same⟩ := Option.map_eq_some_iff.mp done
        cases same
        obtain ⟨source, among, there⟩ := merged_member merging stable
        rcases List.mem_cons.mp among with rfl | rest
        · exact .inr (own there)
        · cases List.mem_singleton.mp rest
          exact .inl (List.mem_append_left _ there)
  · obtain ⟨merged, made⟩ := plan.merged
    obtain ⟨source, among, there⟩ := merged_member made.done (made.listed dev)
    rcases List.mem_cons.mp among with rfl | rest
    · exact .inr (own there)
    · rcases List.mem_cons.mp rest with rfl | last
      · exact .inl (List.mem_append_right _ there)
      · cases List.mem_singleton.mp last
        exact .inl (List.mem_append_left _ there)

/-- What the stable index lists under a key stays, unless it is the key of a full release. -/
theorem stable_find (name : Text) (key : Text × Text) : plan.snapshot.stable.find name key = plan.parent.top.stable.find name key ∨
    (plan.stable.isSome = true ∧ plan.snapshot.stable.find name key = (build.index.find name key).or (plan.parent.top.stable.find name key)) := by
  rw [snapshot]
  cases released : plan.stable with
  | none => exact .inl rfl
  | some index =>
    have done := plan.stabilized
    rw [released, Build.stabilize] at done
    split at done
    · cases done
    · obtain ⟨made, merging, same⟩ := Option.map_eq_some_iff.mp done
      cases same
      refine .inr ⟨rfl, ?_⟩
      rw [Option.getD_some, merged_find merging, List.flatMap_cons, List.flatMap_cons, List.flatMap_nil, List.append_nil,
        Keyed.find_append]
      rfl

end Plan

end ArduinoK210.Publish
