import ArduinoK210.Publish.Phases

/-! What requests never undo on GitHub: numbers are not given twice, a release keeps its tag and its completed assets while it
exists, and the pages branch only grows. Whatever a run has read stays true in this sense. -/

namespace ArduinoK210.Publish

variable {host : Host}

namespace GitHub

/-- Numbers are unique and below the next one. -/
structure Valid (github : GitHub) : Prop where
  release_fresh : ∀ release ∈ github.releases, release.id < github.next
  asset_fresh : ∀ asset ∈ github.assets, asset.id < github.next
  release_same : ∀ one ∈ github.releases, ∀ other ∈ github.releases, one.id = other.id → one = other
  asset_same : ∀ one ∈ github.releases, ∀ other ∈ github.releases, ∀ asset ∈ one.assets, ∀ asset' ∈ other.assets,
    asset.id = asset'.id → one.id = other.id ∧ asset = asset'

/-- The release `before` is still there as `after`, with all of its completed assets. -/
structure Kept (before after : Release) : Prop where
  id : before.id = after.id
  tag : before.tag = after.tag
  assets : ∀ asset ∈ before.assets, asset.state ≠ .starter → asset ∈ after.assets

structure Grows (before after : GitHub) : Prop where
  next : before.next ≤ after.next
  releases : ∀ release ∈ after.releases, release.id < before.next → ∃ old ∈ before.releases, Kept old release
  assets : ∀ asset ∈ after.assets, asset.id < before.next → asset ∈ before.assets
  pages : before.pages <:+ after.pages

theorem Kept.refl (release : Release) : Kept release release := ⟨rfl, rfl, fun _ member _ => member⟩

theorem Grows.refl (github : GitHub) : Grows github github :=
  ⟨le_refl _, fun release member _ => ⟨release, member, Kept.refl release⟩, fun _ member _ => member, List.suffix_refl _⟩

theorem mem_assets {github : GitHub} {asset : Asset} : asset ∈ github.assets ↔ ∃ release ∈ github.releases, asset ∈ release.assets :=
  List.mem_flatMap

theorem release_some {github : GitHub} {id : Nat} {release : Release} (found : github.release id = some release) :
    release ∈ github.releases ∧ release.id = id := by
  refine ⟨List.mem_of_find?_eq_some found, ?_⟩
  simpa using List.find?_some found

theorem asset_some {github : GitHub} {id : Nat} {asset : Asset} (found : github.asset id = some asset) :
    asset ∈ github.assets ∧ asset.id = id := by
  refine ⟨List.mem_of_find?_eq_some found, ?_⟩
  simpa using List.find?_some found

theorem releaseByTag_some {github : GitHub} {tag : Text} {release : Release} (found : github.releaseByTag tag = some release) :
    release ∈ github.releases ∧ release.draft = false ∧ release.tag = tag := by
  refine ⟨List.mem_of_find?_eq_some found, ?_⟩
  simpa using List.find?_some found

section Operations
variable {github after : GitHub}

theorem createRelease_valid (valid : github.Valid) (tag : Text) (prerelease : Bool) : (github.createRelease tag prerelease).Valid := by
  have filled : ∀ release ∈ (github.createRelease tag prerelease).releases, ∀ asset ∈ release.assets, release ∈ github.releases := by
    intro release member asset inside
    rcases List.mem_cons.mp member with rfl | old
    · cases inside
    · exact old
  refine ⟨?_, ?_, ?_, ?_⟩
  · intro release member
    rcases List.mem_cons.mp member with rfl | old
    · exact Nat.lt_succ_self _
    · exact Nat.lt_succ_of_lt (valid.release_fresh release old)
  · intro asset member
    obtain ⟨release, among, inside⟩ := mem_assets.mp member
    exact Nat.lt_succ_of_lt (valid.asset_fresh asset (mem_assets.mpr ⟨release, filled release among asset inside, inside⟩))
  · intro one first other second same
    rcases List.mem_cons.mp first with rfl | old
    · rcases List.mem_cons.mp second with rfl | old'
      · rfl
      · exact absurd same.symm (Nat.ne_of_lt (valid.release_fresh other old'))
    · rcases List.mem_cons.mp second with rfl | old'
      · exact absurd same (Nat.ne_of_lt (valid.release_fresh one old))
      · exact valid.release_same one old other old' same
  · intro one first other second asset inside asset' inside'
    exact valid.asset_same one (filled one first asset inside) other (filled other second asset' inside') asset inside asset' inside'

theorem createRelease_grows (tag : Text) (prerelease : Bool) : Grows github (github.createRelease tag prerelease) := by
  refine ⟨Nat.le_succ _, ?_, ?_, List.suffix_refl _⟩
  · intro release member old
    rcases List.mem_cons.mp member with rfl | there
    · exact absurd old (Nat.lt_irrefl _)
    · exact ⟨release, there, Kept.refl release⟩
  · intro asset member old
    obtain ⟨release, among, inside⟩ := mem_assets.mp member
    rcases List.mem_cons.mp among with rfl | there
    · cases inside
    · exact mem_assets.mpr ⟨release, there, inside⟩

/-- A change of the releases in their places that gives no number twice. -/
structure Edit (github after : GitHub) (edit : Release → Release) : Prop where
  releases : after.releases = github.releases.map edit
  next : github.next ≤ after.next
  pages : after.pages = github.pages
  id : ∀ release, (edit release).id = release.id
  tag : ∀ release, (edit release).tag = release.tag
  old : ∀ release ∈ github.releases, ∀ asset ∈ (edit release).assets, asset.id < github.next → asset ∈ release.assets
  fresh : ∀ release ∈ github.releases, ∀ asset ∈ (edit release).assets, asset.id < after.next
  new : ∀ one ∈ github.releases, ∀ other ∈ github.releases, ∀ asset ∈ (edit one).assets, ∀ asset' ∈ (edit other).assets,
    github.next ≤ asset.id → asset.id = asset'.id → one.id = other.id ∧ asset = asset'

theorem Edit.valid {edit : Release → Release} (made : Edit github after edit) (valid : github.Valid) : after.Valid := by
  have source : ∀ asset ∈ after.assets, ∃ release ∈ github.releases, asset ∈ (edit release).assets := by
    intro asset member
    obtain ⟨release, among, inside⟩ := mem_assets.mp member
    rw [made.releases] at among
    obtain ⟨old, there, rfl⟩ := List.mem_map.mp among
    exact ⟨old, there, inside⟩
  refine ⟨?_, ?_, ?_, ?_⟩
  · intro release member
    rw [made.releases] at member
    obtain ⟨old, there, rfl⟩ := List.mem_map.mp member
    rw [made.id]
    exact (valid.release_fresh old there).trans_le made.next
  · intro asset member
    obtain ⟨release, there, inside⟩ := source asset member
    exact made.fresh release there asset inside
  · intro one first other second same
    rw [made.releases] at first second
    obtain ⟨old, there, rfl⟩ := List.mem_map.mp first
    obtain ⟨old', there', rfl⟩ := List.mem_map.mp second
    rw [made.id, made.id] at same
    rw [valid.release_same old there old' there' same]
  · intro one first other second asset inside asset' inside' same
    rw [made.releases] at first second
    obtain ⟨release, there, rfl⟩ := List.mem_map.mp first
    obtain ⟨release', there', rfl⟩ := List.mem_map.mp second
    rw [made.id, made.id]
    rcases Nat.lt_or_ge asset.id github.next with old | new
    · have here := made.old release there asset inside old
      have here' := made.old release' there' asset' inside' (same ▸ old)
      exact valid.asset_same release there release' there' asset here asset' here' same
    · exact made.new release there release' there' asset inside asset' inside' new same

private theorem Edit.grows {edit : Release → Release} (made : Edit github after edit)
    (keeps : ∀ release ∈ github.releases, ∀ asset ∈ release.assets, asset.state ≠ .starter → asset ∈ (edit release).assets) :
    Grows github after := by
  refine ⟨made.next, ?_, ?_, made.pages ▸ List.suffix_refl _⟩
  · intro release member _
    rw [made.releases] at member
    obtain ⟨old, there, rfl⟩ := List.mem_map.mp member
    exact ⟨old, there, (made.id old).symm, (made.tag old).symm, keeps old there⟩
  · intro asset member old
    obtain ⟨release, among, inside⟩ := mem_assets.mp member
    rw [made.releases] at among
    obtain ⟨source, there, rfl⟩ := List.mem_map.mp among
    exact mem_assets.mpr ⟨source, there, made.old source there asset inside old⟩

theorem Edit.shrink {edit : Release → Release} (valid : github.Valid) (releases : after.releases = github.releases.map edit)
    (next : github.next = after.next) (pages : after.pages = github.pages) (id : ∀ release, (edit release).id = release.id)
    (tag : ∀ release, (edit release).tag = release.tag) (sub : ∀ release, ∀ asset ∈ (edit release).assets, asset ∈ release.assets) :
    Edit github after edit := by
  have old : ∀ release ∈ github.releases, ∀ asset ∈ (edit release).assets, asset.id < github.next := by
    intro release there asset inside
    exact valid.asset_fresh asset (mem_assets.mpr ⟨release, there, sub release asset inside⟩)
  refine ⟨releases, next.le, pages, id, tag, ?_, ?_, ?_⟩
  · intro release _ asset inside _
    exact sub release asset inside
  · intro release there asset inside
    exact (old release there asset inside).trans_le next.le
  · intro one there _ _ asset inside _ _ new _
    exact absurd (old one there asset inside) (Nat.not_lt.mpr new)

theorem deleteAsset_some {id : Nat} (done : github.deleteAsset id = some after) :
    after = { github with releases := github.releases.map (removeAsset id) } := by
  unfold deleteAsset at done
  split at done
  · cases done
    rfl
  · cases done

theorem deleteAsset_edit (valid : github.Valid) {id : Nat} (done : github.deleteAsset id = some after) :
    Edit github after (removeAsset id) := by
  have same := deleteAsset_some done
  apply Edit.shrink valid (same ▸ rfl) (same ▸ rfl) (same ▸ rfl)
  · intro release
    rfl
  · intro release
    rfl
  · intro release asset inside
    exact List.mem_of_mem_filter inside

/-- Only placeholders are removed. -/
theorem deleteAsset_grows (valid : github.Valid) {id : Nat} (done : github.deleteAsset id = some after)
    (placeholder : ∀ asset ∈ github.assets, asset.id = id → asset.state = .starter) : Grows github after := by
  apply (deleteAsset_edit valid done).grows
  intro release there asset member completed
  rw [removeAsset, List.mem_filter, decide_eq_true_eq]
  exact ⟨member, fun same => completed (placeholder asset (mem_assets.mpr ⟨release, there, member⟩) same)⟩

/-- The release that gets the asset had no asset of the name. -/
theorem attach_some {id : Nat} {name : Text} {state : AssetState} {content : Bytes} {digested : Bool}
    (done : github.attach id name state content digested = some after) :
    ∃ release, github.release id = some release ∧ (∀ asset ∈ release.assets, asset.name ≠ name) ∧
      after = { github.change id fun release =>
          { release with assets := release.assets ++ [⟨github.next, name, state, content, digested⟩] } with
        next := github.next + 1 } := by
  unfold attach at done
  split at done
  · cases done
  · next release found =>
    split at done
    · cases done
    · next free =>
      cases done
      refine ⟨release, found, ?_, rfl⟩
      intro asset member same
      exact free (List.any_eq_true.mpr ⟨asset, member, by simpa using same⟩)

theorem attach_edit (valid : github.Valid) {id : Nat} {name : Text} {state : AssetState} {content : Bytes} {digested : Bool}
    (done : github.attach id name state content digested = some after) :
    Edit github after fun release => if release.id = id then
      { release with assets := release.assets ++ [⟨github.next, name, state, content, digested⟩] } else release := by
  obtain ⟨_, _, _, rfl⟩ := attach_some done
  have inside : ∀ release ∈ github.releases, ∀ asset ∈ (if release.id = id then
      { release with assets := release.assets ++ [⟨github.next, name, state, content, digested⟩] } else release).assets,
      asset ∈ release.assets ∨ (release.id = id ∧ asset = ⟨github.next, name, state, content, digested⟩) := by
    intro release _ asset member
    split at member
    · next here =>
      rcases List.mem_append.mp member with old | new
      · exact .inl old
      · exact .inr ⟨here, List.mem_singleton.mp new⟩
    · exact .inl member
  have old : ∀ release ∈ github.releases, ∀ asset ∈ release.assets, asset.id < github.next := by
    intro release there asset member
    exact valid.asset_fresh asset (mem_assets.mpr ⟨release, there, member⟩)
  refine ⟨rfl, Nat.le_succ _, rfl, ?_, ?_, ?_, ?_, ?_⟩
  · intro release
    split <;> rfl
  · intro release
    split <;> rfl
  · intro release there asset member low
    rcases inside release there asset member with old | ⟨_, rfl⟩
    · exact old
    · exact absurd low (Nat.lt_irrefl _)
  · intro release there asset member
    rcases inside release there asset member with kept | ⟨_, rfl⟩
    · exact Nat.lt_succ_of_lt (old release there asset kept)
    · exact Nat.lt_succ_self _
  · intro one there other there' asset member asset' member' new same
    rcases inside one there asset member with kept | ⟨here, rfl⟩
    · exact absurd (old one there asset kept) (Nat.not_lt.mpr new)
    · rcases inside other there' asset' member' with kept' | ⟨here', rfl⟩
      · exact absurd (old other there' asset' kept') (Nat.not_lt.mpr (same ▸ new))
      · exact ⟨here.trans here'.symm, rfl⟩

theorem attach_grows (valid : github.Valid) {id : Nat} {name : Text} {state : AssetState} {content : Bytes} {digested : Bool}
    (done : github.attach id name state content digested = some after) : Grows github after := by
  apply (attach_edit valid done).grows
  intro release _ asset member _
  split
  · exact List.mem_append_left _ member
  · exact member

theorem publishRelease_some {id : Nat} {prerelease : Bool} (done : github.publishRelease id prerelease = some after) :
    ∃ release, github.release id = some release ∧ after.releases =
      github.releases.map (fun release => if release.id = id then { release with draft := false, prerelease := prerelease } else release) ∧
      after.next = github.next ∧ after.pages = github.pages := by
  unfold publishRelease at done
  split at done
  · cases done
  · next release found =>
    split at done
    · cases done
    · cases done
      exact ⟨release, found, rfl, rfl, rfl⟩

theorem publishRelease_edit (valid : github.Valid) {id : Nat} {prerelease : Bool}
    (done : github.publishRelease id prerelease = some after) : Edit github after fun release =>
      if release.id = id then { release with draft := false, prerelease := prerelease } else release := by
  obtain ⟨_, _, releases, next, pages⟩ := publishRelease_some done
  apply Edit.shrink valid releases next.symm pages
  · intro release
    split <;> rfl
  · intro release
    split <;> rfl
  · intro release asset member
    split at member <;> exact member

theorem publishRelease_grows (valid : github.Valid) {id : Nat} {prerelease : Bool}
    (done : github.publishRelease id prerelease = some after) : Grows github after := by
  apply (publishRelease_edit valid done).grows
  intro release _ asset member _
  split <;> exact member

theorem deleteRef_some {tag : Text} (done : github.deleteRef tag = some after) :
    after = { github with
      tags := github.tags.filter fun other => other ≠ tag
      releases := github.releases.map fun release => if release.tag = tag then { release with draft := true } else release } := by
  unfold deleteRef at done
  split at done
  · cases done
    rfl
  · cases done

theorem deleteRef_edit (valid : github.Valid) {tag : Text} (done : github.deleteRef tag = some after) :
    Edit github after fun release => if release.tag = tag then { release with draft := true } else release := by
  have same := deleteRef_some done
  apply Edit.shrink valid (same ▸ rfl) (same ▸ rfl) (same ▸ rfl)
  · intro release
    split <;> rfl
  · intro release
    split <;> rfl
  · intro release asset member
    split at member <;> exact member

theorem deleteRef_grows (valid : github.Valid) {tag : Text} (done : github.deleteRef tag = some after) : Grows github after := by
  apply (deleteRef_edit valid done).grows
  intro release _ asset member _
  split <;> exact member

theorem deleteRelease_valid (valid : github.Valid) (id : Nat) : (github.deleteRelease id).Valid := by
  have releases : ∀ release ∈ (github.deleteRelease id).releases, release ∈ github.releases := fun _ => List.mem_of_mem_filter
  have assets : ∀ asset ∈ (github.deleteRelease id).assets, asset ∈ github.assets := by
    intro asset member
    obtain ⟨release, among, inside⟩ := mem_assets.mp member
    exact mem_assets.mpr ⟨release, releases release among, inside⟩
  exact ⟨fun release member => valid.release_fresh release (releases release member),
    fun asset member => valid.asset_fresh asset (assets asset member),
    fun one first other second => valid.release_same one (releases one first) other (releases other second),
    fun one first other second => valid.asset_same one (releases one first) other (releases other second)⟩

theorem deleteRelease_grows (id : Nat) : Grows github (github.deleteRelease id) := by
  refine ⟨le_refl _, ?_, ?_, List.suffix_refl _⟩
  · intro release member _
    exact ⟨release, List.mem_of_mem_filter member, Kept.refl release⟩
  · intro asset member _
    obtain ⟨release, among, inside⟩ := mem_assets.mp member
    exact mem_assets.mpr ⟨release, List.mem_of_mem_filter among, inside⟩

/-- The pages move to a commit that follows the one they are at. -/
theorem push_some {parent : Commit} {snapshot : Snapshot} (done : github.push parent snapshot = some after) :
    after.releases = github.releases ∧ after.next = github.next ∧ after.pages = snapshot :: parent ∧
      github.pages <:+ snapshot :: parent := by
  unfold push at done
  split at done
  · split at done
    · next empty =>
      cases done
      refine ⟨rfl, rfl, rfl, ?_⟩
      rw [empty]
      exact List.nil_suffix
    · cases done
  · split at done
    · next allowed =>
      cases done
      exact ⟨rfl, rfl, rfl, allowed.2⟩
    · cases done

theorem push_valid (valid : github.Valid) {parent : Commit} {snapshot : Snapshot} (done : github.push parent snapshot = some after) :
    after.Valid := by
  obtain ⟨releases, next, _, _⟩ := push_some done
  have assets : after.assets = github.assets := by rw [GitHub.assets, releases, GitHub.assets]
  refine ⟨?_, ?_, ?_, ?_⟩
  · rw [releases, next]
    exact valid.release_fresh
  · rw [assets, next]
    exact valid.asset_fresh
  · rw [releases]
    exact valid.release_same
  · rw [releases]
    exact valid.asset_same

theorem push_grows {parent : Commit} {snapshot : Snapshot} (done : github.push parent snapshot = some after) : Grows github after := by
  obtain ⟨releases, next, pages, follows⟩ := push_some done
  refine ⟨next.ge, ?_, ?_, pages ▸ follows⟩
  · intro release member _
    rw [releases] at member
    exact ⟨release, member, Kept.refl release⟩
  · intro asset member _
    rw [GitHub.assets, releases] at member
    exact member

/-- A run that has read `parent` moves the pages only from there. -/
theorem push_parent {parent : Commit} {snapshot : Snapshot} (behind : parent <:+ github.pages)
    (done : github.push parent snapshot = some after) : parent = github.pages ∨ github.pages = after.pages := by
  obtain ⟨_, _, pages, follows⟩ := push_some done
  rcases List.suffix_cons_iff.mp follows with same | before
  · exact .inr (same.trans pages.symm)
  · exact .inl (behind.eq_of_length_le before.length_le)

end Operations
end GitHub

end ArduinoK210.Publish
