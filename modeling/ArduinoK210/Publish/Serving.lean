import ArduinoK210.Publish.Newest
import ArduinoK210.Publish.Reads

/-! What the entries of the indexes name on GitHub: a published release with the archive. Requests take it away only with a tag
that is gone: a snapshot that no index lists, where a newer one is listed. -/

namespace ArduinoK210.Publish

variable {host : Host}

/-- The entry points into this repository. -/
def Host.Points (host : Host) (entry : Platform) : Prop := (releases host.repository).isPrefixOf (entry.url.getD []) = true

def Host.fileOf (host : Host) (entry : Platform) : Text :=
  (((entry.url.getD []).drop (releases host.repository).length).dropWhile (· ≠ '/')).drop 1

/-- The release is public and holds the completed archive of the entry. -/
structure Serves (host : Host) (entry : Platform) (release : Release) : Prop where
  published : release.draft = false
  tag : release.tag = host.tagOf entry
  archive : ∃ asset ∈ release.assets, asset.state = .uploaded ∧ asset.name = host.fileOf entry ∧
    entry.checksum = text "SHA-256:" ++ host.sha256 asset.content

private theorem Build.fileOf_platform (build : Build host) : host.fileOf build.platform = build.archiveName := by
  have rest : (releases host.repository ++ build.tag ++ text "/" ++ build.archiveName).drop (releases host.repository).length =
      build.tag ++ '/' :: build.archiveName := by
    rw [List.append_assoc, List.append_assoc, List.drop_left]
    rfl
  have other : ∀ c ∈ build.tag, decide (c ≠ '/') = true := by
    intro c member
    exact decide_eq_true fun same => build.sound.slash (same ▸ member)
  rw [Host.fileOf, Build.platform, Option.getD_some, rest, List.dropWhile_append_of_pos other]
  rfl

namespace GitHub

def Available (github : GitHub) (host : Host) (entry : Platform) : Prop := ∃ release ∈ github.releases, Serves host entry release

def Served (github : GitHub) (host : Host) : Prop :=
  ∀ name, ∀ entry ∈ github.pages.top.entries name, host.Points entry → github.Available host entry

/-- No tag has two published releases. -/
def Single (github : GitHub) : Prop :=
  ∀ one ∈ github.releases, ∀ other ∈ github.releases, one.draft = false → other.draft = false → one.tag = other.tag → one.id = other.id

/-- Releases stay unless their tag is gone, and published ones stay published. -/
def Keeps (gone : Text → Prop) (github after : GitHub) : Prop :=
  ∀ release ∈ github.releases, ¬gone release.tag →
    ∃ later ∈ after.releases, Kept release later ∧ (release.draft = false → later.draft = false)

variable {github after : GitHub} {gone : Text → Prop}

/-- The release that a tag names is the published one. -/
theorem Single.releaseByTag (single : github.Single) (valid : github.Valid) {release : Release} (member : release ∈ github.releases)
    (published : release.draft = false) : github.releaseByTag release.tag = some release := by
  cases found : github.releaseByTag release.tag with
  | none =>
    have draft := releaseByTag_none found member rfl
    rw [published] at draft
    cases draft
  | some other =>
    obtain ⟨there, still, tag⟩ := releaseByTag_some found
    rw [valid.release_same other there release member (single other there release member still published tag)]

theorem Keeps.refl (github : GitHub) : Keeps gone github github :=
  fun release member _ => ⟨release, member, Kept.refl release, id⟩

theorem Keeps.of_releases (same : after.releases = github.releases) : Keeps gone github after := by
  intro release member _
  exact ⟨release, same ▸ member, Kept.refl release, id⟩

theorem Keeps.available {entry : Platform} (keeps : Keeps gone github after) (available : github.Available host entry)
    (stays : ¬gone (host.tagOf entry)) : after.Available host entry := by
  obtain ⟨release, member, serves⟩ := available
  obtain ⟨later, there, kept, still⟩ := keeps release member (serves.tag ▸ stays)
  obtain ⟨asset, inside, uploaded, rest⟩ := serves.archive
  refine ⟨later, there, still serves.published, kept.tag.symm.trans serves.tag, asset, ?_, uploaded, rest⟩
  apply kept.assets asset inside
  rw [uploaded]
  nofun

theorem Edit.keeps {edit : Release → Release} (made : Edit github after edit)
    (assets : ∀ release ∈ github.releases, ∀ asset ∈ release.assets, asset.state ≠ .starter → asset ∈ (edit release).assets)
    (still : ∀ release ∈ github.releases, ¬gone release.tag → release.draft = false → (edit release).draft = false) :
    Keeps gone github after := by
  intro release member stays
  refine ⟨edit release, ?_, ⟨(made.id release).symm, (made.tag release).symm, assets release member⟩, still release member stays⟩
  rw [made.releases]
  exact List.mem_map_of_mem member

theorem Edit.single {edit : Release → Release} (made : Edit github after edit) (single : github.Single)
    (still : ∀ release, (edit release).draft = false → release.draft = false) : after.Single := by
  intro one first other second published published' same
  rw [made.releases] at first second
  obtain ⟨old, there, rfl⟩ := List.mem_map.mp first
  obtain ⟨old', there', rfl⟩ := List.mem_map.mp second
  rw [made.tag, made.tag] at same
  rw [made.id, made.id]
  exact single old there old' there' (still old published) (still old' published') same

theorem createRelease_keeps (tag : Text) (prerelease : Bool) : Keeps gone github (github.createRelease tag prerelease) :=
  fun release member _ => ⟨release, List.mem_cons_of_mem _ member, Kept.refl release, id⟩

theorem createRelease_single (single : github.Single) (tag : Text) (prerelease : Bool) : (github.createRelease tag prerelease).Single := by
  intro one first other second published published' same
  rcases List.mem_cons.mp first with rfl | old
  · cases published
  · rcases List.mem_cons.mp second with rfl | old'
    · cases published'
    · exact single one old other old' published published' same

theorem publishRelease_published {id : Nat} {prerelease : Bool} (done : github.publishRelease id prerelease = some after)
    {current : Release} (member : current ∈ after.releases) (same : current.id = id) : current.draft = false := by
  obtain ⟨_, _, releases, _, _⟩ := publishRelease_some done
  rw [releases] at member
  obtain ⟨old, _, rfl⟩ := List.mem_map.mp member
  by_cases here : old.id = id
  · rw [if_pos here]
  · rw [if_neg here] at same
    exact absurd same here

theorem publishRelease_keeps (valid : github.Valid) {id : Nat} {prerelease : Bool} (done : github.publishRelease id prerelease = some after) :
    Keeps gone github after := by
  apply (publishRelease_edit valid done).keeps
  · intro release _ asset member _
    split <;> exact member
  · intro release _ _ published
    split
    · rfl
    · exact published

private theorem publishRelease_free {id : Nat} {prerelease : Bool} (done : github.publishRelease id prerelease = some after) :
    ∃ release, github.release id = some release ∧ (release.draft = false ∨ github.releaseByTag release.tag = none) := by
  unfold publishRelease at done
  split at done
  · cases done
  · next release found =>
    refine ⟨release, found, ?_⟩
    split at done
    · cases done
    · next free =>
      rw [Bool.and_eq_true, not_and_or, Bool.not_eq_true, Option.not_isSome_iff_eq_none] at free
      exact free

theorem publishRelease_single (valid : github.Valid) (single : github.Single) {id : Nat} {prerelease : Bool}
    (done : github.publishRelease id prerelease = some after) : after.Single := by
  obtain ⟨release, found, free⟩ := publishRelease_free done
  obtain ⟨there, here⟩ := release_some found
  have made := publishRelease_edit valid done
  -- another published release of the tag, which is one from before
  have alone : ∀ other ∈ github.releases, other.draft = false → other.tag = release.tag → other.id = id := by
    intro other among published same
    rcases free with already | none
    · exact (single other among release there published already same).trans here
    · have draft := releaseByTag_none none among same
      rw [published] at draft
      cases draft
  intro one first other second published published' same
  rw [made.releases] at first second
  obtain ⟨old, among, rfl⟩ := List.mem_map.mp first
  obtain ⟨old', among', rfl⟩ := List.mem_map.mp second
  rw [made.tag, made.tag] at same
  rw [made.id, made.id]
  by_cases target : old.id = id
  · have equal := valid.release_same old among release there (target.trans here.symm)
    subst equal
    by_cases target' : old'.id = id
    · exact target.trans target'.symm
    · rw [if_neg target'] at published'
      exact target.trans (alone old' among' published' same.symm).symm
  · rw [if_neg target] at published
    by_cases target' : old'.id = id
    · have equal := valid.release_same old' among' release there (target'.trans here.symm)
      subst equal
      exact (alone old among published same).trans target'.symm
    · rw [if_neg target'] at published'
      exact single old among old' among' published published' same

theorem deleteRelease_keeps {id : Nat} (alone : ∀ release ∈ github.releases, release.id = id → gone release.tag) :
    Keeps gone github (github.deleteRelease id) := by
  intro release member stays
  refine ⟨release, ?_, Kept.refl release, fun published => published⟩
  exact List.mem_filter.mpr ⟨member, by simpa using fun same => stays (alone release member same)⟩

theorem deleteRelease_single (single : github.Single) (id : Nat) : (github.deleteRelease id).Single :=
  fun one first other second => single one (List.mem_of_mem_filter first) other (List.mem_of_mem_filter second)

theorem deleteRef_keeps (valid : github.Valid) {tag : Text} (done : github.deleteRef tag = some after) (is : gone tag) :
    Keeps gone github after := by
  apply (deleteRef_edit valid done).keeps
  · intro release _ asset member _
    split <;> exact member
  · intro release _ stays published
    split
    · next same => exact absurd (same ▸ is) stays
    · exact published

theorem deleteRef_single (valid : github.Valid) (single : github.Single) {tag : Text} (done : github.deleteRef tag = some after) :
    after.Single := by
  apply (deleteRef_edit valid done).single single
  intro release published
  split at published
  · cases published
  · exact published

theorem attach_keeps (valid : github.Valid) {id : Nat} {name : Text} {state : AssetState} {content : Bytes} {digested : Bool}
    (done : github.attach id name state content digested = some after) : Keeps gone github after := by
  apply (attach_edit valid done).keeps
  · intro release _ asset member _
    split
    · exact List.mem_append_left _ member
    · exact member
  · intro release _ _ published
    split <;> exact published

theorem attach_single (valid : github.Valid) (single : github.Single) {id : Nat} {name : Text} {state : AssetState} {content : Bytes}
    {digested : Bool} (done : github.attach id name state content digested = some after) : after.Single := by
  apply (attach_edit valid done).single single
  intro release published
  split at published <;> exact published

theorem deleteAsset_keeps (valid : github.Valid) {id : Nat} (done : github.deleteAsset id = some after)
    (placeholder : ∀ asset ∈ github.assets, asset.id = id → asset.state = .starter) : Keeps gone github after := by
  apply (deleteAsset_edit valid done).keeps
  · intro release there asset member completed
    rw [removeAsset, List.mem_filter, decide_eq_true_eq]
    exact ⟨member, fun same => completed (placeholder asset (mem_assets.mpr ⟨release, there, member⟩) same)⟩
  · intro release _ _ published
    exact published

theorem deleteAsset_single (valid : github.Valid) (single : github.Single) {id : Nat} (done : github.deleteAsset id = some after) :
    after.Single :=
  (deleteAsset_edit valid done).single single fun _ published => published

/-- The release of the number holds the completed archive of the build. -/
def Filled (github : GitHub) (build : Build host) (id : Nat) : Prop :=
  ∀ current ∈ github.releases, current.id = id → ∃ asset ∈ current.assets, asset.state = .uploaded ∧ asset.name = build.archiveName ∧
    host.sha256 asset.content = host.sha256 build.archive

section Filling
variable {build : Build host} {id : Nat}

theorem Filled.grows (filled : github.Filled build id) (old : id < github.next) (grows : Grows github after) : after.Filled build id := by
  intro current member same
  obtain ⟨before, there, kept⟩ := grows.releases current member (same ▸ old)
  obtain ⟨asset, inside, uploaded, rest⟩ := filled before there (kept.id.trans same)
  refine ⟨asset, ?_, uploaded, rest⟩
  apply kept.assets asset inside
  rw [uploaded]
  nofun

theorem Seen.filled {asset : Asset} (seen : github.Seen id asset) (named : asset.name = build.archiveName) (uploaded : asset.state = .uploaded)
    (bytes : host.sha256 asset.content = host.sha256 build.archive) : github.Filled build id := by
  intro current member same
  refine ⟨asset, ?_, uploaded, named, bytes⟩
  apply seen.inside current member same
  rw [uploaded]
  nofun

theorem upload_filled (done : github.upload id build.archiveName build.archive = some after) : after.Filled build id := by
  obtain ⟨_, _, _, rfl⟩ := attach_some done
  intro current member same
  obtain ⟨old, _, rfl⟩ := List.mem_map.mp member
  by_cases here : old.id = id
  · rw [if_pos here]
    exact ⟨_, List.mem_append_right _ List.mem_cons_self, rfl, rfl, rfl⟩
  · rw [if_neg here] at same
    exact absurd same here

/-- A published release that holds the archive is what the entry of the build names. -/
theorem Filled.available (filled : github.Filled build id) {current : Release} (member : current ∈ github.releases) (same : current.id = id)
    (published : current.draft = false) (tag : current.tag = build.tag) : github.Available host build.platform := by
  obtain ⟨asset, inside, uploaded, named, bytes⟩ := filled current member same
  refine ⟨current, member, published, tag.trans build.tagOf_platform.symm, asset, inside, uploaded, named.trans build.fileOf_platform.symm, ?_⟩
  rw [Build.platform, bytes]

end Filling

end GitHub

end ArduinoK210.Publish
