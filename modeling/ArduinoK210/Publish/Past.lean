import ArduinoK210.Publish.Serving

/-! Runs that follow one another. A run removes snapshots only when it has published a newer one, and a run that finds a newer one
published does nothing: under a tag that has gone nothing is put any more. -/

namespace ArduinoK210.Publish

variable {host : Host}

namespace GitHub

/-- A newer snapshot than the tag is published. -/
def Past (github : GitHub) (host : Host) (tag : Text) : Prop :=
  devTag host.unicode tag = true ∧ ∃ release ∈ github.releases, release.draft = false ∧ release.prerelease = true ∧
    devTag host.unicode release.tag = true ∧ tag < release.tag

def Owns (github : GitHub) (build : Build host) : Prop :=
  ∃ release ∈ github.releases, release.tag = build.tag ∧ release.draft = false ∧ release.prerelease = true

/-- What GitHub itself sees to: one number for one thing, one published release for a tag, one asset of a name in a release. -/
structure Proper (github : GitHub) : Prop where
  valid : github.Valid
  single : github.Single
  distinct : ∀ release ∈ github.releases, ∀ one ∈ release.assets, ∀ other ∈ release.assets, one.name = other.name → one = other

/-- What a request of a run that no other disturbs does. -/
structure Advances (host : Host) (github after : GitHub) : Prop where
  proper : after.Proper
  grows : Grows github after
  keeps : Keeps (after.Past host) github after
  past : ∀ tag, github.Past host tag → after.Past host tag
  filled : ∀ release ∈ after.releases, ∀ asset ∈ release.assets, asset ∈ github.assets ∨ ¬after.Past host release.tag
  published : ∀ release ∈ after.releases, release.draft = false →
    (∃ old ∈ github.releases, old.id = release.id ∧ old.tag = release.tag ∧ old.draft = false) ∨ ¬after.Past host release.tag

/-- The same, with the tag of the build in the place of the tags that are not past. -/
structure Acts (build : Build host) (github after : GitHub) : Prop where
  origin : ∀ release ∈ after.releases, release.draft = false → release.tag = build.tag ∨ ∃ old ∈ github.releases, old.id = release.id ∧
    old.tag = release.tag ∧ old.draft = false ∧ old.prerelease = release.prerelease
  newest : ∀ release ∈ github.releases, release.draft = false → release.prerelease = true → devTag host.unicode release.tag = true →
    ∃ later ∈ after.releases, later.draft = false ∧ later.prerelease = true ∧ devTag host.unicode later.tag = true ∧
      release.tag ≤ later.tag
  filled : ∀ release ∈ after.releases, ∀ asset ∈ release.assets, asset ∈ github.assets ∨ release.tag = build.tag

variable {github after : GitHub} {build : Build host}

theorem Advances.refl (proper : github.Proper) : Advances host github github := by
  refine ⟨proper, Grows.refl github, Keeps.refl github, fun _ => id, ?_, ?_⟩
  · intro release member asset inside
    exact .inl (mem_assets.mpr ⟨release, member, inside⟩)
  · intro release member published
    exact .inl ⟨release, member, rfl, rfl, published⟩

section Acts

private theorem Acts.past (acts : Acts build github after) {tag : Text} (past : github.Past host tag) : after.Past host tag := by
  obtain ⟨generated, release, member, published, prerelease, is, newer⟩ := past
  obtain ⟨later, there, published', prerelease', is', above⟩ := acts.newest release member published prerelease is
  exact ⟨generated, later, there, published', prerelease', is', newer.trans_le above⟩

/-- A run does not make its own tag a thing of the past. -/
theorem Acts.current (acts : Acts build github after) (current : ¬github.Past host build.tag) : ¬after.Past host build.tag := by
  rintro ⟨generated, release, member, published, prerelease, is, newer⟩
  rcases acts.origin release member published with own | ⟨old, there, _, tag, published', prerelease'⟩
  · rw [own] at newer
    exact lt_irrefl _ newer
  · apply current
    rw [← tag] at is newer
    exact ⟨generated, old, there, published', prerelease'.trans prerelease, is, newer⟩

theorem Acts.advances (acts : Acts build github after) (current : ¬github.Past host build.tag) (proper : after.Proper)
    (grows : Grows github after) (keeps : Keeps (after.Past host) github after) : Advances host github after := by
  have still := acts.current current
  refine ⟨proper, grows, keeps, fun _ => acts.past, ?_, ?_⟩
  · intro release member asset inside
    refine (acts.filled release member asset inside).imp_right fun own => ?_
    rw [own]
    exact still
  · intro release member published
    rcases acts.origin release member published with own | ⟨old, there, same, tag, published', _⟩
    · right
      rw [own]
      exact still
    · exact .inl ⟨old, there, same, tag, published'⟩

/-- The prerelease of a snapshot stays. -/
theorem Acts.owns (acts : Acts build github after) (current : ¬after.Past host build.tag) (dev : build.channel = .dev)
    (owns : github.Owns build) : after.Owns build := by
  have generated := build.sound.generated.mpr dev
  obtain ⟨release, member, tag, published, prerelease⟩ := owns
  obtain ⟨later, there, published', prerelease', is, above⟩ := acts.newest release member published prerelease (tag ▸ generated)
  rw [tag] at above
  rcases above.lt_or_eq with newer | same
  · exact absurd ⟨generated, later, there, published', prerelease', is, newer⟩ current
  · exact ⟨later, there, same.symm, published', prerelease'⟩

theorem Acts.of_releases (same : after.releases = github.releases) : Acts build github after := by
  refine ⟨?_, ?_, ?_⟩
  · intro release member published
    exact .inr ⟨release, same ▸ member, rfl, rfl, published, rfl⟩
  · intro release member published prerelease is
    exact ⟨release, same ▸ member, published, prerelease, is, le_rfl⟩
  · intro release member asset inside
    exact .inl (mem_assets.mpr ⟨release, same ▸ member, inside⟩)

/-- An edit that leaves the classes of the releases as they are. -/
theorem Edit.acts {edit : Release → Release} (made : Edit github after edit)
    (same : ∀ release, (edit release).draft = release.draft ∧ (edit release).prerelease = release.prerelease)
    (filled : ∀ release ∈ github.releases, ∀ asset ∈ (edit release).assets, asset ∈ release.assets ∨ release.tag = build.tag) :
    Acts build github after := by
  refine ⟨?_, ?_, ?_⟩
  · intro release member published
    rw [made.releases] at member
    obtain ⟨old, there, rfl⟩ := List.mem_map.mp member
    exact .inr ⟨old, there, (made.id old).symm, (made.tag old).symm, (same old).1.symm.trans published, (same old).2.symm⟩
  · intro release member published prerelease is
    refine ⟨edit release, ?_, (same release).1.trans published, (same release).2.trans prerelease, ?_, (made.tag release).ge⟩
    · rw [made.releases]
      exact List.mem_map_of_mem member
    · rw [made.tag]
      exact is
  · intro release member asset inside
    rw [made.releases] at member
    obtain ⟨old, there, rfl⟩ := List.mem_map.mp member
    rw [made.tag]
    exact (filled old there asset inside).imp_left fun before => mem_assets.mpr ⟨old, there, before⟩

theorem createRelease_acts (tag : Text) (prerelease : Bool) : Acts build github (github.createRelease tag prerelease) := by
  refine ⟨?_, ?_, ?_⟩
  · intro release member published
    rcases List.mem_cons.mp member with rfl | old
    · cases published
    · exact .inr ⟨release, old, rfl, rfl, published, rfl⟩
  · intro release member published prerelease is
    exact ⟨release, List.mem_cons_of_mem _ member, published, prerelease, is, le_rfl⟩
  · intro release member asset inside
    rcases List.mem_cons.mp member with rfl | old
    · cases inside
    · exact .inl (mem_assets.mpr ⟨release, old, inside⟩)

/-- The release of the build is published, as a prerelease where the build is a snapshot. -/
theorem publishRelease_acts (valid : github.Valid) {id : Nat} {prerelease : Bool} (done : github.publishRelease id prerelease = some after)
    (own : ∀ release ∈ github.releases, release.id = id → release.tag = build.tag) (kind : build.channel = .dev → prerelease = true) :
    Acts build github after := by
  have made := publishRelease_edit valid done
  refine ⟨?_, ?_, ?_⟩
  · intro release member published
    rw [made.releases] at member
    obtain ⟨old, there, rfl⟩ := List.mem_map.mp member
    by_cases here : old.id = id
    · left
      rw [made.tag]
      exact own old there here
    · rw [if_neg here] at published ⊢
      exact .inr ⟨old, there, rfl, rfl, published, rfl⟩
  · intro release member published full is
    refine ⟨if release.id = id then { release with draft := false, prerelease := prerelease } else release, ?_, ?_, ?_, ?_, ?_⟩
    · rw [made.releases]
      exact List.mem_map_of_mem member
    · split
      · rfl
      · exact published
    · split
      · next here =>
        apply kind
        rw [own release member here] at is
        exact build.sound.generated.mp is
      · exact full
    · rw [made.tag release]
      exact is
    · exact (made.tag release).ge
  · intro release member asset inside
    rw [made.releases] at member
    obtain ⟨old, there, rfl⟩ := List.mem_map.mp member
    refine .inl (mem_assets.mpr ⟨old, there, ?_⟩)
    split at inside <;> exact inside

/-- What is deleted is older than the prerelease of the build, which stays. -/
structure Sweeps (build : Build host) (github : GitHub) (out : Release → Prop) : Prop where
  dev : build.channel = .dev
  owns : github.Owns build
  older : ∀ release ∈ github.releases, out release → devTag host.unicode release.tag = true ∧ release.tag < build.tag

private theorem Sweeps.past {out : Release → Prop} (sweeps : Sweeps build github out) (owns : after.Owns build) {release : Release}
    (member : release ∈ github.releases) (gone : out release) : after.Past host release.tag := by
  obtain ⟨own, there, tag, published, prerelease⟩ := owns
  obtain ⟨is, older⟩ := sweeps.older release member gone
  refine ⟨is, own, there, published, prerelease, ?_, older.trans_eq tag.symm⟩
  rw [tag]
  exact build.sound.generated.mpr sweeps.dev

private theorem Sweeps.acts {out : Release → Prop} (sweeps : Sweeps build github out) (owns : after.Owns build)
    (origin : ∀ release ∈ after.releases, release.draft = false → release ∈ github.releases)
    (stays : ∀ release ∈ github.releases, ¬out release → release ∈ after.releases)
    (assets : ∀ asset ∈ after.assets, asset ∈ github.assets) : Acts build github after := by
  refine ⟨?_, ?_, ?_⟩
  · intro release member published
    exact .inr ⟨release, origin release member published, rfl, rfl, published, rfl⟩
  · intro release member published prerelease is
    by_cases gone : out release
    · obtain ⟨own, there, tag, published', prerelease'⟩ := owns
      refine ⟨own, there, published', prerelease', ?_, ?_⟩
      · rw [tag]
        exact build.sound.generated.mpr sweeps.dev
      · rw [tag]
        exact (sweeps.older release member gone).2.le
    · exact ⟨release, stays release member gone, published, prerelease, is, le_rfl⟩
  · intro release member asset inside
    exact .inl (assets asset (mem_assets.mpr ⟨release, member, inside⟩))

private theorem Sweeps.owns_kept {out : Release → Prop} (sweeps : Sweeps build github out)
    (stays : ∀ release ∈ github.releases, ¬out release → release ∈ after.releases) : after.Owns build := by
  obtain ⟨own, there, tag, rest⟩ := sweeps.owns
  refine ⟨own, stays own there ?_, tag, rest⟩
  intro gone
  have older := (sweeps.older own there gone).2
  rw [tag] at older
  exact lt_irrefl _ older

end Acts

section Requests

theorem Proper.shrink (proper : github.Proper) (valid : after.Valid) (single : after.Single)
    (sub : ∀ release ∈ after.releases, ∀ asset ∈ release.assets, ∃ old ∈ github.releases, old.id = release.id ∧ asset ∈ old.assets) :
    after.Proper := by
  refine ⟨valid, single, ?_⟩
  intro release member one first other second same
  obtain ⟨old, there, here, inside⟩ := sub release member one first
  obtain ⟨old', there', here', inside'⟩ := sub release member other second
  rw [proper.valid.release_same old' there' old there (here'.trans here.symm)] at inside'
  exact proper.distinct old there one inside other inside' same

theorem Proper.edit {edit : Release → Release} (proper : github.Proper) (made : Edit github after edit) (single : after.Single)
    (sub : ∀ release, ∀ asset ∈ (edit release).assets, asset ∈ release.assets) : after.Proper := by
  apply proper.shrink (made.valid proper.valid) single
  intro release member asset inside
  rw [made.releases] at member
  obtain ⟨old, there, rfl⟩ := List.mem_map.mp member
  exact ⟨old, there, (made.id old).symm, sub old asset inside⟩

theorem createRelease_proper (proper : github.Proper) (tag : Text) (prerelease : Bool) : (github.createRelease tag prerelease).Proper := by
  apply proper.shrink (createRelease_valid proper.valid tag prerelease) (createRelease_single proper.single tag prerelease)
  intro release member asset inside
  rcases List.mem_cons.mp member with rfl | old
  · cases inside
  · exact ⟨release, old, rfl, inside⟩

theorem attach_proper (proper : github.Proper) {id : Nat} {name : Text} {state : AssetState} {content : Bytes} {digested : Bool}
    (done : github.attach id name state content digested = some after) : after.Proper := by
  have made := attach_edit proper.valid done
  refine ⟨made.valid proper.valid, attach_single proper.valid proper.single done, ?_⟩
  obtain ⟨target, found, free, _⟩ := attach_some done
  obtain ⟨there, here⟩ := release_some found
  intro release member one first other second same
  rw [made.releases] at member
  obtain ⟨old, among, rfl⟩ := List.mem_map.mp member
  by_cases own : old.id = id
  · have equal := proper.valid.release_same old among target there (own.trans here.symm)
    subst equal
    rw [if_pos own] at first second
    rcases List.mem_append.mp first with first | first
    · rcases List.mem_append.mp second with second | second
      · exact proper.distinct old among one first other second same
      · cases List.mem_singleton.mp second
        exact absurd same (free one first)
    · cases List.mem_singleton.mp first
      rcases List.mem_append.mp second with second | second
      · exact absurd same.symm (free other second)
      · exact (List.mem_singleton.mp second).symm
  · rw [if_neg own] at first second
    exact proper.distinct old among one first other second same

theorem attach_acts (valid : github.Valid) {id : Nat} {name : Text} {state : AssetState} {content : Bytes} {digested : Bool}
    (done : github.attach id name state content digested = some after)
    (own : ∀ release ∈ github.releases, release.id = id → release.tag = build.tag) : Acts build github after := by
  apply (attach_edit valid done).acts
  · intro release
    split <;> exact ⟨rfl, rfl⟩
  · intro release member asset inside
    split at inside
    · next here => exact .inr (own release member here)
    · exact .inl inside

theorem deleteRelease_advances (proper : github.Proper) {id : Nat} (sweeps : Sweeps build github fun release => release.id = id)
    (current : ¬github.Past host build.tag) :
    Acts build github (github.deleteRelease id) ∧ Advances host github (github.deleteRelease id) := by
  have stays : ∀ release ∈ github.releases, ¬release.id = id → release ∈ (github.deleteRelease id).releases :=
    fun release member apart => List.mem_filter.mpr ⟨member, by simpa using apart⟩
  have owns := sweeps.owns_kept stays
  have assets : ∀ asset ∈ (github.deleteRelease id).assets, asset ∈ github.assets := by
    intro asset member
    obtain ⟨release, among, inside⟩ := mem_assets.mp member
    exact mem_assets.mpr ⟨release, List.mem_of_mem_filter among, inside⟩
  have acts := sweeps.acts owns (fun release member _ => List.mem_of_mem_filter member) stays assets
  refine ⟨acts, acts.advances current ?_ (deleteRelease_grows id) ?_⟩
  · apply proper.shrink (deleteRelease_valid proper.valid id) (deleteRelease_single proper.single id)
    intro release member asset inside
    exact ⟨release, List.mem_of_mem_filter member, rfl, inside⟩
  · exact deleteRelease_keeps fun release member here => sweeps.past owns member here

theorem deleteRef_advances (proper : github.Proper) {tag : Text} (done : github.deleteRef tag = some after)
    (sweeps : Sweeps build github fun release => release.tag = tag) (current : ¬github.Past host build.tag) :
    Acts build github after ∧ Advances host github after := by
  have made := deleteRef_edit proper.valid done
  have stays : ∀ release ∈ github.releases, ¬release.tag = tag → release ∈ after.releases := by
    intro release member apart
    rw [made.releases]
    refine List.mem_map.mpr ⟨release, member, ?_⟩
    rw [if_neg apart]
  have owns := sweeps.owns_kept stays
  have origin : ∀ release ∈ after.releases, release.draft = false → release ∈ github.releases := by
    intro release member published
    rw [made.releases] at member
    obtain ⟨old, there, rfl⟩ := List.mem_map.mp member
    split at published
    · cases published
    · next apart =>
      rw [if_neg apart]
      exact there
  have assets : ∀ asset ∈ after.assets, asset ∈ github.assets := by
    intro asset member
    obtain ⟨release, among, inside⟩ := mem_assets.mp member
    rw [made.releases] at among
    obtain ⟨old, there, rfl⟩ := List.mem_map.mp among
    refine mem_assets.mpr ⟨old, there, ?_⟩
    split at inside <;> exact inside
  have acts := sweeps.acts owns origin stays assets
  refine ⟨acts, acts.advances current ?_ (deleteRef_grows proper.valid done) ?_⟩
  · apply proper.edit made (deleteRef_single proper.valid proper.single done)
    intro release asset inside
    split at inside <;> exact inside
  · apply made.keeps
    · intro release _ asset member _
      split <;> exact member
    · intro release member stays published
      split
      · next same => exact absurd (sweeps.past owns member same) stays
      · exact published

end Requests

end GitHub

end ArduinoK210.Publish
