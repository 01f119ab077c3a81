import ArduinoK210.Publish.CrashSafety

/-! What runs take away, in any order and stopped anywhere. GitHub loses superseded releases and tags alone, the development
index older snapshots of the board package alone, and its newest snapshot never goes back. -/

namespace ArduinoK210.Publish

variable {host : Host}

/-- What is gone after a request, or a draft again, has one of the tags. -/
structure Removes (out : Text → Prop) (before after : GitHub) : Prop where
  releases : ∀ release ∈ before.releases, (∀ later ∈ after.releases, later.id ≠ release.id) → out release.tag
  drafts : ∀ release ∈ before.releases, release.draft = false → ∀ later ∈ after.releases, later.id = release.id →
    later.draft = true → out release.tag
  tags : ∀ tag ∈ before.tags, tag ∉ after.tags → out tag

section
variable {github after : GitHub} {out : Text → Prop}

/-- The releases change one by one and none becomes a draft. -/
theorem Removes.of_map {edit : Release → Release} (valid : github.Valid) (releases : after.releases = github.releases.map edit)
    (tags : ∀ tag ∈ github.tags, tag ∈ after.tags) (numbered : ∀ release, (edit release).id = release.id)
    (shown : ∀ release ∈ github.releases, release.draft = false → (edit release).draft = false) : Removes out github after := by
  refine ⟨?_, ?_, ?_⟩
  · intro release member gone
    exact absurd (numbered release) (gone _ (releases ▸ List.mem_map_of_mem member))
  · intro release member published later there same draft
    rw [releases] at there
    obtain ⟨old, among, rfl⟩ := List.mem_map.mp there
    have equal := valid.release_same old among release member ((numbered old).symm.trans same)
    rw [equal, shown release member published] at draft
    cases draft
  · intro tag member gone
    exact absurd (tags tag member) gone

private theorem Removes.refl (valid : github.Valid) : Removes out github github :=
  Removes.of_map valid (List.map_id _).symm (fun _ member => member) (fun _ => rfl) fun _ _ published => published

namespace GitHub

private theorem attach_removes (valid : github.Valid) {id : Nat} {name : Text} {state : AssetState} {content : Bytes} {digested : Bool}
    (done : github.attach id name state content digested = some after) : Removes out github after := by
  obtain ⟨_, _, _, rfl⟩ := attach_some done
  refine @Removes.of_map _ _ _ (fun release => if release.id = id then _ else release) valid rfl (fun _ member => member) ?_ ?_
  · intro release
    split <;> rfl
  · intro release _ published
    split <;> exact published

private theorem publishRelease_removes (valid : github.Valid) {id : Nat} {prerelease : Bool}
    (done : github.publishRelease id prerelease = some after) : Removes out github after := by
  unfold publishRelease at done
  split at done
  · cases done
  · split at done
    · cases done
    · cases done
      refine @Removes.of_map _ _ _ (fun release => if release.id = id then _ else release) valid rfl ?_ ?_ ?_
      · intro tag member
        dsimp only
        split
        · exact member
        · exact List.mem_append_left _ member
      · intro release
        split <;> rfl
      · intro release _ published
        split
        · rfl
        · exact published

private theorem createRelease_removes (valid : github.Valid) (tag : Text) (prerelease : Bool) :
    Removes out github (github.createRelease tag prerelease) := by
  refine ⟨?_, ?_, fun tag member gone => absurd member gone⟩
  · intro release member gone
    exact absurd rfl (gone release (List.mem_cons_of_mem _ member))
  · intro release member published later there same draft
    rcases List.mem_cons.mp there with rfl | old
    · exact absurd (valid.release_fresh release member) (by rw [← same]; exact Nat.lt_irrefl _)
    · rw [valid.release_same later old release member same, published] at draft
      cases draft

private theorem push_removes (valid : github.Valid) {parent : Commit} {snapshot : Snapshot} (done : github.push parent snapshot = some after) :
    Removes out github after := by
  have tags : after.tags = github.tags := by
    unfold push at done
    split at done
    · split at done <;> cases done
      rfl
    · split at done <;> cases done
      rfl
  refine Removes.of_map valid ((push_some done).1.trans (List.map_id _).symm) ?_ (fun _ => rfl) fun _ _ published => published
  intro tag member
  rw [tags]
  exact member

private theorem deleteRelease_removes (valid : github.Valid) {id : Nat} (old : ∀ release ∈ github.releases, release.id = id → out release.tag) :
    Removes out github (github.deleteRelease id) := by
  refine ⟨?_, ?_, fun tag member gone => absurd member gone⟩
  · intro release member gone
    apply old release member
    by_contra other
    exact gone release (List.mem_filter.mpr ⟨member, by simpa using other⟩) rfl
  · intro release member published later there same draft
    rw [valid.release_same later (List.mem_of_mem_filter there) release member same, published] at draft
    cases draft

private theorem deleteRef_removes (valid : github.Valid) {tag : Text} (old : out tag) (done : github.deleteRef tag = some after) :
    Removes out github after := by
  cases deleteRef_some done
  refine ⟨?_, ?_, ?_⟩
  · intro release member gone
    have image := List.mem_map_of_mem (f := fun release => if release.tag = tag then { release with draft := true } else release) member
    refine absurd ?_ (gone _ image)
    split <;> rfl
  · intro release member published later there same draft
    obtain ⟨before, among, rfl⟩ := List.mem_map.mp there
    by_cases named : before.tag = tag
    · rw [if_pos named] at same
      rw [← valid.release_same before among release member same, named]
      exact old
    · rw [if_neg named] at same draft
      rw [valid.release_same before among release member same, published] at draft
      cases draft
  · intro other member gone
    have same : other = tag := by
      by_contra different
      exact gone (List.mem_filter.mpr ⟨member, by simpa using different⟩)
    rw [same]
    exact old

end GitHub
end

/-- A generated tag older than the one of the plan, which neither its indexes nor a full release it has seen name. -/
structure Plan.Superseded {build : Build host} (plan : Plan build) (tag : Text) : Prop where
  dev : build.channel = .dev
  generated : devTag host.unicode tag = true
  older : tag < build.tag
  unlisted : ∀ name, ∀ entry ∈ plan.dev.named name ++ plan.parent.top.stable.named name, host.tagOf entry ≠ tag
  prerelease : ∀ release ∈ plan.listed, release.tag = tag → release.prerelease = true

private theorem Plan.superseded {build : Build host} {plan : Plan build} (dev : build.channel = .dev) {tag : Text}
    (old : plan.obsolete tag = true) : plan.Superseded tag := by
  obtain ⟨generated, older, unprotected⟩ := Plan.obsolete_iff.mp old
  refine ⟨dev, generated, older, ?_, ?_⟩
  · rintro name entry member rfl
    apply unprotected
    rcases List.mem_append.mp member with listed | stable
    · exact plan.tag_protected List.mem_cons_self listed
    · exact plan.tag_protected (List.mem_cons_of_mem _ List.mem_cons_self) stable
  · rintro release member rfl
    by_contra full
    apply unprotected
    apply List.mem_append_left
    apply List.mem_append_right
    exact List.mem_map_of_mem (List.mem_filter.mpr ⟨member, by simpa using full⟩)

private theorem Phase.effect_removes {build : Build host} {phase : Phase build} {github after : GitHub} (valid : github.Valid)
    (sane : phase.Sane github) (done : phase.effect github = some after) :
    Removes (fun tag => ∃ plan, phase.plan = some plan ∧ plan.Superseded tag) github after := by
  cases phase with
  | create plan =>
    cases done
    exact GitHub.createRelease_removes valid build.tag plan.prerelease
  | clear plan release seen asset file files =>
    cases GitHub.deleteAsset_some done
    exact @Removes.of_map _ _ _ (GitHub.removeAsset asset.id) valid rfl (fun _ member => member) (fun _ => rfl)
      fun _ _ published => published
  | upload plan release seen file files => exact GitHub.attach_removes valid done
  | undraft plan release => exact GitHub.publishRelease_removes valid done
  | reference plan => exact GitHub.push_removes valid done
  | deleteRelease plan release releases tags =>
    cases done
    obtain ⟨dev, old, _⟩ := sane.formed
    obtain ⟨listed, obsolete⟩ := old release List.mem_cons_self
    apply GitHub.deleteRelease_removes valid
    intro current member same
    rw [(sane.listing release listed).2 current member same]
    exact ⟨plan, rfl, Plan.superseded dev obsolete⟩
  | deleteRef plan tag tags =>
    obtain ⟨dev, old⟩ := sane.formed
    exact GitHub.deleteRef_removes valid ⟨plan, rfl, Plan.superseded dev (old tag List.mem_cons_self)⟩ done
  | _ =>
    cases done
    exact Removes.refl valid

/-- The run that takes the turn has a plan that supersedes the tag. -/
def World.Supersedes (turn : Turn host) (world : World host) (tag : Text) : Prop :=
  ∃ index outcome job, turn = .act index outcome ∧ world.processes[index]? = some job ∧
    ∃ plan, job.phase.plan = some plan ∧ plan.Superseded tag

section Worlds
variable {allowed : Build host → Prop} {world : World host}

theorem World.Sound.removes (sound : world.Sound allowed) (turn : Turn host) :
    Removes (World.Supersedes turn world) world.shared (World.next turn world).shared := by
  cases turn with
  | start job => exact Removes.refl sound.1
  | act index outcome =>
    dsimp only [World.next, Interleave.step]
    split
    · exact Removes.refl sound.1
    · next job there =>
      have sane := (sound.2 job (List.mem_of_getElem? there)).1
      rcases Job.move_cases outcome world.shared job with ⟨same, _⟩ | ⟨after, done, same, _⟩ | left
      · rw [same]
        exact Removes.refl sound.1
      · rw [same]
        obtain ⟨releases, drafts, tags⟩ := Phase.effect_removes sound.1 sane done
        have given : ∀ tag, (∃ plan, job.phase.plan = some plan ∧ plan.Superseded tag) →
            World.Supersedes (.act index outcome) world tag :=
          fun tag superseded => ⟨index, outcome, job, rfl, there, superseded⟩
        exact ⟨fun release member gone => given _ (releases release member gone),
          fun release member published later inside one draft => given _ (drafts release member published later inside one draft),
          fun tag member gone => given tag (tags tag member gone)⟩
      · obtain ⟨_, _, _, _, _, _, _, _, _, done, _⟩ := left
        exact GitHub.attach_removes sound.1 done

theorem World.Sound.after {turns : List (Turn host)} (sound : world.Sound allowed) (opened : World.Open allowed turns world) :
    (World.after turns world).Sound allowed :=
  Run.Guarded.invariant (fun turn _ sound ok => World.Sound.next turn sound ok) opened sound

/-- In any order of runs that stop anywhere, a release or a tag goes away only as a generated one that a newer development build
has superseded, and a published release becomes a draft only so. -/
theorem prune_superseded {github : GitHub} (valid : github.Valid) {front back : List (Turn host)} {turn : Turn host}
    (opened : World.Open allowed (front ++ turn :: back) (World.initial github)) :
    Removes (World.Supersedes turn (World.after front (World.initial github))) (World.after front (World.initial github)).shared
      (World.after (front ++ [turn]) (World.initial github)).shared := by
  have before := World.Sound.after (World.initial_sound valid) (opened.front (List.prefix_append front _))
  have next : World.after (front ++ [turn]) (World.initial github) = World.next turn (World.after front (World.initial github)) :=
    Run.run_append World.next front [turn] (World.initial github)
  rw [next]
  exact before.removes turn

end Worlds

private theorem latestDev_iff {unicode : Unicode} {repository architecture : Text} {platforms : List Platform} {tag : Text} :
    latestDev unicode repository architecture platforms = some tag ↔
      (∃ platform ∈ platforms, platform.snapshot unicode repository architecture = true ∧ downloadTag repository platform = tag) ∧
        ∀ platform ∈ platforms, platform.snapshot unicode repository architecture = true → downloadTag repository platform ≤ tag := by
  refine ⟨latestDev_spec, fun ⟨⟨platform, member, is, same⟩, bound⟩ => ?_⟩
  obtain ⟨latest, found, below⟩ := latestDev_bound member is
  obtain ⟨⟨top, there, is', same'⟩, _⟩ := latestDev_spec found
  rw [found, ← same']
  exact congrArg some (le_antisymm (bound top there is') (same' ▸ same ▸ below))

namespace Plan
variable {build : Build host} (plan : Plan build)

def first (name : Text) (key : Text × Text) : Option Platform :=
  (build.index.find name key).or ((plan.parent.top.dev.find name key).or (plan.parent.top.stable.find name key))

/-- The new development index: first entries, without the snapshots of the board package that are not the newest. -/
theorem dev_find (name : Text) (key : Text × Text) : plan.dev.find name key = (plan.first name key).filter fun entry =>
    !(decide (name = host.template.name) && entry.obsolete host.unicode host.repository host.template.architecture plan.latest) := by
  obtain ⟨merged, made⟩ := plan.merged
  have all : merged.find name key = plan.first name key := made.find name key
  rw [← all]
  by_cases here : name = host.template.name
  · subst here
    cases found : merged.find host.template.name key with
    | none =>
      rw [Option.filter_none, ← Option.not_isSome_iff_eq_none]
      intro listed
      obtain ⟨entry, there⟩ := Option.isSome_iff_exists.mp listed
      obtain ⟨member, same⟩ := Index.find_some there
      obtain ⟨other, present⟩ := Option.isSome_iff_exists.mp (Keyed.find_isSome Platform.key (made.listed member))
      rw [same] at present
      exact absurd (found.symm.trans present) nofun
    | some entry =>
      obtain ⟨member, rfl⟩ := Index.find_some found
      by_cases old : entry.obsolete host.unicode host.repository host.template.architecture plan.latest = true
      · rw [Option.filter_some, old, decide_eq_true rfl, if_neg (by simp), ← Option.not_isSome_iff_eq_none]
        intro listed
        obtain ⟨other, there⟩ := Option.isSome_iff_exists.mp listed
        obtain ⟨inside, same⟩ := Index.find_some there
        have equal := List.inj_on_of_nodup_map made.unique (made.listed inside) member same
        rw [made.named, if_pos rfl, equal, List.mem_filter, old] at inside
        exact absurd inside.2 (by decide)
      · rw [Bool.not_eq_true] at old
        rw [Option.filter_some, old, Bool.and_false, if_pos (by decide)]
        exact made.kept member (by rw [old]; decide)
  · have same : plan.dev.find name key = merged.find name key := by
      rw [Index.find, made.named, if_neg here]
      rfl
    rw [same, decide_eq_false here]
    cases merged.find name key <;> rfl

/-- The newest tag is that of the newest snapshot among the first entries. -/
theorem latest_iff {tag : Text} : plan.latest = some tag ↔
    (∃ key entry, plan.first host.template.name key = some entry ∧ host.generated entry = true ∧ host.tagOf entry = tag) ∧
      ∀ key entry, plan.first host.template.name key = some entry → host.generated entry = true → host.tagOf entry ≤ tag := by
  obtain ⟨merged, made⟩ := plan.merged
  have found : ∀ entry ∈ merged.named host.template.name, plan.first host.template.name entry.key = some entry := by
    intro entry member
    have all : merged.find host.template.name entry.key = plan.first host.template.name entry.key := made.find _ _
    rw [← all]
    exact Keyed.find_nodup made.unique member
  have listed : ∀ key entry, plan.first host.template.name key = some entry → entry ∈ merged.named host.template.name := by
    intro key entry first
    exact (Index.find_some ((made.find host.template.name key).trans first)).1
  rw [made.latest, latestDev_iff]
  constructor
  · rintro ⟨⟨entry, member, is, same⟩, bound⟩
    exact ⟨⟨entry.key, entry, found entry member, is, same⟩, fun key other first => bound other (listed key other first)⟩
  · rintro ⟨⟨key, entry, first, is, same⟩, bound⟩
    exact ⟨⟨entry, listed key entry first, is, same⟩, fun other member => bound other.key other (found other member)⟩

private theorem dev_unique : ((plan.dev.named host.template.name).map Platform.key).Nodup := by
  obtain ⟨merged, made⟩ := plan.merged
  rw [made.named, if_pos rfl]
  exact (List.Sublist.map Platform.key List.filter_sublist).nodup made.unique

/-- The new development index as a map: which entry each key has, and that no key has two in the board package. -/
theorem retention_exact :
    (∀ name key, plan.dev.find name key = (plan.first name key).filter fun entry =>
      !(decide (name = host.template.name) && host.generated entry && some (host.tagOf entry) ≠ plan.latest)) ∧
    (∀ tag, plan.latest = some tag ↔
      (∃ key entry, plan.first host.template.name key = some entry ∧ host.generated entry = true ∧ host.tagOf entry = tag) ∧
        ∀ key entry, plan.first host.template.name key = some entry → host.generated entry = true → host.tagOf entry ≤ tag) ∧
    ((plan.dev.named host.template.name).map Platform.key).Nodup := by
  refine ⟨fun name key => ?_, fun tag => plan.latest_iff, plan.dev_unique⟩
  rw [plan.dev_find]
  congr 1
  funext entry
  rw [Bool.and_assoc]
  rfl

/-- Entries of other packages and architectures stay under their keys as they are. -/
theorem foreign_find {name : Text} {key : Text × Text} (foreign : name ≠ host.template.name ∨ key.1 ≠ host.template.architecture) :
    (∀ entry, plan.parent.top.dev.find name key = some entry → plan.snapshot.dev.find name key = some entry) ∧
      plan.snapshot.stable.find name key = plan.parent.top.stable.find name key := by
  have absent : build.index.find name key = none := by
    apply Build.find_other
    rintro ⟨same, own⟩
    rcases foreign with other | other
    · exact other same
    · exact other (congrArg Prod.fst own)
  constructor
  · intro entry found
    have first : plan.first name key = some entry := by rw [Plan.first, absent, Option.none_or, found, Option.some_or]
    change plan.dev.find name key = some entry
    rw [plan.dev_find, first, Option.filter_some, if_pos]
    rw [Bool.not_eq_true', Bool.and_eq_false_iff, decide_eq_false_iff_not]
    refine foreign.imp_right fun other => ?_
    rw [Bool.eq_false_iff]
    intro old
    apply other
    rw [← (Index.find_some found).2]
    exact (snapshot_iff.mp (Publish.obsolete_iff.mp old).1).1
  · rcases plan.stable_find name key with same | ⟨_, merged⟩
    · exact same
    · rw [merged, absent, Option.none_or]

end Plan

section Worlds
variable {stamp : Text → Text} {allowed : Build host → Prop} {world : World host}

def World.newest (world : World host) : Option Text :=
  latestDev host.unicode host.repository host.template.architecture (world.top.dev.named host.template.name)

theorem World.Sound.foreign {turns : List (Turn host)} (sound : world.Sound allowed) (opened : World.Open allowed turns world)
    {name : Text} {key : Text × Text} (foreign : name ≠ host.template.name ∨ key.1 ≠ host.template.architecture) :
    (∀ entry, world.top.dev.find name key = some entry → (World.after turns world).top.dev.find name key = some entry) ∧
      (World.after turns world).top.stable.find name key = world.top.stable.find name key := by
  constructor
  · intro entry found
    have update : ∀ (other : Build host) (plan : Plan other), allowed other → plan.parent.top.dev.find name key = some entry →
        plan.snapshot.dev.find name key = some entry := fun _ plan _ listed => (plan.foreign_find foreign).1 entry listed
    exact (@World.Sound.keeps _ _ _ (fun snapshot => snapshot.dev.find name key = some entry) update _ sound opened found).2
  · have update : ∀ (other : Build host) (plan : Plan other), allowed other →
        plan.parent.top.stable.find name key = world.top.stable.find name key →
        plan.snapshot.stable.find name key = world.top.stable.find name key :=
      fun _ plan _ same => (plan.foreign_find foreign).2.trans same
    exact (@World.Sound.keeps _ _ _ (fun snapshot => snapshot.stable.find name key = world.top.stable.find name key) update _ sound
      opened rfl).2

/-- No run takes away or changes an entry of another package or architecture. -/
theorem foreign_kept {github : GitHub} (valid : github.Valid) {front back : List (Turn host)}
    (opened : World.Open allowed (front ++ back) (World.initial github)) {name : Text} {key : Text × Text}
    (foreign : name ≠ host.template.name ∨ key.1 ≠ host.template.architecture) :
    (∀ entry, (World.after front (World.initial github)).top.dev.find name key = some entry →
        (World.after (front ++ back) (World.initial github)).top.dev.find name key = some entry) ∧
      (World.after (front ++ back) (World.initial github)).top.stable.find name key =
        (World.after front (World.initial github)).top.stable.find name key := by
  have before := World.Sound.after (World.initial_sound valid) (opened.front (List.prefix_append front back))
  have whole : World.after (front ++ back) (World.initial github) = World.after back (World.after front (World.initial github)) :=
    Run.run_append World.next front back (World.initial github)
  rw [whole]
  exact before.foreign opened.back foreign

/-- The newest snapshot that is listed makes room for a newer one alone. -/
theorem World.Sound.never_older {turns : List (Turn host)} (sound : world.Sound (Stamped stamp)) (genuine : world.top.Genuine host stamp)
    (unique : ((world.top.dev.named host.template.name).map Platform.key).Nodup) (opened : World.Open (Stamped stamp) turns world)
    {tag : Text} (newest : world.newest = some tag) : ∃ later, (World.after turns world).newest = some later ∧ tag ≤ later := by
  obtain ⟨⟨entry, member, is, same⟩, _⟩ := latestDev_spec newest
  have listed : world.top.Newest host stamp tag :=
    ⟨entry, Keyed.find_nodup unique member, is, genuine entry (List.mem_append_right _ member) is, same.ge⟩
  have newest_kept : ∀ (other : Build host) (plan : Plan other), Stamped stamp other → plan.parent.top.Genuine host stamp →
      plan.parent.top.Newest host stamp tag → plan.snapshot.Newest host stamp tag :=
    fun other plan stamped genuine newest => plan.newest_kept stamped genuine newest
  obtain ⟨newer, found, is', _, above⟩ := @World.Sound.retains _ _ _ (fun snapshot => snapshot.Newest host stamp tag) newest_kept _
    sound opened genuine listed
  obtain ⟨later, top, bound⟩ := latestDev_bound (Index.find_some found).1 is'
  exact ⟨later, top, above.trans bound⟩

/-- Through runs in any order that stop anywhere, the newest snapshot that the development index lists never goes back. -/
theorem newest_never_older {github : GitHub} (valid : github.Valid) (genuine : github.pages.top.Genuine host stamp)
    (unique : ((github.pages.top.dev.named host.template.name).map Platform.key).Nodup) {front back : List (Turn host)}
    (opened : World.Open (Stamped stamp) (front ++ back) (World.initial github)) {tag : Text}
    (newest : (World.after front (World.initial github)).newest = some tag) :
    ∃ later, (World.after (front ++ back) (World.initial github)).newest = some later ∧ tag ≤ later := by
  have early := opened.front (List.prefix_append front back)
  have sound : (World.initial github : World host).Sound (Stamped stamp) := World.initial_sound valid
  have update : ∀ (other : Build host) (plan : Plan other), Stamped stamp other →
      plan.parent.top.Genuine host stamp ∧ ((plan.parent.top.dev.named host.template.name).map Platform.key).Nodup →
      plan.snapshot.Genuine host stamp ∧ ((plan.snapshot.dev.named host.template.name).map Platform.key).Nodup :=
    fun other plan stamped kept => ⟨plan.genuine_kept stamped kept.1, plan.dev_unique⟩
  obtain ⟨before, genuine', unique'⟩ := @World.Sound.keeps _ _ _ (fun snapshot => snapshot.Genuine host stamp ∧
    ((snapshot.dev.named host.template.name).map Platform.key).Nodup) update _ sound early ⟨genuine, unique⟩
  have whole : World.after (front ++ back) (World.initial github) = World.after back (World.after front (World.initial github)) :=
    Run.run_append World.next front back (World.initial github)
  rw [whole]
  exact before.never_older genuine' unique' opened.back newest

end Worlds

section Outdated

/-- The snapshot of the day before, beside a package of another architecture. -/
def earlierTag : Text := text "dev-20250101030405-0123456789ab"

def earlierPlatform : Platform :=
  { architecture := text "K210"
    version := text "1.2.3-dev.20250101030405.g0123456789ab"
    url := some (text "https://github.com/kendryte/arduino-k210/releases/download/dev-20250101030405-0123456789ab/k210.zip")
    checksum := text "SHA-256:00"
    rest := [] }

def otherPlatform : Platform := { architecture := text "ESP32", version := text "3.0.0", url := none, checksum := [], rest := [] }

def outdated : GitHub :=
  { releases := [⟨0, earlierTag, false, true, []⟩]
    tags := [earlierTag]
    pages := [⟨Index.empty, ⟨[⟨text "Kendryte", [], [earlierPlatform, otherPlatform], []⟩]⟩⟩]
    next := 1 }

theorem outdated_valid : outdated.Valid := by
  constructor <;> decide

/-- The run of the next day, up to the removal of the release. -/
def nightlyTurns : List (Turn nightlyHost) := .start ⟨nightlyBuild, .find⟩ :: List.replicate 15 (.act 0 .served)

/-- The tags of both archives by their checksums. -/
def earlierStamp (checksum : Text) : Text := if checksum = text "SHA-256:00" then earlierTag else nightlyMetadata.tag

theorem nightly_stamped : Stamped earlierStamp nightlyBuild := by
  unfold Stamped
  decide +kernel

private theorem earlier_opened : World.Open (Stamped earlierStamp) (nightlyTurns ++ [.act 0 .served]) (World.initial outdated) :=
  ⟨⟨rfl, nightly_stamped⟩, World.Open.acts 16 0 .served⟩

theorem prune_superseded_nightly : World.Supersedes (.act 0 .served) (World.after nightlyTurns (World.initial outdated)) earlierTag := by
  have after : (World.after (nightlyTurns ++ [.act 0 .served]) (World.initial outdated)).shared.releases.map Release.id = [1] := by decide +kernel
  refine (prune_superseded outdated_valid earlier_opened).releases ⟨0, earlierTag, false, true, []⟩ ?_ ?_
  · decide +kernel
  · intro later member
    have listed := List.mem_map_of_mem (f := Release.id) member
    rw [after] at listed
    rw [List.mem_singleton.mp listed]
    decide

theorem outdated_genuine : outdated.pages.top.Genuine nightlyHost earlierStamp := by
  intro entry member is
  rcases List.mem_cons.mp member with rfl | other
  · rfl
  · cases List.mem_singleton.mp other
    exact absurd is (by decide +kernel)

theorem newest_never_older_nightly : ∃ later, (World.after (nightlyTurns ++ [.act 0 .served]) (World.initial outdated)).newest = some later ∧
    earlierTag ≤ later :=
  @newest_never_older nightlyHost earlierStamp outdated outdated_valid outdated_genuine (by decide +kernel) [] _ earlier_opened earlierTag
    (by decide +kernel)

theorem foreign_kept_nightly : (World.after (nightlyTurns ++ [.act 0 .served]) (World.initial outdated)).top.dev.find (text "Kendryte")
    otherPlatform.key = some otherPlatform :=
  (@foreign_kept nightlyHost (Stamped earlierStamp) outdated outdated_valid [] _ earlier_opened (text "Kendryte") otherPlatform.key
    (.inr (by decide))).1 otherPlatform rfl

end Outdated

end ArduinoK210.Publish
