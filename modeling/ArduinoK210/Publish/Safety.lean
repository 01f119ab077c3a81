import ArduinoK210.Publish.Serving

/-! Runs that are in each other's way, and stop anywhere. A run that finds its release gone has been superseded: a newer snapshot
is listed, so it will not move the pages any more. Otherwise what it is going to list is there when it lists it. -/

namespace ArduinoK210.Publish

variable {host : Host}

/-- A newer snapshot is listed than the one that the build is. -/
def Build.Dead (build : Build host) (stamp : Text → Text) (github : GitHub) : Prop :=
  build.channel = .dev ∧ ∃ tag, build.tag < tag ∧ github.pages.top.Newest host stamp tag

/-- A snapshot that no index lists, while a newer one is listed. -/
structure Gone (host : Host) (stamp : Text → Text) (github : GitHub) (tag : Text) : Prop where
  generated : devTag host.unicode tag = true
  newer : ∃ newest, tag < newest ∧ github.pages.top.Newest host stamp newest
  unlisted : ∀ name, ∀ entry ∈ github.pages.top.entries name, host.tagOf entry ≠ tag

namespace GitHub

/-- What holds between any two requests. -/
structure Good (host : Host) (stamp : Text → Text) (github : GitHub) : Prop where
  valid : github.Valid
  single : github.Single
  genuine : github.pages.top.Genuine host stamp
  served : github.Served host

/-- What a request of any run does. -/
structure Moves (host : Host) (stamp : Text → Text) (github after : GitHub) : Prop where
  valid : after.Valid
  single : after.Single
  grows : Grows github after
  keeps : Keeps (Gone host stamp github) github after
  pages : after.pages = github.pages ∨ ∃ (build : Build host) (plan : Plan build), Stamped stamp build ∧ plan.parent = github.pages ∧
    after.pages = plan.snapshot :: github.pages ∧ after.Available host build.platform

/-- The release of the number is there, and published if it was. -/
def Stays (github : GitHub) (release : Release) : Prop :=
  ∃ current ∈ github.releases, current.id = release.id ∧ (release.draft = false → current.draft = false)

variable {github after : GitHub} {stamp : Text → Text} {build : Build host}

section Moves
variable (before : github.Good host stamp) (moves : Moves host stamp github after)

include before moves

private theorem Moves.newest {tag : Text} (newest : github.pages.top.Newest host stamp tag) : after.pages.top.Newest host stamp tag := by
  rcases moves.pages with same | ⟨build, plan, stamped, from_parent, moved, _⟩
  · exact same ▸ newest
  · have old : github.pages.top = plan.parent.top := congrArg Commit.top from_parent.symm
    rw [moved]
    exact plan.newest_kept stamped (old ▸ before.genuine) (old ▸ newest)

private theorem Moves.settled {plan : Plan build} (settled : plan.Settled stamp github.pages.top) : plan.Settled stamp after.pages.top := by
  rcases moves.pages with same | ⟨other, later, stamped, from_parent, moved, _⟩
  · exact same ▸ settled
  · have old : github.pages.top = later.parent.top := congrArg Commit.top from_parent.symm
    rw [moved]
    exact Plan.Settled.next (old ▸ settled) stamped (old ▸ before.genuine)

private theorem Moves.dead (dead : build.Dead stamp github) : build.Dead stamp after := by
  obtain ⟨dev, tag, newer, newest⟩ := dead
  exact ⟨dev, tag, newer, moves.newest before newest⟩

/-- A release of the tag of a build stays, or the build has been superseded. -/
theorem Moves.stays {release : Release} (named : github.Named release) (tag : release.tag = build.tag) (stays : github.Stays release) :
    build.Dead stamp after ∨ after.Stays release := by
  obtain ⟨current, member, same, published⟩ := stays
  have currentTag : current.tag = build.tag := (named.2 current member same).trans tag
  by_cases gone : Gone host stamp github current.tag
  · rw [currentTag] at gone
    obtain ⟨generated, ⟨newest, newer, listed⟩, _⟩ := gone
    exact .inl (moves.dead before ⟨build.sound.generated.mp generated, newest, newer, listed⟩)
  · obtain ⟨later, there, kept, still⟩ := moves.keeps current member gone
    exact .inr ⟨later, there, kept.id.symm.trans same, fun draft => still (published draft)⟩

private theorem Moves.available_own (available : github.Available host build.platform) :
    build.Dead stamp after ∨ after.Available host build.platform := by
  by_cases gone : Gone host stamp github (host.tagOf build.platform)
  · rw [build.tagOf_platform] at gone
    obtain ⟨generated, ⟨newest, newer, listed⟩, _⟩ := gone
    exact .inl (moves.dead before ⟨build.sound.generated.mp generated, newest, newer, listed⟩)
  · exact .inr (moves.keeps.available available gone)

/-- What the indexes list is served after any request of any run. -/
theorem Moves.good : after.Good host stamp := by
  have listed : ∀ name, ∀ entry ∈ github.pages.top.entries name, host.Points entry → after.Available host entry := by
    intro name entry member points
    apply moves.keeps.available (before.served name entry member points)
    intro gone
    exact gone.unlisted name entry member rfl
  refine ⟨moves.valid, moves.single, ?_, ?_⟩
  · rcases moves.pages with same | ⟨build, plan, stamped, from_parent, moved, _⟩
    · exact same ▸ before.genuine
    · have old : github.pages.top = plan.parent.top := congrArg Commit.top from_parent.symm
      rw [moved]
      exact plan.genuine_kept stamped (old ▸ before.genuine)
  · intro name entry member points
    rcases moves.pages with same | ⟨build, plan, stamped, from_parent, moved, available⟩
    · exact listed name entry (same ▸ member) points
    · have old : github.pages.top = plan.parent.top := congrArg Commit.top from_parent.symm
      rw [moved] at member
      rcases plan.origin member with there | ⟨_, rfl⟩
      · exact listed name entry (old ▸ there) points
      · exact available

end Moves

end GitHub

namespace Phase
variable {build : Build host} {github after : GitHub} {stamp : Text → Text} {phase : Phase build}

/-- The releases among which the run looks for that of its tag, and then the one it has. -/
def sought : Phase build → List Release
  | .list found _ listed => found.toList ++ listed
  | .ref known | .stable known _ | .dev known _ => known.releases
  | .assets _ release _ _ | .clear _ release _ _ _ _ | .verify _ release _ _ _ | .upload _ release _ _ _ | .undraft _ release => [release]
  | _ => []

/-- The plan of a run that removes what is obsolete. -/
def pruning : Phase build → Option (Plan build)
  | .refs plan | .deleteRelease plan _ _ _ | .deleteRef plan _ _ => some plan
  | _ => none

/-- What a run has made sure of on its way to the indexes. -/
def Holds (github : GitHub) : Phase build → Prop
  | .clear _ release _ _ file files | .upload _ release _ file files => .archive ∈ file :: files ∨ github.Filled build release.id
  | .undraft _ release => github.Filled build release.id
  | .base _ | .tree _ | .commit _ | .reference _ => github.Available host build.platform
  | _ => True

structure Ready (github : GitHub) (phase : Phase build) : Prop where
  stays : ∀ release ∈ phase.sought, release.tag = build.tag → github.Stays release
  holds : phase.Holds github

/-- A plan for the commit that changes nothing has been carried out. -/
def Rests (build : Build host) (stamp : Text → Text) (github : GitHub) (parent : Commit) : Prop :=
  build.channel = .dev → ∀ plan : Plan build, plan.parent = parent → plan.changed = false → plan.Settled stamp github.pages.top

structure Safe (stamp : Text → Text) (github : GitHub) (phase : Phase build) : Prop where
  ready : build.Dead stamp github ∨ phase.Ready github
  settled : ∀ plan ∈ phase.pruning, plan.Settled stamp github.pages.top
  rests : ∀ parent ∈ phase.parent, Rests build stamp github parent

private theorem sought_named (sane : phase.Sane github) {release : Release} (member : release ∈ phase.sought) : github.Named release := by
  have known : ∀ known : Known build, release ∈ known.releases → release ∈ known.release ∨ release ∈ known.listed := by
    intro known member
    rcases List.mem_append.mp member with own | listed
    · exact .inl (Option.mem_toList.mp own)
    · exact .inr listed
  cases phase with
  | list found number listed =>
    rcases List.mem_append.mp member with own | listed
    · exact (sane.target release (Option.mem_toList.mp own)).1
    · exact sane.listing release listed
  | ref given | stable given parent | dev given parent =>
    rcases known given member with own | listed
    · exact (sane.target release own).1
    · exact sane.listing release listed
  | assets plan one number seen | clear plan one seen asset file files | verify plan one seen asset files | upload plan one seen file files
  | undraft plan one =>
    cases List.mem_singleton.mp member
    exact (sane.target release rfl).1
  | _ => cases member

private theorem Holds.moves (good : github.Good host stamp) (moves : GitHub.Moves host stamp github after)
    (sane : phase.Sane github) (holds : phase.Holds github) : build.Dead stamp after ∨ phase.Holds after := by
  have filled : ∀ release, release ∈ phase.target → github.Filled build release.id → after.Filled build release.id :=
    fun release member filled => filled.grows (sane.target release member).1.1 moves.grows
  cases phase with
  | clear plan release seen asset file files | upload plan release seen file files => exact .inr (holds.imp_right (filled release rfl))
  | undraft plan release => exact .inr (filled release rfl holds)
  | base plan | tree plan | commit plan | reference plan => exact moves.available_own good holds
  | _ => exact .inr trivial

/-- What a run relies on holds after the requests of the others. -/
theorem Safe.moves (good : github.Good host stamp) (moves : GitHub.Moves host stamp github after)
    (sane : phase.Sane github) (safe : phase.Safe stamp github) : phase.Safe stamp after := by
  refine ⟨?_, ?_, ?_⟩
  · rcases safe.ready with dead | ready
    · exact .inl (moves.dead good dead)
    · by_cases dead : build.Dead stamp after
      · exact .inl dead
      · refine .inr ⟨?_, (ready.holds.moves good moves sane).resolve_left dead⟩
        intro release member tag
        exact (moves.stays good (sought_named sane member) tag (ready.stays release member tag)).resolve_left dead
  · intro plan member
    exact moves.settled good (safe.settled plan member)
  · intro parent member dev plan same unchanged
    exact moves.settled good (safe.rests parent member dev plan same unchanged)

private theorem settled_gone {plan : Plan build} (settled : plan.Settled stamp github.pages.top) {tag : Text} (old : plan.obsolete tag = true) :
    Gone host stamp github tag := by
  obtain ⟨generated, older, _⟩ := Plan.obsolete_iff.mp old
  refine ⟨generated, ⟨build.tag, older, settled.newest⟩, ?_⟩
  intro name entry member same
  have current := settled.clear name entry member
  rw [same, old] at current
  cases current

/-- A request that leaves the releases as they are, or changes them in their places, does no harm. -/
theorem Moves.quiet (valid : after.Valid) (single : after.Single) (grows : GitHub.Grows github after)
    (keeps : GitHub.Keeps (Gone host stamp github) github after) (pages : after.pages = github.pages) : GitHub.Moves host stamp github after :=
  ⟨valid, single, grows, keeps, .inl pages⟩

theorem attach_moves (good : github.Good host stamp) {id : Nat} {name : Text} {state : AssetState} {content : Bytes} {digested : Bool}
    (done : github.attach id name state content digested = some after) : GitHub.Moves host stamp github after := by
  have made := GitHub.attach_edit good.valid done
  exact Moves.quiet (made.valid good.valid) (GitHub.attach_single good.valid good.single done) (GitHub.attach_grows good.valid done)
    (GitHub.attach_keeps good.valid done) made.pages

/-- The pages move only to entries that are served: a run that has been superseded finds them moved. -/
theorem push_moves (good : github.Good host stamp) (stamped : Stamped stamp build) {plan : Plan build}
    (sane : (Phase.reference plan).Sane github) (safe : (Phase.reference plan).Safe stamp github)
    (done : github.push plan.parent plan.snapshot = some after) : GitHub.Moves host stamp github after := by
  obtain ⟨releases, _, moved, _⟩ := GitHub.push_some done
  have keeps : GitHub.Keeps (Gone host stamp github) github after := GitHub.Keeps.of_releases releases
  have single : after.Single := by
    intro one first other second
    exact good.single one (releases ▸ first) other (releases ▸ second)
  refine ⟨GitHub.push_valid good.valid done, single, GitHub.push_grows done, keeps, ?_⟩
  rcases GitHub.push_parent (sane.parent _ rfl) done with from_parent | stays
  · refine .inr ⟨build, plan, stamped, from_parent, moved.trans (congrArg (plan.snapshot :: ·) from_parent), ?_⟩
    rcases safe.ready with ⟨dev, tag, newer, newest⟩ | ready
    · rw [← from_parent] at newest
      exact absurd (plan.newest_le stamped dev newest) (not_le_of_gt newer)
    · obtain ⟨release, member, serves⟩ := ready.holds
      exact ⟨release, releases ▸ member, serves⟩
  · exact .inl stays.symm

theorem effect_moves (good : github.Good host stamp) (stamped : Stamped stamp build)
    (sane : phase.Sane github) (safe : phase.Safe stamp github) (done : phase.effect github = some after) :
    GitHub.Moves host stamp github after := by
  have valid := effect_valid good.valid done
  have grows := effect_grows good.valid sane done
  cases phase with
  | create plan =>
    cases done
    exact Moves.quiet valid (GitHub.createRelease_single good.single _ _) grows (GitHub.createRelease_keeps _ _) rfl
  | clear plan release seen asset file files =>
    obtain ⟨inside, starter⟩ := sane.formed
    apply Moves.quiet valid (GitHub.deleteAsset_single good.valid good.single done) grows
    · apply GitHub.deleteAsset_keeps good.valid done
      intro current member same
      rw [(sane.seen asset inside release rfl).same current member same]
      exact starter
    · exact (GitHub.deleteAsset_edit good.valid done).pages
  | upload plan release seen file files => exact attach_moves good done
  | undraft plan release =>
    exact Moves.quiet valid (GitHub.publishRelease_single good.valid good.single done) grows
      (GitHub.publishRelease_keeps good.valid done) (GitHub.publishRelease_edit good.valid done).pages
  | reference plan => exact push_moves good stamped sane safe done
  | deleteRelease plan release releases tags =>
    cases done
    apply Moves.quiet valid (GitHub.deleteRelease_single good.single _) grows
    · apply GitHub.deleteRelease_keeps
      intro current member same
      obtain ⟨_, old, _⟩ := sane.formed
      obtain ⟨listed, obsolete⟩ := old release List.mem_cons_self
      rw [(sane.listing release listed).2 current member same]
      exact settled_gone (safe.settled plan rfl) obsolete
    · rfl
  | deleteRef plan tag tags =>
    apply Moves.quiet valid (GitHub.deleteRef_single good.valid good.single done) grows
    · exact GitHub.deleteRef_keeps good.valid done (settled_gone (safe.settled plan rfl) (sane.formed.2 tag List.mem_cons_self))
    · exact (GitHub.deleteRef_edit good.valid done).pages
  | _ =>
    cases done
    exact Moves.quiet valid good.single grows (GitHub.Keeps.refl github) rfl

theorem Safe.stopped (github : GitHub) : (.stopped : Phase build).Safe stamp github :=
  ⟨.inr ⟨nofun, trivial⟩, nofun, nofun⟩

private theorem Safe.done (github : GitHub) : (.done : Phase build).Safe stamp github :=
  ⟨.inr ⟨nofun, trivial⟩, nofun, nofun⟩

section Next
variable {plan : Plan build}

private theorem parent_only {parent : Commit} (rests : Rests build stamp github parent) :
    ∀ commit ∈ (some parent : Option Commit), Rests build stamp github commit := by
  intro commit member
  cases member
  exact rests

private theorem Safe.prune (settled : build.channel = .dev → plan.Settled stamp github.pages.top) (rests : Rests build stamp github plan.parent) :
    (Phase.prune plan).Safe stamp github := by
  apply prune_rule
  · intro dev
    refine ⟨.inr ⟨nofun, trivial⟩, ?_, parent_only rests⟩
    intro one member
    cases member
    exact settled dev
  · exact Safe.done github

private theorem Safe.complete (available : build.Dead stamp github ∨ github.Available host build.platform)
    (rests : Rests build stamp github plan.parent) : (Phase.complete plan).Safe stamp github := by
  have ready : build.Dead stamp github ∨ (Phase.tree plan).Ready github := available.imp_right fun holds => ⟨nofun, holds⟩
  apply complete_rule
  · intro _ _
    exact ⟨ready, nofun, parent_only rests⟩
  · intro _
    exact ⟨available.imp_right fun holds => ⟨nofun, holds⟩, nofun, parent_only rests⟩
  · intro unchanged
    exact Safe.prune (fun dev => rests dev plan rfl unchanged) rests

/-- The rest of the files, after the archive or with it. -/
theorem Safe.proceed {release : Release} {seen : List Asset} (files : List File) (sane : (Phase.assets plan release 0 seen).Sane github)
    (stays : build.Dead stamp github ∨ github.Stays release)
    (filled : .archive ∈ files ∨ build.Dead stamp github ∨ github.Filled build release.id) (rests : Rests build stamp github plan.parent) :
    (Phase.proceed plan release seen files).Safe stamp github := by
  have mine : build.Dead stamp github ∨ ∀ one ∈ [release], one.tag = build.tag → github.Stays one := by
    refine stays.imp_right fun there one member _ => ?_
    cases List.mem_singleton.mp member
    exact there
  have holding : ∀ {phase : Phase build}, phase.sought = [release] → (build.Dead stamp github ∨ phase.Holds github) →
      build.Dead stamp github ∨ phase.Ready github := by
    intro phase same holds
    rcases mine with dead | there
    · exact .inl dead
    · refine holds.imp_right fun held => ⟨?_, held⟩
      rw [same]
      exact there
  apply proceed_rule (R := build.Dead stamp github ∨ github.Filled build release.id) files filled
  · intro asset member named uploaded bytes
    exact .inr ((sane.seen asset member release rfl).filled named uploaded bytes)
  · exact Safe.stopped github
  · intro given _
    exact ⟨holding rfl given, nofun, parent_only rests⟩
  · intro given published
    refine Safe.complete ?_ rests
    rcases given with dead | full
    · exact .inl dead
    · refine stays.imp_right fun ⟨current, member, same, still⟩ => ?_
      obtain ⟨named, tag⟩ := sane.target release rfl
      exact full.available member same (still published) ((named.2 current member same).trans tag)
  · intro file rest given
    refine ⟨holding rfl ?_, nofun, parent_only rests⟩
    rcases given with first | dead | full
    · exact .inr (.inl first)
    · exact .inl dead
    · exact .inr (.inr full)
  · intro asset _ _ file rest given
    refine ⟨holding rfl ?_, nofun, parent_only rests⟩
    rcases given with first | dead | full
    · exact .inr (.inl first)
    · exact .inl dead
    · exact .inr (.inr full)
  · intro asset _ _ _ rest
    exact ⟨holding rfl (.inr trivial), nofun, parent_only rests⟩

private theorem Safe.decide {known : Known build} {parent : Commit}
    (stays : build.Dead stamp github ∨ ∀ release ∈ known.releases, release.tag = build.tag → github.Stays release)
    (rests : Rests build stamp github parent) : (Phase.decide known parent).Safe stamp github := by
  apply decide_rule (Safe.stopped github) (fun _ _ _ _ _ => Safe.done github)
  intro plan same from_parent
  subst same from_parent
  apply enter_rule
  · intro _
    exact ⟨.inr ⟨nofun, trivial⟩, nofun, parent_only rests⟩
  · intro release found
    refine ⟨stays.imp_right fun all => ⟨?_, trivial⟩, nofun, parent_only rests⟩
    intro one member
    cases List.mem_singleton.mp member
    exact all release (List.mem_append_left _ (Option.mem_toList.mpr found))

private theorem Safe.classified {release : Option Release} {listed : List Release}
    (stays : build.Dead stamp github ∨ ∀ one ∈ release.toList ++ listed, one.tag = build.tag → github.Stays one) :
    (Phase.classified release listed : Phase build).Safe stamp github := by
  apply classified_rule (Safe.stopped github)
  intro known first second
  refine ⟨stays.imp_right fun all => ⟨?_, trivial⟩, nofun, nofun⟩
  rw [← first, ← second] at all
  exact all

private theorem Safe.sweep {releases : List Release} {tags : List Text} (settled : plan.Settled stamp github.pages.top)
    (rests : Rests build stamp github plan.parent) : (Phase.sweep plan releases tags).Safe stamp github := by
  have own : ∀ one ∈ (some plan : Option (Plan build)), one.Settled stamp github.pages.top := by
    intro one member
    cases member
    exact settled
  apply sweep_rule
  · intro release rest _
    exact ⟨.inr ⟨nofun, trivial⟩, own, parent_only rests⟩
  · intro tag rest _
    exact ⟨.inr ⟨nofun, trivial⟩, own, parent_only rests⟩
  · exact Safe.done github

end Next

/-- What a run relies on after its own request. -/
theorem Safe.step (good : github.Good host stamp) (stamped : Stamped stamp build)
    (sane : phase.Sane github) (safe : phase.Safe stamp github) (done : phase.effect github = some after) :
    (phase.resume github).Safe stamp after := by
  have moves := effect_moves good stamped sane safe done
  have sane' := sane.grows moves.grows
  have safe' := safe.moves good moves sane
  have mine : ∀ release, release ∈ phase.sought → release.tag = build.tag → build.Dead stamp after ∨ after.Stays release := by
    intro release member tag
    exact safe'.ready.imp_right fun ready => ready.stays release member tag
  have holds := safe'.ready.imp_right Ready.holds
  have there : ∀ release ∈ github.releases, github.Stays release := fun release member => ⟨release, member, rfl, id⟩
  cases phase with
  | find =>
    cases done
    have found : ∀ one ∈ github.releaseByTag build.tag, github.Stays one :=
      fun one member => there one (GitHub.releaseByTag_some member).1
    dsimp only [resume]
    split
    · refine ⟨.inr ⟨?_, trivial⟩, nofun, nofun⟩
      intro one member _
      rw [sought, List.append_nil] at member
      exact found one (Option.mem_toList.mp member)
    · apply Safe.classified
      refine .inr fun one member _ => ?_
      rw [List.append_nil] at member
      exact found one (Option.mem_toList.mp member)
  | list found number listed =>
    cases done
    have all : build.Dead stamp github ∨ ∀ one ∈ found.toList ++ (listed ++ GitHub.page number github.releases),
        one.tag = build.tag → github.Stays one := by
      refine safe.ready.imp_right fun ready one member tag => ?_
      rw [← List.append_assoc] at member
      rcases List.mem_append.mp member with old | new
      · exact ready.stays one old tag
      · exact there one (mem_page new)
    dsimp only [resume]
    split
    · apply Safe.classified
      refine all.imp_right fun every one member tag => every one ?_ tag
      rcases List.mem_append.mp member with own | other
      · rcases Option.or_eq_some_iff.mp (Option.mem_toList.mp own) with first | ⟨_, second⟩
        · exact List.mem_append_left _ (Option.mem_toList.mpr first)
        · exact List.mem_append_right _ (List.mem_of_find?_eq_some second)
      · exact List.mem_append_right _ other
    · exact ⟨all.imp_right fun every => ⟨every, trivial⟩, nofun, nofun⟩
  | ref known =>
    cases done
    have stays := safe.ready.imp_right Ready.stays
    have rests : Rests build stamp github github.pages := by
      intro dev plan same unchanged
      have settled := plan.settled_own stamped dev
      rw [plan.snapshot_unchanged unchanged, same] at settled
      exact settled
    dsimp only [resume]
    split
    · next empty => exact Safe.decide stays (empty ▸ rests)
    · exact ⟨stays.imp_right fun all => ⟨all, trivial⟩, nofun, parent_only rests⟩
  | stable known parent => exact ⟨safe'.ready.imp_right fun ready => ⟨ready.stays, trivial⟩, nofun, safe'.rests⟩
  | dev known parent => exact Safe.decide (safe'.ready.imp_right Ready.stays) (safe'.rests parent rfl)
  | create plan =>
    cases done
    refine ⟨.inr ⟨?_, trivial⟩, nofun, safe'.rests⟩
    intro one member _
    cases List.mem_singleton.mp member
    exact ⟨_, List.mem_cons_self, rfl, id⟩
  | assets plan release number seen =>
    cases done
    have stays := mine release List.mem_cons_self (sane.target release rfl).2
    dsimp only [resume]
    split
    · exact Safe.stopped github
    · next current found =>
      have paged := sane.paged_assets good.valid found
      split
      · exact Safe.proceed _ ⟨paged.target, paged.listing, paged.seen, paged.parent, trivial⟩ stays (.inl List.mem_cons_self)
          (safe.rests _ rfl)
      · exact ⟨safe.ready.imp_right fun ready => ⟨ready.stays, trivial⟩, nofun, safe.rests⟩
  | clear plan release seen asset file files => exact ⟨safe'.ready.imp_right fun ready => ⟨ready.stays, ready.holds⟩, nofun, safe'.rests⟩
  | verify plan release seen asset files =>
    cases done
    have stays := mine release List.mem_cons_self (sane.target release rfl).2
    dsimp only [resume]
    split
    · exact Safe.stopped github
    · next current found =>
      split
      · exact Safe.stopped github
      · next bytes =>
        obtain ⟨inside, named, uploaded⟩ := sane.formed
        have look := sane.seen asset inside release rfl
        obtain ⟨member, same⟩ := GitHub.asset_some found
        rw [look.same current member same] at bytes
        refine Safe.proceed _ ⟨sane.target, sane.listing, sane.seen, sane.parent, trivial⟩ stays ?_ (safe.rests _ rfl)
        exact .inr (.inr (look.filled named uploaded (not_not.mp bytes)))
  | upload plan release seen file files =>
    have stays := mine release List.mem_cons_self (sane.target release rfl).2
    refine Safe.proceed _ ⟨sane'.target, sane'.listing, sane'.seen, sane'.parent, trivial⟩ stays ?_ (safe'.rests _ rfl)
    by_cases archive : file = .archive
    · subst archive
      exact .inr (.inr (GitHub.upload_filled done))
    · rcases holds with dead | first | full
      · exact .inr (.inl dead)
      · exact .inl ((List.mem_cons.mp first).resolve_left fun same => archive same.symm)
      · exact .inr (.inr full)
  | undraft plan release =>
    apply Safe.complete _ (safe'.rests _ rfl)
    rcases safe'.ready with dead | ready
    · exact .inl dead
    · obtain ⟨named, tag⟩ := sane'.target release rfl
      obtain ⟨current, member, same, _⟩ := ready.stays release List.mem_cons_self tag
      have published := GitHub.publishRelease_published done member same
      exact .inr (GitHub.Filled.available ready.holds member same published ((named.2 current member same).trans tag))
  | base plan | tree plan | commit plan =>
    exact ⟨safe'.ready.imp_right fun ready => ⟨nofun, ready.holds⟩, nofun, safe'.rests⟩
  | reference plan =>
    obtain ⟨_, _, moved, _⟩ := GitHub.push_some done
    apply Safe.prune _ (safe'.rests _ rfl)
    intro dev
    rw [moved]
    exact plan.settled_own stamped dev
  | refs plan => exact Safe.sweep (safe'.settled plan rfl) (safe'.rests _ rfl)
  | deleteRelease plan release releases tags => exact Safe.sweep (safe'.settled plan rfl) (safe'.rests _ rfl)
  | deleteRef plan tag tags => exact Safe.sweep (safe'.settled plan rfl) (safe'.rests _ rfl)
  | done => exact safe'
  | stopped => exact safe'

end Phase

end ArduinoK210.Publish
