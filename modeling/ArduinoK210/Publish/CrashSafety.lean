import ArduinoK210.Publish.Objects
import ArduinoK210.Publish.Safety

/-! Runs that are interleaved in any order and stop anywhere: the indexes name what can be downloaded at any time, and no run
loses the entry of another. -/

namespace ArduinoK210.Publish

variable {host : Host} {stamp : Text → Text}

namespace Job
variable {github : GitHub} {job : Job host}

/-- What holds of a run at any time, whatever the others do. -/
def Safe (stamp : Text → Text) (github : GitHub) (job : Job host) : Prop :=
  job.Sane (Stamped stamp) github ∧ job.phase.Safe stamp github

private theorem Fresh.safe (fresh : job.Fresh (Stamped stamp)) (github : GitHub) : job.Safe stamp github := by
  refine ⟨fresh.sane github, ?_⟩
  rw [fresh.1]
  exact ⟨.inr ⟨nofun, trivial⟩, nofun, nofun⟩

private theorem move_moves (good : github.Good host stamp) (safe : job.Safe stamp github)
    (outcome : Phase.Outcome) : GitHub.Moves host stamp github (job.move outcome github).1 := by
  obtain ⟨⟨sane, stamped⟩, safe⟩ := safe
  rcases move_cases outcome github job with ⟨same, _⟩ | ⟨after, done, same, _⟩ | left
  · rw [same]
    exact ⟨good.valid, good.single, GitHub.Grows.refl github, GitHub.Keeps.refl github, .inl rfl⟩
  · rw [same]
    exact Phase.effect_moves good stamped sane safe done
  · obtain ⟨_, _, _, _, _, _, _, _, _, done, _⟩ := left
    exact Phase.attach_moves good done

private theorem move_safe (good : github.Good host stamp) (safe : job.Safe stamp github)
    (outcome : Phase.Outcome) : (job.move outcome github).2.Safe stamp (job.move outcome github).1 := by
  have moves := move_moves good safe outcome
  obtain ⟨⟨sane, stamped⟩, safe⟩ := safe
  refine ⟨⟨move_sane good.valid sane outcome, ?_⟩, ?_⟩
  · rw [move_build]
    exact stamped
  · rcases move_cases outcome github job with ⟨_, stays | stops⟩ | ⟨after, done, same, served | lost⟩ | left
    · rw [stays]
      exact safe.moves good moves sane
    · rw [stops]
      exact Phase.Safe.stopped _
    · rw [served, same]
      exact Phase.Safe.step good stamped sane safe done
    · rw [lost]
      exact Phase.Safe.stopped _
    · obtain ⟨_, _, _, _, _, _, _, _, _, _, stops⟩ := left
      rw [stops]
      exact Phase.Safe.stopped _

end Job

abbrev World.Safe (stamp : Text → Text) (world : World host) : Prop :=
  Interleave.Consistent (GitHub.Good host stamp) (Job.Safe stamp) world

/-- Every entry that points into the repository names a published release with its archive. -/
def World.Serves (world : World host) : Prop :=
  ∀ name, ∀ entry ∈ world.top.entries name, host.Points entry →
    ∃ release, world.shared.releaseByTag (host.tagOf entry) = some release ∧ Publish.Serves host entry release

section Worlds
variable {world : World host}

private theorem World.Safe.next (turn : Turn host) (safe : world.Safe stamp)
    (ok : Interleave.Starts (Job.Fresh (Stamped stamp)) turn world) : (World.next turn world).Safe stamp := by
  apply Interleave.Consistent.step _ _ _ turn world safe ok
  · intro github job _ fresh
    exact fresh.safe github
  · intro outcome github job good safe
    exact ⟨(Job.move_moves good safe outcome).good good, Job.move_safe good safe outcome⟩
  · intro outcome github job other good safe other_safe
    have moves := Job.move_moves good safe outcome
    exact ⟨⟨other_safe.1.1.grows moves.grows, other_safe.1.2⟩, other_safe.2.moves good moves other_safe.1.1⟩

private theorem World.Safe.after {turns : List (Turn host)} (safe : world.Safe stamp)
    (opened : World.Open (Stamped stamp) turns world) : (World.after turns world).Safe stamp :=
  Run.Guarded.invariant (fun turn _ safe ok => World.Safe.next turn safe ok) opened safe

private theorem World.Safe.serves (safe : world.Safe stamp) : world.Serves := by
  intro name entry member points
  obtain ⟨release, there, serves⟩ := safe.1.served name entry member points
  refine ⟨release, ?_, serves⟩
  rw [← serves.tag]
  exact safe.1.single.releaseByTag safe.1.valid there serves.published

/-- The turn moves the pages to the indexes of the plan of a run. -/
def World.Adds {build : Build host} (turn : Turn host) (world : World host) (plan : Plan build) : Prop :=
  ∃ index outcome, turn = .act index outcome ∧ world.processes[index]? = some ⟨build, .reference plan⟩ ∧
    (World.next turn world).shared.pages = plan.snapshot :: plan.parent

/-- What a property of the indexes says of an entry holds as long as updates keep it. -/
theorem World.Sound.retains {kept : Snapshot → Prop}
    (update : ∀ (other : Build host) (plan : Plan other), Stamped stamp other → plan.parent.top.Genuine host stamp →
      kept plan.parent.top → kept plan.snapshot)
    {turns : List (Turn host)} (sound : world.Sound (Stamped stamp)) (opened : World.Open (Stamped stamp) turns world)
    (genuine : world.top.Genuine host stamp) (initial : kept world.top) : kept (World.after turns world).top := by
  have step : ∀ (other : Build host) (plan : Plan other), Stamped stamp other →
      plan.parent.top.Genuine host stamp ∧ kept plan.parent.top → plan.snapshot.Genuine host stamp ∧ kept plan.snapshot := by
    intro other plan stamped ⟨genuine, still⟩
    exact ⟨plan.genuine_kept stamped genuine, update other plan stamped genuine still⟩
  have both := @World.Sound.keeps _ _ _ (fun snapshot => snapshot.Genuine host stamp ∧ kept snapshot) step _ sound opened ⟨genuine, initial⟩
  exact both.2.2

/-- Runs in any order that stop anywhere: what the indexes list can be downloaded at any time, and the entry that a run adds is
not lost, but that a newer snapshot takes the place of a development build. -/
theorem publish_crash_safe {github : GitHub} (valid : github.Valid) (single : github.Single)
    (served : (World.initial github : World host).Serves) (genuine : github.pages.top.Genuine host stamp) {turns : List (Turn host)}
    (opened : World.Open (Stamped stamp) turns (World.initial github)) :
    (World.after turns (World.initial github)).Serves ∧
      ∀ (front : List (Turn host)) (turn : Turn host) (back : List (Turn host)), turns = front ++ turn :: back →
        ∀ (build : Build host) (plan : Plan build), World.Adds turn (World.after front (World.initial github)) plan →
          (World.after turns (World.initial github)).top.Retains build stamp ∧
            (plan.stable.isSome = true →
              (World.after turns (World.initial github)).top.stable.Retains host.template.name build.platform) := by
  have available : github.Served host := by
    intro name entry member points
    obtain ⟨release, found, serves⟩ := served name entry member points
    exact ⟨release, (GitHub.releaseByTag_some found).1, serves⟩
  have initial : (World.initial github : World host).Safe stamp := ⟨⟨valid, single, genuine, available⟩, fun _ member => absurd member List.not_mem_nil⟩
  refine ⟨(initial.after opened).serves, ?_⟩
  rintro front turn back rfl build plan ⟨index, outcome, rfl, there, moved⟩
  have before := initial.after (opened.front (List.prefix_append front _))
  have stamped : Stamped stamp build := (before.2 _ (List.mem_of_getElem? there)).1.2
  have later := opened.back
  have after := before.next _ later.1
  have sound : (World.next (.act index outcome) (World.after front (World.initial github))).Sound (Stamped stamp) :=
    ⟨after.1.valid, fun job member => (after.2 job member).1⟩
  have top : (World.next (.act index outcome) (World.after front (World.initial github))).top = plan.snapshot := congrArg Commit.top moved
  have whole : World.after (front ++ .act index outcome :: back) (World.initial github) =
      World.after back (World.next (.act index outcome) (World.after front (World.initial github))) :=
    Run.run_append World.next front (.act index outcome :: back) (World.initial github)
  rw [whole]
  constructor
  · apply sound.retains (fun other plan stamped' genuine kept => Plan.retains_next stamped stamped' genuine kept) later.2 after.1.genuine
    rw [top]
    exact plan.retains_own stamp
  · intro full
    have update : ∀ (other : Build host) (plan : Plan other), Stamped stamp other → plan.parent.top.Genuine host stamp →
        plan.parent.top.stable.Retains host.template.name build.platform → plan.snapshot.stable.Retains host.template.name build.platform :=
      fun other plan stamped' _ kept => Plan.stable_retains stamped stamped' kept
    have listed := plan.stable_own full
    rw [← top] at listed
    exact @World.Sound.retains _ _ _ (fun snapshot => snapshot.stable.Retains host.template.name build.platform) update _ sound later.2
      after.1.genuine listed

end Worlds

section Rerun

def nightlyMetadata : Metadata :=
  { tag := text "dev-20250102030405-0123456789ab", version := text "1.2.3-dev.20250102030405.g0123456789ab", channel := .dev }

theorem nightly_released : ∃ event ref checkout, releaseMetadata asciiUnicode event ref checkout = some nightlyMetadata :=
  ⟨⟨.push, false, none⟩, text "refs/heads/main",
    ⟨text "0123456789abcdef0123456789abcdef01234567", text "20250102030405", text "1.2.3", fun _ => none, by simp [text], by simp [text]⟩, rfl⟩

def archiveBytes : Bytes := [97, 98, 99]

def nightlyHost : Host :=
  { unicode := asciiUnicode
    repository := text "kendryte/arduino-k210"
    template := ⟨text "Kendryte", text "K210", [], [], fun _ _ => []⟩
    sha256 := fun bytes => if bytes = archiveBytes then text "ba7816bf8f01cfea414140de5dae2223b00361a396177a9cb410ff61f20015ad"
      else text "e3b0c44298fc1c149afbf4c8996fb92427ae41e4649b934ca495991b7852b855"
    dumps := fun _ => [] }

def nightlyBuild : Build nightlyHost := ⟨nightlyMetadata, archiveBytes, nightly_released⟩

/-- A run has stopped before it moved the pages. -/
def interrupted : GitHub :=
  { releases := [⟨0, nightlyMetadata.tag, false, true, [⟨1, nightlyBuild.archiveName, .uploaded, archiveBytes, true⟩,
      ⟨2, text "package_k210_dev_index.json", .uploaded, [123, 125, 10], true⟩]⟩]
    tags := [nightlyMetadata.tag]
    pages := []
    next := 3 }

def rerun : List (Turn nightlyHost) := .start ⟨nightlyBuild, .find⟩ :: List.replicate 8 (.act 0 .served)

theorem interrupted_valid : interrupted.Valid := by
  constructor <;> decide

theorem interrupted_single : interrupted.Single := by
  unfold GitHub.Single
  decide

/-- The tag of an archive by its checksum. -/
def nightlyStamp (_ : Text) : Text := nightlyMetadata.tag

private theorem nightly_opened : World.Open (Stamped nightlyStamp) rerun (World.initial interrupted) :=
  ⟨⟨rfl, rfl⟩, World.Open.acts 8 0 .served⟩

private theorem nightly_pushed : ∃ plan : Plan nightlyBuild, World.Adds (.act 0 .served)
    (World.after (.start ⟨nightlyBuild, .find⟩ :: List.replicate 6 (.act 0 .served)) (World.initial interrupted)) plan :=
  ⟨_, 0, .served, rfl, rfl, rfl⟩

theorem publish_crash_safe_rerun : (World.after rerun (World.initial interrupted)).Serves ∧
    (World.after rerun (World.initial interrupted)).top.Retains nightlyBuild nightlyStamp := by
  have none_listed : ∀ name, ∀ entry, entry ∉ interrupted.pages.top.entries name := by
    intro name entry member
    exact List.not_mem_nil member
  obtain ⟨served, kept⟩ := publish_crash_safe interrupted_valid interrupted_single (fun name entry member => absurd member (none_listed name entry))
    (fun entry member => absurd member (none_listed _ entry)) nightly_opened
  obtain ⟨plan, adds⟩ := nightly_pushed
  exact ⟨served, (kept _ _ [.act 0 .served] rfl nightlyBuild plan adds).1⟩

end Rerun

end ArduinoK210.Publish
