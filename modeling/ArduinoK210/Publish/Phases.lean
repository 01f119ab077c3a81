import ArduinoK210.Publish.GitHub

/-! `publish` as a machine that is always about to send its next request. What it computes between two requests is done when
the first one answers: the version check, the merge and the retention when the indexes are read, the list of
superseded releases when the tags are. -/

namespace ArduinoK210.Publish

variable {host : Host}

namespace Build
variable (build : Build host)

/-- Whether the release becomes a prerelease. One that is published as a full release keeps its class. -/
def classify (release : Option Release) : Option Bool :=
  let prerelease : Bool := build.channel ≠ .stable
  match release with
  | some release =>
      if release.prerelease then some true
      else if !release.draft && prerelease then none
      else some prerelease
  | none => some prerelease

/-- No entry of the version has different bytes. -/
def agrees (old : Snapshot) : Bool :=
  [old.stable, old.dev].all fun previous => previous.packages.all fun package =>
    package.name ≠ host.template.name || package.platforms.all fun platform =>
      !(platform.architecture = host.template.architecture && removePrefix (text "v") platform.version = build.metadata.version &&
        platform.checksum ≠ build.platform.checksum)

def develop (old : Snapshot) : Option (Index × Option Text) :=
  (mergeIndexes host.unicode [build.index, old.dev, old.stable]).bind fun merged =>
    (retainLatestDev host.unicode host.repository host.template.name host.template.architecture merged.packages).map fun kept =>
      (⟨kept.1⟩, kept.2)

def stabilize (prerelease : Bool) (old : Index) : Option (Option Index) :=
  if prerelease then some none else (mergeIndexes host.unicode [build.index, old]).map some

def publishedDev (listed : List Release) : List Text :=
  (listed.filter fun release => !release.draft && release.prerelease && devTag host.unicode release.tag).map Release.tag

def superseded (latest : Option Text) (listed : List Release) : Bool :=
  build.channel = .dev && (build.tag :: latest.getD build.tag :: @publishedDev host listed).max? ≠ some build.tag

end Build

/-- What the first requests told of the releases. -/
structure Known (build : Build host) where
  release : Option Release
  listed : List Release
  prerelease : Bool
  classified : build.classify release = some prerelease

/-- The indexes that a run is going to publish over those of a commit. -/
structure Plan (build : Build host) extends Known build where
  parent : Commit
  dev : Index
  latest : Option Text
  stable : Option Index
  agrees : build.agrees parent.top = true
  developed : build.develop parent.top = some (dev, latest)
  stabilized : build.stabilize prerelease parent.top.stable = some stable
  newest : build.superseded latest listed = false

inductive File where
  | archive
  | dev
  | stable
  deriving DecidableEq

def Build.fileName (build : Build host) : File → Text
  | .archive => build.archiveName
  | .dev => text "package_k210_dev_index.json"
  | .stable => text "package_k210_index.json"

namespace Plan
variable {build : Build host} (plan : Plan build)

def snapshot : Snapshot := ⟨plan.stable.getD plan.parent.top.stable, plan.dev⟩

def changed : Bool := plan.dev ≠ plan.parent.top.dev || plan.stable.any fun stable => stable ≠ plan.parent.top.stable

def files : List File := [.archive, .dev] ++ if plan.stable.isSome then [.stable] else []

def fileBytes : File → Bytes
  | .archive => build.archive
  | .dev => host.dumps plan.dev
  | .stable => host.dumps (plan.stable.getD Index.empty)

/-- The tags that the indexes and the full releases name. -/
def protectedTags : List Text :=
  ([plan.dev, plan.parent.top.stable].flatMap fun index => index.packages.flatMap fun package =>
      package.platforms.map (downloadTag host.repository)) ++
    (plan.listed.filter fun release => !release.prerelease).map Release.tag ++ [build.tag]

def obsolete (candidate : Text) : Bool :=
  devTag host.unicode candidate && candidate < build.tag && !plan.protectedTags.contains candidate

end Plan

/-- The request that comes next, with what the run knows by then. -/
inductive Phase (build : Build host) where
  | find
  | list (found : Option Release) (number : Nat) (listed : List Release)
  | ref (known : Known build)
  | stable (known : Known build) (parent : Commit)
  | dev (known : Known build) (parent : Commit)
  | create (plan : Plan build)
  | assets (plan : Plan build) (release : Release) (number : Nat) (assets : List Asset)
  | clear (plan : Plan build) (release : Release) (assets : List Asset) (asset : Asset) (file : File) (files : List File)
  | verify (plan : Plan build) (release : Release) (assets : List Asset) (asset : Asset) (files : List File)
  | upload (plan : Plan build) (release : Release) (assets : List Asset) (file : File) (files : List File)
  | undraft (plan : Plan build) (release : Release)
  | base (plan : Plan build)
  | tree (plan : Plan build)
  | commit (plan : Plan build)
  | reference (plan : Plan build)
  | refs (plan : Plan build)
  | deleteRelease (plan : Plan build) (release : Release) (releases : List Release) (tags : List Text)
  | deleteRef (plan : Plan build) (tag : Text) (tags : List Text)
  | done
  | stopped

namespace Phase
variable {build : Build host}

def classified (release : Option Release) (listed : List Release) : Phase build :=
  match same : build.classify release with
  | none => .stopped
  | some prerelease => .ref ⟨release, listed, prerelease, same⟩

def enter (plan : Plan build) : Phase build :=
  match plan.release with
  | none => .create plan
  | some release => .assets plan release 0 []

def decide (known : Known build) (parent : Commit) : Phase build :=
  if agrees : build.agrees parent.top = true then
    match developed : build.develop parent.top with
    | none => .stopped
    | some (fresh, latest) =>
        if newest : build.superseded latest known.listed = false then
          match stabilized : build.stabilize known.prerelease parent.top.stable with
          | none => .stopped
          | some released => enter { known with parent, dev := fresh, latest, stable := released, agrees, developed, stabilized, newest }
        else .done
  else .stopped

def prune (plan : Plan build) : Phase build := if build.channel = .dev then .refs plan else .done

/-- The release is public: the indexes follow where they change. -/
def complete (plan : Plan build) : Phase build :=
  if plan.changed then if plan.parent = [] then .tree plan else .base plan
  else prune plan

/-- `upload` for the rest of the files. A placeholder of a failed upload is removed first, a completed asset stays. -/
def proceed (plan : Plan build) (release : Release) (seen : List Asset) : List File → Phase build
  | [] => if release.draft then .undraft plan release else complete plan
  | file :: files =>
      match seen.reverse.find? fun asset => asset.name = build.fileName file with
      | none => .upload plan release seen file files
      | some asset =>
          if asset.state = .starter then .clear plan release seen asset file files
          else if asset.state ≠ .uploaded ∨ asset.content.length = 0 then .stopped
          else if file = .archive then
            if !asset.digested then .verify plan release seen asset files
            else if host.sha256 asset.content ≠ host.sha256 build.archive then .stopped
            else proceed plan release seen files
          else proceed plan release seen files

def sweep (plan : Plan build) : List Release → List Text → Phase build
  | release :: releases, tags => .deleteRelease plan release releases tags
  | [], tag :: tags => .deleteRef plan tag tags
  | [], [] => .done

/-- The change that a request makes on GitHub, if it is not rejected. -/
def effect (github : GitHub) : Phase build → Option GitHub
  | .create plan => some (github.createRelease build.tag plan.prerelease)
  | .clear _ _ _ asset _ _ => github.deleteAsset asset.id
  | .upload plan release _ file _ => github.upload release.id (build.fileName file) (plan.fileBytes file)
  | .undraft plan release => github.publishRelease release.id plan.prerelease
  | .reference plan => github.push plan.parent plan.snapshot
  | .deleteRelease _ release _ _ => some (github.deleteRelease release.id)
  | .deleteRef _ tag _ => github.deleteRef tag
  | _ => some github

/-- Where the answer of GitHub takes the run. -/
def resume (github : GitHub) : Phase build → Phase build
  | .find =>
      let found := github.releaseByTag build.tag
      if found = none ∨ build.channel = .dev then .list found 0 [] else classified found []
  | .list found number listed =>
      let batch := GitHub.page number github.releases
      if batch.length < 100 then
        classified (found.or ((listed ++ batch).find? fun release => release.tag = build.tag)) (listed ++ batch)
      else .list found (number + 1) (listed ++ batch)
  | .ref known => if github.pages = [] then decide known [] else .stable known github.pages
  | .stable known parent => .dev known parent
  | .dev known parent => decide known parent
  | .create plan => .assets plan (github.created build.tag plan.prerelease) 0 []
  | .assets plan release number seen =>
      match github.release release.id with
      | none => .stopped
      | some current =>
          let batch := GitHub.page number current.assets
          if batch.length < 100 then proceed plan release (seen ++ batch) plan.files
          else .assets plan release (number + 1) (seen ++ batch)
  | .clear plan release seen _ file files => .upload plan release seen file files
  | .verify plan release seen asset files =>
      match github.asset asset.id with
      | none => .stopped
      | some current => if host.sha256 current.content ≠ host.sha256 build.archive then .stopped else proceed plan release seen files
  | .upload plan release seen _ files => proceed plan release seen files
  | .undraft plan _ => complete plan
  | .base plan => .tree plan
  | .tree plan => .commit plan
  | .commit plan => .reference plan
  | .reference plan => prune plan
  | .refs plan =>
      sweep plan (plan.listed.filter fun release => plan.obsolete release.tag) (github.matchingRefs.filter fun tag => plan.obsolete tag)
  | .deleteRelease plan _ releases tags => sweep plan releases tags
  | .deleteRef plan _ tags => sweep plan [] tags
  | .done => .done
  | .stopped => .stopped

/-- The requests that are not reads. -/
def modifies : Phase build → Bool
  | .create _ | .clear .. | .upload .. | .undraft .. | .tree _ | .commit _ | .reference _ | .deleteRelease .. | .deleteRef .. => true
  | _ => false

def finished : Phase build → Bool
  | .done | .stopped => true
  | _ => false

/-- What becomes of a request: it is served, the run stops after or before its effect, or a failed upload leaves an asset. -/
inductive Outcome where
  | served
  | lost
  | refused
  | left (state : AssetState) (content : Bytes) (digested : Bool)

def step (outcome : Outcome) (github : GitHub) (phase : Phase build) : GitHub × Phase build :=
  match outcome, phase.effect github, phase with
  | .served, some after, phase => (after, phase.resume github)
  | .lost, some after, _ => (after, .stopped)
  | .left state content digested, _, .upload _ release _ file _ =>
      ((github.attach release.id (build.fileName file) state content digested).getD github, .stopped)
  | _, _, _ => (github, .stopped)

end Phase

end ArduinoK210.Publish
