import ArduinoK210.Publish.Jobs

/-! A run that no other disturbs: the releases it has listed are those of GitHub, its plan is made for the commit the pages
are at, and the release it fills is the one that a later run of its tag finds. -/

namespace ArduinoK210.Publish

variable {host : Host}

/-- The asset that `publish` takes for a name. -/
def lastNamed (name : Text) (assets : List Asset) : Option Asset := assets.reverse.find? fun asset => asset.name = name

theorem lastNamed_some {name : Text} {assets : List Asset} {asset : Asset} (found : lastNamed name assets = some asset) :
    asset ∈ assets ∧ asset.name = name :=
  ⟨List.mem_reverse.mp (List.mem_of_find?_eq_some found), by simpa using List.find?_some found⟩

theorem lastNamed_append {name : Text} (assets : List Asset) (asset : Asset) :
    lastNamed name (assets ++ [asset]) = if asset.name = name then some asset else lastNamed name assets := by
  rw [lastNamed, List.reverse_append, List.reverse_singleton, List.singleton_append]
  split
  · next same => exact List.find?_cons_of_pos (by simpa using same)
  · next other => exact List.find?_cons_of_neg (by simpa using other)

private theorem find?_agree {α : Type} {items : List α} {one other : α → Bool} (agree : ∀ item ∈ items, one item = other item) :
    items.find? one = items.find? other := by
  induction items with
  | nil => rfl
  | cons item items ih =>
    rw [List.find?_cons, List.find?_cons, agree item List.mem_cons_self, ih fun other member => agree other (List.mem_cons_of_mem item member)]

theorem lastNamed_filter {name : Text} {assets : List Asset} {keep : Asset → Bool}
    (kept : ∀ asset ∈ assets, asset.name = name → keep asset = true) : lastNamed name (assets.filter keep) = lastNamed name assets := by
  rw [lastNamed, ← List.filter_reverse, List.find?_filter, lastNamed]
  apply find?_agree
  intro asset member
  by_cases named : asset.name = name
  · simp [named, kept asset (List.mem_reverse.mp member) named]
  · simp [named]

namespace Build
variable (build : Build host)

theorem fileName_inj {one other : File} (same : build.fileName one = build.fileName other) : one = other := by
  have first : build.archiveName.head? = some 'k' := rfl
  have dev : build.archiveName ≠ text "package_k210_dev_index.json" := by
    intro equal
    rw [equal] at first
    exact absurd first (by decide)
  have stable : build.archiveName ≠ text "package_k210_index.json" := by
    intro equal
    rw [equal] at first
    exact absurd first (by decide)
  have indexes : text "package_k210_dev_index.json" ≠ text "package_k210_index.json" := by decide
  cases one with
  | archive =>
    cases other with
    | archive => rfl
    | dev => exact absurd same dev
    | stable => exact absurd same stable
  | dev =>
    cases other with
    | archive => exact absurd same.symm dev
    | dev => rfl
    | stable => exact absurd same indexes
  | stable =>
    cases other with
    | archive => exact absurd same.symm stable
    | dev => exact absurd same.symm indexes
    | stable => rfl

/-- The release that a run finds: the published one of its tag or the first one in the list. -/
def resolve (github : GitHub) : Option Release :=
  (github.releaseByTag build.tag).or (github.releases.find? fun release => release.tag = build.tag)

end Build

theorem classify_dev {build : Build host} (dev : build.channel = .dev) {release : Option Release} {prerelease : Bool}
    (done : build.classify release = some prerelease) : prerelease = true := by
  have other : build.channel ≠ .stable := by
    rw [dev]
    nofun
  unfold Build.classify at done
  simp only [ne_eq, other, not_false_eq_true, decide_true, Bool.and_true] at done
  split at done
  · split at done
    · exact (Option.some.inj done).symm
    · split at done
      · cases done
      · exact (Option.some.inj done).symm
  · exact (Option.some.inj done).symm

theorem classify_published {build : Build host} {release : Release} (published : release.draft = false) {prerelease : Bool}
    (done : build.classify (some release) = some prerelease) : release.prerelease = prerelease := by
  unfold Build.classify at done
  dsimp only at done
  split at done
  · next is => exact is.trans (Option.some.inj done)
  · next no =>
    rw [published] at done
    split at done
    · cases done
    · next full =>
      rw [Bool.not_eq_true] at no
      have stable : decide (build.channel ≠ .stable) = false := by simpa using full
      exact no.trans (stable.symm.trans (Option.some.inj done))

namespace GitHub
variable {github : GitHub}

theorem releaseByTag_none {tag : Text} (none : github.releaseByTag tag = none) {release : Release} (member : release ∈ github.releases)
    (named : release.tag = tag) : release.draft = true := by
  have refused := List.find?_eq_none.mp none release member
  simpa [named] using refused

end GitHub

end ArduinoK210.Publish
