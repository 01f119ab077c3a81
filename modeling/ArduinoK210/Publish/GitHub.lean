import ArduinoK210.Publish.Metadata

/-! The part of GitHub that a run sees. Every request is atomic: it answers from the state it finds, changes it or is
rejected. A commit of the pages branch is known by the indexes it holds and the commits before it. -/

namespace ArduinoK210.Publish

inductive AssetState where
  | starter
  | uploaded
  | other
  deriving DecidableEq

structure Asset where
  id : Nat
  name : Text
  state : AssetState
  content : Bytes
  digested : Bool
  deriving DecidableEq

structure Release where
  id : Nat
  tag : Text
  draft : Bool
  prerelease : Bool
  assets : List Asset
  deriving DecidableEq

/-- The indexes of a commit. A file that is missing reads as an index without packages. -/
structure Snapshot where
  stable : Index
  dev : Index
  deriving DecidableEq

def Snapshot.empty : Snapshot := ⟨Index.empty, Index.empty⟩

/-- The commits of a branch, the newest first, of which the head is the commit itself. -/
abbrev Commit := List Snapshot

def Commit.top (commit : Commit) : Snapshot := commit.head?.getD Snapshot.empty

structure GitHub where
  releases : List Release
  tags : List Text
  pages : Commit
  next : Nat
  deriving DecidableEq

namespace GitHub

def page {α : Type} (number : Nat) (items : List α) : List α := (items.drop (100 * number)).take 100

def releaseByTag (github : GitHub) (tag : Text) : Option Release :=
  github.releases.find? fun release => !release.draft && release.tag = tag

def release (github : GitHub) (id : Nat) : Option Release := github.releases.find? fun release => release.id = id

def assets (github : GitHub) : List Asset := github.releases.flatMap Release.assets

def asset (github : GitHub) (id : Nat) : Option Asset := github.assets.find? fun asset => asset.id = id

def created (github : GitHub) (tag : Text) (prerelease : Bool) : Release := ⟨github.next, tag, true, prerelease, []⟩

def createRelease (github : GitHub) (tag : Text) (prerelease : Bool) : GitHub :=
  { github with releases := github.created tag prerelease :: github.releases, next := github.next + 1 }

def change (github : GitHub) (id : Nat) (update : Release → Release) : GitHub :=
  { github with releases := github.releases.map fun release => if release.id = id then update release else release }

def removeAsset (id : Nat) (release : Release) : Release :=
  { release with assets := release.assets.filter fun asset => asset.id ≠ id }

def deleteAsset (github : GitHub) (id : Nat) : Option GitHub :=
  if (github.asset id).isSome then some { github with releases := github.releases.map (removeAsset id) } else none

/-- A new asset of a release, unless it has one of the name. -/
def attach (github : GitHub) (id : Nat) (name : Text) (state : AssetState) (content : Bytes) (digested : Bool) : Option GitHub :=
  match github.release id with
  | none => none
  | some release =>
      if release.assets.any fun asset => asset.name = name then none
      else some
        { github.change id fun release =>
            { release with assets := release.assets ++ [⟨github.next, name, state, content, digested⟩] } with
          next := github.next + 1 }

def upload (github : GitHub) (id : Nat) (name : Text) (content : Bytes) : Option GitHub :=
  github.attach id name .uploaded content true

/-- A draft is published under its tag unless another release is. -/
def publishRelease (github : GitHub) (id : Nat) (prerelease : Bool) : Option GitHub :=
  match github.release id with
  | none => none
  | some release =>
      if release.draft && (github.releaseByTag release.tag).isSome then none
      else some
        { github.change id fun release => { release with draft := false, prerelease := prerelease } with
          tags := if release.tag ∈ github.tags then github.tags else github.tags ++ [release.tag] }

/-- The pages branch moves to a new commit: it is created, or the commit has to follow the one the branch is at. -/
def push (github : GitHub) (parent : Commit) (snapshot : Snapshot) : Option GitHub :=
  match parent with
  | [] => if github.pages = [] then some { github with pages := [snapshot] } else none
  | _ =>
      if github.pages ≠ [] ∧ github.pages <:+ snapshot :: parent then some { github with pages := snapshot :: parent }
      else none

def deleteRelease (github : GitHub) (id : Nat) : GitHub :=
  { github with releases := github.releases.filter fun release => release.id ≠ id }

/-- The published releases of a tag that goes away become drafts. -/
def deleteRef (github : GitHub) (tag : Text) : Option GitHub :=
  if tag ∈ github.tags then
    some
      { github with
        tags := github.tags.filter fun other => other ≠ tag
        releases := github.releases.map fun release => if release.tag = tag then { release with draft := true } else release }
  else none

def matchingRefs (github : GitHub) : List Text := github.tags.filter fun tag => (text "dev-").isPrefixOf tag

end GitHub

end ArduinoK210.Publish
