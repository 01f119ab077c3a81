import ArduinoK210.Publish.Index
import Mathlib.Order.MinMax

/-! An index as a finite map from package, architecture and version to platforms. Merging is the union in which the first
index wins; keeping the latest snapshot takes away the older ones of one package and architecture and nothing else. -/

namespace ArduinoK210.Publish

def named (name : Text) (packages : List Package) : List Platform :=
  packages.flatMap fun package => if package.name = name then package.platforms else []

def Index.named (index : Index) (name : Text) : List Platform := Publish.named name index.packages

def Index.find (index : Index) (name : Text) (key : Text × Text) : Option Platform := Keyed.find Platform.key key (index.named name)

theorem Index.find_some {index : Index} {name : Text} {key : Text × Text} {platform : Platform}
    (found : index.find name key = some platform) : platform ∈ index.named name ∧ platform.key = key := Keyed.find_some found

theorem mem_named {name : Text} {packages : List Package} {platform : Platform} :
    platform ∈ named name packages ↔ ∃ package ∈ packages, package.name = name ∧ platform ∈ package.platforms := by
  unfold named
  rw [List.mem_flatMap]
  refine exists_congr fun package => and_congr_right fun _ => ?_
  split
  · next same => simp [same]
  · next other => simp [other]

theorem named_cons (name : Text) (package : Package) (packages : List Package) :
    named name (package :: packages) = (if package.name = name then package.platforms else []) ++ named name packages := rfl

theorem named_absent {name : Text} {packages : List Package} (absent : name ∉ packages.map Package.name) :
    named name packages = [] := by
  apply List.flatMap_eq_nil_iff.mpr
  intro package member
  rw [if_neg]
  intro same
  exact absent (List.mem_map.mpr ⟨package, member, same⟩)

private theorem find_named_append (name : Text) (key : Text × Text) (first second : List Package) :
    Keyed.find Platform.key key (named name (first ++ second)) =
      (Keyed.find Platform.key key (named name first)).or (Keyed.find Platform.key key (named name second)) := by
  rw [named, List.flatMap_append, Keyed.find_append]
  rfl

section Absorb
variable {packages : List Package} {incoming : Package} {name : Text}

theorem any_name : (packages.any fun package => package.name = name) = true ↔ name ∈ packages.map Package.name := by
  simp [List.any_eq_true]

theorem absorb_names : (absorb packages incoming).map Package.name =
    if incoming.name ∈ packages.map Package.name then packages.map Package.name
    else packages.map Package.name ++ [incoming.name] := by
  unfold absorb
  split
  · next present =>
    rw [if_pos (any_name.mp present), List.map_map]
    apply List.map_congr_left
    intro package _
    simp only [Function.comp_apply]
    split <;> rfl
  · next absent =>
    rw [if_neg fun member => absent (any_name.mpr member), List.map_append, List.map_singleton]

theorem absorb_nodup (nodup : (packages.map Package.name).Nodup) : ((absorb packages incoming).map Package.name).Nodup := by
  rw [absorb_names]
  split
  · exact nodup
  · next absent =>
    rw [List.nodup_append]
    refine ⟨nodup, List.nodup_singleton _, ?_⟩
    intro one first other second same
    cases List.mem_singleton.mp second
    exact absent (same ▸ first)

theorem find_extended (nodup : (packages.map Package.name).Nodup) (present : incoming.name ∈ packages.map Package.name)
    (key : Text × Text) :
    Keyed.find Platform.key key (named name
        (packages.map fun package => if package.name = incoming.name then package.extend incoming else package)) =
      (Keyed.find Platform.key key (named name packages)).or
        (Keyed.find Platform.key key (if incoming.name = name then incoming.platforms else [])) := by
  induction packages with
  | nil => cases present
  | cons package packages ih =>
    obtain ⟨fresh, nodup⟩ := List.nodup_cons.mp nodup
    rw [List.map_cons, named_cons, named_cons, Keyed.find_append, Keyed.find_append]
    by_cases here : package.name = incoming.name
    · have others : (packages.map fun package => if package.name = incoming.name then package.extend incoming else package) = packages := by
        apply (List.map_congr_left ?_).trans (List.map_id packages)
        intro other member
        rw [if_neg, id]
        intro same
        exact fresh (List.mem_map.mpr ⟨other, member, same.trans here.symm⟩)
      rw [others, if_pos here]
      by_cases wanted : package.name = name
      · have alone : named name packages = [] := named_absent (wanted ▸ fresh)
        have named : (package.extend incoming).name = name := wanted
        rw [if_pos named, if_pos wanted, if_pos (here.symm.trans wanted), alone, Package.extend, Keyed.find_extend]
        simp [Keyed.find]
      · have named : ¬(package.extend incoming).name = name := wanted
        rw [if_neg named, if_neg wanted, if_neg fun same => wanted (here.trans same)]
        simp [Keyed.find]
    · have later : incoming.name ∈ packages.map Package.name :=
        (List.mem_cons.mp present).resolve_left fun same => here same.symm
      rw [if_neg here, ih nodup later, Option.or_assoc]

private theorem find_absorb (nodup : (packages.map Package.name).Nodup) (key : Text × Text) :
    Keyed.find Platform.key key (named name (absorb packages incoming)) =
      (Keyed.find Platform.key key (named name packages)).or
        (Keyed.find Platform.key key (if incoming.name = name then incoming.platforms else [])) := by
  unfold absorb
  split
  · next present => exact find_extended nodup (any_name.mp present) key
  · rw [find_named_append, named_cons, show named name [] = [] from rfl, List.append_nil]

private theorem mem_absorb {package : Package} {platform : Platform} (member : package ∈ absorb packages incoming)
    (there : platform ∈ package.platforms) :
    platform ∈ named package.name packages ∨ (incoming.name = package.name ∧ platform ∈ incoming.platforms) := by
  unfold absorb at member
  split at member
  · obtain ⟨before, old, rfl⟩ := List.mem_map.mp member
    split at there
    · next same =>
      rw [if_pos same]
      rcases Keyed.mem_extend there with first | second
      · exact .inl (mem_named.mpr ⟨before, old, rfl, first⟩)
      · exact .inr ⟨same.symm, second⟩
    · next other =>
      rw [if_neg other]
      exact .inl (mem_named.mpr ⟨before, old, rfl, there⟩)
  · rcases List.mem_append.mp member with old | new
    · exact .inl (mem_named.mpr ⟨package, old, rfl, there⟩)
    · cases List.mem_singleton.mp new
      exact .inr ⟨rfl, there⟩

end Absorb

/-- The packages of several indexes in one list, before they are sorted. -/
def gathered (packages : List Package) : List Package := packages.foldl absorb []

theorem gathered_append (first second : List Package) : gathered (first ++ second) = second.foldl absorb (gathered first) :=
  List.foldl_append

private theorem fold_nodup {packages incoming : List Package} (nodup : (packages.map Package.name).Nodup) :
    ((incoming.foldl absorb packages).map Package.name).Nodup := by
  induction incoming generalizing packages with
  | nil => exact nodup
  | cons one incoming ih => exact ih (absorb_nodup nodup)

theorem gathered_nodup (packages : List Package) : ((gathered packages).map Package.name).Nodup := fold_nodup List.nodup_nil

private theorem find_fold {packages : List Package} (nodup : (packages.map Package.name).Nodup) (incoming : List Package) (name : Text)
    (key : Text × Text) :
    Keyed.find Platform.key key (named name (incoming.foldl absorb packages)) =
      (Keyed.find Platform.key key (named name packages)).or (Keyed.find Platform.key key (named name incoming)) := by
  induction incoming generalizing packages with
  | nil => simp [named, Keyed.find]
  | cons one incoming ih =>
    rw [List.foldl_cons, ih (absorb_nodup nodup), find_absorb nodup, named_cons, Keyed.find_append, Option.or_assoc]

theorem mem_fold {packages incoming : List Package} {package : Package} {platform : Platform}
    (member : package ∈ incoming.foldl absorb packages) (there : platform ∈ package.platforms) :
    platform ∈ named package.name packages ∨ platform ∈ named package.name incoming := by
  induction incoming generalizing packages with
  | nil => exact .inl (mem_named.mpr ⟨package, member, rfl, there⟩)
  | cons one incoming ih =>
    rcases ih member with early | late
    · obtain ⟨before, old, same, inside⟩ := mem_named.mp early
      rcases mem_absorb old inside with first | ⟨named, second⟩
      · exact .inl (same ▸ first)
      · exact .inr (mem_named.mpr ⟨one, List.mem_cons_self, named.trans same, second⟩)
    · rw [named_cons]
      exact .inr (List.mem_append_right _ late)

/-- No two platforms of the name have a key in common. -/
def Unique (name : Text) (packages : List Package) : Prop := ((named name packages).map Platform.key).Nodup

theorem named_present {packages : List Package} (nodup : (packages.map Package.name).Nodup) {package : Package}
    (member : package ∈ packages) : named package.name packages = package.platforms := by
  induction packages with
  | nil => cases member
  | cons head packages ih =>
    obtain ⟨fresh, nodup⟩ := List.nodup_cons.mp nodup
    rw [named_cons]
    rcases List.mem_cons.mp member with rfl | later
    · rw [if_pos rfl, named_absent fresh, List.append_nil]
    · rw [if_neg, List.nil_append, ih nodup later]
      intro same
      exact fresh (same ▸ List.mem_map_of_mem later)

private theorem absorb_unique {packages : List Package} {name : Text} (nodup : (packages.map Package.name).Nodup)
    (present : name ∈ packages.map Package.name) (unique : Unique name packages) (incoming : Package) :
    Unique name (absorb packages incoming) := by
  obtain ⟨package, member, rfl⟩ := List.mem_map.mp present
  have alone := named_present nodup member
  have after : ((absorb packages incoming).map Package.name).Nodup := absorb_nodup nodup
  unfold Unique at unique ⊢
  rw [alone] at unique
  unfold absorb at after ⊢
  split at after
  · next there =>
    rw [if_pos there]
    have image := List.mem_map_of_mem (f := fun package => if package.name = incoming.name then package.extend incoming else package) member
    have same := named_present after image
    by_cases here : package.name = incoming.name
    · rw [if_pos here] at same
      have named : (package.extend incoming).name = package.name := rfl
      rw [named] at same
      rw [same]
      exact Keyed.extend_nodup unique
    · rw [if_neg here] at same
      rw [same]
      exact unique
  · next absent =>
    rw [if_neg absent]
    rw [named_present after (List.mem_append_left _ member)]
    exact unique

private theorem fold_unique {packages incoming : List Package} {name : Text} (nodup : (packages.map Package.name).Nodup)
    (present : name ∈ packages.map Package.name) (unique : Unique name packages) :
    Unique name (incoming.foldl absorb packages) := by
  induction incoming generalizing packages with
  | nil => exact unique
  | cons one incoming ih =>
    apply ih (absorb_nodup nodup) ?_ (absorb_unique nodup present unique one)
    rw [absorb_names]
    split
    · exact present
    · exact List.mem_append_left _ present

private theorem absorb_distinct {packages : List Package} {name : Text} (nodup : (packages.map Package.name).Nodup)
    (unique : Unique name packages) {incoming : Package} (alone : incoming.name = name → (incoming.platforms.map Platform.key).Nodup) :
    Unique name (absorb packages incoming) := by
  by_cases present : name ∈ packages.map Package.name
  · exact absorb_unique nodup present unique incoming
  · by_cases own : incoming.name = name
    · subst own
      unfold absorb
      rw [if_neg fun there => present (any_name.mp there), Unique, named, List.flatMap_append]
      change ((named incoming.name packages ++ named incoming.name [incoming]).map Platform.key).Nodup
      rw [named_absent present, List.nil_append, named_cons, if_pos rfl]
      simpa [named] using alone rfl
    · have absent : name ∉ (absorb packages incoming).map Package.name := by
        rw [absorb_names]
        split
        · exact present
        · rw [List.mem_append, List.mem_singleton]
          rintro (old | new)
          · exact present old
          · exact own new.symm
      rw [Unique, named_absent absent]
      exact List.nodup_nil

private theorem fold_distinct {packages incoming : List Package} {name : Text} (nodup : (packages.map Package.name).Nodup)
    (unique : Unique name packages) (alone : ∀ one ∈ incoming, one.name = name → (one.platforms.map Platform.key).Nodup) :
    Unique name (incoming.foldl absorb packages) := by
  induction incoming generalizing packages with
  | nil => exact unique
  | cons one incoming ih =>
    apply ih (absorb_nodup nodup) (absorb_distinct nodup unique (alone one List.mem_cons_self))
    exact fun other member => alone other (List.mem_cons_of_mem one member)

private theorem Unique.package {packages : List Package} {package : Package} (unique : Unique package.name packages)
    (member : package ∈ packages) : (package.platforms.map Platform.key).Nodup := by
  obtain ⟨front, back, rfl⟩ := List.append_of_mem member
  unfold Unique named at unique
  rw [List.flatMap_append, List.map_append, List.flatMap_cons, if_pos rfl, List.map_append] at unique
  exact (List.nodup_append.mp (List.nodup_append.mp unique).2.1).1

section Sorting
variable (unicode : Unicode)

def Package.sort (package : Package) : Package :=
  { package with platforms := package.platforms.insertionSort (Platform.Before unicode) }

private theorem sorted_all {packages after : List Package} (done : packages.mapM (Package.sorted unicode) = some after) :
    after = packages.map (Package.sort unicode) := by
  induction packages generalizing after with
  | nil =>
    cases done
    rfl
  | cons package packages ih =>
    rw [List.mapM_cons] at done
    obtain ⟨first, here, done⟩ := Option.bind_eq_some_iff.mp done
    obtain ⟨rest, there, done⟩ := Option.bind_eq_some_iff.mp done
    cases done
    rw [ih there, List.map_cons]
    unfold Package.sorted at here
    split at here
    · cases here
      rfl
    · cases here

variable {unicode} {packages : List Package} {name : Text}

theorem sort_names : (packages.map (Package.sort unicode)).map Package.name = packages.map Package.name := by
  rw [List.map_map]
  rfl

theorem before_alike (key : Text × Text) (one other : Platform) (first : decide (one.key = key) = true)
    (second : decide (other.key = key) = true) : one.Before unicode other := by
  have same : other.version = one.version := by
    have equal := (of_decide_eq_true second).trans (of_decide_eq_true first).symm
    exact (Prod.mk.inj equal).2
  rw [Platform.Before, Platform.rank, Platform.rank, same]
  exact le_refl (α := WithBot Unicode.VersionKey) _

private theorem find_sort (key : Text × Text) :
    Keyed.find Platform.key key (named name (packages.map (Package.sort unicode))) = Keyed.find Platform.key key (named name packages) := by
  induction packages with
  | nil => rfl
  | cons package packages ih =>
    rw [List.map_cons, named_cons, named_cons, Keyed.find_append, Keyed.find_append, ih]
    congr 1
    by_cases here : package.name = name
    · have there : (package.sort unicode).name = name := here
      rw [if_pos here, if_pos there]
      exact Stable.find_insertionSort (before_alike key) package.platforms
    · have there : ¬(package.sort unicode).name = name := here
      rw [if_neg here, if_neg there]

private theorem named_sort_perm : (named name (packages.map (Package.sort unicode))).Perm (named name packages) := by
  induction packages with
  | nil => exact .refl _
  | cons package packages ih =>
    rw [List.map_cons, named_cons, named_cons]
    apply List.Perm.append ?_ ih
    by_cases here : package.name = name
    · have there : (package.sort unicode).name = name := here
      rw [if_pos here, if_pos there]
      exact List.perm_insertionSort _ _
    · have there : ¬(package.sort unicode).name = name := here
      rw [if_neg here, if_neg there]

end Sorting

section Merged
variable {unicode : Unicode} {indexes : List Index} {merged : Index}

theorem mergeIndexes_packages (done : mergeIndexes unicode indexes = some merged) :
    merged.packages = (gathered (indexes.flatMap Index.packages)).map (Package.sort unicode) := by
  obtain ⟨packages, sorted, rfl⟩ := Option.map_eq_some_iff.mp done
  exact sorted_all unicode sorted

theorem merged_nodup (done : mergeIndexes unicode indexes = some merged) : (merged.packages.map Package.name).Nodup := by
  rw [mergeIndexes_packages done, sort_names]
  exact gathered_nodup _

/-- The first index that has an entry gives it to the merged one. -/
theorem merged_find (done : mergeIndexes unicode indexes = some merged) (name : Text) (key : Text × Text) :
    merged.find name key = Keyed.find Platform.key key (indexes.flatMap fun index => index.named name) := by
  have all : named name (indexes.flatMap Index.packages) = indexes.flatMap fun index => index.named name := List.flatMap_assoc
  have start : (([] : List Package).map Package.name).Nodup := List.nodup_nil
  rw [Index.find, Index.named, mergeIndexes_packages done, find_sort, gathered, find_fold start, ← all]
  rfl

theorem merged_member (done : mergeIndexes unicode indexes = some merged) {name : Text} {platform : Platform}
    (member : platform ∈ merged.named name) : ∃ index ∈ indexes, platform ∈ index.named name := by
  rw [Index.named, mergeIndexes_packages done, named_sort_perm.mem_iff] at member
  obtain ⟨package, inside, rfl, there⟩ := mem_named.mp member
  rcases mem_fold inside there with nothing | given
  · cases nothing
  · obtain ⟨source, among, same, there⟩ := mem_named.mp given
    obtain ⟨index, listed, holds⟩ := List.mem_flatMap.mp among
    exact ⟨index, listed, mem_named.mpr ⟨source, holds, same, there⟩⟩

/-- Merging adds no second entry to a package that starts without one. -/
theorem merged_unique (first : Package) {rest : List Index} (alone : (first.platforms.map Platform.key).Nodup)
    (done : mergeIndexes unicode (⟨[first]⟩ :: rest) = some merged) : Unique first.name merged.packages := by
  have front : gathered ((⟨[first]⟩ :: rest : List Index).flatMap Index.packages) =
      (rest.flatMap Index.packages).foldl absorb [first] := rfl
  rw [Unique, mergeIndexes_packages done, (named_sort_perm.map Platform.key).nodup_iff, front]
  have start : ([first].map Package.name).Nodup := List.nodup_singleton _
  apply fold_unique start List.mem_cons_self
  rw [Unique, named_cons, if_pos rfl]
  simpa [named] using alone

/-- Merging indexes that list nothing twice gives one that does not. -/
theorem merged_distinct {name : Text} (each : ∀ index ∈ indexes, Unique name index.packages)
    (done : mergeIndexes unicode indexes = some merged) : Unique name merged.packages := by
  rw [Unique, mergeIndexes_packages done, (named_sort_perm.map Platform.key).nodup_iff]
  have start : (([] : List Package).map Package.name).Nodup := List.nodup_nil
  have nothing : Unique name [] := List.nodup_nil
  apply fold_distinct start nothing
  rintro one member rfl
  obtain ⟨index, among, there⟩ := List.mem_flatMap.mp member
  exact (each index among).package there

end Merged

theorem max?_spec {α : Type} [LinearOrder α] {items : List α} {top : α} (found : items.max? = some top) :
    top ∈ items ∧ ∀ item ∈ items, item ≤ top := by
  have choice : Std.MaxEqOr α := ⟨fun a b => max_choice a b⟩
  exact ⟨List.max?_mem found, (List.max?_le_iff found).mp (le_refl top)⟩

section
variable {unicode : Unicode} {repository architecture : Text} {platforms : List Platform} {platform : Platform}

theorem snapshot_iff : platform.snapshot unicode repository architecture = true ↔
    platform.architecture = architecture ∧ devTag unicode (downloadTag repository platform) = true := by
  rw [Platform.snapshot, Bool.and_eq_true, decide_eq_true_eq]

theorem latestDev_spec {latest : Text} (found : latestDev unicode repository architecture platforms = some latest) :
    (∃ platform ∈ platforms, platform.snapshot unicode repository architecture = true ∧ downloadTag repository platform = latest) ∧
      ∀ platform ∈ platforms, platform.snapshot unicode repository architecture = true → downloadTag repository platform ≤ latest := by
  obtain ⟨inside, bound⟩ := max?_spec found
  constructor
  · obtain ⟨platform, kept, same⟩ := List.mem_map.mp inside
    obtain ⟨member, is⟩ := List.mem_filter.mp kept
    exact ⟨platform, member, is, same⟩
  · intro platform member is
    exact bound _ (List.mem_map_of_mem (List.mem_filter.mpr ⟨member, is⟩))

theorem latestDev_bound (member : platform ∈ platforms) (is : platform.snapshot unicode repository architecture = true) :
    ∃ latest, latestDev unicode repository architecture platforms = some latest ∧ downloadTag repository platform ≤ latest := by
  cases found : latestDev unicode repository architecture platforms with
  | none =>
    have nothing := List.max?_eq_none_iff.mp found
    have there : downloadTag repository platform ∈ (platforms.filter (Platform.snapshot unicode repository architecture)).map (downloadTag repository) :=
      List.mem_map_of_mem (List.mem_filter.mpr ⟨member, is⟩)
    rw [nothing] at there
    cases there
  | some latest => exact ⟨latest, rfl, (latestDev_spec found).2 platform member is⟩

/-- An entry that is no generated snapshot of the architecture is never obsolete. -/
theorem obsolete_iff {latest : Option Text} : platform.obsolete unicode repository architecture latest = true ↔
    platform.snapshot unicode repository architecture = true ∧ some (downloadTag repository platform) ≠ latest := by
  rw [Platform.obsolete, Bool.and_eq_true, decide_eq_true_eq]

theorem obsolete_older {latest : Option Text} (found : latestDev unicode repository architecture platforms = latest)
    (member : platform ∈ platforms) (old : platform.obsolete unicode repository architecture latest = true) :
    ∃ newest, latest = some newest ∧ downloadTag repository platform < newest := by
  obtain ⟨is, other⟩ := obsolete_iff.mp old
  obtain ⟨newest, same, bound⟩ := latestDev_bound member is
  rw [found] at same
  refine ⟨newest, same, lt_of_le_of_ne bound fun equal => other ?_⟩
  rw [same, equal]

theorem retainLatestDev_spec {name : Text} {packages kept : List Package} {latest : Option Text}
    (nodup : (packages.map Package.name).Nodup) (done : retainLatestDev unicode repository name architecture packages = some (kept, latest)) :
    latest = latestDev unicode repository architecture (named name packages) ∧
      kept = packages.map fun package => if package.name = name then package.retained unicode repository architecture else package := by
  induction packages generalizing kept with
  | nil => cases done
  | cons package packages ih =>
    obtain ⟨fresh, nodup⟩ := List.nodup_cons.mp nodup
    rw [named_cons, List.map_cons]
    unfold retainLatestDev at done
    split at done
    · next here =>
      cases done
      rw [if_pos here, if_pos here, named_absent (here ▸ fresh), List.append_nil]
      refine ⟨rfl, congrArg _ ?_⟩
      symm
      apply (List.map_congr_left ?_).trans (List.map_id packages)
      intro other member
      rw [if_neg, id]
      intro same
      exact fresh (List.mem_map.mpr ⟨other, member, same.trans here.symm⟩)
    · next away =>
      obtain ⟨⟨rest, last⟩, inner, same⟩ := Option.map_eq_some_iff.mp done
      cases same
      obtain ⟨seen, mapped⟩ := ih nodup inner
      rw [if_neg away, if_neg away, List.nil_append]
      exact ⟨seen, congrArg _ mapped⟩

theorem named_retained {name other : Text} {packages : List Package} (nodup : (packages.map Package.name).Nodup) :
    named other (packages.map fun package => if package.name = name then package.retained unicode repository architecture else package) =
      if other = name then (named name packages).filter fun platform =>
        !platform.obsolete unicode repository architecture (latestDev unicode repository architecture (named name packages))
      else named other packages := by
  induction packages with
  | nil => simp [named]
  | cons package packages ih =>
    obtain ⟨fresh, nodup⟩ := List.nodup_cons.mp nodup
    rw [List.map_cons, named_cons, named_cons, named_cons, ih nodup]
    by_cases here : package.name = name
    · have same : (package.retained unicode repository architecture).name = package.name := rfl
      rw [if_pos here, if_pos here, same]
      have nothing : named name packages = [] := named_absent (here ▸ fresh)
      by_cases wanted : other = name
      · rw [if_pos wanted, if_pos wanted, if_pos (here.trans wanted.symm), nothing, List.append_nil]
        simp [Package.retained]
      · rw [if_neg wanted, if_neg wanted, if_neg fun equal => wanted (equal.symm.trans here),
          if_neg fun equal => wanted (equal.symm.trans here)]
    · rw [if_neg here, if_neg here, List.nil_append]
      by_cases wanted : other = name
      · rw [if_pos wanted, if_pos wanted, if_neg fun equal => here (equal.trans wanted), List.nil_append]
      · rw [if_neg wanted, if_neg wanted]

end

end ArduinoK210.Publish
