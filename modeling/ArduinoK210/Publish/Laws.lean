import ArduinoK210.Publish.Merge

/-! The laws of merging. The packages of several indexes, taken together, are given by the names, the platforms and the tools
that appear, each once; sorting in between changes nothing that a later sort does not set right. -/

namespace ArduinoK210.Publish

def toolsNamed (name : Text) (packages : List Package) : List Tool :=
  packages.flatMap fun package => if package.name = name then package.tools else []

def Index.toolsNamed (index : Index) (name : Text) : List Tool := Publish.toolsNamed name index.packages

def names (packages : List Package) : List Text := Keyed.distinct id (packages.map Package.name)

def restOf (packages : List Package) (name : Text) : Text :=
  ((packages.find? fun package => package.name = name).map Package.rest).getD []

/-- What the packages say together of a name. -/
def collected (packages : List Package) (name : Text) : Package :=
  { name := name
    rest := restOf packages name
    platforms := Keyed.distinct Platform.key (named name packages)
    tools := Keyed.distinct Tool.key (toolsNamed name packages) }

/-- No key twice inside the package. -/
structure Package.Plain (package : Package) : Prop where
  platforms : (package.platforms.map Platform.key).Nodup
  tools : (package.tools.map Tool.key).Nodup

structure Index.WellFormed (unicode : Unicode) (index : Index) : Prop where
  plain : ∀ package ∈ index.packages, package.Plain
  versions : ∀ package ∈ index.packages, ∀ platform ∈ package.platforms, (unicode.versionKey platform.version).isSome = true

private theorem mem_names {packages : List Package} {name : Text} : name ∈ names packages ↔ name ∈ packages.map Package.name := by
  constructor
  · intro member
    exact (Keyed.mem_extend member).resolve_left List.not_mem_nil
  · intro member
    have there := @Keyed.mem_distinct_key _ _ _ id (packages.map Package.name) name member
    rw [List.map_id] at there
    exact there

theorem toolsNamed_cons (name : Text) (package : Package) (packages : List Package) :
    toolsNamed name (package :: packages) = (if package.name = name then package.tools else []) ++ toolsNamed name packages := rfl

theorem toolsNamed_append (name : Text) (first second : List Package) :
    toolsNamed name (first ++ second) = toolsNamed name first ++ toolsNamed name second := List.flatMap_append

theorem named_append (name : Text) (first second : List Package) :
    named name (first ++ second) = named name first ++ named name second := List.flatMap_append

theorem toolsNamed_absent {name : Text} {packages : List Package} (absent : name ∉ packages.map Package.name) :
    toolsNamed name packages = [] := by
  apply List.flatMap_eq_nil_iff.mpr
  intro package member
  rw [if_neg]
  intro same
  exact absent (List.mem_map.mpr ⟨package, member, same⟩)

private theorem restOf_append {first second : List Package} {name : Text} :
    restOf (first ++ second) name = if name ∈ first.map Package.name then restOf first name else restOf second name := by
  rw [restOf, List.find?_append]
  split
  · next present =>
    obtain ⟨package, member, same⟩ := List.mem_map.mp present
    have found : (first.find? fun package => package.name = name).isSome = true := by
      rw [List.find?_isSome]
      exact ⟨package, member, by simpa using same⟩
    obtain ⟨head, seen⟩ := Option.isSome_iff_exists.mp found
    rw [restOf, seen, Option.some_or]
  · next absent =>
    have nothing : (first.find? fun package => package.name = name) = none := by
      rw [List.find?_eq_none]
      intro package member same
      exact absent (List.mem_map.mpr ⟨package, member, by simpa using same⟩)
    rw [nothing, Option.none_or, restOf]

section Collect

theorem collected_append {packages : List Package} {incoming : Package} (name : Text) (present : name ∈ packages.map Package.name) :
    collected (packages ++ [incoming]) name =
      if name = incoming.name then (collected packages name).extend incoming else collected packages name := by
  rw [collected, restOf_append, if_pos present, named_append, toolsNamed_append, named_cons, toolsNamed_cons]
  by_cases same : incoming.name = name
  · rw [if_pos same, if_pos same, if_pos same.symm, show named name [] = [] from rfl, show toolsNamed name [] = [] from rfl,
      List.append_nil, List.append_nil, Keyed.distinct_append, Keyed.distinct_append]
    rfl
  · rw [if_neg same, if_neg same, if_neg fun equal => same equal.symm, show named name [] = [] from rfl,
      show toolsNamed name [] = [] from rfl, List.append_nil, List.append_nil, List.append_nil, List.append_nil]
    rfl

private theorem collected_alone {packages : List Package} {incoming : Package} (plain : incoming.Plain)
    (absent : incoming.name ∉ packages.map Package.name) : collected (packages ++ [incoming]) incoming.name = incoming := by
  rw [collected, restOf_append, if_neg absent, named_append, toolsNamed_append, named_absent absent, toolsNamed_absent absent,
    named_cons, toolsNamed_cons, if_pos rfl, if_pos rfl]
  simp [named, toolsNamed, restOf, Keyed.distinct_eq plain.platforms, Keyed.distinct_eq plain.tools]

private theorem gathered_collected {packages : List Package} (plain : ∀ package ∈ packages, package.Plain) :
    gathered packages = (names packages).map (collected packages) := by
  induction packages using List.reverseRecOn with
  | nil => rfl
  | append_singleton packages incoming ih =>
    have start := ih fun package member => plain package (List.mem_append_left _ member)
    rw [gathered_append, List.foldl_cons, List.foldl_nil, start]
    have all : names (packages ++ [incoming]) = Keyed.extend id (names packages) [incoming.name] := by
      rw [names, List.map_append]
      exact Keyed.distinct_append _ _
    have listed : (((names packages).map (collected packages)).any fun package => package.name = incoming.name) = true ↔
        incoming.name ∈ packages.map Package.name := by
      rw [List.any_map, List.any_eq_true, ← mem_names]
      constructor
      · rintro ⟨name, member, same⟩
        exact of_decide_eq_true same ▸ member
      · intro member
        exact ⟨incoming.name, member, decide_eq_true rfl⟩
    unfold absorb
    by_cases present : incoming.name ∈ packages.map Package.name
    · have same_names : names (packages ++ [incoming]) = names packages := by
        rw [all]
        apply Keyed.extend_covered
        intro name member
        cases List.mem_singleton.mp member
        simpa using mem_names.mpr present
      rw [if_pos (listed.mpr present), same_names, List.map_map]
      apply List.map_congr_left
      intro name member
      rw [collected_append name (mem_names.mp member)]
      rfl
    · have more : names (packages ++ [incoming]) = names packages ++ [incoming.name] := by
        rw [all]
        apply Keyed.extend_absent
        · intro name member
          cases List.mem_singleton.mp member
          simpa using fun among => present (mem_names.mp among)
        · exact List.nodup_singleton _
      rw [if_neg fun there => present (listed.mp there), more, List.map_append, List.map_singleton,
        collected_alone (plain incoming (by simp)) present]
      congr 1
      apply List.map_congr_left
      intro name member
      rw [collected_append name (mem_names.mp member), if_neg]
      intro same
      exact present (same ▸ mem_names.mp member)

end Collect

section Sorted
variable (unicode : Unicode)

def sorted (platforms : List Platform) : List Platform := platforms.insertionSort (Platform.Before unicode)

variable {unicode}

private theorem before_refl (platform : Platform) : platform.Before unicode platform := by
  rw [Platform.Before]

theorem sorted_pairwise (platforms : List Platform) : (sorted unicode platforms).Pairwise (Platform.Before unicode) := by
  have total : Std.Total (Platform.Before unicode) := ⟨fun one other => le_total (α := WithBot Unicode.VersionKey) _ _⟩
  have trans : IsTrans Platform (Platform.Before unicode) :=
    ⟨fun _ _ _ first second => le_trans (α := WithBot Unicode.VersionKey) second first⟩
  exact List.pairwise_insertionSort _ _

theorem sorted_filter (one : Platform) (platforms : List Platform) :
    (sorted unicode platforms).filter (fun other => one.Before unicode other ∧ other.Before unicode one) =
      platforms.filter fun other => one.Before unicode other ∧ other.Before unicode one := by
  apply Stable.filter_insertionSort
  intro first second here there
  have high := (of_decide_eq_true here).2
  have low := (of_decide_eq_true there).1
  exact le_trans (α := WithBot Unicode.VersionKey) low high

private theorem rank_alike (one : Platform) (first second : Platform) (same : first.key = second.key) :
    decide (one.Before unicode first ∧ first.Before unicode one) = decide (one.Before unicode second ∧ second.Before unicode one) := by
  have version : first.version = second.version := (Prod.mk.inj same).2
  have rank : first.rank unicode = second.rank unicode := by rw [Platform.rank, version, Platform.rank]
  rw [decide_eq_decide, Platform.Before, Platform.Before, Platform.Before, Platform.Before, rank]

/-- A sort inside a list that is sorted afterwards makes no difference. -/
theorem sorted_nested (front middle back : List Platform) :
    sorted unicode (Keyed.distinct Platform.key (front ++ sorted unicode (Keyed.distinct Platform.key middle) ++ back)) =
      sorted unicode (Keyed.distinct Platform.key (front ++ middle ++ back)) := by
  apply Stable.eq_of_filter before_refl (sorted_pairwise _) (sorted_pairwise _)
  intro one
  have kept : ∀ platforms : List Platform, (Keyed.distinct Platform.key platforms).filter
      (fun other => one.Before unicode other ∧ other.Before unicode one) =
      Keyed.distinct Platform.key (platforms.filter fun other => one.Before unicode other ∧ other.Before unicode one) :=
    fun platforms => Keyed.filter_extend (rank_alike one)
  have nested : ∀ x y z : List Platform, Keyed.distinct Platform.key (x ++ Keyed.distinct Platform.key y ++ z) =
      Keyed.distinct Platform.key (x ++ y ++ z) := by
    intro x y z
    rw [Keyed.distinct_append, Keyed.distinct_append, Keyed.distinct_append, Keyed.distinct_append, Keyed.extend_distinct]
  rw [sorted_filter, sorted_filter, kept, kept, List.filter_append, List.filter_append, List.filter_append, List.filter_append,
    sorted_filter, kept, nested]

end Sorted

section Merging
variable {unicode : Unicode} {indexes : List Index}

def packagesOf (indexes : List Index) : List Package := indexes.flatMap Index.packages

private theorem well_packages (well : ∀ index ∈ indexes, index.WellFormed unicode) : (∀ package ∈ packagesOf indexes, package.Plain) ∧
    ∀ package ∈ packagesOf indexes, ∀ platform ∈ package.platforms, (unicode.versionKey platform.version).isSome = true := by
  constructor
  · intro package member
    obtain ⟨index, among, inside⟩ := List.mem_flatMap.mp member
    exact (well index among).plain package inside
  · intro package member
    obtain ⟨index, among, inside⟩ := List.mem_flatMap.mp member
    exact (well index among).versions package inside

theorem sorted_some {packages : List Package}
    (versions : ∀ package ∈ packages, ∀ platform ∈ package.platforms, (unicode.versionKey platform.version).isSome = true) :
    packages.mapM (Package.sorted unicode) = some (packages.map (Package.sort unicode)) := by
  induction packages with
  | nil => rfl
  | cons package packages ih =>
    have here : package.sorted unicode = some (package.sort unicode) := by
      rw [Package.sorted, if_pos]
      · rfl
      · exact List.all_eq_true.mpr (versions package List.mem_cons_self)
    rw [List.mapM_cons, here, ih fun other member => versions other (List.mem_cons_of_mem package member)]
    rfl

/-- Well-formed indexes merge into what they say together of each name, sorted. -/
theorem mergeIndexes_collected (well : ∀ index ∈ indexes, index.WellFormed unicode) : mergeIndexes unicode indexes =
    some ⟨((names (packagesOf indexes)).map (collected (packagesOf indexes))).map (Package.sort unicode)⟩ := by
  obtain ⟨plain, versions⟩ := well_packages well
  have same := gathered_collected plain
  have kept : ∀ package ∈ gathered (packagesOf indexes), ∀ platform ∈ package.platforms, (unicode.versionKey platform.version).isSome = true := by
    intro package member platform there
    rcases mem_fold member there with nothing | given
    · cases nothing
    · obtain ⟨source, among, _, inside⟩ := mem_named.mp given
      exact versions source among platform inside
  unfold mergeIndexes
  rw [show (indexes.flatMap Index.packages).foldl absorb [] = gathered (packagesOf indexes) from rfl, sorted_some kept, same]
  rfl

variable (unicode) in
private theorem named_collected (packages : List Package) (wanted : List Text) (nodup : wanted.Nodup) (name : Text) :
    named name ((wanted.map (collected packages)).map (Package.sort unicode)) =
        (if name ∈ wanted then sorted unicode (Keyed.distinct Platform.key (named name packages)) else []) ∧
      toolsNamed name ((wanted.map (collected packages)).map (Package.sort unicode)) =
        if name ∈ wanted then Keyed.distinct Tool.key (toolsNamed name packages) else [] := by
  induction wanted with
  | nil => exact ⟨rfl, rfl⟩
  | cons head wanted ih =>
    obtain ⟨fresh, nodup⟩ := List.nodup_cons.mp nodup
    obtain ⟨platforms, tools⟩ := ih nodup
    rw [List.map_cons, List.map_cons, named_cons, toolsNamed_cons, platforms, tools]
    have title : ((collected packages head).sort unicode).name = head := rfl
    rw [title]
    by_cases here : head = name
    · subst here
      rw [if_pos rfl, if_pos rfl, if_neg fresh, if_neg fresh, if_pos List.mem_cons_self, if_pos List.mem_cons_self, List.append_nil,
        List.append_nil]
      exact ⟨rfl, rfl⟩
    · have same : name ∈ head :: wanted ↔ name ∈ wanted :=
        ⟨fun member => (List.mem_cons.mp member).resolve_left fun equal => here equal.symm, List.mem_cons_of_mem head⟩
      rw [if_neg here, if_neg here, List.nil_append, List.nil_append]
      simp only [same]
      exact ⟨trivial, trivial⟩

variable {merged : Index}

private theorem names_nodup (packages : List Package) : (names packages).Nodup := by
  have nodup := @Keyed.distinct_nodup _ _ _ id (packages.map Package.name)
  rw [List.map_id] at nodup
  exact nodup

theorem merged_contents (well : ∀ index ∈ indexes, index.WellFormed unicode) (done : mergeIndexes unicode indexes = some merged)
    (name : Text) : merged.named name = sorted unicode (Keyed.distinct Platform.key (named name (packagesOf indexes))) ∧
      merged.toolsNamed name = Keyed.distinct Tool.key (toolsNamed name (packagesOf indexes)) := by
  rw [mergeIndexes_collected well] at done
  cases done
  obtain ⟨platforms, tools⟩ := named_collected unicode (packagesOf indexes) (names (packagesOf indexes)) (names_nodup _) name
  rw [Index.named, Index.toolsNamed, platforms, tools]
  by_cases present : name ∈ names (packagesOf indexes)
  · rw [if_pos present, if_pos present]
    exact ⟨rfl, rfl⟩
  · have absent : name ∉ (packagesOf indexes).map Package.name := fun member => present (mem_names.mpr member)
    rw [if_neg present, if_neg present, named_absent absent, toolsNamed_absent absent]
    exact ⟨rfl, rfl⟩

/-- The result of a merge can be merged again. -/
theorem merged_well (well : ∀ index ∈ indexes, index.WellFormed unicode) (done : mergeIndexes unicode indexes = some merged) :
    merged.WellFormed unicode := by
  obtain ⟨_, versions⟩ := well_packages well
  rw [mergeIndexes_collected well] at done
  cases done
  constructor
  · intro package member
    obtain ⟨_, among, rfl⟩ := List.mem_map.mp member
    obtain ⟨name, _, rfl⟩ := List.mem_map.mp among
    refine ⟨?_, Keyed.distinct_nodup _⟩
    exact ((List.perm_insertionSort _ _).map Platform.key).nodup_iff.mpr (Keyed.distinct_nodup _)
  · intro package member platform there
    obtain ⟨_, among, rfl⟩ := List.mem_map.mp member
    obtain ⟨name, _, rfl⟩ := List.mem_map.mp among
    have inside := (Keyed.mem_extend ((List.perm_insertionSort _ _).mem_iff.mp there)).resolve_left List.not_mem_nil
    obtain ⟨source, given, _, within⟩ := mem_named.mp inside
    exact versions source given platform within

private theorem merged_rest (well : ∀ index ∈ indexes, index.WellFormed unicode) (done : mergeIndexes unicode indexes = some merged) :
    merged.packages.map Package.name = names (packagesOf indexes) ∧
      ∀ name ∈ names (packagesOf indexes), restOf merged.packages name = restOf (packagesOf indexes) name := by
  rw [mergeIndexes_collected well] at done
  cases done
  constructor
  · rw [List.map_map, List.map_map]
    exact List.map_id _
  · intro name member
    rw [restOf, List.map_map, List.find?_map]
    have found : (names (packagesOf indexes)).find? (fun other => other = name) = some name := by
      have there : ((names (packagesOf indexes)).find? fun other => other = name).isSome = true := by
        rw [List.find?_isSome]
        exact ⟨name, member, decide_eq_true rfl⟩
      obtain ⟨other, seen⟩ := Option.isSome_iff_exists.mp there
      have same : other = name := by simpa using List.find?_some seen
      rw [seen, same]
    have same : ((fun package : Package => decide (package.name = name)) ∘ Package.sort unicode ∘ collected (packagesOf indexes)) =
        fun other => decide (other = name) := rfl
    rw [same, found]
    rfl

/-- An index that was merged already counts as the indexes it comes from. -/
theorem merge_nested (front middle back : List Index) (well : ∀ index ∈ front ++ middle ++ back, index.WellFormed unicode)
    (done : mergeIndexes unicode middle = some merged) :
    mergeIndexes unicode (front ++ [merged] ++ back) = mergeIndexes unicode (front ++ middle ++ back) := by
  have well_middle : ∀ index ∈ middle, index.WellFormed unicode := fun index member => well index (by simp [member])
  have inner := merged_well well_middle done
  have well_all : ∀ index ∈ front ++ [merged] ++ back, index.WellFormed unicode := by
    intro index member
    rcases List.mem_append.mp member with first | last
    · rcases List.mem_append.mp first with early | here
      · exact well index (by simp [early])
      · cases List.mem_singleton.mp here
        exact inner
    · exact well index (by simp [last])
  obtain ⟨title, rest⟩ := merged_rest well_middle done
  have split_left : packagesOf (front ++ [merged] ++ back) = packagesOf front ++ merged.packages ++ packagesOf back := by
    simp [packagesOf]
  have split_right : packagesOf (front ++ middle ++ back) = packagesOf front ++ packagesOf middle ++ packagesOf back := by
    simp [packagesOf]
  have same_names : names (packagesOf (front ++ [merged] ++ back)) = names (packagesOf (front ++ middle ++ back)) := by
    rw [split_left, split_right, names, names, List.map_append, List.map_append, List.map_append, List.map_append, title, names,
      Keyed.distinct_append, Keyed.distinct_append, Keyed.distinct_append, Keyed.distinct_append, Keyed.extend_distinct]
  rw [mergeIndexes_collected well_all, mergeIndexes_collected well, same_names, List.map_map, List.map_map]
  congr 2
  apply List.map_congr_left
  intro name _
  obtain ⟨platforms, tools⟩ := merged_contents well_middle done name
  have same_platforms : sorted unicode (Keyed.distinct Platform.key (named name (packagesOf (front ++ [merged] ++ back)))) =
      sorted unicode (Keyed.distinct Platform.key (named name (packagesOf (front ++ middle ++ back)))) := by
    rw [split_left, split_right, named_append, named_append, named_append, named_append, ← sorted_nested _ (named name (packagesOf middle)),
      ← platforms]
    rfl
  have same_tools : Keyed.distinct Tool.key (toolsNamed name (packagesOf (front ++ [merged] ++ back))) =
      Keyed.distinct Tool.key (toolsNamed name (packagesOf (front ++ middle ++ back))) := by
    rw [split_left, split_right, toolsNamed_append, toolsNamed_append, toolsNamed_append, toolsNamed_append,
      show toolsNamed name merged.packages = merged.toolsNamed name from rfl, tools, Keyed.distinct_append, Keyed.distinct_append,
      Keyed.distinct_append, Keyed.distinct_append, Keyed.extend_distinct]
  have same_rest : restOf (packagesOf (front ++ [merged] ++ back)) name = restOf (packagesOf (front ++ middle ++ back)) name := by
    have inside : name ∈ merged.packages.map Package.name ↔ name ∈ (packagesOf middle).map Package.name := by
      rw [title, mem_names]
    rw [split_left, split_right, List.append_assoc, List.append_assoc, restOf_append, restOf_append, restOf_append, restOf_append]
    simp only [inside]
    split
    · rfl
    · split
      · next present => exact rest name (mem_names.mpr present)
      · rfl
  show Package.sort unicode (collected _ name) = Package.sort unicode (collected _ name)
  unfold Package.sort collected
  rw [same_tools, same_rest]
  exact congrArg (fun platforms => Package.mk _ _ platforms _) same_platforms

/-- Indexes that come a second time add nothing. -/
theorem merge_twice (well : ∀ index ∈ indexes, index.WellFormed unicode) :
    mergeIndexes unicode (indexes ++ indexes) = mergeIndexes unicode indexes := by
  have well_all : ∀ index ∈ indexes ++ indexes, index.WellFormed unicode := by
    intro index member
    exact (List.mem_append.mp member).elim (well index) (well index)
  have doubled : packagesOf (indexes ++ indexes) = packagesOf indexes ++ packagesOf indexes := List.flatMap_append
  have same_names : names (packagesOf (indexes ++ indexes)) = names (packagesOf indexes) := by
    rw [doubled, names, List.map_append, Keyed.distinct_append]
    apply Keyed.extend_covered
    intro name member
    exact Keyed.mem_distinct_key _ name member
  rw [mergeIndexes_collected well_all, mergeIndexes_collected well, same_names]
  congr 3
  apply List.map_congr_left
  intro name member
  have present := mem_names.mp member
  have same_rest : restOf (packagesOf indexes ++ packagesOf indexes) name = restOf (packagesOf indexes) name := by
    rw [restOf_append, if_pos present]
  unfold collected
  rw [doubled, same_rest, named_append, toolsNamed_append, Keyed.distinct_append, Keyed.distinct_append,
    Keyed.extend_covered fun item inside => Keyed.mem_distinct_key _ item inside,
    Keyed.extend_covered fun item inside => Keyed.mem_distinct_key _ item inside]

end Merging

end ArduinoK210.Publish
