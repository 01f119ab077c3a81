import ArduinoK210.Publish.Laws
import ArduinoK210.Publish.Plans

/-! Merging a build into indexes that it was merged into already. The packages are there and cover what comes in, so nothing is
added but what the retention takes away again. -/

namespace ArduinoK210.Publish

section Absorb
variable {packages : List Package} {package incoming : Package}

private theorem absorb_cons (nodup : ((package :: packages).map Package.name).Nodup) : absorb (package :: packages) incoming =
    if package.name = incoming.name then package.extend incoming :: packages else package :: absorb packages incoming := by
  obtain ⟨fresh, _⟩ := List.nodup_cons.mp nodup
  unfold absorb
  by_cases here : package.name = incoming.name
  · have others : (packages.map fun package => if package.name = incoming.name then package.extend incoming else package) = packages := by
      apply (List.map_congr_left ?_).trans (List.map_id packages)
      intro other member
      rw [if_neg, id]
      intro same
      exact fresh (List.mem_map.mpr ⟨other, member, same.trans here.symm⟩)
    rw [if_pos (any_name.mpr (List.mem_map.mpr ⟨package, List.mem_cons_self, here⟩)), if_pos here, List.map_cons, if_pos here, others]
  · have same : ((package :: packages).any fun package => package.name = incoming.name) =
        packages.any fun package => package.name = incoming.name := by
      rw [List.any_cons, decide_eq_false here, Bool.false_or]
    rw [if_neg here, same, List.map_cons, if_neg here]
    split
    · rfl
    · exact List.cons_append

private theorem absorb_absent (absent : incoming.name ∉ packages.map Package.name) : absorb packages incoming = packages ++ [incoming] := by
  rw [absorb, if_neg fun present => absent (any_name.mp present)]

/-- The first package takes what comes in under its name, the others the rest. -/
theorem fold_head (incoming : List Package) (nodup : ((package :: packages).map Package.name).Nodup) :
    incoming.foldl absorb (package :: packages) =
      { package with
        platforms := Keyed.extend Platform.key package.platforms (named package.name incoming)
        tools := Keyed.extend Tool.key package.tools (toolsNamed package.name incoming) } ::
      (incoming.filter fun other => other.name ≠ package.name).foldl absorb packages := by
  induction incoming generalizing package packages with
  | nil => rfl
  | cons one incoming ih =>
    rw [List.foldl_cons, absorb_cons nodup, named_cons, toolsNamed_cons]
    by_cases here : package.name = one.name
    · have extended : ((package.extend one :: packages).map Package.name).Nodup := nodup
      rw [if_pos here, ih extended, if_pos here.symm, if_pos here.symm, Keyed.extend_append, Keyed.extend_append,
        List.filter_cons_of_neg (by simpa using here.symm)]
      rfl
    · have apart : one.name ≠ package.name := fun same => here same.symm
      obtain ⟨fresh, nodup'⟩ := List.nodup_cons.mp nodup
      have after : ((package :: absorb packages one).map Package.name).Nodup := by
        refine List.nodup_cons.mpr ⟨?_, absorb_nodup nodup'⟩
        rw [absorb_names]
        split
        · exact fresh
        · intro member
          rcases List.mem_append.mp member with old | new
          · exact fresh old
          · exact here (List.mem_singleton.mp new)
      rw [if_neg here, ih after, if_neg apart, if_neg apart, List.nil_append, List.nil_append,
        List.filter_cons_of_pos (by simpa using apart), List.foldl_cons]

private theorem fold_fresh {incoming : List Package} (nodup : ((packages ++ incoming).map Package.name).Nodup) :
    incoming.foldl absorb packages = packages ++ incoming := by
  induction incoming generalizing packages with
  | nil => exact (List.append_nil packages).symm
  | cons one incoming ih =>
    have absent : one.name ∉ packages.map Package.name := by
      rw [List.map_append, List.map_cons] at nodup
      exact fun member => (List.nodup_append.mp nodup).2.2 _ member _ List.mem_cons_self rfl
    rw [List.append_cons] at nodup ⊢
    rw [List.foldl_cons, absorb_absent absent, ih nodup]

private theorem gathered_fresh (nodup : (packages.map Package.name).Nodup) : gathered packages = packages := fold_fresh nodup

/-- Nothing in the incoming package is new. -/
def Covers (packages : List Package) (incoming : Package) : Prop :=
  ∃ package ∈ packages, package.name = incoming.name ∧ (∀ platform ∈ incoming.platforms, platform.key ∈ package.platforms.map Platform.key) ∧
    ∀ tool ∈ incoming.tools, tool.key ∈ package.tools.map Tool.key

private theorem absorb_covered (nodup : (packages.map Package.name).Nodup) (covers : Covers packages incoming) :
    absorb packages incoming = packages := by
  obtain ⟨package, member, named, platforms, tools⟩ := covers
  rw [absorb, if_pos (any_name.mpr (List.mem_map.mpr ⟨package, member, named⟩))]
  apply (List.map_congr_left ?_).trans (List.map_id packages)
  intro other among
  split
  · next same =>
    have equal := List.inj_on_of_nodup_map nodup among member (same.trans named.symm)
    subst equal
    rw [Package.extend, Keyed.extend_covered platforms, Keyed.extend_covered tools]
    rfl
  · rfl

private theorem fold_covered {incoming : List Package} (nodup : (packages.map Package.name).Nodup)
    (covers : ∀ one ∈ incoming, Covers packages one) : incoming.foldl absorb packages = packages := by
  induction incoming with
  | nil => rfl
  | cons one incoming ih =>
    rw [List.foldl_cons, absorb_covered nodup (covers one List.mem_cons_self)]
    exact ih fun other member => covers other (List.mem_cons_of_mem one member)

private theorem Covers.absorb {other : Package} (covers : Covers packages other) (incoming : Package) : Covers (absorb packages incoming) other := by
  obtain ⟨package, member, named, platforms, tools⟩ := covers
  unfold Publish.absorb
  split
  · refine ⟨if package.name = incoming.name then package.extend incoming else package, ?_, ?_, ?_, ?_⟩
    · exact List.mem_map.mpr ⟨package, member, rfl⟩
    · split <;> exact named
    · intro platform inside
      obtain ⟨kept, there, same⟩ := List.mem_map.mp (platforms platform inside)
      split
      · exact List.mem_map.mpr ⟨kept, Keyed.extend_keeps _ there, same⟩
      · exact List.mem_map.mpr ⟨kept, there, same⟩
    · intro tool inside
      obtain ⟨kept, there, same⟩ := List.mem_map.mp (tools tool inside)
      split
      · exact List.mem_map.mpr ⟨kept, Keyed.extend_keeps _ there, same⟩
      · exact List.mem_map.mpr ⟨kept, there, same⟩
  · exact ⟨package, List.mem_append_left _ member, named, platforms, tools⟩

private theorem absorb_covers (packages : List Package) (incoming : Package) : Covers (absorb packages incoming) incoming := by
  unfold absorb
  split
  · next present =>
    obtain ⟨package, member, named⟩ := List.mem_map.mp (any_name.mp present)
    refine ⟨package.extend incoming, ?_, named, ?_, ?_⟩
    · refine List.mem_map.mpr ⟨package, member, ?_⟩
      rw [if_pos named]
    · exact fun platform inside => Keyed.extend_covers _ inside
    · exact fun tool inside => Keyed.extend_covers _ inside
  · exact ⟨incoming, List.mem_append_right _ List.mem_cons_self, rfl, fun platform => List.mem_map_of_mem, fun tool => List.mem_map_of_mem⟩

private theorem Covers.fold {other : Package} (covers : Covers packages other) (incoming : List Package) :
    Covers (incoming.foldl Publish.absorb packages) other := by
  induction incoming generalizing packages with
  | nil => exact covers
  | cons one incoming ih => exact ih (covers.absorb one)

private theorem fold_covers {incoming : List Package} {one : Package} (member : one ∈ incoming) (packages : List Package) :
    Covers (incoming.foldl absorb packages) one := by
  induction incoming generalizing packages with
  | nil => cases member
  | cons head incoming ih =>
    rcases List.mem_cons.mp member with rfl | later
    · exact (absorb_covers packages one).fold incoming
    · exact ih later (absorb packages head)

theorem covered_fold {big packages incoming : List Package} (nodup : (big.map Package.name).Nodup)
    (start : ∀ package ∈ packages, Covers big package) (all : ∀ package ∈ incoming, Covers big package) :
    ∀ package ∈ incoming.foldl absorb packages, Covers big package := by
  induction incoming generalizing packages with
  | nil => exact start
  | cons one incoming ih =>
    apply ih _ fun package member => all package (List.mem_cons_of_mem one member)
    intro package member
    unfold absorb at member
    split at member
    · obtain ⟨old, there, rfl⟩ := List.mem_map.mp member
      split
      · next same =>
        obtain ⟨cover, among, named, platforms, tools⟩ := start old there
        obtain ⟨cover', among', named', platforms', tools'⟩ := all one List.mem_cons_self
        have equal := List.inj_on_of_nodup_map nodup among' among (named'.trans (same.symm.trans named.symm))
        subst equal
        refine ⟨cover', among', named, ?_, ?_⟩
        · intro platform inside
          exact (Keyed.mem_extend inside).elim (platforms platform) (platforms' platform)
        · intro tool inside
          exact (Keyed.mem_extend inside).elim (tools tool) (tools' tool)
      · exact start old there
    · rcases List.mem_append.mp member with old | new
      · exact start package old
      · cases List.mem_singleton.mp new
        exact all _ List.mem_cons_self

end Absorb

section Gathered
variable {unicode : Unicode} {own first : Package} {packages more : List Package}

/-- The package of the build, with what the others say of it. -/
def headOf (own : Package) (packages : List Package) : Package :=
  { own with
    platforms := Keyed.extend Platform.key own.platforms (named own.name packages)
    tools := Keyed.extend Tool.key own.tools (toolsNamed own.name packages) }

def othersOf (own : Package) (packages : List Package) : List Package :=
  gathered (packages.filter fun other => other.name ≠ own.name)

private theorem gathered_head (own : Package) (packages : List Package) :
    gathered (own :: packages) = headOf own packages :: othersOf own packages :=
  fold_head packages (List.nodup_singleton _)

private theorem sort_covers (covers : Covers packages first) : Covers (packages.map (Package.sort unicode)) first := by
  obtain ⟨package, member, named, platforms, tools⟩ := covers
  refine ⟨package.sort unicode, List.mem_map_of_mem member, named, ?_, tools⟩
  intro platform inside
  exact ((List.perm_insertionSort _ _).map Platform.key).mem_iff.mpr (platforms platform inside)

private theorem covers_sort (covers : Covers packages first) : Covers packages (first.sort unicode) := by
  obtain ⟨package, member, named, platforms, tools⟩ := covers
  refine ⟨package, member, named, ?_, tools⟩
  intro platform inside
  exact platforms platform ((List.perm_insertionSort _ _).mem_iff.mp inside)

private theorem toolsNamed_covered {tools : List Tool} (covers : ∀ one ∈ more, one.name = own.name → ∀ tool ∈ one.tools, tool.key ∈ tools.map Tool.key) :
    ∀ tool ∈ toolsNamed own.name more, tool.key ∈ tools.map Tool.key := by
  intro tool member
  obtain ⟨one, among, inside⟩ := List.mem_flatMap.mp member
  split at inside
  · next same => exact covers one among same tool inside
  · cases inside

/-- The second time, the other packages stay as they are. -/
theorem gathered_again (named : first.name = own.name) (tools : first.tools = (headOf own packages).tools)
    (covers : ∀ one ∈ more, Covers (gathered (own :: packages)) one) :
    gathered (own :: (first :: (othersOf own packages).map (Package.sort unicode) ++ more)) =
      { own with
        platforms := Keyed.extend Platform.key own.platforms (first.platforms ++ Publish.named own.name more)
        tools := (headOf own packages).tools } :: (othersOf own packages).map (Package.sort unicode) := by
  have nodup := gathered_nodup (own :: packages)
  rw [gathered_head] at nodup covers
  obtain ⟨fresh, nodup'⟩ := List.nodup_cons.mp nodup
  have apart : ∀ other ∈ (othersOf own packages).map (Package.sort unicode), other.name ≠ own.name := by
    intro other member same
    obtain ⟨old, there, rfl⟩ := List.mem_map.mp member
    exact fresh (List.mem_map.mpr ⟨old, there, same⟩)
  have absent : own.name ∉ ((othersOf own packages).map (Package.sort unicode)).map Package.name := by
    rw [sort_names]
    exact fresh
  have whole : (headOf own packages).tools = Keyed.extend Tool.key own.tools (headOf own packages).tools :=
    (Keyed.extend_again own.tools _).symm
  have own_tools : ∀ tool ∈ toolsNamed own.name more, tool.key ∈ (headOf own packages).tools.map Tool.key := by
    apply toolsNamed_covered
    intro one member same
    obtain ⟨package, among, title, _, covered⟩ := covers one member
    rcases List.mem_cons.mp among with rfl | other
    · exact covered
    · exact absurd (List.mem_map.mpr ⟨package, other, title.trans same⟩) fresh
  rw [gathered_head]
  congr 1
  · rw [headOf, named_append, named_cons, if_pos named, named_absent absent, toolsNamed_append, toolsNamed_cons, if_pos named,
      toolsNamed_absent absent, List.append_nil, List.append_nil, tools, Keyed.extend_append own.tools, ← whole,
      Keyed.extend_covered own_tools]
  · have kept : ((othersOf own packages).map (Package.sort unicode)).filter (fun other => other.name ≠ own.name) =
        (othersOf own packages).map (Package.sort unicode) :=
      List.filter_eq_self.mpr fun other member => by simpa using apart other member
    have nodup_sorted : (((othersOf own packages).map (Package.sort unicode)).map Package.name).Nodup := by
      rw [sort_names]
      exact nodup'
    rw [othersOf, List.filter_append, List.filter_cons_of_neg (by simpa using named), kept, gathered_append, gathered_fresh nodup_sorted]
    apply fold_covered nodup_sorted
    intro one member
    obtain ⟨among, other⟩ := List.mem_filter.mp member
    obtain ⟨package, there, title, rest⟩ := covers one among
    rcases List.mem_cons.mp there with rfl | inside
    · have apart : one.name ≠ own.name := by simpa using other
      exact absurd title.symm apart
    · exact sort_covers ⟨package, inside, title, rest⟩

end Gathered

section Retained
variable {unicode : Unicode} {repository architecture : Text}

private theorem before_total : Std.Total (Platform.Before unicode) := ⟨fun _ _ => le_total (α := WithBot Unicode.VersionKey) _ _⟩

private theorem before_trans : IsTrans Platform (Platform.Before unicode) :=
  ⟨fun _ _ _ first second => le_trans (α := WithBot Unicode.VersionKey) second first⟩

/-- An entry that the retention takes away again, and that does not count for the latest. -/
def Stale (unicode : Unicode) (repository architecture : Text) (latest : Option Text) (platform : Platform) : Prop :=
  platform.obsolete unicode repository architecture latest = true ∧ ∃ newest, latest = some newest ∧ downloadTag repository platform ≤ newest

private theorem latestDev_same {platforms : List Platform} {latest : Option Text}
    (bound : ∀ entry ∈ platforms, entry.snapshot unicode repository architecture = true →
      ∃ newest, latest = some newest ∧ downloadTag repository entry ≤ newest)
    (listed : ∀ newest, latest = some newest → ∃ entry ∈ platforms, entry.snapshot unicode repository architecture = true ∧
      downloadTag repository entry = newest) : latestDev unicode repository architecture platforms = latest := by
  cases found : latestDev unicode repository architecture platforms with
  | none =>
    cases top : latest with
    | none => rfl
    | some newest =>
      obtain ⟨entry, member, is, _⟩ := listed newest top
      obtain ⟨later, seen, _⟩ := latestDev_bound member is
      rw [found] at seen
      cases seen
  | some later =>
    obtain ⟨⟨entry, member, is, tag⟩, _⟩ := latestDev_spec found
    obtain ⟨newest, top, low⟩ := bound entry member is
    obtain ⟨other, member', is', tag'⟩ := listed newest top
    obtain ⟨later', seen, high⟩ := latestDev_bound member' is'
    rw [found] at seen
    cases seen
    rw [top]
    exact congrArg some (le_antisymm (tag ▸ low) (tag' ▸ high))

/-- The platforms that were kept are kept again, whatever stale entries come in once more. -/
theorem retained_again {platform : Platform} {incoming first more : List Platform} {latest : Option Text}
    (same : latest = latestDev unicode repository architecture (sorted unicode (Keyed.extend Platform.key [platform] incoming)))
    (kept : first = (sorted unicode (Keyed.extend Platform.key [platform] incoming)).filter
      fun entry => !entry.obsolete unicode repository architecture latest)
    (current : platform ∈ first)
    (stale : ∀ entry ∈ more, entry.key ∈ first.map Platform.key ∨ Stale unicode repository architecture latest entry) :
    latestDev unicode repository architecture (sorted unicode (Keyed.extend Platform.key [platform] (first ++ more))) = latest ∧
      (sorted unicode (Keyed.extend Platform.key [platform] (first ++ more))).filter
        (fun entry => !entry.obsolete unicode repository architecture latest) = first := by
  have total := @before_total unicode
  have trans := @before_trans unicode
  obtain ⟨rest, unfolded, _⟩ := Keyed.extend_added Platform.key [platform] incoming
  have nodup : ((Keyed.extend Platform.key [platform] incoming).map Platform.key).Nodup := Keyed.extend_nodup (List.nodup_singleton _)
  rw [unfolded, List.singleton_append] at nodup same kept
  have current_kept : ∀ entry ∈ first, entry.obsolete unicode repository architecture latest = false := by
    intro entry member
    rw [kept] at member
    simpa using (List.mem_filter.mp member).2
  -- the kept platforms with the build put first again
  have again : sorted unicode (Keyed.extend Platform.key [platform] first) = first := by
    rw [kept]
    exact Stable.sort_extend nodup (by rw [current_kept platform current]; rfl)
  have members : ∀ entry, entry ∈ Keyed.extend Platform.key [platform] first ↔ entry ∈ first := by
    intro entry
    rw [← (List.perm_insertionSort (Platform.Before unicode) _).mem_iff]
    change entry ∈ sorted unicode _ ↔ _
    rw [again]
  obtain ⟨added, split, new⟩ := Keyed.extend_added Platform.key (Keyed.extend Platform.key [platform] first) more
  have old : ∀ entry ∈ added, Stale unicode repository architecture latest entry := by
    intro entry member
    obtain ⟨given, absent⟩ := new entry member
    refine (stale entry given).resolve_left fun covered => ?_
    obtain ⟨other, there, equal⟩ := List.mem_map.mp covered
    exact absent (List.mem_map.mpr ⟨other, (members other).mpr there, equal⟩)
  have whole : Keyed.extend Platform.key [platform] (first ++ more) = Keyed.extend Platform.key [platform] first ++ added :=
    (Keyed.extend_append _ _ _).trans split
  have sorted_mem : ∀ entry, entry ∈ sorted unicode (Keyed.extend Platform.key [platform] (first ++ more)) ↔ entry ∈ first ∨ entry ∈ added := by
    intro entry
    rw [sorted, (List.perm_insertionSort (Platform.Before unicode) _).mem_iff, whole, List.mem_append, members]
  constructor
  · apply latestDev_same
    · intro entry member is
      rcases (sorted_mem entry).mp member with early | late
      · rw [kept] at early
        obtain ⟨newest, found, low⟩ := latestDev_bound (List.mem_of_mem_filter early) is
        exact ⟨newest, same.trans found, low⟩
      · exact (old entry late).2
    · intro newest found
      rw [same] at found
      obtain ⟨⟨entry, member, is, tag⟩, _⟩ := latestDev_spec found
      refine ⟨entry, (sorted_mem entry).mpr (.inl ?_), is, tag⟩
      rw [kept, List.mem_filter, Bool.not_eq_true', ← Bool.not_eq_true, obsolete_iff]
      refine ⟨member, fun out => out.2 ?_⟩
      rw [same, found, tag]
  · have gone : added.filter (fun entry => !entry.obsolete unicode repository architecture latest) = [] := by
      apply List.filter_eq_nil_iff.mpr
      intro entry member
      rw [(old entry member).1]
      exact Bool.false_ne_true
    have stays : (Keyed.extend Platform.key [platform] first).filter (fun entry => !entry.obsolete unicode repository architecture latest) =
        Keyed.extend Platform.key [platform] first := by
      apply List.filter_eq_self.mpr
      intro entry member
      rw [current_kept entry ((members entry).mp member)]
      rfl
    rw [sorted, Stable.filter_sort, whole, List.filter_append, gone, stays, List.append_nil]
    exact again

end Retained

section Merging
variable {unicode : Unicode} {packages : List Package} {indexes : List Index} {merged : Index}

private theorem sorted_versions {after : List Package} (done : packages.mapM (Package.sorted unicode) = some after) :
    ∀ package ∈ packages, ∀ platform ∈ package.platforms, (unicode.versionKey platform.version).isSome = true := by
  induction packages generalizing after with
  | nil => nofun
  | cons package packages ih =>
    rw [List.mapM_cons] at done
    obtain ⟨first, here, done⟩ := Option.bind_eq_some_iff.mp done
    obtain ⟨rest, there, _⟩ := Option.bind_eq_some_iff.mp done
    intro other member
    rcases List.mem_cons.mp member with rfl | later
    · unfold Package.sorted at here
      split at here
      · next all => exact fun platform inside => List.all_eq_true.mp all platform inside
      · cases here
    · exact ih there other later

private theorem mergeIndexes_versions (done : mergeIndexes unicode indexes = some merged) :
    ∀ package ∈ gathered (packagesOf indexes), ∀ platform ∈ package.platforms, (unicode.versionKey platform.version).isSome = true := by
  obtain ⟨after, sorted, _⟩ := Option.map_eq_some_iff.mp done
  exact sorted_versions sorted

private theorem mergeIndexes_gathered
    (versions : ∀ package ∈ gathered (packagesOf indexes), ∀ platform ∈ package.platforms, (unicode.versionKey platform.version).isSome = true) :
    mergeIndexes unicode indexes = some ⟨(gathered (packagesOf indexes)).map (Package.sort unicode)⟩ := by
  have sorted := sorted_some versions
  unfold mergeIndexes
  rw [show (indexes.flatMap Index.packages).foldl absorb [] = gathered (packagesOf indexes) from rfl, sorted]
  rfl

private theorem version_alike {platform other : Platform} (valid : (unicode.versionKey other.version).isSome = true)
    (same : other.key = platform.key) : (unicode.versionKey platform.version).isSome = true := by
  have version : other.version = platform.version := (Prod.mk.inj same).2
  rw [← version]
  exact valid

private theorem sort_twice (packages : List Package) :
    (packages.map (Package.sort unicode)).map (Package.sort unicode) = packages.map (Package.sort unicode) := by
  have total := @before_total unicode
  have trans := @before_trans unicode
  rw [List.map_map]
  apply List.map_congr_left
  intro package _
  rw [Function.comp_apply, Package.sort, Package.sort, Stable.sort_again]

end Merging

section Build
variable {host : Host} (build : Build host)

def Build.own : Package := ⟨host.template.name, host.template.rest, [build.platform], host.template.tools⟩

variable {build} {indexes more : List Index} {merged : Index} {first : Package}

private theorem Build.merged_head (done : mergeIndexes host.unicode (build.index :: indexes) = some merged) :
    merged.packages = (headOf build.own (packagesOf indexes)).sort host.unicode ::
      (othersOf build.own (packagesOf indexes)).map (Package.sort host.unicode) := by
  have all : (build.index :: indexes).flatMap Index.packages = build.own :: packagesOf indexes := rfl
  rw [mergeIndexes_packages done, all, gathered_head, List.map_cons]

/-- The build and what comes in again, merged into what is there. -/
theorem Build.merged_again (done : mergeIndexes host.unicode (build.index :: indexes) = some merged)
    (named : first.name = host.template.name) (tools : first.tools = (headOf build.own (packagesOf indexes)).tools)
    (platforms : ∀ platform ∈ first.platforms, platform ∈ (headOf build.own (packagesOf indexes)).platforms)
    (covers : ∀ one ∈ packagesOf more, Covers (gathered (packagesOf (build.index :: indexes))) one) :
    mergeIndexes host.unicode
        (build.index :: ⟨first :: (othersOf build.own (packagesOf indexes)).map (Package.sort host.unicode)⟩ :: more) =
      some ⟨Package.sort host.unicode
        { build.own with
          platforms := Keyed.extend Platform.key [build.platform] (first.platforms ++ Publish.named host.template.name (packagesOf more))
          tools := (headOf build.own (packagesOf indexes)).tools } ::
        (othersOf build.own (packagesOf indexes)).map (Package.sort host.unicode)⟩ := by
  have versions := mergeIndexes_versions done
  have before : packagesOf (build.index :: indexes) = build.own :: packagesOf indexes := rfl
  have after : packagesOf (build.index :: ⟨first :: (othersOf build.own (packagesOf indexes)).map (Package.sort host.unicode)⟩ :: more) =
      build.own :: (first :: (othersOf build.own (packagesOf indexes)).map (Package.sort host.unicode) ++ packagesOf more) := rfl
  rw [before] at versions covers
  have again := @gathered_again host.unicode build.own first (packagesOf indexes) (packagesOf more) named tools covers
  rw [mergeIndexes_gathered, after, again, List.map_cons, sort_twice]
  · rfl
  · rw [after, again]
    rw [gathered_head] at versions
    have own_valid := versions _ List.mem_cons_self
    intro package member platform inside
    rcases List.mem_cons.mp member with rfl | other
    · rcases Keyed.mem_extend inside with own | given
      · exact own_valid platform (Keyed.extend_keeps _ own)
      · rcases List.mem_append.mp given with kept | late
        · exact own_valid platform (platforms platform kept)
        · obtain ⟨one, among, _, there⟩ := mem_named.mp late
          obtain ⟨cover, listed, _, keys, _⟩ := covers one among
          obtain ⟨alike, within, same⟩ := List.mem_map.mp (keys platform there)
          rw [gathered_head] at listed
          exact version_alike (versions cover listed alike within) same
    · obtain ⟨old, there, rfl⟩ := List.mem_map.mp other
      exact versions old (List.mem_cons_of_mem _ there) platform ((List.perm_insertionSort _ _).mem_iff.mp inside)

private theorem Build.head_shape (build : Build host) (packages : List Package) : ∃ rest, (headOf build.own packages).platforms = build.platform :: rest ∧
    ((build.platform :: rest).map Platform.key).Nodup := by
  have nodup : ([build.platform].map Platform.key).Nodup := List.nodup_singleton _
  obtain ⟨rest, split, _⟩ := Keyed.extend_added Platform.key [build.platform] (named host.template.name packages)
  have unique := @Keyed.extend_nodup _ _ _ Platform.key [build.platform] (named host.template.name packages) nodup
  rw [split] at unique
  exact ⟨rest, split, unique⟩

/-- A full release that the stable index lists already changes nothing there. -/
theorem Build.stable_again (done : mergeIndexes host.unicode (build.index :: indexes) = some merged) :
    mergeIndexes host.unicode [build.index, merged] = some merged := by
  have total := @before_total host.unicode
  have trans := @before_trans host.unicode
  have shape := merged_head done
  have again := @Build.merged_again host build indexes [] merged ((headOf build.own (packagesOf indexes)).sort host.unicode) done rfl rfl
    (fun platform inside => (List.perm_insertionSort _ _).mem_iff.mp inside) nofun
  obtain ⟨packages⟩ := merged
  change packages = _ at shape
  rw [shape, again]
  obtain ⟨rest, split, nodup⟩ := build.head_shape (packagesOf indexes)
  have back := @Stable.sort_extend _ (Platform.Before host.unicode) _ (fun _ => true) _ _ _ _ Platform.key build.platform rest nodup rfl
  rw [List.filter_true, ← split] at back
  have nothing : ((headOf build.own (packagesOf indexes)).sort host.unicode).platforms ++ named host.template.name (packagesOf []) =
      (headOf build.own (packagesOf indexes)).platforms.insertionSort (Platform.Before host.unicode) := List.append_nil _
  rw [nothing]
  congr 3
  exact congrArg (fun platforms => Package.mk _ _ platforms _) back

end Build

/-- One download tag for one package, architecture and version. -/
def Snapshot.Coherent (host : Host) (snapshot : Snapshot) : Prop :=
  ∀ one ∈ snapshot.entries host.template.name, ∀ other ∈ snapshot.entries host.template.name, one.key = other.key →
    host.tagOf one = host.tagOf other

/-- No other download tag for the version of a generated snapshot. -/
def Snapshot.Unambiguous (host : Host) (snapshot : Snapshot) : Prop :=
  ∀ one ∈ snapshot.entries host.template.name, host.generated one = true → ∀ other ∈ snapshot.entries host.template.name,
    one.key = other.key → host.tagOf one = host.tagOf other

theorem Snapshot.Coherent.unambiguous {host : Host} {snapshot : Snapshot} (coherent : snapshot.Coherent host) :
    snapshot.Unambiguous host := fun one member _ other among same => coherent one member other among same

namespace Plan
variable {host : Host} {build : Build host} (plan : Plan build)

/-- What the build and the old indexes say together of the package of the build. -/
def whole : Package := headOf build.own (packagesOf [plan.parent.top.dev, plan.parent.top.stable])

/-- The same, sorted, after the retention. -/
def front : Package := (plan.whole.sort host.unicode).retained host.unicode host.repository host.template.architecture

def back : List Package :=
  (othersOf build.own (packagesOf [plan.parent.top.dev, plan.parent.top.stable])).map (Package.sort host.unicode)

private theorem retain_head {unicode : Unicode} {repository name architecture : Text} {package : Package} (named : package.name = name)
    (packages : List Package) : retainLatestDev unicode repository name architecture (package :: packages) =
      some (package.retained unicode repository architecture :: packages, latestDev unicode repository architecture package.platforms) := by
  rw [retainLatestDev, if_pos named]

private theorem dev_packages : plan.dev = ⟨plan.front :: plan.back⟩ ∧
    plan.latest = latestDev host.unicode host.repository host.template.architecture (sorted host.unicode plan.whole.platforms) := by
  obtain ⟨merged, made⟩ := plan.merged
  have all := plan.developed
  have title : ((headOf build.own (packagesOf [plan.parent.top.dev, plan.parent.top.stable])).sort host.unicode).name =
      host.template.name := rfl
  rw [Build.develop, made.done, Option.bind_some, Build.merged_head made.done, retain_head title, Option.map_some] at all
  obtain ⟨dev, latest⟩ := Prod.mk.inj (Option.some.inj all)
  exact ⟨dev.symm, latest.symm⟩

private theorem front_platforms : plan.front.platforms = (sorted host.unicode plan.whole.platforms).filter
    fun entry => !entry.obsolete host.unicode host.repository host.template.architecture plan.latest := by
  rw [plan.dev_packages.2]
  rfl

/-- What the stable index holds after the run was there before it, or is the build. -/
theorem stable_covered : ∀ one ∈ packagesOf [plan.snapshot.stable],
    Covers (gathered (packagesOf [build.index, plan.parent.top.dev, plan.parent.top.stable])) one := by
  have all : packagesOf [plan.snapshot.stable] = plan.snapshot.stable.packages := List.append_nil _
  have big : packagesOf [build.index, plan.parent.top.dev, plan.parent.top.stable] =
      build.own :: (plan.parent.top.dev.packages ++ (plan.parent.top.stable.packages ++ [])) := rfl
  have nodup := gathered_nodup (packagesOf [build.index, plan.parent.top.dev, plan.parent.top.stable])
  have given : ∀ one ∈ packagesOf [build.index, plan.parent.top.dev, plan.parent.top.stable],
      Covers (gathered (packagesOf [build.index, plan.parent.top.dev, plan.parent.top.stable])) one :=
    fun one member => fold_covers member []
  rw [all, snapshot]
  cases released : plan.stable with
  | none =>
    intro one member
    apply given
    rw [big]
    simp [show one ∈ plan.parent.top.stable.packages from member]
  | some index =>
    have done := plan.stabilized
    rw [released, Build.stabilize] at done
    split at done
    · cases done
    · obtain ⟨made, merging, same⟩ := Option.map_eq_some_iff.mp done
      cases same
      intro one member
      change one ∈ index.packages at member
      rw [mergeIndexes_packages merging] at member
      obtain ⟨old, there, rfl⟩ := List.mem_map.mp member
      apply covers_sort
      refine covered_fold nodup (fun _ none => absurd none List.not_mem_nil) ?_ old there
      intro source among
      apply given
      rw [big]
      rcases List.mem_cons.mp among with rfl | rest
      · exact List.mem_cons_self
      · simp [show source ∈ plan.parent.top.stable.packages by simpa using rest]

private theorem mem_front {merged : Index} (made : plan.Merged merged) (platform : Platform) : platform ∈ plan.front.platforms ↔
    platform ∈ merged.named host.template.name ∧
      platform.obsolete host.unicode host.repository host.template.architecture plan.latest = false := by
  have listed : plan.whole.sort host.unicode ∈ merged.packages := by
    rw [Build.merged_head made.done]
    exact List.mem_cons_self
  have named : named host.template.name merged.packages = sorted host.unicode plan.whole.platforms :=
    named_present (merged_nodup made.done) listed
  rw [plan.front_platforms, List.mem_filter, Bool.not_eq_true', Index.named, named]

private theorem own_front : build.platform ∈ plan.front.platforms := by
  obtain ⟨merged, made⟩ := plan.merged
  have there := (Index.find_some plan.own_found).1
  rw [made.named, if_pos rfl, List.mem_filter, Bool.not_eq_true'] at there
  exact (plan.mem_front made _).mpr there

/-- An entry of the stable index that the development index lacks has been taken out of it as an old snapshot. -/
theorem stable_stale (unambiguous : plan.parent.top.Unambiguous host) {entry : Platform}
    (member : entry ∈ plan.snapshot.stable.named host.template.name) : entry.key ∈ plan.front.platforms.map Platform.key ∨
      Stale host.unicode host.repository host.template.architecture plan.latest entry := by
  obtain ⟨merged, made⟩ := plan.merged
  rcases plan.origin (List.mem_append_left _ member) with old | ⟨_, rfl⟩
  · obtain ⟨source, found⟩ : ∃ source, merged.find host.template.name entry.key = some source := by
      apply Option.isSome_iff_exists.mp
      rw [made.find, Option.isSome_or, Option.isSome_or]
      rcases List.mem_append.mp old with stable | dev
      · rw [show (plan.parent.top.stable.find host.template.name entry.key).isSome = true from Keyed.find_isSome Platform.key stable,
          Bool.or_true, Bool.or_true]
      · rw [show (plan.parent.top.dev.find host.template.name entry.key).isSome = true from Keyed.find_isSome Platform.key dev,
          Bool.true_or, Bool.or_true]
    obtain ⟨inside, key⟩ := Index.find_some found
    by_cases out : source.obsolete host.unicode host.repository host.template.architecture plan.latest = true
    · right
      obtain ⟨newest, top, older⟩ := obsolete_older made.latest.symm inside out
      have before : source ∈ plan.parent.top.entries host.template.name := by
        obtain ⟨index, among, there⟩ := merged_member made.done inside
        rcases List.mem_cons.mp among with rfl | rest
        · rw [Build.named_index, if_pos rfl] at there
          cases List.mem_singleton.mp there
          rw [((plan.mem_front made _).mp plan.own_front).2] at out
          cases out
        · rcases List.mem_cons.mp rest with rfl | last
          · exact List.mem_append_right _ there
          · cases List.mem_singleton.mp last
            exact List.mem_append_left _ there
      obtain ⟨is, other⟩ := Publish.obsolete_iff.mp out
      have tag : host.tagOf source = host.tagOf entry := unambiguous source before is entry old key
      have architecture : source.architecture = entry.architecture := (Prod.mk.inj key).1
      obtain ⟨here, generated⟩ := snapshot_iff.mp is
      change devTag host.unicode (host.tagOf source) = true at generated
      change host.tagOf source < newest at older
      change some (host.tagOf source) ≠ plan.latest at other
      rw [tag] at generated older other
      exact ⟨Publish.obsolete_iff.mpr ⟨snapshot_iff.mpr ⟨architecture.symm.trans here, generated⟩, other⟩, newest, top, older.le⟩
    · exact .inl (List.mem_map.mpr ⟨source, (plan.mem_front made _).mpr ⟨inside, by simpa using out⟩, key⟩)
  · exact .inl (List.mem_map_of_mem plan.own_front)

/-- Once more, the run makes of its indexes what they are. -/
theorem develop_again (unambiguous : plan.parent.top.Unambiguous host) : build.develop plan.snapshot = some (plan.dev, plan.latest) := by
  obtain ⟨merged, made⟩ := plan.merged
  obtain ⟨dev, latest⟩ := plan.dev_packages
  have again := @Build.merged_again host build _ [plan.snapshot.stable] merged plan.front made.done rfl rfl
    (fun platform inside => (List.perm_insertionSort _ _).mem_iff.mp (List.mem_of_mem_filter inside)) plan.stable_covered
  have late : Publish.named host.template.name (packagesOf [plan.snapshot.stable]) = plan.snapshot.stable.named host.template.name := by
    rw [packagesOf, List.flatMap_singleton]
    rfl
  obtain ⟨same, kept⟩ := retained_again latest plan.front_platforms plan.own_front fun entry member => plan.stable_stale unambiguous member
  have title : ∀ platforms, (Package.sort host.unicode { build.own with platforms := platforms, tools := plan.whole.tools }).name =
      host.template.name := fun _ => rfl
  have retained : (Package.sort host.unicode { build.own with
      platforms := Keyed.extend Platform.key [build.platform] (plan.front.platforms ++ plan.snapshot.stable.named host.template.name)
      tools := plan.whole.tools }).retained host.unicode host.repository host.template.architecture = plan.front := by
    unfold Package.retained
    dsimp only [Package.sort]
    change Package.mk _ _ ((sorted _ _).filter fun entry => !entry.obsolete _ _ _ (latestDev _ _ _ (sorted _ _))) _ = _
    rw [same, kept]
    rfl
  rw [late] at again
  rw [Build.develop]
  change (mergeIndexes host.unicode (build.index :: plan.dev :: [plan.snapshot.stable])).bind _ = _
  rw [dev]
  change mergeIndexes host.unicode (build.index :: ⟨plan.front :: plan.back⟩ :: [plan.snapshot.stable]) = _ at again
  rw [again, Option.bind_some]
  change (retainLatestDev _ _ _ _ (Package.sort host.unicode { build.own with platforms := _, tools := plan.whole.tools } :: plan.back)).map _ = _
  rw [retain_head (title _), retained, Option.map_some]
  exact congrArg (fun last => some (_, last)) same

theorem stabilize_again : build.stabilize plan.prerelease plan.snapshot.stable = some plan.stable := by
  have done := plan.stabilized
  rw [snapshot]
  rw [Build.stabilize] at done ⊢
  split at done
  · next prerelease =>
    rw [if_pos prerelease, ← done]
  · next full =>
    obtain ⟨made, merging, same⟩ := Option.map_eq_some_iff.mp done
    rw [if_neg full, ← same, Option.getD_some, Build.stable_again merging]
    rfl

end Plan

end ArduinoK210.Publish
