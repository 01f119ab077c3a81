import ArduinoK210.Publish.Laws

/-! `merge_indexes` on the objects of an interpreter: a package refers to its lists of platforms and of tools, and those are
changed in place. Every list that is changed belongs to a copy, so the indexes that are given stay as they are. -/

namespace ArduinoK210.Publish

/-- The lists that can be changed, by their addresses. -/
structure Objects where
  platforms : List (List Platform)
  tools : List (List Tool)

structure PackageObject where
  name : Text
  rest : Text
  platforms : Nat
  tools : Nat
  deriving DecidableEq

namespace Objects

def read (objects : Objects) (package : PackageObject) : Package :=
  ⟨package.name, package.rest, objects.platforms.getD package.platforms [], objects.tools.getD package.tools []⟩

def readIndex (objects : Objects) (packages : List PackageObject) : Index := ⟨packages.map objects.read⟩

def deepcopy (objects : Objects) (package : PackageObject) : Objects × PackageObject :=
  (⟨objects.platforms ++ [(objects.read package).platforms], objects.tools ++ [(objects.read package).tools]⟩,
    ⟨package.name, package.rest, objects.platforms.length, objects.tools.length⟩)

/-- The new entries of another package, appended to the lists of this one. -/
def extend (objects : Objects) (package incoming : PackageObject) : Objects :=
  ⟨objects.platforms.set package.platforms (Keyed.extend Platform.key (objects.read package).platforms (objects.read incoming).platforms),
    objects.tools.set package.tools (Keyed.extend Tool.key (objects.read package).tools (objects.read incoming).tools)⟩

def absorb (state : Objects × List PackageObject) (incoming : PackageObject) : Objects × List PackageObject :=
  match state.2.find? fun package => package.name = incoming.name with
  | some package => (state.1.extend package incoming, state.2)
  | none => ((state.1.deepcopy incoming).1, state.2 ++ [(state.1.deepcopy incoming).2])

def place (objects : Objects) (package : PackageObject) (platforms : List Platform) : Objects :=
  { objects with platforms := objects.platforms.set package.platforms platforms }

section
variable (unicode : Unicode)

def sort (objects : Objects) (package : PackageObject) : Option Objects :=
  ((objects.read package).sorted unicode).map fun sorted => objects.place package sorted.platforms

def mergeIndexes (objects : Objects) (indexes : List (List PackageObject)) : Option (Objects × List PackageObject) :=
  let (gathered, packages) := indexes.flatten.foldl absorb (objects, [])
  (packages.foldlM (sort unicode) gathered).map fun sorted => (sorted, packages)

end

/-- The lists that were there are there with the same contents. -/
structure Keeps (before after : Objects) : Prop where
  platforms : before.platforms <+: after.platforms
  tools : before.tools <+: after.tools

/-- Copies with lists of their own, all of them new. -/
structure Copies (start objects : Objects) (packages : List PackageObject) : Prop where
  kept : Keeps start objects
  platforms : (packages.map PackageObject.platforms).Nodup
  tools : (packages.map PackageObject.tools).Nodup
  fresh : ∀ package ∈ packages, start.platforms.length ≤ package.platforms ∧ package.platforms < objects.platforms.length ∧
    start.tools.length ≤ package.tools ∧ package.tools < objects.tools.length

private theorem getD_prefix {α : Type} {front whole : List (List α)} (before : front <+: whole) {i : Nat} (bound : i < front.length) :
    whole.getD i [] = front.getD i [] := by
  obtain ⟨rest, rfl⟩ := before
  rw [List.getD_eq_getElem?_getD, List.getElem?_append_left bound, List.getD_eq_getElem?_getD]

private theorem prefix_set {α : Type} {front whole : List α} (before : front <+: whole) {i : Nat} (beyond : front.length ≤ i) (value : α) :
    front <+: whole.set i value := by
  obtain ⟨rest, rfl⟩ := before
  rw [List.set_append_right _ _ beyond]
  exact List.prefix_append _ _

private theorem getD_set {α : Type} (lists : List (List α)) (i j : Nat) (value : List α) (bound : i < lists.length) :
    (lists.set i value).getD j [] = if i = j then value else lists.getD j [] := by
  rw [List.getD_eq_getElem?_getD, List.getElem?_set, List.getD_eq_getElem?_getD]
  by_cases same : i = j
  · subst same
    simp [bound]
  · rw [if_neg same, if_neg same]

/-- A package that lies within the lists of the start. -/
def Inside (start : Objects) (package : PackageObject) : Prop :=
  package.platforms < start.platforms.length ∧ package.tools < start.tools.length

private theorem Keeps.read {start objects : Objects} (kept : Keeps start objects) {package : PackageObject} (inside : Inside start package) :
    objects.read package = start.read package := by
  rw [Objects.read, getD_prefix kept.platforms inside.1, getD_prefix kept.tools inside.2, Objects.read]

variable {start objects : Objects} {packages : List PackageObject}

/-- Other copies do not see a change of one. -/
theorem Copies.extend_read (copies : Copies start objects packages) {package : PackageObject} (member : package ∈ packages)
    (incoming : PackageObject) {other : PackageObject} (among : other ∈ packages) :
    (objects.extend package incoming).read other =
      if other = package then (objects.read package).extend (objects.read incoming) else objects.read other := by
  obtain ⟨_, platforms, _, tools⟩ := copies.fresh package member
  rw [Objects.read, Objects.extend, getD_set _ _ _ _ platforms, getD_set _ _ _ _ tools]
  by_cases same : other = package
  · subst same
    rw [if_pos rfl, if_pos rfl, if_pos rfl]
    rfl
  · have apart : ∀ address : PackageObject → Nat, (packages.map address).Nodup → address package ≠ address other := by
      intro address nodup equal
      exact same (List.inj_on_of_nodup_map nodup among member equal.symm)
    rw [if_neg (apart _ copies.platforms), if_neg (apart _ copies.tools), if_neg same]
    rfl

private theorem Copies.extend (copies : Copies start objects packages) {package : PackageObject} (member : package ∈ packages)
    (incoming : PackageObject) : Copies start (objects.extend package incoming) packages := by
  obtain ⟨first, _, second, _⟩ := copies.fresh package member
  refine ⟨⟨prefix_set copies.kept.platforms first _, prefix_set copies.kept.tools second _⟩, copies.platforms, copies.tools, ?_⟩
  intro other among
  rw [Objects.extend, List.length_set, List.length_set]
  exact copies.fresh other among

private theorem Copies.deepcopy (copies : Copies start objects packages) (incoming : PackageObject) :
    Copies start (objects.deepcopy incoming).1 (packages ++ [(objects.deepcopy incoming).2]) := by
  have new : ∀ address : PackageObject → Nat, ∀ bound : Nat, (packages.map address).Nodup → (∀ package ∈ packages, address package < bound) →
      address (objects.deepcopy incoming).2 = bound → ((packages ++ [(objects.deepcopy incoming).2]).map address).Nodup := by
    intro address bound nodup below same
    rw [List.map_append, List.map_singleton, List.nodup_append]
    refine ⟨nodup, List.nodup_singleton _, ?_⟩
    intro one first other second equal
    obtain ⟨package, member, rfl⟩ := List.mem_map.mp first
    cases List.mem_singleton.mp second
    exact absurd (equal.trans same) (Nat.ne_of_lt (below package member))
  refine ⟨⟨copies.kept.platforms.trans (List.prefix_append _ _), copies.kept.tools.trans (List.prefix_append _ _)⟩,
    new _ objects.platforms.length copies.platforms (fun package member => (copies.fresh package member).2.1) rfl,
    new _ objects.tools.length copies.tools (fun package member => (copies.fresh package member).2.2.2) rfl, ?_⟩
  intro package member
  rw [Objects.deepcopy, List.length_append, List.length_append, List.length_singleton, List.length_singleton]
  rcases List.mem_append.mp member with old | fresh
  · obtain ⟨one, two, three, four⟩ := copies.fresh package old
    exact ⟨one, Nat.lt_succ_of_lt two, three, Nat.lt_succ_of_lt four⟩
  · cases List.mem_singleton.mp fresh
    exact ⟨copies.kept.platforms.length_le, Nat.lt_succ_self _, copies.kept.tools.length_le, Nat.lt_succ_self _⟩

private theorem deepcopy_read (objects : Objects) (incoming : PackageObject) :
    (objects.deepcopy incoming).1.read (objects.deepcopy incoming).2 = objects.read incoming := by
  simp [Objects.read, Objects.deepcopy]

/-- A deep copy leaves what the packages that are there read. -/
theorem Copies.deepcopy_keeps (copies : Copies start objects packages) (incoming : PackageObject) {package : PackageObject}
    (member : package ∈ packages) : (objects.deepcopy incoming).1.read package = objects.read package := by
  obtain ⟨_, platforms, _, tools⟩ := copies.fresh package member
  rw [Objects.read, Objects.deepcopy, getD_prefix (List.prefix_append _ _) platforms, getD_prefix (List.prefix_append _ _) tools,
    Objects.read]

theorem Copies.absorb (copies : Copies start objects packages) (names : (packages.map PackageObject.name).Nodup)
    {incoming : PackageObject} (inside : Inside start incoming) :
    Copies start (Objects.absorb (objects, packages) incoming).1 (Objects.absorb (objects, packages) incoming).2 ∧
      ((Objects.absorb (objects, packages) incoming).2.map PackageObject.name).Nodup ∧
      (Objects.absorb (objects, packages) incoming).2.map (Objects.absorb (objects, packages) incoming).1.read =
        Publish.absorb (packages.map objects.read) (start.read incoming) := by
  have given := copies.kept.read inside
  have title : ∀ package : PackageObject, (objects.read package).name = package.name := fun _ => rfl
  have listed : ((packages.map objects.read).any fun package => package.name = (start.read incoming).name) =
      packages.any fun package => package.name = incoming.name := List.any_map
  unfold Objects.absorb Publish.absorb
  dsimp only
  rw [listed]
  cases found : packages.find? fun package => package.name = incoming.name with
  | some package =>
    have member := List.mem_of_find?_eq_some found
    have named : package.name = incoming.name := by simpa using List.find?_some found
    rw [if_pos (List.any_eq_true.mpr ⟨package, member, decide_eq_true named⟩)]
    refine ⟨copies.extend member incoming, names, ?_⟩
    dsimp only
    rw [List.map_map]
    apply List.map_congr_left
    intro other among
    rw [copies.extend_read member incoming among, Function.comp_apply, title]
    have only : other = package ↔ other.name = (start.read incoming).name := by
      constructor
      · rintro rfl
        exact named
      · intro equal
        exact List.inj_on_of_nodup_map names among member (equal.trans named.symm)
    by_cases same : other = package
    · rw [if_pos same, if_pos (only.mp same), given, same]
    · rw [if_neg same, if_neg fun equal => same (only.mpr equal)]
  | none =>
    have absent : ∀ package ∈ packages, package.name ≠ incoming.name := by
      intro package member equal
      simpa [equal] using List.find?_eq_none.mp found package member
    have no : (packages.any fun package => package.name = incoming.name) = false := by
      rw [List.any_eq_false]
      intro package member
      simpa using absent package member
    rw [no, if_neg Bool.false_ne_true]
    refine ⟨copies.deepcopy incoming, ?_, ?_⟩
    · dsimp only
      rw [List.map_append, List.map_singleton, List.nodup_append]
      refine ⟨names, List.nodup_singleton _, ?_⟩
      intro one first other second equal
      obtain ⟨package, member, rfl⟩ := List.mem_map.mp first
      cases List.mem_singleton.mp second
      exact absent package member equal
    · dsimp only
      rw [List.map_append, List.map_singleton]
      congr 1
      · exact List.map_congr_left fun package member => copies.deepcopy_keeps incoming member
      · rw [Objects.deepcopy_read, given]

private theorem Copies.gather (copies : Copies start objects packages) (names : (packages.map PackageObject.name).Nodup)
    {incoming : List PackageObject} (inside : ∀ package ∈ incoming, Inside start package) :
    Copies start (incoming.foldl Objects.absorb (objects, packages)).1 (incoming.foldl Objects.absorb (objects, packages)).2 ∧
      (incoming.foldl Objects.absorb (objects, packages)).2.map (incoming.foldl Objects.absorb (objects, packages)).1.read =
        (incoming.map start.read).foldl Publish.absorb (packages.map objects.read) := by
  induction incoming generalizing objects packages with
  | nil => exact ⟨copies, rfl⟩
  | cons one incoming ih =>
    obtain ⟨copies', names', same⟩ := copies.absorb names (inside one List.mem_cons_self)
    obtain ⟨last, whole⟩ := ih copies' names' fun package member => inside package (List.mem_cons_of_mem one member)
    refine ⟨last, ?_⟩
    rw [List.foldl_cons, List.map_cons, List.foldl_cons, ← same]
    exact whole

private theorem Copies.place (copies : Copies start objects packages) {package : PackageObject} (member : package ∈ packages)
    (platforms : List Platform) : Copies start (objects.place package platforms) packages := by
  obtain ⟨low, _, _, _⟩ := copies.fresh package member
  refine ⟨⟨prefix_set copies.kept.platforms low _, copies.kept.tools⟩, copies.platforms, copies.tools, ?_⟩
  intro other among
  rw [Objects.place, List.length_set]
  exact copies.fresh other among

private theorem Copies.place_read (copies : Copies start objects packages) {package : PackageObject} (member : package ∈ packages)
    (platforms : List Platform) {other : PackageObject} (among : other ∈ packages) :
    (objects.place package platforms).read other =
      if other = package then { objects.read package with platforms := platforms } else objects.read other := by
  obtain ⟨_, high, _, _⟩ := copies.fresh package member
  rw [Objects.read, Objects.place, getD_set _ _ _ _ high]
  by_cases same : other = package
  · subst same
    rw [if_pos rfl, if_pos rfl]
    rfl
  · rw [if_neg, if_neg same]
    · rfl
    · intro equal
      exact same (List.inj_on_of_nodup_map copies.platforms among member equal.symm)

private theorem Copies.apart {front back : List PackageObject} {package : PackageObject} (copies : Copies start objects (front ++ package :: back)) :
    ∀ other ∈ front ++ back, other ≠ package := by
  rintro other among rfl
  have nodup := List.Nodup.of_map _ copies.platforms
  rw [List.nodup_middle, List.nodup_cons] at nodup
  exact nodup.1 among

theorem Copies.sorts (unicode : Unicode) (front back : List PackageObject) (copies : Copies start objects (front ++ back)) :
    match back.foldlM (Objects.sort unicode) objects with
    | some after => Copies start after (front ++ back) ∧ front.map after.read = front.map objects.read ∧
        (back.map objects.read).mapM (Package.sorted unicode) = some (back.map after.read)
    | none => (back.map objects.read).mapM (Package.sorted unicode) = none := by
  induction back generalizing objects front with
  | nil => exact ⟨copies, rfl, rfl⟩
  | cons package back ih =>
    rw [List.foldlM_cons, List.map_cons, List.mapM_cons]
    cases here : (objects.read package).sorted unicode with
    | none =>
      have raises : objects.sort unicode package = none := by rw [Objects.sort, here, Option.map_none]
      rw [raises]
      rfl
    | some sorted =>
      have changes : objects.sort unicode package = some (objects.place package sorted.platforms) := by
        rw [Objects.sort, here, Option.map_some]
      have shape : sorted = { objects.read package with platforms := sorted.platforms } := by
        unfold Package.sorted at here
        split at here
        · cases here
          rfl
        · cases here
      have member : package ∈ front ++ package :: back := by simp
      have others : ∀ list : List PackageObject, (∀ other ∈ list, other ∈ front ++ back) →
          list.map (objects.place package sorted.platforms).read = list.map objects.read := by
        intro list sub
        apply List.map_congr_left
        intro other among
        have within := sub other among
        rw [copies.place_read member sorted.platforms (by rcases List.mem_append.mp within with h | h <;> simp [h]),
          if_neg (copies.apart other within)]
      have next := copies.place member sorted.platforms
      have own := copies.place_read member sorted.platforms member
      rw [if_pos rfl, ← shape] at own
      have rest := ih (front ++ [package]) (by rw [List.append_assoc]; exact next)
      rw [changes]
      dsimp only [Option.bind_eq_bind, Option.bind_some]
      rw [others back fun other among => List.mem_append_right front among] at rest
      split at rest
      · obtain ⟨last, fronts, backs⟩ := rest
        rw [List.map_append, List.map_append, List.map_singleton, List.map_singleton] at fronts
        have parts := List.append_inj' fronts rfl
        have head := (List.cons.inj parts.2).1.trans own
        refine ⟨?_, parts.1.trans (others front fun other among => List.mem_append_left back among), ?_⟩
        · rw [List.append_assoc, List.singleton_append] at last
          exact last
        · rw [backs, List.map_cons, head]
          rfl
      · rw [rest]
        rfl

/-- Merging objects is merging the indexes they stand for, and leaves every list that was there as it was. -/
theorem mergeIndexes_reads (unicode : Unicode) (objects : Objects) (indexes : List (List PackageObject))
    (inside : ∀ index ∈ indexes, ∀ package ∈ index, Inside objects package) :
    ((objects.mergeIndexes unicode indexes).map fun done => done.1.readIndex done.2) =
        Publish.mergeIndexes unicode (indexes.map objects.readIndex) ∧
      ∀ done, objects.mergeIndexes unicode indexes = some done → Keeps objects done.1 := by
  have nothing : Copies objects objects [] :=
    ⟨⟨List.prefix_refl _, List.prefix_refl _⟩, List.nodup_nil, List.nodup_nil, fun _ member => absurd member List.not_mem_nil⟩
  have all : ∀ package ∈ indexes.flatten, Inside objects package := by
    intro package member
    obtain ⟨index, among, there⟩ := List.mem_flatten.mp member
    exact inside index among package there
  obtain ⟨copies, same⟩ := nothing.gather List.nodup_nil all
  have flat : (indexes.map objects.readIndex).flatMap Index.packages = indexes.flatten.map objects.read := by
    rw [List.flatMap_map, List.map_flatten, List.flatMap_def]
    rfl
  have whole := Copies.sorts unicode [] (indexes.flatten.foldl absorb (objects, [])).2 copies
  unfold mergeIndexes Publish.mergeIndexes
  rw [flat, ← show _ = (indexes.flatten.map objects.read).foldl Publish.absorb [] from same]
  dsimp only
  split at whole
  · next after done =>
    obtain ⟨last, _, values⟩ := whole
    rw [done, values]
    refine ⟨rfl, ?_⟩
    rintro _ ⟨⟩
    exact last.kept
  · next done =>
    rw [done, whole]
    exact ⟨rfl, nofun⟩

end Objects

section Laws
variable (unicode : Unicode)

/-- The entry that the first index with it has, and no other. -/
def FromFirst {α κ : Type} [DecidableEq κ] (key : α → κ) (entries merged : List α) : Prop :=
  ∀ wanted, (merged.filter fun entry => key entry = wanted) = (Keyed.find key wanted entries).toList

private theorem distinct_fromFirst {α κ : Type} [DecidableEq κ] (key : α → κ) (entries : List α) :
    FromFirst key entries (Keyed.distinct key entries) := by
  intro wanted
  rw [← Keyed.find_distinct]
  have nodup := @Keyed.distinct_nodup _ _ _ key entries
  generalize Keyed.distinct key entries = items at nodup
  induction items with
  | nil => rfl
  | cons item items ih =>
    obtain ⟨fresh, nodup⟩ := List.nodup_cons.mp nodup
    by_cases same : key item = wanted
    · have rest : (items.filter fun entry => key entry = wanted) = [] := by
        apply List.filter_eq_nil_iff.mpr
        intro other member equal
        exact fresh (same.trans (of_decide_eq_true equal).symm ▸ List.mem_map_of_mem member)
      rw [List.filter_cons_of_pos (by simpa using same), rest, Keyed.find, List.find?_cons_of_pos (by simpa using same)]
      rfl
    · rw [List.filter_cons_of_neg (by simpa using same), Keyed.find, List.find?_cons_of_neg (by simpa using same)]
      exact ih nodup

/-- A merged index: every entry once from the first index that has it, the newest versions first, and versions of one rank
in the order of their first appearance. -/
structure MergeOf (indexes : List Index) (merged : Index) : Prop where
  names : (merged.packages.map Package.name).Nodup
  platforms : ∀ name, FromFirst Platform.key (indexes.flatMap fun index => index.named name) (merged.named name)
  tools : ∀ name, FromFirst Tool.key (indexes.flatMap fun index => index.toolsNamed name) (merged.toolsNamed name)
  order : ∀ name, (merged.named name).Pairwise (Platform.Before unicode)
  ties : ∀ name (one : Platform), (merged.named name).filter (fun other => one.Before unicode other ∧ other.Before unicode one) =
    (Keyed.distinct Platform.key (indexes.flatMap fun index => index.named name)).filter
      fun other => one.Before unicode other ∧ other.Before unicode one

variable {unicode}

private theorem sorted_fromFirst (entries platforms : List Platform) (first : FromFirst Platform.key entries platforms) :
    FromFirst Platform.key entries (sorted unicode platforms) := by
  intro wanted
  rw [← first wanted]
  exact Stable.filter_insertionSort (before_alike wanted) platforms

private theorem mergeOf {indexes : List Index} {merged : Index} (well : ∀ index ∈ indexes, index.WellFormed unicode)
    (done : mergeIndexes unicode indexes = some merged) : MergeOf unicode indexes merged := by
  have platforms_of : ∀ name, named name (packagesOf indexes) = indexes.flatMap fun index => index.named name := fun name => List.flatMap_assoc
  have tools_of : ∀ name, toolsNamed name (packagesOf indexes) = indexes.flatMap fun index => index.toolsNamed name :=
    fun name => List.flatMap_assoc
  refine ⟨merged_nodup done, ?_, ?_, ?_, ?_⟩
  · intro name
    rw [(merged_contents well done name).1, platforms_of]
    exact sorted_fromFirst _ _ (distinct_fromFirst Platform.key _)
  · intro name
    rw [(merged_contents well done name).2, tools_of]
    exact distinct_fromFirst Tool.key _
  · intro name
    rw [(merged_contents well done name).1]
    exact sorted_pairwise _
  · intro name one
    rw [(merged_contents well done name).1, platforms_of]
    exact sorted_filter one _

/-- The laws of `merge_indexes`: what it contains, in which order, that it leaves the objects it is given alone, and that
merges nest and repeat without a difference. -/
theorem merge_laws (objects : Objects) (indexes : List (List PackageObject))
    (inside : ∀ index ∈ indexes, ∀ package ∈ index, objects.Inside package)
    (well : ∀ index ∈ indexes, (objects.readIndex index).WellFormed unicode) :
    (∃ after packages, objects.mergeIndexes unicode indexes = some (after, packages) ∧ objects.Keeps after ∧
      mergeIndexes unicode (indexes.map objects.readIndex) = some (after.readIndex packages) ∧
      MergeOf unicode (indexes.map objects.readIndex) (after.readIndex packages)) ∧
    ∀ a ∈ indexes.map objects.readIndex, ∀ b ∈ indexes.map objects.readIndex, ∀ c ∈ indexes.map objects.readIndex,
      ∃ ab bc abc, mergeIndexes unicode [a, b] = some ab ∧ mergeIndexes unicode [b, c] = some bc ∧
        mergeIndexes unicode [a, b, c] = some abc ∧ mergeIndexes unicode [ab, c] = some abc ∧ mergeIndexes unicode [a, bc] = some abc ∧
        mergeIndexes unicode [a, a] = mergeIndexes unicode [a] := by
  have given : ∀ index ∈ indexes.map objects.readIndex, index.WellFormed unicode := by
    intro index member
    obtain ⟨list, among, rfl⟩ := List.mem_map.mp member
    exact well list among
  obtain ⟨values, keeps⟩ := Objects.mergeIndexes_reads unicode objects indexes inside
  have merged := mergeIndexes_collected given
  rw [merged] at values
  obtain ⟨⟨after, packages⟩, done, same⟩ := Option.map_eq_some_iff.mp values
  have read : mergeIndexes unicode (indexes.map objects.readIndex) = some (after.readIndex packages) := by
    rw [merged]
    exact congrArg some same.symm
  refine ⟨⟨after, packages, done, keeps _ done, read, mergeOf given read⟩, ?_⟩
  intro a first b second c third
  have well_all : ∀ list : List Index, (∀ index ∈ list, index = a ∨ index = b ∨ index = c) → ∀ index ∈ list, index.WellFormed unicode := by
    intro list sub index member
    rcases sub index member with rfl | rfl | rfl
    · exact given _ first
    · exact given _ second
    · exact given _ third
  have ab := mergeIndexes_collected (well_all [a, b] (by simp))
  have bc := mergeIndexes_collected (well_all [b, c] (by simp))
  have abc := mergeIndexes_collected (well_all [a, b, c] (by simp))
  have left := merge_nested [] [a, b] [c] (well_all _ (by simp)) ab
  have right := merge_nested [a] [b, c] [] (well_all _ (by simp)) bc
  refine ⟨_, _, _, ab, bc, abc, left.trans abc, ?_, merge_twice (well_all [a] (by simp))⟩
  exact right.trans abc

def asciiUnicode : Unicode where
  decimal c := if c.isDigit then some (c.toNat - 48) else none
  isdigit := Char.isDigit
  isspace c := c = ' '
  ascii c digit := if_pos digit
  slash := by decide

def releaseObjects : Objects :=
  ⟨[[⟨text "K210", text "1.2.0", none, text "a", []⟩], [⟨text "K210", text "1.10.0", none, text "b", []⟩, ⟨text "K210", text "1.2.0", none, text "c", []⟩]],
    [[⟨text "kflash", text "1", []⟩]]⟩

def releaseLists : List (List PackageObject) := [[⟨text "Kendryte", [], 0, 0⟩], [⟨text "Kendryte", [], 1, 0⟩]]

theorem merge_laws_releases : (∃ after packages, releaseObjects.mergeIndexes asciiUnicode releaseLists = some (after, packages) ∧
    releaseObjects.Keeps after ∧
    mergeIndexes asciiUnicode (releaseLists.map releaseObjects.readIndex) = some (after.readIndex packages) ∧
    MergeOf asciiUnicode (releaseLists.map releaseObjects.readIndex) (after.readIndex packages)) := by
  refine (merge_laws releaseObjects releaseLists ?_ ?_).1
  · unfold Objects.Inside
    decide
  · intro index member
    constructor
    · have plain : ∀ index ∈ releaseLists, ∀ package ∈ (releaseObjects.readIndex index).packages,
          (package.platforms.map Platform.key).Nodup ∧ (package.tools.map Tool.key).Nodup := by decide
      intro package among
      exact ⟨(plain index member package among).1, (plain index member package among).2⟩
    · revert index
      decide

end Laws

end ArduinoK210.Publish
