import ArduinoK210.Vfs.Table
import Mathlib.Algebra.Order.Ring.Int
import Mathlib.Tactic.SplitIfs

/-! The file system that a path is for: the one with the longest prefix that ends where a component of the path ends. Of two that
are registered for one prefix the first is taken, but of two for the empty prefix the second one, if the path is absolute. -/

namespace ArduinoK210.Vfs

variable {C W O : Type}

def matchStep (path : Path) (best : Option (VfsEntry C W O) × Int) (vfs : VfsEntry C W O) : Option (VfsEntry C W O) × Int :=
  if vfs.pathPrefixLen = lenPathPrefixIgnored then best
  else if path.length < vfs.pathPrefixLen ∨ path.take vfs.pathPrefixLen ≠ vfs.pathPrefix.take vfs.pathPrefixLen then best
  -- the default file system does not set the length
  else if vfs.pathPrefixLen = 0 ∧ best.1 = none then (some vfs, best.2)
  else if vfs.pathPrefixLen < path.length ∧ path[vfs.pathPrefixLen]? ≠ some slash then best
  else if best.2 < vfs.pathPrefixLen then (some vfs, vfs.pathPrefixLen)
  else best

def Registry.entries (registry : Registry C W O) : List (VfsEntry C W O) :=
  (List.range registry.sVfsCount).filterMap registry.sVfs

def Registry.getVfsForPath (path : Path) (registry : Registry C W O) : Option (VfsEntry C W O) :=
  (registry.entries.foldl (matchStep path) (none, -1)).1

def VfsEntry.translatePath (vfs : VfsEntry C W O) (path : Path) : Path :=
  if path.length = vfs.pathPrefixLen then [slash] else path.drop vfs.pathPrefixLen

/-- The prefix is one of the path, and ends with a component. -/
def VfsEntry.serves (path : Path) (vfs : VfsEntry C W O) : Bool :=
  vfs.pathPrefixLen != lenPathPrefixIgnored && vfs.pathPrefixLen ≤ path.length &&
    path.take vfs.pathPrefixLen == vfs.pathPrefix.take vfs.pathPrefixLen &&
    (vfs.pathPrefixLen == 0 || path.length == vfs.pathPrefixLen || path[vfs.pathPrefixLen]? == some slash)

def longest (path : Path) (entries : List (VfsEntry C W O)) : Int :=
  (entries.filter (VfsEntry.serves path)).foldl (fun best vfs => max best vfs.pathPrefixLen) (-1)

/-- The entries that have the longest prefix, in the order of the table. -/
def candidates (path : Path) (entries : List (VfsEntry C W O)) : List (VfsEntry C W O) :=
  (entries.filter (VfsEntry.serves path)).filter fun vfs => vfs.pathPrefixLen == longest path entries

/-- An empty path counts as absolute, as the loop does not look for a separator in it. -/
def absolute (path : Path) : Bool :=
  path.isEmpty || path[0]? == some slash

/-- Which of the entries with the longest prefix is taken. -/
def chosen (path : Path) (entries : List (VfsEntry C W O)) : Option (VfsEntry C W O) :=
  if longest path entries = 0 ∧ absolute path then (candidates path entries)[1]?.or (candidates path entries)[0]?
  else (candidates path entries)[0]?

/-- The length that the loop remembers. It stays at −1 with a default file system that was found first. -/
def remembered (path : Path) (entries : List (VfsEntry C W O)) : Int :=
  if longest path entries = 0 ∧ ¬(absolute path ∧ 2 ≤ (candidates path entries).length) then -1 else longest path entries

private theorem longest_ge (path : Path) (entries : List (VfsEntry C W O)) : -1 ≤ longest path entries := by
  have grows : ∀ (list : List (VfsEntry C W O)) (start : Int),
      start ≤ list.foldl (fun best vfs => max best vfs.pathPrefixLen) start := by
    intro list
    induction list with
    | nil => exact fun start => le_refl start
    | cons vfs list ih => exact fun start => (le_max_left _ _).trans (ih _)
  exact grows _ _

private theorem longest_snoc (path : Path) (entries : List (VfsEntry C W O)) (vfs : VfsEntry C W O) :
    longest path (entries ++ [vfs]) =
      if vfs.serves path then max (longest path entries) vfs.pathPrefixLen else longest path entries := by
  unfold longest
  by_cases serves : vfs.serves path <;> simp [serves, List.filter_append]

theorem le_longest {path : Path} {entries : List (VfsEntry C W O)} {vfs : VfsEntry C W O} (member : vfs ∈ entries)
    (serves : vfs.serves path = true) : (vfs.pathPrefixLen : Int) ≤ longest path entries := by
  induction entries using List.reverseRecOn with
  | nil => simp at member
  | append_singleton entries last ih =>
    rw [longest_snoc]
    obtain inside | same := List.mem_append.mp member
    · split
      · exact (ih inside).trans (le_max_left _ _)
      · exact ih inside
    · obtain rfl := List.mem_singleton.mp same
      rw [if_pos serves]
      exact le_max_right _ _

private theorem candidates_snoc (path : Path) (entries : List (VfsEntry C W O)) (vfs : VfsEntry C W O) :
    candidates path (entries ++ [vfs]) =
      if vfs.serves path then
        if longest path entries < vfs.pathPrefixLen then [vfs]
        else if longest path entries = vfs.pathPrefixLen then candidates path entries ++ [vfs] else candidates path entries
      else candidates path entries := by
  by_cases serves : vfs.serves path
  · rw [if_pos serves]
    unfold candidates
    rw [longest_snoc, if_pos serves, List.filter_append, List.filter_append]
    split_ifs with longer same
    · have none_left : (entries.filter (VfsEntry.serves path)).filter
          (fun entry => (entry.pathPrefixLen : Int) == max (longest path entries) vfs.pathPrefixLen) = [] := by
        apply List.filter_eq_nil_iff.mpr
        intro entry member
        obtain ⟨inside, good⟩ := List.mem_filter.mp member
        have bound := le_longest inside good
        simp only [beq_iff_eq]
        omega
      rw [none_left, max_eq_right longer.le]
      simp [serves]
    · rw [same, max_self]
      simp [serves]
    · rw [max_eq_left (by omega)]
      have other : ¬((vfs.pathPrefixLen : Int) = longest path entries) := fun equal => same equal.symm
      simp [serves, other]
  · rw [if_neg serves]
    unfold candidates
    rw [longest_snoc, if_neg serves, List.filter_append]
    simp [serves]

theorem candidates_eq_nil_iff (path : Path) (entries : List (VfsEntry C W O)) :
    candidates path entries = [] ↔ longest path entries = -1 := by
  induction entries using List.reverseRecOn with
  | nil => simp [candidates, longest]
  | append_singleton entries vfs ih =>
    have bound := longest_ge path entries
    rw [candidates_snoc, longest_snoc]
    split_ifs with serves longer same
    · simp only [false_iff]
      omega
    · simp only [List.append_eq_nil_iff, List.cons_ne_nil, and_false, false_iff]
      omega
    · rw [max_eq_left (by omega)]
      exact ih
    · exact ih

theorem chosen_eq_none_iff (path : Path) (entries : List (VfsEntry C W O)) :
    chosen path entries = none ↔ longest path entries = -1 := by
  rw [← candidates_eq_nil_iff]
  unfold chosen
  split <;> cases candidates path entries <;> simp

private theorem matchStep_of_not_serves {path : Path} {vfs : VfsEntry C W O} (serves : vfs.serves path = false)
    (best : Option (VfsEntry C W O) × Int) : matchStep path best vfs = best := by
  unfold matchStep
  split_ifs with ignored differs first separated longer
  all_goals first | rfl | skip
  all_goals
    exfalso
    simp only [VfsEntry.serves, Bool.and_eq_false_iff, bne_eq_false_iff_eq, decide_eq_false_iff_not, beq_eq_false_iff_ne,
      Bool.or_eq_false_iff] at serves
    simp only [not_or, not_lt, not_not] at differs
  · obtain ((same | shorter) | other) | ⟨⟨nonempty, -⟩, -⟩ := serves
    · exact ignored same
    · exact shorter differs.1
    · exact other differs.2
    · exact nonempty first.1
  · obtain ((same | shorter) | other) | ⟨⟨-, inside⟩, away⟩ := serves
    · exact ignored same
    · exact shorter differs.1
    · exact other differs.2
    · exact separated ⟨by omega, away⟩

private theorem matchStep_of_serves {path : Path} {vfs : VfsEntry C W O} (serves : vfs.serves path = true)
    (best : Option (VfsEntry C W O) × Int) :
    matchStep path best vfs =
      if vfs.pathPrefixLen = 0 ∧ best.1 = none then (some vfs, best.2)
      else if vfs.pathPrefixLen = 0 ∧ absolute path = false then best
      else if best.2 < vfs.pathPrefixLen then (some vfs, vfs.pathPrefixLen)
      else best := by
  simp only [VfsEntry.serves, Bool.and_eq_true, bne_iff_ne, decide_eq_true_eq, beq_iff_eq, Bool.or_eq_true] at serves
  obtain ⟨⟨⟨ignored, inside⟩, same⟩, ends⟩ := serves
  unfold matchStep
  rw [if_neg ignored, if_neg (by simp only [not_or, not_lt, not_not]; exact ⟨inside, same⟩)]
  have separated : (vfs.pathPrefixLen < path.length ∧ path[vfs.pathPrefixLen]? ≠ some slash) ↔
      vfs.pathPrefixLen = 0 ∧ absolute path = false := by
    constructor
    · rintro ⟨longer, away⟩
      have zero : vfs.pathPrefixLen = 0 := by
        obtain (zero | whole) | slashed := ends
        · exact zero
        · omega
        · exact absurd slashed away
      refine ⟨zero, ?_⟩
      rw [zero] at longer away
      simp only [absolute, Bool.or_eq_false_iff, beq_eq_false_iff_ne]
      exact ⟨List.isEmpty_eq_false_iff.mpr (List.length_pos_iff.mp longer), away⟩
    · rintro ⟨zero, relative⟩
      simp only [absolute, Bool.or_eq_false_iff, beq_eq_false_iff_ne] at relative
      rw [zero]
      exact ⟨List.length_pos_iff.mpr (List.isEmpty_eq_false_iff.mp relative.1), relative.2⟩
  simp only [separated]

/-- What the loop has found after the first entries: by induction on them from the end. -/
theorem foldl_matchStep (path : Path) (entries : List (VfsEntry C W O)) :
    entries.foldl (matchStep path) (none, -1) = (chosen path entries, remembered path entries) := by
  induction entries using List.reverseRecOn with
  | nil => simp [chosen, remembered, candidates, longest]
  | append_singleton entries vfs ih =>
    rw [List.foldl_append, List.foldl_cons, List.foldl_nil, ih]
    by_cases serves : vfs.serves path
    · rw [matchStep_of_serves serves]
      have none_iff := chosen_eq_none_iff path entries
      have nil_iff := candidates_eq_nil_iff path entries
      have bound := longest_ge path entries
      have after := candidates_snoc path entries vfs
      have length := longest_snoc path entries vfs
      rw [if_pos serves] at after length
      obtain shorter | same | longer := lt_trichotomy (longest path entries) vfs.pathPrefixLen
      · rw [if_pos shorter] at after
        rw [max_eq_right shorter.le] at length
        have taken : chosen path (entries ++ [vfs]) = some vfs := by
          unfold chosen
          rw [after]
          split <;> rfl
        rw [taken]
        have small : remembered path entries ≤ longest path entries := by
          unfold remembered
          split <;> omega
        by_cases zero : vfs.pathPrefixLen = 0
        · have nothing : longest path entries = -1 := by omega
          rw [if_pos ⟨zero, none_iff.mpr nothing⟩]
          simp [remembered, after, length, nothing, zero]
        · rw [if_neg (fun both => zero both.1), if_neg (fun both => zero both.1), if_pos (by omega)]
          simp [remembered, length, zero]
      · rw [if_neg (by omega), if_pos same] at after
        rw [same, max_self] at length
        obtain ⟨first, rest, found⟩ : ∃ first rest, candidates path entries = first :: rest :=
          List.exists_cons_of_ne_nil fun nothing => by
            have := nil_iff.mp nothing
            omega
        rw [found] at after
        rw [if_neg (fun both => by have := none_iff.mp both.2; omega)]
        by_cases zero : vfs.pathPrefixLen = 0
        · rw [zero] at same length
          cases rooted : absolute path with
          | false =>
            rw [if_pos ⟨zero, rfl⟩]
            simp [chosen, remembered, after, length, same, found, rooted]
          | true =>
            rw [if_neg (by simp)]
            cases rest with
            | nil => simp [chosen, remembered, after, length, same, found, rooted, zero]
            | cons second others => simp [chosen, remembered, after, length, same, found, rooted, zero]
        · rw [if_neg (fun both => zero both.1)]
          simp [chosen, remembered, after, length, same, found, zero]
      · rw [if_neg (by omega), if_neg (by omega)] at after
        rw [max_eq_left longer.le] at length
        rw [if_neg (fun both => by have := none_iff.mp both.2; omega)]
        have kept : remembered path entries = longest path entries := by
          unfold remembered
          rw [if_neg (by omega)]
        rw [if_neg (show ¬ remembered path entries < vfs.pathPrefixLen by omega), ite_self]
        simp only [chosen, remembered, after, length]
    · rw [matchStep_of_not_serves (by simpa using serves)]
      have after := candidates_snoc path entries vfs
      have length := longest_snoc path entries vfs
      rw [if_neg serves] at after length
      simp only [chosen, remembered, after, length]

theorem Registry.getVfsForPath_eq (registry : Registry C W O) (path : Path) :
    registry.getVfsForPath path = chosen path registry.entries := by
  rw [getVfsForPath, foldl_matchStep]

theorem mem_candidates {path : Path} {entries : List (VfsEntry C W O)} {vfs : VfsEntry C W O} :
    vfs ∈ candidates path entries ↔
      vfs ∈ entries ∧ vfs.serves path = true ∧
        ∀ other ∈ entries, other.serves path = true → other.pathPrefixLen ≤ vfs.pathPrefixLen := by
  constructor
  · intro member
    obtain ⟨inside, same⟩ := List.mem_filter.mp member
    obtain ⟨inside, serves⟩ := List.mem_filter.mp inside
    refine ⟨inside, serves, fun other there good => ?_⟩
    have bound := le_longest there good
    rw [← beq_iff_eq.mp same] at bound
    exact Int.ofNat_le.mp bound
  · rintro ⟨inside, serves, greatest⟩
    refine List.mem_filter.mpr ⟨List.mem_filter.mpr ⟨inside, serves⟩, beq_iff_eq.mpr ?_⟩
    have lower := le_longest inside serves
    have some_left : candidates path entries ≠ [] := by
      intro nothing
      have := (candidates_eq_nil_iff path entries).mp nothing
      omega
    obtain ⟨best, there⟩ := List.exists_mem_of_ne_nil _ some_left
    obtain ⟨there, same⟩ := List.mem_filter.mp there
    obtain ⟨there, good⟩ := List.mem_filter.mp there
    have bound := greatest best there good
    have same := beq_iff_eq.mp same
    omega

/-- What is taken is one of the candidates, and something is taken if there is one. -/
theorem chosen_mem {path : Path} {entries : List (VfsEntry C W O)} {vfs : VfsEntry C W O}
    (taken : chosen path entries = some vfs) : vfs ∈ candidates path entries := by
  unfold chosen at taken
  split at taken
  · obtain second | ⟨-, first⟩ := Option.or_eq_some_iff.mp taken
    · exact List.mem_of_getElem? second
    · exact List.mem_of_getElem? first
  · exact List.mem_of_getElem? taken

/-- The path is in the tree of files at the prefix: it goes on with a separator, or it ends there. Everything is under the empty
prefix. -/
def Under (base path : Path) : Prop :=
  ∃ rest, path = base ++ rest ∧ (base = [] ∨ rest = [] ∨ rest[0]? = some slash)

/-- The entry is for paths, and not only for descriptors. -/
def VfsEntry.Mounted (vfs : VfsEntry C W O) : Prop := vfs.pathPrefixLen ≠ lenPathPrefixIgnored

theorem serves_iff {vfs : VfsEntry C W O} (formed : vfs.Formed) (path : Path) :
    vfs.serves path = true ↔ vfs.Mounted ∧ Under vfs.pathPrefix path := by
  simp only [VfsEntry.serves, Bool.and_eq_true, bne_iff_ne, decide_eq_true_eq, beq_iff_eq, Bool.or_eq_true]
  constructor
  · rintro ⟨⟨⟨mounted, inside⟩, same⟩, ends⟩
    refine ⟨mounted, path.drop vfs.pathPrefixLen, ?_, ?_⟩
    · have length := formed.length.resolve_left mounted
      have whole : vfs.pathPrefix.take vfs.pathPrefixLen = vfs.pathPrefix := List.take_of_length_le length.ge
      rw [whole] at same
      exact (List.take_append_drop vfs.pathPrefixLen path).symm.trans (by rw [same])
    · have length := formed.length.resolve_left mounted
      obtain (zero | whole) | slashed := ends
      · exact .inl (List.eq_nil_of_length_eq_zero (length.symm.trans zero))
      · exact .inr (.inl (List.drop_eq_nil_of_le whole.le))
      · exact .inr (.inr (by simpa using slashed))
  · rintro ⟨mounted, rest, rfl, ends⟩
    have length := formed.length.resolve_left mounted
    refine ⟨⟨⟨mounted, by simp [length]⟩, by simp [length]⟩, ?_⟩
    obtain empty | nothing | slashed := ends
    · exact .inl (.inl (by simp [length, empty]))
    · exact .inl (.inr (by simp [length, nothing]))
    · refine .inr ?_
      rw [length, List.getElem?_append_right (le_refl _), Nat.sub_self]
      exact slashed

/-- The file system gets an absolute path, which is the rest of the path behind the prefix. -/
theorem translatePath_of_under {vfs : VfsEntry C W O} (formed : vfs.Formed) (mounted : vfs.Mounted) {path : Path}
    (under : Under vfs.pathPrefix path) (rooted : path[0]? = some slash) :
    (vfs.translatePath path)[0]? = some slash ∧
      (path = vfs.pathPrefix ++ vfs.translatePath path ∨ path = vfs.pathPrefix ∧ vfs.translatePath path = [slash]) := by
  have length := formed.length.resolve_left mounted
  obtain ⟨rest, rfl, ends⟩ := under
  unfold VfsEntry.translatePath
  rw [length]
  cases rest with
  | nil => simp
  | cons head tail =>
    rw [if_neg (by simp), List.drop_left]
    refine ⟨?_, .inl rfl⟩
    obtain empty | nothing | slashed := ends
    · simpa [empty] using rooted
    · exact absurd nothing (by simp)
    · exact slashed

end ArduinoK210.Vfs
