import ArduinoK210.Lib.Nor

/-! Partial matches of a pattern at the end of what has been read, one item after another. The longest of them goes on
with the next item, or falls back to the longest that is left. -/

namespace Borders

open Nor (slice)

universe u

variable {α : Type u} (pattern : Nat → α)

/-- The first `count` items of the pattern end what was read. -/
def Tail (count : Nat) (read : List α) : Prop := slice pattern 0 count <:+ read

/-- The longest match of up to `limit` items. -/
structure Longest (limit : Nat) (read : List α) (index : Nat) : Prop where
  most : index ≤ limit
  tail : Tail pattern index read
  longest : ∀ more ≤ limit, Tail pattern more read → more ≤ index

/-- A match that may go on with `value`: the longer ones do not. -/
structure Candidate (limit : Nat) (read : List α) (value : α) (index : Nat) : Prop where
  below : index < limit
  tail : Tail pattern index read
  ruled : ∀ more < limit, index < more → Tail pattern more read → pattern more ≠ value

/-- The longest proper front of `index` items that ends them too. -/
structure Border (index next : Nat) : Prop where
  proper : next < index
  same : slice pattern 0 next = slice pattern (index - next) next
  longest : ∀ more, next < more → more < index → slice pattern 0 more ≠ slice pattern (index - more) more

variable {pattern} {limit index next count more : Nat} {read : List α} {value : α}

theorem tail_zero (read : List α) : Tail pattern 0 read := List.nil_suffix

theorem tail_length (tail : Tail pattern count read) : count ≤ read.length := by
  have short := List.IsSuffix.length_le tail
  rwa [Nor.slice_length] at short

theorem tail_concat_succ : Tail pattern (count + 1) (read ++ [value]) ↔ Tail pattern count read ∧ pattern count = value := by
  have grown : slice pattern 0 (count + 1) = slice pattern 0 count ++ [pattern count] := by
    rw [Memory.slice_add, Nat.zero_add]
    rfl
  unfold Tail
  rw [grown, List.suffix_concat_iff]
  constructor
  · rintro (none | ⟨front, same, suffix⟩)
    · exact absurd none (List.append_ne_nil_of_right_ne_nil _ (List.cons_ne_nil _ _))
    · obtain ⟨rfl, last⟩ := List.append_inj' same rfl
      exact ⟨suffix, List.head_eq_of_cons_eq last⟩
  · rintro ⟨suffix, rfl⟩
    exact .inr ⟨_, rfl, suffix⟩

theorem tail_within (tail : Tail pattern index read) (shorter : more ≤ index) :
    Tail pattern more read ↔ slice pattern 0 more = slice pattern (index - more) more := by
  have split : slice pattern 0 index = slice pattern 0 (index - more) ++ slice pattern (index - more) more := by
    have whole := Memory.slice_add pattern 0 (index - more) more
    rwa [Nat.sub_add_cancel shorter, Nat.zero_add] at whole
  constructor
  · intro inside
    have suffix : slice pattern 0 more <:+ slice pattern 0 index :=
      List.suffix_of_suffix_length_le inside tail (by rw [Nor.slice_length, Nor.slice_length]; exact shorter)
    obtain ⟨front, same⟩ := suffix
    rw [split] at same
    exact (List.append_inj' same (by rw [Nor.slice_length, Nor.slice_length])).2
  · intro same
    have suffix : slice pattern 0 more <:+ slice pattern 0 index := ⟨slice pattern 0 (index - more), by rw [split, same]⟩
    exact suffix.trans tail

theorem Longest.start (limit : Nat) : Longest pattern limit [] 0 :=
  ⟨Nat.zero_le _, tail_zero [], fun _ _ tail => tail_length tail⟩

theorem Longest.candidate (longest : Longest pattern limit read index) (below : index < limit) (value : α) :
    Candidate pattern limit read value index := by
  refine ⟨below, longest.tail, fun more inside later tail => ?_⟩
  exact absurd (longest.longest more (Nat.le_of_lt inside) tail) (Nat.not_le.mpr later)

/-- The whole pattern ends what was read just when its longest match is whole. -/
theorem Longest.whole_iff (longest : Longest pattern limit read index) : Tail pattern limit read ↔ index = limit := by
  constructor
  · intro tail
    exact Nat.le_antisymm longest.most (longest.longest limit (Nat.le_refl _) tail)
  · rintro rfl
    exact longest.tail

namespace Candidate

/-- On a mismatch the longest border takes the candidate's place. -/
theorem fall (candidate : Candidate pattern limit read value index) (differs : pattern index ≠ value) (border : Border pattern index next) :
    Candidate pattern limit read value next := by
  have proper := border.proper
  have below := candidate.below
  refine ⟨by omega, (tail_within candidate.tail (Nat.le_of_lt proper)).mpr border.same, ?_⟩
  intro more inside later tail
  rcases Nat.lt_trichotomy more index with shorter | rfl | longer
  · exact absurd ((tail_within candidate.tail (Nat.le_of_lt shorter)).mp tail) (border.longest more later shorter)
  · exact differs
  · exact candidate.ruled more inside longer tail

/-- Any match behind `value` goes on from one that is no longer than the candidate. -/
theorem bounds (candidate : Candidate pattern limit read value index) (most : more ≤ limit)
    (tail : Tail pattern more (read ++ [value])) : more ≤ index + 1 := by
  cases more with
  | zero => exact Nat.zero_le _
  | succ count =>
    obtain ⟨before, goes⟩ := tail_concat_succ.mp tail
    by_contra later
    exact candidate.ruled count (by omega) (by omega) before goes

theorem extend (candidate : Candidate pattern limit read value index) (goes : pattern index = value) :
    Longest pattern limit (read ++ [value]) (index + 1) :=
  ⟨candidate.below, tail_concat_succ.mpr ⟨candidate.tail, goes⟩, fun _ most tail => candidate.bounds most tail⟩

theorem drop (candidate : Candidate pattern limit read value 0) (differs : pattern 0 ≠ value) :
    Longest pattern limit (read ++ [value]) 0 := by
  refine ⟨Nat.zero_le _, tail_zero _, fun more most tail => ?_⟩
  have bound := candidate.bounds most tail
  by_contra positive
  have one : more = 0 + 1 := by omega
  subst one
  exact differs (tail_concat_succ.mp tail).2

end Candidate

end Borders
