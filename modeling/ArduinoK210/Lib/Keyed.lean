import Mathlib.Data.List.Induction
import Mathlib.Data.List.Sort

/-! Lists whose items have a key of which the first occurrence counts, and sorting that
leaves items of one rank in the order they came in. -/

namespace Keyed

universe u v

variable {α : Type u} {κ : Type v} [DecidableEq κ] (key : α → κ)

/-- The items of `incoming` whose key is new, each at the end of the list. -/
def extend (items incoming : List α) : List α :=
  incoming.foldl (fun items item => if items.any fun other => key other = key item then items else items ++ [item]) items

def find (wanted : κ) (items : List α) : Option α := items.find? fun item => key item = wanted

variable {key} {items incoming : List α} {item : α} {wanted : κ}

theorem find_some (found : find key wanted items = some item) : item ∈ items ∧ key item = wanted := by
  refine ⟨List.mem_of_find?_eq_some found, ?_⟩
  simpa using List.find?_some found

theorem find_none : find key wanted items = none ↔ ∀ item ∈ items, key item ≠ wanted := by
  simp [find]

theorem find_isSome (key : α → κ) (member : item ∈ items) : (find key (key item) items).isSome = true := by
  cases found : find key (key item) items with
  | none => exact absurd rfl (find_none.mp found item member)
  | some other => rfl

theorem find_append (first second : List α) : find key wanted (first ++ second) = (find key wanted first).or (find key wanted second) :=
  List.find?_append

theorem find_nodup (nodup : (items.map key).Nodup) (member : item ∈ items) : find key (key item) items = some item := by
  induction items with
  | nil => cases member
  | cons head rest ih =>
    obtain ⟨fresh, nodup⟩ := List.nodup_cons.mp nodup
    rcases List.mem_cons.mp member with rfl | later
    · exact List.find?_cons_of_pos (by simp)
    · have apart : key head ≠ key item := by
        intro same
        exact fresh (same ▸ List.mem_map_of_mem later)
      exact (List.find?_cons_of_neg (by simpa using apart)).trans (ih nodup later)

theorem extend_cons (items : List α) (item : α) (incoming : List α) :
    extend key items (item :: incoming) =
      extend key (if items.any fun other => key other = key item then items else items ++ [item]) incoming := rfl

theorem mem_extend (member : item ∈ extend key items incoming) : item ∈ items ∨ item ∈ incoming := by
  induction incoming generalizing items with
  | nil => exact .inl member
  | cons head incoming ih =>
    rw [extend_cons] at member
    rcases ih member with early | late
    · split at early
      · exact .inl early
      · rcases List.mem_append.mp early with old | new
        · exact .inl old
        · cases List.mem_singleton.mp new
          exact .inr List.mem_cons_self
    · exact .inr (List.mem_cons_of_mem head late)

/-- What is found in the extended list is found in the first list that has it. -/
theorem find_extend : find key wanted (extend key items incoming) = (find key wanted items).or (find key wanted incoming) := by
  induction incoming generalizing items with
  | nil => simp [extend, find]
  | cons head incoming ih =>
    rw [extend_cons, ih]
    have split_head : find key wanted (head :: incoming) = (if key head = wanted then some head else find key wanted incoming) := by
      unfold find
      split
      · next same => exact List.find?_cons_of_pos (by simpa using same)
      · next other => exact List.find?_cons_of_neg (by simpa using other)
    rw [split_head]
    split
    · next present =>
      by_cases same : key head = wanted
      · obtain ⟨other, member, equal⟩ := List.any_eq_true.mp present
        have equal : key other = key head := by simpa using equal
        have there := find_isSome key member
        rw [equal, same] at there
        obtain ⟨found, seen⟩ := Option.isSome_iff_exists.mp there
        rw [seen, Option.some_or, Option.some_or]
      · rw [if_neg same]
    · next absent =>
      rw [find_append]
      by_cases same : key head = wanted
      · have nothing : find key wanted items = none := by
          apply find_none.mpr
          intro other member equal
          exact absent (List.any_eq_true.mpr ⟨other, member, by simpa using equal.trans same.symm⟩)
        rw [nothing, Option.none_or, if_pos same]
        simp [find, same]
      · simp [find, same]

theorem extend_nodup (nodup : (items.map key).Nodup) : ((extend key items incoming).map key).Nodup := by
  induction incoming generalizing items with
  | nil => exact nodup
  | cons head incoming ih =>
    rw [extend_cons]
    apply ih
    split
    · exact nodup
    · next absent =>
      rw [List.map_append, List.nodup_append]
      refine ⟨nodup, List.nodup_singleton _, ?_⟩
      intro one first other second same
      obtain ⟨item, member, rfl⟩ := List.mem_map.mp first
      cases List.mem_singleton.mp second
      exact absent (List.any_eq_true.mpr ⟨item, member, by simpa using same⟩)

theorem filter_extend {keep : α → Bool} (alike : ∀ one other, key one = key other → keep one = keep other) :
    (extend key items incoming).filter keep = extend key (items.filter keep) (incoming.filter keep) := by
  induction incoming generalizing items with
  | nil => rfl
  | cons head incoming ih =>
    rw [extend_cons, ih]
    by_cases kept : keep head = true
    · rw [List.filter_cons_of_pos kept, extend_cons]
      congr 1
      have same : ((items.filter keep).any fun other => key other = key head) = items.any fun other => key other = key head := by
        rw [Bool.eq_iff_iff, List.any_eq_true, List.any_eq_true]
        constructor
        · rintro ⟨other, member, equal⟩
          exact ⟨other, List.mem_of_mem_filter member, equal⟩
        · rintro ⟨other, member, equal⟩
          refine ⟨other, List.mem_filter.mpr ⟨member, ?_⟩, equal⟩
          rw [alike other head (of_decide_eq_true equal)]
          exact kept
      rw [same]
      split
      · rfl
      · rw [List.filter_append, List.filter_cons_of_pos kept]
        rfl
    · rw [List.filter_cons_of_neg kept]
      congr 1
      split
      · rfl
      · rw [List.filter_append, List.filter_cons_of_neg kept, List.filter_nil, List.append_nil]

variable (key) in
/-- Every key once, each with its first item, in the order of appearance. -/
def distinct (items : List α) : List α := extend key [] items

theorem distinct_nodup (items : List α) : ((distinct key items).map key).Nodup := extend_nodup List.nodup_nil

theorem find_distinct (items : List α) : find key wanted (distinct key items) = find key wanted items := by
  rw [distinct, find_extend]
  exact Option.none_or

theorem distinct_append (first second : List α) : distinct key (first ++ second) = extend key (distinct key first) second :=
  List.foldl_append

theorem extend_absent (items : List α) (absent : ∀ item ∈ incoming, key item ∉ items.map key) (nodup : (incoming.map key).Nodup) :
    extend key items incoming = items ++ incoming := by
  induction incoming generalizing items with
  | nil => exact (List.append_nil items).symm
  | cons head incoming ih =>
    obtain ⟨fresh, nodup⟩ := List.nodup_cons.mp nodup
    have new : (items.any fun other => key other = key head) = false := by
      rw [List.any_eq_false]
      intro other member
      simpa using fun same => absent head List.mem_cons_self (List.mem_map.mpr ⟨other, member, same⟩)
    rw [extend_cons, new, if_neg Bool.false_ne_true, ih, List.append_assoc]
    · rfl
    · intro item member among
      rw [List.map_append] at among
      rcases List.mem_append.mp among with old | head_key
      · exact absent item (List.mem_cons_of_mem head member) old
      · rw [List.map_singleton, List.mem_singleton] at head_key
        exact fresh (head_key ▸ List.mem_map_of_mem member)
    · exact nodup

theorem distinct_eq (nodup : (items.map key).Nodup) : distinct key items = items := by
  have none_old : ∀ item ∈ items, key item ∉ ([] : List α).map key := by
    intro item _
    exact List.not_mem_nil
  exact extend_absent [] none_old nodup

theorem distinct_distinct (items : List α) : distinct key (distinct key items) = distinct key items :=
  distinct_eq (distinct_nodup items)

/-- The items that are added are those of the distinct ones whose key is not there yet. -/
theorem extend_eq (items incoming : List α) :
    extend key items incoming = items ++ (distinct key incoming).filter fun item => key item ∉ items.map key := by
  induction incoming using List.reverseRecOn with
  | nil => exact (List.append_nil items).symm
  | append_singleton incoming last ih =>
    have step : ∀ start : List α, extend key start (incoming ++ [last]) =
        if (extend key start incoming).any fun other => key other = key last then extend key start incoming
        else extend key start incoming ++ [last] := fun start => List.foldl_append
    have known : ((extend key items incoming).any fun other => key other = key last) = true ↔
        key last ∈ items.map key ∨ ((distinct key incoming).any fun other => key other = key last) = true := by
      rw [ih, List.any_append, Bool.or_eq_true]
      constructor
      · rintro (old | new)
        · exact .inl (by simpa using old)
        · obtain ⟨other, member, same⟩ := List.any_eq_true.mp new
          exact .inr (List.any_eq_true.mpr ⟨other, List.mem_of_mem_filter member, same⟩)
      · rintro (old | new)
        · exact .inl (by simpa using old)
        · by_cases old : key last ∈ items.map key
          · exact .inl (by simpa using old)
          · obtain ⟨other, member, same⟩ := List.any_eq_true.mp new
            have equal : key other = key last := by simpa using same
            refine .inr (List.any_eq_true.mpr ⟨other, List.mem_filter.mpr ⟨member, ?_⟩, same⟩)
            rw [equal]
            exact decide_eq_true old
    rw [step, distinct, step, ← distinct]
    by_cases seen : ((distinct key incoming).any fun other => key other = key last) = true
    · rw [if_pos (known.mpr (.inr seen)), if_pos seen, ih]
    · rw [if_neg seen, List.filter_append]
      by_cases old : key last ∈ items.map key
      · rw [if_pos (known.mpr (.inl old)), ih, List.filter_singleton, decide_eq_false (not_not.mpr old)]
        simp
      · rw [if_neg fun all => (known.mp all).elim old seen, ih, List.filter_singleton, decide_eq_true old, List.append_assoc]
        rfl

theorem extend_distinct (items incoming : List α) : extend key items (distinct key incoming) = extend key items incoming := by
  rw [extend_eq, extend_eq, distinct_distinct]

theorem extend_append (items first second : List α) : extend key items (first ++ second) = extend key (extend key items first) second :=
  List.foldl_append

theorem extend_covered (covered : ∀ item ∈ incoming, key item ∈ items.map key) : extend key items incoming = items := by
  have none_new : ((distinct key incoming).filter fun item => key item ∉ items.map key) = [] := by
    apply List.filter_eq_nil_iff.mpr
    intro item member
    have inside := (mem_extend member).resolve_left List.not_mem_nil
    simpa using List.mem_map.mp (covered item inside)
  rw [extend_eq, none_new, List.append_nil]

theorem extend_keeps (incoming : List α) (member : item ∈ items) : item ∈ extend key items incoming := by
  rw [extend_eq]
  exact List.mem_append_left _ member

theorem extend_added (key : α → κ) (items incoming : List α) :
    ∃ added, extend key items incoming = items ++ added ∧ ∀ item ∈ added, item ∈ incoming ∧ key item ∉ items.map key := by
  refine ⟨_, extend_eq items incoming, fun item member => ?_⟩
  obtain ⟨inside, absent⟩ := List.mem_filter.mp member
  exact ⟨(mem_extend inside).resolve_left List.not_mem_nil, of_decide_eq_true absent⟩

theorem extend_covers (items : List α) (member : item ∈ incoming) : key item ∈ (extend key items incoming).map key := by
  have there := find_isSome key member
  have whole : (find key (key item) (extend key items incoming)).isSome = true := by
    rw [find_extend, Option.isSome_or, there, Bool.or_true]
  obtain ⟨first, found⟩ := Option.isSome_iff_exists.mp whole
  obtain ⟨inside, same⟩ := find_some found
  exact List.mem_map.mpr ⟨first, inside, same⟩

theorem extend_again (items incoming : List α) : extend key items (extend key items incoming) = extend key items incoming := by
  have nodup : (((distinct key incoming).filter fun item => key item ∉ items.map key).map key).Nodup :=
    (List.Sublist.map key List.filter_sublist).nodup (distinct_nodup incoming)
  rw [extend_eq items incoming, extend_append, extend_covered fun item member => List.mem_map_of_mem member, extend_absent items _ nodup]
  intro item member
  simpa using (List.mem_filter.mp member).2

theorem mem_distinct_key (items : List α) (item : α) (member : item ∈ items) : key item ∈ (distinct key items).map key := by
  have there := find_isSome key member
  rw [← find_distinct] at there
  obtain ⟨first, found⟩ := Option.isSome_iff_exists.mp there
  obtain ⟨inside, same⟩ := find_some found
  exact List.mem_map.mpr ⟨first, inside, same⟩

end Keyed

namespace Stable

universe u

variable {α : Type u} {rel : α → α → Prop} [DecidableRel rel] {keep : α → Bool}

/-- Items that no sorting tells apart keep their order. -/
theorem filter_orderedInsert (alike : ∀ a b, keep a = true → keep b = true → rel a b) (a : α) (l : List α) :
    (l.orderedInsert rel a).filter keep = (a :: l).filter keep := by
  induction l with
  | nil => rfl
  | cons b l ih =>
    rw [List.orderedInsert_cons]
    split
    · rfl
    · next after =>
      rw [List.filter_cons, ih]
      by_cases kept : keep a = true
      · have away : keep b = false := by
          by_contra other
          exact after (alike a b kept (by simpa using other))
        simp [kept, away]
      · rw [List.filter_cons_of_neg kept, List.filter_cons_of_neg kept, List.filter_cons]

theorem filter_insertionSort (alike : ∀ a b, keep a = true → keep b = true → rel a b) (l : List α) :
    (l.insertionSort rel).filter keep = l.filter keep := by
  induction l with
  | nil => rfl
  | cons a l ih =>
    rw [List.insertionSort_cons, filter_orderedInsert alike, List.filter_cons, List.filter_cons, ih]

theorem find_insertionSort (alike : ∀ a b, keep a = true → keep b = true → rel a b) (l : List α) :
    (l.insertionSort rel).find? keep = l.find? keep := by
  rw [← List.head?_filter, ← List.head?_filter, filter_insertionSort alike]

/-- Two sorted lists with the same items of every rank, in the same order, are the same. -/
theorem eq_of_filter {first second : List α} (total : ∀ a, rel a a) (one : first.Pairwise rel) (other : second.Pairwise rel)
    (same : ∀ a, first.filter (fun b => rel a b ∧ rel b a) = second.filter (fun b => rel a b ∧ rel b a)) : first = second := by
  have lead : ∀ (a b : α) (rest : List α), rel a b → rel b a →
      (b :: rest).filter (fun c => rel a c ∧ rel c a) = b :: rest.filter fun c => rel a c ∧ rel c a :=
    fun a b rest forth back => List.filter_cons_of_pos (by simp [forth, back])
  induction first generalizing second with
  | nil =>
    cases second with
    | nil => rfl
    | cons b second =>
      have empty := same b
      rw [lead b b second (total b) (total b)] at empty
      cases empty
  | cons a first ih =>
    have front : ∃ b rest, second = b :: rest ∧ rel a b ∧ rel b a := by
      have kept := same a
      rw [lead a a first (total a) (total a)] at kept
      have inside : a ∈ second.filter fun b => rel a b ∧ rel b a := kept ▸ List.mem_cons_self
      cases second with
      | nil => cases inside
      | cons b second =>
        refine ⟨b, second, rfl, ?_⟩
        have back := same b
        rw [lead b b second (total b) (total b)] at back
        have within : b ∈ (a :: first).filter fun c => rel b c ∧ rel c b := back ▸ List.mem_cons_self
        have among := List.mem_of_mem_filter inside
        constructor
        · rcases List.mem_cons.mp (List.mem_of_mem_filter within) with rfl | later
          · exact total b
          · exact List.rel_of_pairwise_cons one later
        · rcases List.mem_cons.mp among with rfl | later
          · exact total a
          · exact List.rel_of_pairwise_cons other later
    obtain ⟨b, rest, rfl, forth, back⟩ := front
    have heads := same a
    rw [lead a a first (total a) (total a), lead a b rest forth back] at heads
    cases (List.cons.inj heads).1
    congr 1
    apply ih (List.pairwise_cons.mp one).2 (List.pairwise_cons.mp other).2
    intro c
    have whole := same c
    rw [List.filter_cons, List.filter_cons] at whole
    split at whole
    · exact (List.cons.inj whole).2
    · exact whole

section Total
variable [Std.Total rel] [IsTrans α rel]

/-- What is left out makes no difference to the order of the rest. -/
theorem filter_sort (l : List α) : (l.insertionSort rel).filter keep = (l.filter keep).insertionSort rel := by
  have alike : ∀ a b c, decide (rel a b ∧ rel b a) = true → decide (rel a c ∧ rel c a) = true → rel b c := by
    intro a b c first second
    exact IsTrans.trans b a c (of_decide_eq_true first).2 (of_decide_eq_true second).1
  have refl : ∀ a, rel a a := fun a => (Std.Total.total a a).elim id id
  apply eq_of_filter refl
  · exact (List.pairwise_insertionSort rel l).filter _
  · exact List.pairwise_insertionSort rel _
  · intro a
    rw [filter_insertionSort (alike a), List.filter_filter, List.filter_filter]
    have swap : ∀ list : List α, (list.filter fun b => decide (rel a b ∧ rel b a) && keep b) =
        (list.filter fun b => decide (rel a b ∧ rel b a)).filter keep := by
      intro list
      rw [List.filter_filter]
      congr 1
      funext b
      rw [Bool.and_comm]
    rw [swap, swap, filter_insertionSort (alike a)]

theorem sort_again (l : List α) : (l.insertionSort rel).insertionSort rel = l.insertionSort rel :=
  (List.pairwise_insertionSort rel l).insertionSort_eq

/-- The first item, taken out of the sorted list and put before it, is sorted back to its place. -/
theorem sort_extend {κ : Type u} [DecidableEq κ] {key : α → κ} {first : α} {rest : List α} (nodup : ((first :: rest).map key).Nodup)
    (kept : keep first = true) :
    (Keyed.extend key [first] (((first :: rest).insertionSort rel).filter keep)).insertionSort rel =
      ((first :: rest).insertionSort rel).filter keep := by
  obtain ⟨fresh, nodup'⟩ := List.nodup_cons.mp nodup
  have whole : ((first :: rest).insertionSort rel).filter keep = (first :: rest.filter keep).insertionSort rel := by
    rw [filter_sort, List.filter_cons_of_pos kept]
  have alone : (((first :: rest.filter keep).insertionSort rel).map key).Nodup := by
    rw [((List.perm_insertionSort rel _).map key).nodup_iff]
    exact (List.Sublist.map key (List.Sublist.cons_cons first List.filter_sublist)).nodup nodup
  have others : (first :: rest.filter keep).filter (fun item => decide (key item ∉ [first].map key)) = rest.filter keep := by
    rw [List.filter_cons_of_neg (by simp), List.filter_eq_self]
    intro item member
    have inside := List.mem_of_mem_filter member
    simpa using fun same => fresh (List.mem_map.mpr ⟨item, inside, same⟩)
  rw [whole, Keyed.extend_eq, Keyed.distinct_eq alone, filter_sort, others, List.singleton_append, List.insertionSort_cons, sort_again,
    List.insertionSort_cons]

end Total

end Stable
