import ArduinoK210.Lib.Borders
import ArduinoK210.Streams.Stream

/-! What `findMulti` finds: of several patterns the one that is complete first, and the first of those that are complete
at the same byte. -/

namespace ArduinoK210.Streams

open Nor (slice)
open Borders (Longest Candidate Border)

variable {memory : Nat → UInt8} {value : UInt8} {read : List UInt8}

/-- What the pointer of a pattern points to. -/
def items (memory : Nat → UInt8) (target : MultiTarget) : Nat → UInt8 := fun place => memory (target.str + place)

private theorem items_congr {target p : MultiTarget} (same : p.str = target.str) : items memory p = items memory target := by
  unfold items
  rw [same]

private theorem slice_items (target : MultiTarget) (place size : Nat) :
    slice (items memory target) place size = slice memory (target.str + place) size := by
  apply List.map_congr_left
  intro i _
  exact congrArg memory (Nat.add_assoc _ _ _).symm

/-- The pattern ends what was read. -/
def Occurs (memory : Nat → UInt8) (target : MultiTarget) (read : List UInt8) : Prop := slice memory target.str target.len <:+ read

private theorem occurs_iff (target : MultiTarget) : Occurs memory target read ↔ Borders.Tail (items memory target) target.len read := by
  rw [Borders.Tail, slice_items]
  rfl

/-- The comparison of the source is one of a front of the pattern with the end of what matched. -/
theorem memcmp_iff (p : MultiTarget) {more : Nat} (inside : more ≤ p.index) :
    slice memory p.str more = slice memory (p.str + p.index - more) more ↔
      slice (items memory p) 0 more = slice (items memory p) (p.index - more) more := by
  rw [slice_items, slice_items, Nat.add_zero, Nat.add_sub_assoc inside]

/-- The search downwards stops at the first front that ends the match. -/
theorem border_longest (p : MultiTarget) {longest : Nat} (inside : longest < p.index) :
    slice (items memory p) 0 (border memory p longest) =
        slice (items memory p) (p.index - border memory p longest) (border memory p longest) ∧
      ∀ more, border memory p longest < more → more ≤ longest →
        slice (items memory p) 0 more ≠ slice (items memory p) (p.index - more) more := by
  induction longest with
  | zero => exact ⟨rfl, fun more later most => absurd most (Nat.not_le.mpr later)⟩
  | succ shorter ih =>
    rw [border]
    split
    next differs =>
      obtain ⟨same, others⟩ := ih (by omega)
      refine ⟨same, fun more later most => ?_⟩
      rcases Nat.eq_or_lt_of_le most with rfl | less
      · exact mt (memcmp_iff p (by omega)).mpr differs
      · exact others more later (by omega)
    next same =>
      refine ⟨(memcmp_iff p (by omega)).mp (not_not.mp same), fun more later most => ?_⟩
      exact absurd most (Nat.not_le.mpr later)

private theorem border_spec (p : MultiTarget) (matched : p.index ≠ 0) : Border (items memory p) p.index (border memory p (p.index - 1)) := by
  have shorter := border_le memory p (p.index - 1)
  obtain ⟨same, others⟩ := @border_longest memory p (p.index - 1) (by omega)
  exact ⟨by omega, same, fun more later less => others more later (by omega)⟩

/-- `p` follows a pattern: how much of it ends what was read is in `index`. -/
structure Follows (memory : Nat → UInt8) (read : List UInt8) (target p : MultiTarget) : Prop where
  str : p.str = target.str
  len : p.len = target.len
  longest : Longest (items memory target) target.len read p.index

theorem retain_spec (target p : MultiTarget) (str : p.str = target.str) (len : p.len = target.len)
    (candidate : Candidate (items memory target) target.len read value p.index) :
    (retain memory value p).str = target.str ∧ (retain memory value p).len = target.len ∧
      Candidate (items memory target) target.len read value (retain memory value p).index ∧
      ((retain memory value p).index = 0 ∨ items memory target (retain memory value p).index = value) := by
  induction p using retain.induct memory value with
  | case1 p mismatch ih =>
    rw [retain, if_pos mismatch]
    have shorter := @border_spec memory p mismatch.1
    rw [items_congr str] at shorter
    have differs : items memory target p.index ≠ value := by
      rw [← items_congr str]
      exact mismatch.2
    exact ih str len (candidate.fall differs shorter)
  | case2 p stays =>
    rw [retain, if_neg stays]
    refine ⟨str, len, candidate, ?_⟩
    by_cases none : p.index = 0
    · exact .inl none
    · refine .inr ?_
      by_contra differs
      rw [← items_congr str] at differs
      exact stays ⟨none, differs⟩

/-- One byte more keeps the longest match. -/
theorem Follows.advance {target p : MultiTarget} (follows : Follows memory read target p) (below : p.index < p.len) (value : UInt8) :
    Follows memory (read ++ [value]) target (advance memory value p) := by
  have candidate := follows.longest.candidate (follows.len ▸ below) value
  obtain ⟨str, len, candidate, settled⟩ := retain_spec target p follows.str follows.len candidate
  unfold Streams.advance
  dsimp only
  by_cases goes : items memory target (retain memory value p).index = value
  · have same : memory ((retain memory value p).str + (retain memory value p).index) = value := by
      rw [str]
      exact goes
    rw [if_pos same]
    exact ⟨str, len, candidate.extend goes⟩
  · have other : ¬memory ((retain memory value p).str + (retain memory value p).index) = value := by
      rw [str]
      exact goes
    have none := settled.resolve_right goes
    rw [if_neg other]
    rw [none] at candidate goes
    have longest := candidate.drop goes
    rw [← none] at longest
    exact ⟨str, len, longest⟩

/-- A pattern that is followed and not yet complete. -/
structure Partway (memory : Nat → UInt8) (read : List UInt8) (target p : MultiTarget) : Prop extends Follows memory read target p where
  below : p.index < p.len

private theorem Follows.whole_iff {target p : MultiTarget} (follows : Follows memory read target p) : Occurs memory target read ↔ p.index = p.len := by
  rw [occurs_iff, follows.len]
  exact follows.longest.whole_iff

private theorem Partway.absent {target p : MultiTarget} (partway : Partway memory read target p) : ¬Occurs memory target read :=
  fun occurs => Nat.ne_of_lt partway.below (partway.toFollows.whole_iff.mp occurs)

private theorem occurs_nil_iff (target : MultiTarget) : Occurs memory target [] ↔ target.len = 0 := by
  rw [Occurs, List.suffix_nil, ← List.length_eq_zero_iff, Nor.slice_length]

/-- The first item of a list with a property. -/
structure FirstAt {α : Type} (holds : α → Prop) (list : List α) (place : Nat) : Prop where
  here : ∃ item, list[place]? = some item ∧ holds item
  lower : ∀ lower < place, ∀ item, list[lower]? = some item → ¬holds item

namespace FirstAt
variable {α : Type} {holds : α → Prop} {list : List α} {place : Nat} {item : α}

private theorem head (here : holds item) : FirstAt holds (item :: list) 0 :=
  ⟨⟨item, rfl, here⟩, fun lower inside => absurd inside (Nat.not_lt_zero lower)⟩

private theorem cons (other : ¬holds item) (first : FirstAt holds list place) : FirstAt holds (item :: list) (place + 1) := by
  refine ⟨first.here, fun lower inside found same => ?_⟩
  cases lower with
  | zero =>
    cases same
    exact other
  | succ lower => exact first.lower lower (Nat.lt_of_succ_lt_succ inside) found same

end FirstAt

/-- The first loop stops at the first empty pattern, or begins to follow all of them. -/
theorem start_spec {targets : List MultiTarget} (notNull : ∀ target ∈ targets, target.str ≠ 0) (place : Nat) :
    (∃ found, start place targets = .error ((place + found : Nat) : Int) ∧ FirstAt (Occurs memory · []) targets found) ∨
      ∃ patterns, start place targets = .ok patterns ∧ List.Forall₂ (Partway memory []) targets patterns := by
  induction targets generalizing place with
  | nil => exact .inr ⟨[], rfl, .nil⟩
  | cons target targets ih =>
    rw [start]
    by_cases empty : target.len = 0
    · exact .inl ⟨0, if_pos empty, .head ((occurs_nil_iff target).mpr empty)⟩
    · have absent : ¬Occurs memory target [] := mt (occurs_nil_iff target).mp empty
      rw [if_neg empty, if_neg (notNull target List.mem_cons_self)]
      rcases ih (fun other member => notNull other (List.mem_cons_of_mem _ member)) (place + 1) with
        ⟨found, answer, first⟩ | ⟨patterns, answer, all⟩
      · refine .inl ⟨found + 1, ?_, first.cons absent⟩
        rw [answer, Nat.add_assoc, Nat.add_comm 1]
        rfl
      · rw [answer]
        exact .inr ⟨_, rfl, .cons ⟨⟨rfl, rfl, Longest.start _⟩, Nat.pos_of_ne_zero empty⟩ all⟩

/-- A byte completes some pattern, and the first one is found, or all of them go on. -/
theorem advanceAll_spec {targets patterns : List MultiTarget} (all : List.Forall₂ (Partway memory read) targets patterns)
    (value : UInt8) (place : Nat) :
    (∃ found, advanceAll memory value place patterns = .error ((place + found : Nat) : Int) ∧
        FirstAt (Occurs memory · (read ++ [value])) targets found) ∨
      ∃ next, advanceAll memory value place patterns = .ok next ∧ List.Forall₂ (Partway memory (read ++ [value])) targets next := by
  induction all generalizing place with
  | nil => exact .inr ⟨[], rfl, .nil⟩
  | @cons target p targets patterns partway all ih =>
    have follows := partway.toFollows.advance partway.below value
    rw [advanceAll]
    by_cases complete : (advance memory value p).index = (advance memory value p).len
    · exact .inl ⟨0, if_pos complete, .head (follows.whole_iff.mpr complete)⟩
    · have absent := mt follows.whole_iff.mp complete
      have below : (advance memory value p).index < (advance memory value p).len :=
        Nat.lt_of_le_of_ne (follows.len ▸ follows.longest.most) complete
      rw [if_neg complete]
      rcases ih (place + 1) with ⟨found, answer, first⟩ | ⟨next, answer, more⟩
      · refine .inl ⟨found + 1, ?_, first.cons absent⟩
        rw [answer, Nat.add_assoc, Nat.add_comm 1]
        rfl
      · rw [answer]
        exact .inr ⟨_, rfl, .cons ⟨follows, below⟩ more⟩

private theorem Partway.none {targets patterns : List MultiTarget} (all : List.Forall₂ (Partway memory read) targets patterns) :
    ∀ target ∈ targets, ¬Occurs memory target read := by
  intro target member
  induction all with
  | nil => cases member
  | cons partway _ ih =>
    rcases List.mem_cons.mp member with rfl | member
    · exact partway.absent
    · exact ih member

/-- The loop over the stream ends behind the first byte that completes a pattern. -/
theorem search_spec {targets patterns : List MultiTarget} (all : List.Forall₂ (Partway memory read) targets patterns) (stream : Stream) :
    (∃ found count : Nat, search memory patterns stream = ((found : Int), stream.drop count) ∧ count ≤ stream.length ∧
        FirstAt (Occurs memory · (read ++ stream.take count)) targets found ∧
        ∀ less < count, ∀ target ∈ targets, ¬Occurs memory target (read ++ stream.take less)) ∨
      (search memory patterns stream = (-1, []) ∧ ∀ count, ∀ target ∈ targets, ¬Occurs memory target (read ++ stream.take count)) := by
  induction stream generalizing read patterns with
  | nil =>
    refine .inr ⟨by rw [search], fun count => ?_⟩
    rw [List.take_nil, List.append_nil]
    exact Partway.none all
  | cons value rest ih =>
    have now : ∀ target ∈ targets, ¬Occurs memory target (read ++ (value :: rest).take 0) := by
      rw [List.take_zero, List.append_nil]
      exact Partway.none all
    have later : ∀ count, read ++ (value :: rest).take (count + 1) = read ++ [value] ++ rest.take count := by
      intro count
      rw [List.take_succ_cons, List.append_assoc]
      rfl
    rw [search]
    rcases advanceAll_spec all value 0 with ⟨found, answer, first⟩ | ⟨next, answer, more⟩
    · rw [answer, Nat.zero_add]
      refine .inl ⟨found, 1, rfl, Nat.succ_le_succ (Nat.zero_le _), first, fun less inside => ?_⟩
      rw [Nat.lt_one_iff.mp inside]
      exact now
    · rw [answer]
      rcases ih more with ⟨found, count, loop, inside, first, before⟩ | ⟨loop, never⟩
      · refine .inl ⟨found, count + 1, loop, Nat.succ_le_succ inside, ?_, fun less early => ?_⟩
        · rw [later]
          exact first
        · cases less with
          | zero => exact now
          | succ less =>
            rw [later]
            exact before less (Nat.lt_of_succ_lt_succ early)
      · refine .inr ⟨loop, fun count => ?_⟩
        cases count with
        | zero => exact now
        | succ count =>
          rw [later]
          exact never count

section Specification
variable (memory : Nat → UInt8) (targets : List MultiTarget) (target : MultiTarget) (stream : Stream)

/-- An occurrence of the pattern in the stream ends behind its first `count` bytes. -/
def Ends (count : Nat) : Prop := count ≤ stream.length ∧ Occurs memory target (stream.take count)

/-- The first occurrence of the pattern in the stream ends behind its first `count` bytes. -/
structure FirstEnds (count : Nat) : Prop where
  ends : Ends memory target stream count
  first : ∀ other, Ends memory target stream other → count ≤ other

/-- The pattern at `place` ends first in the stream, and those at lower places end later. -/
structure Finds (place count : Nat) : Prop where
  target : ∃ target, targets[place]? = some target ∧ FirstEnds memory target stream count
  earliest : ∀ other ∈ targets, ∀ later, FirstEnds memory other stream later → count ≤ later
  lowest : ∀ lower < place, ∀ other, targets[lower]? = some other → ¬FirstEnds memory other stream count

end Specification

variable {targets : List MultiTarget} {target : MultiTarget} {stream : Stream}

private theorem FirstEnds.unique {count other : Nat} (one : FirstEnds memory target stream count) (two : FirstEnds memory target stream other) :
    count = other :=
  Nat.le_antisymm (one.first other two.ends) (two.first count one.ends)

/-- What the loop finds is what ends first. -/
theorem finds_of_first {place count : Nat} (inside : count ≤ stream.length) (first : FirstAt (Occurs memory · (stream.take count)) targets place)
    (before : ∀ less < count, ∀ target ∈ targets, ¬Occurs memory target (stream.take less)) : Finds memory targets stream place count := by
  have earliest : ∀ other ∈ targets, ∀ later, Ends memory other stream later → count ≤ later := by
    intro other member later ends
    by_contra early
    exact before later (Nat.not_le.mp early) other member ends.2
  obtain ⟨target, found, occurs⟩ := first.here
  refine ⟨⟨target, found, ⟨inside, occurs⟩, earliest target (List.mem_of_getElem? found)⟩, ?_, ?_⟩
  · intro other member later ends
    exact earliest other member later ends.ends
  · intro lower less other found ends
    exact first.lower lower less other found ends.ends.2

private theorem findMulti_spec (patterns : targets ≠ []) (notNull : ∀ target ∈ targets, target.str ≠ 0) (stream : Stream) :
    (∃ place count : Nat, Finds memory targets stream place count ∧ findMulti memory targets stream = ((place : Int), stream.drop count)) ∨
      ((∀ target ∈ targets, ∀ count, ¬Ends memory target stream count) ∧ findMulti memory targets stream = (-1, [])) := by
  rw [findMulti, if_neg (mt List.length_eq_zero_iff.mp patterns)]
  rcases @start_spec memory targets notNull 0 with ⟨found, answer, first⟩ | ⟨patterns, answer, all⟩
  · rw [answer, Nat.zero_add]
    refine .inl ⟨found, 0, finds_of_first (Nat.zero_le _) first ?_, rfl⟩
    exact fun less early => absurd early (Nat.not_lt_zero less)
  · rw [answer]
    rcases search_spec all stream with ⟨found, count, loop, inside, first, before⟩ | ⟨loop, never⟩
    · exact .inl ⟨found, count, finds_of_first inside first before, loop⟩
    · exact .inr ⟨fun target member count ends => never count target member ends.2, loop⟩

/-- A single pattern is found just when it occurs. -/
theorem findMulti_single (notNull : target.str ≠ 0) (stream : Stream) :
    (findMulti memory [target] stream).1 = 0 ↔ ∃ count, FirstEnds memory target stream count := by
  have all : ∀ other ∈ [target], other.str ≠ 0 := by
    intro other member
    rw [List.mem_singleton.mp member]
    exact notNull
  rcases @findMulti_spec memory _ (List.cons_ne_nil _ _) all stream with ⟨place, count, finds, answer⟩ | ⟨never, answer⟩
  · obtain ⟨found, here, first⟩ := finds.target
    rw [answer]
    cases place with
    | zero =>
      cases here
      exact ⟨fun _ => ⟨count, first⟩, fun _ => rfl⟩
    | succ place => cases here
  · rw [answer]
    constructor
    · intro impossible
      cases impossible
    · rintro ⟨count, first⟩
      exact absurd first.ends (never target List.mem_cons_self count)

/-- Of two patterns the first is found just when it ends, and the second does not end before. -/
theorem findMulti_pair {stop : MultiTarget} (notNull : target.str ≠ 0) (stopNotNull : stop.str ≠ 0) (stream : Stream) :
    (findMulti memory [target, stop] stream).1 = 0 ↔
      ∃ count, FirstEnds memory target stream count ∧ ∀ later, FirstEnds memory stop stream later → count ≤ later := by
  have all : ∀ other ∈ [target, stop], other.str ≠ 0 := by
    intro other member
    rcases List.mem_pair.mp member with rfl | rfl
    · exact notNull
    · exact stopNotNull
  have stopMember : stop ∈ [target, stop] := List.mem_cons_of_mem _ List.mem_cons_self
  rcases @findMulti_spec memory _ (List.cons_ne_nil _ _) all stream with ⟨place, count, finds, answer⟩ | ⟨never, answer⟩
  · obtain ⟨found, here, first⟩ := finds.target
    rw [answer]
    cases place with
    | zero =>
      cases here
      exact ⟨fun _ => ⟨count, first, finds.earliest stop stopMember⟩, fun _ => rfl⟩
    | succ place =>
      constructor
      · intro impossible
        exact absurd (Int.natCast_eq_zero.mp impossible) (Nat.succ_ne_zero place)
      · rintro ⟨other, targetFirst, before⟩
        -- the second pattern was found, so the first would have to end later, and it does not
        cases place with
        | zero =>
          cases here
          have same : other = count :=
            Nat.le_antisymm (before count first) (finds.earliest target List.mem_cons_self other targetFirst)
          exact absurd (same ▸ targetFirst) (finds.lowest 0 (Nat.succ_pos 0) target rfl)
        | succ place => cases here
  · rw [answer]
    constructor
    · intro impossible
      cases impossible
    · rintro ⟨count, first, -⟩
      exact absurd first.ends (never target List.mem_cons_self count)

/-- `findUntil` ends at its pattern, if no terminator of some length ends before. -/
theorem findUntil_iff (pattern count stop stopCount : Nat) (notNull : pattern ≠ 0) (stopGiven : stop = 0 → stopCount = 0) (stream : Stream) :
    (findUntil memory pattern count stop stopCount stream).1 = true ↔
      ∃ ends, FirstEnds memory ⟨pattern, count, 0⟩ stream ends ∧
        (stopCount ≠ 0 → ∀ later, FirstEnds memory ⟨stop, stopCount, 0⟩ stream later → ends ≤ later) := by
  have accepted : ¬(pattern = 0 ∨ (stop = 0 ∧ stopCount ≠ 0)) := by
    rintro (null | ⟨null, some_⟩)
    · exact notNull null
    · exact some_ (stopGiven null)
  unfold findUntil
  rw [if_neg accepted]
  dsimp only
  rw [beq_iff_eq]
  by_cases terminates : stopCount ≠ 0
  · have stopNotNull : stop ≠ 0 := mt stopGiven terminates
    rw [if_pos ⟨stopNotNull, terminates⟩]
    simp only [ne_eq, terminates, not_false_eq_true, forall_true_left]
    exact findMulti_pair notNull stopNotNull stream
  · rw [if_neg fun both => terminates both.2]
    simp only [terminates, false_imp_iff, and_true]
    exact findMulti_single notNull stream

/-- `find` is true just when its pattern occurs. -/
theorem find_iff (pattern count : Nat) (notNull : pattern ≠ 0) (stream : Stream) :
    (find memory pattern count stream).1 = true ↔ ∃ ends, FirstEnds memory ⟨pattern, count, 0⟩ stream ends := by
  rw [find, findUntil_iff pattern count 0 0 notNull (fun _ => rfl) stream]
  simp only [ne_eq, not_true_eq_false, false_imp_iff, and_true]

def CString.toTarget (text : CString memory) : MultiTarget := ⟨text.address, strlen text, 0⟩

private theorem findUntilText_iff (pattern : CString memory) (stop : Option (CString memory)) (stream : Stream) :
    (findUntilText (some pattern) stop stream).1 = true ↔
      ∃ ends, FirstEnds memory pattern.toTarget stream ends ∧
        ∀ text ∈ stop, strlen text ≠ 0 → ∀ later, FirstEnds memory text.toTarget stream later → ends ≤ later := by
  cases stop with
  | none =>
    have found := @findUntil_iff memory pattern.address (strlen pattern) 0 0 pattern.notNull (fun _ => rfl) stream
    simp only [ne_eq, not_true_eq_false, false_imp_iff, and_true] at found
    simp only [reduceCtorEq, Option.mem_def, false_imp_iff, implies_true, and_true]
    exact found
  | some text =>
    have found := @findUntil_iff memory pattern.address (strlen pattern) text.address (strlen text) pattern.notNull
      (fun null => absurd null text.notNull) stream
    simp only [Option.mem_some_iff, forall_eq']
    exact found

/-- The search for several patterns, and what `findUntil` makes of it. -/
theorem findMulti_finds (memory : Nat → UInt8) (stream : Stream) :
    (∀ targets : List MultiTarget, targets ≠ [] → (∀ target ∈ targets, target.str ≠ 0) →
      (∃ place count : Nat, Finds memory targets stream place count ∧
          findMulti memory targets stream = ((place : Int), stream.drop count)) ∨
        ((∀ target ∈ targets, ∀ count, ¬Ends memory target stream count) ∧ findMulti memory targets stream = (-1, []))) ∧
    findMulti memory [] stream = (-1, stream) ∧
    (∀ pattern count stop stopCount : Nat, pattern ≠ 0 → (stop = 0 → stopCount = 0) →
      ((findUntil memory pattern count stop stopCount stream).1 = true ↔
        ∃ ends, FirstEnds memory ⟨pattern, count, 0⟩ stream ends ∧
          (stopCount ≠ 0 → ∀ later, FirstEnds memory ⟨stop, stopCount, 0⟩ stream later → ends ≤ later))) ∧
    ∀ (pattern : CString memory) (stop : Option (CString memory)),
      ((findUntilText (some pattern) stop stream).1 = true ↔
        ∃ ends, FirstEnds memory pattern.toTarget stream ends ∧
          ∀ text ∈ stop, strlen text ≠ 0 → ∀ later, FirstEnds memory text.toTarget stream later → ends ≤ later) := by
  refine ⟨?_, rfl, ?_, ?_⟩
  · intro targets patterns notNull
    exact findMulti_spec patterns notNull stream
  · intro pattern count stop stopCount notNull stopGiven
    exact findUntil_iff pattern count stop stopCount notNull stopGiven stream
  · intro pattern stop
    exact findUntilText_iff pattern stop stream

def aab : Nat → UInt8 := fun place => if place = 3 then 98 else if place < 3 then 97 else 0

/-- `aab` or `ab` in `aaab`. -/
theorem findMulti_finds_aab :
    (∃ place count : Nat, Finds aab [⟨1, 3, 0⟩, ⟨2, 2, 0⟩] [97, 97, 97, 98] place count ∧
        findMulti aab [⟨1, 3, 0⟩, ⟨2, 2, 0⟩] [97, 97, 97, 98] = ((place : Int), ([97, 97, 97, 98] : Stream).drop count)) ∨
      ((∀ target ∈ ([⟨1, 3, 0⟩, ⟨2, 2, 0⟩] : List MultiTarget), ∀ count, ¬Ends aab target [97, 97, 97, 98] count) ∧
        findMulti aab [⟨1, 3, 0⟩, ⟨2, 2, 0⟩] [97, 97, 97, 98] = (-1, [])) := by
  apply (findMulti_finds aab [97, 97, 97, 98]).1
  · exact List.cons_ne_nil _ _
  · intro target member
    rcases List.mem_pair.mp member with rfl | rfl <;> decide

private theorem b_ends : FirstEnds aab ⟨3, 1, 0⟩ [98] 1 := by
  refine ⟨⟨Nat.le_refl 1, List.suffix_refl [98]⟩, fun other ends => ?_⟩
  cases other with
  | zero => exact absurd ((occurs_nil_iff _).mp ends.2) Nat.one_ne_zero
  | succ other => exact Nat.succ_le_succ (Nat.zero_le other)

/-- Nothing is read for no patterns, and an empty terminator does not end the search for `b`. -/
theorem empty_terminator_ignored :
    ((∀ target ∈ ([] : List MultiTarget), ∀ count, ¬Ends aab target [98] count) ∧ findMulti aab [] [98] ≠ (-1, [])) ∧
      ¬((findUntil aab 3 1 4 0 [98]).1 = true ↔
        ∃ ends, FirstEnds aab ⟨3, 1, 0⟩ [98] ends ∧ ∀ later, FirstEnds aab ⟨4, 0, 0⟩ [98] later → ends ≤ later) := by
  refine ⟨⟨nofun, nofun⟩, fun claimed => ?_⟩
  have found : (findUntil aab 3 1 4 0 [98]).1 = true := by
    apply (findUntil_iff 3 1 4 0 (by decide) (fun _ => rfl) [98]).mpr
    exact ⟨1, b_ends, fun some_ => absurd rfl some_⟩
  obtain ⟨ends, target, before⟩ := claimed.mp found
  have empty : FirstEnds aab ⟨4, 0, 0⟩ [98] 0 := by
    refine ⟨⟨Nat.zero_le _, (occurs_nil_iff _).mpr rfl⟩, fun _ _ => Nat.zero_le _⟩
  have least : ends = 1 := target.unique b_ends
  exact absurd (before 0 empty) (by omega)

end ArduinoK210.Streams
