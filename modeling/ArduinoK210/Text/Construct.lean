import ArduinoK210.Text.Program

/-! Constructors with a text, and what the rest of the program does. -/

namespace ArduinoK210.Text

open Nor (slice)

variable {lib : Library} {world next : World} {id other home : Nat}

section Construct

private theorem put_put (strings : Strings) (first second : Value) : (strings.put id first).put id second = strings.put id second := by
  rw [Strings.put, Strings.put, Function.update_idem, Strings.put]

/-- The new object can be assigned to, and the others are what they were. -/
structure Created (id home : Nat) (world : World) : Prop where
  sound : (create id home world).Sound
  strings : (create id home world).strings = world.strings.put id (some [])
  alive : ((create id home world).str id).alive = true
  others : ∀ j, world.Living j → j ≠ id ∧ ((create id home world).str j).alive = true ∧
    (create id home world).value j = world.value j
  kept : ∀ zone a, world.Holds zone a → (create id home world).Holds zone a ∧ (create id home world).mem a = world.mem a

private theorem World.Fresh.created (fresh : world.Fresh id home) (sound : world.Sound) : Created id home world := by
  have leaves : Leaves (world.strings.put id (some [])) (create id home world) := create_leaves sound fresh.2
  have apart {j : Nat} (living : (world.str j).alive = true) : j ≠ id := by
    rintro rfl
    rw [fresh.1] at living
    exact Bool.false_ne_true living
  refine ⟨leaves.1, leaves.2, by rw [create_str], fun j living => ⟨apart living, ?_⟩, fun zone a holds => ⟨?_, ?_⟩⟩
  · apply leaves.living
    rw [Strings.put, Function.update_of_ne (apart living), strings_alive living]
  · cases zone with
    | home j =>
      simp only [World.Holds, create_others (apart holds.1)]
      exact holds
    | heap j =>
      simp only [World.Holds, create_others (apart holds.1)]
      exact holds
    | foreign number => exact holds
  · apply create_kept
    by_contra inside
    exact fresh.2 zone a (by omega) (by omega) holds

/-- `assign` of a text that was there before the object. -/
theorem Created.assign (created : Created id home world) {text : Option Nat} {count : Nat} (bound : count ≤ uintMax)
    (readable : ∀ start, text = some start → (create id home world).Readable id start count) {value : Value}
    (same : text.map ((create id home world).text id · count) = value) :
    Leaves (world.strings.put id (Value.stored ((construct lib id home text count world).refused == world.refused) value))
      (construct lib id home text count world) := by
  have became : Became id _ _ (construct lib id home text count world) :=
    assign_became created.sound created.alive bound readable
  have leaves := became.leaves created.sound created.alive
  rw [created.strings, put_put, same] at leaves
  exact leaves

/-- A text that was there before the object is not in it. -/
theorem World.Fresh.text (fresh : world.Fresh id home) (sound : world.Sound) (start count : Nat)
    (readable : ∃ zone, ∀ a, start ≤ a → a < start + count → world.Holds zone a) :
    (create id home world).Readable id start count ∧ (create id home world).text id start count = slice world.mem start count := by
  have created := fresh.created sound
  obtain ⟨zone, holds⟩ := readable
  have clip : ((create id home world).str id).clip start count = count := by
    by_cases internal : ((create id home world).str id).internal start = true
    · have place := Str.internal_iff.mp internal
      rw [create_str] at place
      have nothing : count = 0 := by
        by_contra some_
        exact fresh.2 zone start place.1 (Nat.lt_of_le_of_lt place.2 (Nat.lt_add_of_pos_right (by decide)))
          (holds start (Nat.le_refl _) (by omega))
      have less := ((create id home world).str id).clip_le start count
      omega
    · rw [Str.clip, if_neg fun both => internal both.1]
  refine ⟨.inr ⟨zone, fun a low high => (created.kept zone a (holds a low high)).1⟩, ?_⟩
  rw [World.text, clip]
  exact Memory.slice_congr fun i inside => (created.kept zone _ (holds _ (Nat.le_add_right _ _) (by omega))).2

theorem construct_leaves (sound : world.Sound) (fresh : world.Fresh id home) {text : Option Nat} {count : Nat}
    (bound : count ≤ uintMax)
    (readable : ∀ start, text = some start → ∃ zone, ∀ a, start ≤ a → a < start + count → world.Holds zone a) :
    Leaves (world.strings.put id (Value.stored ((construct lib id home text count world).refused == world.refused)
      (text.map (slice world.mem · count)))) (construct lib id home text count world) := by
  apply (fresh.created sound).assign bound
  · exact fun start is => (fresh.text sound start count (readable start is)).1
  · cases text with
    | none => rfl
    | some start => exact congrArg some (fresh.text sound start count (readable start rfl)).2

theorem constructString_leaves (sound : world.Sound) (fresh : world.Fresh id home) (living : world.Living other) :
    Leaves (world.strings.put id (Value.stored ((constructString lib id home other world).refused == world.refused)
      (world.value other))) (constructString lib id home other world) := by
  have created := fresh.created sound
  obtain ⟨-, living', value⟩ := created.others other living
  obtain ⟨readable, text, -⟩ := created.sound.operand created.alive living'
  have bound : ((create id home world).str other).size ≤ uintMax :=
    Nat.le_of_lt (Nat.lt_of_le_of_lt (created.sound.fine other living').fits (created.sound.fine other living').small)
  exact created.assign bound readable (text.trans value)

theorem constructMove_leaves (sound : world.Sound) (fresh : world.Fresh id home) (living : world.Living other) :
    Leaves ((world.strings.put id (world.value other)).put other (some [])) (constructMove id home other world) := by
  have created := fresh.created sound
  obtain ⟨different, living', value⟩ := created.others other living
  have leaves := take_leaves created.sound created.alive living' different.symm (Shed.refl id (create id home world))
  rw [created.strings, put_put, value] at leaves
  exact leaves

/-- The part of a `String` that `substring` copies, which is none if it begins past the end. -/
theorem substring_text {text : List UInt8} {low high size : Nat} (length : text.length = size) :
    (text.take high).drop low = (text.drop low).take ((if size < high then size else high) - low) := by
  rw [List.drop_take]
  split
  next past => rw [List.take_of_length_le (by rw [List.length_drop]; omega), List.take_of_length_le (by rw [List.length_drop]; omega)]
  next => rfl

theorem substring_leaves (sound : world.Sound) {empty src first last : Nat} (fresh : world.Fresh id home) (living : world.Living src) :
    Leaves (world.strings.put id (Value.stored ((substring lib id home empty src first last world).refused == world.refused)
      (some ((world.value src).substring first last)))) (substring lib id home empty src first last world) := by
  have created := fresh.created sound
  have fine := sound.fine src living
  have fits := fine.fits
  have small := fine.small
  have length := content_length world src
  have low : (if last < first then last else first) = min first last := by
    split <;> omega
  have high : (if last < first then first else last) = max first last := by
    split <;> omega
  unfold substring Value.substring
  rw [low, high, fine.bytes, substring_text length]
  dsimp only
  by_cases past : (world.str src).size ≤ min first last
  · obtain ⟨readable, text⟩ := fresh.text sound empty 0
      ⟨.home id, fun a low high => absurd high (Nat.not_lt.mpr low)⟩
    rw [if_pos past, List.drop_eq_nil_of_le (by omega), List.take_nil]
    apply created.assign (Nat.zero_le _)
    · rintro start ⟨⟩
      exact readable
    · exact congrArg some text
  · rw [if_neg past]
    generalize ends : (if (world.str src).size < max first last then (world.str src).size else max first last) = last'
    have order : min first last ≤ last' ∧ last' ≤ (world.str src).size := by
      rw [← ends]
      split <;> omega
    obtain ⟨zone, -, holds⟩ := sound.storage living
    obtain ⟨readable, text⟩ := fresh.text sound ((world.str src).data + min first last) (last' - min first last)
      ⟨zone, fun a low high => holds a (by omega) (by omega)⟩
    apply created.assign (by omega)
    · rintro start ⟨⟩
      exact readable
    · rw [Option.map_some, text, World.content, Memory.slice_window world.mem _ (by omega)]

end Construct

/-- The rest of the program leaves the `String`s as they are. -/
theorem World.Elsewhere.leaves (elsewhere : world.Elsewhere next) (sound : world.Sound) : Leaves world.strings next := by
  have fine (j : Nat) (alive : (world.str j).alive = true) : next.Fine j ∧ next.content j = world.content j :=
    sound.kept_fine alive (congrFun elsewhere.str j) fun zone a own => elsewhere.kept j zone a own
  have old {j : Nat} {zone : Zone} {a : Nat} (own : zone.Of j) (holds : next.Holds zone a) : world.Holds zone a := by
    rcases own with rfl | rfl
    · simp only [World.Holds, elsewhere.str] at holds
      exact holds
    · simp only [World.Holds, elsewhere.str] at holds
      exact holds
  have owner (zone : Zone) : (∃ number, zone = .foreign number) ∨ ∃ j, zone.Of j := by
    cases zone with
    | home j => exact .inr ⟨j, .inl rfl⟩
    | heap j => exact .inr ⟨j, .inr rfl⟩
    | foreign number => exact .inl ⟨number, rfl⟩
  refine ⟨⟨fun j alive => ?_, fun zone zone' a first second => ?_, fun zone a holds => ?_⟩, funext fun j => ?_⟩
  · rw [elsewhere.str] at alive
    exact (fine j alive).1
  · obtain ⟨number, rfl⟩ | ⟨j, own⟩ := owner zone
    · obtain ⟨number', rfl⟩ | ⟨j, own⟩ := owner zone'
      · exact congrArg Zone.foreign (elsewhere.apart number number' a first second)
      · exact absurd (old own second) (elsewhere.away number a first j zone' own)
    · obtain ⟨number, rfl⟩ | ⟨j', own'⟩ := owner zone'
      · exact absurd (old own first) (elsewhere.away number a second j zone own)
      · exact sound.apart zone zone' a (old own first) (old own' second)
  · obtain ⟨number, rfl⟩ | ⟨j, own⟩ := owner zone
    · exact elsewhere.below number a holds
    · exact Nat.lt_of_lt_of_le (sound.below zone a (old own holds)) elsewhere.top
  · exact strings_kept (congrFun elsewhere.str j) fun alive => (fine j alive).2

theorem World.Start.sound (start : world.Start) : world.Sound := by
  have only {zone : Zone} {a : Nat} (holds : world.Holds zone a) : ∃ number, zone = .foreign number := by
    cases zone with
    | home j => exact absurd holds.1 (by rw [start.dead]; exact Bool.false_ne_true)
    | heap j => exact absurd holds.1 (by rw [start.dead]; exact Bool.false_ne_true)
    | foreign number => exact ⟨number, rfl⟩
  refine ⟨fun j alive => ?_, fun zone zone' a first second => ?_, fun zone a holds => ?_⟩
  · rw [start.dead] at alive
    cases alive
  · obtain ⟨number, rfl⟩ := only first
    obtain ⟨number', rfl⟩ := only second
    exact congrArg Zone.foreign (start.apart number number' a first second)
  · obtain ⟨number, rfl⟩ := only holds
    exact start.below number a holds

end ArduinoK210.Text
