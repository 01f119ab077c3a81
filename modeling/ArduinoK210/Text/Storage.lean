import ArduinoK210.Text.Local

/-! Room for the characters, and texts that go into it. A text may lie in the storage that is about to move. -/

namespace ArduinoK210.Text

open Nor (slice)

variable {lib : Library} {world after : World} {id : Nat}

/-- An operation left `text` in one `String`, and the flag, and is local to it. -/
structure Wrote (id : Nat) (text : List UInt8) (valid : Bool) (world after : World) : Prop where
  moves : Local id world after
  fine : after.Fine id
  content : after.content id = text
  flag : (after.str id).valid = valid

theorem Wrote.sound {text : List UInt8} {valid : Bool} (wrote : Wrote id text valid world after) (sound : world.Sound) :
    after.Sound := Local.sound sound wrote.moves fun _ => wrote.fine

theorem Wrote.behind {middle : World} {text : List UInt8} {valid : Bool} (wrote : Wrote id text valid middle after)
    (moves : Local id world middle) : Wrote id text valid world after :=
  ⟨moves.trans wrote.moves, wrote.fine, wrote.content, wrote.flag⟩

theorem Wrote.refl (sound : world.Sound) (alive : (world.str id).alive = true) :
    Wrote id (world.content id) (world.str id).valid world world :=
  ⟨Local.refl sound, sound.fine id alive, rfl, rfl⟩

@[simp] theorem content_length (world : World) (id : Nat) : (world.content id).length = (world.str id).size :=
  Nor.slice_length ..

section Grow

variable {next capacity : Nat}

@[simp] theorem grow_str (lib : Library) (id next capacity : Nat) (world : World) :
    (grow lib id next capacity world).str id = { world.str id with data := next, capacity := capacity, valid := true } :=
  Function.update_self ..

private theorem grow_others {j : Nat} (different : j ≠ id) : (grow lib id next capacity world).str j = world.str j := by
  have freed : ∀ moved : World, (if (world.str id).data ≠ (world.str id).home
      then lib.free (world.str id).data ((world.str id).capacity + 1) moved else moved).str j = moved.str j := by
    intro moved
    split <;> rfl
  exact (Function.update_of_ne different _ _).trans (freed _)

private theorem grow_foreign : (grow lib id next capacity world).foreign = world.foreign := by
  simp only [grow, World.set]
  split <;> rfl

private theorem grow_refused : (grow lib id next capacity world).refused = world.refused := by
  simp only [grow, World.set]
  split <;> rfl

theorem grow_kept {a : Nat} (new : a < next ∨ next + (world.str id).size < a)
    (old : (world.str id).data ≠ (world.str id).home →
      a < (world.str id).data ∨ (world.str id).data + (world.str id).capacity < a) :
    (grow lib id next capacity world).mem a = world.mem a := by
  have copied : (world.store next (slice world.mem (world.str id).data ((world.str id).size + 1))).mem a = world.mem a := by
    apply Nor.put_outside
    rw [Nor.slice_length]
    omega
  by_cases heap : (world.str id).data ≠ (world.str id).home
  · have outside := old heap
    simp only [grow, World.set, if_pos heap, Library.free]
    rw [if_neg (by omega)]
    exact copied
  · simp only [grow, World.set, if_neg heap]
    exact copied

theorem grow_copied (sound : world.Sound) (alive : (world.str id).alive = true) (more : (world.str id).capacity < capacity)
    (free : world.Free next (capacity + 1)) {i : Nat} (inside : i ≤ (world.str id).size) :
    (grow lib id next capacity world).mem (next + i) = world.mem ((world.str id).data + i) := by
  have fits := (sound.fine id alive).fits
  have copied : (world.store next (slice world.mem (world.str id).data ((world.str id).size + 1))).mem (next + i) =
      world.mem ((world.str id).data + i) := by
    apply Nor.put_inside
    rw [Nor.slice_getElem?, if_pos (by omega)]
  by_cases heap : (world.str id).data ≠ (world.str id).home
  · have apart : ¬((world.str id).data ≤ next + i ∧ next + i < (world.str id).data + ((world.str id).capacity + 1)) :=
      fun own => free (.heap id) (next + i) (by omega) (by omega) ⟨alive, heap, own⟩
    simp only [grow, World.set, if_pos heap, Library.free]
    rw [if_neg apart]
    exact copied
  · simp only [grow, World.set, if_neg heap]
    exact copied

private theorem grow_wrote (sound : world.Sound) (alive : (world.str id).alive = true) (more : (world.str id).capacity < capacity)
    (small : capacity < uintMax) (free : world.Free next (capacity + 1)) :
    Wrote id (world.content id) true world (grow lib id next capacity world) := by
  have fine := sound.fine id alive
  have fits := fine.fits
  have elsewhere : next ≠ (world.str id).home := by
    intro same
    refine free (.home id) next (Nat.le_refl _) (by omega) ⟨alive, by omega, ?_⟩
    rw [same]
    exact Nat.lt_add_of_pos_right (by decide)
  have region {a : Nat} (own : (grow lib id next capacity world).Holds (.heap id) a) : next ≤ a ∧ a < next + (capacity + 1) := by
    simp only [World.Holds, grow_str] at own
    exact own.2.2
  refine ⟨⟨fun j => grow_others, grow_foreign, by rw [grow_str], by rw [grow_str], ?_, ?_, ?_, Nat.le_max_left .., ?_⟩,
    ⟨?_, ?_, ?_, ?_, ?_⟩, ?_, by rw [grow_str]⟩
  · intro zone a other holds
    apply grow_kept
    · by_contra within
      exact free zone a (by omega) (by omega) holds
    · intro heap
      by_contra within
      exact other (.inr (sound.apart zone (.heap id) a holds ⟨alive, heap, by omega, by omega⟩))
  · intro a own zone holds
    exact absurd holds (free zone a (region own).1 (region own).2)
  · intro a own
    exact Nat.lt_of_lt_of_le (region own).2 (Nat.le_max_right ..)
  · exact Nat.le_of_eq grow_refused.symm
  · rw [grow_str]
    exact Nat.le_of_lt (Nat.lt_of_le_of_lt fits more)
  · rw [grow_str]
    exact (grow_copied sound alive more free (Nat.le_refl _)).trans fine.terminated
  · rw [grow_str]
    exact fun inline => absurd inline elsewhere
  · rw [grow_str]
    exact small
  · rw [grow_str]
    intro invalid
    cases invalid
  · rw [World.content, grow_str]
    apply List.map_congr_left
    intro i inside
    exact grow_copied sound alive more free (Nat.le_of_lt (List.mem_range.mp inside))

end Grow

section Reserve

variable {count : Nat}

/-- Everything that `reserve` can do. -/
theorem reserve_cases (lib : Library) (id count : Nat) (world : World) :
    (count = uintMax ∧ reserve lib id count world = (false, world)) ∨
    (count ≠ uintMax ∧ count ≤ (world.str id).capacity ∧
      reserve lib id count world = (true, world.set id { world.str id with valid := true })) ∨
    ((world.str id).capacity < count ∧
      reserve lib id count world = (false, { world with asked := world.asked + 1, refused := world.refused + 1 })) ∨
    (∃ next capacity, (world.str id).capacity < count ∧ count ≤ capacity ∧ (count ≤ uintMax → capacity < uintMax) ∧
      lib.malloc world (capacity + 1) = some next ∧ reserve lib id count world = (true, grow lib id next capacity world)) := by
  by_cases top : count = uintMax
  · exact .inl ⟨top, if_pos top⟩
  by_cases more : (world.str id).capacity < count
  · have grown : (if (world.str id).capacity ≤ (uintMax - 2) / 2 then (world.str id).capacity * 2 + 1 else uintMax - 1) <
        uintMax := by
      have limit : uintMax = 4294967295 := rfl
      split <;> omega
    unfold reserve
    rw [if_neg top, if_pos more]
    dsimp only
    generalize (if (world.str id).capacity ≤ (uintMax - 2) / 2 then (world.str id).capacity * 2 + 1 else uintMax - 1) = larger
      at grown ⊢
    cases granted : lib.malloc world ((if larger < count then count else larger) + 1) with
    | none => exact .inr (.inr (.inl ⟨more, rfl⟩))
    | some next =>
      refine .inr (.inr (.inr ⟨next, if larger < count then count else larger, more, ?_, fun bound => ?_, granted, rfl⟩))
      · split <;> omega
      · split <;> omega
  · refine .inr (.inl ⟨top, Nat.le_of_not_lt more, ?_⟩)
    unfold reserve
    rw [if_neg top, if_neg more]

/-- There is room, the characters are still there, and nothing that others own or that the object itself has is different. -/
structure Reserved (id count : Nat) (world after : World) : Prop where
  wrote : Wrote id (world.content id) true world after
  small : count < uintMax
  room : count ≤ (after.str id).capacity
  refused : after.refused = world.refused
  kept : ∀ zone a, zone ≠ .heap id → world.Holds zone a → after.mem a = world.mem a
  still : count ≤ (world.str id).capacity → after.mem = world.mem

/-- There is no room: everything is as it was. -/
structure Declined (id count : Nat) (world after : World) : Prop where
  wrote : Wrote id (world.content id) (world.str id).valid world after
  str : after.str = world.str
  why : after.refused = world.refused → uintMax ≤ count

theorem reserve_spec (lib : Library) (sound : world.Sound) (alive : (world.str id).alive = true) (bound : count ≤ uintMax) :
    match reserve lib id count world with
    | (true, after) => Reserved id count world after
    | (false, after) => Declined id count world after := by
  obtain ⟨top, result⟩ | ⟨top, room, result⟩ | ⟨more, result⟩ | ⟨next, capacity, more, room, small, granted, result⟩ :=
    reserve_cases lib id count world
  · rw [result]
    exact ⟨Wrote.refl sound alive, rfl, fun _ => Nat.le_of_eq top.symm⟩
  · rw [result]
    have fine := sound.fine id alive
    have moves : Local id world (world.set id { world.str id with valid := true }) :=
      Local.edit sound alive (world.str id).size true fun a changed => absurd rfl changed
    have same : (world.set id { world.str id with valid := true }).str id = { world.str id with valid := true } :=
      Function.update_self ..
    refine ⟨⟨moves, ?_, by rw [World.content, same]; rfl, by rw [same]⟩, by omega, by rw [same]; exact room, rfl, fun _ _ _ _ => rfl,
      fun _ => rfl⟩
    refine ⟨?_, ?_, ?_, ?_, ?_⟩ <;> rw [same]
    · exact fine.fits
    · exact fine.terminated
    · exact fine.inline
    · exact fine.small
    · exact fun invalid => Bool.noConfusion invalid
  · rw [result]
    have unmoved : Local id world { world with asked := world.asked + 1, refused := world.refused + 1 } :=
      { (Local.refl sound : Local id world world) with refused := Nat.le_succ _ }
    have fine := sound.fine id alive
    exact ⟨⟨unmoved, ⟨fine.fits, fine.terminated, fine.inline, fine.small, fine.invalid⟩, rfl, rfl⟩, rfl, fun same => absurd same (Nat.succ_ne_self _)⟩
  · rw [result]
    have wrote : Wrote id (world.content id) true world (grow lib id next capacity world) :=
      grow_wrote sound alive (Nat.lt_of_lt_of_le more room) (small bound) (lib.fresh world _ next sound granted)
    refine ⟨wrote, Nat.lt_of_le_of_lt room (small bound), ?_, grow_refused, fun zone a other holds => ?_, fun fits => by omega⟩
    · rw [grow_str]
      exact room
    · have free := lib.fresh world _ next sound granted
      have fits := (sound.fine id alive).fits
      apply grow_kept
      · by_contra within
        exact free zone a (by omega) (by omega) holds
      · intro heap
        by_contra within
        exact other (sound.apart zone (.heap id) a holds ⟨alive, heap, by omega, by omega⟩)

end Reserve

end ArduinoK210.Text
