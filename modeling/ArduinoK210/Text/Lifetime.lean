import ArduinoK210.Text.Edit

/-! Construction, destruction and moves, which change what belongs to whom. -/

namespace ArduinoK210.Text

open Nor (put slice)

variable {lib : Library} {world after : World} {id other : Nat}

def World.strings (world : World) : Strings := fun id => if (world.str id).alive then some (world.value id) else none

/-- What an operation does to all of memory. -/
def Leaves (strings : Strings) (after : World) : Prop := after.Sound ∧ after.strings = strings

theorem strings_alive (alive : (world.str id).alive = true) : world.strings id = some (world.value id) := if_pos alive

theorem strings_value (alive : (world.str id).alive = true) : world.strings.value id = world.value id := by
  rw [Strings.value, strings_alive alive]
  rfl

/-- What is said to be alive is alive and has the value that is said. -/
theorem Leaves.living {strings : Strings} {j : Nat} {value : Value} (leaves : Leaves strings after) (is : strings j = some value) :
    (after.str j).alive = true ∧ after.value j = value := by
  rw [← leaves.2, World.strings] at is
  split at is
  next alive => exact ⟨alive, Option.some.inj is⟩
  next => cases is

theorem strings_put_self (alive : (world.str id).alive = true) : world.strings.put id (world.value id) = world.strings := by
  rw [Strings.put, ← strings_alive alive, Function.update_eq_self]

theorem strings_kept {j : Nat} (same : after.str j = world.str j)
    (content : (world.str j).alive = true → after.content j = world.content j) : after.strings j = world.strings j := by
  unfold World.strings World.value
  rw [same]
  split
  next alive => rw [content alive]
  next => rfl

theorem Became.leaves {value : Value} (became : Became id value world after) (sound : world.Sound)
    (alive : (world.str id).alive = true) : Leaves (world.strings.put id value) after := by
  refine ⟨Wrote.sound became sound, funext fun j => ?_⟩
  unfold Strings.put
  by_cases same : j = id
  · rw [same, Function.update_self, strings_alive (became.moves.alive.trans alive), became.value]
  · rw [Function.update_of_ne same]
    exact strings_kept (became.moves.others j same) fun alive => (Local.fine sound became.moves same alive).2

/-- Memory is sound when every piece of it has, under another name or the same, been sound memory before. -/
theorem World.Sound.rename (sound : world.Sound) (rename : Zone → Zone)
    (holds : ∀ zone a, after.Holds zone a → world.Holds (rename zone) a)
    (unique : ∀ zone zone' a, after.Holds zone a → after.Holds zone' a → rename zone = rename zone' → zone = zone')
    (top : world.top ≤ after.top) (fine : ∀ j, (after.str j).alive = true → after.Fine j) : after.Sound where
  fine := fine
  apart zone zone' a first second := unique zone zone' a first second (sound.apart _ _ a (holds zone a first) (holds zone' a second))
  below zone a here := Nat.lt_of_lt_of_le (sound.below _ a (holds zone a here)) top

section Create

variable {home : Nat}

theorem create_str (id home : Nat) (world : World) : (create id home world).str id = ⟨true, home, home, 0, localSize - 1, true⟩ :=
  Function.update_self ..

theorem create_others {j : Nat} (different : j ≠ id) : (create id home world).str j = world.str j :=
  Function.update_of_ne different _ _

theorem create_kept {a : Nat} (outside : a < home ∨ home + localSize ≤ a) : (create id home world).mem a = world.mem a := by
  apply Nor.put_outside
  rw [List.length_replicate]
  exact outside

private theorem create_zeroed : (create id home world).mem home = 0 := Nor.put_inside _ _ _ 0 0 rfl

theorem create_holds {zone : Zone} {a : Nat} (holds : (create id home world).Holds zone a) :
    (zone = .home id ∧ home ≤ a ∧ a < home + localSize) ∨ (¬zone.Of id ∧ world.Holds zone a) := by
  cases zone with
  | home j =>
    by_cases same : j = id
    · rw [same] at holds
      simp only [World.Holds, create_str] at holds
      exact .inl ⟨congrArg Zone.home same, holds.2⟩
    · simp only [World.Holds, create_others same] at holds
      exact .inr ⟨fun own => same (own.unique (.inl rfl) ▸ rfl), holds⟩
  | heap j =>
    by_cases same : j = id
    · rw [same] at holds
      simp only [World.Holds, create_str] at holds
      exact absurd rfl holds.2.1
    · simp only [World.Holds, create_others same] at holds
      exact .inr ⟨fun own => same (own.unique (.inr rfl) ▸ rfl), holds⟩
  | foreign number =>
    refine .inr ⟨fun own => ?_, holds⟩
    rcases own with own | own <;> cases own

theorem create_leaves (sound : world.Sound) (free : world.Free home localSize) :
    Leaves (world.strings.put id (some [])) (create id home world) := by
  have kept : ∀ zone a, world.Holds zone a → (create id home world).mem a = world.mem a := by
    intro zone a holds
    apply create_kept
    by_contra inside
    exact free zone a (by omega) (by omega) holds
  refine ⟨⟨fun j alive => ?_, fun zone zone' a first second => ?_, fun zone a holds => ?_⟩, funext fun j => ?_⟩
  · by_cases same : j = id
    · rw [same]
      refine ⟨?_, ?_, ?_, ?_, ?_⟩ <;> rw [create_str]
      · exact Nat.zero_le _
      · exact create_zeroed
      · exact fun _ => rfl
      · exact show localSize - 1 < uintMax by decide
      · exact fun invalid => Bool.noConfusion invalid
    · rw [create_others same] at alive
      exact (sound.kept_fine alive (create_others same) fun zone a _ => kept zone a).1
  · obtain ⟨rfl, low, high⟩ | ⟨_, first⟩ := create_holds first
    · obtain ⟨rfl, _⟩ | ⟨_, second⟩ := create_holds second
      · rfl
      · exact absurd second (free zone' a low high)
    · obtain ⟨rfl, low, high⟩ | ⟨_, second⟩ := create_holds second
      · exact absurd first (free zone a low high)
      · exact sound.apart zone zone' a first second
  · obtain ⟨rfl, _, high⟩ | ⟨_, holds⟩ := create_holds holds
    · exact Nat.lt_of_lt_of_le high (Nat.le_max_right ..)
    · exact Nat.lt_of_lt_of_le (sound.below zone a holds) (Nat.le_max_left ..)
  · unfold Strings.put
    by_cases same : j = id
    · rw [same, Function.update_self, strings_alive (by rw [create_str]), World.value, World.content, create_str]
      rfl
    · rw [Function.update_of_ne same]
      exact strings_kept (create_others same) fun alive =>
        (sound.kept_fine alive (create_others same) fun zone a _ => kept zone a).2

end Create

section Move

/-- The storage of one `String` has been given up, and nothing else is different. -/
structure Shed (id : Nat) (world after : World) : Prop where
  str : after.str = world.str
  foreign : after.foreign = world.foreign
  top : after.top = world.top
  kept : ∀ zone a, zone ≠ .heap id → world.Holds zone a → after.mem a = world.mem a

theorem Shed.refl (id : Nat) (world : World) : Shed id world world := ⟨rfl, rfl, rfl, fun _ _ _ _ => rfl⟩

private theorem drop_shed (lib : Library) (sound : world.Sound) (alive : (world.str id).alive = true) : Shed id world (drop lib id world) := by
  unfold drop
  dsimp only
  split
  next heap =>
    refine ⟨rfl, rfl, rfl, fun zone a other holds => ?_⟩
    apply if_neg
    intro own
    exact other (sound.apart zone (.heap id) a holds ⟨alive, heap, own⟩)
  next => exact Shed.refl id world

private theorem drop_refused (lib : Library) (id : Nat) (world : World) : (drop lib id world).refused = world.refused := by
  unfold drop
  dsimp only
  split <;> rfl

theorem destroy_refused (lib : Library) (id : Nat) (world : World) : (destroy lib id world).refused = world.refused :=
  drop_refused lib id world

private theorem destroy_dead (lib : Library) (id : Nat) (world : World) : ((destroy lib id world).str id).alive = false := by
  rw [destroy, World.set_str]

private theorem destroy_others (sound : world.Sound) (alive : (world.str id).alive = true) {j : Nat} (different : j ≠ id) :
    (destroy lib id world).str j = world.str j := by
  have shed : Shed id world (drop lib id world) := drop_shed lib sound alive
  rw [destroy, World.set_others _ _ different]
  exact congrFun shed.str j

private theorem destroy_kept (sound : world.Sound) (alive : (world.str id).alive = true) {zone : Zone} {a : Nat} (other : ¬zone.Of id)
    (holds : world.Holds zone a) : (destroy lib id world).mem a = world.mem a := by
  have outside : ¬((world.str id).home ≤ a ∧ a < (world.str id).home + localSize) :=
    fun own => other (.inl (sound.apart zone (.home id) a holds ⟨alive, own⟩))
  have freed : (destroy lib id world).mem a = (drop lib id world).mem a := if_neg outside
  rw [freed]
  exact (drop_shed lib sound alive).kept zone a (Zone.of_iff.mp other).2 holds

private theorem destroy_holds (sound : world.Sound) (alive : (world.str id).alive = true) {zone : Zone} {a : Nat}
    (holds : (destroy lib id world).Holds zone a) : world.Holds zone a := by
  have living {j : Nat} (alive' : ((destroy lib id world).str j).alive = true) : j ≠ id := by
    rintro rfl
    rw [destroy_dead] at alive'
    exact Bool.false_ne_true alive'
  cases zone with
  | home j =>
    have different : j ≠ id := living holds.1
    simp only [World.Holds, destroy_others sound alive different] at holds
    exact holds
  | heap j =>
    have different : j ≠ id := living holds.1
    simp only [World.Holds, destroy_others sound alive different] at holds
    exact holds
  | foreign number =>
    have same : (destroy lib id world).foreign = world.foreign := (drop_shed lib sound alive).foreign
    simp only [World.Holds, same] at holds
    exact holds

theorem destroy_leaves (lib : Library) (sound : world.Sound) (alive : (world.str id).alive = true) :
    Leaves (Function.update world.strings id none) (destroy lib id world) := by
  have fine : ∀ j, j ≠ id → (world.str j).alive = true →
      (destroy lib id world).Fine j ∧ (destroy lib id world).content j = world.content j :=
    fun j different living => sound.kept_fine living (destroy_others sound alive different) fun zone a own =>
      destroy_kept sound alive fun mine => different (own.unique mine)
  have top : world.top ≤ (destroy lib id world).top := Nat.le_of_eq (drop_shed lib sound alive).top.symm
  refine ⟨sound.rename (fun zone => zone) (fun zone a => destroy_holds sound alive) (fun _ _ _ _ _ same => same) top ?_,
    funext fun j => ?_⟩
  · intro j living
    have different : j ≠ id := by
      rintro rfl
      rw [destroy_dead] at living
      exact Bool.false_ne_true living
    rw [destroy_others sound alive different] at living
    exact (fine j different living).1
  · by_cases same : j = id
    · rw [same, Function.update_self]
      apply if_neg
      rw [destroy_dead]
      exact Bool.false_ne_true
    · rw [Function.update_of_ne same]
      exact strings_kept (destroy_others sound alive same) fun living => (fine j same living).2

/-- `take` leaves the objects this way, wherever the characters were. -/
theorem take_str (different : id ≠ other)
    (inline : (world.str other).data = (world.str other).home → (world.str other).capacity = localSize - 1) :
    (take id other world).str id = { world.str id with
        data := if (world.str other).data = (world.str other).home then (world.str id).home else (world.str other).data
        capacity := (world.str other).capacity, size := (world.str other).size, valid := (world.str other).valid } ∧
      (take id other world).str other = { world.str other with
        data := (world.str other).home, capacity := localSize - 1, size := 0, valid := true } ∧
      ∀ j, j ≠ id → j ≠ other → (take id other world).str j = world.str j := by
  unfold take
  by_cases place : (world.str other).data = (world.str other).home
  · simp only [place, if_true, clear, World.set, World.store, Function.update_self, Function.update_of_ne different,
      Function.update_of_ne different.symm]
    refine ⟨by rw [inline place], by rw [inline place], fun j first second => ?_⟩
    rw [Function.update_of_ne second, Function.update_of_ne second, Function.update_of_ne first]
  · simp only [place, if_false, clear, World.set, World.store, Function.update_self, Function.update_of_ne different]
    refine ⟨trivial, trivial, fun j first second => ?_⟩
    rw [Function.update_of_ne second, Function.update_of_ne second, Function.update_of_ne second, Function.update_of_ne first]

private theorem take_mem (different : id ≠ other) :
    (take id other world).mem = if (world.str other).data = (world.str other).home
      then put (put world.mem (world.str id).home (slice world.mem (world.str other).home localSize)) (world.str other).home [0]
      else put world.mem (world.str other).home [0] := by
  unfold take
  by_cases place : (world.str other).data = (world.str other).home
  · simp only [place, if_true, clear, World.set, World.store, Function.update_of_ne different.symm]
  · simp only [place, if_false, clear, World.set, World.store, Function.update_self]

section Take

variable {shorn : World}

/-- The objects of two `String`s, one of which has given up its storage, can be told apart. -/
theorem World.Sound.homes_apart (sound : world.Sound) (alive : (world.str id).alive = true) (alive' : (world.str other).alive = true)
    (different : id ≠ other) : ∀ i, i < localSize → ∀ j, j < localSize → (world.str id).home + i ≠ (world.str other).home + j := by
  intro i low j low' same
  have first : world.Holds (.home id) ((world.str id).home + i) := ⟨alive, Nat.le_add_right _ _, by omega⟩
  have second : world.Holds (.home other) ((world.str id).home + i) := ⟨alive', by omega, by omega⟩
  exact different (Zone.home.inj (sound.apart _ _ _ first second))

private theorem take_kept (sound : world.Sound) (alive : (world.str id).alive = true) (alive' : (world.str other).alive = true)
    (different : id ≠ other) (shed : Shed id world shorn) {zone : Zone} {a : Nat} (notMine : ¬zone.Of id) (notIts : ¬zone.Of other)
    (holds : world.Holds zone a) : (take id other shorn).mem a = world.mem a := by
  have size : localSize = 24 := rfl
  have outside : ¬((world.str id).home ≤ a ∧ a < (world.str id).home + localSize) :=
    fun own => notMine (.inl (sound.apart zone (.home id) a holds ⟨alive, own⟩))
  have outside' : ¬((world.str other).home ≤ a ∧ a < (world.str other).home + localSize) :=
    fun own => notIts (.inl (sound.apart zone (.home other) a holds ⟨alive', own⟩))
  have kept : shorn.mem a = world.mem a := shed.kept zone a (Zone.of_iff.mp notMine).2 holds
  rw [take_mem different, shed.str]
  split
  · rw [Nor.put_outside _ _ _ _ (by rw [List.length_singleton]; omega), Nor.put_outside _ _ _ _ (by rw [Nor.slice_length]; omega), kept]
  · rw [Nor.put_outside _ _ _ _ (by rw [List.length_singleton]; omega), kept]

/-- The characters and the terminator are where the new owner looks for them. -/
theorem take_moved (sound : world.Sound) (alive : (world.str id).alive = true) (alive' : (world.str other).alive = true)
    (different : id ≠ other) (shed : Shed id world shorn) {i : Nat} (inside : i ≤ (world.str other).size) :
    (take id other shorn).mem ((if (world.str other).data = (world.str other).home then (world.str id).home
      else (world.str other).data) + i) = world.mem ((world.str other).data + i) := by
  have size : localSize = 24 := rfl
  have fits := (sound.fine other alive').fits
  rw [take_mem different, shed.str]
  by_cases place : (world.str other).data = (world.str other).home
  · have length := (sound.fine other alive').inline place
    have apart := sound.homes_apart alive alive' different i (by omega) 0 (by omega)
    have holds : world.Holds (.home other) ((world.str other).home + i) := ⟨alive', Nat.le_add_right _ _, by omega⟩
    rw [if_pos place, if_pos place, Nor.put_outside _ _ _ _ (by rw [List.length_singleton]; omega)]
    apply Nor.put_inside
    rw [Nor.slice_getElem?, if_pos (by omega), shed.kept _ _ (by simp) holds, place]
  · have holds : world.Holds (.heap other) ((world.str other).data + i) := ⟨alive', place, Nat.le_add_right _ _, by omega⟩
    have elsewhere : (world.str other).data + i ≠ (world.str other).home := by
      intro same
      have home : world.Holds (.home other) ((world.str other).data + i) := ⟨alive', by omega, by omega⟩
      exact Zone.noConfusion (sound.apart _ _ _ holds home)
    have block : Zone.heap other ≠ .heap id := fun same => different (Zone.heap.inj same).symm
    rw [if_neg place, if_neg place, Nor.put_outside _ _ _ _ (by rw [List.length_singleton]; omega)]
    exact shed.kept _ _ block holds

private theorem take_emptied (different : id ≠ other) : (take id other shorn).mem (shorn.str other).home = 0 := by
  rw [take_mem different]
  split
  · exact Nor.put_inside _ _ [0] 0 0 rfl
  · exact Nor.put_inside _ _ [0] 0 0 rfl

private theorem take_objects (sound : world.Sound) (alive' : (world.str other).alive = true) (different : id ≠ other)
    (shed : Shed id world shorn) :
    (take id other shorn).str id = { world.str id with
        data := if (world.str other).data = (world.str other).home then (world.str id).home else (world.str other).data
        capacity := (world.str other).capacity, size := (world.str other).size, valid := (world.str other).valid } ∧
      (take id other shorn).str other = { world.str other with
        data := (world.str other).home, capacity := localSize - 1, size := 0, valid := true } ∧
      ∀ j, j ≠ id → j ≠ other → (take id other shorn).str j = world.str j := by
  have inline : (shorn.str other).data = (shorn.str other).home → (shorn.str other).capacity = localSize - 1 := by
    rw [shed.str]
    exact fun place => Nat.eq_sub_of_add_eq ((sound.fine other alive').inline place)
  have objects := take_str different inline
  rw [shed.str] at objects
  exact objects

private theorem take_foreign : (take id other shorn).foreign = shorn.foreign ∧ (take id other shorn).top = shorn.top ∧
    (take id other shorn).refused = shorn.refused := by
  unfold take
  by_cases place : (shorn.str other).data = (shorn.str other).home
  · simp only [place, if_true]
    exact ⟨rfl, rfl, rfl⟩
  · simp only [place, if_false]
    exact ⟨rfl, rfl, rfl⟩

/-- The block of the one becomes the block of the other. -/
def handed (id other : Nat) (zone : Zone) : Zone := if zone = .heap id then .heap other else zone

private theorem take_holds (sound : world.Sound) (alive' : (world.str other).alive = true) (different : id ≠ other)
    (shed : Shed id world shorn) {zone : Zone} {a : Nat} (holds : (take id other shorn).Holds zone a) :
    world.Holds (handed id other zone) a ∧ zone ≠ .heap other := by
  obtain ⟨mine, its, others⟩ := take_objects sound alive' different shed
  cases zone with
  | home j =>
    refine ⟨?_, by simp⟩
    rw [handed, if_neg (by simp)]
    by_cases same : j = id
    · rw [same] at holds ⊢
      simp only [World.Holds, mine] at holds
      exact holds
    · by_cases same' : j = other
      · rw [same'] at holds ⊢
        simp only [World.Holds, its] at holds
        exact holds
      · simp only [World.Holds, others j same same'] at holds
        exact holds
  | heap j =>
    by_cases same : j = id
    · rw [same] at holds ⊢
      simp only [World.Holds, mine] at holds
      obtain ⟨_, moved, low, high⟩ := holds
      by_cases place : (world.str other).data = (world.str other).home
      · rw [if_pos place] at moved
        exact absurd rfl moved
      · rw [if_neg place] at low high
        rw [handed, if_pos rfl]
        exact ⟨⟨alive', place, low, high⟩, fun same => different (Zone.heap.inj same)⟩
    · by_cases same' : j = other
      · rw [same'] at holds
        simp only [World.Holds, its] at holds
        exact absurd rfl holds.2.1
      · rw [handed, if_neg fun equal => same (Zone.heap.inj equal)]
        simp only [World.Holds, others j same same'] at holds
        exact ⟨holds, fun equal => same' (Zone.heap.inj equal)⟩
  | foreign number =>
    refine ⟨?_, by simp⟩
    rw [handed, if_neg (by simp)]
    have kept : (take id other shorn).foreign = world.foreign := take_foreign.1.trans shed.foreign
    simp only [World.Holds, kept] at holds
    exact holds

private theorem take_fine (sound : world.Sound) (alive : (world.str id).alive = true) (alive' : (world.str other).alive = true)
    (different : id ≠ other) (shed : Shed id world shorn) : (take id other shorn).Fine id := by
  obtain ⟨mine, -, -⟩ := take_objects sound alive' different shed
  have fine := sound.fine other alive'
  refine ⟨?_, ?_, ?_, ?_, ?_⟩ <;> rw [mine]
  · exact fine.fits
  · exact (take_moved sound alive alive' different shed (Nat.le_refl _)).trans fine.terminated
  · intro inline
    dsimp only at inline ⊢
    by_cases place : (world.str other).data = (world.str other).home
    · exact fine.inline place
    · rw [if_neg place] at inline
      have block : world.Holds (.heap other) (world.str other).data := ⟨alive', place, Nat.le_refl _, by omega⟩
      have home : world.Holds (.home id) (world.str other).data := by
        rw [inline]
        exact ⟨alive, Nat.le_refl _, Nat.lt_add_of_pos_right (by decide)⟩
      exact Zone.noConfusion (sound.apart _ _ _ block home)
  · exact fine.small
  · exact fine.invalid

private theorem take_content (sound : world.Sound) (alive : (world.str id).alive = true) (alive' : (world.str other).alive = true)
    (different : id ≠ other) (shed : Shed id world shorn) : (take id other shorn).content id = world.content other := by
  rw [World.content, (take_objects sound alive' different shed).1]
  apply List.map_congr_left
  intro i inside
  exact take_moved sound alive alive' different shed (Nat.le_of_lt (List.mem_range.mp inside))

private theorem take_left (sound : world.Sound) (alive' : (world.str other).alive = true) (different : id ≠ other)
    (shed : Shed id world shorn) : (take id other shorn).Fine other := by
  refine ⟨?_, ?_, ?_, ?_, ?_⟩ <;> rw [(take_objects sound alive' different shed).2.1]
  · exact Nat.zero_le _
  · rw [← shed.str]
    exact take_emptied different
  · exact fun _ => rfl
  · exact show localSize - 1 < uintMax by decide
  · exact fun invalid => Bool.noConfusion invalid

theorem take_leaves (sound : world.Sound) (alive : (world.str id).alive = true) (alive' : (world.str other).alive = true)
    (different : id ≠ other) (shed : Shed id world shorn) :
    Leaves ((world.strings.put id (world.value other)).put other (some [])) (take id other shorn) := by
  obtain ⟨mine, its, others⟩ := take_objects sound alive' different shed
  have kept (j : Nat) (first : j ≠ id) (second : j ≠ other) (living : (world.str j).alive = true) :=
    sound.kept_fine living (others j first second) fun zone a own holds =>
      take_kept sound alive alive' different shed (fun own' => first (own.unique own')) (fun own' => second (own.unique own')) holds
  have top : world.top ≤ (take id other shorn).top := by
    rw [take_foreign.2.1, shed.top]
  refine ⟨sound.rename (handed id other) (fun zone a holds => (take_holds sound alive' different shed holds).1) ?_ top ?_,
    funext fun j => ?_⟩
  · intro zone zone' a first second same
    have block := (take_holds sound alive' different shed first).2
    have block' := (take_holds sound alive' different shed second).2
    unfold handed at same
    split at same <;> split at same
    · next here here' => rw [here, here']
    · exact absurd same.symm block'
    · exact absurd same block
    · exact same
  · intro j living
    by_cases first : j = id
    · rw [first]
      exact take_fine sound alive alive' different shed
    · by_cases second : j = other
      · rw [second]
        exact take_left sound alive' different shed
      · rw [others j first second] at living
        exact (kept j first second living).1
  · unfold Strings.put
    by_cases second : j = other
    · rw [second, Function.update_self, strings_alive (by rw [its]; exact alive'), World.value, World.content, its]
      rfl
    · rw [Function.update_of_ne second]
      by_cases first : j = id
      · rw [first, Function.update_self, strings_alive (by rw [mine]; exact alive), World.value,
          take_content sound alive alive' different shed, mine]
        rfl
      · rw [Function.update_of_ne first]
        exact strings_kept (others j first second) fun living => (kept j first second living).2

theorem assignMove_leaves (lib : Library) (sound : world.Sound) (alive : (world.str id).alive = true)
    (alive' : (world.str other).alive = true) (different : id ≠ other) :
    Leaves ((world.strings.put id (world.value other)).put other (some [])) (assignMove lib id other world) := by
  rw [assignMove, if_neg different]
  exact take_leaves sound alive alive' different (drop_shed lib sound alive)

theorem assignMove_refused (lib : Library) (different : id ≠ other) (world : World) :
    (assignMove lib id other world).refused = world.refused := by
  rw [assignMove, if_neg different, take_foreign.2.2, drop_refused]

end Take

end Move

end ArduinoK210.Text
