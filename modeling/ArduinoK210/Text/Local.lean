import ArduinoK210.Text.WString

/-! An operation on one `String` keeps to that object, its block and fresh memory. So it leaves all other contents alone and
memory sound. -/

namespace ArduinoK210.Text

variable {lib : Library} {world after : World} {id : Nat}

/-- Nothing changes but the object, its own storage and memory that was nobody's. -/
structure Local (id : Nat) (world after : World) : Prop where
  others : ∀ j, j ≠ id → after.str j = world.str j
  foreign : after.foreign = world.foreign
  alive : (after.str id).alive = (world.str id).alive
  home : (after.str id).home = (world.str id).home
  kept : ∀ zone a, ¬zone.Of id → world.Holds zone a → after.mem a = world.mem a
  grown : ∀ a, after.Holds (.heap id) a → ∀ zone, world.Holds zone a → zone = .heap id
  below : ∀ a, after.Holds (.heap id) a → a < after.top
  top : world.top ≤ after.top
  refused : world.refused ≤ after.refused

theorem Zone.of_iff {id : Nat} {zone : Zone} : ¬zone.Of id ↔ zone ≠ .home id ∧ zone ≠ .heap id := not_or

theorem Local.holds_iff (moves : Local id world after) {zone : Zone} (other : zone ≠ .heap id) (a : Nat) :
    after.Holds zone a ↔ world.Holds zone a := by
  cases zone with
  | home j =>
    by_cases same : j = id
    · rw [same]
      simp only [World.Holds, moves.alive, moves.home]
    · simp only [World.Holds, moves.others j same]
  | heap j =>
    have different : j ≠ id := fun same => other (congrArg Zone.heap same)
    simp only [World.Holds, moves.others j different]
  | foreign number => simp only [World.Holds, moves.foreign]

theorem Local.refl (sound : world.Sound) : Local id world world where
  others _ _ := rfl
  foreign := rfl
  alive := rfl
  home := rfl
  kept _ _ _ _ := rfl
  grown a own zone holds := sound.apart zone (.heap id) a holds own
  below a own := sound.below _ a own
  top := Nat.le_refl _
  refused := Nat.le_refl _

theorem Local.trans {last : World} (first : Local id world after) (second : Local id after last) : Local id world last where
  others j different := (second.others j different).trans (first.others j different)
  foreign := second.foreign.trans first.foreign
  alive := second.alive.trans first.alive
  home := second.home.trans first.home
  kept zone a other holds := by
    have still : after.Holds zone a := (first.holds_iff (Zone.of_iff.mp other).2 a).mpr holds
    exact (second.kept zone a other still).trans (first.kept zone a other holds)
  grown a own zone holds := by
    by_cases heap : zone = .heap id
    · exact heap
    · exact second.grown a own zone ((first.holds_iff heap a).mpr holds)
  below := second.below
  top := Nat.le_trans first.top second.top
  refused := Nat.le_trans first.refused second.refused

theorem World.Sound.storage (sound : world.Sound) (alive : (world.str id).alive = true) :
    ∃ zone : Zone, zone.Of id ∧
      ∀ a, (world.str id).data ≤ a → a < (world.str id).data + ((world.str id).capacity + 1) → world.Holds zone a := by
  by_cases inline : (world.str id).data = (world.str id).home
  · have length := (sound.fine id alive).inline inline
    refine ⟨.home id, .inl rfl, fun a low high => ⟨alive, ?_, ?_⟩⟩ <;> omega
  · exact ⟨.heap id, .inr rfl, fun a low high => ⟨alive, inline, low, high⟩⟩

theorem World.Sound.storage_only (sound : world.Sound) (alive : (world.str id).alive = true) {a : Nat}
    (low : (world.str id).data ≤ a) (high : a < (world.str id).data + ((world.str id).capacity + 1)) {zone : Zone}
    (holds : world.Holds zone a) : zone.Of id := by
  obtain ⟨own, isOwn, holdsOwn⟩ := sound.storage alive
  rw [sound.apart zone own a holds (holdsOwn a low high)]
  exact isOwn

theorem Local.edit (sound : world.Sound) (alive : (world.str id).alive = true) {mem : Nat → UInt8} (size : Nat) (valid : Bool)
    (inside : ∀ a, mem a ≠ world.mem a →
      (world.str id).data ≤ a ∧ a < (world.str id).data + ((world.str id).capacity + 1)) :
    Local id world ({ world with mem }.set id { world.str id with size, valid }) := by
  have same : ({ world with mem }.set id { world.str id with size, valid }).str id = { world.str id with size, valid } :=
    Function.update_self ..
  have heap (a : Nat) : ({ world with mem }.set id { world.str id with size, valid }).Holds (.heap id) a →
      world.Holds (.heap id) a := by
    intro holds
    simp only [World.Holds, same] at holds
    exact holds
  refine ⟨fun j different => Function.update_of_ne different _ _, rfl, by rw [same], by rw [same], ?_, ?_, ?_, Nat.le_refl _,
    Nat.le_refl _⟩
  · intro zone a other holds
    by_contra changed
    obtain ⟨low, high⟩ := inside a changed
    exact other (sound.storage_only alive low high holds)
  · exact fun a own zone holds => sound.apart zone (.heap id) a holds (heap a own)
  · exact fun a own => sound.below _ a (heap a own)

theorem Zone.Of.unique {j : Nat} {zone : Zone} (own : zone.Of j) (other : zone.Of id) : j = id := by
  rcases own with rfl | rfl <;> rcases other with same | same <;> cases same <;> rfl

theorem World.Sound.kept_fine (sound : world.Sound) {j : Nat} (alive : (world.str j).alive = true)
    (same : after.str j = world.str j) (kept : ∀ zone a, zone.Of j → world.Holds zone a → after.mem a = world.mem a) :
    after.Fine j ∧ after.content j = world.content j := by
  have fine := sound.fine j alive
  have unmoved : ∀ i, i ≤ (world.str j).size → after.mem ((world.str j).data + i) = world.mem ((world.str j).data + i) := by
    intro i inside
    have fits := fine.fits
    obtain ⟨zone, own, holds⟩ := sound.storage alive
    exact kept zone _ own (holds _ (by omega) (by omega))
  constructor
  · refine ⟨?_, ?_, ?_, ?_, ?_⟩ <;> rw [same]
    · exact fine.fits
    · exact (unmoved _ (Nat.le_refl _)).trans fine.terminated
    · exact fine.inline
    · exact fine.small
    · exact fine.invalid
  · rw [World.content, same]
    exact Memory.slice_congr fun i inside => unmoved i (Nat.le_of_lt inside)

theorem Local.fine (sound : world.Sound) (moves : Local id world after) {j : Nat} (different : j ≠ id)
    (alive : (world.str j).alive = true) : after.Fine j ∧ after.content j = world.content j :=
  sound.kept_fine alive (moves.others j different) fun zone a own holds =>
    moves.kept zone a (fun mine => different (own.unique mine)) holds

/-- An operation on one `String` that leaves it fine leaves all memory sound. -/
theorem Local.sound (sound : world.Sound) (moves : Local id world after)
    (fine : (after.str id).alive = true → after.Fine id) : after.Sound := by
  have old : ∀ zone a, zone ≠ .heap id → after.Holds zone a → world.Holds zone a :=
    fun zone a other holds => (moves.holds_iff other a).mp holds
  refine ⟨fun j alive => ?_, fun zone other a holds holds' => ?_, fun zone a holds => ?_⟩
  · by_cases same : j = id
    · rw [same] at alive ⊢
      exact fine alive
    · rw [moves.others j same] at alive
      exact (Local.fine sound moves same alive).1
  · by_cases first : zone = .heap id
    · by_cases second : other = .heap id
      · rw [first, second]
      · rw [first] at holds ⊢
        exact (moves.grown a holds other (old other a second holds')).symm
    · by_cases second : other = .heap id
      · rw [second] at holds' ⊢
        exact moves.grown a holds' zone (old zone a first holds)
      · exact sound.apart zone other a (old zone a first holds) (old other a second holds')
  · by_cases first : zone = .heap id
    · rw [first] at holds
      exact moves.below a holds
    · exact Nat.lt_of_lt_of_le (sound.below zone a (old zone a first holds)) moves.top

end ArduinoK210.Text
