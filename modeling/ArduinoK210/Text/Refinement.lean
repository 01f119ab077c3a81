import ArduinoK210.Lib.Run
import ArduinoK210.Text.Construct
import ArduinoK210.Text.Replace

/-! Every program of `String` operations does on values what it does in memory, one operation after another. -/

namespace ArduinoK210.Text

variable {lib : Library} {world : World} {id : Nat}

/-- The operation in memory and the one on values have the same result. -/
def Op.Agrees (lib : Library) (world : World) (op : Op) : Prop :=
  (op.run lib world).2.Sound ∧
    world.strings.call (op.fits lib world) (op.call world) = ((op.run lib world).1, (op.run lib world).2.strings)

section Step

variable {op : Op}

private theorem agrees_done {strings : Strings} {next : World} (leaves : Leaves strings next) (run : op.run lib world = (.done, next))
    (call : world.strings.call (op.fits lib world) (op.call world) = (.done, strings)) : op.Agrees lib world := by
  rw [Op.Agrees, call, run, leaves.2]
  exact ⟨leaves.1, rfl⟩

private theorem agrees_became {value : Value} {next : World} (sound : world.Sound) (living : world.Living id)
    (became : Became id value world next) (run : op.run lib world = (.done, next))
    (call : world.strings.call (op.fits lib world) (op.call world) = (.done, world.strings.put id value)) : op.Agrees lib world :=
  agrees_done (became.leaves sound living) run call

private theorem agrees_answered {expected : Bool × Value} {result : Bool × World} (sound : world.Sound) (living : world.Living id)
    (answered : Answered id expected world result) (run : op.run lib world = (.flag result.1, result.2))
    (call : world.strings.call (op.fits lib world) (op.call world) = (.flag expected.1, world.strings.put id expected.2)) :
    op.Agrees lib world := by
  have leaves := answered.2.leaves sound living
  rw [Op.Agrees, call, run, leaves.2, answered.1]
  exact ⟨leaves.1, rfl⟩

private theorem agrees_index {place : Int} (sound : world.Sound) (run : op.run lib world = (.index place, world))
    (call : world.strings.call (op.fits lib world) (op.call world) = (.index place, world.strings)) : op.Agrees lib world := by
  rw [Op.Agrees, call, run]
  exact ⟨sound, rfl⟩

/-- One case for each operation. -/
theorem Op.agrees (sound : world.Sound) (legal : op.Legal world) : op.Agrees lib world := by
  cases op with
  | construct id home text count => exact agrees_done (construct_leaves sound legal.1 legal.2.1 legal.2.2) rfl rfl
  | constructString id home other => exact agrees_done (constructString_leaves sound legal.1 legal.2) rfl rfl
  | constructMove id home other =>
    apply agrees_done (constructMove_leaves sound legal.1 legal.2) rfl
    rw [← strings_value legal.2]
    rfl
  | substring id home empty src first last =>
    apply agrees_done (substring_leaves sound legal.1 legal.2) rfl
    rw [← strings_value legal.2]
    rfl
  | destroy id => exact agrees_done (destroy_leaves lib sound legal) rfl rfl
  | assign id text count => exact agrees_became sound legal.1 (assign_became sound legal.1 legal.2.1 legal.2.2) rfl rfl
  | assignString id other =>
    by_cases same : id = other
    · exact agrees_done ⟨sound, rfl⟩ (congrArg (Prod.mk Answer.done) (if_pos same)) (congrArg (Prod.mk Answer.done) (if_pos same))
    · apply agrees_became sound legal.1 (assignString_became sound legal.1 legal.2 same) rfl
      rw [← strings_value legal.2]
      exact congrArg (Prod.mk Answer.done) (if_neg same)
  | assignMove id other =>
    by_cases same : id = other
    · exact agrees_done ⟨sound, rfl⟩ (congrArg (Prod.mk Answer.done) (if_pos same)) (congrArg (Prod.mk Answer.done) (if_pos same))
    · apply agrees_done (assignMove_leaves lib sound legal.1 legal.2 same) rfl
      rw [← strings_value legal.2]
      exact congrArg (Prod.mk Answer.done) (if_neg same)
  | concat id text count =>
    apply agrees_answered sound legal.1 (concat_answered sound legal.1 legal.2) rfl
    rw [← strings_value legal.1]
    rfl
  | concatChar id c =>
    apply agrees_answered sound legal (concatChar_answered sound legal c) rfl
    rw [← strings_value legal]
    rfl
  | concatString id other =>
    apply agrees_answered sound legal.1 (concatString_answered sound legal.1 legal.2) rfl
    rw [← strings_value legal.1]
    rfl
  | reserve id count =>
    apply agrees_answered sound legal.1 (reserve_answered sound legal.1 legal.2) rfl
    rw [← strings_value legal.1]
    rfl
  | replace id before after result stack =>
    obtain ⟨living, livingBefore, livingAfter, fresh⟩ := legal
    apply agrees_done (replace_leaves sound living livingBefore livingAfter fresh.1 fresh.2) rfl
    rw [← strings_value living, ← strings_value livingBefore, ← strings_value livingAfter]
    rfl
  | replaceChar id before after =>
    apply agrees_became sound legal (replaceChar_became sound legal before after) rfl
    rw [← strings_value legal]
    rfl
  | remove id first count =>
    apply agrees_became sound legal (remove_became sound legal first count) rfl
    rw [← strings_value legal]
    rfl
  | trim id =>
    apply agrees_became sound legal (trim_became sound legal) rfl
    rw [← strings_value legal]
    rfl
  | setCharAt id index c =>
    apply agrees_became sound legal (setCharAt_became sound legal index c) rfl
    rw [← strings_value legal]
    rfl
  | indexOfChar id c start =>
    apply agrees_index sound rfl
    rw [indexOfChar_eq, ← (sound.fine id legal).bytes, ← strings_value legal]
    rfl
  | indexOf id value start =>
    apply agrees_index sound rfl
    rw [indexOf_eq, ← (sound.fine id legal.1).bytes, ← (sound.fine value legal.2).bytes, ← strings_value legal.1,
      ← strings_value legal.2]
    rfl
  | lastIndexOfChar id c start =>
    apply agrees_index sound rfl
    rw [lastIndexOfChar_eq, ← (sound.fine id legal).bytes, ← strings_value legal]
    rfl
  | lastIndexOf id value start =>
    apply agrees_index sound rfl
    rw [lastIndexOf_eq, ← (sound.fine id legal.1).bytes, ← (sound.fine value legal.2).bytes, ← strings_value legal.1,
      ← strings_value legal.2]
    rfl
  | elsewhere next => exact agrees_done (legal.leaves sound) rfl rfl

end Step

section Failure

variable {op : Op}

private theorem put_value (living : world.Living id) : world.strings.put id (world.strings.value id) = world.strings := by
  rw [strings_value living, strings_put_self living]

private theorem concat_unfit (value text : Value) : value.concat false text = (false, value) := by
  cases text <;> rfl

private theorem replace_unfit (before after value : Value) : Value.replace false before after value = value := by
  unfold Value.replace
  split
  next => rfl
  next => cases Value.replaceAll before.bytes after value.bytes <;> rfl

/-- An operation that extends a `String` and does not get the memory says so and changes nothing. -/
theorem Op.Agrees.spared (agrees : op.Agrees lib world) (legal : op.Legal world) (unfit : op.fits lib world = false)
    (grows : op.grows = true) : (op.step lib world).strings = world.strings ∧ (op.run lib world).1 ≠ .flag true := by
  have same := agrees.2
  rw [unfit] at same
  cases op with
  | concat | concatString =>
    simp only [Op.call, Strings.call, concat_unfit, put_value legal.1, Prod.mk.injEq] at same
    exact ⟨same.2.symm, by rw [← same.1]; decide⟩
  | concatChar =>
    simp only [Op.call, Strings.call, concat_unfit, put_value legal, Prod.mk.injEq] at same
    exact ⟨same.2.symm, by rw [← same.1]; decide⟩
  | reserve id count =>
    simp only [Op.call, Strings.call, Value.reserve, Bool.false_and, Bool.false_eq_true, if_false, put_value legal.1,
      Prod.mk.injEq] at same
    exact ⟨same.2.symm, by rw [← same.1]; decide⟩
  | replace id before after result stack =>
    simp only [Op.call, Strings.call, replace_unfit, put_value legal.1, Prod.mk.injEq] at same
    exact ⟨same.2.symm, by rw [← same.1]; decide⟩
  | _ => cases grows

private theorem stored_unfit (value : Value) : Value.stored false value = none := by
  cases value <;> rfl

/-- An assignment that does not get the memory leaves an empty invalid `String`. -/
theorem Op.Agrees.emptied (agrees : op.Agrees lib world) (unfit : op.fits lib world = false) (assigned : op.assigned = some id) :
    (op.step lib world).strings = world.strings.put id none := by
  have same := agrees.2
  rw [unfit] at same
  cases op with
  | construct | constructString | substring | assign =>
    cases assigned
    simp only [Op.call, Strings.call, stored_unfit, Prod.mk.injEq] at same
    exact same.2.symm
  | assignString _ other =>
    cases assigned
    by_cases self : id = other
    · have idle : (Op.assignString id other).fits lib world = true := by
        simp only [Op.fits, Op.run, Text.assignString, if_pos self, beq_self_eq_true]
      rw [idle] at unfit
      cases unfit
    · simp only [Op.call, Strings.call, stored_unfit, if_neg self, Prod.mk.injEq] at same
      exact same.2.symm
  | _ => cases assigned

/-- A `String` without a value is empty and invalid. -/
theorem World.Sound.emptied (sound : world.Sound) (gone : world.strings id = some none) :
    (world.str id).valid = false ∧ (world.str id).size = 0 := by
  have living : world.Living id ∧ world.value id = none := Leaves.living ⟨sound, rfl⟩ gone
  have invalid : (world.str id).valid = false := by
    by_contra valid
    have some_ : world.value id = some _ := if_pos (Bool.not_eq_false _ ▸ valid)
    rw [living.2] at some_
    cases some_
  exact ⟨invalid, (sound.fine id living.1).invalid invalid⟩

end Failure

section Program

variable {ops : List Op}

private theorem Op.agrees_run (lib : Library) (sound : world.Sound) (guarded : Run.Guarded (Op.step lib) Op.Legal ops world) :
    (Run.run (Op.step lib) ops world).Sound := by
  have keeps : ∀ (op : Op) (now : World), now.Sound → op.Legal now → (op.step lib now).Sound :=
    fun op now sound legal => (Op.agrees sound legal).1
  exact guarded.invariant keeps sound

/-- By induction on the program. Each operation starts from what the one before it left. -/
theorem run_agrees (lib : Library) (sound : world.Sound) (guarded : Run.Guarded (Op.step lib) Op.Legal ops world) :
    world.strings.run (trace lib ops world) = (answers lib ops world, (Run.run (Op.step lib) ops world).strings) := by
  induction ops generalizing world with
  | nil => rfl
  | cons op ops ih =>
    obtain ⟨legal, rest⟩ := guarded
    obtain ⟨sound', same⟩ : op.Agrees lib world := Op.agrees sound legal
    have more := ih sound' rest
    change (op.run lib world).2.strings.run (trace lib ops (op.step lib world)) = _ at more
    rw [trace, Strings.run, same]
    dsimp only
    rw [more]
    rfl

/-- A program in memory is the same program on values, and what is in memory is well formed. A refused allocation costs an
operation that extends a `String` nothing but its success, and an assignment the text. -/
structure Refined (lib : Library) (ops : List Op) (world : World) : Prop where
  values : world.strings.run (trace lib ops world) = (answers lib ops world, (Run.run (Op.step lib) ops world).strings)
  formed : ∀ id, (Run.run (Op.step lib) ops world).Living id →
    ((Run.run (Op.step lib) ops world).str id).size ≤ ((Run.run (Op.step lib) ops world).str id).capacity ∧
      (Run.run (Op.step lib) ops world).mem
        (((Run.run (Op.step lib) ops world).str id).data + ((Run.run (Op.step lib) ops world).str id).size) = 0
  spared : ∀ op : Op, op.Legal (Run.run (Op.step lib) ops world) → op.fits lib (Run.run (Op.step lib) ops world) = false →
    op.grows = true → (op.step lib (Run.run (Op.step lib) ops world)).strings = (Run.run (Op.step lib) ops world).strings ∧
      (op.run lib (Run.run (Op.step lib) ops world)).1 ≠ .flag true
  emptied : ∀ (op : Op) (id : Nat), op.Legal (Run.run (Op.step lib) ops world) →
    op.fits lib (Run.run (Op.step lib) ops world) = false → op.assigned = some id →
      ((op.step lib (Run.run (Op.step lib) ops world)).str id).valid = false ∧
        ((op.step lib (Run.run (Op.step lib) ops world)).str id).size = 0

theorem string_refines (lib : Library) (world : World) (start : world.Start) (ops : List Op)
    (guarded : Run.Guarded (Op.step lib) Op.Legal ops world) : Refined lib ops world := by
  have sound : (Run.run (Op.step lib) ops world).Sound := Op.agrees_run lib start.sound guarded
  refine ⟨run_agrees lib start.sound guarded, fun id living => ?_, fun op legal unfit grows => ?_,
    fun op id legal unfit assigned => ?_⟩
  · exact ⟨(sound.fine id living).fits, (sound.fine id living).terminated⟩
  · exact (Op.agrees sound legal).spared legal unfit grows
  · have agrees : op.Agrees lib (Run.run (Op.step lib) ops world) := Op.agrees sound legal
    apply World.Sound.emptied agrees.1
    have left := agrees.emptied unfit assigned
    change (op.run lib (Run.run (Op.step lib) ops world)).2.strings = _ at left
    rw [left]
    exact Function.update_self ..

def bump (limit : Nat) : Library where
  malloc world _ := if world.asked < limit then some world.top else none
  junk _ _ := 170
  fresh world length base sound granted zone a low _ holds := by
    split at granted
    next =>
      cases granted
      exact absurd (sound.below zone a holds) (Nat.not_lt.mpr low)
    next => cases granted

def blank : World := ⟨fun _ => 0, fun _ => ⟨false, 0, 0, 0, 0, false⟩, fun _ => (0, 0), 0, 0, 0⟩

private theorem blank_free (zone : Zone) (a : Nat) : ¬blank.Holds zone a := by
  intro holds
  cases zone with
  | home id => exact Bool.false_ne_true holds.1
  | heap id => exact Bool.false_ne_true holds.1
  | foreign number => exact Nat.not_lt_zero a holds.2

private theorem blank_start : blank.Start :=
  ⟨fun _ => rfl, fun _ _ a holds => absurd holds (blank_free _ a), fun _ a holds => absurd holds (blank_free _ a)⟩

/-- A `String` appended to itself until its buffer moves to the heap, and then once more without the memory for it. -/
def doubling : List Op :=
  [.construct 0 100 none 0, .concatChar 0 97, .concatChar 0 98, .concatString 0 0, .concatString 0 0, .concatString 0 0,
    .concatString 0 0, .concatString 0 0, .indexOfChar 0 98 30]

theorem string_refines_doubling :
    blank.Start ∧ Run.Guarded (Op.step (bump 1)) Op.Legal doubling blank ∧ Refined (bump 1) doubling blank ∧
      answers (bump 1) doubling blank =
        [.done, .flag true, .flag true, .flag true, .flag true, .flag true, .flag true, .flag false, .index 31] := by
  have guarded : Run.Guarded (Op.step (bump 1)) Op.Legal doubling blank := by
    have fresh : blank.Fresh 0 100 := ⟨rfl, fun zone a _ _ => blank_free zone a⟩
    exact ⟨⟨fresh, Nat.zero_le _, fun start is => by cases is⟩, rfl, rfl, ⟨rfl, rfl⟩, ⟨rfl, rfl⟩, ⟨rfl, rfl⟩, ⟨rfl, rfl⟩,
      ⟨rfl, rfl⟩, rfl, trivial⟩
  exact ⟨blank_start, guarded, string_refines (bump 1) blank blank_start doubling guarded, by decide⟩

end Program

end ArduinoK210.Text
