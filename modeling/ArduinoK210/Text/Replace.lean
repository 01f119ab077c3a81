import ArduinoK210.Text.Lifetime
import ArduinoK210.Text.Search

/-! `replace`. It builds the new text in a `String` of its own and takes that over when it is complete. -/

namespace ArduinoK210.Text

variable {lib : Library} {world next : World} {id before after result : Nat}

/-- What the loop reads, none of which is what it writes. -/
structure Reading (id before after result : Nat) (text pattern : List UInt8) (insert : Value) (world : World) : Prop where
  sound : world.Sound
  alive : ∀ j, j = id ∨ j = before ∨ j = after ∨ j = result → (world.str j).alive = true
  apart : id ≠ result ∧ before ≠ result ∧ after ≠ result
  usable : (world.str result).valid = true
  text : world.content id = text
  pattern : world.content before = pattern
  insert : world.value after = insert

variable {text pattern bytes : List UInt8} {insert : Value}

private theorem Reading.keeps (reading : Reading id before after result text pattern insert world)
    (became : Became result (some bytes) world next) : Reading id before after result text pattern insert next := by
  have kept {j : Nat} (different : j ≠ result) (alive : (world.str j).alive = true) :=
    Local.fine reading.sound became.moves different alive
  have same : next.value after = world.value after := by
    have content := (kept reading.apart.2.2 (reading.alive after (by simp))).2
    unfold World.value
    rw [became.moves.others after reading.apart.2.2, content]
  refine ⟨Wrote.sound became reading.sound, fun j one => ?_, reading.apart, became.flag, ?_, ?_, same.trans reading.insert⟩
  · by_cases mine : j = result
    · rw [mine]
      exact became.moves.alive.trans (reading.alive result (by simp))
    · rw [became.moves.others j mine]
      exact reading.alive j one
  · exact (kept reading.apart.1 (reading.alive id (by simp))).2.trans reading.text
  · exact (kept reading.apart.2.1 (reading.alive before (by simp))).2.trans reading.pattern

/-- What the loop has when it ends: all of the expected text, or a reason why there is none. -/
def Built (result : Nat) (expected : Value) (world : World) (outcome : Bool × World) : Prop :=
  outcome.1 = expected.isSome ∧ ∃ value, Became result value world outcome.2 ∧ (expected.isSome = true → value = expected)

private theorem stored_isSome {fits : Bool} {value : Value} (is : (Value.stored fits value).isSome = true) :
    fits = true ∧ Value.stored fits value = value := by
  cases value with
  | none => cases is
  | some text =>
    unfold Value.stored at is ⊢
    rw [Option.filter_some] at is ⊢
    split at is
    next both =>
      rw [if_pos both]
      exact ⟨(Bool.and_eq_true_iff.mp both).1, rfl⟩
    next => cases is

theorem stored_append {fits : Bool} {text rest : List UInt8} (none_ : Value.stored fits (some text) = none) :
    Value.stored fits (some (text ++ rest)) = none := by
  apply stored_none
  intro enough
  by_contra small
  rw [stored_some enough] at none_
  · cases none_
  · rw [List.length_append] at small
    omega

private theorem concat_fails {fits : Bool} {value text : Value} (failed : (value.concat fits text).1 = false) :
    Value.stored fits (text.map (value.bytes ++ ·)) = none := by
  unfold Value.concat at failed
  split at failed
  next none_ => exact none_
  next => cases failed

private theorem concat_works {fits : Bool} {value text : Value} (worked : (value.concat fits text).1 = true) :
    ∃ bytes, text = some bytes ∧ fits = true ∧ (value.concat fits text).2 = some (value.bytes ++ bytes) := by
  unfold Value.concat at worked ⊢
  split at worked
  next => cases worked
  next longer kept =>
    obtain ⟨enough, same⟩ := stored_isSome (by rw [kept]; rfl)
    cases text with
    | none => cases kept
    | some bytes => exact ⟨bytes, rfl, enough, kept.symm.trans same⟩

def onward (loop : World → Bool × World) : Bool × World → Bool × World
  | (false, world) => (false, world)
  | (true, world) => loop world

theorem Built.concat {piece rest : Value} {step : Bool × World} (loop : World → Bool × World)
    (answered : Answered result ((world.value result).concat (step.2.refused == world.refused) piece) world step)
    (more : ∀ bytes, Became result (some ((world.value result).bytes ++ bytes)) world step.2 → step.2.refused = world.refused →
      Built result (Value.stored ((loop step.2).2.refused == step.2.refused) (rest.map (((world.value result).bytes ++ bytes) ++ ·)))
        step.2 (loop step.2)) :
    Built result (Value.stored ((onward loop step).2.refused == world.refused)
      ((piece.bind fun bytes => rest.map (bytes ++ ·)).map ((world.value result).bytes ++ ·))) world (onward loop step) := by
  obtain ⟨ok, now⟩ := step
  obtain ⟨told, became⟩ := answered
  cases ok with
  | false =>
    have nothing := concat_fails told.symm
    have whole : Value.stored (now.refused == world.refused)
        ((piece.bind fun bytes => rest.map (bytes ++ ·)).map ((world.value result).bytes ++ ·)) = none := by
      cases piece with
      | none => rfl
      | some bytes =>
        cases rest with
        | none => rfl
        | some rest =>
          rw [Option.bind_some, Option.map_some, Option.map_some, ← List.append_assoc]
          exact stored_append nothing
    rw [onward, whole]
    exact ⟨rfl, _, became, fun is => Bool.noConfusion is⟩
  | true =>
    obtain ⟨bytes, rfl, enough, longer⟩ := concat_works told.symm
    rw [longer] at became
    have same : now.refused = world.refused := beq_iff_eq.mp enough
    obtain ⟨told', value, became', is⟩ := more bytes became same
    dsimp only at told' became' is ⊢
    rw [same] at told' is
    have assoc : (Option.bind (some bytes) fun bytes => rest.map (bytes ++ ·)).map ((world.value result).bytes ++ ·) =
        rest.map (((world.value result).bytes ++ bytes) ++ ·) := by
      rw [Option.bind_some, Option.map_map]
      congr 1
      funext rest
      exact (List.append_assoc ..).symm
    rw [assoc]
    exact ⟨told', value, became'.behind became.moves, is⟩

private theorem replaceAll_occurrence {c : UInt8} {rest : List UInt8} (here : pattern.isPrefixOf (c :: rest) = true) :
    Value.replaceAll pattern insert (c :: rest) =
      insert.bind fun bytes => (Value.replaceAll pattern insert (rest.drop (pattern.length - 1))).map (bytes ++ ·) := by
  rw [Value.replaceAll, if_pos here]

private theorem replaceAll_other {c : UInt8} {rest : List UInt8} (here : ¬pattern.isPrefixOf (c :: rest) = true) :
    Value.replaceAll pattern insert (c :: rest) =
      (some [c]).bind fun bytes => (Value.replaceAll pattern insert rest).map (bytes ++ ·) := by
  rw [Value.replaceAll, if_neg here]
  rfl

theorem Built.done (reading : Reading id before after result text pattern insert world) :
    Built result (Value.stored (world.refused == world.refused) ((some []).map ((world.value result).bytes ++ ·))) world
      (true, world) := by
  have alive := reading.alive result (by simp)
  have fine := reading.sound.fine result alive
  have value : world.value result = some (world.content result) := if_pos reading.usable
  have small : (world.content result).length < uintMax := by
    rw [content_length]
    exact Nat.lt_of_le_of_lt fine.fits fine.small
  rw [fine.bytes, Option.map_some, List.append_nil, stored_some (beq_self_eq_true _) small]
  exact ⟨rfl, _, Became.refl reading.sound alive, fun _ => value⟩

/-- By induction on what is left of the text. -/
theorem replaceLoop_built {width : Nat} (length : pattern.length = width + 1) : ∀ (left pos : Nat) {world : World},
    text.length - pos < left → Reading id before after result text pattern insert world →
    Built result (Value.stored ((replaceLoop lib id before after result text.length width pos world).2.refused == world.refused)
      ((Value.replaceAll pattern insert (text.drop pos)).map ((world.value result).bytes ++ ·))) world
      (replaceLoop lib id before after result text.length width pos world) := by
  intro left
  induction left with
  | zero => exact fun pos world more _ => absurd more (Nat.not_lt_zero _)
  | succ left ih =>
    intro pos world more reading
    have alive := reading.alive result (by simp)
    have alive' := reading.alive after (by simp)
    by_cases inside : pos < text.length
    · have starts := startsWith_eq world id before pos
      have size : (world.str id).size = text.length := by rw [← content_length, reading.text]
      have here : world.mem ((world.str id).data + pos) = text[pos] := by
        have found := Nor.slice_getElem? world.mem (world.str id).data (world.str id).size pos
        change (world.content id)[pos]? = _ at found
        rw [if_pos (by omega), reading.text, List.getElem?_eq_getElem inside] at found
        exact (Option.some.inj found).symm
      rw [size, reading.text, reading.pattern, decide_eq_true (Nat.le_of_lt inside), Bool.true_and] at starts
      rw [replaceLoop, if_pos inside, starts, here]
      rw [List.drop_eq_getElem_cons inside] at starts ⊢
      -- The rest of the loop goes on from what the `concat` left.
      have step (width : Nat) (bytes : List UInt8) {now : World}
          (became : Became result (some ((world.value result).bytes ++ bytes)) world now) :=
        ih (pos + (width + 1)) (by omega) (reading.keeps became)
      by_cases occurs : pattern.isPrefixOf (text[pos] :: text.drop (pos + 1)) = true
      · rw [if_pos occurs, replaceAll_occurrence occurs, List.drop_drop, length, Nat.add_sub_cancel,
          Nat.add_assoc, Nat.add_comm 1 width]
        have answered : Answered result _ world (concatString lib result after world) :=
          concatString_answered reading.sound alive alive'
        rw [reading.insert] at answered
        refine Built.concat (replaceLoop lib id before after result text.length width (pos + (width + 1))) answered ?_
        intro bytes became same
        have rest := step width bytes became
        rw [became.value] at rest
        exact rest
      · rw [if_neg occurs, replaceAll_other occurs]
        refine Built.concat (replaceLoop lib id before after result text.length width (pos + 1))
          (concatChar_answered reading.sound alive text[pos]) ?_
        intro bytes became same
        have rest := step 0 bytes became
        rw [became.value] at rest
        exact rest
    · rw [replaceLoop, if_neg inside, List.drop_eq_nil_of_le (Nat.le_of_not_lt inside), Value.replaceAll]
      exact Built.done reading

variable {stack : Nat}

theorem Reading.initial (sound : world.Sound) (alive : (world.str id).alive = true) (aliveBefore : (world.str before).alive = true)
    (aliveAfter : (world.str after).alive = true) (dead : (world.str result).alive = false) (free : world.Free stack localSize) :
    Reading id before after result (world.value id).bytes (world.value before).bytes (world.value after)
      (create result stack world) := by
  have leaves : Leaves (world.strings.put result (some [])) (create result stack world) := create_leaves sound free
  have apart {j : Nat} (living : (world.str j).alive = true) : j ≠ result := by
    rintro rfl
    rw [dead] at living
    exact Bool.false_ne_true living
  have kept {j : Nat} (living : (world.str j).alive = true) :
      ((create result stack world).str j).alive = true ∧ (create result stack world).value j = world.value j := by
    apply leaves.living
    rw [Strings.put, Function.update_of_ne (apart living), strings_alive living]
  have content {j : Nat} (living : (world.str j).alive = true) :
      (create result stack world).content j = (world.value j).bytes := by
    rw [← (leaves.1.fine j (kept living).1).bytes, (kept living).2]
  refine ⟨leaves.1, fun j one => ?_, ⟨apart alive, apart aliveBefore, apart aliveAfter⟩, by rw [create_str], content alive,
    content aliveBefore, (kept aliveAfter).2⟩
  rcases one with rfl | rfl | rfl | rfl
  · exact (kept alive).1
  · exact (kept aliveBefore).1
  · exact (kept aliveAfter).1
  · rw [create_str]

/-- A `String` that has come and gone leaves no trace. -/
theorem put_update (strings : Strings) (gone : strings result = none) (value value' : Value) :
    Function.update ((strings.put result value).put result value') result none = strings := by
  rw [Strings.put, Function.update_idem, Strings.put, Function.update_idem, ← gone, Function.update_eq_self]

/-- The end of `replace`, which gives the result up or takes it over. -/
def conclude (lib : Library) (id result : Nat) : Bool × World → World
  | (false, world) => destroy lib result world
  | (true, world) => destroy lib result (assignMove lib id result world)

private theorem conclude_refused (different : id ≠ result) (outcome : Bool × World) :
    (conclude lib id result outcome).refused = outcome.2.refused := by
  obtain ⟨ok, world⟩ := outcome
  cases ok with
  | false => exact destroy_refused lib result world
  | true => exact (destroy_refused lib result _).trans (assignMove_refused lib different world)

private theorem replace_end {strings : Strings} {expected : Value} {created : World} {outcome : Bool × World}
    (made : Leaves (strings.put result (some [])) created) (built : Built result expected created outcome) (gone : strings result = none)
    (different : id ≠ result) {old : Value} (was : strings id = some old) :
    Leaves (strings.put id (expected.or old)) (conclude lib id result outcome) := by
  obtain ⟨ok, looped⟩ := outcome
  obtain ⟨told, value, became, is⟩ := built
  have own : (created.str result).alive = true := (made.living (Function.update_self ..)).1
  have ended : Leaves ((strings.put result (some [])).put result value) looped := by
    have leaves := became.leaves made.1 own
    rw [made.2] at leaves
    exact leaves
  have living : (looped.str result).alive = true ∧ looped.value result = value := ended.living (Function.update_self ..)
  have livingId : (looped.str id).alive = true ∧ looped.value id = old := by
    apply ended.living
    rw [Strings.put, Function.update_of_ne different, Strings.put, Function.update_of_ne different, was]
  cases ok with
  | false =>
    have nothing : expected = none := Option.isSome_eq_false_iff.mp told.symm |> Option.isNone_iff_eq_none.mp
    have destroyed := destroy_leaves lib ended.1 living.1
    rw [ended.2, put_update strings gone] at destroyed
    have same : strings.put id old = strings := by rw [Strings.put, ← was, Function.update_eq_self]
    rw [nothing, Option.none_or, same]
    exact destroyed
  | true =>
    obtain ⟨text, rfl⟩ := Option.isSome_iff_exists.mp told.symm
    have moved := assignMove_leaves lib ended.1 livingId.1 living.1 different
    have living' := moved.living (Function.update_self ..)
    have destroyed := destroy_leaves lib moved.1 living'.1
    rw [moved.2, living.2, is rfl, ended.2] at destroyed
    rw [Option.some_or]
    refine ⟨destroyed.1, destroyed.2.trans (funext fun j => ?_)⟩
    unfold Strings.put
    by_cases mine : j = result
    · rw [mine, Function.update_self, Function.update_of_ne different.symm, gone]
    · by_cases its : j = id
      · rw [its, Function.update_of_ne different, Function.update_of_ne different, Function.update_self, Function.update_self]
      · simp only [Function.update_of_ne mine, Function.update_of_ne its]

private theorem replace_or {fits : Bool} {before after value : Value} (nonempty : before.bytes ≠ []) :
    Value.replace fits before after value = (Value.stored fits (Value.replaceAll before.bytes after value.bytes)).or value := by
  rw [Value.replace, if_neg nonempty]
  cases Value.stored fits (Value.replaceAll before.bytes after value.bytes) <;> rfl

theorem replace_leaves (sound : world.Sound) (alive : (world.str id).alive = true) (aliveBefore : (world.str before).alive = true)
    (aliveAfter : (world.str after).alive = true) (dead : (world.str result).alive = false) (free : world.Free stack localSize) :
    Leaves (world.strings.put id (Value.replace ((replace lib id before after result stack world).refused == world.refused)
      (world.value before) (world.value after) (world.value id))) (replace lib id before after result stack world) := by
  have pattern : (world.value before).bytes.length = (world.str before).size := by
    rw [(sound.fine before aliveBefore).bytes, content_length]
  have gone : world.strings result = none := if_neg (by rw [dead]; exact Bool.false_ne_true)
  cases width : (world.str before).size with
  | zero =>
    have empty : (world.value before).bytes = [] := List.eq_nil_of_length_eq_zero (pattern.trans width)
    have unchanged : replace lib id before after result stack world = world := by
      unfold replace
      rw [width]
    rw [unchanged, Value.replace, if_pos empty, strings_put_self alive]
    exact ⟨sound, rfl⟩
  | succ width' =>
    have nonempty : (world.value before).bytes ≠ [] := fun empty => by
      rw [empty, width] at pattern
      cases pattern
    have text : (world.value id).bytes.length = (world.str id).size := by
      rw [(sound.fine id alive).bytes, content_length]
    have reading := Reading.initial sound alive aliveBefore aliveAfter dead free
    have created : Leaves (world.strings.put result (some [])) (create result stack world) := create_leaves sound free
    have start : (create result stack world).value result = some [] := (created.living (Function.update_self ..)).2
    have looped : replace lib id before after result stack world = conclude lib id result
        (replaceLoop lib id before after result (world.str id).size width' 0 (create result stack world)) := by
      unfold replace
      rw [width]
      rfl
    have built : Built result _ (create result stack world)
        (replaceLoop lib id before after result (world.value id).bytes.length width' 0 (create result stack world)) :=
      replaceLoop_built (pattern.trans width) _ 0 (Nat.lt_succ_self _) reading
    have same : (Value.replaceAll (world.value before).bytes (world.value after) (world.value id).bytes).map
        (Value.bytes (some []) ++ ·) = Value.replaceAll (world.value before).bytes (world.value after) (world.value id).bytes :=
      Option.map_id'
    rw [start, text, List.drop_zero, same] at built
    rw [looped, conclude_refused reading.apart.1, replace_or nonempty]
    exact replace_end created built gone reading.apart.1 (strings_alive alive)

end ArduinoK210.Text
