import ArduinoK210.Text.Storage
import ArduinoK210.Text.Value

/-! New content for one `String`: every change in the storage, and texts that replace or extend what is there; and a `String` as the
text of an operation on another one, or on itself. -/

namespace ArduinoK210.Text

open Nor (put slice)

variable {lib : Library} {world after : World} {id : Nat}

/-- A change inside the storage that ends in a terminator. -/
theorem edit_wrote (sound : world.Sound) (alive : (world.str id).alive = true) {mem : Nat → UInt8} {size : Nat} {valid : Bool}
    {text : List UInt8} (fits : size ≤ (world.str id).capacity)
    (inside : ∀ a, a < (world.str id).data ∨ (world.str id).data + (world.str id).capacity < a → mem a = world.mem a)
    (terminated : mem ((world.str id).data + size) = 0) (flag : valid = false → size = 0)
    (content : slice mem (world.str id).data size = text) :
    Wrote id text valid world ({ world with mem }.set id { world.str id with size, valid }) := by
  have fine := sound.fine id alive
  have same : ({ world with mem }.set id { world.str id with size, valid }).str id = { world.str id with size, valid } :=
    Function.update_self ..
  refine ⟨Local.edit sound alive size valid fun a changed => ?_, ⟨?_, ?_, ?_, ?_, ?_⟩, ?_, by rw [same]⟩
  · by_contra outside
    exact changed (inside a (by omega))
  · rw [same]
    exact fits
  · rw [same]
    exact terminated
  · rw [same]
    exact fine.inline
  · rw [same]
    exact fine.small
  · rw [same]
    exact flag
  · rw [World.content, same]
    exact content

private theorem fill_wrote (sound : world.Sound) (alive : (world.str id).alive = true) (usable : (world.str id).valid = true) {start : Nat}
    {text : List UInt8} (inside : start ≤ (world.str id).size) (room : start + text.length ≤ (world.str id).capacity) :
    Wrote id ((world.content id).take start ++ text) true world (fill id start text world) := by
  have result : fill id start text world =
      { world with mem := put (put world.mem ((world.str id).data + start) text) ((world.str id).data + start + text.length) [0] }.set
        id { world.str id with size := start + text.length, valid := true } := by
    rw [← usable]
    rfl
  rw [result]
  apply edit_wrote sound alive room
  · intro a outside
    rw [Nor.put_outside _ _ _ _ (by simp only [List.length_singleton]; omega), Nor.put_outside _ _ _ _ (by omega)]
  · rw [← Nat.add_assoc]
    exact Nor.put_inside _ _ [0] 0 0 rfl
  · intro invalid
    cases invalid
  · rw [Memory.slice_put_apart _ (.inl (by omega)), Memory.slice_extend, World.content, Memory.slice_take _ _ inside]

@[simp] theorem fill_refused (id start : Nat) (text : List UInt8) (world : World) :
    (fill id start text world).refused = world.refused := rfl

/-- A text that an operation may read: it begins in the characters, or it is in one piece of live memory. -/
def World.Readable (world : World) (id text count : Nat) : Prop :=
  (world.str id).internal text = true ∨ ∃ zone, ∀ a, text ≤ a → a < text + count → world.Holds zone a

theorem Str.internal_iff {str : Str} {text : Nat} : str.internal text = true ↔ str.data ≤ text ∧ text ≤ str.data + str.size := by
  simp only [Str.internal, Bool.and_eq_true, decide_eq_true_eq]
  omega

/-- The text is the same when the room has been made, wherever it is by then. -/
theorem Reserved.source {room text count : Nat} (reserved : Reserved id room world after) (readable : world.Readable id text count)
    (clipped : (world.str id).internal text = true → text + count ≤ (world.str id).data + (world.str id).size)
    (slack : (world.str id).size + count ≤ (world.str id).capacity → room ≤ (world.str id).capacity) :
    source ((world.str id).internal text) text (if (world.str id).internal text then text - (world.str id).data else 0) count id after =
      slice world.mem text count := by
  unfold Text.source
  by_cases internal : (world.str id).internal text = true
  · have start := Str.internal_iff.mp internal
    have last := clipped internal
    have place : text = (world.str id).data + (text - (world.str id).data) := by omega
    have same : after.content id = world.content id := reserved.wrote.content
    have size : (after.str id).size = (world.str id).size := by
      rw [← content_length after, same, content_length]
    have window : text - (world.str id).data + count ≤ (after.str id).size := by omega
    rw [if_pos internal, if_pos internal, ← Memory.slice_window after.mem _ window]
    change ((after.content id).drop _).take count = _
    rw [same, World.content, Memory.slice_window world.mem _ (by omega), ← place]
  · rw [if_neg internal]
    obtain own | ⟨zone, holds⟩ := readable
    · exact absurd own internal
    · by_cases heap : zone = .heap id
      · by_cases nothing : count = 0
        · rw [nothing]
          rfl
        · have first := holds text (Nat.le_refl _) (by omega)
          have last := holds (text + count - 1) (by omega) (by omega)
          rw [heap] at first last
          have outside := mt Str.internal_iff.mpr internal
          have low := first.2.2.1
          have high := last.2.2.2
          rw [reserved.still (slack (by omega))]
      · apply Memory.slice_congr
        intro i inside
        exact reserved.kept zone _ heap (holds _ (Nat.le_add_right _ _) (by omega))

def World.value (world : World) (id : Nat) : Value := if (world.str id).valid then some (world.content id) else none

/-- One `String` has a new value. -/
def Became (id : Nat) (value : Value) (world after : World) : Prop := Wrote id value.bytes value.isSome world after

theorem World.Fine.bytes (fine : world.Fine id) : (world.value id).bytes = world.content id := by
  unfold World.value
  split
  next valid => rfl
  next invalid =>
    have empty : (world.str id).size = 0 := fine.invalid (Bool.not_eq_true _ ▸ invalid)
    exact (List.eq_nil_of_length_eq_zero ((content_length world id).trans empty)).symm

theorem Wrote.became {text : List UInt8} {valid : Bool} (wrote : Wrote id text valid world after) :
    Became id (if valid then some text else none) world after := by
  cases valid with
  | true => exact wrote
  | false =>
    have empty : (after.str id).size = 0 := wrote.fine.invalid wrote.flag
    have nothing : text = [] := by
      rw [← wrote.content]
      exact List.eq_nil_of_length_eq_zero ((content_length after id).trans empty)
    rw [nothing] at wrote
    exact wrote

theorem Became.value {value : Value} (became : Became id value world after) : after.value id = value := by
  unfold World.value
  rw [became.flag, became.content]
  cases value <;> rfl

theorem Became.refl (sound : world.Sound) (alive : (world.str id).alive = true) : Became id (world.value id) world world :=
  (Wrote.refl sound alive).became

private theorem Declined.became {count : Nat} (declined : Declined id count world after) : Became id (world.value id) world after :=
  declined.wrote.became

private theorem resetInvalid_became (sound : world.Sound) (alive : (world.str id).alive = true) :
    Became id none world (resetInvalid id world) := by
  have result : resetInvalid id world =
      { world with mem := put world.mem (world.str id).data [0] }.set id { world.str id with size := 0, valid := false } := by
    simp only [resetInvalid, clear, World.set, World.store, Function.update_self, Function.update_idem]
  rw [result]
  apply edit_wrote sound alive (Nat.zero_le _)
  · intro a outside
    exact Nor.put_outside _ _ _ _ (by simp only [List.length_singleton]; omega)
  · exact Nor.put_inside _ _ [0] 0 0 rfl
  · exact fun _ => rfl
  · rfl

/-- How much of a text `assign` takes: no more of its own characters than there are. -/
def Str.clip (str : Str) (text count : Nat) : Nat :=
  if str.internal text ∧ str.data + str.size < text + count then str.data + str.size - text else count

private theorem Str.clip_eq (str : Str) (text count : Nat) :
    (if str.internal text ∧ str.size - (if str.internal text then text - str.data else 0) < count
      then str.size - (if str.internal text then text - str.data else 0) else count) = str.clip text count := by
  unfold Str.clip
  by_cases internal : str.internal text = true
  · have start := Str.internal_iff.mp internal
    simp only [internal, if_true, true_and]
    split <;> split <;> omega
  · simp only [internal, false_and, if_false, Bool.false_eq_true]

theorem Str.clip_le (str : Str) (text count : Nat) : str.clip text count ≤ count := by
  unfold Str.clip
  split <;> omega

private theorem Str.clip_inside {str : Str} {text : Nat} (count : Nat) (internal : str.internal text = true) :
    text + str.clip text count ≤ str.data + str.size := by
  have start := Str.internal_iff.mp internal
  unfold Str.clip
  simp only [internal, true_and]
  split <;> omega

private theorem World.Readable.fewer {text count fewer : Nat} (readable : world.Readable id text count) (less : fewer ≤ count) :
    world.Readable id text fewer := by
  obtain internal | ⟨zone, holds⟩ := readable
  · exact .inl internal
  · exact .inr ⟨zone, fun a low high => holds a low (by omega)⟩

/-- The text that `assign` takes. -/
def World.text (world : World) (id text count : Nat) : List UInt8 := slice world.mem text ((world.str id).clip text count)

theorem stored_some {fits : Bool} {text : List UInt8} (enough : fits = true) (small : text.length < uintMax) :
    Value.stored fits (some text) = some text := by
  rw [Value.stored, Option.filter_some, if_pos (by rw [enough, decide_eq_true small, Bool.and_self])]

theorem stored_none {fits : Bool} {text : List UInt8} (failed : fits = true → uintMax ≤ text.length) :
    Value.stored fits (some text) = none := by
  rw [Value.stored, Option.filter_some, if_neg]
  intro both
  obtain ⟨enough, small⟩ := Bool.and_eq_true_iff.mp both
  exact absurd (of_decide_eq_true small) (Nat.not_lt.mpr (failed enough))

theorem assign_became (sound : world.Sound) (alive : (world.str id).alive = true) {text : Option Nat} {count : Nat}
    (bound : count ≤ uintMax) (readable : ∀ start, text = some start → world.Readable id start count) :
    Became id (Value.stored ((assign lib id text count world).refused == world.refused) (text.map (world.text id · count)))
      world (assign lib id text count world) := by
  cases text with
  | none => exact resetInvalid_became sound alive
  | some text =>
    have less : (world.str id).clip text count ≤ count := (world.str id).clip_le text count
    have readable : world.Readable id text ((world.str id).clip text count) := (readable text rfl).fewer less
    have inside (internal : (world.str id).internal text = true) : text + (world.str id).clip text count ≤ _ :=
      Str.clip_inside count internal
    rw [Option.map_some, World.text]
    unfold assign
    dsimp only
    rw [Str.clip_eq]
    generalize (world.str id).clip text count = fewer at *
    have length : (slice world.mem text fewer).length = fewer := Nor.slice_length ..
    have spec := reserve_spec lib sound alive (Nat.le_trans less bound)
    generalize reserve lib id fewer world = result at spec ⊢
    obtain ⟨ok, next⟩ := result
    cases ok with
    | false =>
      have declined : Declined id fewer world next := spec
      have alive' : (next.str id).alive = true := by rw [declined.str, alive]
      have reset : Became id none next (resetInvalid id next) := resetInvalid_became (declined.wrote.sound sound) alive'
      rw [stored_none fun same => by rw [length]; exact declined.why (beq_iff_eq.mp same)]
      exact reset.behind declined.wrote.moves
    | true =>
      have reserved : Reserved id fewer world next := spec
      have alive' : (next.str id).alive = true := reserved.wrote.moves.alive.trans alive
      have copied := reserved.source readable inside fun fits => by omega
      have room : 0 + (slice world.mem text fewer).length ≤ (next.str id).capacity := by
        rw [length, Nat.zero_add]
        exact reserved.room
      dsimp only
      rw [copied, fill_refused, stored_some (beq_iff_eq.mpr reserved.refused) (by rw [length]; exact reserved.small)]
      have filled : Became id (some (slice world.mem text fewer)) next (fill id 0 (slice world.mem text fewer) next) :=
        fill_wrote (reserved.wrote.sound sound) alive' reserved.wrote.flag (Nat.zero_le _) room
      exact filled.behind reserved.wrote.moves

/-- What an operation with a result says and leaves. -/
def Answered (id : Nat) (expected : Bool × Value) (world : World) (result : Bool × World) : Prop :=
  result.1 = expected.1 ∧ Became id expected.2 world result.2

theorem reserve_answered (sound : world.Sound) (alive : (world.str id).alive = true) {count : Nat} (bound : count ≤ uintMax) :
    Answered id ((world.value id).reserve ((reserve lib id count world).2.refused == world.refused) count) world
      (reserve lib id count world) := by
  have spec := reserve_spec lib sound alive bound
  generalize reserve lib id count world = result at spec ⊢
  obtain ⟨ok, next⟩ := result
  cases ok with
  | false =>
    have declined : Declined id count world next := spec
    have failed : ¬((next.refused == world.refused && decide (count < uintMax)) = true) := by
      intro both
      obtain ⟨enough, small⟩ := Bool.and_eq_true_iff.mp both
      exact absurd (of_decide_eq_true small) (Nat.not_lt.mpr (declined.why (beq_iff_eq.mp enough)))
    rw [Value.reserve, if_neg failed]
    exact ⟨rfl, declined.became⟩
  | true =>
    have reserved : Reserved id count world next := spec
    have enough : (next.refused == world.refused && decide (count < uintMax)) = true := by
      rw [beq_iff_eq.mpr reserved.refused, decide_eq_true reserved.small, Bool.and_self]
    rw [Value.reserve, if_pos enough, (sound.fine id alive).bytes]
    exact ⟨rfl, reserved.wrote⟩

/-- What `concat` appends is `text`, which it may read from the storage after the move. -/
theorem append_answered (sound : world.Sound) (alive : (world.str id).alive = true) {count : Nat} {text : List UInt8}
    {read : World → List UInt8} (size : text.length = count) (bound : (world.str id).size + count ≤ uintMax)
    (reads : ∀ next, Reserved id ((world.str id).size + count) world next → read next = text) :
    Answered id ((world.value id).concat ((append lib id count read world).2.refused == world.refused) (some text)) world
      (append lib id count read world) := by
  have length : (world.content id ++ text).length = (world.str id).size + count := by
    rw [List.length_append, content_length, size]
  have spec := reserve_spec lib sound alive bound
  rw [Value.concat, Option.map_some, (sound.fine id alive).bytes]
  unfold append
  generalize reserve lib id _ world = result at spec ⊢
  obtain ⟨ok, next⟩ := result
  cases ok with
  | false =>
    have declined : Declined id _ world next := spec
    dsimp only
    rw [stored_none fun same => by rw [length]; exact declined.why (beq_iff_eq.mp same)]
    exact ⟨rfl, declined.became⟩
  | true =>
    have reserved : Reserved id _ world next := spec
    have alive' : (next.str id).alive = true := reserved.wrote.moves.alive.trans alive
    have same : next.content id = world.content id := reserved.wrote.content
    have kept : (next.str id).size = (world.str id).size := by
      rw [← content_length next, same, content_length]
    dsimp only
    rw [reads next reserved, fill_refused,
      stored_some (beq_iff_eq.mpr reserved.refused) (by rw [length]; exact reserved.small)]
    have room : (next.str id).size + text.length ≤ (next.str id).capacity := by
      rw [kept, size]
      exact reserved.room
    have filled := fill_wrote (reserved.wrote.sound sound) alive' reserved.wrote.flag (Nat.le_refl _) room
    rw [List.take_of_length_le (Nat.le_of_eq (content_length next id)), same] at filled
    exact ⟨rfl, filled.behind reserved.wrote.moves⟩

/-- The text that `concat` takes. It does not take more of its own characters than there are. -/
def World.whole (world : World) (id text count : Nat) : Value :=
  if (world.str id).internal text ∧ (world.str id).data + (world.str id).size < text + count then none
  else some (slice world.mem text count)

theorem concat_answered (sound : world.Sound) (alive : (world.str id).alive = true) {text : Option Nat} {count : Nat}
    (readable : ∀ start, text = some start → world.Readable id start count) :
    Answered id ((world.value id).concat ((concat lib id text count world).2.refused == world.refused)
      (text.bind (world.whole id · count))) world (concat lib id text count world) := by
  cases text with
  | none => exact ⟨rfl, Became.refl sound alive⟩
  | some text =>
    have fits := (sound.fine id alive).fits
    have small := (sound.fine id alive).small
    have length : (slice world.mem text count).length = count := Nor.slice_length ..
    have unchanged : Became id (world.value id) world world := Became.refl sound alive
    rw [Option.bind_some, World.whole]
    unfold concat
    dsimp only
    by_cases long : uintMax - (world.str id).size - 1 < count
    · have refused (fits : Bool) (text : Value) (size : ∀ bytes, text = some bytes → bytes.length = count) :
          (world.value id).concat fits text = (false, world.value id) := by
        cases text with
        | none => rfl
        | some bytes =>
          rw [Value.concat, Option.map_some, (sound.fine id alive).bytes, stored_none]
          intro
          rw [List.length_append, content_length, size bytes rfl]
          omega
      rw [if_pos long, refused]
      · exact ⟨rfl, unchanged⟩
      · intro bytes taken
        split at taken
        · cases taken
        · cases taken
          exact length
    · rw [if_neg long]
      by_cases past : (world.str id).internal text = true ∧ (world.str id).data + (world.str id).size < text + count
      · have start := Str.internal_iff.mp past.1
        rw [if_pos past, if_pos ⟨past.1, by rw [if_pos past.1]; omega⟩]
        exact ⟨rfl, unchanged⟩
      · rw [if_neg past, if_neg]
        · have inside (internal : (world.str id).internal text = true) : text + count ≤ _ :=
            Nat.le_of_not_lt fun more => past ⟨internal, more⟩
          apply append_answered sound alive length (by omega)
          intro next reserved
          exact reserved.source (readable text rfl) inside fun enough => enough
        · rintro ⟨internal, more⟩
          have start := Str.internal_iff.mp internal
          rw [if_pos internal] at more
          exact past ⟨internal, by omega⟩

variable {lib : Library} {world : World} {id other : Nat}

theorem World.Sound.strings_apart (sound : world.Sound) (alive : (world.str id).alive = true)
    (alive' : (world.str other).alive = true) (different : id ≠ other) :
    (world.str other).data < (world.str id).data ∨
      (world.str id).data + (world.str id).capacity < (world.str other).data := by
  by_contra inside
  obtain ⟨zone, own, holds⟩ := sound.storage alive'
  have first : world.Holds zone (world.str other).data := holds _ (Nat.le_refl _) (by omega)
  have mine : zone.Of id := sound.storage_only alive (by omega) (by omega) first
  exact different (mine.unique own)

private theorem World.Sound.internal_iff (sound : world.Sound) (alive : (world.str id).alive = true)
    (alive' : (world.str other).alive = true) : (world.str id).internal (world.str other).data = true ↔ id = other := by
  rw [Str.internal_iff]
  constructor
  · intro inside
    by_contra different
    have fits := (sound.fine id alive).fits
    have apart := sound.strings_apart alive alive' different
    omega
  · rintro rfl
    omega

theorem World.Sound.operand (sound : world.Sound) (alive : (world.str id).alive = true) (alive' : (world.str other).alive = true) :
    (∀ start, cStr other world = some start → world.Readable id start (world.str other).size) ∧
      (cStr other world).map (world.text id · (world.str other).size) = world.value other ∧
      (cStr other world).bind (world.whole id · (world.str other).size) = world.value other := by
  have inside : ¬((world.str id).internal (world.str other).data = true ∧
      (world.str id).data + (world.str id).size < (world.str other).data + (world.str other).size) := by
    rintro ⟨internal, more⟩
    obtain rfl := (sound.internal_iff alive alive').mp internal
    omega
  have readable : world.Readable id (world.str other).data (world.str other).size := by
    obtain ⟨zone, _, holds⟩ := sound.storage alive'
    have fits := (sound.fine other alive').fits
    exact .inr ⟨zone, fun a low high => holds a low (by omega)⟩
  unfold cStr World.value
  by_cases valid : (world.str other).valid = true
  · simp only [valid, if_true, Option.map_some, Option.bind_some, World.text, World.whole, Str.clip, if_neg inside]
    refine ⟨fun start same => ?_, rfl, rfl⟩
    cases same
    exact readable
  · simp only [valid, if_false, Bool.false_eq_true, Option.map_none, Option.bind_none, and_self, and_true]
    intro start same
    cases same

theorem concatString_answered (sound : world.Sound) (alive : (world.str id).alive = true)
    (alive' : (world.str other).alive = true) :
    Answered id ((world.value id).concat ((concatString lib id other world).2.refused == world.refused) (world.value other)) world
      (concatString lib id other world) := by
  obtain ⟨readable, -, value⟩ := sound.operand alive alive'
  have answered : Answered id _ world (concatString lib id other world) := concat_answered sound alive readable
  rw [value] at answered
  exact answered

theorem concatChar_answered (sound : world.Sound) (alive : (world.str id).alive = true) (c : UInt8) :
    Answered id ((world.value id).concat ((concatChar lib id c world).2.refused == world.refused) (some [c])) world
      (concatChar lib id c world) := by
  have fits := (sound.fine id alive).fits
  have small := (sound.fine id alive).small
  unfold concatChar
  by_cases long : uintMax - (world.str id).size - 1 < 1
  · rw [if_pos long, Value.concat, Option.map_some, (sound.fine id alive).bytes, stored_none]
    · exact ⟨rfl, Became.refl sound alive⟩
    · intro
      rw [List.length_append, content_length, List.length_singleton]
      omega
  · rw [if_neg long]
    exact append_answered sound alive rfl (by omega) fun _ _ => rfl

theorem assignString_became (sound : world.Sound) (alive : (world.str id).alive = true) (alive' : (world.str other).alive = true)
    (different : id ≠ other) :
    Became id (Value.stored ((assignString lib id other world).refused == world.refused) (world.value other)) world
      (assignString lib id other world) := by
  obtain ⟨readable, value, -⟩ := sound.operand alive alive'
  have bound : (world.str other).size ≤ uintMax :=
    Nat.le_of_lt (Nat.lt_of_le_of_lt (sound.fine other alive').fits (sound.fine other alive').small)
  rw [assignString, if_neg different, ← value]
  exact assign_became sound alive bound readable

end ArduinoK210.Text
