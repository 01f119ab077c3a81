import ArduinoK210.Kpu.Loading
import ArduinoK210.Kpu.RegionLayer
import ArduinoK210.Lib.Run

/-! Whole runs of constructions, loads, `begin`, `end` and destructions. Each call keeps every block owned under a
condition on the object it finds. -/

namespace ArduinoK210.Kpu
open Heap

variable {id : Nat} {owned : Owned} {rest : Slot → Option (Nat × Allocator)} {frame : Frame} {field : Field}

/-- What a call needs of the world. -/
def Call.Ok : Call → World → Prop
  | .construct .., _ | .allocate .., _ | .discard _, _ => True
  | .loadBuffer id own model, world => world.objects id ≠ none → world.caller own ≠ none → model.header.Ok
  | .loadFile id file, world => world.objects id ≠ none → file.Reads → file.model.header.Ok
  | .loadFlash id flash, world => world.objects id ≠ none → flash.Reads → flash.model.header.Ok
  | .begin id anchors, world => ∀ this, world.objects id = some this → this.yolo = true → anchors.Ok this
  | .end id, world =>
      ∀ this, world.objects id = some this → if this.yolo then this.LayerEndable else this.Endable
  | .destroy id, world =>
      ∀ this, world.objects id = some this → (this.yolo = true → this.LayerEndable) ∧ this.Endable

namespace World

variable {world : World} {this : Object}

private theorem sound_start : start.Sound := by
  refine ⟨?_, ?_⟩
  · have empty : start.slots = fun _ => none := by
      funext slot
      cases slot <;> rfl
    rw [empty]
    exact Tidy.empty
  · intro id this impossible
    cases impossible

private theorem slots_store (world : World) (id : Nat) (frame : Frame) :
    (world.store id frame).slots = around id frame.this.slot world.slots := by
  apply eq_around
  · intro field
    simp [slots, store]
  · intro other field away
    simp [slots, store, away]
  · rfl
  · exact fun own => rfl

private theorem slots_around (found : world.objects id = some this) : around id this.slot world.slots = world.slots := by
  symm
  apply eq_around
  · intro field
    simp [slots, found]
  · exact fun other field away => rfl
  · rfl
  · exact fun own => rfl

private theorem Sound.enter (sound : world.Sound) (found : world.objects id = some this) : Frame.Sound id world.slots ⟨this, world.heap⟩ := by
  refine ⟨?_, sound.agrees id this found⟩
  rw [slots_around found]
  exact sound.tidy

private theorem Sound.place (sound : world.Sound) {frame : Frame} {caller : Nat → Option Nat}
    (tidy : Tidy frame.heap { world.store id frame with caller }.slots) (agrees : frame.this.Agrees) :
    World.Sound { world.store id frame with caller } := by
  refine ⟨tidy, ?_⟩
  intro other one found
  by_cases same : other = id
  · subst same
    have here : some frame.this = some one := (Function.update_self other _ world.objects).symm.trans found
    cases here
    exact agrees
  · exact sound.agrees other one ((Function.update_of_ne same _ _).symm.trans found)

private theorem Sound.store (sound : world.Sound) (framed : frame.Sound id world.slots) : (world.store id frame).Sound := by
  have tidy := framed.tidy
  rw [← slots_store] at tidy
  exact sound.place tidy framed.agrees

private theorem Sound.call (sound : world.Sound) (id : Nat) {method : Frame → Frame}
    (keeps : ∀ this, world.objects id = some this → Frame.Sound id world.slots ⟨this, world.heap⟩ →
      (method ⟨this, world.heap⟩).Sound id world.slots) : (world.call id method).Sound := by
  unfold World.call
  split
  · exact sound
  · next this found => exact sound.store (keeps this found (sound.enter found))

private theorem slots_caller (world : World) (own : Nat) (given : Option Nat) :
    { world with caller := Function.update world.caller own given }.slots =
      Function.update world.slots (.caller own) (given.map fun number => (number, .align)) := by
  funext slot
  cases slot with
  | caller other =>
    by_cases same : other = own
    · subst same
      simp [slots]
    · simp [slots, same]
  | held => rfl
  | field id field => rfl

private theorem around_none (missing : world.objects id = none) : around id (fun _ => none) world.slots = world.slots := by
  symm
  apply eq_around
  · intro field
    simp [slots, missing]
  · exact fun other field away => rfl
  · rfl
  · exact fun own => rfl

private theorem construct_sound (sound : world.Sound) (missing : world.objects id = none) (yolo : Bool) (zero : Field → Bool) :
    (world.store id ⟨.constructed yolo zero, world.heap⟩).Sound := by
  have nothing : ∀ (kind : Allocator) (field : Field), ((Object.constructed yolo zero).pointer field).owned kind = none := by
    intro kind field
    simp only [Object.constructed]
    split <;> rfl
  have bare : (Object.constructed yolo zero).slot = fun _ => none := by
    funext field
    rw [Object.slot, nothing, ite_self]
  apply sound.store
  constructor
  · rw [bare, around_none missing]
    exact sound.tidy
  · have unbegun : (Object.constructed yolo zero).begun = false := by rw [Object.begun, nothing]; rfl
    constructor
    · intro loaded
      cases loaded
    · intro loaded
      cases loaded
    · intro loaded
      cases loaded
    · intro loaded
      cases loaded
    · intro begun
      cases unbegun.symm.trans begun

/-- An object whose frame owns nothing leaves nothing behind. -/
theorem Sound.remove (sound : world.Sound) {heap : Store Allocator} (tidy : Tidy heap (around id (fun _ => none) world.slots)) :
    World.Sound { world with heap, objects := Function.update world.objects id none } := by
  have same : World.slots { world with heap, objects := Function.update world.objects id none } =
      around id (fun _ => none) world.slots := by
    apply eq_around
    · intro field
      simp [slots]
    · intro other field away
      simp [slots, away]
    · rfl
    · exact fun own => rfl
  refine ⟨?_, ?_⟩
  · rw [same]
    exact tidy
  · intro other this found
    by_cases here : other = id
    · subst here
      cases (Function.update_self other none world.objects).symm.trans found
    · exact sound.agrees other this ((Function.update_of_ne here _ _).symm.trans found)

private theorem destroyed_sound (sound : frame.Sound id rest)
    (endable : (frame.this.yolo = true → frame.this.LayerEndable) ∧ frame.this.Endable) :
    Tidy frame.destroyed.heap (around id (fun _ => none) rest) := by
  let bare := if frame.this.yolo then frame.yoloEnd else frame
  have first : bare.Sound id rest ∧ bare.this.Endable ∧ ∀ field : Field, field.inLayer = true → bare.this.slot field = none := by
    cases yolo : frame.this.yolo with
    | true =>
      simp only [bare, yolo, ↓reduceIte]
      have ended := sound.yoloEnd yolo (endable.1 yolo)
      refine ⟨ended, ?_, fun field inLayer => Frame.slot_unbegun frame.yoloEnd_unbegun inLayer⟩
      rw [Object.Endable, frame.yoloEnd_keeps.load, frame.yoloEnd_keeps.pointer .buffer rfl]
      exact endable.2
    | false =>
      simp only [bare, yolo, Bool.false_eq_true, ↓reduceIte]
      refine ⟨sound, endable.2, fun field inLayer => ?_⟩
      cases field <;> simp [Field.inLayer] at inLayer <;> simp [Object.slot, Object.owns, yolo]
  have last := first.1.baseEnd first.2.1
  have nothing : bare.baseEnd.this.slot = fun _ => none := by
    rw [Object.slot_unloaded bare.baseEnd_keeps bare.baseEnd_load]
    funext field
    unfold Owned.onlyLayer
    split
    · next inLayer => exact first.2.2 field inLayer
    · rfl
  have tidy := last.tidy
  rw [nothing] at tidy
  exact tidy

private theorem loadBuffer_sound (sound : world.Sound) (id own : Nat) {model : Model}
    (ok : world.objects id ≠ none → world.caller own ≠ none → model.header.Ok) : (world.loadBuffer id own model).Sound := by
  unfold loadBuffer
  split
  · next this buffer found held =>
    have free : Slot.Free (.caller own) := trivial
    have owner : world.slots (.caller own) = some (buffer, .align) := by simp [slots, held]
    have handed := (sound.enter found).loadKmodel free owner (ok (by simp [found]) (by simp [held]))
    dsimp only
    split
    · next done =>
      rw [Frame.Handed, if_pos done] at handed
      apply sound.place ?_ handed.agrees
      have slots := slots_caller (world.store id (Frame.loadKmodel buffer model ⟨this, world.heap⟩).1) own none
      rw [slots_store, around_rest_update free, Option.map_none] at slots
      have tidy := handed.tidy
      rw [← slots] at tidy
      exact tidy
    · next failed =>
      rw [Frame.Handed, if_neg failed] at handed
      exact sound.store handed
  · exact sound

theorem allocate_sound (sound : world.Sound) (own : Nat) (granted : Bool) : (step (.allocate own granted) world).Sound := by
  unfold step
  dsimp only
  split
  · next given =>
    refine ⟨?_, sound.agrees⟩
    have vacant : world.slots (.caller own) = none := by simp [World.slots, given.2]
    have tidy := sound.tidy.grant vacant .align
    have slots := slots_caller { world with heap := world.heap.grant .align } own (some world.heap.next)
    rw [slots]
    exact tidy
  · exact sound

private theorem discard_sound (sound : world.Sound) (own : Nat) : (step (.discard own) world).Sound := by
  unfold step
  dsimp only
  split
  · exact sound
  · next buffer held =>
    refine ⟨?_, sound.agrees⟩
    have owner : world.slots (.caller own) = some (buffer, .align) := by simp [World.slots, held]
    have tidy := sound.tidy.release owner
    have slots := slots_caller { world with heap := world.heap.release .align buffer } own none
    rw [slots]
    exact tidy

end World

private theorem World.step_sound (call : Call) (world : World) (sound : world.Sound) (ok : call.Ok world) : (World.step call world).Sound := by
  cases call with
  | construct id yolo zero =>
    unfold step
    dsimp only
    split
    · exact sound
    · next missing => exact construct_sound sound missing yolo zero
  | allocate own granted => exact allocate_sound sound own granted
  | discard own => exact discard_sound sound own
  | loadBuffer id own model => exact loadBuffer_sound sound id own ok
  | loadFile id file =>
    unfold step
    apply sound.call
    intro this found entered
    exact entered.loadFile rfl (ok (by simp [found]))
  | loadFlash id flash =>
    unfold step
    apply sound.call
    intro this found entered
    exact entered.loadFlash rfl (ok (by simp [found]))
  | begin id anchors =>
    unfold step
    apply sound.call
    intro this found entered
    split
    · next yolo => exact entered.begin yolo (ok this found yolo)
    · exact entered
  | «end» id =>
    unfold step
    apply sound.call
    intro this found entered
    have endable := ok this found
    unfold Frame.ended
    split
    · next yolo =>
      rw [if_pos yolo] at endable
      exact entered.yoloEnd yolo endable
    · next base =>
      rw [if_neg base] at endable
      exact entered.baseEnd endable
  | destroy id =>
    unfold step
    dsimp only
    split
    · exact sound
    · next this found => exact sound.remove (destroyed_sound (sound.enter found) (ok this found))

/-- Without objects only what the caller has not passed on is left. -/
theorem World.Sound.left {world : World} (sound : world.Sound) (gone : ∀ id, world.objects id = none) {block : Nat}
    (live : world.heap.live block ≠ none) : ∃ own, world.caller own = some block := by
  obtain ⟨kind, live⟩ := Option.ne_none_iff_exists'.mp live
  obtain ⟨slot, owned⟩ := sound.tidy.owned block kind live
  cases slot with
  | field id field =>
    rw [World.slots, gone id] at owned
    cases owned
  | held => cases owned
  | caller own =>
    refine ⟨own, ?_⟩
    obtain ⟨number, held, same⟩ := Option.map_eq_some_iff.mp owned
    cases same
    exact held

/-- In a run whose calls find objects that they may load, begin and end, nothing is freed or read wrongly in any state,
every block has exactly one owner, and none is left of the objects that are gone. -/
theorem World.kpu_buffers_owned (calls : List Call) (guarded : Run.Guarded World.step Call.Ok calls World.start)
    (front : List Call) (sub : front <+: calls) :
    (Run.run World.step front World.start).Sound ∧
      ((∀ id, (Run.run World.step front World.start).objects id = none) → ∀ block,
        (Run.run World.step front World.start).heap.live block ≠ none →
          ∃ own, (Run.run World.step front World.start).caller own = some block) := by
  have sound : (Run.run World.step front World.start).Sound :=
    (guarded.front sub).invariant World.step_sound World.sound_start
  exact ⟨sound, fun gone block live => sound.left gone live⟩

def Model.plain : Model := ⟨.v3 true true, ⟨true, 3⟩, ⟨true, 30⟩⟩

/-- A model from the flash, a layer, and the end of both. -/
theorem World.kpu_buffers_owned_flash :
    (Run.run World.step
      [.construct 0 true fun _ => true, .loadFlash 0 ⟨4096, true, true, 4096, true, true, .plain⟩,
        .begin 0 ⟨true, 2, true, fun _ => true⟩, .end 0, .destroy 0] World.start).Sound := by
  refine (World.kpu_buffers_owned _ ?_ _ (List.prefix_refl _)).1
  simp only [Run.Guarded, Call.Ok, Header.Ok, Model.plain, implies_true, true_and, and_true]
  refine ⟨?_, ?_, ?_⟩
  · rintro this found yolo reaches
    cases found
    exact ⟨rfl, fun _ _ => trivial⟩
  · intro this found
    cases found
    exact .inl rfl
  · intro this found
    cases found
    refine ⟨fun _ => .inr fun field inLayer => ?_, .inl rfl⟩
    cases field <;> simp [Field.inLayer] at inLayer <;> rfl

/-- The first layer of the model is none that the input shape is read from: the load frees its buffer and keeps the pointer,
which the destructor frees again. -/
theorem World.failed_load_freed_twice :
    ¬(Run.run World.step
      [.construct 0 false fun _ => true,
        .loadFile 0 ⟨true, 4096, true, true, true, 4096, true, true, ⟨.v3 true true, ⟨false, 0⟩, ⟨false, 0⟩⟩⟩,
        .destroy 0] World.start).Sound := by
  intro sound
  cases sound.tidy.calm

end ArduinoK210.Kpu
