import ArduinoK210.Kpu.Objects

/-! Who has to free a block. An object owns its model and its context while the load flag is up, and the five buffers of
its region layer while `anchor` points to a block; every other pointer of it is stale. -/

namespace ArduinoK210.Kpu
open Heap

/-- A place that may own a block. `held` is the `model_buff` of a running call. -/
inductive Slot where
  | caller (own : Nat)
  | held
  | field (id : Nat) (field : Field)
  deriving DecidableEq

abbrev Owned := Field → Option (Nat × Allocator)

def Field.kind : Field → Allocator
  | .nncaseCtx => .new
  | _ => .align

def Pointer.owned (kind : Allocator) : Pointer → Option (Nat × Allocator)
  | .block number => some (number, kind)
  | _ => none

def Object.begun (this : Object) : Bool := ((this.pointer .anchor).owned .align).isSome

def Object.owns (this : Object) : Field → Bool
  | .buffer => this.loadKmodel
  | .mainBuffer | .fullyConnected => this.loadKmodel && !this.isNncase
  | .nncaseCtx => this.loadKmodel && this.isNncase
  | .anchor | .output | .boxes | .probsBuf | .probs => this.yolo && this.begun

def Object.slot (this : Object) : Owned := fun field => if this.owns field then (this.pointer field).owned field.kind else none

/-- What an object owns is there: only the fully connected buffer may be missing. -/
structure Object.Agrees (this : Object) : Prop where
  model : this.loadKmodel = true → ∃ number, this.pointer .buffer = .block number
  nncase : this.loadKmodel = true → this.isNncase = true → ∃ number, this.pointer .nncaseCtx = .block number
  main : this.loadKmodel = true → this.isNncase = false → ∃ number, this.pointer .mainBuffer = .block number
  connected : this.loadKmodel = true → this.isNncase = false → this.pointer .fullyConnected ≠ .wild
  layer : this.begun = true → ∀ field ∈ Frame.regions, ∃ number, this.pointer field = .block number

/-- The slots with those of one object changed. -/
def around (id : Nat) (owned : Owned) (rest : Slot → Option (Nat × Allocator)) : Slot → Option (Nat × Allocator)
  | .field other field => if other = id then owned field else rest (.field other field)
  | .held => rest .held
  | .caller own => rest (.caller own)

def World.slots (world : World) : Slot → Option (Nat × Allocator)
  | .field id field => (world.objects id).bind fun this => this.slot field
  | .held => none
  | .caller own => (world.caller own).map fun number => (number, .align)

structure World.Sound (world : World) : Prop where
  tidy : Tidy world.heap world.slots
  agrees : ∀ id this, world.objects id = some this → this.Agrees

variable {id : Nat} {owned : Owned} {rest : Slot → Option (Nat × Allocator)} {frame : Frame} {field : Field}

def Field.inContext : Field → Bool
  | .mainBuffer | .fullyConnected | .nncaseCtx => true
  | _ => false

def Field.inLayer : Field → Bool
  | .anchor | .output | .boxes | .probsBuf | .probs => true
  | _ => false

theorem Field.kind_layer {field : Field} (inLayer : field.inLayer = true) : field.kind = .align := by
  cases field <;> simp [Field.inLayer] at inLayer <;> rfl

def Owned.withoutContext (owned : Owned) : Owned := fun field => if field.inContext then none else owned field

def Owned.onlyLayer (owned : Owned) : Owned := fun field => if field.inLayer then owned field else none

structure Object.Keeps (this after : Object) : Prop where
  yolo : after.yolo = this.yolo
  pointer : ∀ field : Field, field.inLayer = true → after.pointer field = this.pointer field

namespace Object

theorem Keeps.refl (this : Object) : this.Keeps this := ⟨rfl, fun _ _ => rfl⟩

theorem Keeps.trans {this middle after : Object} (first : this.Keeps middle) (second : middle.Keeps after) : this.Keeps after :=
  ⟨second.yolo.trans first.yolo, fun field inLayer => (second.pointer field inLayer).trans (first.pointer field inLayer)⟩

theorem Keeps.set (this : Object) (pointer : Pointer) (outside : field.inLayer = false) : this.Keeps (this.set field pointer) := by
  refine ⟨rfl, fun other inLayer => Function.update_of_ne ?_ _ _⟩
  intro same
  rw [same, outside] at inLayer
  cases inLayer

theorem Keeps.begun {this after : Object} (keeps : this.Keeps after) : after.begun = this.begun := by
  rw [Object.begun, Object.begun, keeps.pointer .anchor rfl]

theorem slot_unloaded {this after : Object} (keeps : this.Keeps after) (unloaded : after.loadKmodel = false) :
    after.slot = this.slot.onlyLayer := by
  funext field
  cases inLayer : field.inLayer with
  | true =>
    rw [Owned.onlyLayer, inLayer, if_pos rfl, slot, slot, keeps.pointer field inLayer]
    cases field <;> simp [Field.inLayer] at inLayer <;> simp [owns, keeps.yolo, keeps.begun]
  | false => cases field <;> simp [Field.inLayer] at inLayer <;> simp [Owned.onlyLayer, Field.inLayer, slot, owns, unloaded]

theorem Agrees.keeps {this after : Object} (agrees : this.Agrees) (keeps : this.Keeps after) (begun : after.begun = true) :
    ∀ field ∈ Frame.regions, ∃ number, after.pointer field = .block number := by
  intro field member
  have inLayer : field.inLayer = true := by
    simp only [Frame.regions, List.mem_cons, List.not_mem_nil, or_false] at member
    rcases member with rfl | rfl | rfl | rfl <;> rfl
  rw [keeps.pointer field inLayer]
  exact agrees.layer (keeps.begun.symm.trans begun) field member

theorem Agrees.unloaded {this after : Object} (agrees : this.Agrees) (keeps : this.Keeps after)
    (unloaded : after.loadKmodel = false) : after.Agrees := by
  have impossible : ∀ {p : Prop}, after.loadKmodel = true → p := by
    intro p loaded
    rw [unloaded] at loaded
    cases loaded
  exact ⟨impossible, impossible, impossible, impossible, agrees.keeps keeps⟩

end Object

theorem around_update (id : Nat) (owned : Owned) (rest : Slot → Option (Nat × Allocator)) (field : Field)
    (one : Option (Nat × Allocator)) :
    around id (Function.update owned field one) rest = Function.update (around id owned rest) (.field id field) one := by
  funext slot
  cases slot with
  | caller own => simp [around]
  | held => simp [around]
  | field other place =>
    by_cases here : other = id
    · by_cases there : place = field
      · simp [around, here, there]
      · simp [around, here, there]
    · simp [around, here]

def Slot.Free : Slot → Prop
  | .field .. => False
  | _ => True

/-- The slots of one object, given one by one. -/
theorem eq_around {all : Slot → Option (Nat × Allocator)} (here : ∀ field, all (.field id field) = owned field)
    (there : ∀ other field, other ≠ id → all (.field other field) = rest (.field other field)) (held : all .held = rest .held)
    (caller : ∀ own, all (.caller own) = rest (.caller own)) : all = around id owned rest := by
  funext slot
  cases slot with
  | caller own => exact caller own
  | held => exact held
  | field other field =>
    by_cases same : other = id
    · rw [same, here, around, if_pos rfl]
    · rw [there other field same, around, if_neg same]

theorem around_rest {slot : Slot} (free : slot.Free) (id : Nat) (owned : Owned) (rest : Slot → Option (Nat × Allocator)) :
    around id owned rest slot = rest slot := by
  cases slot with
  | caller own => rfl
  | held => rfl
  | field other place => exact free.elim

theorem around_rest_update {slot : Slot} (free : slot.Free) (id : Nat) (owned : Owned)
    (rest : Slot → Option (Nat × Allocator)) (one : Option (Nat × Allocator)) :
    Function.update (around id owned rest) slot one = around id owned (Function.update rest slot one) := by
  funext other
  by_cases same : other = slot
  · subst same
    rw [Function.update_self, around_rest free, Function.update_self]
  · rw [Function.update_of_ne same]
    cases other with
    | caller own => exact (Function.update_of_ne same _ _).symm
    | held => exact (Function.update_of_ne same _ _).symm
    | field place field => simp [around, Function.update_of_ne same]

namespace Frame

@[simp] theorem free_this (kind : Allocator) (field : Field) (frame : Frame) : (frame.free kind field).this = frame.this := by
  unfold free
  split <;> rfl

@[simp] theorem put_heap (field : Field) (pointer : Pointer) (frame : Frame) : (frame.put field pointer).heap = frame.heap := rfl

@[simp] theorem put_this (field : Field) (pointer : Pointer) (frame : Frame) :
    (frame.put field pointer).this = frame.this.set field pointer := rfl

@[simp] theorem freeIfSet_this (field : Field) (frame : Frame) : (frame.freeIfSet field).this = frame.this.set field .null := by
  unfold freeIfSet
  split
  · next null => rw [Object.set, ← null, Function.update_eq_self]
  · rw [put_this, free_this]

@[simp] theorem freeIfSet_heap (field : Field) (frame : Frame) : (frame.freeIfSet field).heap = (frame.free .align field).heap := by
  unfold freeIfSet
  split
  · next null => simp [free, null]
  · rfl

@[simp] theorem use_this (field : Field) (frame : Frame) : (frame.use field).this = frame.this := by
  unfold use
  split <;> rfl

/-- The pointer is null or what it points to is owned here. -/
def Holds (frame : Frame) (owned : Owned) (field : Field) : Prop :=
  frame.this.pointer field ≠ .wild ∧ owned field = (frame.this.pointer field).owned field.kind

theorem use_owned (tidy : Tidy frame.heap (around id owned rest)) {slot : Slot} {number : Nat} {kind : Allocator}
    (points : frame.this.pointer field = .block number) (owner : around id owned rest slot = some (number, kind)) :
    frame.use field = frame := by
  have live := tidy.held slot number kind owner
  simp only [use, points]
  rw [Store.use_live (by simp [live])]

theorem malloc_tidy (tidy : Tidy frame.heap (around id owned rest)) (field : Field) (vacant : owned field = none) (granted : Bool) :
    Tidy (frame.malloc field.kind field granted).heap
      (around id (Function.update owned field (((frame.malloc field.kind field granted).this.pointer field).owned field.kind)) rest) := by
  cases granted with
  | false =>
    have null : ((frame.malloc field.kind field false).this.pointer field).owned field.kind = none := by
      simp [malloc, put, Object.set, Pointer.owned]
    rw [null, ← vacant, Function.update_eq_self]
    exact tidy
  | true =>
    have block : ((frame.malloc field.kind field true).this.pointer field).owned field.kind = some (frame.heap.next, field.kind) := by
      simp [malloc, put, Object.set, Pointer.owned]
    rw [block, around_update]
    apply tidy.grant
    simp [around, vacant]

theorem free_tidy (tidy : Tidy frame.heap (around id owned rest)) (holds : frame.Holds owned field) :
    Tidy (frame.free field.kind field).heap (around id (Function.update owned field none) rest) := by
  obtain ⟨tame, owner⟩ := holds
  cases points : frame.this.pointer field with
  | null =>
    rw [points] at owner
    have vacant : owned field = none := owner
    simp only [free, points]
    rw [← vacant, Function.update_eq_self]
    exact tidy
  | wild => exact absurd points tame
  | block number =>
    rw [points] at owner
    simp only [free, points]
    rw [around_update]
    apply tidy.release
    simp [around, owner, Pointer.owned]

/-- The blocks of the context, of the kind that `is_nncase` says, and no other. -/
structure HoldsContext (frame : Frame) (owned : Owned) : Prop where
  nncase : frame.this.isNncase = true →
    frame.Holds owned .nncaseCtx ∧ owned .mainBuffer = none ∧ owned .fullyConnected = none
  plain : frame.this.isNncase = false →
    frame.Holds owned .mainBuffer ∧ frame.Holds owned .fullyConnected ∧ owned .nncaseCtx = none

theorem kpuModelFree_tidy (tidy : Tidy frame.heap (around id owned rest)) (holds : frame.HoldsContext owned) :
    Tidy frame.kpuModelFree.heap (around id owned.withoutContext rest) := by
  unfold kpuModelFree
  cases nncase : frame.this.isNncase with
  | true =>
    obtain ⟨context, main, connected⟩ := holds.nncase nncase
    have bare : owned.withoutContext = Function.update owned .nncaseCtx none := by
      funext field
      cases field <;> simp [Owned.withoutContext, Field.inContext, main, connected]
    rw [bare]
    exact free_tidy tidy context
  | false =>
    obtain ⟨main, connected, context⟩ := holds.plain nncase
    have bare : owned.withoutContext = Function.update (Function.update owned .mainBuffer none) .fullyConnected none := by
      funext field
      cases field <;> simp [Owned.withoutContext, Field.inContext, context]
    have first := free_tidy tidy main
    have second : ((frame.free .align .mainBuffer).put .mainBuffer .null).Holds (Function.update owned .mainBuffer none)
        .fullyConnected := by
      simpa [Holds, Object.set] using connected
    rw [bare, if_neg (by simp), freeIfSet_heap]
    exact free_tidy first second

private theorem kpuModelFree_this (frame : Frame) : frame.kpuModelFree.this =
    if frame.this.isNncase then frame.this.set .nncaseCtx .null
    else (frame.this.set .mainBuffer .null).set .fullyConnected .null := by
  unfold kpuModelFree
  split <;> simp

theorem kpuModelFree_keeps (frame : Frame) : frame.this.Keeps frame.kpuModelFree.this := by
  rw [kpuModelFree_this]
  split
  · exact .set frame.this .null rfl
  · exact (Object.Keeps.set frame.this .null rfl).trans (.set _ .null rfl)

private theorem kpuModelFree_buffer (frame : Frame) : frame.kpuModelFree.this.pointer .buffer = frame.this.pointer .buffer := by
  rw [kpuModelFree_this]
  split <;> simp [Object.set]

theorem kpuModelFree_load (frame : Frame) : frame.kpuModelFree.this.loadKmodel = frame.this.loadKmodel := by
  rw [kpuModelFree_this]
  split <;> rfl

theorem baseEnd_keeps (frame : Frame) : frame.this.Keeps frame.baseEnd.this := by
  unfold baseEnd
  rw [freeIfSet_this]
  apply Object.Keeps.trans ?_ (.set _ .null rfl)
  split
  · have lowered : frame.this.Keeps (frame.setLoad false).this := ⟨rfl, fun _ _ => rfl⟩
    exact lowered.trans (kpuModelFree_keeps _)
  · exact .refl frame.this

theorem baseEnd_load (frame : Frame) : frame.baseEnd.this.loadKmodel = false := by
  unfold baseEnd
  rw [freeIfSet_this]
  split
  · exact kpuModelFree_load (frame.setLoad false)
  · next unloaded => exact Bool.eq_false_iff.mpr unloaded

end Frame

/-- A loaded model is freed as a whole. An object without one frees what its pointer happens to hold. -/
def Object.Endable (this : Object) : Prop := this.loadKmodel = true ∨ this.pointer .buffer = .null

structure Frame.Sound (id : Nat) (rest : Slot → Option (Nat × Allocator)) (frame : Frame) : Prop where
  tidy : Tidy frame.heap (around id frame.this.slot rest)
  agrees : frame.this.Agrees

namespace Frame

private theorem Sound.holdsContext (sound : frame.Sound id rest) (loaded : frame.this.loadKmodel = true) :
    frame.HoldsContext frame.this.slot := by
  constructor
  · intro nncase
    obtain ⟨number, points⟩ := sound.agrees.nncase loaded nncase
    refine ⟨⟨by simp [points], ?_⟩, ?_, ?_⟩
    · simp [Object.slot, Object.owns, loaded, nncase]
    · simp [Object.slot, Object.owns, nncase]
    · simp [Object.slot, Object.owns, nncase]
  · intro plain
    obtain ⟨number, points⟩ := sound.agrees.main loaded plain
    refine ⟨⟨by simp [points], ?_⟩, ⟨sound.agrees.connected loaded plain, ?_⟩, ?_⟩
    · simp [Object.slot, Object.owns, loaded, plain]
    · simp [Object.slot, Object.owns, loaded, plain]
    · simp [Object.slot, Object.owns, plain]

theorem Sound.baseEnd (sound : frame.Sound id rest) (endable : frame.this.Endable) : frame.baseEnd.Sound id rest := by
  refine ⟨?_, sound.agrees.unloaded frame.baseEnd_keeps frame.baseEnd_load⟩
  rw [Object.slot_unloaded frame.baseEnd_keeps frame.baseEnd_load]
  unfold Frame.baseEnd
  rw [freeIfSet_heap]
  cases loaded : frame.this.loadKmodel with
  | true =>
    rw [if_pos rfl]
    let lowered : Frame := frame.setLoad false
    have held := sound.holdsContext loaded
    have holds : lowered.HoldsContext frame.this.slot := ⟨held.nncase, held.plain⟩
    have freed : Tidy lowered.kpuModelFree.heap (around id frame.this.slot.withoutContext rest) :=
      kpuModelFree_tidy sound.tidy holds
    have buffer : lowered.kpuModelFree.Holds frame.this.slot.withoutContext .buffer := by
      obtain ⟨number, points⟩ := sound.agrees.model loaded
      have same : lowered.kpuModelFree.this.pointer .buffer = .block number := lowered.kpuModelFree_buffer.trans points
      refine ⟨by simp [same], ?_⟩
      rw [same]
      simp [Owned.withoutContext, Field.inContext, Object.slot, Object.owns, loaded, points]
    have bare : frame.this.slot.onlyLayer = Function.update frame.this.slot.withoutContext .buffer none := by
      funext field
      cases field <;> simp [Owned.onlyLayer, Owned.withoutContext, Field.inContext, Field.inLayer]
    rw [bare]
    exact free_tidy freed buffer
  | false =>
    have null : frame.this.pointer .buffer = .null := endable.resolve_left (by simp [loaded])
    rw [if_neg (by simp), ← Object.slot_unloaded (.refl frame.this) loaded]
    simpa [free, null] using sound.tidy

end Frame

end ArduinoK210.Kpu
