import ArduinoK210.Kpu.Ownership

/-! The region layer of `KPU_Yolo2`. It is there from a `begin` that succeeds to the next `end`, and `anchor` tells: a
`begin` that fails leaves it null, with the other four pointers to blocks that are freed. -/

namespace ArduinoK210.Kpu
open Heap

variable {id : Nat} {owned : Owned} {rest : Slot → Option (Nat × Allocator)} {frame : Frame} {field : Field}

/-- Everything but the region layer is as it was. -/
structure Object.KeepsBase (this after : Object) : Prop where
  yolo : after.yolo = this.yolo
  load : after.loadKmodel = this.loadKmodel
  nncase : after.isNncase = this.isNncase
  pointer : ∀ field : Field, field.inLayer = false → after.pointer field = this.pointer field

namespace Object

private theorem KeepsBase.refl (this : Object) : this.KeepsBase this := ⟨rfl, rfl, rfl, fun _ _ => rfl⟩

private theorem KeepsBase.trans {this middle after : Object} (first : this.KeepsBase middle) (second : middle.KeepsBase after) :
    this.KeepsBase after :=
  ⟨second.yolo.trans first.yolo, second.load.trans first.load, second.nncase.trans first.nncase,
    fun field outside => (second.pointer field outside).trans (first.pointer field outside)⟩

private theorem KeepsBase.set (this : Object) (pointer : Pointer) (inLayer : field.inLayer = true) :
    this.KeepsBase (this.set field pointer) := by
  refine ⟨rfl, rfl, rfl, fun other outside => Function.update_of_ne ?_ _ _⟩
  intro same
  rw [same, inLayer] at outside
  cases outside

private theorem KeepsBase.slot {this after : Object} (keeps : this.KeepsBase after) (outside : field.inLayer = false) :
    after.slot field = this.slot field := by
  have owns : after.owns field = this.owns field := by
    cases field <;> simp [Field.inLayer] at outside <;> simp [owns, keeps.load, keeps.nncase]
  rw [Object.slot, Object.slot, keeps.pointer field outside, owns]

private theorem KeepsBase.agrees {this after : Object} (keeps : this.KeepsBase after) (agrees : this.Agrees)
    (layer : after.begun = true → ∀ field ∈ Frame.regions, ∃ number, after.pointer field = .block number) : after.Agrees := by
  constructor
  · intro loaded
    rw [keeps.pointer .buffer rfl]
    exact agrees.model (keeps.load.symm.trans loaded)
  · intro loaded nncase
    rw [keeps.pointer .nncaseCtx rfl]
    exact agrees.nncase (keeps.load.symm.trans loaded) (keeps.nncase.symm.trans nncase)
  · intro loaded plain
    rw [keeps.pointer .mainBuffer rfl]
    exact agrees.main (keeps.load.symm.trans loaded) (keeps.nncase.symm.trans plain)
  · intro loaded plain
    rw [keeps.pointer .fullyConnected rfl]
    exact agrees.connected (keeps.load.symm.trans loaded) (keeps.nncase.symm.trans plain)
  · exact layer

end Object

namespace Frame

/-- A list of fields is freed. Whether the pointers are cleared makes no difference to the heap. -/
theorem frees_tidy {op : Field → Frame → Frame}
    (heap : ∀ field frame, field.inLayer = true → (op field frame).heap = (frame.free field.kind field).heap)
    (other : ∀ field place frame, place ≠ field → (op field frame).this.pointer place = frame.this.pointer place)
    {fields : List Field} (nodup : fields.Nodup) (layer : ∀ field ∈ fields, field.inLayer = true)
    (tidy : Tidy frame.heap (around id owned rest)) (holds : ∀ field ∈ fields, frame.Holds owned field) :
    Tidy (fields.foldl (fun frame field => op field frame) frame).heap
      (around id (fun field => if field ∈ fields then none else owned field) rest) := by
  induction fields generalizing frame owned with
  | nil => simpa using tidy
  | cons field fields ih =>
    obtain ⟨fresh, nodup⟩ := List.nodup_cons.mp nodup
    have first := free_tidy tidy (holds field List.mem_cons_self)
    rw [← heap field frame (layer field List.mem_cons_self)] at first
    have later : ∀ place ∈ fields, (op field frame).Holds (Function.update owned field none) place := by
      intro place member
      have apart : place ≠ field := fun same => fresh (same ▸ member)
      rw [Holds, other field place frame apart, Function.update_of_ne apart]
      exact holds place (List.mem_cons_of_mem field member)
    have whole := ih nodup (fun place member => layer place (List.mem_cons_of_mem field member)) first later
    have same : (fun place => if place ∈ fields then none else Function.update owned field none place) =
        fun place => if place ∈ field :: fields then none else owned place := by
      funext place
      by_cases here : place = field
      · subst here
        simp
      · simp [here]
    rw [same] at whole
    exact whole

/-- The allocations put a new block, or null, into every field before the first that fails. What the others hold is
freed with them. -/
def Reusable (granted : Field → Bool) (pointer : Field → Pointer) : List Field → Prop
  | [] => True
  | field :: fields => if granted field then Reusable granted pointer fields else ∀ place ∈ fields, pointer place = .null

private theorem reusable_congr {granted : Field → Bool} {pointer other : Field → Pointer} {fields : List Field}
    (same : ∀ field ∈ fields, other field = pointer field) (reusable : Reusable granted pointer fields) :
    Reusable granted other fields := by
  induction fields with
  | nil => trivial
  | cons field fields ih =>
    unfold Reusable at reusable ⊢
    split
    · next given =>
      rw [if_pos given] at reusable
      exact ih (fun place member => same place (List.mem_cons_of_mem field member)) reusable
    · next refused =>
      rw [if_neg refused] at reusable
      intro place member
      rw [same place (List.mem_cons_of_mem field member)]
      exact reusable place member

structure Allocated (id : Nat) (owned : Owned) (rest : Slot → Option (Nat × Allocator)) (fields : List Field) (this : Object)
    (made : Frame × Int) : Prop where
  tidy : ∃ after : Owned, Tidy made.1.heap (around id after rest) ∧ (∀ field ∈ fields, made.1.Holds after field) ∧
    ∀ field, field ∉ fields → after field = owned field
  pointer : ∀ field, field ∉ fields → made.1.this.pointer field = this.pointer field
  blocks : made.2 = 0 → ∀ field ∈ fields, ∃ number, made.1.this.pointer field = .block number
  keeps : this.KeepsBase made.1.this

section Malloc
variable (kind : Allocator) (field : Field) (given : Bool)

private theorem malloc_other {place : Field} (apart : place ≠ field) :
    (frame.malloc kind field given).this.pointer place = frame.this.pointer place := by
  unfold malloc
  split <;> exact Function.update_of_ne apart _ _

private theorem malloc_base (layer : field.inLayer = true) : frame.this.KeepsBase (frame.malloc kind field given).this := by
  unfold malloc
  split <;> exact .set _ _ layer

private theorem malloc_granted : (frame.malloc kind field true).this.pointer field = .block frame.heap.next := by
  simp [malloc, put, Object.set]

private theorem malloc_refused : (frame.malloc kind field false).this.pointer field = .null := by
  simp [malloc, put, Object.set]

end Malloc

/-- A refused allocation leaves what was held: null in its own field and, as far as they are reused, in those after it. -/
theorem allocate_refused {granted : Field → Bool} {field : Field} {fields : List Field} (refused : granted field = false)
    (layer : field.inLayer = true) (tidy : Tidy frame.heap (around id owned rest))
    (vacant : ∀ place ∈ field :: fields, owned place = none) (null : ∀ place ∈ fields, frame.this.pointer place = .null) {flag : Int}
    (negative : flag < 0) :
    Allocated id owned rest (field :: fields) frame.this (frame.malloc .align field (granted field), flag) := by
  rw [refused]
  have empty : ∀ place ∈ field :: fields, (frame.malloc .align field false).this.pointer place = .null := by
    intro place member
    by_cases here : place = field
    · rw [here]
      exact malloc_refused .align field
    · have later := (List.mem_cons.mp member).resolve_left here
      exact (malloc_other .align field false here).trans (null place later)
  refine ⟨⟨owned, ?_, ?_, fun _ _ => rfl⟩, ?_, ?_, malloc_base .align field false layer⟩
  · simpa [malloc] using tidy
  · intro place member
    exact ⟨by simp [empty place member], by simp [empty place member, vacant place member, Pointer.owned]⟩
  · intro place beyond
    exact malloc_other .align field false (not_or.mp (mt List.mem_cons.mpr beyond)).1
  · intro impossible
    exact absurd impossible (Int.ne_of_lt negative)

private theorem allocate_tidy {granted : Field → Bool} {fields : List Field} (nodup : fields.Nodup)
    (layer : ∀ field ∈ fields, field.inLayer = true) (tidy : Tidy frame.heap (around id owned rest))
    (vacant : ∀ field ∈ fields, owned field = none) (reusable : Reusable granted frame.this.pointer fields) {flag : Int}
    (negative : flag < 0) : Allocated id owned rest fields frame.this (frame.allocate granted flag fields) := by
  induction fields generalizing frame owned flag with
  | nil => exact ⟨⟨owned, tidy, by simp, fun _ _ => rfl⟩, fun _ _ => rfl, by simp, .refl _⟩
  | cons field fields ih =>
    obtain ⟨fresh, nodup⟩ := List.nodup_cons.mp nodup
    have layered := layer field List.mem_cons_self
    unfold Reusable at reusable
    unfold allocate
    dsimp only
    split
    · next given =>
      rw [if_pos given] at reusable
      have align := Field.kind_layer layered
      have made := malloc_tidy tidy field (vacant field List.mem_cons_self) (granted field)
      rw [align] at made
      have apart : ∀ place ∈ fields, place ≠ field := fun place member same => fresh (same ▸ member)
      have less : flag - 1 < 0 := by omega
      obtain ⟨⟨after, final, holds, outside⟩, pointers, blocks, keeps⟩ :=
        ih nodup (fun place member => layer place (List.mem_cons_of_mem field member)) made
          (fun place member => (Function.update_of_ne (apart place member) _ _).trans (vacant place (List.mem_cons_of_mem field member)))
          (reusable_congr (fun place member => malloc_other .align field _ (apart place member)) reusable) less
      have block : (frame.malloc .align field (granted field)).this.pointer field = .block frame.heap.next := by
        rw [given]
        exact malloc_granted .align field
      have kept := (pointers field fresh).trans block
      refine ⟨⟨after, final, ?_, ?_⟩, ?_, ?_, (malloc_base .align field _ layered).trans keeps⟩
      · intro place member
        rcases List.mem_cons.mp member with rfl | later
        · refine ⟨by simp [kept], ?_⟩
          rw [outside place fresh, Function.update_self, block, kept, align]
        · exact holds place later
      · intro place beyond
        obtain ⟨here, there⟩ := not_or.mp (mt List.mem_cons.mpr beyond)
        exact (outside place there).trans (Function.update_of_ne here _ _)
      · intro place beyond
        obtain ⟨here, there⟩ := not_or.mp (mt List.mem_cons.mpr beyond)
        exact (pointers place there).trans (malloc_other .align field _ here)
      · intro done place member
        rcases List.mem_cons.mp member with rfl | later
        · exact ⟨_, kept⟩
        · exact blocks done place later
    · next refused =>
      rw [if_neg refused] at reusable
      exact allocate_refused (Bool.eq_false_iff.mpr refused) layered tidy vacant reusable negative

private theorem regions_layer {field : Field} (member : field ∈ regions) : field.inLayer = true := by
  simp only [regions, List.mem_cons, List.not_mem_nil, or_false] at member
  rcases member with rfl | rfl | rfl | rfl <;> rfl

private theorem freeAll_this (fields : List Field) (frame : Frame) : (frame.freeAll fields).this = frame.this := by
  induction fields generalizing frame with
  | nil => rfl
  | cons field fields ih => exact (ih (frame.free .align field)).trans (free_this .align field frame)

/-- What the layer leaves behind: with no error all four blocks, with an error none. -/
structure Layered (id : Nat) (owned : Owned) (rest : Slot → Option (Nat × Allocator)) (this : Object) (made : Frame × Int) : Prop where
  done : made.2 = 0 → ∃ after : Owned, Tidy made.1.heap (around id after rest) ∧ (∀ field ∈ regions, made.1.Holds after field) ∧
    (∀ field ∈ regions, ∃ number, made.1.this.pointer field = .block number) ∧ ∀ field, field ∉ regions → after field = owned field
  failed : made.2 ≠ 0 → Tidy made.1.heap (around id owned rest)
  anchor : made.1.this.pointer .anchor = this.pointer .anchor
  keeps : this.KeepsBase made.1.this

private theorem yoloRegionLayerInit_tidy (tidy : Tidy frame.heap (around id owned rest)) (vacant : ∀ field ∈ regions, owned field = none)
    {granted : Field → Bool} {anchorNumber : Nat}
    (reusable : 0 ≤ classes frame.this.output.chn anchorNumber → Reusable granted frame.this.pointer regions) :
    Layered id owned rest frame.this (frame.yoloRegionLayerInit anchorNumber granted) := by
  have untouched : ∀ flag : Int, flag ≠ 0 → Layered id owned rest frame.this (frame, flag) := fun flag error =>
    ⟨fun done => absurd done error, fun _ => tidy, rfl, .refl _⟩
  unfold yoloRegionLayerInit
  split
  · exact untouched (-5) (by decide)
  · split
    · exact untouched (-6) (by decide)
    · next enough =>
      have made := allocate_tidy (by decide) (fun field => regions_layer) tidy vacant (reusable (by omega)) (show (-1 : Int) < 0 by decide)
      obtain ⟨⟨after, whole, holds, outside⟩, pointer, blocks, keeps⟩ := made
      dsimp only
      split
      · next done =>
        have used : (frame.allocate granted (-1) regions).1.use .probs = (frame.allocate granted (-1) regions).1 := by
          obtain ⟨number, points⟩ := blocks done .probs (by decide)
          apply use_owned whole points
          · show around id after rest (.field id .probs) = some (number, .align)
            simp [around, (holds .probs (by decide)).2, points, Pointer.owned, Field.kind]
        rw [used]
        exact ⟨fun _ => ⟨after, whole, holds, blocks done, outside⟩, fun error => absurd rfl error, pointer .anchor (by decide), keeps⟩
      · next error =>
        refine ⟨fun done => absurd done error, fun _ => ?_, ?_, ?_⟩
        · have freed := frees_tidy (fun field frame inLayer => by rw [Field.kind_layer inLayer])
            (fun field place frame _ => by rw [free_this]) (by decide) (fun field => regions_layer) whole holds
          have same : (fun field => if field ∈ regions then none else after field) = owned := by
            funext field
            split
            · next member => exact (vacant field member).symm
            · next away => exact outside field away
          rw [same] at freed
          exact freed
        · rw [freeAll_this]
          exact pointer .anchor (by decide)
        · rw [freeAll_this]
          exact keeps

end Frame
def Anchors.Reaches (anchors : Anchors) (this : Object) : Prop :=
  (anchors.given = true ∧ anchors.number % 2 = 0) ∧ this.loadKmodel = true ∧ this.input.vaild = true ∧ this.output.vaild = true

/-- There is no layer yet. With too many anchors for the channels the layer is refused before it allocates. -/
def Anchors.Ok (anchors : Anchors) (this : Object) : Prop :=
  anchors.Reaches this → this.begun = false ∧
    (anchors.granted = true → 0 ≤ Frame.classes this.output.chn (anchors.number.tdiv 2 % 4294967296).toNat →
      Frame.Reusable anchors.layerGranted this.pointer Frame.regions)

namespace Frame

theorem slot_unbegun {this : Object} (unbegun : this.begun = false) (inLayer : field.inLayer = true) : this.slot field = none := by
  cases field <;> simp [Field.inLayer] at inLayer <;> simp [Object.slot, Object.owns, unbegun]

private theorem slot_same {this after : Object} (keeps : this.KeepsBase after) (before : this.begun = false) (still : after.begun = false) :
    after.slot = this.slot := by
  funext field
  cases inLayer : field.inLayer with
  | true => rw [slot_unbegun still inLayer, slot_unbegun before inLayer]
  | false => exact keeps.slot inLayer

private theorem Sound.unbegun {before : Object} (agrees : before.Agrees) (keeps : before.KeepsBase frame.this) (unbegun : before.begun = false)
    (still : frame.this.begun = false) (tidy : Tidy frame.heap (around id before.slot rest)) : frame.Sound id rest := by
  refine ⟨?_, keeps.agrees agrees fun begun => ?_⟩
  · rw [slot_same keeps unbegun still]
    exact tidy
  · rw [still] at begun
    cases begun

/-- A layer with its anchor and its four blocks is the object's. -/
theorem layered_sound {before this : Object} {made : Frame × Int} (agrees : before.Agrees) (yolo : before.yolo = true)
    (keeps : before.KeepsBase made.1.this) {number : Nat}
    (layered : Layered id (Function.update before.slot .anchor (some (number, .align))) rest this made)
    (anchor : made.1.this.pointer .anchor = .block number) (done : made.2 = 0) : made.1.Sound id rest := by
  obtain ⟨after, tidy, holds, blocks, outside⟩ := layered.done done
  have begun : made.1.this.begun = true := by simp [Object.begun, anchor, Pointer.owned]
  have slot : made.1.this.slot = after := by
    funext field
    by_cases member : field ∈ regions
    · have inLayer := regions_layer member
      rw [(holds field member).2]
      cases field <;> simp [Field.inLayer] at inLayer <;> simp [Object.slot, Object.owns, keeps.yolo, yolo, begun]
    · rw [outside field member]
      cases field with
      | anchor => simp [Object.slot, Object.owns, keeps.yolo, yolo, begun, anchor, Pointer.owned, Field.kind]
      | buffer | mainBuffer | fullyConnected | nncaseCtx => exact (keeps.slot rfl).trans (Function.update_of_ne (by simp) _ _).symm
      | output | boxes | probsBuf | probs => exact absurd (by decide) member
  refine ⟨?_, keeps.agrees agrees fun _ => blocks⟩
  rw [slot]
  exact tidy

/-- The second half of `begin`, with the new anchors in place. -/
theorem Sound.filled (sound : frame.Sound id rest) (yolo : frame.this.yolo = true) (unbegun : frame.this.begun = false)
    {anchorNumber : Nat} {granted : Field → Bool}
    (reusable : 0 ≤ classes frame.this.output.chn anchorNumber → Reusable granted frame.this.pointer regions) :
    let ready := ((frame.malloc .align .anchor true).use .anchor).yoloRegionLayerInit anchorNumber granted
    (if ready.2 ≠ 0 then ((ready.1.free .align .anchor).put .anchor .null, false) else (ready.1, true)).1.Sound id rest := by
  let made := frame.malloc .align .anchor true
  let lent := Function.update frame.this.slot .anchor (some (frame.heap.next, Allocator.align))
  have points : made.this.pointer .anchor = .block frame.heap.next := by simp [made, malloc, put, Object.set]
  have base : frame.this.KeepsBase made.this := .set _ _ rfl
  have nothing := slot_unbegun unbegun (show Field.inLayer .anchor = true from rfl)
  have tidy : Tidy made.heap (around id lent rest) := by
    have allocated := malloc_tidy sound.tidy .anchor nothing true
    have same : lent = Function.update frame.this.slot .anchor ((made.this.pointer .anchor).owned .align) := by
      rw [points]
      rfl
    rw [same]
    exact allocated
  have used : made.use .anchor = made := by
    apply use_owned tidy points
    · show around id lent rest (.field id .anchor) = some (frame.heap.next, .align)
      simp [around, lent]
  have apart : ∀ field ∈ regions, field ≠ .anchor := by decide
  have vacant : ∀ field ∈ regions, lent field = none := fun field member =>
    (Function.update_of_ne (apart field member) _ _).trans (slot_unbegun unbegun (regions_layer member))
  have layered : Layered id lent rest made.this (made.yoloRegionLayerInit anchorNumber granted) := by
    apply yoloRegionLayerInit_tidy tidy vacant
    intro enough
    exact reusable_congr (fun field member => Function.update_of_ne (apart field member) _ _) (reusable enough)
  have keeps := base.trans layered.keeps
  have anchor := layered.anchor.trans points
  intro ready
  have found : ready = made.yoloRegionLayerInit anchorNumber granted :=
    congrArg (fun filled => yoloRegionLayerInit anchorNumber granted filled) used
  rw [found]
  split
  · next error =>
    apply Sound.unbegun sound.agrees ?_ unbegun
    · simp [Object.begun, Object.set, Pointer.owned]
    · have holds : (made.yoloRegionLayerInit anchorNumber granted).1.Holds lent .anchor :=
        ⟨by simp [anchor], by simp [lent, anchor, Pointer.owned, Field.kind]⟩
      have freed := free_tidy (layered.failed error) holds
      rw [Function.update_idem, ← nothing, Function.update_eq_self] at freed
      exact freed
    · rw [put_this, free_this]
      exact keeps.trans (.set _ _ rfl)
  · next done => exact layered_sound sound.agrees yolo keeps layered anchor (not_not.mp done)

theorem Sound.begin (sound : frame.Sound id rest) (yolo : frame.this.yolo = true) {anchors : Anchors} (ok : anchors.Ok frame.this) :
    (frame.begin anchors).1.Sound id rest := by
  unfold Frame.begin
  split
  · exact sound
  · next arguments =>
    split
    · exact sound
    · next loaded =>
      split
      · exact sound
      · next shapes =>
        have reaches : anchors.Reaches frame.this := by
          simp only [not_or, not_not, Bool.not_eq_false] at arguments loaded shapes
          exact ⟨arguments, loaded, shapes⟩
        obtain ⟨unbegun, reusable⟩ := ok reaches
        have keeps : frame.this.KeepsBase (frame.malloc .align .anchor anchors.granted).this := by
          unfold malloc
          split <;> exact .set _ _ rfl
        dsimp only
        split
        · next refused =>
          apply Sound.unbegun sound.agrees keeps unbegun
          · simp [malloc, refused, Object.begun, put, Object.set, Pointer.owned]
          · simpa [malloc, refused] using sound.tidy
        · next given =>
          have granted : anchors.granted = true := by simpa using given
          rw [granted] at keeps ⊢
          exact sound.filled yolo unbegun (reusable granted)

end Frame
/-- The layer is freed as a whole. Without one the five pointers are freed as they are. -/
def Object.LayerEndable (this : Object) : Prop :=
  this.begun = true ∨ ∀ field : Field, field.inLayer = true → this.pointer field = .null

namespace Frame

private theorem freeIfSets_keeps (fields : List Field) (layer : ∀ field ∈ fields, field.inLayer = true) (frame : Frame) :
    frame.this.KeepsBase (fields.foldl (fun frame field => frame.freeIfSet field) frame).this := by
  induction fields generalizing frame with
  | nil => exact .refl frame.this
  | cons field fields ih =>
    have first : frame.this.KeepsBase (frame.freeIfSet field).this := by
      rw [freeIfSet_this]
      exact .set _ _ (layer field List.mem_cons_self)
    exact first.trans (ih (fun place member => layer place (List.mem_cons_of_mem field member)) (frame.freeIfSet field))

private theorem freeIfSets_null (fields : List Field) (frame : Frame)
    (null : frame.this.pointer field = .null ∨ field ∈ fields) :
    (fields.foldl (fun frame field => frame.freeIfSet field) frame).this.pointer field = .null := by
  induction fields generalizing frame with
  | nil => exact null.resolve_right List.not_mem_nil
  | cons head fields ih =>
    apply ih
    rw [freeIfSet_this]
    by_cases here : field = head
    · subst here
      left
      simp [Object.set]
    · rcases null with null | member
      · left
        simpa [Object.set, here] using null
      · exact .inr ((List.mem_cons.mp member).resolve_left here)

private theorem layer_regions (inLayer : field.inLayer = true) : field ∈ .anchor :: regions := by
  cases field <;> simp [Field.inLayer] at inLayer <;> decide

private theorem anchor_regions_layer {field : Field} (member : field ∈ .anchor :: regions) : field.inLayer = true := by
  rcases List.mem_cons.mp member with rfl | region
  · rfl
  · exact regions_layer region

theorem yoloEnd_keeps (frame : Frame) : frame.this.KeepsBase frame.yoloEnd.this :=
  freeIfSets_keeps (.anchor :: regions) (fun _ => anchor_regions_layer) frame

theorem yoloEnd_unbegun (frame : Frame) : frame.yoloEnd.this.begun = false := by
  have null : frame.yoloEnd.this.pointer .anchor = .null := freeIfSets_null (.anchor :: regions) frame (.inr List.mem_cons_self)
  simp [Object.begun, null, Pointer.owned]

theorem Sound.yoloEnd (sound : frame.Sound id rest) (yolo : frame.this.yolo = true) (endable : frame.this.LayerEndable) :
    frame.yoloEnd.Sound id rest := by
  have layer : ∀ field ∈ Field.anchor :: regions, field.inLayer = true := fun _ => anchor_regions_layer
  have holds : ∀ field ∈ Field.anchor :: regions, frame.Holds frame.this.slot field := by
    intro field member
    rcases endable with begun | null
    · have points : ∃ number, frame.this.pointer field = .block number := by
        rcases List.mem_cons.mp member with rfl | region
        · cases anchor : frame.this.pointer .anchor <;> simp [Object.begun, anchor, Pointer.owned] at begun ⊢
        · exact sound.agrees.layer begun field region
      obtain ⟨number, points⟩ := points
      have owns : frame.this.owns field = true := by
        have inLayer := layer field member
        cases field <;> simp [Field.inLayer] at inLayer <;> simp [Object.owns, yolo, begun]
      exact ⟨by simp [points], by rw [Object.slot, owns, if_pos rfl]⟩
    · have absent := null field (layer field member)
      have before : frame.this.begun = false := by simp [Object.begun, null .anchor rfl, Pointer.owned]
      exact ⟨by simp [absent], by rw [absent, slot_unbegun before (layer field member)]; rfl⟩
  have freed : Tidy frame.yoloEnd.heap (around id (fun field => if field ∈ .anchor :: regions then none else frame.this.slot field) rest) :=
    frees_tidy (fun field frame inLayer => by rw [freeIfSet_heap, Field.kind_layer inLayer])
      (fun field place frame apart => by rw [freeIfSet_this]; exact Function.update_of_ne apart _ _) (by decide) layer sound.tidy holds
  have slot : frame.yoloEnd.this.slot = fun field => if field ∈ .anchor :: regions then none else frame.this.slot field := by
    funext field
    split
    · next member => exact slot_unbegun frame.yoloEnd_unbegun (layer field member)
    · next outside => exact frame.yoloEnd_keeps.slot (Bool.eq_false_iff.mpr (mt layer_regions outside))
  refine ⟨?_, frame.yoloEnd_keeps.agrees sound.agrees fun begun => ?_⟩
  · rw [slot]
    exact freed
  · rw [frame.yoloEnd_unbegun] at begun
    cases begun

end Frame

end ArduinoK210.Kpu
