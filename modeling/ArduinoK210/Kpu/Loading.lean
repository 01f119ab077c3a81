import ArduinoK210.Kpu.Ownership

/-! The three forms of `load_kmodel`. A block passes to the object when the load succeeds and stays with its owner when
it fails, although `model.buffer` still points to it then. -/

namespace ArduinoK210.Kpu
open Heap

variable {id : Nat} {owned : Owned} {rest : Slot → Option (Nat × Allocator)} {frame : Frame} {field : Field}

/-- An nncase context must be granted and take its model. Nobody frees it otherwise. -/
def Header.Ok : Header → Prop
  | .kmdl granted loads => granted = true ∧ loads = true
  | _ => True

namespace Frame

private theorem kpuLoadKmodel_keeps (header : Header) (frame : Frame) : frame.this.Keeps (frame.kpuLoadKmodel header).1.this := by
  refine ⟨?_, fun field inLayer => ?_⟩
  · cases header with
    | rejected => simp [kpuLoadKmodel]
    | v3 main connected => cases main <;> cases connected <;> simp [kpuLoadKmodel, malloc, put, Object.set]
    | kmdl granted loads => cases granted <;> simp [kpuLoadKmodel, malloc, put, Object.set]
  · have context : ∀ other : Field, other.inContext = true → field ≠ other := by
      intro other inContext same
      subst same
      cases field <;> simp [Field.inLayer, Field.inContext] at inLayer inContext
    cases header with
    | rejected => simp [kpuLoadKmodel]
    | v3 main connected =>
      cases main <;> cases connected <;>
        simp [kpuLoadKmodel, malloc, put, Object.set, context .mainBuffer rfl, context .fullyConnected rfl]
    | kmdl granted loads => cases granted <;> simp [kpuLoadKmodel, malloc, put, Object.set, context .nncaseCtx rfl]

private theorem kpuLoadKmodel_load (header : Header) (frame : Frame) :
    (frame.kpuLoadKmodel header).1.this.loadKmodel = frame.this.loadKmodel := by
  cases header with
  | rejected => simp [kpuLoadKmodel]
  | v3 main connected => cases main <;> cases connected <;> simp [kpuLoadKmodel, malloc, put, Object.set]
  | kmdl granted loads => cases granted <;> simp [kpuLoadKmodel, malloc, put, Object.set]

private theorem kpuLoadKmodel_buffer (header : Header) (frame : Frame) :
    (frame.kpuLoadKmodel header).1.this.pointer .buffer = frame.this.pointer .buffer := by
  cases header with
  | rejected => simp [kpuLoadKmodel]
  | v3 main connected => cases main <;> cases connected <;> simp [kpuLoadKmodel, malloc, put, Object.set]
  | kmdl granted loads => cases granted <;> simp [kpuLoadKmodel, malloc, put, Object.set]

/-- What stands when the model is parsed: its context, and nothing else is new. -/
structure Parsed (id : Nat) (owned : Owned) (rest : Slot → Option (Nat × Allocator)) (frame : Frame) : Prop where
  context : ∃ after : Owned, Tidy frame.heap (around id after rest) ∧ frame.HoldsContext after ∧
    ∀ field : Field, field.inContext = false → after field = owned field
  nncase : frame.this.isNncase = true → ∃ number, frame.this.pointer .nncaseCtx = .block number
  main : frame.this.isNncase = false → ∃ number, frame.this.pointer .mainBuffer = .block number

private theorem kpuLoadKmodel_v3 (tidy : Tidy frame.heap (around id owned rest))
    (bare : ∀ field : Field, field.inContext = true → owned field = none) (read : frame.use .buffer = frame) (main connected : Bool) :
    let parsed := frame.kpuLoadKmodel (.v3 main connected)
    if parsed.2 then Parsed id owned rest parsed.1 else Tidy parsed.1.heap (around id owned rest) := by
  let cleared := { frame with this := { frame.this with isNncase := false } }.put .fullyConnected .null
  have start : Tidy cleared.heap (around id owned rest) := tidy
  have first := malloc_tidy start .mainBuffer (bare .mainBuffer rfl) main
  cases main with
  | false =>
    simp only [kpuLoadKmodel, read]
    exact tidy
  | true =>
    have vacant : Function.update owned .mainBuffer
        (((cleared.malloc .align .mainBuffer true).this.pointer .mainBuffer).owned .align) .fullyConnected = none := by
      simp [bare .fullyConnected rfl]
    have second := malloc_tidy first .fullyConnected vacant connected
    simp only [kpuLoadKmodel, read]
    refine ⟨⟨_, second, ⟨?_, ?_⟩, ?_⟩, ?_, ?_⟩
    · intro nncase
      cases connected <;> cases nncase
    · intro _
      refine ⟨?_, ?_, ?_⟩
      · cases connected <;> simp [Holds, malloc, put, Object.set, cleared, Field.kind]
      · cases connected <;> simp [Holds, malloc, put, Object.set, cleared, Field.kind]
      · simpa using bare .nncaseCtx rfl
    · intro field outside
      cases field <;> simp [Field.inContext] at outside <;> simp
    · intro nncase
      cases connected <;> cases nncase
    · intro _
      exact ⟨cleared.heap.next, by cases connected <;> simp [malloc, put, Object.set, cleared]⟩

private theorem kpuLoadKmodel_kmdl (tidy : Tidy frame.heap (around id owned rest))
    (bare : ∀ field : Field, field.inContext = true → owned field = none) (read : frame.use .buffer = frame) :
    Parsed id owned rest (frame.kpuLoadKmodel (.kmdl true true)).1 := by
  let marked := { frame with this := { frame.this with isNncase := true } }
  have start : Tidy marked.heap (around id owned rest) := tidy
  have made := malloc_tidy start .nncaseCtx (bare .nncaseCtx rfl) true
  have points : (marked.malloc .new .nncaseCtx true).this.pointer .nncaseCtx = .block marked.heap.next := by
    simp [malloc, put, Object.set]
  have used : (marked.malloc .new .nncaseCtx true).use .nncaseCtx = marked.malloc .new .nncaseCtx true := by
    apply use_owned made points
    · show around id _ rest (.field id .nncaseCtx) = some (marked.heap.next, .new)
      simp [around, points, Pointer.owned, Field.kind]
  simp only [kpuLoadKmodel, read]
  rw [used]
  refine ⟨⟨_, made, ⟨?_, ?_⟩, ?_⟩, ?_, ?_⟩
  · intro _
    refine ⟨?_, ?_, ?_⟩
    · exact ⟨by simp [points], Function.update_self _ _ _⟩
    · simpa using bare .mainBuffer rfl
    · simpa using bare .fullyConnected rfl
  · intro plain
    cases plain
  · intro field outside
    cases field <;> simp [Field.inContext] at outside <;> simp
  · intro _
    exact ⟨_, points⟩
  · intro plain
    cases plain

private theorem kpuLoadKmodel_tidy (tidy : Tidy frame.heap (around id owned rest))
    (bare : ∀ field : Field, field.inContext = true → owned field = none) (read : frame.use .buffer = frame) {header : Header}
    (ok : header.Ok) :
    let parsed := frame.kpuLoadKmodel header
    if parsed.2 then Parsed id owned rest parsed.1 else Tidy parsed.1.heap (around id owned rest) := by
  cases header with
  | rejected =>
    simp only [kpuLoadKmodel, read]
    exact tidy
  | v3 main connected => exact kpuLoadKmodel_v3 tidy bare read main connected
  | kmdl granted loads =>
    obtain ⟨rfl, rfl⟩ := ok
    exact kpuLoadKmodel_kmdl tidy bare read

private theorem Sound.unloaded {before : Object} (agrees : before.Agrees) (keeps : before.Keeps frame.this)
    (unloaded : frame.this.loadKmodel = false) (tidy : Tidy frame.heap (around id before.slot.onlyLayer rest)) :
    frame.Sound id rest := by
  refine ⟨?_, agrees.unloaded keeps unloaded⟩
  rw [Object.slot_unloaded keeps unloaded]
  exact tidy

private theorem parsed_slot (context : frame.HoldsContext owned) (inContext : field.inContext = true) :
    (frame.setLoad true).this.slot field = owned field := by
  cases nncase : frame.this.isNncase with
  | true =>
    obtain ⟨holds, main, connected⟩ := context.nncase nncase
    cases field <;> simp [Field.inContext] at inContext <;> simp [Object.slot, Object.owns, setLoad, nncase, main, connected, holds.2]
  | false =>
    obtain ⟨main, connected, none⟩ := context.plain nncase
    cases field <;> simp [Field.inContext] at inContext <;> simp [Object.slot, Object.owns, setLoad, nncase, main.2, connected.2, none]

/-- A model whose context stands takes over the buffer it was parsed from. -/
theorem Parsed.adopt {before : Object} (agrees : before.Agrees) (keeps : before.Keeps frame.this)
    (unloaded : before.loadKmodel = false) (parsed : Parsed id before.slot rest frame) {slot : Slot} (free : slot.Free)
    {buffer : Nat} (points : frame.this.pointer .buffer = .block buffer) (owner : rest slot = some (buffer, .align)) :
    (frame.setLoad true).Sound id (Function.update rest slot none) := by
  obtain ⟨after, tidy, context, same⟩ := parsed.context
  have base : before.slot .buffer = none := by simp [Object.slot, Object.owns, unloaded]
  have vacant : around id after rest (.field id .buffer) = none := by
    simpa [around] using (same .buffer rfl).trans base
  have moved := tidy.move ((around_rest free id after rest).trans owner) vacant
  rw [around_rest_update free, ← around_update] at moved
  have slot : (frame.setLoad true).this.slot = Function.update after .buffer (some (buffer, .align)) := by
    have layer : ∀ field : Field, field.inLayer = true → (frame.setLoad true).this.slot field = before.slot field := by
      intro field inLayer
      have kept : before.Keeps (frame.setLoad true).this := ⟨keeps.yolo, keeps.pointer⟩
      rw [Object.slot, Object.slot, kept.pointer field inLayer]
      cases field <;> simp [Field.inLayer] at inLayer <;> simp [Object.owns, kept.yolo, kept.begun]
    funext field
    cases field with
    | buffer => simp [Object.slot, Object.owns, setLoad, points, Pointer.owned, Field.kind]
    | mainBuffer | fullyConnected | nncaseCtx =>
      exact (parsed_slot context rfl).trans (Function.update_of_ne (by simp) _ _).symm
    | anchor | output | boxes | probsBuf | probs => exact (layer _ rfl).trans (same _ rfl).symm
  refine ⟨?_, ?_⟩
  · rw [slot]
    exact moved
  · constructor
    · exact fun _ => ⟨buffer, points⟩
    · exact fun _ => parsed.nncase
    · exact fun _ => parsed.main
    · exact fun _ plain => (context.plain plain).2.1.1
    · exact agrees.keeps ⟨keeps.yolo, keeps.pointer⟩

/-- What a load leaves: the block that it was given is the object's when it succeeds, and its owner's when it fails. -/
def Handed (id : Nat) (slot : Slot) (rest : Slot → Option (Nat × Allocator)) (loaded : Frame × Bool) : Prop :=
  loaded.1.Sound id (if loaded.2 then Function.update rest slot none else rest)

private theorem Sound.parse (sound : frame.Sound id rest) (unloaded : frame.this.loadKmodel = false) {slot : Slot} (free : slot.Free)
    {buffer : Nat} (points : frame.this.pointer .buffer = .block buffer) (owner : rest slot = some (buffer, .align))
    {model : Model} (ok : model.header.Ok) : Handed id slot rest (frame.parse model) := by
  have alone := Object.slot_unloaded (.refl frame.this) unloaded
  have bare : ∀ field : Field, field.inContext = true → frame.this.slot field = none := by
    intro field inContext
    rw [alone]
    cases field <;> simp [Field.inContext] at inContext <;> simp [Owned.onlyLayer, Field.inLayer]
  have read : frame.use .buffer = frame := use_owned sound.tidy points ((around_rest free id _ rest).trans owner)
  have spec := kpuLoadKmodel_tidy sound.tidy bare read ok
  have keeps := kpuLoadKmodel_keeps model.header frame
  have down := (kpuLoadKmodel_load model.header frame).trans unloaded
  unfold Frame.parse
  dsimp only at spec ⊢
  split
  · next failed =>
    rw [failed, if_neg (by simp), alone] at spec
    have result : (frame.kpuLoadKmodel model.header).1.Sound id rest := .unloaded sound.agrees keeps down spec
    rw [Handed, failed]
    exact result
  · next done =>
    rw [if_pos (by simpa using done)] at spec
    let shaped := (frame.kpuLoadKmodel model.header).1.setShape model.input model.output
    have same : frame.this.Keeps shaped.this := ⟨keeps.yolo, keeps.pointer⟩
    split
    · obtain ⟨after, tidy, context, other⟩ := spec.context
      have freed : Tidy shaped.kpuModelFree.heap (around id after.withoutContext rest) :=
        kpuModelFree_tidy tidy ⟨context.nncase, context.plain⟩
      have bared : after.withoutContext = frame.this.slot.onlyLayer := by
        rw [← alone]
        funext field
        unfold Owned.withoutContext
        split
        · next inContext => exact (bare field inContext).symm
        · next outside => exact other field (by simpa using outside)
      rw [bared] at freed
      exact Sound.unloaded sound.agrees (same.trans shaped.kpuModelFree_keeps) (shaped.kpuModelFree_load.trans down) freed
    · have whole : Parsed id frame.this.slot rest shaped := by
        obtain ⟨after, tidy, context, other⟩ := spec.context
        exact ⟨⟨after, tidy, ⟨context.nncase, context.plain⟩, other⟩, spec.nncase, spec.main⟩
      exact whole.adopt sound.agrees same unloaded free ((kpuLoadKmodel_buffer model.header frame).trans points) owner

theorem Sound.loadKmodel (sound : frame.Sound id rest) {slot : Slot} (free : slot.Free) {buffer : Nat}
    (owner : rest slot = some (buffer, .align)) {model : Model} (ok : model.header.Ok) :
    Handed id slot rest (frame.loadKmodel buffer model) := by
  let ended := if frame.this.loadKmodel then frame.baseEnd else frame
  have first : ended.Sound id rest ∧ ended.this.loadKmodel = false := by
    cases loaded : frame.this.loadKmodel with
    | true =>
      simp only [ended, loaded, ↓reduceIte]
      exact ⟨sound.baseEnd (.inl loaded), frame.baseEnd_load⟩
    | false =>
      simp only [ended, loaded]
      exact ⟨sound, loaded⟩
  let taken := (ended.setLoad false).put .buffer (.block buffer)
  have keeps : ended.this.Keeps taken.this := by
    have lowered : ended.this.Keeps (ended.setLoad false).this := ⟨rfl, fun _ _ => rfl⟩
    exact lowered.trans (Object.Keeps.set _ _ rfl)
  have tidy := first.1.tidy
  rw [Object.slot_unloaded (.refl ended.this) first.2] at tidy
  have sound : taken.Sound id rest := Sound.unloaded first.1.agrees keeps rfl tidy
  exact sound.parse rfl free (by simp [taken, Object.set]) owner ok

theorem Sound.transient (sound : frame.Sound id rest) (kind : Allocator) :
    Sound id rest { frame with heap := (frame.heap.grant kind).release kind frame.heap.next } :=
  ⟨sound.tidy.transient kind, sound.agrees⟩

private theorem Sound.loadCopy (sound : frame.Sound id rest) (vacant : rest .held = none) {granted wholeRead : Bool} {model : Model}
    (ok : granted = true → wholeRead = true → model.header.Ok) : (frame.loadCopy granted wholeRead model).1.Sound id rest := by
  unfold Frame.loadCopy
  split
  · exact sound
  · next given =>
    dsimp only
    split
    · exact sound.transient .align
    · next whole =>
      let made : Frame := { frame with heap := frame.heap.grant .align }
      let lent := Function.update rest .held (some (frame.heap.next, .align))
      have free : Slot.Free .held := trivial
      have loan : Tidy made.heap (around id frame.this.slot lent) := by
        rw [← around_rest_update free]
        exact sound.tidy.grant ((around_rest free id _ rest).trans vacant) .align
      have ready : made.Sound id lent := ⟨loan, sound.agrees⟩
      have handed := ready.loadKmodel free (Function.update_self _ _ _) (ok (by simpa using given) (by simpa using whole))
      have back : Function.update lent .held none = rest := by
        rw [Function.update_idem, ← vacant, Function.update_eq_self]
      split
      · next done =>
        rw [Handed, if_pos done, back] at handed
        exact handed
      · next failed =>
        rw [Handed, if_neg failed] at handed
        refine ⟨?_, handed.agrees⟩
        rw [← back, ← around_rest_update free]
        apply handed.tidy.release
        exact (around_rest free id _ lent).trans (Function.update_self _ _ _)

end Frame

def ModelFile.Reads (file : ModelFile) : Prop :=
  (file.opened = true ∧ file.headerGranted = true) ∧ (file.headerRead = true ∧ 0 < file.modelSize) ∧
    ¬(file.checkSize = true ∧ (file.fileSize : Int) < file.modelSize) ∧ file.granted = true ∧ file.wholeRead = true

def ModelFlash.Reads (flash : ModelFlash) : Prop :=
  (if flash.size = -1 then flash.headerGranted = true ∧ flash.headerRead = true ∧ 0 < flash.modelSize else 0 < flash.size) ∧
    flash.granted = true ∧ flash.wholeRead = true

namespace Frame

theorem Sound.loadFile (sound : frame.Sound id rest) (vacant : rest .held = none) {file : ModelFile}
    (ok : file.Reads → file.model.header.Ok) : (frame.loadFile file).1.Sound id rest := by
  have probed : frame.probed.Sound id rest := sound.transient .align
  unfold Frame.loadFile
  split
  · exact sound
  · next header =>
    split
    · exact probed
    · next size =>
      split
      · exact probed
      · next fits =>
        simp only [not_or, Bool.not_eq_false, Int.not_le] at header size
        apply probed.loadCopy vacant
        intro granted whole
        exact ok ⟨header, size, fits, granted, whole⟩

theorem Sound.loadFlash (sound : frame.Sound id rest) (vacant : rest .held = none) {flash : ModelFlash}
    (ok : flash.Reads → flash.model.header.Ok) : (frame.loadFlash flash).1.Sound id rest := by
  have probed : frame.probed.Sound id rest := sound.transient .align
  unfold Frame.loadFlash
  split
  · next probes =>
    split
    · exact sound
    · next header =>
      split
      · exact probed
      · next size =>
        simp only [not_or, Bool.not_eq_false, Int.not_le] at header size
        apply probed.loadCopy vacant
        intro granted whole
        refine ok ⟨?_, granted, whole⟩
        rw [if_pos probes]
        exact ⟨header, size⟩
  · next given =>
    split
    · exact sound
    · next size =>
      apply sound.loadCopy vacant
      intro granted whole
      refine ok ⟨?_, granted, whole⟩
      rw [if_neg given]
      exact Int.not_le.mp size

end Frame

end ArduinoK210.Kpu
