import ArduinoK210.Imaging.Buffers
import ArduinoK210.Lib.Run

/-! Who owns a pixel buffer. A world is sound when nothing was freed or read wrongly, every
block is owned by exactly one object, and the two flags of an object say where its buffer
came from. Each call keeps that under a condition on the objects it finds. -/

namespace ArduinoK210.Imaging
open Heap

/-- The block that an object owns, with the allocator that its flags stand for. -/
def Object.slot (object : Object) : Option (Nat × Alloc) :=
  match object.pixel with
  | some (.block number) => some (number, if object.bufferNotAlign then .plain else .align)
  | _ => none

/-- `mUserBuffer` is set for a buffer of the user and clear for one of the library. -/
def Object.Agrees (object : Object) : Prop :=
  match object.pixel with
  | none => True
  | some (.user _) => object.userBuffer = true ∧ object.bufferNotAlign = false
  | some (.block _) => object.userBuffer = false

def World.slots (world : World) (id : Nat) : Option (Nat × Alloc) := (world.objects id).bind Object.slot

structure World.Sound (world : World) : Prop where
  tidy : Tidy world.heap world.slots
  agrees : ∀ id object, world.objects id = some object → object.Agrees

/-- The buffer of `object` may be freed with `rt_free_align`, and one from `rt_malloc_align` may take its place with the
flags left as they are. -/
def Object.Replaceable (granted : Bool) (object : Object) : Prop :=
  match object.pixel with
  | none => granted = true → object.userBuffer = false ∧ object.bufferNotAlign = false
  | some (.user _) => False
  | some (.block _) => object.bufferNotAlign = false

def Object.fresh (object : Object) : Object := { object with userBuffer := false }

def BmpFile.Reads (file : BmpFile) : Prop :=
  file.opened = true ∧ file.headerRead = true ∧ file.parsed = true ∧ file.granted = true ∧ file.wholeRead = true

/-- Both objects are there and the source has pixels. -/
def World.Reaches (src dst : Nat) (need : Object → Object → Prop) (world : World) : Prop :=
  ∀ source destination, world.objects src = some source → world.objects dst = some destination →
    source.pixel ≠ none → need source destination

/-- What a call needs of the world. Calls that return before they touch a buffer need nothing. -/
def Call.Ok : Call → World → Prop
  | .empty _, _ | .created .., _ | .user .., _ | .destroy _, _ => True
  | .cut src dst r granted, world =>
      world.Reaches src dst fun source destination => ¬r.TooLarge source.shape → destination.Replaceable granted
  | .resize src dst _ _ granted, world | .convert _ src dst granted, world =>
      world.Reaches src dst fun _ destination => destination.Replaceable granted
  | .cutToNewFormat src dst r _ granted, world =>
      world.Reaches src dst fun source destination => ¬r.TooLarge source.shape → destination.fresh.Replaceable granted
  | .resizeToNewFormat src dst _ _ _ granted, world =>
      world.Reaches src dst fun _ destination => destination.fresh.Replaceable granted
  | .loadBmp dst file, world =>
      ∀ destination width height comp, world.objects dst = some destination → file.Reads →
        file.decoded = some (width, height, comp) → comp = 3 ∧ destination.pixel = none ∧ destination.userBuffer = false

namespace World

variable {world : World} {id : Nat} {object : Object}

private theorem sound_start : start.Sound := by
  refine ⟨Tidy.empty, ?_⟩
  intro id object impossible
  cases impossible

private theorem slots_set (world : World) (id : Nat) (object : Object) :
    (world.set id object).slots = Function.update world.slots id object.slot := by
  funext other
  by_cases same : other = id
  · subst same
    simp [slots, set]
  · simp [slots, set, same]

private theorem set_objects (world : World) (id : Nat) (object : Object) : (world.set id object).objects id = some object :=
  Function.update_self _ _ _

private theorem slots_some (found : world.objects id = some object) : world.slots id = object.slot := by
  simp [slots, found]

private theorem slots_none (missing : world.objects id = none) : world.slots id = none := by
  simp [slots, missing]

theorem Sound.place (sound : world.Sound) {heap : Store Alloc}
    (tidy : Tidy heap (Function.update world.slots id object.slot)) (agrees : object.Agrees) :
    ({ world with heap }.set id object).Sound := by
  refine ⟨?_, ?_⟩
  · rw [slots_set]
    exact tidy
  · intro other one found
    by_cases same : other = id
    · subst same
      rw [set_objects] at found
      cases found
      exact agrees
    · exact sound.agrees other one ((Function.update_of_ne same _ _).symm.trans found)

theorem Sound.set (sound : world.Sound) (same : object.slot = world.slots id) (agrees : object.Agrees) :
    (world.set id object).Sound := by
  apply sound.place
  · rw [same, Function.update_eq_self]
    exact sound.tidy
  · exact agrees

private theorem Sound.agrees_set (sound : (world.set id object).Sound) : object.Agrees :=
  sound.agrees id object (set_objects world id object)

private theorem access_sound {heap : Store Alloc} {slots : Nat → Option (Nat × Alloc)} (tidy : Tidy heap slots) {i : Nat}
    (owned : slots i = object.slot) : access object.pixel heap = heap := by
  unfold Object.slot at owned
  unfold access
  split
  · next number buffer =>
    simp only [buffer] at owned
    apply Store.use_live
    rw [tidy.held i number _ owned]
    simp
  · rfl

private theorem access_calm {pixel : Option Buffer} {heap : Store Alloc} (calm : (access pixel heap).faulty = false) :
    access pixel heap = heap := by
  unfold access at calm ⊢
  split
  · next => exact Store.use_calm calm
  · rfl

theorem copy_sound_iff (world : World) (src dst : Nat) : (world.copy src dst).Sound ↔ world.Sound := by
  unfold copy
  split
  · next source destination atSrc atDst =>
    split
    · exact Iff.rfl
    · refine ⟨fun sound => ?_, fun sound => ?_⟩
      · have outer := access_calm sound.tidy.calm
        have inner : access source.pixel world.heap = world.heap := by
          apply access_calm
          rw [← outer]
          exact sound.tidy.calm
        rw [outer, inner] at sound
        exact sound
      · rw [access_sound sound.tidy (slots_some atSrc), access_sound sound.tidy (slots_some atDst)]
        exact sound
  · exact Iff.rfl

def install (dst : Nat) (made : Object × Store Alloc) (world : World) : World := { world with heap := made.2 }.set dst made.1

private theorem finish_sound_iff (granted : Bool) (src dst : Nat) (made : Object × Store Alloc) (world : World) :
    (world.finish granted src dst made).Sound ↔ (world.install dst made).Sound := by
  unfold finish
  split
  · exact copy_sound_iff _ src dst
  · exact Iff.rfl

theorem renew_sound_iff (sound : world.Sound) (vacant : world.slots id = none) (granted : Bool) :
    (world.install id (object.renew granted world.heap)).Sound ↔
      (granted = true → object.userBuffer = false ∧ object.bufferNotAlign = false) := by
  cases granted with
  | false =>
    refine ⟨fun _ impossible => (by cases impossible), fun _ => ?_⟩
    apply sound.set
    · exact vacant.symm
    · trivial
  | true =>
    let renewed : Object := { object with pixel := some (.block world.heap.next) }
    have owned : renewed.slot = some (world.heap.next, if object.bufferNotAlign then Alloc.plain else .align) := rfl
    refine ⟨fun after _ => ⟨after.agrees_set, ?_⟩, fun flags => ?_⟩
    · have slot : (world.install id (object.renew true world.heap)).slots id = renewed.slot :=
        slots_some (set_objects _ id renewed)
      have live := after.tidy.held id _ _ (slot.trans owned)
      have made : (world.install id (object.renew true world.heap)).heap.live world.heap.next = some .align :=
        Function.update_self _ _ _
      rw [made] at live
      cases flag : object.bufferNotAlign with
      | false => rfl
      | true =>
        rw [flag] at live
        cases live
    · obtain ⟨library, aligned⟩ := flags rfl
      have tidy : Tidy (world.heap.grant .align) (Function.update world.slots id renewed.slot) := by
        rw [owned, aligned]
        exact sound.tidy.grant vacant .align
      exact sound.place tidy library

private theorem Sound.vacate (sound : world.Sound) (found : world.objects id = some object) {number : Nat} {kind : Alloc}
    (owned : object.slot = some (number, kind)) (bare : Object) (empty : bare.pixel = none) :
    ({ world with heap := world.heap.release kind number }.set id bare).Sound := by
  apply sound.place
  · have nothing : bare.slot = none := by simp [Object.slot, empty]
    rw [nothing]
    exact sound.tidy.release ((slots_some found).trans owned)
  · simp [Object.Agrees, empty]

theorem Sound.exchange (sound : world.Sound) (found : world.objects id = some object) {number : Nat}
    (owned : object.slot = some (number, .align)) (shaped : Object) (library : shaped.userBuffer = false)
    (aligned : shaped.bufferNotAlign = false) (granted : Bool) :
    (world.install id (shaped.renew granted (world.heap.release .align number))).Sound := by
  let bare : Object := { shaped with pixel := none }
  let between : World := { world with heap := world.heap.release .align number }.set id bare
  have same : between.install id (bare.renew granted between.heap) =
      world.install id (shaped.renew granted (world.heap.release .align number)) := by
    cases granted <;> simp [install, World.set, Object.renew, bare, between]
  rw [← same]
  apply (renew_sound_iff (sound.vacate found owned bare rfl) (slots_some (set_objects _ id bare)) granted).mpr
  intro _
  exact ⟨library, aligned⟩

private theorem renew_faulty (object : Object) (granted : Bool) (heap : Store Alloc) :
    (object.renew granted heap).2.faulty = heap.faulty := by
  cases granted <;> rfl

/-- The old buffer is freed and a new one takes its place. -/
theorem replace_sound_iff (sound : world.Sound) (found : world.objects id = some object) (shaped : Object)
    (pixel : shaped.pixel = object.pixel) (notAlign : shaped.bufferNotAlign = object.bufferNotAlign)
    (user : object.userBuffer = false → shaped.userBuffer = false) (granted : Bool) :
    (world.install id (shaped.replace granted world.heap)).Sound ↔ shaped.Replaceable granted := by
  have agrees := sound.agrees id object found
  have slot := slots_some found
  cases buffer : object.pixel with
  | none =>
    simp only [Object.replace, Object.Replaceable, pixel, buffer]
    apply renew_sound_iff sound
    simpa [Object.slot, buffer] using slot
  | some old =>
    cases old with
    | user address =>
      simp only [Object.replace, Object.Replaceable, pixel, buffer, iff_false]
      intro after
      have calm := after.tidy.calm
      rw [install, World.set, renew_faulty] at calm
      cases calm
    | block number =>
      simp only [Object.replace, Object.Replaceable, pixel, buffer, rtFreeAlign]
      have library : shaped.userBuffer = false := user (by simpa [Object.Agrees, buffer] using agrees)
      cases flag : object.bufferNotAlign with
      | true =>
        have live := sound.tidy.held id number .plain (by simp [slot, Object.slot, buffer, flag])
        refine ⟨fun after => ?_, fun aligned => ?_⟩
        · have calm := after.tidy.calm
          rw [install, World.set, renew_faulty] at calm
          have kind := ((release_faulty _ _ _).mp calm).2
          rw [live] at kind
          cases kind
        · rw [notAlign, flag] at aligned
          cases aligned
      | false =>
        have owned : object.slot = some (number, .align) := by simp [Object.slot, buffer, flag]
        refine ⟨fun _ => notAlign.trans flag, fun aligned => ?_⟩
        exact sound.exchange found owned shaped library aligned granted

private theorem replaceOwned_eq (shaped : Object) (cleared : shaped.userBuffer = false) (granted : Bool) (heap : Store Alloc) :
    shaped.replaceOwned granted heap = shaped.replace granted heap := by
  unfold Object.replaceOwned Object.replace
  split
  · rfl
  · rw [if_pos cleared]

private theorem construct_sound (sound : world.Sound) (bare : object.slot = none) (agrees : object.Agrees) :
    (world.construct id object).Sound := by
  unfold construct
  split
  · next missing => exact sound.set (bare.trans (slots_none missing).symm) agrees
  · exact sound

private theorem created_sound (sound : world.Sound) (id width height : Nat) (format : Format) (create granted : Bool) :
    (world.created id width height format create granted).Sound := by
  unfold created
  split
  · exact sound
  · next missing =>
    dsimp only
    split
    · apply (renew_sound_iff sound (slots_none missing) granted).mpr
      intro _
      exact ⟨rfl, rfl⟩
    · exact sound.set (slots_none missing).symm trivial

private theorem Sound.remove (sound : world.Sound) {heap : Store Alloc} (tidy : Tidy heap (Function.update world.slots id none)) :
    World.Sound ⟨heap, Function.update world.objects id none⟩ := by
  have same : World.slots ⟨heap, Function.update world.objects id none⟩ = Function.update world.slots id none := by
    funext other
    by_cases here : other = id
    · subst here
      simp [World.slots]
    · simp [World.slots, here]
  refine ⟨?_, ?_⟩
  · rw [same]
    exact tidy
  · intro other one live
    by_cases here : other = id
    · subst here
      cases (Function.update_self other none world.objects).symm.trans live
    · exact sound.agrees other one ((Function.update_of_ne here _ _).symm.trans live)

private theorem Sound.forget (sound : world.Sound) (nothing : world.slots id = none) :
    World.Sound ⟨world.heap, Function.update world.objects id none⟩ := by
  apply sound.remove
  rw [← nothing, Function.update_eq_self]
  exact sound.tidy

/-- The destructor frees exactly what the object owns. -/
theorem destroy_sound (sound : world.Sound) (id : Nat) : (world.destroy id).Sound := by
  unfold destroy
  split
  · exact sound
  · next object found =>
    have agrees := sound.agrees id object found
    have slot := slots_some found
    cases buffer : object.pixel with
    | none => exact sound.forget (by simpa [Object.slot, buffer] using slot)
    | some old =>
      cases old with
      | user address =>
        simp only [Object.Agrees, buffer] at agrees
        simp only [agrees.1, ↓reduceIte]
        exact sound.forget (by simpa [Object.slot, buffer] using slot)
      | block number =>
        simp only [Object.Agrees, buffer] at agrees
        cases flag : object.bufferNotAlign with
        | true =>
          simp only [agrees, Bool.false_eq_true, ↓reduceIte]
          exact sound.remove (sound.tidy.release (by simp [slot, Object.slot, buffer, flag]))
        | false =>
          simp only [agrees, Bool.false_eq_true, ↓reduceIte]
          exact sound.remove (sound.tidy.release (by simp [slot, Object.slot, buffer, flag]))

variable {src dst : Nat} {need : Object → Object → Prop} {source destination : Object}

private theorem reaches_iff (atSrc : world.objects src = some source) (atDst : world.objects dst = some destination) :
    world.Reaches src dst need ↔ (¬source.pixel.isNone → need source destination) := by
  rw [Option.isNone_iff_eq_none]
  refine ⟨fun reaches => reaches source destination atSrc atDst, fun given one other here there => ?_⟩
  rw [atSrc] at here
  rw [atDst] at there
  cases here
  cases there
  exact given

private theorem reaches_absent
    (absent : ∀ source destination, world.objects src = some source → world.objects dst = some destination → False) :
    world.Reaches src dst need :=
  fun source destination atSrc atDst => (absent source destination atSrc atDst).elim

theorem unless_sound_iff (sound : world.Sound) {stop : Prop} [Decidable stop] {act : World} {kept : Prop}
    (rest : act.Sound ↔ kept) : (if stop then world else act).Sound ↔ (¬stop → kept) := by
  split
  · next stopped => exact ⟨fun _ going => absurd stopped going, fun _ => sound⟩
  · next going => exact ⟨fun after _ => rest.mp after, fun given => rest.mpr (given going)⟩

private theorem cut_sound_iff (sound : world.Sound) (src dst : Nat) (r : Rectangle) (granted : Bool) :
    (world.cut src dst r granted).Sound ↔
      world.Reaches src dst fun source destination => ¬r.TooLarge source.shape → destination.Replaceable granted := by
  unfold cut
  split
  · next source destination atSrc atDst =>
    rw [reaches_iff atSrc atDst]
    apply unless_sound_iff sound
    apply unless_sound_iff sound
    rw [finish_sound_iff]
    exact Iff.trans (replace_sound_iff sound atDst _ (by rfl) (by rfl) (by exact id) granted) Iff.rfl
  · next absent => exact ⟨fun _ => reaches_absent absent, fun _ => sound⟩

private theorem resize_sound_iff (sound : world.Sound) (src dst width height : Nat) (granted : Bool) :
    (world.resize src dst width height true granted).Sound ↔
      world.Reaches src dst fun _ destination => destination.Replaceable granted := by
  unfold resize
  split
  · next source destination atSrc atDst =>
    rw [reaches_iff atSrc atDst]
    apply unless_sound_iff sound
    rw [if_neg (by simp), if_pos rfl, finish_sound_iff]
    exact Iff.trans (replace_sound_iff sound atDst _ (by rfl) (by rfl) (by exact id) granted) Iff.rfl
  · next absent => exact ⟨fun _ => reaches_absent absent, fun _ => sound⟩

private theorem convert_sound_iff (sound : world.Sound) (format : Format) (src dst : Nat) (granted : Bool) :
    (world.convert format src dst granted).Sound ↔
      world.Reaches src dst fun _ destination => destination.Replaceable granted := by
  unfold convert
  split
  · next source destination atSrc atDst =>
    rw [reaches_iff atSrc atDst]
    apply unless_sound_iff sound
    rw [finish_sound_iff]
    exact Iff.trans (replace_sound_iff sound atDst _ (by rfl) (by rfl) (by exact id) granted) Iff.rfl
  · next absent => exact ⟨fun _ => reaches_absent absent, fun _ => sound⟩

private theorem cutToNewFormat_sound_iff (sound : world.Sound) (src dst : Nat) (r : Rectangle) (format : Format) (granted : Bool) :
    (world.cutToNewFormat src dst r format granted).Sound ↔
      world.Reaches src dst fun source destination => ¬r.TooLarge source.shape → destination.fresh.Replaceable granted := by
  unfold cutToNewFormat
  split
  · next source destination atSrc atDst =>
    rw [reaches_iff atSrc atDst]
    apply unless_sound_iff sound
    apply unless_sound_iff sound
    rw [finish_sound_iff, replaceOwned_eq _ rfl]
    exact Iff.trans (replace_sound_iff sound atDst _ (by rfl) (by rfl) (by intro; rfl) granted) Iff.rfl
  · next absent => exact ⟨fun _ => reaches_absent absent, fun _ => sound⟩

theorem reshape_sound_iff (found : world.objects id = some object) (shaped : Object) (pixel : shaped.pixel = object.pixel)
    (user : shaped.userBuffer = object.userBuffer) (notAlign : shaped.bufferNotAlign = object.bufferNotAlign) :
    (world.set id shaped).Sound ↔ world.Sound := by
  have slot : shaped.slot = object.slot := by simp only [Object.slot, pixel, notAlign]
  have agrees : shaped.Agrees ↔ object.Agrees := by simp only [Object.Agrees, pixel, user, notAlign]
  refine ⟨fun sound => ?_, fun sound => ?_⟩
  · have back : (world.set id shaped).set id object = world := by
      rw [World.set, World.set, Function.update_idem, ← found, Function.update_eq_self]
    rw [← back]
    apply sound.set
    · rw [slots_some (set_objects world id shaped), slot]
    · exact agrees.mp sound.agrees_set
  · apply sound.set
    · rw [slot, slots_some found]
    · exact agrees.mpr (sound.agrees id object found)

/-- Without `create` a resize keeps the buffer it finds. -/
theorem resize_in_place_iff (src dst width height : Nat) (granted : Bool) :
    (world.resize src dst width height false granted).Sound ↔ world.Sound := by
  unfold resize
  split
  · next source destination atSrc atDst =>
    split
    · exact Iff.rfl
    · split
      · exact Iff.rfl
      · dsimp only
        rw [if_neg (by simp), copy_sound_iff]
        exact reshape_sound_iff atDst _ rfl rfl rfl
  · exact Iff.rfl

private theorem resizeToNewFormat_sound_iff (sound : world.Sound) (src dst width height : Nat) (format : Format) (granted : Bool) :
    (world.resizeToNewFormat src dst width height format granted).Sound ↔
      world.Reaches src dst fun _ destination => destination.fresh.Replaceable granted := by
  unfold resizeToNewFormat
  split
  · next source destination atSrc atDst =>
    rw [reaches_iff atSrc atDst]
    apply unless_sound_iff sound
    have made := replace_sound_iff sound atDst
      { destination with width, height, bpp := format.bpp, format, userBuffer := false } rfl rfl (fun _ => rfl) granted
    refine Iff.trans ?_ made
    dsimp only
    rw [replaceOwned_eq _ (by rfl)]
    split
    · exact Iff.rfl
    · split
      · split
        · exact resize_in_place_iff src dst width height granted
        · exact copy_sound_iff _ src dst
      · exact Iff.rfl
  · next absent => exact ⟨fun _ => reaches_absent absent, fun _ => sound⟩

def decodedHeap (heap : Store Alloc) : Store Alloc :=
  (((heap.grant .align).use heap.next).grant .plain).release .align heap.next

private theorem use_granted (heap : Store Alloc) (kind : Alloc) : (heap.grant kind).use heap.next = heap.grant kind := by
  apply Store.use_live
  simp [Store.grant_live]

private theorem decodedHeap_live (heap : Store Alloc) (dead : heap.live heap.next = none) :
    (decodedHeap heap).live = Function.update heap.live (heap.next + 1) (some .plain) := by
  rw [decodedHeap, use_granted]
  funext block
  by_cases temp : block = heap.next
  · subst temp
    simp [Store.release, dead]
  · by_cases image : block = heap.next + 1
    · subst image
      simp [Store.release, Store.grant]
    · simp [Store.release, Store.grant, temp, image]

private theorem decodedHeap_calm (heap : Store Alloc) (calm : heap.faulty = false) : (decodedHeap heap).faulty = false := by
  rw [decodedHeap, use_granted]
  apply (release_faulty _ _ _).mpr
  refine ⟨calm, ?_⟩
  simp [Store.grant]

/-- The image that the decoder made goes to a pointer that owns nothing. -/
theorem decodedHeap_tidy {heap : Store Alloc} {slots : Nat → Option (Nat × Alloc)} (tidy : Tidy heap slots)
    (vacant : slots id = none) : Tidy (decodedHeap heap) (Function.update slots id (some (heap.next + 1, .plain))) := by
  let later : Store Alloc := { heap with next := heap.next + 1 }
  have base : Tidy later slots := tidy.carry tidy.calm rfl (Nat.le_succ _)
  apply (base.grant vacant .plain).carry
  · exact decodedHeap_calm heap tidy.calm
  · exact decodedHeap_live heap (tidy.bounded _ (Nat.le_refl _))
  · exact Nat.le_refl _

private theorem decodedHeap_owned {heap : Store Alloc} {slots later : Nat → Option (Nat × Alloc)} (tidy : Tidy heap slots)
    (after : Tidy (decodedHeap heap) later) : ∃ id, later id = some (heap.next + 1, .plain) := by
  apply after.owned
  rw [decodedHeap_live heap (tidy.bounded _ (Nat.le_refl _)), Function.update_self]

/-- The old buffer of the destination is still live, and nothing points to it any more. -/
theorem decodedHeap_vacant {heap : Store Alloc} {slots : Nat → Option (Nat × Alloc)} (tidy : Tidy heap slots)
    {owned : Nat × Alloc} (fresh : owned.1 = heap.next + 1)
    (after : Tidy (decodedHeap heap) (Function.update slots id (some owned))) : slots id = none := by
  cases before : slots id with
  | none => rfl
  | some old =>
    obtain ⟨number, kind⟩ := old
    have live := tidy.held id number kind before
    have apart : number ≠ heap.next + 1 := by
      intro same
      have dead := tidy.bounded (heap.next + 1) (Nat.le_succ _)
      rw [← same, live] at dead
      cases dead
    have still : (decodedHeap heap).live number = some kind := by
      rw [decodedHeap_live heap (tidy.bounded _ (Nat.le_refl _)), Function.update_of_ne apart]
      exact live
    obtain ⟨other, holds⟩ := after.owned number kind still
    by_cases here : other = id
    · subst here
      rw [Function.update_self] at holds
      cases holds
      exact absurd fresh apart
    · rw [Function.update_of_ne here] at holds
      exact absurd (tidy.alone other id number kind kind holds before) here

private theorem loadBmp_decoded (found : world.objects dst = some destination) {file : BmpFile} (reads : file.Reads)
    {width height comp : Nat} (decoded : file.decoded = some (width, height, comp)) :
    world.loadBmp dst file =
      if comp ≠ 3 then { world with heap := decodedHeap world.heap }
      else { world with heap := decodedHeap world.heap }.set dst
        { destination with width, height, pixel := some (.block (world.heap.next + 1)), format := .rgb888,
                           bpp := Format.rgb888.bpp, bufferNotAlign := true } := by
  obtain ⟨opened, header, parsed, granted, whole⟩ := reads
  simp [loadBmp, found, opened, header, parsed, granted, whole, decoded, decodedHeap, Store.grant]

/-- A decoded image stays behind when it has not three components, and an old buffer when there was one. -/
theorem loaded_sound_iff (sound : world.Sound) (found : world.objects dst = some destination) (width height comp : Nat) :
    (if comp ≠ 3 then { world with heap := decodedHeap world.heap }
      else { world with heap := decodedHeap world.heap }.set dst
        { destination with width, height, pixel := some (.block (world.heap.next + 1)), format := .rgb888,
                           bpp := Format.rgb888.bpp, bufferNotAlign := true }).Sound ↔
      comp = 3 ∧ destination.pixel = none ∧ destination.userBuffer = false := by
  have agrees := sound.agrees dst destination found
  have slot := slots_some found
  split
  · next other =>
    refine ⟨fun after => ?_, fun given => absurd given.1 other⟩
    obtain ⟨id, holds⟩ := decodedHeap_owned sound.tidy after.tidy
    have live := sound.tidy.held id _ _ holds
    rw [sound.tidy.bounded _ (Nat.le_succ _)] at live
    cases live
  · next three =>
    refine ⟨fun after => ⟨not_not.mp three, ?_⟩, fun given => ?_⟩
    · have library : destination.userBuffer = false := after.agrees_set
      have tidy := after.tidy
      rw [slots_set] at tidy
      have vacant : destination.slot = none := slot.symm.trans (decodedHeap_vacant sound.tidy rfl tidy)
      refine ⟨?_, library⟩
      cases buffer : destination.pixel with
      | none => rfl
      | some old =>
        cases old with
        | user address =>
          simp only [Object.Agrees, buffer] at agrees
          rw [library] at agrees
          cases agrees.1
        | block number =>
          simp only [Object.slot, buffer] at vacant
          cases vacant
    · apply sound.place
      · apply decodedHeap_tidy sound.tidy
        rw [slot, Object.slot, given.2.1]
      · exact given.2.2

private theorem loadBmp_given_up (sound : world.Sound) (dst : Nat) {file : BmpFile} (given_up : file.Reads → file.decoded = none) :
    (world.loadBmp dst file).Sound := by
  unfold loadBmp
  split
  · exact sound
  · dsimp only
    split
    · exact sound
    · split
      · exact ⟨sound.tidy.transient .align, sound.agrees⟩
      · next early whole =>
        have nothing : file.decoded = none := given_up (by simpa [BmpFile.Reads, and_assoc] using And.intro early whole)
        rw [nothing, use_granted]
        exact ⟨sound.tidy.transient .align, sound.agrees⟩

private theorem loadBmp_sound_iff (sound : world.Sound) (dst : Nat) (file : BmpFile) :
    (world.loadBmp dst file).Sound ↔
      ∀ destination width height comp, world.objects dst = some destination → file.Reads →
        file.decoded = some (width, height, comp) → comp = 3 ∧ destination.pixel = none ∧ destination.userBuffer = false := by
  by_cases given_up : file.Reads → file.decoded = none
  · refine ⟨fun _ destination width height comp _ reads decoded => ?_, fun _ => loadBmp_given_up sound dst given_up⟩
    rw [given_up reads] at decoded
    cases decoded
  · obtain ⟨reads, found⟩ := Classical.not_imp.mp given_up
    obtain ⟨⟨width, height, comp⟩, decoded⟩ := Option.ne_none_iff_exists'.mp found
    cases place : world.objects dst with
    | none =>
      have same : world.loadBmp dst file = world := by simp [loadBmp, place]
      rw [same]
      exact ⟨fun _ destination _ _ _ impossible => (by cases impossible), fun _ => sound⟩
    | some destination =>
      have needed : (∀ one w h c, some destination = some one → file.Reads → file.decoded = some (w, h, c) →
          c = 3 ∧ one.pixel = none ∧ one.userBuffer = false) ↔
          comp = 3 ∧ destination.pixel = none ∧ destination.userBuffer = false := by
        refine ⟨fun all => all destination width height comp rfl reads decoded, fun given one w h c here _ made => ?_⟩
        rw [decoded] at made
        cases here
        cases made
        exact given
      rw [needed, loadBmp_decoded place reads decoded]
      exact loaded_sound_iff sound place width height comp

end World

private theorem World.step_sound_iff (call : Call) (world : World) (sound : world.Sound) :
    (World.step call world).Sound ↔ call.Ok world := by
  cases call with
  | empty id => exact ⟨fun _ => trivial, fun _ => construct_sound sound rfl trivial⟩
  | created id width height format create granted =>
    exact ⟨fun _ => trivial, fun _ => created_sound sound id width height format create granted⟩
  | user id width height format buffer =>
    refine ⟨fun _ => trivial, fun _ => ?_⟩
    cases buffer with
    | none => exact construct_sound sound rfl trivial
    | some address => exact construct_sound sound rfl ⟨rfl, rfl⟩
  | cut src dst r granted => exact cut_sound_iff sound src dst r granted
  | resize src dst width height granted => exact resize_sound_iff sound src dst width height granted
  | convert format src dst granted => exact convert_sound_iff sound format src dst granted
  | cutToNewFormat src dst r format granted => exact cutToNewFormat_sound_iff sound src dst r format granted
  | resizeToNewFormat src dst width height format granted =>
    exact resizeToNewFormat_sound_iff sound src dst width height format granted
  | loadBmp dst file => exact loadBmp_sound_iff sound dst file
  | destroy id => exact ⟨fun _ => trivial, fun _ => destroy_sound sound id⟩

/-- Every state of a run is sound exactly when each call finds objects whose buffer it may replace. -/
theorem World.pixel_buffers_owned_iff (calls : List Call) :
    (∀ front, front <+: calls → (Run.run World.step front World.start).Sound) ↔
      Run.Guarded World.step Call.Ok calls World.start :=
  Run.guarded_iff World.step_sound_iff calls World.start World.sound_start

/-- `to_grayscale` into an image over the user's memory frees that memory. -/
theorem World.user_buffer_freed :
    ¬(Run.run World.step
      [.user 0 8 8 .grayscale (some 7), .created 1 8 8 .rgb565 true true, .convert .grayscale 1 0 true] World.start).Sound := by
  intro sound
  cases sound.tidy.calm

end ArduinoK210.Imaging
