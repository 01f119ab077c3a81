import ArduinoK210.Imaging.Cut
import ArduinoK210.Lib.Heap

/-! The pixel buffers of `Image` objects: who allocates, replaces and frees them. What the pixels are is left to the other
modules; here a buffer is a block of the heap or memory that the user brought. -/

namespace ArduinoK210.Imaging

inductive Alloc where
  | align | plain
  deriving DecidableEq

inductive Buffer where
  | user (address : Nat)
  | block (number : Nat)

structure Object where
  width : Nat
  height : Nat
  bpp : Nat
  format : Format
  pixel : Option Buffer
  userBuffer : Bool
  bufferNotAlign : Bool

def Object.shape (object : Object) : Image := ⟨object.width, object.height, object.bpp, object.format, none⟩

structure World where
  heap : Heap.Store Alloc
  objects : Nat → Option Object

/-- What becomes of the file and of the two allocations in `load_bmp`. `decoded` has the width, the height and the
components that `stbi_load_from_memory` reports with an image. -/
structure BmpFile where
  opened : Bool
  headerRead : Bool
  parsed : Bool
  granted : Bool
  wholeRead : Bool
  decoded : Option (Nat × Nat × Nat)

/-- The calls. `granted` says whether the allocation in the call succeeds. -/
inductive Call where
  | empty (id : Nat)
  | created (id width height : Nat) (format : Format) (create granted : Bool)
  | user (id width height : Nat) (format : Format) (buffer : Option Nat)
  | cut (src dst : Nat) (r : Rectangle) (granted : Bool)
  | resize (src dst width height : Nat) (granted : Bool)
  | convert (format : Format) (src dst : Nat) (granted : Bool)
  | cutToNewFormat (src dst : Nat) (r : Rectangle) (format : Format) (granted : Bool)
  | resizeToNewFormat (src dst width height : Nat) (format : Format) (granted : Bool)
  | loadBmp (dst : Nat) (file : BmpFile)
  | destroy (id : Nat)

def rtFreeAlign (buffer : Buffer) (heap : Heap.Store Alloc) : Heap.Store Alloc :=
  match buffer with
  | .user _ => heap.fault
  | .block number => heap.release .align number

def rtFree (buffer : Buffer) (heap : Heap.Store Alloc) : Heap.Store Alloc :=
  match buffer with
  | .user _ => heap.fault
  | .block number => heap.release .plain number

def access (pixel : Option Buffer) (heap : Heap.Store Alloc) : Heap.Store Alloc :=
  match pixel with
  | some (.block number) => heap.use number
  | _ => heap

/-- The last part of every `create`: the pointer gets what `rt_malloc_align` returns. -/
def Object.renew (granted : Bool) (object : Object) (heap : Heap.Store Alloc) : Object × Heap.Store Alloc :=
  if granted then ({ object with pixel := some (.block heap.next) }, heap.grant .align)
  else ({ object with pixel := none }, heap)

/-- `CREATE_DEST_IMAGE`, `cut` and `resize` free the old buffer, whatever the flags say. -/
def Object.replace (granted : Bool) (object : Object) (heap : Heap.Store Alloc) : Object × Heap.Store Alloc :=
  match object.pixel with
  | none => object.renew granted heap
  | some old => object.renew granted (rtFreeAlign old heap)

/-- `cut_to_new_format` and `resize_to_new_format` look at `mUserBuffer`, which they have just cleared. -/
def Object.replaceOwned (granted : Bool) (object : Object) (heap : Heap.Store Alloc) : Object × Heap.Store Alloc :=
  match object.pixel with
  | none => object.renew granted heap
  | some old => object.renew granted (if object.userBuffer = false then rtFreeAlign old heap else heap)

namespace World

def start : World := ⟨Heap.Store.empty, fun _ => none⟩

def set (id : Nat) (object : Object) (world : World) : World :=
  { world with objects := Function.update world.objects id (some object) }

/-- The constructors. An object is constructed in storage that holds none. -/
def construct (id : Nat) (object : Object) (world : World) : World :=
  match world.objects id with
  | none => world.set id object
  | some _ => world

def created (id width height : Nat) (format : Format) (create granted : Bool) (world : World) : World :=
  match world.objects id with
  | some _ => world
  | none =>
      let object : Object := ⟨width, height, format.bpp, format, none, false, false⟩
      if create then
        let made := object.renew granted world.heap
        { world with heap := made.2 }.set id made.1
      else world.set id object

/-- The loops read the pixels of `src` and write those of `dst`, both as the objects now have them. -/
def copy (src dst : Nat) (world : World) : World :=
  match world.objects src, world.objects dst with
  | some source, some destination =>
      if source.format = .invalid then world
      else { world with heap := access destination.pixel (access source.pixel world.heap) }
  | _, _ => world

/-- The destination with its new buffer, and the loops when there is one. -/
def finish (granted : Bool) (src dst : Nat) (made : Object × Heap.Store Alloc) (world : World) : World :=
  let after := { world with heap := made.2 }.set dst made.1
  if granted then after.copy src dst else after

def cut (src dst : Nat) (r : Rectangle) (granted : Bool) (world : World) : World :=
  match world.objects src, world.objects dst with
  | some source, some destination =>
      if source.pixel.isNone then world
      else if r.TooLarge source.shape then world
      else
        let shaped := { destination with width := r.width, height := r.height, bpp := source.bpp, format := source.format }
        world.finish granted src dst (shaped.replace granted world.heap)
  | _, _ => world

def resize (src dst width height : Nat) (create granted : Bool) (world : World) : World :=
  match world.objects src, world.objects dst with
  | some source, some destination =>
      if source.pixel.isNone then world
      else if create = false ∧ destination.pixel.isNone then world
      else
        let shaped := { destination with width, height, bpp := source.bpp, format := source.format }
        if create then world.finish granted src dst (shaped.replace granted world.heap)
        else (world.set dst shaped).copy src dst
  | _, _ => world

/-- `to_grayscale`, `to_rgb565`, `to_rgb888` and `to_rgbp888`. -/
def convert (format : Format) (src dst : Nat) (granted : Bool) (world : World) : World :=
  match world.objects src, world.objects dst with
  | some source, some destination =>
      if source.pixel.isNone then world
      else
        let shaped := { destination with width := source.width, height := source.height, bpp := format.bpp, format }
        world.finish granted src dst (shaped.replace granted world.heap)
  | _, _ => world

def cutToNewFormat (src dst : Nat) (r : Rectangle) (format : Format) (granted : Bool) (world : World) : World :=
  match world.objects src, world.objects dst with
  | some source, some destination =>
      if source.pixel.isNone then world
      else if r.TooLarge source.shape then world
      else
        let shaped := { destination with width := r.width, height := r.height, bpp := format.bpp, format, userBuffer := false }
        world.finish granted src dst (shaped.replaceOwned granted world.heap)
  | _, _ => world

/-- With the format unchanged the pixels are left to `resize`, without `create`. -/
def resizeToNewFormat (src dst width height : Nat) (format : Format) (granted : Bool) (world : World) : World :=
  match world.objects src, world.objects dst with
  | some source, some destination =>
      if source.pixel.isNone then world
      else
        let shaped := { destination with width, height, bpp := format.bpp, format, userBuffer := false }
        let made := shaped.replaceOwned granted world.heap
        let after := { world with heap := made.2 }.set dst made.1
        if granted = false then after
        else
          match after.objects src with
          | some now => if now.format = format then after.resize src dst width height false granted else after.copy src dst
          | none => after
  | _, _ => world

/-- The file is read into a temporary buffer, from which the decoder makes an image of its own. -/
def loadBmp (dst : Nat) (file : BmpFile) (world : World) : World :=
  match world.objects dst with
  | none => world
  | some destination =>
      if file.opened = false ∨ file.headerRead = false ∨ file.parsed = false ∨ file.granted = false then world
      else
        let temp := world.heap.next
        let heap := world.heap.grant .align
        if file.wholeRead = false then { world with heap := heap.release .align temp }
        else
          match file.decoded with
          | none => { world with heap := (heap.use temp).release .align temp }
          | some (width, height, comp) =>
              let image := heap.next
              let heap := ((heap.use temp).grant .plain).release .align temp
              if comp ≠ 3 then { world with heap }
              else
                { world with heap }.set dst
                  { destination with width, height, pixel := some (.block image), format := .rgb888,
                                     bpp := Format.rgb888.bpp, bufferNotAlign := true }

def destroy (id : Nat) (world : World) : World :=
  match world.objects id with
  | none => world
  | some object =>
      let heap := match object.pixel with
        | none => world.heap
        | some buffer =>
            if object.userBuffer then world.heap
            else if object.bufferNotAlign then rtFree buffer world.heap else rtFreeAlign buffer world.heap
      { heap, objects := Function.update world.objects id none }

def step : Call → World → World
  | .empty id, world => world.construct id ⟨0, 0, 0, .invalid, none, false, false⟩
  | .created id width height format create granted, world => world.created id width height format create granted
  | .user id width height format buffer, world =>
      world.construct id ⟨width, height, format.bpp, format, buffer.map .user, true, false⟩
  | .cut src dst r granted, world => world.cut src dst r granted
  | .resize src dst width height granted, world => world.resize src dst width height true granted
  | .convert format src dst granted, world => world.convert format src dst granted
  | .cutToNewFormat src dst r format granted, world => world.cutToNewFormat src dst r format granted
  | .resizeToNewFormat src dst width height format granted, world => world.resizeToNewFormat src dst width height format granted
  | .loadBmp dst file, world => world.loadBmp dst file
  | .destroy id, world => world.destroy id

end World
end ArduinoK210.Imaging
