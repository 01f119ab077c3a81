import ArduinoK210.Lib.Heap
import Mathlib.Data.Int.Init

/-! The pointer members of `KPU_Base` and `KPU_Yolo2` objects and the calls that allocate, replace and free what they
point to. What a model computes is left out: of its file only the outcome of each check and each allocation counts. -/

namespace ArduinoK210.Kpu

/-- `rt_malloc_align`, and `new` for the context of nncase. -/
inductive Allocator where
  | align | new
  deriving DecidableEq

/-- A pointer that no constructor set is wild unless its storage happened to be zero. -/
inductive Pointer where
  | null
  | wild
  | block (number : Nat)
  deriving DecidableEq

/-- `model.buffer`, the three of `model.ctx` and the five of `_rl`. -/
inductive Field where
  | buffer
  | mainBuffer | fullyConnected | nncaseCtx
  | anchor | output | boxes | probsBuf | probs
  deriving DecidableEq

structure Shape where
  vaild : Bool
  chn : Int

/-- `isNncase` is part of the context and read only after a load has set it. -/
structure Object where
  yolo : Bool
  loadKmodel : Bool
  isNncase : Bool
  input : Shape
  output : Shape
  pointer : Field → Pointer

def Object.set (field : Field) (pointer : Pointer) (this : Object) : Object :=
  { this with pointer := Function.update this.pointer field pointer }

/-- The version and the allocations of `kpu_load_kmodel`. A model of nncase counts as rejected where only version 3
is built in, and `fullyConnected` says that a layer needs the buffer and gets it. -/
inductive Header where
  | rejected
  | v3 (main fullyConnected : Bool)
  | kmdl (granted loads : Bool)

structure Model where
  header : Header
  input : Shape
  output : Shape

structure ModelFile where
  opened : Bool
  fileSize : Nat
  checkSize : Bool
  headerGranted : Bool
  headerRead : Bool
  modelSize : Int
  granted : Bool
  wholeRead : Bool
  model : Model

structure ModelFlash where
  size : Int
  headerGranted : Bool
  headerRead : Bool
  modelSize : Int
  granted : Bool
  wholeRead : Bool
  model : Model

structure Anchors where
  given : Bool
  number : Int
  granted : Bool
  layerGranted : Field → Bool

/-- A call works on its object and on the heap. -/
structure Frame where
  this : Object
  heap : Heap.Store Allocator

namespace Frame

def put (field : Field) (pointer : Pointer) (frame : Frame) : Frame := { frame with this := frame.this.set field pointer }

def setLoad (up : Bool) (frame : Frame) : Frame := { frame with this := { frame.this with loadKmodel := up } }

def setShape (input output : Shape) (frame : Frame) : Frame := { frame with this := { frame.this with input, output } }

def malloc (kind : Allocator) (field : Field) (granted : Bool) (frame : Frame) : Frame :=
  if granted then { frame.put field (.block frame.heap.next) with heap := frame.heap.grant kind }
  else frame.put field .null

def free (kind : Allocator) (field : Field) (frame : Frame) : Frame :=
  match frame.this.pointer field with
  | .null => frame
  | .wild => { frame with heap := frame.heap.fault }
  | .block number => { frame with heap := frame.heap.release kind number }

def use (field : Field) (frame : Frame) : Frame :=
  match frame.this.pointer field with
  | .null | .wild => { frame with heap := frame.heap.fault }
  | .block number => { frame with heap := frame.heap.use number }

/-- The form `if (p) { rt_free_align(p); p = NULL; }` of every `end`. -/
def freeIfSet (field : Field) (frame : Frame) : Frame :=
  if frame.this.pointer field = .null then frame else (frame.free .align field).put field .null

def kpuLoadKmodel (header : Header) (frame : Frame) : Frame × Bool :=
  let read := frame.use .buffer
  match header with
  | .rejected => (read, false)
  | .v3 main fullyConnected =>
      let cleared := { read with this := { read.this with isNncase := false } }.put .fullyConnected .null
      let made := cleared.malloc .align .mainBuffer main
      if main then (made.malloc .align .fullyConnected fullyConnected, true) else (made, false)
  | .kmdl granted loads =>
      let made := { read with this := { read.this with isNncase := true } }.malloc .new .nncaseCtx granted
      (made.use .nncaseCtx, loads)

def kpuModelFree (frame : Frame) : Frame :=
  if frame.this.isNncase then (frame.free .new .nncaseCtx).put .nncaseCtx .null
  else ((frame.free .align .mainBuffer).put .mainBuffer .null).freeIfSet .fullyConnected

def baseEnd (frame : Frame) : Frame :=
  let freed := if frame.this.loadKmodel then (frame.setLoad false).kpuModelFree else frame
  freed.freeIfSet .buffer

/-- The second half of `load_kmodel`. The flag is down until the shape of the input is known. -/
def parse (model : Model) (frame : Frame) : Frame × Bool :=
  let parsed := frame.kpuLoadKmodel model.header
  if parsed.2 = false then parsed
  else
    let shaped := parsed.1.setShape model.input model.output
    if model.input.vaild = false then (shaped.kpuModelFree, false) else (shaped.setLoad true, true)

def loadKmodel (buffer : Nat) (model : Model) (frame : Frame) : Frame × Bool :=
  let ended := if frame.this.loadKmodel then frame.baseEnd else frame
  ((ended.setLoad false).put .buffer (.block buffer)).parse model

/-- The end of the other two forms: `model_buff` is filled, loaded, and freed when either fails. -/
def loadCopy (granted wholeRead : Bool) (model : Model) (frame : Frame) : Frame × Bool :=
  if granted = false then (frame, false)
  else
    let buffer := frame.heap.next
    let made := { frame with heap := frame.heap.grant .align }
    if wholeRead = false then ({ made with heap := made.heap.release .align buffer }, false)
    else
      let loaded := made.loadKmodel buffer model
      if loaded.2 then loaded else ({ loaded.1 with heap := loaded.1.heap.release .align buffer }, false)

/-- `hdr_buff` is freed as soon as the size is known. -/
def probed (frame : Frame) : Frame :=
  { frame with heap := (frame.heap.grant .align).release .align frame.heap.next }

/-- `load_kmodel` of a file. -/
def loadFile (file : ModelFile) (frame : Frame) : Frame × Bool :=
  if file.opened = false ∨ file.headerGranted = false then (frame, false)
  else if file.headerRead = false ∨ file.modelSize ≤ 0 then (frame.probed, false)
  else if file.checkSize ∧ (file.fileSize : Int) < file.modelSize then (frame.probed, false)
  else frame.probed.loadCopy file.granted file.wholeRead file.model

/-- `load_kmodel` of the flash. The size is probed where the caller gives none. -/
def loadFlash (flash : ModelFlash) (frame : Frame) : Frame × Bool :=
  if flash.size = -1 then
    if flash.headerGranted = false then (frame, false)
    else if flash.headerRead = false ∨ flash.modelSize ≤ 0 then (frame.probed, false)
    else frame.probed.loadCopy flash.granted flash.wholeRead flash.model
  else if flash.size ≤ 0 then (frame, false)
  else frame.loadCopy flash.granted flash.wholeRead flash.model

/-- The allocations of the region layer up to the first that fails, which sets the flag. -/
def allocate (granted : Field → Bool) : Int → List Field → Frame → Frame × Int
  | _, [], frame => (frame, 0)
  | flag, field :: fields, frame =>
      let made := frame.malloc .align field (granted field)
      if granted field then made.allocate granted (flag - 1) fields else (made, flag)

def regions : List Field := [.output, .boxes, .probsBuf, .probs]

def freeAll (fields : List Field) (frame : Frame) : Frame := fields.foldl (fun frame field => frame.free .align field) frame

/-- `(output->chn / rl->anchor_number) - 5` in `uint32_t`, read as an `int`. Without anchors it is negative here as it is
with the division of the processor. -/
def classes (chn : Int) (anchorNumber : Nat) : Int := (chn % 4294967296 / anchorNumber - 5).bmod 4294967296

def yoloRegionLayerInit (anchorNumber : Nat) (granted : Field → Bool) (frame : Frame) : Frame × Int :=
  if frame.this.input.vaild = false ∨ frame.this.output.vaild = false then (frame, -5)
  else if classes frame.this.output.chn anchorNumber < 0 then (frame, -6)
  else
    let made := frame.allocate granted (-1) regions
    if made.2 = 0 then (made.1.use .probs, 0) else (made.1.freeAll regions, made.2)

def yoloRegionLayerDeinit (frame : Frame) : Frame := regions.foldl (fun frame field => frame.freeIfSet field) frame

def «begin» (anchors : Anchors) (frame : Frame) : Frame × Bool :=
  if anchors.given = false ∨ anchors.number % 2 ≠ 0 then (frame, false)
  else if frame.this.loadKmodel = false then (frame, false)
  else if frame.this.input.vaild = false ∨ frame.this.output.vaild = false then (frame, false)
  else
    let made := frame.malloc .align .anchor anchors.granted
    if anchors.granted = false then (made, false)
    else
      let ready := (made.use .anchor).yoloRegionLayerInit (anchors.number.tdiv 2 % 4294967296).toNat anchors.layerGranted
      if ready.2 ≠ 0 then ((ready.1.free .align .anchor).put .anchor .null, false) else (ready.1, true)

/-- `KPU_Yolo2::end`, which hides the one of the base. -/
def yoloEnd (frame : Frame) : Frame := (frame.freeIfSet .anchor).yoloRegionLayerDeinit

end Frame

/-- The objects, and the buffers that the caller has allocated and not passed on. -/
structure World where
  heap : Heap.Store Allocator
  objects : Nat → Option Object
  caller : Nat → Option Nat

/-- The calls. `zero` says which pointers of the storage happen to be null. -/
inductive Call where
  | construct (id : Nat) (yolo : Bool) (zero : Field → Bool)
  | allocate (own : Nat) (granted : Bool)
  | discard (own : Nat)
  | loadBuffer (id own : Nat) (model : Model)
  | loadFile (id : Nat) (file : ModelFile)
  | loadFlash (id : Nat) (flash : ModelFlash)
  | begin (id : Nat) (anchors : Anchors)
  | end (id : Nat)
  | destroy (id : Nat)

/-- Both constructors. Neither sets `model.buffer`, the context or `_rl`. -/
def Object.constructed (yolo : Bool) (zero : Field → Bool) : Object :=
  ⟨yolo, false, false, ⟨false, 0⟩, ⟨false, 0⟩, fun field => if zero field then .null else .wild⟩

/-- What `obj.end()` and the destructors run. The destructor of `KPU_Yolo2` is followed by the one of `KPU_Base`. -/
def Frame.ended (frame : Frame) : Frame := if frame.this.yolo then frame.yoloEnd else frame.baseEnd

def Frame.destroyed (frame : Frame) : Frame := (if frame.this.yolo then frame.yoloEnd else frame).baseEnd

namespace World

def start : World := ⟨Heap.Store.empty, fun _ => none, fun _ => none⟩

def store (id : Nat) (frame : Frame) (world : World) : World :=
  { world with heap := frame.heap, objects := Function.update world.objects id (some frame.this) }

def call (id : Nat) (method : Frame → Frame) (world : World) : World :=
  match world.objects id with
  | none => world
  | some this => world.store id (method ⟨this, world.heap⟩)

/-- The buffer passes to the object when the load succeeds. -/
def loadBuffer (id own : Nat) (model : Model) (world : World) : World :=
  match world.objects id, world.caller own with
  | some this, some buffer =>
      let loaded := Frame.loadKmodel buffer model ⟨this, world.heap⟩
      let after := world.store id loaded.1
      if loaded.2 then { after with caller := Function.update world.caller own none } else after
  | _, _ => world

def step : Call → World → World
  | .construct id yolo zero, world =>
      match world.objects id with
      | some _ => world
      | none => world.store id ⟨.constructed yolo zero, world.heap⟩
  | .allocate own granted, world =>
      if granted ∧ world.caller own = none then
        { world with heap := world.heap.grant .align, caller := Function.update world.caller own (some world.heap.next) }
      else world
  | .discard own, world =>
      match world.caller own with
      | none => world
      | some buffer => { world with heap := world.heap.release .align buffer, caller := Function.update world.caller own none }
  | .loadBuffer id own model, world => world.loadBuffer id own model
  | .loadFile id file, world => world.call id fun frame => (frame.loadFile file).1
  | .loadFlash id flash, world => world.call id fun frame => (frame.loadFlash flash).1
  | .begin id anchors, world => world.call id fun frame => if frame.this.yolo then (frame.begin anchors).1 else frame
  | .end id, world => world.call id Frame.ended
  | .destroy id, world =>
      match world.objects id with
      | none => world
      | some this => { world with heap := (Frame.destroyed ⟨this, world.heap⟩).heap, objects := Function.update world.objects id none }

end World
end ArduinoK210.Kpu
