import Mathlib.Tactic.Ring
import Mathlib.Data.Fintype.Prod
import Mathlib.Data.Int.Interval
import ArduinoK210.Kpu.Nms
import ArduinoK210.Lib.Raster

/-! What the region layer of `KPU_Yolo2` indexes. A function gives the places that it touches, as a buffer and an `int`. -/

namespace ArduinoK210.Kpu.Region

def u32 (value : Int) : Nat := (value % 4294967296).toNat

def toInt (value : Int) : Int := (value + 2147483648) % 4294967296 - 2147483648

/-- `k210_kpu_shape_t`, without the batch. -/
structure Shape where
  vaild : Bool
  chn : Int
  h : Int
  w : Int

/-- The numbers of `yolo2_region_layer_t`, each an `uint32_t`. -/
structure Layer where
  anchorNumber : Nat
  layerWidth : Nat
  layerHeight : Nat
  coords : Nat
  classes : Nat
  boxesNumber : Nat
  outputNumber : Nat

/-- `granted` tells which of the requests for memory are met, in their order. -/
def yoloRegionLayerInit (anchorNumber : Nat) (input output : Shape) (granted : Nat → Bool) : Except Int Layer :=
  if input.vaild = false ∨ output.vaild = false then .error (-5)
  else
    let layerWidth := u32 output.w
    let layerHeight := u32 output.h
    -- The division and the difference are unsigned.
    let classes := toInt ((u32 output.chn / anchorNumber : Nat) - 5)
    if classes < 0 then .error (-6)
    else
      let classes := u32 classes
      let boxesNumber := u32 (layerWidth * layerHeight * anchorNumber)
      let outputNumber := u32 (boxesNumber * (classes + 4 + 1))
      if granted 1 = false then .error (-1)
      else if granted 2 = false then .error (-2)
      else if granted 3 = false then .error (-3)
      else if granted 4 = false then .error (-4)
      else .ok ⟨anchorNumber, layerWidth, layerHeight, 4, classes, boxesNumber, outputNumber⟩

/-- `anchor` tells whether the argument is not null, and `loadKmodel` the state of the object. -/
def begin_ (anchor loadKmodel : Bool) (anchorNum : Int) (input output : Shape) (granted : Nat → Bool) : Except Int Layer :=
  if anchor = false ∨ anchorNum.tmod 2 ≠ 0 then .error (-1)
  else if loadKmodel = false then .error (-1)
  else if input.vaild = false ∨ output.vaild = false then .error (-1)
  else if granted 0 = false then .error (-1)
  else
    match yoloRegionLayerInit (u32 (anchorNum.tdiv 2)) input output granted with
    | .error _ => .error (-1)
    | .ok layer => .ok layer

inductive Buffer where
  /-- The output of the model. -/
  | input
  | output
  | boxes
  /-- The pointers to the rows of `probsBuf`. -/
  | probs
  | probsBuf
  | anchor
  | obj
  deriving DecidableEq, Repr

structure Access where
  buffer : Buffer
  index : Int
  deriving DecidableEq, Repr

namespace Layer

variable (layer : Layer)

/-- How many elements a buffer has, when the model gives `modelOutput` numbers. -/
def size (modelOutput : Nat) : Buffer → Nat
  | .input => modelOutput
  | .output => layer.outputNumber
  | .boxes => layer.boxesNumber
  | .probs => layer.boxesNumber
  | .probsBuf => u32 (layer.boxesNumber * (layer.classes + 1))
  | .anchor => 2 * layer.anchorNumber
  | .obj => Nms.regionLayerMaxObjNum

def entryIndex (location entry : Int) : Int :=
  let wh := toInt (layer.layerWidth * layer.layerHeight)
  let n := location.tdiv wh
  let loc := location.tmod wh
  toInt (n * wh * (layer.coords + layer.classes + 1) + entry * wh + loc)

def location (n i : Nat) : Int := toInt (n * layer.layerWidth * layer.layerHeight + i)

def activateArray (index n : Int) : List Access :=
  (List.range n.toNat).flatMap fun i : Nat => [⟨.input, index + i⟩, ⟨.output, index + i⟩]

/-- `input` and `output` are pointers to one index in the two buffers. `input[0]` is read for any `n`. -/
def softmax (base : Int) (n : Nat) (stride : Int) : List Access :=
  ⟨.input, base⟩ :: (List.range n).flatMap fun i : Nat => [⟨.input, base + toInt (i * stride)⟩, ⟨.output, base + toInt (i * stride)⟩]

def softmaxCpu (base : Int) (n batch : Nat) (batchOffset groups stride : Int) : List Access :=
  (List.range batch).flatMap fun b : Nat =>
    (List.range groups.toNat).flatMap fun g : Nat => softmax (base + toInt (b * batchOffset) + g) n stride

def forwardRegionLayer : List Access :=
  ((List.range layer.outputNumber).flatMap fun index : Nat => [⟨.input, toInt index⟩, ⟨.output, toInt index⟩]) ++
  ((List.range layer.anchorNumber).flatMap fun n : Nat =>
    activateArray (layer.entryIndex (layer.location n 0) 0) (toInt (2 * layer.layerWidth * layer.layerHeight)) ++
    activateArray (layer.entryIndex (layer.location n 0) 4) (toInt (layer.layerWidth * layer.layerHeight))) ++
  softmaxCpu (layer.entryIndex 0 (layer.coords + 1)) layer.classes layer.anchorNumber
    (toInt (layer.outputNumber / layer.anchorNumber : Nat)) (toInt (layer.layerWidth * layer.layerHeight))
    (toInt (layer.layerWidth * layer.layerHeight))

/-- `probs[index][j]`: the pointer, and the number in its row. -/
def row (index : Int) (j : Nat) : List Access :=
  [⟨.probs, index⟩, ⟨.probsBuf, (u32 (index * (layer.classes + 1)) : Int) + j⟩]

def getRegionBox (n : Nat) (index stride : Int) : List Access :=
  [⟨.output, toInt (index + 0 * stride)⟩, ⟨.output, toInt (index + 1 * stride)⟩, ⟨.output, toInt (index + 2 * stride)⟩,
    ⟨.anchor, 2 * n⟩, ⟨.output, toInt (index + 3 * stride)⟩, ⟨.anchor, 2 * n + 1⟩]

def correctRegionBoxes : List Access := (List.range layer.boxesNumber).map fun i : Nat => ⟨.boxes, toInt i⟩

/-- What is done for one anchor of one cell. -/
def boxAccesses (i n : Nat) : List Access :=
  let index := layer.location n i
  let classes := if layer.classes = 0 then 1 else layer.classes
  ((List.range classes).flatMap (layer.row index)) ++
  [⟨.output, layer.entryIndex (layer.location n i) layer.coords⟩] ++
  getRegionBox n (layer.entryIndex (layer.location n i) 0) (toInt (layer.layerWidth * layer.layerHeight)) ++
  [⟨.boxes, index⟩] ++
  if 0 < layer.classes then
    ((List.range classes).flatMap fun j : Nat =>
      ⟨.output, layer.entryIndex (layer.location n i) (layer.coords + 1 + j)⟩ :: layer.row index j) ++
    layer.row index classes
  else layer.row index 0

def getRegionBoxes : List Access :=
  ((List.range (u32 (layer.layerWidth * layer.layerHeight))).flatMap fun i : Nat =>
    (List.range layer.anchorNumber).flatMap fun n : Nat => layer.boxAccesses i n) ++
  layer.correctRegionBoxes

variable {α : Type} [LinearOrder α] (threshold : α) (probs : Nat → Nat → α)

/-- The loop of `region_layer_output` from box `i` on. Which boxes and objects it touches depends on the numbers. -/
def outputLoop : Nat → Nat → Nat → List Access
  | 0, _, _ => []
  | remaining + 1, i, objNumber =>
    let class_ := Nms.maxIndex (probs i) layer.classes
    let reads := layer.row (toInt i) 0 ++ ((List.range' 1 (layer.classes - 1)).flatMap (layer.row (toInt i))) ++
      layer.row (toInt i) class_
    if threshold < probs i class_ then
      reads ++ [⟨.boxes, toInt i⟩, ⟨.obj, objNumber⟩] ++
        if Nms.regionLayerMaxObjNum ≤ objNumber + 1 then [] else outputLoop remaining (i + 1) (objNumber + 1)
    else reads ++ outputLoop remaining (i + 1) objNumber

def regionLayerOutput : List Access := layer.outputLoop threshold probs layer.boxesNumber 0 0

end Layer

def Access.Inside (layer : Layer) (modelOutput : Nat) (access : Access) : Prop :=
  0 ≤ access.index ∧ access.index < layer.size modelOutput access.buffer

/-- Every index is inside its buffer, and the entries of the anchors in the cells are different places. -/
structure Indexed (α : Type) [LinearOrder α] (layer : Layer) (modelOutput : Nat) : Prop where
  number : layer.outputNumber ≤ modelOutput
  forward : ∀ access ∈ layer.forwardRegionLayer, access.Inside layer modelOutput
  boxes : ∀ access ∈ layer.getRegionBoxes, access.Inside layer modelOutput
  output : ∀ (threshold : α) (probs : Nat → Nat → α), ∀ access ∈ layer.regionLayerOutput threshold probs,
    access.Inside layer modelOutput
  distinct : ∀ i j n m entry other : Nat, i < layer.layerWidth * layer.layerHeight → j < layer.layerWidth * layer.layerHeight →
    n < layer.anchorNumber → m < layer.anchorNumber → entry < layer.coords + layer.classes + 1 →
    other < layer.coords + layer.classes + 1 →
    layer.entryIndex (layer.location n i) entry = layer.entryIndex (layer.location m j) other → i = j ∧ n = m ∧ entry = other

private theorem toInt_fits {value : Nat} (small : value < 2147483648) : toInt value = value := by
  unfold toInt
  omega

private theorem u32_fits {value : Nat} (small : value < 4294967296) : u32 value = value := by
  unfold u32
  omega

/-- A product wraps the same when a factor has wrapped before. -/
theorem toInt_mul (first second : Int) : toInt (first * toInt second) = toInt (first * second) := by
  have wrapped : (second + 2147483648) % 4294967296 - 2147483648 = second - 4294967296 * ((second + 2147483648) / 4294967296) := by
    omega
  unfold toInt
  rw [wrapped, Int.mul_sub, Int.mul_left_comm]
  omega

/-- The layer of a successful `begin_`. -/
def laid (an w h c : Nat) : Layer := ⟨an, w, h, 4, c, u32 (w * h * an : Nat), u32 (u32 (w * h * an : Nat) * (c + 4 + 1) : Nat)⟩

section

variable {an w h c : Nat}

@[simp] theorem laid_anchorNumber : (laid an w h c).anchorNumber = an := rfl

@[simp] theorem laid_layerWidth : (laid an w h c).layerWidth = w := rfl

@[simp] theorem laid_layerHeight : (laid an w h c).layerHeight = h := rfl

@[simp] theorem laid_coords : (laid an w h c).coords = 4 := rfl

@[simp] theorem laid_classes : (laid an w h c).classes = c := rfl

private theorem entry_lt {n entry i : Nat} (anchor : n < an) (below : entry < c + 5) (cell : i < w * h) :
    (n * (c + 5) + entry) * (w * h) + i < w * h * (an * (c + 5)) := by
  have plane := Raster.row_lt anchor below
  rw [Nat.mul_comm an]
  exact Raster.row_lt plane cell

private theorem location_lt {n i : Nat} (anchor : n < an) (cell : i < w * h) : n * (w * h) + i < w * h * an :=
  Raster.row_lt anchor cell

private theorem location_eq {n i : Nat} (small : n * (w * h) + i < 2147483648) :
    (laid an w h c).location n i = (n * (w * h) + i : Nat) := by
  rw [← toInt_fits small, Layer.location, laid]
  push_cast
  rw [Int.mul_assoc]

private theorem entryIndex_eq {n i : Nat} (cell : i < w * h) (small : n * (w * h) + i < 2147483648) (area : w * h < 2147483648)
    (entry : Nat) :
    (laid an w h c).entryIndex ((laid an w h c).location n i) entry = toInt ((n * (c + 5) + entry) * (w * h) + i : Nat) := by
  have wh : toInt ((w : Int) * h) = (w * h : Nat) := by
    rw [← Int.natCast_mul]
    exact toInt_fits area
  have n_eq : ((n * (w * h) + i : Nat) : Int).tdiv (w * h : Nat) = n := by
    rw [← Int.ofNat_tdiv, Raster.row_div n cell]
  have loc_eq : ((n * (w * h) + i : Nat) : Int).tmod (w * h : Nat) = i := by
    rw [← Int.ofNat_tmod, Raster.row_mod n cell]
  rw [location_eq small]
  unfold Layer.entryIndex
  dsimp only [laid]
  rw [wh, n_eq, loc_eq]
  refine congrArg toInt ?_
  push_cast
  ring

/-- A layer all of whose entries an `int` can index. -/
structure Small (an w h c : Nat) : Prop where
  anchors : 0 < an
  cells : 0 < w * h
  total : w * h * (an * (c + 5)) ≤ 2147483648

namespace Small

private theorem boxes_le (small : Small an w h c) : 5 * (w * h * an) ≤ 2147483648 := by
  have regroup : w * h * (an * (c + 5)) = 5 * (w * h * an) + w * h * an * c := by ring
  have total := small.total
  omega

private theorem area_le (small : Small an w h c) : 5 * (w * h) ≤ 2147483648 := by
  have more := Nat.le_mul_of_pos_right (w * h) small.anchors
  have boxes := small.boxes_le
  omega

private theorem boxesNumber (small : Small an w h c) : (laid an w h c).boxesNumber = w * h * an := by
  have boxes := small.boxes_le
  exact u32_fits (by omega)

private theorem outputNumber (small : Small an w h c) : (laid an w h c).outputNumber = w * h * (an * (c + 5)) := by
  have total := small.total
  have boxes : u32 (w * h * an : Nat) = w * h * an := small.boxesNumber
  have regroup : w * h * an * (c + 4 + 1) = w * h * (an * (c + 5)) := Nat.mul_assoc _ _ _
  show u32 (u32 (w * h * an : Nat) * (c + 4 + 1) : Nat) = _
  rw [boxes, regroup, u32_fits (by omega)]

private theorem probs (small : Small an w h c) (modelOutput : Nat) :
    (laid an w h c).size modelOutput .probsBuf = w * h * an * (c + 1) := by
  have total := small.total
  have regroup : w * h * (an * (c + 5)) = w * h * an * (c + 1) + w * h * an * 4 := by ring
  have fits : u32 (w * h * an * (c + 1) : Nat) = w * h * an * (c + 1) := u32_fits (by omega)
  have boxes := small.boxesNumber
  show u32 ((laid an w h c).boxesNumber * (c + 1)) = _
  rw [boxes, ← fits]
  push_cast
  rfl

private theorem location (small : Small an w h c) {n i : Nat} (anchor : n < an) (cell : i < w * h) :
    (laid an w h c).location n i = (n * (w * h) + i : Nat) := by
  have inside := location_lt anchor cell
  have boxes := small.boxes_le
  exact location_eq (by omega)

private theorem entry (small : Small an w h c) {n i entry : Nat} (anchor : n < an) (cell : i < w * h) (below : entry < c + 5) :
    (laid an w h c).entryIndex ((laid an w h c).location n i) entry = ((n * (c + 5) + entry) * (w * h) + i : Nat) := by
  have inside := location_lt anchor cell
  have boxes := small.boxes_le
  have area := small.area_le
  have bound := entry_lt anchor below cell
  have total := small.total
  rw [entryIndex_eq cell (by omega) (by omega), toInt_fits (by omega)]

end Small

section Safety

variable {modelOutput : Nat}

private theorem plane_lt {n k : Nat} (anchor : n < an) (within : k < (c + 5) * (w * h)) :
    n * ((c + 5) * (w * h)) + k < w * h * (an * (c + 5)) := by
  have below := Raster.row_lt anchor within
  have regroup : w * h * (an * (c + 5)) = (c + 5) * (w * h) * an := by ring
  omega

/-- Some entries of an anchor, from `entry` on. -/
theorem plane_le {n entry count : Nat} (anchor : n < an) (within : entry + count ≤ c + 5) :
    (n * (c + 5) + entry) * (w * h) + count * (w * h) ≤ w * h * (an * (c + 5)) := by
  have rows : n * (c + 5) + (entry + count) ≤ an * (c + 5) := by
    have next := Nat.mul_le_mul_right (c + 5) anchor
    rw [Nat.succ_mul] at next
    omega
  rw [← Nat.add_mul, Nat.add_assoc, Nat.mul_comm]
  exact Nat.mul_le_mul_left _ rows

private theorem Small.inside (small : Small an w h c) (fits : w * h * (an * (c + 5)) ≤ modelOutput) {index : Int} {place : Nat}
    (same : index = place) (below : place < w * h * (an * (c + 5))) :
    (⟨.input, index⟩ : Access).Inside (laid an w h c) modelOutput ∧ (⟨.output, index⟩ : Access).Inside (laid an w h c) modelOutput := by
  have number := small.outputNumber
  subst same
  refine ⟨⟨Int.natCast_nonneg _, ?_⟩, Int.natCast_nonneg _, ?_⟩
  · show (place : Int) < modelOutput
    omega
  · show (place : Int) < (laid an w h c).outputNumber
    omega

private theorem Small.activateArray (small : Small an w h c) (fits : w * h * (an * (c + 5)) ≤ modelOutput) {place count : Nat}
    (below : place + count ≤ w * h * (an * (c + 5))) :
    ∀ access ∈ Layer.activateArray place count, access.Inside (laid an w h c) modelOutput := by
  intro access member
  obtain ⟨i, inside, listed⟩ := List.mem_flatMap.mp member
  have inside := List.mem_range.mp inside
  have both := small.inside fits (Int.natCast_add place i).symm (by omega)
  rcases List.mem_pair.mp listed with rfl | rfl
  · exact both.1
  · exact both.2

/-- `input[0]` needs an entry after those of the box, also without classes. -/
theorem Small.softmax (small : Small an w h c) (fits : w * h * (an * (c + 5)) ≤ modelOutput) {place : Nat}
    (first : place < modelOutput) (entries : ∀ i, i < c → place + i * (w * h) < w * h * (an * (c + 5))) :
    ∀ access ∈ Layer.softmax place c (w * h : Nat), access.Inside (laid an w h c) modelOutput := by
  intro access member
  have total := small.total
  rcases List.mem_cons.mp member with rfl | later
  · exact ⟨Int.natCast_nonneg _, Int.ofNat_lt.mpr first⟩
  · obtain ⟨i, inside, listed⟩ := List.mem_flatMap.mp later
    have below := entries i (List.mem_range.mp inside)
    have step : toInt ((i : Int) * (w * h : Nat)) = (i * (w * h) : Nat) := by
      rw [← Int.natCast_mul]
      exact toInt_fits (by omega)
    rw [step] at listed
    have both := small.inside fits (Int.natCast_add place (i * (w * h))).symm below
    rcases List.mem_pair.mp listed with rfl | rfl
    · exact both.1
    · exact both.2

private theorem Small.softmaxCpu (small : Small an w h c) (fits : w * h * (an * (c + 5)) ≤ modelOutput)
    (spare : c = 0 → w * h * (5 * an + 1) ≤ modelOutput) :
    ∀ access ∈ Layer.softmaxCpu (5 * (w * h) : Nat) c an (toInt (w * h * (c + 5) : Nat)) (w * h : Nat) (w * h : Nat),
      access.Inside (laid an w h c) modelOutput := by
  intro access member
  obtain ⟨b, batch, member⟩ := List.mem_flatMap.mp member
  obtain ⟨g, group, member⟩ := List.mem_flatMap.mp member
  have batch := List.mem_range.mp batch
  have group : g < w * h := List.mem_range.mp group
  have total := small.total
  have cells := small.cells
  have start := @plane_lt an w h c b 0 batch (Nat.mul_pos (by omega) cells)
  have offset : toInt ((b : Int) * toInt (w * h * (c + 5) : Nat)) = (b * ((c + 5) * (w * h)) : Nat) := by
    rw [toInt_mul, ← Int.natCast_mul, Nat.mul_comm (w * h)]
    exact toInt_fits (by omega)
  have base : ((5 * (w * h) : Nat) : Int) + toInt ((b : Int) * toInt (w * h * (c + 5) : Nat)) + g =
      (b * ((c + 5) * (w * h)) + (5 * (w * h) + g) : Nat) := by
    rw [offset]
    push_cast
    ring
  rw [base] at member
  refine small.softmax fits ?_ (fun i class_ => ?_) access member
  · cases c with
    | zero =>
      have spare := spare rfl
      have rows : b * (5 * (w * h)) + 5 * (w * h) ≤ an * (5 * (w * h)) := by
        rw [← Nat.succ_mul]
        exact Nat.mul_le_mul_right _ batch
      have regroup : w * h * (5 * an + 1) = an * (5 * (w * h)) + w * h := by ring
      simp only [Nat.zero_add]
      omega
    | succ c =>
      have within : 5 * (w * h) + g < (c + 1 + 5) * (w * h) := by
        have regroup : (c + 1 + 5) * (w * h) = 5 * (w * h) + (w * h) + c * (w * h) := by ring
        omega
      exact (plane_lt batch within).trans_le fits
  · have within : 5 * (w * h) + g + i * (w * h) < (c + 5) * (w * h) := by
      have below : i * (w * h) + w * h ≤ c * (w * h) := by
        rw [← Nat.succ_mul]
        exact Nat.mul_le_mul_right _ class_
      have regroup : (c + 5) * (w * h) = 5 * (w * h) + c * (w * h) := by ring
      omega
    rw [Nat.add_assoc]
    exact plane_lt batch within

theorem Small.softmax_call (small : Small an w h c) :
    Layer.softmaxCpu ((laid an w h c).entryIndex 0 ((laid an w h c).coords + 1)) (laid an w h c).classes (laid an w h c).anchorNumber
      (toInt ((laid an w h c).outputNumber / (laid an w h c).anchorNumber : Nat))
      (toInt ((laid an w h c).layerWidth * (laid an w h c).layerHeight))
      (toInt ((laid an w h c).layerWidth * (laid an w h c).layerHeight)) =
    Layer.softmaxCpu (5 * (w * h) : Nat) c an (toInt (w * h * (c + 5) : Nat)) (w * h : Nat) (w * h : Nat) := by
  have area := small.area_le
  have wh : toInt ((w : Int) * h) = (w * h : Nat) := by
    rw [← Int.natCast_mul]
    exact toInt_fits (by omega)
  have fifth : (laid an w h c).entryIndex 0 (4 + 1) = (5 * (w * h) : Nat) := by
    have first : (laid an w h c).location 0 0 = 0 := by
      rw [location_eq (by omega)]
      omega
    have index := @entryIndex_eq an w h c 0 0 small.cells (by omega) (by omega) 5
    have same : (0 * (c + 5) + 5) * (w * h) + 0 = 5 * (w * h) := by ring
    -- An odd factor: the place behind the entries of the first anchor is not 2^31.
    rw [first, same, toInt_fits (by omega)] at index
    exact index
  have batch : (laid an w h c).outputNumber / an = w * h * (c + 5) := by
    rw [small.outputNumber, Nat.mul_left_comm]
    exact Nat.mul_div_cancel_left _ small.anchors
  simp only [laid_anchorNumber, laid_layerWidth, laid_layerHeight, laid_coords, laid_classes, wh, batch]
  rw [show ((4 : Nat) : Int) = 4 from rfl, fifth]

private theorem Small.forward (small : Small an w h c) (fits : w * h * (an * (c + 5)) ≤ modelOutput)
    (spare : c = 0 → w * h * (5 * an + 1) ≤ modelOutput) :
    ∀ access ∈ (laid an w h c).forwardRegionLayer, access.Inside (laid an w h c) modelOutput := by
  have total := small.total
  have area := small.area_le
  have cells := small.cells
  have anchors := small.anchors
  have number := small.outputNumber
  have wh : toInt ((w : Int) * h) = (w * h : Nat) := by
    rw [← Int.natCast_mul]
    exact toInt_fits (by omega)
  have twice : toInt (2 * (w : Int) * h) = (2 * (w * h) : Nat) := by
    have same : 2 * (w : Int) * h = (2 * (w * h) : Nat) := by
      push_cast
      ring
    rw [same]
    exact toInt_fits (by omega)
  intro access member
  unfold Layer.forwardRegionLayer at member
  rcases List.mem_append.mp member with member | soft
  · rcases List.mem_append.mp member with copied | active
    · obtain ⟨index, below, listed⟩ := List.mem_flatMap.mp copied
      have below : index < w * h * (an * (c + 5)) := number ▸ List.mem_range.mp below
      have both := small.inside fits (toInt_fits (by omega)) below
      rcases List.mem_pair.mp listed with rfl | rfl
      · exact both.1
      · exact both.2
    · obtain ⟨n, anchor, listed⟩ := List.mem_flatMap.mp active
      have anchor : n < an := List.mem_range.mp anchor
      have zero := small.entry anchor cells (show 0 < c + 5 by omega)
      have four := small.entry anchor cells (show 4 < c + 5 by omega)
      simp only [laid_layerWidth, laid_layerHeight, wh, twice] at listed
      rcases List.mem_append.mp listed with coordinates | object
      · rw [show (0 : Int) = (0 : Nat) from rfl, zero, Nat.add_zero] at coordinates
        exact small.activateArray fits (plane_le anchor (by omega)) access coordinates
      · rw [show (4 : Int) = (4 : Nat) from rfl, four, Nat.add_zero] at object
        have single := @plane_le an w h c n 4 1 anchor (by omega)
        rw [Nat.one_mul] at single
        exact small.activateArray fits single access object
  · exact small.softmaxCpu fits spare access (small.softmax_call ▸ soft)

private theorem Small.row (small : Small an w h c) {place j : Nat} (box : place < w * h * an) (class_ : j < c + 1) :
    ∀ access ∈ (laid an w h c).row place j, access.Inside (laid an w h c) modelOutput := by
  have boxes := small.boxesNumber
  have probs := small.probs modelOutput
  have below : place * (c + 1) + j < w * h * an * (c + 1) := by
    rw [Nat.mul_comm (w * h * an)]
    exact Raster.row_lt box class_
  have total := small.total
  have regroup : w * h * (an * (c + 5)) = w * h * an * (c + 1) + w * h * an * 4 := by ring
  have start : u32 ((place : Int) * ((c : Int) + 1)) = place * (c + 1) := by
    have fits : u32 (place * (c + 1) : Nat) = place * (c + 1) := u32_fits (by omega)
    rw [← fits]
    push_cast
    rfl
  intro access member
  rcases List.mem_pair.mp member with rfl | rfl
  · refine ⟨Int.natCast_nonneg _, ?_⟩
    show (place : Int) < (laid an w h c).boxesNumber
    omega
  · have index : ((u32 ((place : Int) * ((c : Int) + 1)) : Nat) : Int) + j = (place * (c + 1) + j : Nat) := by
      rw [start]
      exact (Int.natCast_add _ _).symm
    show 0 ≤ ((u32 ((place : Int) * ((c : Int) + 1)) : Nat) : Int) + j ∧
      ((u32 ((place : Int) * ((c : Int) + 1)) : Nat) : Int) + j < (laid an w h c).size modelOutput .probsBuf
    rw [index, probs]
    exact ⟨Int.natCast_nonneg _, Int.ofNat_lt.mpr below⟩

private theorem Small.rows (small : Small an w h c) {place : Nat} (box : place < w * h * an) {listed : List Nat}
    (classes : ∀ j ∈ listed, j < c + 1) :
    ∀ access ∈ listed.flatMap ((laid an w h c).row place), access.Inside (laid an w h c) modelOutput := by
  intro access member
  obtain ⟨j, inside, member⟩ := List.mem_flatMap.mp member
  exact small.row box (classes j inside) access member

private theorem Small.box (small : Small an w h c) {place : Nat} (box : place < w * h * an) :
    (⟨.boxes, place⟩ : Access).Inside (laid an w h c) modelOutput := by
  have boxes := small.boxesNumber
  refine ⟨Int.natCast_nonneg _, ?_⟩
  show (place : Int) < (laid an w h c).boxesNumber
  omega

theorem Small.regionBox (small : Small an w h c) (fits : w * h * (an * (c + 5)) ≤ modelOutput) {n i : Nat} (anchor : n < an)
    (cell : i < w * h) :
    ∀ access ∈ Layer.getRegionBox n ((n * (c + 5) + 0) * (w * h) + i : Nat) (w * h : Nat),
      access.Inside (laid an w h c) modelOutput := by
  have total := small.total
  have planes : ∀ k, k < 4 → (⟨.output, toInt (((n * (c + 5) + 0) * (w * h) + i : Nat) + (k : Nat) * (w * h : Nat))⟩ : Access).Inside
      (laid an w h c) modelOutput := by
    intro k below
    have bound := @entry_lt an w h c n k i anchor (by omega) cell
    have place : (((n * (c + 5) + 0) * (w * h) + i : Nat) : Int) + (k : Nat) * (w * h : Nat) =
        ((n * (c + 5) + k) * (w * h) + i : Nat) := by
      push_cast
      ring
    rw [place, toInt_fits (by omega)]
    exact (small.inside fits rfl bound).2
  have biases : ∀ k, k < 2 → (⟨.anchor, ((2 * n + k : Nat) : Int)⟩ : Access).Inside (laid an w h c) modelOutput := by
    intro k below
    refine ⟨Int.natCast_nonneg _, ?_⟩
    show ((2 * n + k : Nat) : Int) < (2 * an : Nat)
    omega
  intro access member
  simp only [Layer.getRegionBox, List.mem_cons, List.not_mem_nil, or_false] at member
  rcases member with rfl | rfl | rfl | rfl | rfl | rfl
  · exact planes 0 (by omega)
  · exact planes 1 (by omega)
  · exact planes 2 (by omega)
  · exact biases 0 (by omega)
  · exact planes 3 (by omega)
  · exact biases 1 (by omega)

private theorem Small.boxAccesses (small : Small an w h c) (fits : w * h * (an * (c + 5)) ≤ modelOutput) {n i : Nat} (anchor : n < an)
    (cell : i < w * h) : ∀ access ∈ (laid an w h c).boxAccesses i n, access.Inside (laid an w h c) modelOutput := by
  have area := small.area_le
  have box := @location_lt an w h n i anchor cell
  have wh : toInt ((w : Int) * h) = (w * h : Nat) := by
    rw [← Int.natCast_mul]
    exact toInt_fits (by omega)
  have entry : ∀ entry, entry < c + 5 →
      (⟨.output, (laid an w h c).entryIndex ((laid an w h c).location n i) (entry : Nat)⟩ : Access).Inside (laid an w h c) modelOutput := by
    intro entry below
    rw [small.entry anchor cell below]
    exact (small.inside fits rfl (entry_lt anchor below cell)).2
  have coordinates := small.regionBox fits anchor cell
  rw [← small.entry anchor cell (show 0 < c + 5 by omega)] at coordinates
  have classes : ∀ j, j ∈ List.range (if c = 0 then 1 else c) → j < c + 1 := by
    intro j member
    have below := List.mem_range.mp member
    split at below <;> omega
  intro access member
  unfold Layer.boxAccesses at member
  rw [small.location anchor cell] at member entry coordinates
  rcases List.mem_append.mp member with front | rest
  · simp only [laid_classes, laid_coords, laid_layerWidth, laid_layerHeight, wh, List.mem_append] at front
    rcases front with ((cleared | object) | corners) | stored
    · exact small.rows box classes access cleared
    · rw [List.mem_singleton.mp object]
      exact entry 4 (by omega)
    · exact coordinates access corners
    · rw [List.mem_singleton.mp stored]
      exact small.box box
  · split at rest
    next some =>
      have count : (if (laid an w h c).classes = 0 then 1 else (laid an w h c).classes) = c := if_neg (Nat.pos_iff_ne_zero.mp some)
      simp only [count] at rest
      simp only [laid_coords] at rest
      rcases List.mem_append.mp rest with each | largest
      · obtain ⟨j, below, listed⟩ := List.mem_flatMap.mp each
        have below := List.mem_range.mp below
        rcases List.mem_cons.mp listed with rfl | stored
        · exact entry (4 + 1 + j) (by omega)
        · exact small.row box (by omega) access stored
      · exact small.row box (by omega) access largest
    next => exact small.row box (by omega) access rest

private theorem Small.getRegionBoxes (small : Small an w h c) (fits : w * h * (an * (c + 5)) ≤ modelOutput) :
    ∀ access ∈ (laid an w h c).getRegionBoxes, access.Inside (laid an w h c) modelOutput := by
  have area := small.area_le
  have boxes := small.boxes_le
  intro access member
  rcases List.mem_append.mp member with each | corrected
  · obtain ⟨i, cell, each⟩ := List.mem_flatMap.mp each
    obtain ⟨n, anchor, listed⟩ := List.mem_flatMap.mp each
    have cell := List.mem_range.mp cell
    have wrapped : u32 ((w : Int) * h) = w * h := by
      rw [← Int.natCast_mul]
      exact u32_fits (by omega)
    rw [laid_layerWidth, laid_layerHeight, wrapped] at cell
    exact small.boxAccesses fits (List.mem_range.mp anchor) cell access listed
  · obtain ⟨i, below, rfl⟩ := List.mem_map.mp corrected
    have below : i < w * h * an := small.boxesNumber ▸ List.mem_range.mp below
    rw [toInt_fits (by omega)]
    exact small.box below

private theorem Small.outputLoop {α : Type} [LinearOrder α] (small : Small an w h c) (threshold : α) (probs : Nat → Nat → α)
    (remaining : Nat) {i objNumber : Nat} (below : i + remaining ≤ w * h * an) (room : objNumber < Nms.regionLayerMaxObjNum) :
    ∀ access ∈ (laid an w h c).outputLoop threshold probs remaining i objNumber, access.Inside (laid an w h c) modelOutput := by
  induction remaining generalizing i objNumber with
  | zero => exact fun access member => absurd member List.not_mem_nil
  | succ remaining ih =>
    have boxes := small.boxes_le
    have place : toInt (i : Int) = i := toInt_fits (by omega)
    have box : i < w * h * an := by omega
    have best := (Nms.maxIndex_best (probs i) c).1
    have class_ : Nms.maxIndex (probs i) c < c + 1 := by split at best <;> omega
    have reads : ∀ access ∈ (laid an w h c).row i 0 ++ (List.range' 1 (c - 1)).flatMap ((laid an w h c).row i) ++
        (laid an w h c).row i (Nms.maxIndex (probs i) c), access.Inside (laid an w h c) modelOutput := by
      intro access member
      rcases List.mem_append.mp member with member | last
      · rcases List.mem_append.mp member with first | others
        · exact small.row box (by omega) access first
        · refine small.rows box (fun j listed => ?_) access others
          have := List.mem_range'_1.mp listed
          omega
      · exact small.row box class_ access last
    intro access member
    rw [Layer.outputLoop] at member
    simp only [laid_classes, place] at member
    split at member
    · rcases List.mem_append.mp member with member | rest
      · rcases List.mem_append.mp member with read | written
        · exact reads access read
        · rcases List.mem_pair.mp written with rfl | rfl
          · exact small.box box
          · exact ⟨Int.natCast_nonneg _, Int.ofNat_lt.mpr room⟩
      · split at rest
        · exact absurd rest List.not_mem_nil
        · exact ih (by omega) (by omega) access rest
    · rcases List.mem_append.mp member with read | rest
      · exact reads access read
      · exact ih (by omega) room access rest

private theorem Small.distinct (small : Small an w h c) {i j n m entry other : Nat} (first : i < w * h) (second : j < w * h) (anchor : n < an)
    (beside : m < an) (below : entry < c + 5) (under : other < c + 5)
    (same : (laid an w h c).entryIndex ((laid an w h c).location n i) entry =
      (laid an w h c).entryIndex ((laid an w h c).location m j) other) : i = j ∧ n = m ∧ entry = other := by
  rw [small.entry anchor first below, small.entry beside second under, Int.ofNat_inj] at same
  have cell := congrArg (· % (w * h)) same
  have plane := congrArg (· / (w * h)) same
  simp only [Raster.row_mod _ first, Raster.row_mod _ second, Raster.row_div _ first, Raster.row_div _ second] at cell plane
  have anchors := congrArg (· / (c + 5)) plane
  have entries := congrArg (· % (c + 5)) plane
  simp only [Raster.row_mod _ below, Raster.row_mod _ under, Raster.row_div _ below, Raster.row_div _ under] at anchors entries
  exact ⟨cell, anchors, entries⟩

private theorem Small.indexed (α : Type) [LinearOrder α] (small : Small an w h c) (fits : w * h * (an * (c + 5)) ≤ modelOutput)
    (spare : c = 0 → w * h * (5 * an + 1) ≤ modelOutput) : Indexed α (laid an w h c) modelOutput where
  number := small.outputNumber ▸ fits
  forward := small.forward fits spare
  boxes := small.getRegionBoxes fits
  output threshold probs := by
    have boxes : 0 + (laid an w h c).boxesNumber ≤ w * h * an := by
      rw [small.boxesNumber, Nat.zero_add]
    exact small.outputLoop threshold probs _ boxes (by decide)
  distinct i j n m entry other first second anchor beside below under same := by
    have below : entry < 4 + c + 1 := below
    have under : other < 4 + c + 1 := under
    exact small.distinct first second anchor beside (by omega) (by omega) same

end Safety

/-! The two ways in which an index is wrong. -/

private theorem toInt_range (value : Int) : -2147483648 ≤ toInt value ∧ toInt value < 2147483648 := by
  unfold toInt
  omega

/-- There are no more entries than values of an `int`. -/
theorem distinct_small (distinct : ∀ i j n m entry other : Nat, i < w * h → j < w * h → n < an → m < an → entry < c + 5 →
      other < c + 5 → (laid an w h c).entryIndex ((laid an w h c).location n i) entry =
        (laid an w h c).entryIndex ((laid an w h c).location m j) other → i = j ∧ n = m ∧ entry = other) :
    w * h * (an * (c + 5)) ≤ 4294967296 := by
  let place : Fin (w * h) × Fin an × Fin (c + 5) → Int := fun cell =>
    (laid an w h c).entryIndex ((laid an w h c).location cell.2.1 cell.1) (cell.2.2 : Nat)
  have injective : Function.Injective place := by
    intro first second same
    obtain ⟨cell, anchor, entry⟩ := distinct _ _ _ _ _ _ first.1.2 second.1.2 first.2.1.2 second.2.1.2 first.2.2.2 second.2.2.2 same
    exact Prod.ext (Fin.ext cell) (Prod.ext (Fin.ext anchor) (Fin.ext entry))
  have counted : (Finset.univ : Finset (Fin (w * h) × Fin an × Fin (c + 5))).card ≤ (Finset.Ico (-2147483648 : Int) 2147483648).card :=
    Finset.card_le_card_of_injOn place (fun cell _ => Finset.mem_coe.mpr (Finset.mem_Ico.mpr (toInt_range _))) injective.injOn
  rw [Int.card_Ico] at counted
  simp only [Finset.card_univ, Fintype.card_prod, Fintype.card_fin] at counted
  omega

/-- The last entry of a box is read: the last class, or the object where there are no classes. -/
theorem last_listed (layer : Layer) (i n : Nat) :
    ⟨.output, layer.entryIndex (layer.location n i) (layer.coords + layer.classes)⟩ ∈ layer.boxAccesses i n := by
  unfold Layer.boxAccesses
  by_cases some : 0 < layer.classes
  · apply List.mem_append_right
    rw [if_pos some]
    refine List.mem_append_left _ (List.mem_flatMap.mpr ⟨layer.classes - 1, ?_, ?_⟩)
    · rw [if_neg (by omega)]
      exact List.mem_range.mpr (by omega)
    · have last : (layer.coords : Int) + 1 + (layer.classes - 1 : Nat) = layer.coords + layer.classes := by omega
      rw [last]
      exact List.mem_cons_self
  · have none : (layer.classes : Int) = 0 := by omega
    rw [none, Int.add_zero]
    refine List.mem_append_left _ (List.mem_append_left _ (List.mem_append_left _ (List.mem_append_right _ ?_)))
    exact List.mem_singleton_self _

theorem last_small (anchors : 0 < an) (cells : 0 < w * h) (most : w * h * (an * (c + 5)) ≤ 4294967296) {modelOutput : Nat}
    (boxes : ∀ access ∈ (laid an w h c).getRegionBoxes, access.Inside (laid an w h c) modelOutput) :
    w * h * (an * (c + 5)) ≤ 2147483648 := by
  have regroup : w * h * (an * (c + 5)) = 5 * (w * h * an) + w * h * an * c := by ring
  have area := Nat.le_mul_of_pos_right (w * h) anchors
  have cell : w * h - 1 < w * h := by omega
  have anchor : an - 1 < an := by omega
  have inside := @location_lt an w h (an - 1) (w * h - 1) anchor cell
  have index := @entryIndex_eq an w h c (an - 1) (w * h - 1) cell (by omega) (by omega) (4 + c)
  have last : ((an - 1) * (c + 5) + (4 + c)) * (w * h) + (w * h - 1) = w * h * (an * (c + 5)) - 1 := by
    obtain ⟨a, rfl⟩ : ∃ a, an = a + 1 := ⟨an - 1, by omega⟩
    have expand : w * h * ((a + 1) * (c + 5)) = (a * (c + 5) + (4 + c)) * (w * h) + w * h := by ring
    rw [Nat.add_sub_cancel]
    omega
  have counted : u32 ((w : Int) * h) = w * h := by
    rw [← Int.natCast_mul]
    exact u32_fits (by omega)
  have listed : ⟨.output, (laid an w h c).entryIndex ((laid an w h c).location (an - 1) (w * h - 1)) (4 + c : Nat)⟩ ∈
      (laid an w h c).getRegionBoxes := by
    apply List.mem_append_left
    refine List.mem_flatMap.mpr ⟨w * h - 1, ?_, List.mem_flatMap.mpr ⟨an - 1, List.mem_range.mpr anchor, ?_⟩⟩
    · rw [laid_layerWidth, laid_layerHeight, counted]
      exact List.mem_range.mpr cell
    · exact last_listed (laid an w h c) (w * h - 1) (an - 1)
  have first := (boxes _ listed).1
  dsimp only at first
  rw [index, last] at first
  unfold toInt at first
  omega

/-- Without classes `softmax` still reads one number, behind the entries of the last anchor. -/
theorem spare_needed (small : Small an w h 0) {modelOutput : Nat}
    (forward : ∀ access ∈ (laid an w h 0).forwardRegionLayer, access.Inside (laid an w h 0) modelOutput) :
    w * h * (5 * an) < modelOutput := by
  have anchors := small.anchors
  have total := small.total
  have start : an - 1 + 1 = an := by omega
  have offset : toInt ((an - 1 : Nat) * toInt (w * h * (0 + 5) : Nat)) = ((an - 1) * (w * h * (0 + 5)) : Nat) := by
    have last : (an - 1) * (w * h * (0 + 5)) + w * h * (0 + 5) = w * h * (an * (0 + 5)) := by
      rw [← Nat.succ_mul, Nat.succ_eq_add_one, start, Nat.mul_left_comm]
    have cells := small.cells
    have smaller : (an - 1) * (w * h * (0 + 5)) < 2147483648 := by omega
    rw [toInt_mul, ← Int.natCast_mul]
    exact toInt_fits smaller
  have listed : ⟨.input, ((5 * (w * h) : Nat) : Int) + toInt ((an - 1 : Nat) * toInt (w * h * (0 + 5) : Nat)) + (0 : Nat)⟩ ∈
      (laid an w h 0).forwardRegionLayer := by
    apply List.mem_append_right
    rw [small.softmax_call]
    refine List.mem_flatMap.mpr ⟨an - 1, List.mem_range.mpr (by omega), List.mem_flatMap.mpr ⟨0, ?_, List.mem_cons_self⟩⟩
    exact List.mem_range.mpr small.cells
  have below := (forward _ listed).2
  have place : ((5 * (w * h) : Nat) : Int) + ((an - 1) * (w * h * (0 + 5)) : Nat) + (0 : Nat) = (w * h * (5 * an) : Nat) := by
    obtain ⟨a, rfl⟩ : ∃ a, an = a + 1 := ⟨an - 1, start.symm⟩
    rw [Nat.add_sub_cancel]
    push_cast
    ring
  dsimp only at below
  rw [offset, place] at below
  exact Int.ofNat_lt.mp below

private theorem laid_indexed_iff (α : Type) [LinearOrder α] (anchors : 0 < an) (cells : 0 < w * h) {chn : Nat}
    (classes : chn / an = c + 5) :
    Indexed α (laid an w h c) (chn * h * w) ↔ w * h * (an * (c + 5)) ≤ 2147483648 ∧ chn ≠ 5 * an := by
  have all : chn * h * w = w * h * chn := by ring
  have divided : an * (c + 5) ≤ chn := classes ▸ Nat.mul_div_le chn an
  constructor
  · intro indexed
    have entries := distinct_small fun i j n m entry other first second anchor beside below under same =>
      indexed.distinct i j n m entry other first second anchor beside (by simp only [laid_coords, laid_classes]; omega)
        (by simp only [laid_coords, laid_classes]; omega) same
    have total := last_small anchors cells entries indexed.boxes
    refine ⟨total, fun none => ?_⟩
    have zero : c = 0 := by
      rw [none, Nat.mul_div_cancel _ anchors] at classes
      omega
    subst zero
    have spare := spare_needed ⟨anchors, cells, total⟩ indexed.forward
    rw [all, none] at spare
    exact Nat.lt_irrefl _ spare
  · rintro ⟨total, some⟩
    have small : Small an w h c := ⟨anchors, cells, total⟩
    rw [all]
    refine small.indexed α (Nat.mul_le_mul_left _ divided) fun zero => Nat.mul_le_mul_left _ ?_
    subst zero
    omega

end

structure Shape.Positive (shape : Shape) : Prop where
  chn : 0 < shape.chn ∧ shape.chn ≤ 2147483647
  h : 0 < shape.h ∧ shape.h ≤ 2147483647
  w : 0 < shape.w ∧ shape.w ≤ 2147483647

private theorem init_ok {an : Nat} {input output : Shape} {granted : Nat → Bool} {layer : Layer} (positive : output.Positive)
    (made : yoloRegionLayerInit an input output granted = .ok layer) :
    ∃ c, output.chn.toNat / an = c + 5 ∧ layer = laid an output.w.toNat output.h.toNat c := by
  obtain ⟨chn, h, w⟩ := positive
  have channels : u32 output.chn = output.chn.toNat := by
    unfold u32
    omega
  have width : u32 output.w = output.w.toNat := by
    unfold u32
    omega
  have height : u32 output.h = output.h.toNat := by
    unfold u32
    omega
  have quotient := Nat.div_le_self output.chn.toNat an
  unfold yoloRegionLayerInit at made
  split at made
  · cases made
  · dsimp only at made
    rw [channels, width, height] at made
    generalize output.chn.toNat / an = q at made quotient ⊢
    have classes : toInt ((q : Int) - 5) = q - 5 := by
      unfold toInt
      omega
    rw [classes] at made
    split at made
    · cases made
    next enough =>
      have rest : u32 ((q : Int) - 5) = q - 5 := by
        unfold u32
        omega
      rw [rest] at made
      refine ⟨q - 5, by omega, ?_⟩
      split at made
      · cases made
      · split at made
        · cases made
        · split at made
          · cases made
          · split at made
            · cases made
            · simp only [Except.ok.injEq] at made
              rw [← made, laid]
              push_cast
              rfl

private theorem begin_ok {anchor loadKmodel : Bool} {anchorNum : Int} {input output : Shape} {granted : Nat → Bool} {layer : Layer}
    (anchors : 2 ≤ anchorNum ∧ anchorNum ≤ 2147483647) (positive : output.Positive)
    (begun : begin_ anchor loadKmodel anchorNum input output granted = .ok layer) :
    ∃ c, output.chn.toNat / (anchorNum / 2).toNat = c + 5 ∧
      layer = laid (anchorNum / 2).toNat output.w.toNat output.h.toNat c := by
  have half : u32 (anchorNum.tdiv 2) = (anchorNum / 2).toNat := by
    rw [Int.tdiv_eq_ediv_of_nonneg (by omega)]
    unfold u32
    omega
  unfold begin_ at begun
  split at begun
  · cases begun
  · split at begun
    · cases begun
    · split at begun
      · cases begun
      · split at begun
        · cases begun
        · rw [half] at begun
          split at begun
          · cases begun
          next made =>
            cases begun
            exact init_ok positive made

/-- The indices of a layer that `begin_` sets up are right exactly when all its entries have an `int`, and the model has a
channel more than five for each anchor when there are no classes. -/
theorem begin_indexed_iff (α : Type) [LinearOrder α] {anchor loadKmodel : Bool} {anchorNum : Int} {input output : Shape}
    {granted : Nat → Bool} {layer : Layer} (anchors : 2 ≤ anchorNum ∧ anchorNum ≤ 2147483647) (positive : output.Positive)
    (begun : begin_ anchor loadKmodel anchorNum input output granted = .ok layer) :
    Indexed α layer (output.chn * output.h * output.w).toNat ↔
      output.w * output.h * (anchorNum / 2 * (output.chn / (anchorNum / 2))) ≤ 2147483648 ∧ output.chn ≠ 5 * (anchorNum / 2) := by
  obtain ⟨c, classes, rfl⟩ := begin_ok anchors positive begun
  obtain ⟨valid, chn, h, w⟩ := output
  obtain ⟨positiveChn, positiveH, positiveW⟩ := positive
  dsimp only at classes positiveChn positiveH positiveW ⊢
  obtain ⟨an, half⟩ := Int.eq_ofNat_of_zero_le (show 0 ≤ anchorNum / 2 by omega)
  obtain ⟨chn, rfl⟩ := Int.eq_ofNat_of_zero_le positiveChn.1.le
  obtain ⟨h, rfl⟩ := Int.eq_ofNat_of_zero_le positiveH.1.le
  obtain ⟨w, rfl⟩ := Int.eq_ofNat_of_zero_le positiveW.1.le
  have some : 0 < an := by omega
  have cells : 0 < w * h := Nat.mul_pos (by omega) (by omega)
  rw [half] at classes ⊢
  simp only [Int.toNat_natCast] at classes ⊢
  have all : ((chn : Int) * h * w).toNat = chn * h * w := by
    rw [← Int.natCast_mul, ← Int.natCast_mul, Int.toNat_natCast]
  have channels : (chn : Int) / an = (c + 5 : Nat) := by rw [← Int.natCast_ediv, classes]
  have total : (w : Int) * h * (an * (c + 5 : Nat)) ≤ 2147483648 ↔ w * h * (an * (c + 5)) ≤ 2147483648 := by norm_cast
  have spare : (chn : Int) ≠ 5 * an ↔ chn ≠ 5 * an := by norm_cast
  rw [all, channels, total, spare]
  exact laid_indexed_iff α some cells classes

theorem begin_indexed_iff_yolo :
    Indexed Nat (laid 5 10 7 20) (125 * 7 * 10) ↔ 10 * 7 * ((10 : Int) / 2 * (125 / (10 / 2))) ≤ 2147483648 ∧ (125 : Int) ≠ 5 * (10 / 2) :=
  @begin_indexed_iff Nat _ true true 10 ⟨true, 3, 224, 320⟩ ⟨true, 125, 7, 10⟩ (fun _ => true) _ (by decide)
    ⟨by decide, by decide, by decide⟩ rfl

/-- One cell, one anchor and the five channels that it takes: the sixth number of the output is read. -/
theorem five_channels_not_indexed :
    begin_ true true 2 ⟨true, 3, 8, 8⟩ ⟨true, 5, 1, 1⟩ (fun _ => true) = .ok (laid 1 1 1 0) ∧ ¬ Indexed Nat (laid 1 1 1 0) (5 * 1 * 1) := by
  refine ⟨rfl, fun indexed => ?_⟩
  have outside := indexed.forward ⟨.input, 5⟩ (by decide)
  exact absurd outside.2 (by decide)

end ArduinoK210.Kpu.Region
