import ArduinoK210.Kpu.Probe

/-! The shape of a model's output, read from its last convolution. The buffer is a model of version 3
that has been loaded, so that the context has the places of its headers. -/

namespace ArduinoK210.Kpu.Probe

structure Shape where
  vaild : Int
  num : Int
  chn : Int
  h : Int
  w : Int
  deriving DecidableEq

def klDequantize : UInt32 := 12
def klK210Conv : UInt32 := 10240

/-! Offsets in the arguments of a convolution and in `kpu_layer_argument_t`. -/

namespace ConvLayer

def layerOffset : Nat := 8
def imageChannelNum : Nat := 16
def imageSize : Nat := 24

end ConvLayer

def layerType (buffer : Nat → UInt8) (header : Nat) : UInt32 := word buffer header

/-- The output fields of the layer argument that the arguments at `body` lead to; they are in the upper words. -/
def convShape (buffer : Nat → UInt8) (body : Nat) (shape : Shape) : Shape :=
  let argument := (word buffer (body + ConvLayer.layerOffset)).toNat
  let channels := (word buffer (argument + ConvLayer.imageChannelNum + 4)).toNat
  let size := (word buffer (argument + ConvLayer.imageSize + 4)).toNat
  { shape with
    vaild := 1
    chn := 1 + channels % 1024
    h := 1 + size / 1024 % 512
    w := 1 + size % 1024 }

/-- The loop over the layers: the last header that it looked at, and the body behind. -/
def walk (buffer : Nat → UInt8) : Nat → Nat → Option Nat → Nat → Option Nat × Nat
  | 0, _, layer, body => (layer, body)
  | count + 1, header, _, body =>
      walk buffer count (header + layerHeaderSize) (some header) (body + (word buffer (header + 4)).toNat)

/-- `maix_kpu_helper_get_output_shape`. It has no result where the counter of the loop overflows, and where the loop has
looked at no layer and the pointer is `NULL`. -/
def maixKpuHelperGetOutputShape (buffer : Nat → UInt8) (shape : Shape) : Option (Int × Shape) :=
  let shape := { shape with vaild := 0 }
  let headers := layerHeaders buffer
  let layersLength := layersLength buffer
  let outputLayer := headers + layerHeaderSize * layersLength - layerHeaderSize
  let conv2Layer := headers + layerHeaderSize * layersLength - 2 * layerHeaderSize
  if layerType buffer outputLayer ≠ klDequantize ∨ layerType buffer conv2Layer ≠ klK210Conv then some (-1, shape)
  else
    let count := (layersLength + 4294967294) % 4294967296
    if 2147483648 ≤ count then none
    else
      match walk buffer count headers none (bodyStart buffer) with
      | (none, _) => none
      | (some layer, body) => if layerType buffer layer = klK210Conv then some (0, convShape buffer body shape) else some (-1, shape)

/-! What the function is to report. -/

/-- The header of layer `i`. -/
def headerOf (buffer : Nat → UInt8) (i : Nat) : Nat := layerHeaders buffer + layerHeaderSize * i

/-- The body of layer `i`, behind those of the layers before it. -/
def bodyOf (buffer : Nat → UInt8) (i : Nat) : Nat := bodyStart buffer + bodies buffer (layerHeaders buffer) i

/-- The last two layers are a convolution and a dequantize. -/
def EndsInConv (buffer : Nat → UInt8) : Prop :=
  2 ≤ layersLength buffer ∧ layerType buffer (headerOf buffer (layersLength buffer - 2)) = klK210Conv ∧
    layerType buffer (headerOf buffer (layersLength buffer - 1)) = klDequantize

instance (buffer : Nat → UInt8) : Decidable (EndsInConv buffer) := inferInstanceAs (Decidable (_ ∧ _))

/-- The shape of the convolution before a dequantize at the end, and a refusal otherwise. -/
def Reports (buffer : Nat → UInt8) (shape : Shape) : Prop :=
  if EndsInConv buffer then
    maixKpuHelperGetOutputShape buffer shape = some (0, convShape buffer (bodyOf buffer (layersLength buffer - 2)) shape)
  else (maixKpuHelperGetOutputShape buffer shape).map (fun reply => (reply.1, reply.2.vaild)) = some (-1, 0)

instance (buffer : Nat → UInt8) (shape : Shape) : Decidable (Reports buffer shape) := by
  unfold Reports
  infer_instance

/-- Where the two places before the end of the headers look like that, there is a convolution before them. -/
def ThirdIsConv (buffer : Nat → UInt8) : Prop :=
  layerType buffer (headerOf buffer (layersLength buffer) - layerHeaderSize) = klDequantize →
    layerType buffer (headerOf buffer (layersLength buffer) - 2 * layerHeaderSize) = klK210Conv →
      3 ≤ layersLength buffer ∧ layersLength buffer ≤ 2147483649 ∧
        layerType buffer (headerOf buffer (layersLength buffer - 3)) = klK210Conv

variable {buffer : Nat → UInt8}

/-- The loop ends at the last header, with all the bodies behind it. -/
theorem walk_eq (count header : Nat) (layer : Option Nat) (body : Nat) :
    walk buffer (count + 1) header layer body = (some (header + layerHeaderSize * count), body + bodies buffer header (count + 1)) := by
  induction count generalizing header layer body with
  | zero =>
    rw [bodies_succ]
    rfl
  | succ count ih =>
    have place : header + layerHeaderSize + layerHeaderSize * count = header + layerHeaderSize * (count + 1) := by
      rw [Nat.mul_succ]
      omega
    rw [walk, ih, bodies_succ header (count + 1), place, Nat.add_assoc]

private theorem headerOf_back {i : Nat} (some : i + 1 ≤ layersLength buffer) :
    headerOf buffer (layersLength buffer) - (i + 1) * layerHeaderSize = headerOf buffer (layersLength buffer - (i + 1)) := by
  unfold headerOf layerHeaderSize
  omega

/-- The two places before the end of the headers pass the first test. -/
def Passes (buffer : Nat → UInt8) : Prop :=
  layerType buffer (headerOf buffer (layersLength buffer) - layerHeaderSize) = klDequantize ∧
    layerType buffer (headerOf buffer (layersLength buffer) - 2 * layerHeaderSize) = klK210Conv

private theorem endsInConv_iff : EndsInConv buffer ↔ 2 ≤ layersLength buffer ∧ Passes buffer := by
  unfold EndsInConv Passes
  refine and_congr_right fun two => ?_
  have last : headerOf buffer (layersLength buffer) - (0 + 1) * layerHeaderSize = headerOf buffer (layersLength buffer - (0 + 1)) :=
    headerOf_back (by omega)
  rw [Nat.zero_add, Nat.one_mul] at last
  rw [last, headerOf_back (by omega)]
  exact And.comm

private theorem outputShape_refused (shape : Shape) (fails : ¬Passes buffer) :
    maixKpuHelperGetOutputShape buffer shape = some (-1, { shape with vaild := 0 }) :=
  if_pos (not_and_or.mp fails)

/-- Without a layer that was looked at, or with too many, nothing is returned. -/
theorem outputShape_none (shape : Shape) (passes : Passes buffer) (few : ¬(3 ≤ layersLength buffer ∧ layersLength buffer ≤ 2147483649)) :
    maixKpuHelperGetOutputShape buffer shape = none := by
  have bound : layersLength buffer < 4294967296 := (word buffer KmodelHeader.layersLength).toNat_lt
  have test : ¬(layerType buffer (headerOf buffer (layersLength buffer) - layerHeaderSize) ≠ klDequantize ∨
      layerType buffer (headerOf buffer (layersLength buffer) - 2 * layerHeaderSize) ≠ klK210Conv) :=
    fun fails => fails.elim (absurd passes.1) (absurd passes.2)
  unfold maixKpuHelperGetOutputShape
  refine (if_neg test).trans ?_
  by_cases two : layersLength buffer = 2
  · have none : (layersLength buffer + 4294967294) % 4294967296 = 0 := by omega
    dsimp only
    rw [none]
    rfl
  · exact if_pos (by omega)

private theorem outputShape_walked (shape : Shape) (passes : Passes buffer) (three : 3 ≤ layersLength buffer)
    (fits : layersLength buffer ≤ 2147483649) :
    maixKpuHelperGetOutputShape buffer shape =
      if layerType buffer (headerOf buffer (layersLength buffer - 3)) = klK210Conv then
        some (0, convShape buffer (bodyOf buffer (layersLength buffer - 2)) shape)
      else some (-1, { shape with vaild := 0 }) := by
  have test : ¬(layerType buffer (headerOf buffer (layersLength buffer) - layerHeaderSize) ≠ klDequantize ∨
      layerType buffer (headerOf buffer (layersLength buffer) - 2 * layerHeaderSize) ≠ klK210Conv) :=
    fun fails => fails.elim (absurd passes.1) (absurd passes.2)
  have count : (layersLength buffer + 4294967294) % 4294967296 = layersLength buffer - 3 + 1 := by omega
  unfold maixKpuHelperGetOutputShape
  refine (if_neg test).trans ?_
  dsimp only
  rw [count, if_neg (by omega), walk_eq, show layersLength buffer - 3 + 1 = layersLength buffer - 2 by omega]
  rfl

/-- The function reports the right shape just when the layer before the convolution is one as well. -/
theorem outputShape_reports_iff (buffer : Nat → UInt8) (shape : Shape) : Reports buffer shape ↔ ThirdIsConv buffer := by
  have unfolded : ThirdIsConv buffer ↔ (Passes buffer → 3 ≤ layersLength buffer ∧ layersLength buffer ≤ 2147483649 ∧
      layerType buffer (headerOf buffer (layersLength buffer - 3)) = klK210Conv) := and_imp.symm
  unfold Reports
  rw [unfolded]
  by_cases passes : Passes buffer
  · rw [imp_iff_right passes]
    by_cases enough : 3 ≤ layersLength buffer ∧ layersLength buffer ≤ 2147483649
    · rw [if_pos (endsInConv_iff.mpr ⟨by omega, passes⟩), outputShape_walked shape passes enough.1 enough.2]
      split
      next third => exact ⟨fun _ => ⟨enough.1, enough.2, third⟩, fun _ => rfl⟩
      next other =>
        refine ⟨fun same => ?_, fun all => absurd all.2.2 other⟩
        cases congrArg Prod.fst (Option.some.inj same)
    · rw [outputShape_none shape passes enough]
      refine ⟨fun reported => ?_, fun all => absurd ⟨all.1, all.2.1⟩ enough⟩
      split at reported <;> cases reported
  · rw [if_neg fun ends => passes (endsInConv_iff.mp ends).2, outputShape_refused shape passes]
    exact ⟨fun _ holds => absurd holds passes, fun _ => rfl⟩

def uploadedModel : Nat → UInt8 := fun offset =>
  if offset = 0 then 3 else if offset = KmodelHeader.layersLength then 3
  else if offset = 28 then 3 else if offset = 29 then 40  -- `KL_K210_UPLOAD`
  else if offset = 37 then 40 else if offset = 44 then 12 else 0

theorem uploaded_model_refused : ¬Reports uploadedModel ⟨0, 0, 0, 0, 0⟩ := by decide

end ArduinoK210.Kpu.Probe
