import Mathlib.Data.List.Basic
import Mathlib.Algebra.BigOperators.Group.List.Basic
import Mathlib.Algebra.Ring.Nat

/-! The size of a model, probed from its headers. A run gives what it read of the model and what it returned. -/

namespace ArduinoK210.Kpu.Probe

structure Read where
  offset : Nat
  length : Nat
  deriving DecidableEq, Repr

def Read.Inside (size : Nat) (read : Read) : Prop := read.offset + read.length ≤ size

instance (size : Nat) (read : Read) : Decidable (read.Inside size) := inferInstanceAs (Decidable (_ ≤ _))

structure Probed where
  reads : List Read
  result : Int
  deriving DecidableEq, Repr

/-- What four bytes of memory hold. -/
def word (buffer : Nat → UInt8) (offset : Nat) : UInt32 :=
  (buffer offset).toUInt32 ||| ((buffer (offset + 1)).toUInt32 <<< 8) ||| ((buffer (offset + 2)).toUInt32 <<< 16) |||
    ((buffer (offset + 3)).toUInt32 <<< 24)

def field (offset : Nat) : Read := ⟨offset, 4⟩

def asInt (value : UInt32) : Int := if value.toNat < 2147483648 then value.toNat else (value.toNat : Int) - 4294967296

/-! The offsets of `kpu_kmodel_header_t`. -/

namespace KmodelHeader

def version : Nat := 0
def arch : Nat := 8
def layersLength : Nat := 12
def outputCount : Nat := 24
def size : Nat := 28

end KmodelHeader

def modelOutputSize : Nat := 8
/-- Of a layer header and of a node header alike: a type, then the size of the body. -/
def layerHeaderSize : Nat := 8

/-! The offsets of the nncase `model_header`. -/

namespace ModelHeader

def version : Nat := 4
def target : Nat := 12
def constants : Nat := 16
def nodes : Nat := 24
def inputs : Nat := 28
def outputs : Nat := 32
def size : Nat := 40

end ModelHeader

def memoryRangeSize : Nat := 16
def runtimeShapeSize : Nat := 16

/-- The sizes of the bodies are added in 32 bits. `taken` is what the loop reads of a header, and `header` the place of
the next one. -/
def addBodies (buffer : Nat → UInt8) (taken : Nat → Read) : Nat → Nat → UInt32 → List Read × UInt32
  | 0, _, size => ([], size)
  | count + 1, header, size =>
    let rest := addBodies buffer taken count (header + layerHeaderSize) (size + word buffer (header + 4))
    (taken header :: rest.1, rest.2)

/-- The branch of `maix_kpu_helper_probe_model_size` for version 3. Addresses have 64 bits, sizes 32. -/
def probeKmodel (buffer : Nat → UInt8) (bufferSize : UInt32) : Probed :=
  let outputCount := (word buffer KmodelHeader.outputCount).toNat
  let layersLength := (word buffer KmodelHeader.layersLength).toNat
  let layerHeaders := KmodelHeader.size + modelOutputSize * outputCount
  let bodyStart := layerHeaders + layerHeaderSize * layersLength
  let bodySize := UInt32.ofNat bodyStart
  let reads := [field KmodelHeader.outputCount, field KmodelHeader.layersLength]
  if bufferSize < bodySize then
    ⟨reads, -1⟩
  else
    -- A count from 2^31 on overflows `i`, after reads far outside the buffer.
    let summed := addBodies buffer (fun header => field (header + 4)) layersLength layerHeaders bodySize
    ⟨reads ++ summed.1, asInt summed.2⟩

/-- `interpreter_base::probe_model_size`, from a context that could be allocated. -/
def nncaseProbeModelBufferSize (buffer : Nat → UInt8) (bufferSize : UInt32) : Probed :=
  let identifier := [field KmodelHeader.version]
  if word buffer KmodelHeader.version ≠ 0x4B4D444C then
    ⟨identifier, -1⟩
  else
    let version := identifier ++ [field ModelHeader.version]
    if word buffer ModelHeader.version ≠ 4 then
      ⟨version, -1⟩
    else
      let target := version ++ [field ModelHeader.target]
      if word buffer ModelHeader.target ≠ 0 ∧ word buffer ModelHeader.target ≠ 1 then
        ⟨target, -1⟩
      else
        let inputs := (word buffer ModelHeader.inputs).toNat
        let outputs := (word buffer ModelHeader.outputs).toNat
        let constants := (word buffer ModelHeader.constants).toNat
        let nodes := (word buffer ModelHeader.nodes).toNat
        let nodeHeaders := ModelHeader.size + memoryRangeSize * inputs + runtimeShapeSize * inputs + memoryRangeSize * outputs +
          constants
        let size := UInt32.ofNat (nodeHeaders + layerHeaderSize * nodes)
        let reads := target ++ [field ModelHeader.inputs, field ModelHeader.outputs, field ModelHeader.constants,
          field ModelHeader.nodes]
        if bufferSize < size then
          ⟨reads, -1⟩
        else
          -- A node header is copied whole.
          let summed := addBodies buffer (fun header => ⟨header, layerHeaderSize⟩) nodes nodeHeaders size
          ⟨reads ++ summed.1, asInt summed.2⟩

/-- `onlyKmodelV3` is the flag of the build. -/
def maixKpuHelperProbeModelSize (onlyKmodelV3 : Bool) (buffer : Nat → UInt8) (bufferSize : UInt32) : Probed :=
  let version := [field KmodelHeader.version]
  if word buffer KmodelHeader.version = 3 then
    let arch := version ++ [field KmodelHeader.arch]
    if word buffer KmodelHeader.arch = 0 then
      let probed := probeKmodel buffer bufferSize
      ⟨arch ++ probed.reads, probed.result⟩
    else
      -- 3 is not `'KMDL'`.
      ⟨arch, -1⟩
  else if word buffer KmodelHeader.version = 0x4B4D444C then
    if onlyKmodelV3 then
      ⟨version, -1⟩
    else
      let probed := nncaseProbeModelBufferSize buffer bufferSize
      ⟨version ++ probed.reads, probed.result⟩
  else
    ⟨version, -1⟩

variable {buffer : Nat → UInt8} {taken : Nat → Read} {n : Nat}

def bodies (buffer : Nat → UInt8) (header count : Nat) : Nat :=
  ((List.range count).map fun i => (word buffer (header + layerHeaderSize * i + 4)).toNat).sum

private theorem addBodies_reads (count header : Nat) (size : UInt32) :
    (addBodies buffer taken count header size).1 = (List.range count).map fun i => taken (header + layerHeaderSize * i) := by
  induction count generalizing header size with
  | zero => rfl
  | succ count ih =>
    rw [addBodies, List.range_succ_eq_map, List.map_cons, List.map_map, ih]
    simp only [layerHeaderSize, Function.comp_def, Nat.mul_zero, Nat.add_zero, Nat.mul_succ, Nat.add_assoc, Nat.add_comm 8]

theorem bodies_succ (header count : Nat) :
    bodies buffer header (count + 1) = (word buffer (header + 4)).toNat + bodies buffer (header + layerHeaderSize) count := by
  simp only [bodies, layerHeaderSize, List.range_succ_eq_map, List.map_cons, List.map_map, List.sum_cons, Function.comp_def,
    Nat.mul_zero, Nat.mul_succ, Nat.add_assoc, Nat.add_comm 8]

private theorem addBodies_size (count header : Nat) (size : UInt32) :
    (addBodies buffer taken count header size).2.toNat = (size.toNat + bodies buffer header count) % 4294967296 := by
  induction count generalizing header size with
  | zero => exact (Nat.mod_eq_of_lt size.toNat_lt).symm
  | succ count ih =>
    rw [addBodies, ih, bodies_succ, UInt32.toNat_add]
    omega

theorem addBodies_inside (ends : ∀ header, (taken header).offset + (taken header).length = header + layerHeaderSize)
    (count header : Nat) (size : UInt32) :
    (∀ read ∈ (addBodies buffer taken count header size).1, read.Inside n) ↔
      count = 0 ∨ header + layerHeaderSize * count ≤ n := by
  simp only [addBodies_reads, List.forall_mem_map, List.mem_range, Read.Inside, ends]
  constructor
  · intro inside
    by_cases none : count = 0
    · exact Or.inl none
    · have last := inside (count - 1) (by omega)
      simp only [layerHeaderSize] at last ⊢
      exact Or.inr (by omega)
  · rintro (none | inside) i before
    · omega
    · simp only [layerHeaderSize] at inside ⊢
      omega

private theorem asInt_fits {value : UInt32} (small : value.toNat < 2147483648) : asInt value = value.toNat := if_pos small

private theorem asInt_wraps {value : UInt32} (large : 2147483648 ≤ value.toNat) : asInt value = (value.toNat : Int) - 4294967296 :=
  if_neg (by omega)

/-! The model of version 3 that the headers describe. -/

def layersLength (buffer : Nat → UInt8) : Nat := (word buffer KmodelHeader.layersLength).toNat

def layerHeaders (buffer : Nat → UInt8) : Nat :=
  KmodelHeader.size + modelOutputSize * (word buffer KmodelHeader.outputCount).toNat

def bodyStart (buffer : Nat → UInt8) : Nat := layerHeaders buffer + layerHeaderSize * layersLength buffer

/-- The header, the output records, the layer headers and the bodies, without wrap-around. -/
def modelSize (buffer : Nat → UInt8) : Nat := bodyStart buffer + bodies buffer (layerHeaders buffer) (layersLength buffer)

/-- The size is minus one, or that of the model and positive as an `int`. -/
def Sized (buffer : Nat → UInt8) (result : Int) : Prop :=
  result = -1 ∨ result = modelSize buffer ∧ 0 < modelSize buffer ∧ modelSize buffer < 2147483648

/-! The nncase model that the headers describe. -/

def nodeHeaders (buffer : Nat → UInt8) : Nat :=
  ModelHeader.size + memoryRangeSize * (word buffer ModelHeader.inputs).toNat +
    runtimeShapeSize * (word buffer ModelHeader.inputs).toNat + memoryRangeSize * (word buffer ModelHeader.outputs).toNat +
    (word buffer ModelHeader.constants).toNat

def nodesEnd (buffer : Nat → UInt8) : Nat := nodeHeaders buffer + layerHeaderSize * (word buffer ModelHeader.nodes).toNat

private theorem modelSize_pos (buffer : Nat → UInt8) : 0 < modelSize buffer := by
  simp only [modelSize, bodyStart, layerHeaders, KmodelHeader.size]
  omega

/-- The sum in 32 bits is the size of the model when that is an `int`. A sum of 2^32 - 1 counts as a refusal. -/
theorem sized_asInt {value : UInt32} (sum : value.toNat = modelSize buffer % 4294967296) :
    Sized buffer (asInt value) ↔ modelSize buffer < 2147483648 ∨ modelSize buffer % 4294967296 = 4294967295 := by
  have positive := modelSize_pos buffer
  unfold Sized
  by_cases small : value.toNat < 2147483648
  · rw [asInt_fits small, sum]
    omega
  · rw [asInt_wraps (Nat.le_of_not_lt small), sum]
    omega

def KmodelFits (buffer : Nat → UInt8) (bufferSize : Nat) : Prop :=
  KmodelHeader.size ≤ bufferSize ∧
    (bufferSize < bodyStart buffer % 4294967296 ∨
      bodyStart buffer ≤ bufferSize ∧ (modelSize buffer < 2147483648 ∨ modelSize buffer % 4294967296 = 4294967295))

private theorem probeKmodel_fits (buffer : Nat → UInt8) (bufferSize : UInt32) :
    ((∀ read ∈ (probeKmodel buffer bufferSize).reads, read.Inside bufferSize.toNat) ∧
        Sized buffer (probeKmodel buffer bufferSize).result) ↔ KmodelFits buffer bufferSize.toNat := by
  have limit := bufferSize.toNat_lt
  have start : (UInt32.ofNat (bodyStart buffer)).toNat = bodyStart buffer % 4294967296 := UInt32.toNat_ofNat
  have header : (∀ read ∈ [field KmodelHeader.outputCount, field KmodelHeader.layersLength], read.Inside bufferSize.toNat) ↔
      KmodelHeader.size ≤ bufferSize.toNat := by
    simp only [List.forall_mem_cons, List.not_mem_nil, false_imp_iff, implies_true, and_true, Read.Inside, field,
      KmodelHeader.outputCount, KmodelHeader.layersLength, KmodelHeader.size]
    omega
  unfold KmodelFits
  by_cases refused : bufferSize < UInt32.ofNat (bodyStart buffer)
  · have probed : probeKmodel buffer bufferSize = ⟨[field KmodelHeader.outputCount, field KmodelHeader.layersLength], -1⟩ :=
      if_pos refused
    have less : bufferSize.toNat < bodyStart buffer % 4294967296 := start ▸ UInt32.lt_iff_toNat_lt.mp refused
    rw [probed, header]
    exact ⟨fun ⟨whole, _⟩ => ⟨whole, Or.inl less⟩, fun ⟨whole, _⟩ => ⟨whole, Or.inl rfl⟩⟩
  · have probed : probeKmodel buffer bufferSize =
        ⟨[field KmodelHeader.outputCount, field KmodelHeader.layersLength] ++
          (addBodies buffer (fun header => field (header + 4)) (layersLength buffer) (layerHeaders buffer)
            (UInt32.ofNat (bodyStart buffer))).1,
          asInt (addBodies buffer (fun header => field (header + 4)) (layersLength buffer) (layerHeaders buffer)
            (UInt32.ofNat (bodyStart buffer))).2⟩ := if_neg refused
    have enough : bodyStart buffer % 4294967296 ≤ bufferSize.toNat :=
      start ▸ Nat.le_of_not_lt fun less => refused (UInt32.lt_iff_toNat_lt.mpr less)
    have total : (addBodies buffer (fun header => field (header + 4)) (layersLength buffer) (layerHeaders buffer)
        (UInt32.ofNat (bodyStart buffer))).2.toNat = modelSize buffer % 4294967296 := by
      rw [addBodies_size, start, Nat.mod_add_mod]
      rfl
    rw [probed, List.forall_mem_append, header, addBodies_inside (fun _ => rfl), sized_asInt total]
    constructor
    · rintro ⟨⟨whole, inside⟩, fits⟩
      refine ⟨whole, Or.inr ⟨?_, fits⟩⟩
      rcases inside with none | inside
      · -- No layers: a start that wraps is no size of any model.
        have alone : modelSize buffer = bodyStart buffer := by
          rw [modelSize, bodies, none, List.range_zero, List.map_nil, List.sum_nil, Nat.add_zero]
        rw [alone] at fits
        have aligned : bodyStart buffer % 4 = 0 := by
          simp only [bodyStart, layerHeaders, KmodelHeader.size, modelOutputSize, layerHeaderSize]
          omega
        omega
      · exact inside
    · rintro ⟨whole, less | ⟨inside, fits⟩⟩
      · omega
      · exact ⟨⟨whole, Or.inr inside⟩, fits⟩

def NncaseFits (buffer : Nat → UInt8) (bufferSize : Nat) : Prop :=
  ModelHeader.version + 4 ≤ bufferSize ∧ (word buffer ModelHeader.version = 4 →
    ModelHeader.target + 4 ≤ bufferSize ∧ (word buffer ModelHeader.target = 0 ∨ word buffer ModelHeader.target = 1 →
      ModelHeader.outputs + 4 ≤ bufferSize ∧
        (bufferSize < nodesEnd buffer % 4294967296 ∨ nodesEnd buffer ≤ bufferSize ∨
          word buffer ModelHeader.nodes = 0)))

private theorem word_zero_iff (value : UInt32) : value.toNat = 0 ↔ value = 0 := by
  rw [← UInt32.toNat_inj]
  rfl

private theorem nncase_fits (identified : word buffer KmodelHeader.version = 0x4B4D444C) (bufferSize : UInt32) :
    (∀ read ∈ (nncaseProbeModelBufferSize buffer bufferSize).reads, read.Inside bufferSize.toNat) ↔
      NncaseFits buffer bufferSize.toNat := by
  have start : (UInt32.ofNat (nodesEnd buffer)).toNat = nodesEnd buffer % 4294967296 := UInt32.toNat_ofNat
  have limit := bufferSize.toNat_lt
  unfold nncaseProbeModelBufferSize NncaseFits
  rw [if_neg (not_not_intro identified)]
  by_cases version : word buffer ModelHeader.version = 4
  · rw [if_neg (not_not_intro version), imp_iff_right version]
    by_cases target : word buffer ModelHeader.target = 0 ∨ word buffer ModelHeader.target = 1
    · rw [if_neg (fun unknown => target.elim unknown.1 unknown.2), imp_iff_right target]
      have header : (∀ read ∈ ([field KmodelHeader.version] ++ [field ModelHeader.version] ++ [field ModelHeader.target]) ++
          [field ModelHeader.inputs, field ModelHeader.outputs, field ModelHeader.constants, field ModelHeader.nodes],
          read.Inside bufferSize.toNat) ↔ ModelHeader.outputs + 4 ≤ bufferSize.toNat := by
        simp only [List.cons_append, List.nil_append, List.forall_mem_cons, List.not_mem_nil, false_imp_iff, implies_true,
          and_true, Read.Inside, field, KmodelHeader.version, ModelHeader.version, ModelHeader.target, ModelHeader.inputs,
          ModelHeader.outputs, ModelHeader.constants, ModelHeader.nodes]
        omega
      have fields : ModelHeader.version + 4 ≤ ModelHeader.target + 4 ∧ ModelHeader.target + 4 ≤ ModelHeader.outputs + 4 := by
        simp only [ModelHeader.version, ModelHeader.target, ModelHeader.outputs]
        omega
      dsimp only
      split
      next refused =>
        have less : bufferSize.toNat < nodesEnd buffer % 4294967296 := start ▸ UInt32.lt_iff_toNat_lt.mp refused
        rw [header]
        exact ⟨fun whole => ⟨Nat.le_trans fields.1 (Nat.le_trans fields.2 whole), Nat.le_trans fields.2 whole, whole, Or.inl less⟩,
          fun ⟨_, _, whole, _⟩ => whole⟩
      next enough =>
        have enough : nodesEnd buffer % 4294967296 ≤ bufferSize.toNat :=
          start ▸ Nat.le_of_not_lt fun less => enough (UInt32.lt_iff_toNat_lt.mpr less)
        rw [List.forall_mem_append, header, addBodies_inside (fun _ => rfl), word_zero_iff]
        constructor
        · rintro ⟨whole, covered⟩
          exact ⟨Nat.le_trans fields.1 (Nat.le_trans fields.2 whole), Nat.le_trans fields.2 whole, whole, Or.inr covered.symm⟩
        · rintro ⟨_, _, whole, less | covered⟩
          · omega
          · exact ⟨whole, covered.symm⟩
    · rw [if_pos (not_or.mp target)]
      simp only [target, List.cons_append, List.nil_append, List.forall_mem_cons, List.not_mem_nil, false_imp_iff,
        implies_true, and_true, Read.Inside, field, KmodelHeader.version, ModelHeader.version]
      simp only [ModelHeader.target]
      omega
  · rw [if_pos version]
    simp only [version, List.cons_append, List.nil_append, List.forall_mem_cons, List.not_mem_nil, false_imp_iff,
      implies_true, and_true, Read.Inside, field, KmodelHeader.version]
    simp only [ModelHeader.version]
    omega

/-- The probe reads inside the buffer, and the size of a model of version 3 is right. -/
def Sound (onlyKmodelV3 : Bool) (buffer : Nat → UInt8) (bufferSize : UInt32) : Prop :=
  (∀ read ∈ (maixKpuHelperProbeModelSize onlyKmodelV3 buffer bufferSize).reads, read.Inside bufferSize.toNat) ∧
    (word buffer KmodelHeader.version = 3 →
      Sized buffer (maixKpuHelperProbeModelSize onlyKmodelV3 buffer bufferSize).result)

/-- The probe is right exactly when the buffer has the fields that it reads, and the headers end in the buffer without a
wrap, and so does the sum of the bodies in an `int`. -/
theorem probe_sound_iff (onlyKmodelV3 : Bool) (buffer : Nat → UInt8) (bufferSize : UInt32) :
    Sound onlyKmodelV3 buffer bufferSize ↔
      KmodelHeader.version + 4 ≤ bufferSize.toNat ∧
      (word buffer KmodelHeader.version = 3 → KmodelHeader.arch + 4 ≤ bufferSize.toNat ∧
        (word buffer KmodelHeader.arch = 0 → KmodelFits buffer bufferSize.toNat)) ∧
      (word buffer KmodelHeader.version = 0x4B4D444C → onlyKmodelV3 = false → NncaseFits buffer bufferSize.toNat) := by
  have first : ∀ reads : List Read, (∀ read ∈ field KmodelHeader.version :: reads, read.Inside bufferSize.toNat) ↔
      KmodelHeader.version + 4 ≤ bufferSize.toNat ∧ ∀ read ∈ reads, read.Inside bufferSize.toNat := fun reads =>
    List.forall_mem_cons
  have second : ∀ reads : List Read, (∀ read ∈ field KmodelHeader.arch :: reads, read.Inside bufferSize.toNat) ↔
      KmodelHeader.arch + 4 ≤ bufferSize.toNat ∧ ∀ read ∈ reads, read.Inside bufferSize.toNat := fun reads =>
    List.forall_mem_cons
  have nothing : ∀ read ∈ ([] : List Read), read.Inside bufferSize.toNat := fun _ member => absurd member List.not_mem_nil
  unfold Sound maixKpuHelperProbeModelSize
  by_cases three : word buffer KmodelHeader.version = 3
  · have other : word buffer KmodelHeader.version ≠ 0x4B4D444C := by
      rw [three]
      decide
    by_cases arch : word buffer KmodelHeader.arch = 0
    · simp only [three, arch, if_true, List.cons_append, List.nil_append, first, second, true_imp_iff]
      have fits := probeKmodel_fits buffer bufferSize
      have different : (3 : UInt32) ≠ 0x4B4D444C := by decide
      constructor
      · rintro ⟨⟨version, arch, reads⟩, sized⟩
        exact ⟨version, ⟨arch, fits.mp ⟨reads, sized⟩⟩, fun same => absurd same different⟩
      · rintro ⟨version, ⟨arch, holds⟩, _⟩
        obtain ⟨reads, sized⟩ := fits.mpr holds
        exact ⟨⟨version, arch, reads⟩, sized⟩
    · simp only [three, arch, if_true, if_false, List.cons_append, List.nil_append, first, second, true_imp_iff,
        false_imp_iff, and_true]
      have different : (3 : UInt32) ≠ 0x4B4D444C := by decide
      constructor
      · rintro ⟨⟨version, arch, _⟩, _⟩
        exact ⟨version, arch, fun same => absurd same different⟩
      · rintro ⟨version, arch, _⟩
        exact ⟨⟨version, arch, nothing⟩, Or.inl rfl⟩
  · simp only [three, if_false, false_imp_iff, and_true, true_and]
    by_cases identified : word buffer KmodelHeader.version = 0x4B4D444C
    · have fits := nncase_fits identified bufferSize
      cases onlyKmodelV3 with
      | true =>
        simp only [identified, if_true, first, Bool.true_eq_false, false_imp_iff, imp_true_iff, and_true]
        exact ⟨fun ⟨version, _⟩ => version, fun version => ⟨version, nothing⟩⟩
      | false =>
        simp only [identified, if_true, Bool.false_eq_true, if_false, List.cons_append, List.nil_append, first, fits, true_imp_iff]
    · simp only [identified, if_false, first, false_imp_iff, and_true]
      exact ⟨fun ⟨version, _⟩ => version, fun version => ⟨version, nothing⟩⟩

/-- One layer with a body of 2^32 - 1 bytes. The file has 36, and 35 are asked for. -/
def wrappedModel : Nat → UInt8 := fun offset =>
  if offset = 0 then 3 else if offset = KmodelHeader.layersLength then 1 else if 32 ≤ offset then 0xFF else 0

theorem wrapped_model_unsound : ¬ Sound false wrappedModel 36 := by
  unfold Sound Sized
  decide

end ArduinoK210.Kpu.Probe
