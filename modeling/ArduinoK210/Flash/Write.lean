import ArduinoK210.Flash.Operations

/-! The write loop refines a plain store: the written range holds the data and
every other byte, including the rest of each erased sector, is what it was. -/

namespace ArduinoK210.Flash.Driver

private theorem needsErase_clears (news olds : List UInt8) (spared : needsErase news olds = false) (k : Nat) (new old : UInt8)
    (written : news[k]? = some new) (stored : olds[k]? = some old) : new = new &&& old := by
  induction news generalizing olds k with
  | nil => simp at written
  | cons b bs ih =>
    cases olds with
    | nil => simp at stored
    | cons c cs =>
      simp only [needsErase] at spared
      split at spared
      next => cases spared
      next kept =>
        cases k with
        | zero =>
          simp only [List.getElem?_cons_zero, Option.some.injEq] at written stored
          subst written stored
          simpa using kept
        | succ k => exact ih cs spared k (by simpa using written) (by simpa using stored)

/-- The sector image that one pass programs: the old sector with the chunk over it. -/
def image (flash : Driver) (sectorAddr sectorOffset : Nat) (chunk : List UInt8) : List UInt8 :=
  Nor.splice (Nor.slice flash.chip.mem sectorAddr sectorSize) sectorOffset chunk

private theorem readFun_sector (flash : Driver) (sectorAddr : Nat) (idle : flash.chip.busy = 0) (matched : Matched flash)
    (inside : sectorAddr + sectorSize ≤ arraySize) :
    (flash.w25qxxReadFun sectorAddr sectorSize).1 = Nor.slice flash.chip.mem sectorAddr sectorSize ∧
      Settles flash (flash.w25qxxReadFun sectorAddr sectorSize).2 ∧
      (flash.w25qxxReadFun sectorAddr sectorSize).2.chip.mem = flash.chip.mem := by
  obtain ⟨bytes, settled, mem⟩ := readDataDma_eq flash.readFun sectorAddr sectorSize flash idle matched.read
  exact ⟨bytes.trans (readArray_slice flash.chip sectorAddr sectorSize inside), settled, mem⟩

private theorem sectorProgram_mem (flash : Driver) (sectorAddr : Nat) (data : List UInt8) (idle : flash.chip.busy = 0)
    (matched : Matched flash) (aligned : sectorAddr % sectorSize = 0) (inside : sectorAddr + sectorSize ≤ arraySize)
    (enough : sectorSize ≤ data.length) :
    (flash.w25qxxSectorProgram sectorAddr data).chip.mem =
      Nor.program byteCell flash.chip.mem sectorAddr (data.take sectorSize) := by
  apply sectorProgramPages_mem 16 sectorAddr data flash idle matched
  · simp only [sectorSize, pageSize] at *
    omega
  · exact inside
  · exact enough

/-- One pass of the loop stores its chunk, whether the sector was erased or not,
and whether the caller's buffer or the patched sector image was programmed. -/
theorem writeSector_mem (flash : Driver) (sectorAddr sectorOffset writeLen : Nat) (data : List UInt8)
    (idle : flash.chip.busy = 0) (matched : Matched flash)
    (aligned : sectorAddr % sectorSize = 0) (inside : sectorAddr + sectorSize ≤ arraySize)
    (fits : sectorOffset + writeLen ≤ sectorSize) (enough : writeLen ≤ data.length) :
    (flash.writeSector sectorAddr sectorOffset writeLen data).chip.mem =
      Nor.put flash.chip.mem (sectorAddr + sectorOffset) (data.take writeLen) := by
  obtain ⟨bytes, readSettled, readMem⟩ := readFun_sector flash sectorAddr idle matched inside
  have taken : (data.take writeLen).length = writeLen := by rw [List.length_take]; omega
  have imageLength : (image flash sectorAddr sectorOffset (data.take writeLen)).length = sectorSize := by
    rw [image, Nor.splice_length _ _ _ (by rw [Nor.slice_length]; omega), Nor.slice_length]
  have programmed (current : Driver) (ready : Settles flash current) :
      (if writeLen = sectorSize then current.w25qxxSectorProgram sectorAddr data
        else current.w25qxxSectorProgram sectorAddr (image flash sectorAddr sectorOffset (data.take writeLen))).chip.mem =
      Nor.program byteCell current.chip.mem sectorAddr (image flash sectorAddr sectorOffset (data.take writeLen)) := by
    have able := ready.matched matched
    split
    next whole =>
      have offset : sectorOffset = 0 := by omega
      rw [sectorProgram_mem current sectorAddr data ready.idle able aligned inside (by omega)]
      congr 1
      have all : (Nor.slice flash.chip.mem sectorAddr sectorSize).drop (data.take writeLen).length = [] :=
        List.drop_eq_nil_of_le (by rw [Nor.slice_length, taken]; omega)
      rw [whole] at all
      simp only [image, Nor.splice, offset, List.take_zero, List.nil_append, Nat.zero_add, all, List.append_nil, whole]
    next =>
      rw [sectorProgram_mem current sectorAddr _ ready.idle able aligned inside (by omega)]
      congr 1
      exact List.take_of_length_le (by omega)
  by_cases erased : needsErase (data.take writeLen)
      ((Nor.slice flash.chip.mem sectorAddr sectorSize).drop sectorOffset) = true
  · simp only [writeSector, bytes, erased, if_true]
    obtain ⟨eraseSettled, eraseMem⟩ := sectorErase_settles sectorAddr
      (flash.w25qxxReadFun sectorAddr sectorSize).2 readSettled.idle
    have place : sectorAddr % arraySize / sectorSize * sectorSize = sectorAddr := by
      have positive : 0 < sectorSize := by decide
      rw [Nat.mod_eq_of_lt (by omega), Nat.div_mul_cancel (Nat.dvd_of_mod_eq_zero aligned)]
    refine (programmed _ (readSettled.trans eraseSettled)).trans ?_
    rw [eraseMem, readMem, place]
    exact Nor.program_erase_splice byteCell flash.chip.mem sectorAddr sectorSize sectorOffset _ (by omega)
  · simp only [writeSector, bytes, erased]
    refine (programmed _ readSettled).trans ?_
    rw [readMem]
    apply Nor.program_splice byteCell flash.chip.mem sectorAddr sectorSize sectorOffset _ (by omega)
    intro k b written
    have bound := (List.getElem?_eq_some_iff.mp written).choose
    apply needsErase_clears _ _ (by simpa using erased) k b _ written
    rw [List.getElem?_drop, Nor.slice_getElem?, if_pos (by omega), Nat.add_assoc]

private theorem writeSector_settles (flash : Driver) (sectorAddr sectorOffset writeLen : Nat) (data : List UInt8)
    (idle : flash.chip.busy = 0) (matched : Matched flash) :
    Settles flash (flash.writeSector sectorAddr sectorOffset writeLen data) := by
  have read := (readDataDma_eq flash.readFun sectorAddr sectorSize flash idle matched.read).2.1
  have program (current : Driver) (ready : Settles flash current) (buffer : List UInt8) :
      Settles flash (current.w25qxxSectorProgram sectorAddr buffer) :=
    ready.trans (sectorProgramPages_settles 16 sectorAddr buffer current ready.idle (ready.matched matched))
  have erase := read.trans (sectorErase_settles sectorAddr _ read.idle).1
  have ready : Settles flash
      (if needsErase (data.take writeLen) ((flash.w25qxxReadFun sectorAddr sectorSize).1.drop sectorOffset) then
        ((flash.w25qxxReadFun sectorAddr sectorSize).2.w25qxxSectorEraseDma sectorAddr).waitWhileBusy
      else (flash.w25qxxReadFun sectorAddr sectorSize).2) := by
    split
    · exact erase
    · exact read
  unfold writeSector
  dsimp only
  split
  · exact program _ ready data
  · exact program _ ready _

theorem writeDataDma_settles (addr : Nat) (data : List UInt8) (flash : Driver)
    (idle : flash.chip.busy = 0) (matched : Matched flash) :
    (flash.w25qxxWriteDataDma addr data).1 = .ok ∧ Settles flash (flash.w25qxxWriteDataDma addr data).2 := by
  rw [w25qxxWriteDataDma]
  split
  next => exact ⟨rfl, .refl idle⟩
  next some =>
    have progress := writeLength_pos addr data.length some
    have pass := writeSector_settles flash (addr - addr % sectorSize) (addr % sectorSize)
      (writeLength addr data.length) data idle matched
    obtain ⟨ok, settled⟩ := writeDataDma_settles ((addr + writeLength addr data.length) % 2 ^ 32)
      (data.drop (writeLength addr data.length)) _ pass.idle (pass.matched matched)
    exact ⟨ok, pass.trans settled⟩
termination_by data.length
decreasing_by rw [List.length_drop]; omega

theorem writeDataDma_mem (addr : Nat) (data : List UInt8) (flash : Driver)
    (idle : flash.chip.busy = 0) (matched : Matched flash) (inside : addr + data.length ≤ arraySize) :
    (flash.w25qxxWriteDataDma addr data).2.chip.mem = Nor.put flash.chip.mem addr data := by
  rw [w25qxxWriteDataDma]
  split
  next empty => simp [List.length_eq_zero_iff.mp empty]
  next some =>
    have progress := writeLength_pos addr data.length some
    have positive : 0 < sectorSize := by decide
    have offset : addr % sectorSize < sectorSize := Nat.mod_lt _ positive
    have below : addr % sectorSize ≤ addr := Nat.mod_le _ _
    have chunk : writeLength addr data.length ≤ data.length ∧
        addr % sectorSize + writeLength addr data.length ≤ sectorSize := by
      unfold writeLength
      split <;> omega
    have sector : addr - addr % sectorSize + sectorSize ≤ arraySize := by
      simp only [sectorSize, arraySize] at *
      omega
    have aligned : (addr - addr % sectorSize) % sectorSize = 0 := by
      simp only [sectorSize]
      omega
    have next : (addr + writeLength addr data.length) % 2 ^ 32 = addr + writeLength addr data.length := by
      simp only [arraySize] at inside
      exact Nat.mod_eq_of_lt (by omega)
    have pass := writeSector_settles flash (addr - addr % sectorSize) (addr % sectorSize)
      (writeLength addr data.length) data idle matched
    have stored := writeSector_mem flash (addr - addr % sectorSize) (addr % sectorSize)
      (writeLength addr data.length) data idle matched aligned sector chunk.2 chunk.1
    rw [Nat.sub_add_cancel below] at stored
    have rest := writeDataDma_mem ((addr + writeLength addr data.length) % 2 ^ 32)
      (data.drop (writeLength addr data.length)) _ pass.idle (pass.matched matched)
      (by rw [next, List.length_drop]; omega)
    have whole := Nor.put_append flash.chip.mem addr (data.take (writeLength addr data.length))
      (data.drop (writeLength addr data.length))
    rw [List.take_append_drop, List.length_take, Nat.min_eq_left chunk.1] at whole
    rw [rest, stored, next, whole]
termination_by data.length
decreasing_by rw [List.length_drop]; omega

/-- Over an idle chip whose mode suits the installed functions, a write that fits
the array returns OK, stores exactly its data and leaves every other byte alone,
with the standard and with the quad functions alike. -/
theorem halFlashWriteData_refines (flash : Driver) (addr : Nat) (data : List UInt8) (idle : flash.chip.busy = 0)
    (matched : Matched flash) (inside : addr + data.length ≤ arraySize) :
    (flash.halFlashWriteData addr data).1 = .ok ∧
      (∀ k b, data[k]? = some b → (flash.halFlashWriteData addr data).2.chip.mem (addr + k) = b) ∧
      (∀ i, i < addr ∨ addr + data.length ≤ i →
        (flash.halFlashWriteData addr data).2.chip.mem i = flash.chip.mem i) ∧
      (flash.halFlashWriteData addr data).2.chip.busy = 0 := by
  obtain ⟨ok, settled⟩ := writeDataDma_settles addr data flash idle matched
  have mem := writeDataDma_mem addr data flash idle matched inside
  simp only [halFlashWriteData, mem]
  exact ⟨ok, Nor.put_inside flash.chip.mem addr data, Nor.put_outside flash.chip.mem addr data, settled.idle⟩

/-- A chip that holds the low byte of each address, in quad mode. -/
def addressPattern : Driver where
  chip :=
    { mem := fun i => UInt8.ofNat i, wel := false, reg1 := 0, reg2 := 2, reg3 := 0, manuf := 0xEF, device := 0x17
      busy := 0, time := 0, latency := fun _ => 3, settling := fun _ => 2, undriven := fun _ _ => 0, quadFaults := 0 }
  programFun := .quadPageProgramDma
  readFun := .quadReadDataDma

theorem halFlashWriteData_across_sectors :
    (addressPattern.halFlashWriteData 4094 [0x11, 0x22, 0x33]).1 = .ok ∧
      (addressPattern.halFlashWriteData 4094 [0x11, 0x22, 0x33]).2.chip.mem 4096 = 0x33 ∧
      (addressPattern.halFlashWriteData 4094 [0x11, 0x22, 0x33]).2.chip.mem 4093 = 0xFD := by
  obtain ⟨ok, stored, kept, _⟩ := halFlashWriteData_refines addressPattern 4094 [0x11, 0x22, 0x33] rfl
    ⟨fun _ => by decide, fun _ => by decide⟩ (by decide)
  have place : 4094 + 2 = 4096 := rfl
  have last := stored 2 0x33 rfl
  rw [place] at last
  exact ⟨ok, last, kept 4093 (by decide)⟩

end ArduinoK210.Flash.Driver
