import ArduinoK210.Flash.Write

/-! `hal_flash_erase` sends its erase commands back to back and returns without
waiting. A command that meets a busy chip is lost, and so is the first window of
whatever the caller does next. -/

namespace ArduinoK210.Flash.Driver

private theorem exchange_busy (flash : Driver) (frame : Frame) (bytes : List UInt8) (shape : frame = .send bytes) (left : Nat)
    (busy : flash.chip.busy = left + 1) : (flash.exchange frame).2 =
      { flash with chip := { flash.chip with busy := left, time := flash.chip.time + 1 } } := by
  simp [exchange, Chip.transact, busy, shape, Chip.quadFault]

private theorem EraseFunc.call_eq (fn : EraseFunc) (addr : Nat) (flash : Driver) :
    ∃ opcode, fn.call addr flash = flash.eraseDma opcode addr := by
  cases fn with
  | block64k => exact ⟨_, rfl⟩
  | block32k => exact ⟨_, rfl⟩
  | sector => exact ⟨_, rfl⟩

/-- Both windows of an erase are lost on a chip that stays busy. -/
theorem eraseCall_busy (fn : EraseFunc) (addr : Nat) (flash : Driver) (left : Nat) (busy : flash.chip.busy = left + 2) :
    fn.call addr flash = { flash with chip := { flash.chip with busy := left, time := flash.chip.time + 2 } } := by
  obtain ⟨opcode, same⟩ := fn.call_eq addr flash
  rw [same, eraseDma, w25qxxWriteEnableDma, w25qxxSendDataDma, w25qxxSendDataDma,
    exchange_busy flash _ _ rfl (left + 1) busy, exchange_busy _ _ _ rfl left rfl]

private theorem eraseUnits_busy (fn : EraseFunc) (unit count addr : Nat) (flash : Driver) (left : Nat)
    (busy : flash.chip.busy = left + 2 * count) :
    (eraseUnits fn unit count addr flash).chip.busy = left ∧
      (eraseUnits fn unit count addr flash).chip.undriven = flash.chip.undriven ∧
      (eraseUnits fn unit count addr flash).chip.mem = flash.chip.mem := by
  induction count generalizing addr flash with
  | zero => exact ⟨busy, rfl, rfl⟩
  | succ count ih =>
    rw [eraseUnits, eraseCall_busy fn addr flash (left + 2 * count) (by omega)]
    exact ih _ _ rfl

def EraseFunc.unit : EraseFunc → Nat
  | .block64k => 65536
  | .block32k => 32768
  | .sector => 4096

private theorem eraseCall_idle (fn : EraseFunc) (addr : Nat) (flash : Driver) (idle : flash.chip.busy = 0)
    (inside : addr < arraySize) (aligned : addr % fn.unit = 0) :
    fn.call addr flash = { flash with chip :=
      { flash.chip with
        mem := Nor.erase byteCell flash.chip.mem addr fn.unit
        wel := false, busy := flash.chip.latency (flash.chip.time + 1) + 1, time := flash.chip.time + 2 } } := by
  have place : addr % arraySize / fn.unit * fn.unit = addr := by
    rw [Nat.mod_eq_of_lt inside, Nat.div_mul_cancel (Nat.dvd_of_mod_eq_zero aligned)]
  cases fn with
  | block64k =>
    refine (eraseDma_eq Opcode.block64kErase 65536 addr flash idle (.inr (.inr ⟨rfl, rfl⟩))).trans ?_
    simp only [EraseFunc.unit] at place ⊢
    rw [place]
  | block32k =>
    refine (eraseDma_eq Opcode.block32kErase 32768 addr flash idle (.inr (.inl ⟨rfl, rfl⟩))).trans ?_
    simp only [EraseFunc.unit] at place ⊢
    rw [place]
  | sector =>
    refine (eraseDma_eq Opcode.sectorErase 4096 addr flash idle (.inl ⟨rfl, rfl⟩)).trans ?_
    simp only [EraseFunc.unit] at place ⊢
    rw [place]

def SectorAligned (addr length : Nat) : Prop := addr % sectorSize = 0 ∧ length % sectorSize = 0

instance (addr length : Nat) : Decidable (SectorAligned addr length) := instDecidableAnd

/-- The table picks a unit that divides both arguments exactly when a sector does. -/
theorem selectErase_aligned (addr length : Nat) (aligned : SectorAligned addr length) :
    ∃ fn : EraseFunc, selectErase addr length eraseFuncTable (0, none) = (fn.unit, some fn) ∧
      addr % fn.unit = 0 ∧ length % fn.unit = 0 := by
  simp only [SectorAligned, sectorSize] at aligned
  simp only [selectErase, eraseFuncTable, Option.isSome_some, Option.isSome_none, true_and]
  by_cases large : addr % (64 * 1024) = 0 ∧ length % (64 * 1024) = 0
  · exact ⟨.block64k, by rw [if_pos large]; rfl, large⟩
  · by_cases middle : addr % (32 * 1024) = 0 ∧ length % (32 * 1024) = 0
    · exact ⟨.block32k, by rw [if_neg large, if_pos middle]; rfl, middle⟩
    · exact ⟨.sector, by rw [if_neg large, if_neg middle, if_pos aligned]; rfl, aligned⟩

private theorem selectErase_unaligned (addr length : Nat) (unaligned : ¬SectorAligned addr length) :
    selectErase addr length eraseFuncTable (0, none) = (0, none) := by
  simp only [SectorAligned, sectorSize] at unaligned
  simp only [selectErase, eraseFuncTable, Option.isSome_some, Option.isSome_none, true_and, Bool.false_eq_true,
    false_and, if_false]
  rw [if_neg (by omega), if_neg (by omega), if_neg (by omega)]

private theorem halFlashErase_unaligned (addr length : Nat) (flash : Driver) (unaligned : ¬SectorAligned addr length) :
    flash.halFlashErase addr length = (.error, flash) := by
  rw [halFlashErase, selectErase_unaligned addr length unaligned]

private theorem halFlashErase_aligned (addr length : Nat) (flash : Driver) (aligned : SectorAligned addr length) :
    ∃ fn : EraseFunc, addr % fn.unit = 0 ∧ length % fn.unit = 0 ∧
      flash.halFlashErase addr length = (.ok, eraseUnits fn fn.unit (length / fn.unit) addr flash) := by
  obtain ⟨fn, selected, start, size⟩ := selectErase_aligned addr length aligned
  refine ⟨fn, start, size, ?_⟩
  have positive : fn.unit ≠ 0 := by cases fn <;> decide
  rw [halFlashErase, selected]
  exact if_neg positive

private theorem halFlashErase_empty (addr : Nat) (flash : Driver) (aligned : SectorAligned addr 0) :
    flash.halFlashErase addr 0 = (.ok, flash) := by
  obtain ⟨fn, _, _, result⟩ := halFlashErase_aligned addr 0 flash aligned
  rw [result, Nat.zero_div, eraseUnits]

/-- A chip slow enough to be busy until the call returns erases the first unit
alone: every later command of the loop is lost. -/
theorem halFlashErase_slow (addr length : Nat) (flash : Driver) (idle : flash.chip.busy = 0)
    (aligned : SectorAligned addr length) (some : length ≠ 0) (inside : addr + length ≤ arraySize)
    (slow : ∀ n, flash.chip.latency n = 2 * length) :
    ∃ fn : EraseFunc, fn.unit ≤ length ∧ (flash.halFlashErase addr length).1 = .ok ∧
      (flash.halFlashErase addr length).2.chip.mem = Nor.erase byteCell flash.chip.mem addr fn.unit ∧
      (flash.halFlashErase addr length).2.chip.undriven = flash.chip.undriven ∧
      (flash.halFlashErase addr length).2.chip.busy ≠ 0 := by
  obtain ⟨fn, start, size, result⟩ := halFlashErase_aligned addr length flash aligned
  have positive : 0 < fn.unit := by cases fn <;> decide
  have unit : fn.unit ≤ length := Nat.le_of_dvd (Nat.pos_of_ne_zero some) (Nat.dvd_of_mod_eq_zero size)
  obtain ⟨later, count⟩ : ∃ later, length / fn.unit = later + 1 :=
    ⟨_, (Nat.succ_pred_eq_of_pos (Nat.div_pos unit positive)).symm⟩
  have bound : later + 1 ≤ length := count ▸ Nat.div_le_self length fn.unit
  have first := eraseCall_idle fn addr flash idle (by omega) start
  obtain ⟨busy, undriven, mem⟩ := eraseUnits_busy fn fn.unit later ((addr + fn.unit) % 2 ^ 32) (fn.call addr flash)
    (2 * length + 1 - 2 * later) (by rw [first]; simp only [slow]; omega)
  rw [result, count]
  refine ⟨fn, unit, rfl, ?_, ?_, ?_⟩
  · exact mem.trans (by rw [first])
  · exact undriven.trans (by rw [first])
  · simp only [eraseUnits, busy]
    omega

/-- What an erase promises about one range of one array: an error exactly for an
unaligned range, which changes nothing; otherwise OK, the range blank and the
rest unchanged, and a read or write issued next that works on the erased array.
It ranges over every timing of the chip and every level of its idle lines. -/
structure EraseMeets (mem : Nat → UInt8) (addr length : Nat) (flash : Driver) : Prop where
  status : (flash.halFlashErase addr length).1 = .error ↔ ¬SectorAligned addr length
  refused : ¬SectorAligned addr length → (flash.halFlashErase addr length).2 = flash
  accepted : SectorAligned addr length → (flash.halFlashErase addr length).1 = .ok
  array : SectorAligned addr length →
    (flash.halFlashErase addr length).2.chip.mem = Nor.erase byteCell mem addr length
  reads : SectorAligned addr length → ∀ start count, start + count ≤ arraySize →
    ((flash.halFlashErase addr length).2.halFlashReadData start count).1 =
      Nor.slice (Nor.erase byteCell mem addr length) start count
  writes : SectorAligned addr length → ∀ start data, start + data.length ≤ arraySize →
    ((flash.halFlashErase addr length).2.halFlashWriteData start data).2.chip.mem =
      Nor.put (Nor.erase byteCell mem addr length) start data

/-- The drivers over `mem` that a caller can hold: idle chip, QE set by start-up. -/
structure Holds (mem : Nat → UInt8) (flash : Driver) : Prop where
  mem : flash.chip.mem = mem
  idle : flash.chip.busy = 0
  qe : flash.chip.qe = true

private theorem halFlashReadData_busy (flash : Driver) (addr : Nat) (busy : flash.chip.busy ≠ 0) :
    (flash.halFlashReadData addr 1).1 = [flash.chip.undriven flash.chip.time 0] := by
  simp [halFlashReadData, w25qxxReadDataDma, w25qxxReadChunk, exchange, Chip.transact, Chip.reply, busy, Chip.floating]

private theorem eraseMeets_unaligned (mem : Nat → UInt8) (addr length : Nat) (flash : Driver)
    (unaligned : ¬SectorAligned addr length) : EraseMeets mem addr length flash := by
  have done := halFlashErase_unaligned addr length flash unaligned
  exact ⟨by simp [done, unaligned], fun _ => by rw [done], fun contrary => absurd contrary unaligned,
    fun contrary => absurd contrary unaligned, fun contrary => absurd contrary unaligned,
    fun contrary => absurd contrary unaligned⟩

private theorem eraseMeets_empty (mem : Nat → UInt8) (addr : Nat) (flash : Driver) (held : Holds mem flash)
    (aligned : SectorAligned addr 0) : EraseMeets mem addr 0 flash := by
  have done := halFlashErase_empty addr flash aligned
  constructor
  · simp [done, aligned]
  · exact fun unaligned => absurd aligned unaligned
  · exact fun _ => by rw [done]
  · exact fun _ => by rw [done, Nor.erase_zero]; exact held.mem
  · intro _ start count inside
    rw [done, Nor.erase_zero, ← held.mem, ← readArray_slice flash.chip start count inside]
    exact (readDataDma_eq .quadReadDataDma start count flash held.idle (fun _ => held.qe)).1
  · intro _ start data inside
    rw [done, Nor.erase_zero, ← held.mem]
    exact writeDataDma_mem start data flash held.idle ⟨fun _ => held.qe, fun _ => held.qe⟩ inside

def slowDriver (mem : Nat → UInt8) (windows : Nat) : Driver where
  chip :=
    { mem, wel := false, reg1 := 0, reg2 := 2, reg3 := 0, manuf := 0xEF, device := 0x17, busy := 0, time := 0
      latency := fun _ => windows, settling := fun _ => 0, undriven := fun _ _ => 0, quadFaults := 0 }
  programFun := .quadPageProgramDma
  readFun := .quadReadDataDma

private theorem slowDriver_holds (mem : Nat → UInt8) (windows : Nat) : Holds mem (slowDriver mem windows) :=
  ⟨rfl, rfl, by simp [slowDriver, Chip.qe, reg2QualMask]⟩

/-- The promise of an erase holds for an array and a range exactly when no erase
command is sent: as soon as one is, the call returns with the chip busy, and the
read that follows is answered by an undriven line. -/
theorem halFlashErase_meets_iff (mem : Nat → UInt8) (addr length : Nat) (inside : addr + length ≤ arraySize) :
    (∀ flash, Holds mem flash → EraseMeets mem addr length flash) ↔ ¬SectorAligned addr length ∨ length = 0 := by
  constructor
  · intro meets
    by_cases aligned : SectorAligned addr length
    · right
      by_contra some
      obtain ⟨fn, _, _, _, undriven, busy⟩ := halFlashErase_slow addr length (slowDriver mem (2 * length)) rfl aligned
        some inside (fun _ => rfl)
      have read := (meets _ (slowDriver_holds mem (2 * length))).reads aligned addr 1 (by omega)
      rw [halFlashReadData_busy _ addr busy, undriven] at read
      simp [slowDriver, Nor.slice, Nor.erase, byteCell, Nat.pos_of_ne_zero some] at read
    · exact .inl aligned
  · intro spared flash held
    by_cases aligned : SectorAligned addr length
    · have empty := spared.resolve_left (not_not_intro aligned)
      subst empty
      exact eraseMeets_empty mem addr flash held aligned
    · exact eraseMeets_unaligned mem addr length flash aligned

theorem halFlashErase_meets_unaligned_page :
    100 + 4096 ≤ arraySize ∧ ∀ flash, Holds (fun _ => 0) flash → EraseMeets (fun _ => 0) 100 4096 flash :=
  ⟨by decide, (halFlashErase_meets_iff (fun _ => 0) 100 4096 (by decide)).mpr (.inl (by decide))⟩

/-- Two sectors of zeros: the second erase command meets a busy chip and is lost. -/
theorem halFlashErase_loses_second_sector :
    ((slowDriver (fun _ => 0) 100).halFlashErase 0 8192).1 = .ok ∧
      ((slowDriver (fun _ => 0) 100).halFlashErase 0 8192).2.chip.mem 4096 = 0 ∧
      ¬∀ flash, Holds (fun _ => 0) flash → EraseMeets (fun _ => 0) 0 8192 flash := by
  have kept : ((slowDriver (fun _ => 0) 100).halFlashErase 0 8192).2.chip.mem 4096 = 0 := by decide
  refine ⟨by decide, kept, fun meets => ?_⟩
  have erased := (meets _ (slowDriver_holds (fun _ => 0) 100)).array (by decide)
  rw [erased] at kept
  exact absurd kept (by decide)

end ArduinoK210.Flash.Driver
