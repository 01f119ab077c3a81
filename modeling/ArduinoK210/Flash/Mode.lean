import ArduinoK210.Flash.Write
import ArduinoK210.Lib.Run

/-! The chip's QE bit against the two installed functions and the read that goes
past them. Mode switches keep the bit and the pointers together;
`hal_flash_read_data` always sends the quad command. -/

namespace ArduinoK210.Flash.Driver

private theorem readStatusReg2_eq (flash : Driver) :
    flash.w25qxxReadStatusReg2Dma.1 = flash.chip.reg2 ∧
      (flash.chip.busy = 0 → flash.w25qxxReadStatusReg2Dma.2 = flash.pass 1) := by
  refine ⟨?_, fun idle => ?_⟩
  · simp [w25qxxReadStatusReg2Dma, w25qxxReceiveDataDma, exchange, Chip.transact, Chip.reply, Chip.answer,
      Opcode.readReg1, Opcode.readReg2]
  · simp [w25qxxReadStatusReg2Dma, w25qxxReceiveDataDma, exchange, Chip.transact, idle, Chip.effect, Chip.quadFault,
      pass]

private theorem writeStatusReg2_eq (reg : UInt8) (flash : Driver) (idle : flash.chip.busy = 0) :
    flash.w25qxxWriteStatusReg2Dma reg = { flash with chip :=
      { flash.chip with
        reg2 := reg, wel := false, busy := flash.chip.settling (flash.chip.time + 1), time := flash.chip.time + 2 } } := by
  rw [w25qxxWriteStatusReg2Dma, writeEnable_eq flash idle]
  simp [w25qxxSendDataDma, exchange, Chip.transact, idle, Chip.effect, Chip.obey, Chip.quadFault, Chip.writeStatus,
    Opcode.writeEnable, Opcode.writeReg1, Opcode.writeReg2]

/-- The second status write repeats the first: an idle chip takes it, and a chip
that is still busy loses the write enable, the write or both. -/
theorem writeStatusReg_repeats (reg : UInt8) (flash : Driver) (latch : flash.chip.wel = false)
    (written : flash.chip.reg2 = reg) :
    (flash.w25qxxWriteStatusRegDma 0x00 reg).chip.reg2 = reg ∧
      (flash.w25qxxWriteStatusRegDma 0x00 reg).chip.mem = flash.chip.mem ∧
      (flash.w25qxxWriteStatusRegDma 0x00 reg).chip.undriven = flash.chip.undriven ∧
      (flash.w25qxxWriteStatusRegDma 0x00 reg).chip.quadFaults = flash.chip.quadFaults := by
  rcases busy : flash.chip.busy with _ | _ | left
  · rw [w25qxxWriteStatusRegDma, writeEnable_eq flash busy]
    simp [w25qxxSendDataDma, exchange, Chip.transact, busy, Chip.effect, Chip.obey, Chip.quadFault, Chip.writeStatus,
      Opcode.writeEnable, Opcode.writeReg1]
  · simp [w25qxxWriteStatusRegDma, w25qxxWriteEnableDma, w25qxxSendDataDma, exchange, Chip.transact, busy, Chip.effect,
      Chip.obey, Chip.quadFault, latch, Opcode.writeEnable, Opcode.writeReg1, written]
  · simp [w25qxxWriteStatusRegDma, w25qxxWriteEnableDma, w25qxxSendDataDma, exchange, Chip.transact, busy,
      Chip.quadFault, written]

/-- An idle driver with the given QE register, and the rest of what a mode switch keeps. -/
structure Switched (reg : UInt8) (before after : Driver) : Prop where
  idle : after.chip.busy = 0
  reg2 : after.chip.reg2 = reg
  mem : after.chip.mem = before.chip.mem
  undriven : after.chip.undriven = before.chip.undriven
  faults : after.chip.quadFaults = before.chip.quadFaults

private theorem writeQualMask_switches (reg : UInt8) (flash : Driver) (idle : flash.chip.busy = 0) :
    Switched reg flash (flash.writeQualMask reg) := by
  have first := writeStatusReg2_eq reg flash idle
  have second := writeStatusReg_repeats reg (flash.w25qxxWriteStatusReg2Dma reg) (by rw [first]) (by rw [first])
  rw [writeQualMask, waitWhileBusy_eq]
  refine ⟨rfl, second.1, second.2.1.trans ?_, second.2.2.1.trans ?_, second.2.2.2.trans ?_⟩
  all_goals rw [first]

private theorem enableQuadMode_switches (flash : Driver) (idle : flash.chip.busy = 0) :
    ∃ reg, Switched reg flash flash.w25qxxEnableQuadModeDma ∧ reg &&& reg2QualMask ≠ 0 := by
  obtain ⟨value, passed⟩ := readStatusReg2_eq flash
  unfold w25qxxEnableQuadModeDma
  simp only [value, passed idle]
  split
  next =>
    have switched := writeQualMask_switches (flash.chip.reg2 ||| reg2QualMask) (flash.pass 1) idle
    refine ⟨_, ⟨switched.idle, switched.reg2, switched.mem, switched.undriven, switched.faults⟩, ?_⟩
    intro contrary
    have bit := congrArg (fun word => word.toBitVec.getLsbD 1) contrary
    simp [reg2QualMask] at bit
  next set => exact ⟨flash.chip.reg2, ⟨idle, rfl, rfl, rfl, rfl⟩, set⟩

private theorem disableQuadMode_switches (flash : Driver) (idle : flash.chip.busy = 0) :
    ∃ reg, Switched reg flash flash.w25qxxDisableQuadModeDma ∧ reg &&& reg2QualMask = 0 := by
  obtain ⟨value, passed⟩ := readStatusReg2_eq flash
  unfold w25qxxDisableQuadModeDma
  simp only [value, passed idle]
  split
  next clear => exact ⟨flash.chip.reg2, ⟨idle, rfl, rfl, rfl, rfl⟩, clear⟩
  next =>
    have switched := writeQualMask_switches (flash.chip.reg2 &&& ~~~reg2QualMask) (flash.pass 1) idle
    refine ⟨_, ⟨switched.idle, switched.reg2, switched.mem, switched.undriven, switched.faults⟩, ?_⟩
    rw [UInt8.and_assoc]
    exact UInt8.and_zero

inductive Op where
  | init (id : Bool)
  | setStandardMode
  | setQuadMode
  | readData (addr length : Nat)
  | writeData (addr : Nat) (data : List UInt8)

def perform : Op → Driver → Driver
  | .init id, flash => halFlashInit id (.inr flash)
  | .setStandardMode, flash => flash.halFlashSetStandardMode
  | .setQuadMode, flash => flash.halFlashSetQuadMode
  | .readData addr length, flash => (flash.halFlashReadData addr length).2
  | .writeData addr data, flash => (flash.halFlashWriteData addr data).2

/-- A read that moves any byte needs the quad mode selected; every other call is free. -/
def Admissible : Op → Driver → Prop
  | .readData _ length, flash => length = 0 ∨ flash.readFun = .quadReadDataDma
  | .init _, _ | .setStandardMode, _ | .setQuadMode, _ | .writeData _ _, _ => True

/-- The chip is idle and agrees with the installed functions, and no quad command
has reached it with QE clear since the count was `faults`. -/
structure Agrees (faults : Nat) (flash : Driver) : Prop where
  idle : flash.chip.busy = 0
  matched : Matched flash
  clean : flash.chip.quadFaults = faults

private theorem Settles.agrees {faults : Nat} {before after : Driver} (settled : Settles before after)
    (agrees : Agrees faults before) : Agrees faults after :=
  ⟨settled.idle, settled.matched agrees.matched, settled.faults.trans agrees.clean⟩

private theorem readId_settles (flash : Driver) (idle : flash.chip.busy = 0) : Settles flash flash.w25qxxReadIdDma.2 := by
  constructor
  all_goals simp [w25qxxReadIdDma, w25qxxReceiveDataDma, exchange, Chip.transact, idle, Chip.effect, Chip.quadFault]

private theorem enableQuadMode_agrees (flash : Driver) (idle : flash.chip.busy = 0) :
    Agrees flash.chip.quadFaults flash.w25qxxEnableQuadModeDma := by
  obtain ⟨reg, switched, set⟩ := enableQuadMode_switches flash idle
  have qe : flash.w25qxxEnableQuadModeDma.chip.qe = true := by simpa [Chip.qe, switched.reg2] using set
  exact ⟨switched.idle, ⟨fun _ => qe, fun _ => qe⟩, switched.faults⟩

private theorem disableQuadMode_agrees (flash : Driver) (idle : flash.chip.busy = 0) :
    Agrees flash.chip.quadFaults flash.w25qxxDisableQuadModeDma := by
  obtain ⟨reg, switched, _⟩ := disableQuadMode_switches flash idle
  exact ⟨switched.idle, ⟨fun quad => by simp [w25qxxDisableQuadModeDma] at quad,
    fun quad => by simp [w25qxxDisableQuadModeDma] at quad⟩, switched.faults⟩

private theorem halFlashInit_agrees (id : Bool) (chip : Chip) (idle : chip.busy = 0) :
    Agrees chip.quadFaults (halFlashInit id (.inl chip)) := by
  have enabled := enableQuadMode_agrees ⟨chip, .pageProgramDma, .standReadDataDma⟩ idle
  unfold halFlashInit
  dsimp only
  split
  · exact (readId_settles _ enabled.idle).agrees enabled
  · exact enabled

private theorem readData_settles (addr length : Nat) (flash : Driver) (faults : Nat) (agrees : Agrees faults flash)
    (admissible : Admissible (.readData addr length) flash) :
    (flash.halFlashReadData addr length).1 = flash.chip.readArray addr length ∧
      Settles flash (flash.halFlashReadData addr length).2 := by
  rcases admissible with empty | quad
  · subst empty
    rw [halFlashReadData, w25qxxReadDataDma, dif_pos rfl]
    exact ⟨by simp [Chip.readArray], .refl agrees.idle⟩
  · obtain ⟨bytes, settled, _⟩ := readDataDma_eq .quadReadDataDma addr length flash agrees.idle
      (fun _ => agrees.matched.read quad)
    exact ⟨bytes, settled⟩

/-- One admissible call keeps the chip and the pointers in agreement. -/
theorem perform_agrees (faults : Nat) (op : Op) (flash : Driver) (agrees : Agrees faults flash)
    (admissible : Admissible op flash) : Agrees faults (perform op flash) := by
  cases op with
  | init id =>
    simp only [perform, halFlashInit]
    split
    · exact (readId_settles flash agrees.idle).agrees agrees
    · exact agrees
  | setStandardMode => exact agrees.clean ▸ disableQuadMode_agrees flash agrees.idle
  | setQuadMode => exact agrees.clean ▸ enableQuadMode_agrees flash agrees.idle
  | readData addr length => exact (readData_settles addr length flash faults agrees admissible).2.agrees agrees
  | writeData addr data =>
    exact (writeDataDma_settles addr data flash agrees.idle agrees.matched).2.agrees agrees

/-- In every run from start-up whose reads all happen in quad mode, no quad
command reaches the chip with QE clear and every read returns the array. -/
theorem quad_mode_agreement (chip : Chip) (idle : chip.busy = 0) (id : Bool) (ops : List Op)
    (guarded : Run.Guarded perform Admissible ops (halFlashInit id (.inl chip))) :
    (Run.run perform ops (halFlashInit id (.inl chip))).chip.quadFaults = chip.quadFaults ∧
      ∀ addr length, Admissible (.readData addr length) (Run.run perform ops (halFlashInit id (.inl chip))) →
        addr + length ≤ arraySize →
        ((Run.run perform ops (halFlashInit id (.inl chip))).halFlashReadData addr length).1 =
          Nor.slice (Run.run perform ops (halFlashInit id (.inl chip))).chip.mem addr length := by
  have agrees := guarded.invariant (perform_agrees chip.quadFaults) (halFlashInit_agrees id chip idle)
  refine ⟨agrees.clean, fun addr length admissible inside => ?_⟩
  rw [← readArray_slice _ addr length inside]
  exact (readData_settles addr length _ _ agrees admissible).1

def coldChip : Chip :=
  { mem := fun _ => 0x5A, wel := false, reg1 := 0, reg2 := 0, reg3 := 0, manuf := 0xEF, device := 0x17, busy := 0
    time := 0, latency := fun _ => 4, settling := fun _ => 1, undriven := fun _ _ => 0, quadFaults := 0 }

theorem quad_mode_agreement_after_write :
    ((Run.run perform [.writeData 7 [0x01]] (halFlashInit false (.inl coldChip))).halFlashReadData 7 1).1 =
      Nor.slice (Run.run perform [.writeData 7 [0x01]] (halFlashInit false (.inl coldChip))).chip.mem 7 1 := by
  have able : Admissible (.readData 7 1) (Run.run perform [.writeData 7 [0x01]] (halFlashInit false (.inl coldChip))) := by
    have enabled := halFlashInit_agrees false coldChip rfl
    exact .inr (writeDataDma_settles 7 [0x01] _ enabled.idle enabled.matched).2.readFun
  exact (quad_mode_agreement coldChip rfl false [.writeData 7 [0x01]] ⟨trivial, trivial⟩).2 7 1 able (by decide)

/-- After the standard mode is selected, a read sends the quad command to a chip
whose QE bit is clear, and returns the undriven line and not the array. -/
theorem halFlashReadData_in_standard_mode :
    (Run.run perform [.setStandardMode, .readData 0 1] (halFlashInit false (.inl coldChip))).chip.quadFaults ≠
        coldChip.quadFaults ∧
      ((Run.run perform [.setStandardMode] (halFlashInit false (.inl coldChip))).halFlashReadData 0 1).1 ≠
        Nor.slice (Run.run perform [.setStandardMode] (halFlashInit false (.inl coldChip))).chip.mem 0 1 := by
  obtain ⟨on, enabled, _⟩ := enableQuadMode_switches ⟨coldChip, .pageProgramDma, .standReadDataDma⟩ rfl
  obtain ⟨off, disabled, clear⟩ := disableQuadMode_switches _ enabled.idle
  simp only [Run.run, perform, halFlashInit, halFlashSetStandardMode, Bool.false_eq_true, if_false]
  generalize w25qxxDisableQuadModeDma _ = flash at disabled
  have qe : flash.chip.qe = false := by simpa [Chip.qe, disabled.reg2] using clear
  have faults : flash.chip.quadFaults = 0 := disabled.faults.trans enabled.faults
  have line : flash.chip.undriven = fun _ _ => 0 := disabled.undriven.trans enabled.undriven
  have mem : flash.chip.mem = fun _ => 0x5A := disabled.mem.trans enabled.mem
  constructor
  · simp [halFlashReadData, w25qxxReadDataDma, w25qxxReadChunk, exchange, Chip.transact, Chip.quadFault, qe, faults,
      coldChip]
  · simp [halFlashReadData, w25qxxReadDataDma, w25qxxReadChunk, exchange, Chip.transact, Chip.reply, qe, Chip.floating,
      line, mem, Nor.slice]

end ArduinoK210.Flash.Driver
