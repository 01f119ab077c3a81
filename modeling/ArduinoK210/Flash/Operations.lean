import ArduinoK210.Flash.Driver

/-! What each driver operation does to an idle chip. Every operation that waits
leaves the chip idle with its mode bit, its fault count and the installed
functions as they were; the array changes by one library operation. -/

namespace ArduinoK210.Flash.Driver

/-- The chip is idle again and nothing but the array and the latch has moved. -/
structure Settles (before after : Driver) : Prop where
  idle : after.chip.busy = 0
  reg2 : after.chip.reg2 = before.chip.reg2
  faults : after.chip.quadFaults = before.chip.quadFaults
  programFun : after.programFun = before.programFun
  readFun : after.readFun = before.readFun

theorem Settles.refl {flash : Driver} (idle : flash.chip.busy = 0) : Settles flash flash :=
  ⟨idle, rfl, rfl, rfl, rfl⟩

theorem Settles.trans {first second third : Driver} (left : Settles first second) (right : Settles second third) :
    Settles first third :=
  ⟨right.idle, right.reg2.trans left.reg2, right.faults.trans left.faults,
    right.programFun.trans left.programFun, right.readFun.trans left.readFun⟩

/-- The installed functions suit the chip: a quad one is only selected while QE is set. -/
structure Matched (flash : Driver) : Prop where
  program : flash.programFun = .quadPageProgramDma → flash.chip.qe = true
  read : flash.readFun = .quadReadDataDma → flash.chip.qe = true

private theorem Settles.qe {before after : Driver} (settled : Settles before after) : after.chip.qe = before.chip.qe := by
  simp only [Chip.qe, settled.reg2]

theorem Settles.matched {before after : Driver} (settled : Settles before after) (matched : Matched before) :
    Matched after := by
  constructor
  · intro quad
    rw [settled.qe]
    exact matched.program (settled.programFun ▸ quad)
  · intro quad
    rw [settled.qe]
    exact matched.read (settled.readFun ▸ quad)

/-- Polling only lets time pass: as many windows as the chip stays busy, and one
more that finds it idle. -/
theorem waitWhileBusy_eq (flash : Driver) : flash.waitWhileBusy =
    { flash with chip := { flash.chip with busy := 0, time := flash.chip.time + flash.chip.busy + 1 } } := by
  obtain ⟨chip, programFun, readFun⟩ := flash
  generalize length : chip.busy = busy
  induction busy generalizing chip with
  | zero =>
    rw [waitWhileBusy, dif_neg (by simp [length])]
    simp [w25qxxIsBusyDma, w25qxxReadStatusReg1Dma, w25qxxReceiveDataDma, exchange, Chip.transact, length,
      Chip.effect, Chip.quadFault]
  | succ busy ih =>
    rw [waitWhileBusy, dif_pos (by simp [length])]
    have polled : (w25qxxIsBusyDma ⟨chip, programFun, readFun⟩).2 =
        ⟨{ chip with busy := busy, time := chip.time + 1 }, programFun, readFun⟩ := by
      simp [w25qxxIsBusyDma, w25qxxReadStatusReg1Dma, w25qxxReceiveDataDma, exchange, Chip.transact, length,
        Chip.quadFault]
    rw [polled, ih _ rfl]
    simp only [Nat.add_assoc, Nat.add_comm 1 busy]

@[simp] theorem waitWhileBusy_mem (flash : Driver) : flash.waitWhileBusy.chip.mem = flash.chip.mem := by
  rw [waitWhileBusy_eq]

/-- A write enable reaches an idle chip and sets the latch. -/
theorem writeEnable_eq (flash : Driver) (idle : flash.chip.busy = 0) : flash.w25qxxWriteEnableDma =
    { flash with chip := { flash.chip with wel := true, time := flash.chip.time + 1 } } := by
  simp [w25qxxWriteEnableDma, w25qxxSendDataDma, exchange, Chip.transact, idle, Chip.effect, Chip.obey, Chip.quadFault]

/-- `after` is `before` with the sent bytes programmed from `addr` on. -/
def Programmed (addr : Nat) (data : List UInt8) (before after : Driver) : Prop :=
  Settles before after ∧ after.chip.mem = (before.chip.programAt (addr % arraySize) data).mem

private theorem pageProgramDma_programs (flash : Driver) (addr : Nat) (data : List UInt8) (idle : flash.chip.busy = 0) :
    Programmed addr data flash (flash.w25qxxPageProgramDma addr data) := by
  rw [w25qxxPageProgramDma, writeEnable_eq flash idle, waitWhileBusy_eq]
  refine ⟨⟨rfl, ?_, ?_, rfl, rfl⟩, ?_⟩
  all_goals
    simp [w25qxxSendDataDma, addressBytes, exchange, Chip.transact, idle, Chip.effect, Chip.obey, Chip.quadFault,
      Opcode.pageProgram, Opcode.writeEnable, Chip.addressOf_bytes, Chip.programAt, Chip.started]

private theorem quadPageProgramDma_programs (flash : Driver) (addr : Nat) (data : List UInt8) (idle : flash.chip.busy = 0)
    (qe : flash.chip.qe = true) : Programmed addr data flash (flash.w25qxxQuadPageProgramDma addr data) := by
  rw [w25qxxQuadPageProgramDma, writeEnable_eq flash idle, waitWhileBusy_eq]
  simp only [Chip.qe] at qe
  refine ⟨⟨rfl, ?_, ?_, rfl, rfl⟩, ?_⟩
  all_goals
    simp [exchange, Chip.transact, idle, Chip.effect, Chip.quadFault, Chip.qe, qe, Chip.programAt, Chip.started]

/-- Both program functions do the same to the array; the quad one needs QE. -/
theorem pageProgramFun_programs (flash : Driver) (addr : Nat) (data : List UInt8) (idle : flash.chip.busy = 0)
    (matched : Matched flash) : Programmed addr data flash (flash.w25qxxPageProgramFun addr data) := by
  unfold w25qxxPageProgramFun
  split
  next => exact pageProgramDma_programs flash addr data idle
  next selected => exact quadPageProgramDma_programs flash addr data idle (matched.program selected)

theorem sectorProgramPages_settles (pages addr : Nat) (data : List UInt8) (flash : Driver)
    (idle : flash.chip.busy = 0) (matched : Matched flash) :
    Settles flash (sectorProgramPages pages addr data flash) := by
  induction pages generalizing addr data flash with
  | zero => exact .refl idle
  | succ pages ih =>
    have first := (pageProgramFun_programs flash addr (data.take pageSize) idle matched).1
    exact first.trans (ih _ _ _ first.idle (first.matched matched))

theorem sectorProgramPages_mem (pages addr : Nat) (data : List UInt8) (flash : Driver)
    (idle : flash.chip.busy = 0) (matched : Matched flash) (aligned : addr % pageSize = 0)
    (inside : addr + pages * pageSize ≤ arraySize) (enough : pages * pageSize ≤ data.length) :
    (sectorProgramPages pages addr data flash).chip.mem =
      Nor.program byteCell flash.chip.mem addr (data.take (pages * pageSize)) := by
  induction pages generalizing addr data flash with
  | zero => simp [sectorProgramPages]
  | succ pages ih =>
    obtain ⟨settled, mem⟩ := pageProgramFun_programs flash addr (data.take pageSize) idle matched
    rw [Nat.add_mul, Nat.one_mul] at inside enough
    have positive : 0 < pageSize := by decide
    have small : arraySize < 2 ^ 32 := by decide
    have taken : (data.take pageSize).length = pageSize := by rw [List.length_take]; omega
    have first : (flash.chip.programAt (addr % arraySize) (data.take pageSize)).mem =
        Nor.program byteCell flash.chip.mem addr (data.take pageSize) := by
      rw [Chip.programAt, Chip.started, Nat.mod_eq_of_lt (by omega), aligned, Chip.programPage_eq _ _ _ _ (by omega),
        Nat.add_zero, Nat.div_mul_cancel (Nat.dvd_of_mod_eq_zero aligned)]
    have next : (addr + pageSize) % 2 ^ 32 = addr + pageSize := Nat.mod_eq_of_lt (by omega)
    have rest := ih ((addr + pageSize) % 2 ^ 32) (data.drop pageSize) _ settled.idle (settled.matched matched)
      (by rw [next]; simp [aligned]) (by omega) (by rw [List.length_drop]; omega)
    rw [sectorProgramPages, rest, mem, first, next]
    have split : data.take ((pages + 1) * pageSize) = data.take pageSize ++ (data.drop pageSize).take (pages * pageSize) := by
      rw [Nat.add_mul, Nat.one_mul, Nat.add_comm, List.take_add]
    rw [split, Nor.program_append, taken]

def pass (flash : Driver) (windows : Nat) : Driver :=
  { flash with chip := { flash.chip with time := flash.chip.time + windows } }

/-- A read window changes nothing but the time, and answers from the array when
the chip can follow the command. -/
theorem readChunk_eq (mode : ReadFun) (addr len : Nat) (flash : Driver) (idle : flash.chip.busy = 0)
    (able : mode = .quadReadDataDma → flash.chip.qe = true) :
    flash.w25qxxReadChunk mode addr len =
      (flash.chip.readArray (addr % arraySize) len, flash.pass 1) := by
  cases mode with
  | standReadDataDma =>
    simp [w25qxxReadChunk, w25qxxReceiveDataDma, exchange, Chip.transact, Chip.reply, Chip.answer, addressBytes, idle,
      Chip.effect, Chip.quadFault, Opcode.fastRead, Opcode.readReg1, Opcode.readReg2, Opcode.readReg3,
      Chip.addressOf_bytes, pass]
  | quadReadDataDma =>
    have mode24 : addr * 256 % 2 ^ 32 / 256 % arraySize = addr % arraySize := by simp only [arraySize]; omega
    simp only [w25qxxReadChunk, exchange, Chip.transact, Chip.reply, Chip.effect, Chip.quadFault, idle, able rfl,
      if_true, and_self, mode24, Nat.add_zero, pass]

private theorem readArray_append (chip : Chip) (address first second : Nat) :
    chip.readArray address (first + second) =
      chip.readArray address first ++ chip.readArray (address + first) second := by
  simp [Chip.readArray, List.range_add, Function.comp_def, Nat.add_assoc]

private theorem readArray_congr (chip : Chip) (first second count : Nat) (same : first % arraySize = second % arraySize) :
    chip.readArray first count = chip.readArray second count := by
  simp only [Chip.readArray]
  apply List.map_congr_left
  intro k _
  rw [Nat.add_mod, same, ← Nat.add_mod]

/-- The chunked read returns the array bytes from `addr` on, around the end of
the array if it must, and leaves the array alone. -/
theorem readDataDma_eq (mode : ReadFun) (addr length : Nat) (flash : Driver) (idle : flash.chip.busy = 0)
    (able : mode = .quadReadDataDma → flash.chip.qe = true) :
    (flash.w25qxxReadDataDma mode addr length).1 = flash.chip.readArray addr length ∧
      Settles flash (flash.w25qxxReadDataDma mode addr length).2 ∧
      (flash.w25qxxReadDataDma mode addr length).2.chip.mem = flash.chip.mem := by
  induction length using Nat.strongRecOn generalizing addr flash with
  | ind length ih =>
    rw [w25qxxReadDataDma]
    split
    next empty => exact ⟨by simp [empty, Chip.readArray], .refl idle, rfl⟩
    next =>
      generalize size : (if 0x010000 ≤ length then 0x010000 else length) = len
      have progress : 0 < len ∧ len ≤ length := by rw [← size]; split <;> omega
      simp only [readChunk_eq mode addr len flash idle able]
      obtain ⟨bytes, settled, mem⟩ := ih (length - len) (by omega) ((addr + len) % 2 ^ 32) (flash.pass 1) idle able
      have passed : Settles flash (flash.pass 1) := ⟨idle, rfl, rfl, rfl, rfl⟩
      refine ⟨?_, passed.trans settled, mem⟩
      rw [bytes]
      have head := readArray_congr flash.chip (addr % arraySize) addr len (Nat.mod_mod _ _)
      have tail := readArray_congr flash.chip ((addr + len) % 2 ^ 32) (addr + len) (length - len)
        (by simp only [arraySize]; omega)
      have whole := readArray_append flash.chip addr len (length - len)
      rw [show len + (length - len) = length by omega] at whole
      rw [whole, head]
      exact congrArg (flash.chip.readArray addr len ++ ·) tail

theorem readArray_slice (chip : Chip) (addr length : Nat) (inside : addr + length ≤ arraySize) :
    chip.readArray addr length = Nor.slice chip.mem addr length := by
  apply List.map_congr_left
  intro k member
  rw [Nat.mod_eq_of_lt (by have := List.mem_range.mp member; omega)]

theorem eraseDma_eq (opcode : UInt8) (unit addr : Nat) (flash : Driver) (idle : flash.chip.busy = 0)
    (known : opcode = Opcode.sectorErase ∧ unit = 4096 ∨ opcode = Opcode.block32kErase ∧ unit = 32768 ∨
      opcode = Opcode.block64kErase ∧ unit = 65536) :
    flash.eraseDma opcode addr = { flash with chip :=
      { flash.chip with
        mem := Nor.erase byteCell flash.chip.mem (addr % arraySize / unit * unit) unit
        wel := false, busy := flash.chip.latency (flash.chip.time + 1) + 1, time := flash.chip.time + 2 } } := by
  rw [eraseDma, writeEnable_eq flash idle]
  rcases known with ⟨rfl, rfl⟩ | ⟨rfl, rfl⟩ | ⟨rfl, rfl⟩
  all_goals
    simp [w25qxxSendDataDma, addressBytes, exchange, Chip.transact, idle, Chip.effect, Chip.obey, Chip.quadFault,
      Opcode.writeEnable, Opcode.pageProgram, Opcode.sectorErase, Opcode.block32kErase, Opcode.block64kErase,
      Chip.addressOf_bytes, Chip.eraseAt, Chip.started]

theorem sectorErase_settles (addr : Nat) (flash : Driver) (idle : flash.chip.busy = 0) :
    Settles flash (flash.w25qxxSectorEraseDma addr).waitWhileBusy ∧
      (flash.w25qxxSectorEraseDma addr).waitWhileBusy.chip.mem =
        Nor.erase byteCell flash.chip.mem (addr % arraySize / sectorSize * sectorSize) sectorSize := by
  have erased := eraseDma_eq Opcode.sectorErase 4096 addr flash idle (.inl ⟨rfl, rfl⟩)
  rw [w25qxxSectorEraseDma, waitWhileBusy_mem, erased, waitWhileBusy_eq]
  exact ⟨⟨rfl, rfl, rfl, rfl, rfl⟩, rfl⟩

end ArduinoK210.Flash.Driver
