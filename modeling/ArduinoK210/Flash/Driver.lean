import ArduinoK210.Flash.Chip

/-! The flash HAL over the chip. Buffers are byte lists, addresses are 32-bit
words kept as naturals, and every transfer is one chip-select window. -/

namespace ArduinoK210.Flash

inductive FlashStatus where
  | error
  | busy
  | ok
  deriving DecidableEq, Repr

inductive ProgramFun where
  | pageProgramDma
  | quadPageProgramDma
  deriving DecidableEq, Repr

inductive ReadFun where
  | standReadDataDma
  | quadReadDataDma
  deriving DecidableEq, Repr

/-- The driver once `hal_flash_init` has installed its two function pointers. -/
structure Driver where
  chip : Chip
  programFun : ProgramFun
  readFun : ReadFun

namespace Driver

def exchange (flash : Driver) (frame : Frame) : List UInt8 × Driver :=
  ((flash.chip.transact frame).1, { flash with chip := (flash.chip.transact frame).2 })

def w25qxxReceiveDataDma (cmd : List UInt8) (rxLen : Nat) (flash : Driver) : List UInt8 × Driver :=
  flash.exchange (.receive cmd rxLen)

def w25qxxSendDataDma (cmd tx : List UInt8) (flash : Driver) : Driver :=
  (flash.exchange (.send (cmd ++ tx))).2

def w25qxxReadIdDma (flash : Driver) : List UInt8 × Driver :=
  flash.w25qxxReceiveDataDma [Opcode.readId, 0x00, 0x00, 0x00] 2

def w25qxxWriteEnableDma (flash : Driver) : Driver :=
  flash.w25qxxSendDataDma [Opcode.writeEnable] []

def w25qxxWriteStatusRegDma (reg1 reg2 : UInt8) (flash : Driver) : Driver :=
  flash.w25qxxWriteEnableDma.w25qxxSendDataDma [Opcode.writeReg1, reg1, reg2] []

def w25qxxWriteStatusReg2Dma (reg : UInt8) (flash : Driver) : Driver :=
  flash.w25qxxWriteEnableDma.w25qxxSendDataDma [Opcode.writeReg2, reg] []

def w25qxxReadStatusReg1Dma (flash : Driver) : UInt8 × Driver :=
  let r := flash.w25qxxReceiveDataDma [Opcode.readReg1] 1
  (r.1.headD 0, r.2)

def w25qxxReadStatusReg2Dma (flash : Driver) : UInt8 × Driver :=
  let r := flash.w25qxxReceiveDataDma [Opcode.readReg2] 1
  (r.1.headD 0, r.2)

def w25qxxIsBusyDma (flash : Driver) : FlashStatus × Driver :=
  let r := flash.w25qxxReadStatusReg1Dma
  (if r.1 &&& reg1BusyMask != 0 then .busy else .ok, r.2)

@[simp] theorem isBusyDma_status (flash : Driver) :
    flash.w25qxxIsBusyDma.1 = if flash.chip.busy = 0 then .ok else .busy := by
  simp only [w25qxxIsBusyDma, w25qxxReadStatusReg1Dma, w25qxxReceiveDataDma, exchange, Chip.transact, Chip.reply,
    Chip.answer, if_true, List.replicate_one, List.headD_cons, Chip.status1_busy]
  by_cases idle : flash.chip.busy = 0
  · simp [idle]
  · simp [idle, reg1BusyMask]

private theorem isBusyDma_busy (flash : Driver) : flash.w25qxxIsBusyDma.2.chip.busy = flash.chip.busy - 1 := by
  by_cases idle : flash.chip.busy = 0
  · simp [w25qxxIsBusyDma, w25qxxReadStatusReg1Dma, w25qxxReceiveDataDma, exchange, Chip.transact, idle, Chip.effect]
  · simp [w25qxxIsBusyDma, w25qxxReadStatusReg1Dma, w25qxxReceiveDataDma, exchange, Chip.transact, idle]

/-- `while (w25qxx_is_busy_dma() == W25QXX_BUSY);` -/
def waitWhileBusy (flash : Driver) : Driver :=
  if polled : flash.w25qxxIsBusyDma.1 = .busy then
    waitWhileBusy flash.w25qxxIsBusyDma.2
  else flash.w25qxxIsBusyDma.2
termination_by flash.chip.busy
decreasing_by
  have active : flash.chip.busy ≠ 0 := by intro idle; simp [idle] at polled
  rw [isBusyDma_busy]
  omega

/-- `cmd[1..3]` of every command that carries its address in bytes. -/
def addressBytes (addr : Nat) : List UInt8 :=
  [UInt8.ofNat (addr / 65536), UInt8.ofNat (addr / 256), UInt8.ofNat addr]

def eraseDma (opcode : UInt8) (addr : Nat) (flash : Driver) : Driver :=
  flash.w25qxxWriteEnableDma.w25qxxSendDataDma (opcode :: addressBytes addr) []

def w25qxxSectorEraseDma (addr : Nat) (flash : Driver) : Driver := flash.eraseDma Opcode.sectorErase addr

def w25qxx32kBlockEraseDma (addr : Nat) (flash : Driver) : Driver := flash.eraseDma Opcode.block32kErase addr

def w25qxx64kBlockEraseDma (addr : Nat) (flash : Driver) : Driver := flash.eraseDma Opcode.block64kErase addr

def w25qxxChipEraseDma (flash : Driver) : Driver :=
  flash.w25qxxWriteEnableDma.w25qxxSendDataDma [Opcode.chipErase] []

/-- Both register writes are sent whatever the chip does with the second one:
the source keeps them for a chip that only takes the two-byte form. -/
def writeQualMask (reg : UInt8) (flash : Driver) : Driver :=
  (flash.w25qxxWriteStatusReg2Dma reg |>.w25qxxWriteStatusRegDma 0x00 reg).waitWhileBusy

def w25qxxEnableQuadModeDma (flash : Driver) : Driver :=
  let r := flash.w25qxxReadStatusReg2Dma
  let flash := if r.1 &&& reg2QualMask = 0 then r.2.writeQualMask (r.1 ||| reg2QualMask) else r.2
  { flash with programFun := .quadPageProgramDma, readFun := .quadReadDataDma }

def w25qxxDisableQuadModeDma (flash : Driver) : Driver :=
  let r := flash.w25qxxReadStatusReg2Dma
  let flash := if r.1 &&& reg2QualMask = 0 then r.2 else r.2.writeQualMask (r.1 &&& ~~~reg2QualMask)
  { flash with programFun := .pageProgramDma, readFun := .standReadDataDma }

def w25qxxPageProgramDma (addr : Nat) (data : List UInt8) (flash : Driver) : Driver :=
  (flash.w25qxxWriteEnableDma.w25qxxSendDataDma (Opcode.pageProgram :: addressBytes addr) data).waitWhileBusy

def w25qxxQuadPageProgramDma (addr : Nat) (data : List UInt8) (flash : Driver) : Driver :=
  (flash.w25qxxWriteEnableDma.exchange (.sendQuad Opcode.quadPageProgram addr 24 0 data)).2.waitWhileBusy

def w25qxxPageProgramFun (addr : Nat) (data : List UInt8) (flash : Driver) : Driver :=
  match flash.programFun with
  | .pageProgramDma => flash.w25qxxPageProgramDma addr data
  | .quadPageProgramDma => flash.w25qxxQuadPageProgramDma addr data

def sectorProgramPages : Nat → Nat → List UInt8 → Driver → Driver
  | 0, _, _, flash => flash
  | pages + 1, addr, data, flash =>
    sectorProgramPages pages ((addr + pageSize) % 2 ^ 32) (data.drop pageSize)
      (flash.w25qxxPageProgramFun addr (data.take pageSize))

def w25qxxSectorProgram (addr : Nat) (data : List UInt8) (flash : Driver) : Driver :=
  sectorProgramPages 16 addr data flash

/-- The read mode that each installed read function asks for. -/
def w25qxxReadChunk (mode : ReadFun) (addr len : Nat) (flash : Driver) : List UInt8 × Driver :=
  match mode with
  | .standReadDataDma => flash.w25qxxReceiveDataDma (Opcode.fastRead :: addressBytes addr ++ [0xFF]) len
  | .quadReadDataDma => flash.exchange (.receiveQuad Opcode.fastReadQualIo (addr * 256 % 2 ^ 32) 32 4 len)

def w25qxxReadDataDma (mode : ReadFun) (addr length : Nat) (flash : Driver) : List UInt8 × Driver :=
  if _some : length = 0 then ([], flash)
  else
    let len := if 0x010000 ≤ length then 0x010000 else length
    let chunk := flash.w25qxxReadChunk mode addr len
    let rest := w25qxxReadDataDma mode ((addr + len) % 2 ^ 32) (length - len) chunk.2
    (chunk.1 ++ rest.1, rest.2)
termination_by length
decreasing_by split <;> omega

def w25qxxReadFun (addr length : Nat) (flash : Driver) : List UInt8 × Driver :=
  flash.w25qxxReadDataDma flash.readFun addr length

/-- The comparison loop: does some written byte set a bit that the sector lost? -/
def needsErase : List UInt8 → List UInt8 → Bool
  | new :: news, old :: olds => if new != new &&& old then true else needsErase news olds
  | _, _ => false

/-- One pass of the write loop: the sector at `sectorAddr` is read, erased when
a written byte needs it, and programmed whole. -/
def writeSector (sectorAddr sectorOffset writeLen : Nat) (data : List UInt8) (flash : Driver) : Driver :=
  let read := flash.w25qxxReadFun sectorAddr sectorSize
  let flash :=
    if needsErase (data.take writeLen) (read.1.drop sectorOffset) then
      (read.2.w25qxxSectorEraseDma sectorAddr).waitWhileBusy
    else read.2
  if writeLen = sectorSize then flash.w25qxxSectorProgram sectorAddr data
  else flash.w25qxxSectorProgram sectorAddr (Nor.splice read.1 sectorOffset (data.take writeLen))

def writeLength (addr length : Nat) : Nat :=
  if length < sectorSize - addr % sectorSize then length else sectorSize - addr % sectorSize

theorem writeLength_pos (addr length : Nat) (some : length ≠ 0) : 0 < writeLength addr length := by
  have offset : addr % sectorSize < sectorSize := Nat.mod_lt _ (by decide)
  unfold writeLength
  split <;> omega

def w25qxxWriteDataDma (addr : Nat) (data : List UInt8) (flash : Driver) : FlashStatus × Driver :=
  if _some : data.length = 0 then (.ok, flash)
  else
    w25qxxWriteDataDma ((addr + writeLength addr data.length) % 2 ^ 32) (data.drop (writeLength addr data.length))
      (flash.writeSector (addr - addr % sectorSize) (addr % sectorSize) (writeLength addr data.length) data)
termination_by data.length
decreasing_by
  have progress := writeLength_pos addr data.length _some
  rw [List.length_drop]
  omega

/-- The first call initialises the driver over the bare chip; later calls only
read the chip's identity when the caller asks for it. -/
def halFlashInit (id : Bool) (start : Chip ⊕ Driver) : Driver :=
  let flash := match start with
    | .inl chip => w25qxxEnableQuadModeDma ⟨chip, .pageProgramDma, .standReadDataDma⟩
    | .inr flash => flash
  if id then flash.w25qxxReadIdDma.2 else flash

def halFlashSetStandardMode (flash : Driver) : Driver := flash.w25qxxDisableQuadModeDma

def halFlashSetQuadMode (flash : Driver) : Driver := flash.w25qxxEnableQuadModeDma

def halFlashReadData (addr length : Nat) (flash : Driver) : List UInt8 × Driver :=
  flash.w25qxxReadDataDma .quadReadDataDma addr length

def halFlashWriteData (addr : Nat) (data : List UInt8) (flash : Driver) : FlashStatus × Driver :=
  flash.w25qxxWriteDataDma addr data

inductive EraseFunc where
  | block64k
  | block32k
  | sector
  deriving DecidableEq, Repr

def EraseFunc.call : EraseFunc → Nat → Driver → Driver
  | .block64k, addr, flash => flash.w25qxx64kBlockEraseDma addr
  | .block32k, addr, flash => flash.w25qxx32kBlockEraseDma addr
  | .sector, addr, flash => flash.w25qxxSectorEraseDma addr

def eraseFuncTable : List (Nat × Option EraseFunc) :=
  [(64 * 1024, some .block64k), (32 * 1024, some .block32k), (4 * 1024, some .sector), (0, none)]

/-- The table loop leaves the last row it looked at in `fn` and `erase_unit`. -/
def selectErase (addr length : Nat) : List (Nat × Option EraseFunc) → Nat × Option EraseFunc → Nat × Option EraseFunc
  | [], seen => seen
  | row :: rows, _ =>
    if row.2.isSome ∧ addr % row.1 = 0 ∧ length % row.1 = 0 then row else selectErase addr length rows row

def eraseUnits (fn : EraseFunc) (unit : Nat) : Nat → Nat → Driver → Driver
  | 0, _, flash => flash
  | count + 1, addr, flash => eraseUnits fn unit count ((addr + unit) % 2 ^ 32) (fn.call addr flash)

def halFlashErase (addr length : Nat) (flash : Driver) : FlashStatus × Driver :=
  match selectErase addr length eraseFuncTable (0, none) with
  | (_, none) => (.error, flash)
  | (unit, some fn) =>
    if unit = 0 then (.error, flash)
    else (.ok, eraseUnits fn unit (length / unit) addr flash)

end Driver
end ArduinoK210.Flash
