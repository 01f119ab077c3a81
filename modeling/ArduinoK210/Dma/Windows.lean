import ArduinoK210.Flash.Driver

/-! The DMA channels of a flash window, and the flash operations as rows of windows. -/

namespace ArduinoK210.Dma
open Flash Driver

/-- The channels that the SPI driver programs for a window, in its order: the
receiving one first, and the sending one when there is a command to send. -/
def windowChannels : Frame → List Nat
  | .send _ | .sendQuad _ _ _ _ _ => [0]
  | .receive command _ => if command = [] then [1] else [1, 0]
  | .receiveQuad _ _ _ _ _ => [1, 0]

def exchanges (frames : List Frame) (flash : Driver) : Driver :=
  frames.foldl (fun flash frame => (flash.exchange frame).2) flash

/-- One driver state follows from another by windows that all program channel 0. -/
def Windows (flash after : Driver) : Prop :=
  ∃ frames, (∀ frame ∈ frames, 0 ∈ windowChannels frame) ∧ after = exchanges frames flash

private theorem Windows.refl (flash : Driver) : Windows flash flash := ⟨[], by simp, rfl⟩

private theorem Windows.trans {first second third : Driver} (one : Windows first second) (two : Windows second third) :
    Windows first third := by
  obtain ⟨frames, programmed, rfl⟩ := one
  obtain ⟨later, also, rfl⟩ := two
  refine ⟨frames ++ later, fun frame member => ?_, (List.foldl_append ..).symm⟩
  exact (List.mem_append.mp member).elim (programmed frame) (also frame)

private theorem Windows.exchange (flash : Driver) (frame : Frame) (programmed : 0 ∈ windowChannels frame) :
    Windows flash (flash.exchange frame).2 :=
  ⟨[frame], fun _ member => List.mem_singleton.mp member ▸ programmed, rfl⟩

private theorem Windows.send (flash : Driver) (cmd tx : List UInt8) : Windows flash (flash.w25qxxSendDataDma cmd tx) :=
  Windows.exchange flash _ (by simp [windowChannels])

private theorem Windows.receive (flash : Driver) (op : UInt8) (args : List UInt8) (count : Nat) :
    Windows flash (flash.w25qxxReceiveDataDma (op :: args) count).2 :=
  Windows.exchange flash _ (by simp [windowChannels])

private theorem Windows.waitWhileBusy (flash : Driver) : Windows flash flash.waitWhileBusy := by
  fun_induction Driver.waitWhileBusy flash with
  | case1 flash polled ih => exact (Windows.receive flash Opcode.readReg1 [] 1).trans ih
  | case2 flash idle => exact Windows.receive flash Opcode.readReg1 [] 1

private theorem Windows.eraseDma (flash : Driver) (opcode : UInt8) (addr : Nat) : Windows flash (flash.eraseDma opcode addr) :=
  (Windows.send flash _ _).trans (Windows.send _ _ _)

private theorem Windows.pageProgramFun (flash : Driver) (addr : Nat) (data : List UInt8) :
    Windows flash (flash.w25qxxPageProgramFun addr data) := by
  have enabled := Windows.send flash [Opcode.writeEnable] []
  unfold w25qxxPageProgramFun
  split
  next => exact enabled.trans ((Windows.send _ _ _).trans (Windows.waitWhileBusy _))
  next =>
    apply enabled.trans
    exact (Windows.exchange _ _ (by simp [windowChannels])).trans (Windows.waitWhileBusy _)

private theorem Windows.sectorProgramPages (pages addr : Nat) (data : List UInt8) (flash : Driver) :
    Windows flash (Driver.sectorProgramPages pages addr data flash) := by
  induction pages generalizing addr data flash with
  | zero => exact Windows.refl flash
  | succ pages ih => exact (Windows.pageProgramFun flash _ _).trans (ih _ _ _)

private theorem Windows.readDataDma (mode : ReadFun) (addr length : Nat) (flash : Driver) :
    Windows flash (flash.w25qxxReadDataDma mode addr length).2 := by
  fun_induction w25qxxReadDataDma mode addr length flash with
  | case1 addr flash => exact Windows.refl flash
  | case2 addr length flash some len chunk rest ih =>
    have first : Windows flash chunk.2 := by
      cases mode with
      | standReadDataDma => exact Windows.receive flash _ _ _
      | quadReadDataDma => exact Windows.exchange flash _ (by simp [windowChannels])
    exact first.trans ih

private theorem Windows.writeSector (sectorAddr sectorOffset writeLen : Nat) (data : List UInt8) (flash : Driver) :
    Windows flash (flash.writeSector sectorAddr sectorOffset writeLen data) := by
  have read := Windows.readDataDma flash.readFun sectorAddr sectorSize flash
  have erased : ∀ needed : Bool, Windows flash
      (if needed then ((flash.w25qxxReadFun sectorAddr sectorSize).2.w25qxxSectorEraseDma sectorAddr).waitWhileBusy
        else (flash.w25qxxReadFun sectorAddr sectorSize).2) := by
    intro needed
    cases needed with
    | false => exact read
    | true => exact read.trans ((Windows.eraseDma _ _ _).trans (Windows.waitWhileBusy _))
  simp only [Driver.writeSector]
  split
  next => exact (erased _).trans (Windows.sectorProgramPages 16 _ _ _)
  next => exact (erased _).trans (Windows.sectorProgramPages 16 _ _ _)

inductive FlashOp where
  | read (addr length : Nat)
  | write (addr : Nat) (data : List UInt8)
  | erase (addr length : Nat)

def FlashOp.perform : FlashOp → Driver → Driver
  | .read addr length, flash => (flash.halFlashReadData addr length).2
  | .write addr data, flash => (flash.halFlashWriteData addr data).2
  | .erase addr length, flash => (flash.halFlashErase addr length).2

private theorem Windows.writeDataDma (addr : Nat) (data : List UInt8) (flash : Driver) :
    Windows flash (flash.w25qxxWriteDataDma addr data).2 := by
  fun_induction w25qxxWriteDataDma addr data flash with
  | case1 addr data flash => exact Windows.refl flash
  | case2 addr data flash some ih => exact (Windows.writeSector _ _ _ _ flash).trans ih

private theorem Windows.eraseUnits (fn : EraseFunc) (unit count addr : Nat) (flash : Driver) :
    Windows flash (Driver.eraseUnits fn unit count addr flash) := by
  induction count generalizing addr flash with
  | zero => exact Windows.refl flash
  | succ count ih =>
    have first : Windows flash (fn.call addr flash) := by
      cases fn <;> exact Windows.eraseDma flash _ addr
    exact first.trans (ih _ _)

/-- Every operation on the flash is a row of windows that all program channel 0. -/
theorem FlashOp.windows (op : FlashOp) (flash : Driver) : Windows flash (op.perform flash) := by
  cases op with
  | read addr length => exact Windows.readDataDma _ addr length flash
  | write addr data => exact Windows.writeDataDma addr data flash
  | erase addr length =>
    simp only [FlashOp.perform, halFlashErase]
    split
    next => exact Windows.refl flash
    next unit fn found =>
      split
      next => exact Windows.refl flash
      next => exact Windows.eraseUnits fn unit _ addr flash

end ArduinoK210.Dma
