import ArduinoK210.Sd.Bus
import Mathlib.Algebra.Group.Nat.Defs

/-! The SPI card driver: commands, the busy wait, and single and multiple block
transfers, with the FatFs read over them. Only the busy wait can fail to come back,
when neither the card nor the tick counter moves; `fuel` bounds its polls. -/

namespace ArduinoK210.Sd

inductive Result where
  | ok | error | noCard | timeout
  deriving DecidableEq

inductive CardType where
  | mmc | sdv1 | sdv2 | sdv2hc
  deriving DecidableEq

def blockSize : Nat := 512

def cmdWaitRespTimeout : Nat := 5000

def cmd12 : UInt8 := 12
def cmd17 : UInt8 := 17
def cmd18 : UInt8 := 18
def acmd23 : UInt8 := 23
def cmd24 : UInt8 := 24
def cmd25 : UInt8 := 25
def cmd55 : UInt8 := 55

/-- A bounded wait for a byte that meets `stop`. -/
def poll (line : Line) (stop : UInt8 → Bool) : Nat → Io (Option UInt8)
  | 0 => pure none
  | attempts + 1 => do
    let response ← wrRdByte line .response dummyByte
    if stop response then pure (some response) else poll line stop attempts

def packet (cmd : UInt8) (arg : UInt32) (crc : UInt8) : List UInt8 :=
  [cmd ||| 0x40, (arg >>> 24).toUInt8, (arg >>> 16).toUInt8, (arg >>> 8).toUInt8, arg.toUInt8, crc]

/-- The dummy byte, chip select and the packet that every command starts with. -/
def beginCommand (line : Line) (cmd : UInt8) (arg : UInt32) (crc : UInt8) : Io Unit := do
  let _ ← wrRdByte line .dummy dummyByte
  select
  write .packet (packet cmd arg crc)

def sendCommand (line : Line) (cmd : UInt8) (arg : UInt32) (crc : UInt8) : Io UInt8 := do
  beginCommand line cmd arg crc
  let response ← poll line (fun byte => byte != dummyByte) cmdWaitRespTimeout
  finish line
  pure (response.getD dummyByte)

/-- `data` is filled only when an answer comes. -/
def sendCommandRecvResponse (line : Line) (cmd : UInt8) (arg : UInt32) (crc : UInt8) (size : Nat) :
    Io (UInt8 × List UInt8) := do
  beginCommand line cmd arg crc
  let response ← poll line (fun byte => byte != dummyByte) cmdWaitRespTimeout
  match response with
  | some byte =>
    let data ← read line .data size
    finish line
    pure (byte, data)
  | none =>
    finish line
    pure (dummyByte, [])

/-- The wait of `_send_command_hold`, which leaves the card selected. -/
def holdResponse (line : Line) : Io UInt8 := do
  let response ← poll line (fun byte => byte &&& 0x80 == 0) cmdWaitRespTimeout
  pure (response.getD dummyByte)

def sendCommandHold (line : Line) (cmd : UInt8) (arg : UInt32) (crc : UInt8) : Io UInt8 := do
  beginCommand line cmd arg crc
  if cmd = cmd12 then do
    let _ ← wrRdByte line .response dummyByte
    holdResponse line
  else holdResponse line

def waitLoop (line : Line) (start : UInt32) : Nat → Io Result
  | 0 => .stuck
  | fuel + 1 => do
    let byte ← wrRdByte line .busy dummyByte
    if byte = dummyByte then pure .ok
    else do
      let now ← rtTickGet line
      if now - start < line.timeout then waitLoop line start fuel else pure .timeout

def waitReady (line : Line) (fuel : Nat) : Io Result := do
  let start ← rtTickGet line
  waitLoop line start fuel

def readFramed (line : Line) (limit len : Nat) : Io (Option (List UInt8)) := do
  let response ← poll line (fun byte => byte == 0xFE) limit
  match response with
  | none => pure none
  | some _ =>
    let data ← read line .data len
    let _ ← wrRdByte line .response dummyByte
    let _ ← wrRdByte line .response dummyByte
    pure (some data)

def readBuffer (line : Line) (len : Nat) : Io (Option (List UInt8)) := readFramed line cmdWaitRespTimeout len

def sectorAddress (type : CardType) (sector : UInt32) : UInt32 := if type = .sdv2hc then sector else sector <<< 9

def spisdReadBlock (line : Line) (type : CardType) (sector : UInt32) (buffer : Nat → UInt8) :
    Io (Result × (Nat → UInt8)) := do
  let response ← sendCommandHold line cmd17 (sectorAddress type sector) 1
  if response = 0 then do
    let data ← readBuffer line blockSize
    finish line
    match data with
    | some bytes => pure (.ok, Nor.put buffer 0 bytes)
    | none => pure (.error, buffer)
  else do
    finish line
    pure (.error, buffer)

/-- A start token, a block and its checksum, and the card's data response. -/
def sendBlock (line : Line) (token : UInt8) (bytes : List UInt8) : Io UInt8 := do
  let _ ← wrRdByte line .token token
  write .data bytes
  let _ ← wrRdByte line .crc dummyByte
  let _ ← wrRdByte line .crc dummyByte
  wrRdByte line .response dummyByte

/-- Chip select and the three dummy bytes before the first block. -/
def beginData (line : Line) : Io Unit := do
  select
  let _ ← wrRdByte line .dummy dummyByte
  let _ ← wrRdByte line .dummy dummyByte
  let _ ← wrRdByte line .dummy dummyByte
  pure ()

def spisdWriteBlock (line : Line) (fuel : Nat) (type : CardType) (sector : UInt32) (buffer : Nat → UInt8) : Io Result := do
  let response ← sendCommand line cmd24 (sectorAddress type sector) 1
  if response = 0 then do
    beginData line
    let accepted ← sendBlock line 0xFE (Nor.slice buffer 0 blockSize)
    if accepted &&& 0x1F = 5 then do
      let result ← waitReady line fuel
      finish line
      pure result
    else do
      finish line
      pure .error
  else pure .error

/-- A number of sectors whose buffer has an address range: the source computes the
offset of a block in 32 bits, and no buffer of the chip reaches 4 GiB. -/
structure SectorCount where
  value : Nat
  fits : value * blockSize ≤ 2 ^ 32

def blockOffset (index : Nat) : Nat := index * blockSize % 2 ^ 32

def spisdReadMultiBlockBegin (line : Line) (type : CardType) (sector : UInt32) : Io Result := do
  let response ← sendCommand line cmd18 (sectorAddress type sector) 1
  if response = 0 then pure .ok else pure .error

def readBlocks (line : Line) : Nat → Nat → (Nat → UInt8) → Io (Result × (Nat → UInt8))
  | _, 0, buffer => do
    finish line
    pure (.ok, buffer)
  | index, left + 1, buffer => do
    let data ← readBuffer line blockSize
    match data with
    | some bytes => readBlocks line (index + 1) left (Nor.put buffer (blockOffset index) bytes)
    | none =>
      finish line
      pure (.error, buffer)

def spisdReadMultiBlockRead (line : Line) (buffer : Nat → UInt8) (count : SectorCount) :
    Io (Result × (Nat → UInt8)) := do
  let _ ← wrRdByte line .dummy dummyByte
  select
  readBlocks line 0 count.value buffer

def stopTransmission (line : Line) (fuel : Nat) : Io Result := do
  let response ← sendCommandHold line cmd12 0 1
  if response = 0 then do
    let result ← waitReady line fuel
    finish line
    pure result
  else do
    finish line
    pure (if response = dummyByte then .timeout else .error)

def spisdReadMultiBlockEnd (line : Line) (fuel : Nat) : Io Result := stopTransmission line fuel

/-- The loop over the blocks; `none` when all were accepted, else what the call
returns after it has aborted the transfer. -/
def writeBlocks (line : Line) (fuel : Nat) (buffer : Nat → UInt8) : Nat → Nat → Io (Option Result)
  | _, 0 => pure none
  | index, left + 1 => do
    let response ← sendBlock line 0xFC (Nor.slice buffer (blockOffset index) blockSize)
    if response &&& 0x1F = 5 then do
      let result ← waitReady line fuel
      if result = .ok then writeBlocks line fuel buffer (index + 1) left
      else do
        let _ ← stopTransmission line fuel
        pure (some result)
    else do
      let _ ← waitReady line fuel
      let _ ← stopTransmission line fuel
      pure (some .error)

/-- ACMD23 announces the number of blocks to every card but an MMC. -/
def announceBlocks (line : Line) (type : CardType) (count : SectorCount) : Io Unit := do
  if type = .mmc then pure ()
  else do
    let _ ← sendCommand line cmd55 0 1
    let _ ← sendCommand line acmd23 (UInt32.ofNat count.value) 1
    pure ()

/-- The stop token, a dummy byte, and the wait for the card to finish. -/
def stopWrite (line : Line) (fuel : Nat) : Io Result := do
  let _ ← wrRdByte line .token 0xFD
  let _ ← wrRdByte line .dummy dummyByte
  let result ← waitReady line fuel
  finish line
  pure result

/-- What follows the loop over the blocks: an aborted transfer has nothing left to send. -/
def endWrite (line : Line) (fuel : Nat) (aborted : Option Result) : Io Result :=
  match aborted with
  | some result => pure result
  | none => stopWrite line fuel

def spisdWriteMultiBlock (line : Line) (fuel : Nat) (type : CardType) (sector : UInt32) (buffer : Nat → UInt8)
    (count : SectorCount) : Io Result := do
  announceBlocks line type count
  let response ← sendCommand line cmd25 (sectorAddress type sector) 1
  if response = 0 then do
    beginData line
    let aborted ← writeBlocks line fuel buffer 0 count.value
    endWrite line fuel aborted
  else pure .error

inductive DResult where
  | ok | error | notReady
  deriving DecidableEq

def cvtResult : Result → DResult
  | .ok => .ok
  | .noCard => .notReady
  | .error | .timeout => .error

/-- The sector number is an `LBA_t`; the driver takes its low 32 bits. -/
def diskRead (line : Line) (fuel : Nat) (type : CardType) (sector : UInt64) (buffer : Nat → UInt8)
    (count : SectorCount) : Io (DResult × (Nat → UInt8)) := do
  let started ← spisdReadMultiBlockBegin line type sector.toUInt32
  if started = .ok then do
    let result ← spisdReadMultiBlockRead line buffer count
    let stopped ← spisdReadMultiBlockEnd line fuel
    pure (cvtResult (if result.1 = .ok then stopped else result.1), result.2)
  else pure (cvtResult started, buffer)

end ArduinoK210.Sd
