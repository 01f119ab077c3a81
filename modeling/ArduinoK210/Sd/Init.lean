import ArduinoK210.Lib.Run
import ArduinoK210.Sd.Driver

/-! The initialisation of the card and of the FatFs drive over it. The pin and clock
set-up of the interface and the decoding of the two registers are left out. -/

namespace ArduinoK210.Sd

def waitIdleTimeout : Nat := 50

def operationLimit : Nat := 0xFFF

def cmd0 : UInt8 := 0
def cmd1 : UInt8 := 1
def cmd8 : UInt8 := 8
def cmd9 : UInt8 := 9
def cmd10 : UInt8 := 10
def cmd16 : UInt8 := 16
def acmd41 : UInt8 := 41
def cmd58 : UInt8 := 58
def cmd59 : UInt8 := 59

def r1IdleFlag : UInt8 := 0x01

def r1IllegalCmdFlag : UInt8 := 0x04

def hardSpiIsPresent : Bool := true

def clockDummies (line : Line) : Nat → Io Unit
  | 0 => pure ()
  | count + 1 => do
    let _ ← wrRdByte line .dummy dummyByte
    clockDummies line count

/-- The reset loop; what it hands back is what is left of `timeout`. -/
def resetLoop (line : Line) : Nat → Io Nat
  | 0 => pure 0
  | timeout + 1 => do
    let response ← sendCommand line cmd0 0 0x95
    if response ≠ r1IdleFlag ∧ 0 < timeout then resetLoop line timeout else pure timeout

/-- The loop over CMD55 and ACMD41; `none` when a CMD55 is not answered 0x01. -/
def operationLoop (line : Line) (arg : UInt32) : Nat → UInt8 → Io (Option UInt8)
  | 0, response => pure (some response)
  | left + 1, _ => do
    let response ← sendCommand line cmd55 0 1
    if response ≠ 0x01 then pure none
    else do
      let response ← sendCommand line acmd41 arg 1
      if response = 0 then pure (some response) else operationLoop line arg left response

/-- The loop over CMD1. -/
def mmcLoop (line : Line) : Nat → UInt8 → Io UInt8
  | 0, response => pure response
  | left + 1, _ => do
    let response ← sendCommand line cmd1 0 1
    if response = 0 then pure response else mmcLoop line left response

/-- CMD8 was answered with the right echo. -/
def initV2 (line : Line) (type : CardType) (response : UInt8) : Io (Result × CardType) := do
  let operation ← operationLoop line 0x40000000 operationLimit response
  match operation with
  | none => pure (.timeout, type)
  | some response =>
    if response ≠ 0 then pure (.timeout, type)
    else do
      let ocr ← sendCommandRecvResponse line cmd58 0 1 4
      if ocr.1 ≠ 0 then pure (.timeout, type)
      else pure (.ok, if ocr.2.getD 0 0 &&& 0x40 ≠ 0 then .sdv2hc else .sdv2)

def endLegacy (line : Line) (type : CardType) : Io (Result × CardType) := do
  let response ← sendCommand line cmd59 0 1
  if response ≠ 0 then pure (.timeout, type)
  else do
    let response ← sendCommand line cmd16 512 1
    if response ≠ 0 then pure (.timeout, type) else pure (.ok, type)

/-- CMD8 was illegal. -/
def initLegacy (line : Line) (response : UInt8) : Io (Result × CardType) := do
  finish line
  let operation ← operationLoop line 0 operationLimit response
  match operation with
  | none => pure (.timeout, .sdv1)
  | some response =>
    if response ≠ 0 then do
      let response ← mmcLoop line operationLimit response
      if response ≠ 0 then pure (.timeout, .sdv1) else endLegacy line .mmc
    else endLegacy line .sdv1

/-- From CMD8 on. A wrong echo falls through to the end of the function. -/
def negotiate (line : Line) (type : CardType) : Io (Result × CardType) := do
  let echo ← sendCommandRecvResponse line cmd8 0x1AA 0x87 4
  if echo.1 = r1IdleFlag then
    if echo.2.getD 2 0 = 0x01 ∧ echo.2.getD 3 0 = 0xAA then initV2 line type echo.1 else pure (.ok, type)
  else if echo.1 &&& r1IllegalCmdFlag ≠ 0 then initLegacy line echo.1
  else pure (.error, type)

/-- The result, and `_card_type` after the call. -/
def spisdInit (line : Line) (type : CardType) : Io (Result × CardType) := do
  if hardSpiIsPresent = false then pure (.noCard, type)
  else do
    relese
    clockDummies line 20
    let timeout ← resetLoop line waitIdleTimeout
    if timeout = 0 then pure (.timeout, type) else negotiate line type

/-- What the drive keeps of the card: the type and the raw registers. -/
structure CardInfo where
  cardType : CardType
  csd : List UInt8
  cid : List UInt8

/-- A register has 16 bytes, and its start token twice the time of a block's. -/
def readRegister (line : Line) : Io (Option (List UInt8)) := readFramed line (cmdWaitRespTimeout * 2) 16

def readBytes (line : Line) : Nat → Io Unit
  | 0 => pure ()
  | count + 1 => do
    let _ ← wrRdByte line .response dummyByte
    readBytes line count

/-- The second half of `spisd_get_card_info`: CMD10 and the CID. -/
def readCid (line : Line) (info : CardInfo) : Io (UInt8 × CardInfo) := do
  let _ ← wrRdByte line .dummy dummyByte
  let response ← sendCommandHold line cmd10 0 1
  if response ≠ 0 then do
    finish line
    pure (response, info)
  else do
    let register ← readRegister line
    finish line
    match register with
    | none => pure (2, info)
    | some cid => pure (0, { info with cid })

def spisdGetCardInfo (line : Line) (type : CardType) (info : CardInfo) : Io (UInt8 × CardInfo) := do
  let _ ← wrRdByte line .dummy dummyByte
  let response ← sendCommandHold line cmd9 0 0xFF
  if response ≠ 0 then do
    finish line
    pure (response, info)
  else do
    let register ← readRegister line
    finish line
    match register with
    | none =>
      select
      readBytes line 8
      finish line
      pure (1, info)
    | some csd => readCid line { info with cardType := type, csd }

def Result.code : Result → Nat
  | .ok => 0
  | .error => 1
  | .noCard => 2
  | .timeout => 3

def staNoinit : UInt8 := 0x01
def staNodisk : UInt8 := 0x02
def staProtect : UInt8 := 0x04

/-- `_dev_sts`, `_card_type` and `_sd_info` of the one drive. -/
structure Drive where
  devSts : UInt8
  cardType : CardType
  info : CardInfo

def Drive.boot : Drive := ⟨0, .mmc, ⟨.mmc, [], []⟩⟩

def diskStatus (drive : Drive) : UInt8 := if drive.devSts = 0 then staNoinit else 0

/-- The two results are added before they are told apart. -/
def classify (drive : Drive) (init : Result × CardType) (card : UInt8 × CardInfo) : UInt8 × Drive :=
  let result := init.1.code + card.1.toNat
  if result = Result.code .ok then (0, ⟨1, init.2, card.2⟩)
  else if result = Result.code .noCard then (staNodisk, ⟨drive.devSts, init.2, card.2⟩)
  else (staProtect, ⟨drive.devSts, init.2, card.2⟩)

def diskInitialize (line : Line) (drive : Drive) : Io (UInt8 × Drive) := do
  if drive.devSts = 0 then do
    let init ← spisdInit line drive.cardType
    let card ← spisdGetCardInfo line init.2 drive.info
    pure (classify drive init card)
  else pure (0, drive)

end ArduinoK210.Sd
