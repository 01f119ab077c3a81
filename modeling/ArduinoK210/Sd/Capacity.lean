import ArduinoK210.Sd.Init
import Mathlib.Data.Nat.Digits.Defs
import Mathlib.Tactic.IntervalCases

/-! The size of the card: what `spisd_get_card_info` makes of the CSD register, and the number of sectors that FatFs is told. -/

namespace ArduinoK210.Sd

structure SpisdCsd where
  csdStruct : UInt8
  sysSpecVersion : UInt8
  reserved1 : UInt8
  taac : UInt8
  nsac : UInt8
  maxBusClkFrec : UInt8
  cardComdClasses : UInt16
  rdBlockLen : UInt8
  partBlockRead : UInt8
  wrBlockMisalign : UInt8
  rdBlockMisalign : UInt8
  dsrImpl : UInt8
  reserved2 : UInt8
  deviceSize : UInt32
  maxRdCurrentVddMin : UInt8
  maxRdCurrentVddMax : UInt8
  maxWrCurrentVddMin : UInt8
  maxWrCurrentVddMax : UInt8
  deviceSizeMul : UInt8
  eraseGrSize : UInt8
  eraseGrMul : UInt8
  wrProtectGrSize : UInt8
  wrProtectGrEnable : UInt8
  manDeflEcc : UInt8
  wrSpeedFact : UInt8
  maxWrBlockLen : UInt8
  writeBlockPaPartial : UInt8
  reserved3 : UInt8
  contentProtectAppli : UInt8
  fileFormatGrouop : UInt8
  copyFlag : UInt8
  permWrProtect : UInt8
  tempWrProtect : UInt8
  fileFormat : UInt8
  ecc : UInt8
  csdCrc : UInt8
  reserved4 : UInt8

/-- The decoding of the 16 bytes that is the same for every structure version. -/
def decodeCsd (temp : Nat → UInt8) : SpisdCsd where
  csdStruct := (temp 0 &&& 0xC0) >>> 6
  sysSpecVersion := (temp 0 &&& 0x3C) >>> 2
  reserved1 := temp 0 &&& 0x03
  taac := temp 1
  nsac := temp 2
  maxBusClkFrec := temp 3
  cardComdClasses := (temp 4).toUInt16 <<< 4 ||| ((temp 5 &&& 0xF0) >>> 4).toUInt16
  rdBlockLen := temp 5 &&& 0x0F
  partBlockRead := (temp 6 &&& 0x80) >>> 7
  wrBlockMisalign := (temp 6 &&& 0x40) >>> 6
  rdBlockMisalign := (temp 6 &&& 0x20) >>> 5
  dsrImpl := (temp 6 &&& 0x10) >>> 4
  reserved2 := 0
  deviceSize := (temp 6 &&& 0x03).toUInt32 <<< 10 ||| (temp 7).toUInt32 <<< 2 ||| ((temp 8 &&& 0xC0) >>> 6).toUInt32
  maxRdCurrentVddMin := (temp 8 &&& 0x38) >>> 3
  maxRdCurrentVddMax := temp 8 &&& 0x07
  maxWrCurrentVddMin := (temp 9 &&& 0xE0) >>> 5
  maxWrCurrentVddMax := (temp 9 &&& 0x1C) >>> 2
  deviceSizeMul := (temp 9 &&& 0x03) <<< 1 ||| (temp 10 &&& 0x80) >>> 7
  eraseGrSize := (temp 10 &&& 0x7C) >>> 2
  eraseGrMul := (temp 10 &&& 0x03) <<< 3 ||| (temp 11 &&& 0xE0) >>> 5
  wrProtectGrSize := temp 11 &&& 0x1F
  wrProtectGrEnable := (temp 12 &&& 0x80) >>> 7
  manDeflEcc := (temp 12 &&& 0x60) >>> 5
  wrSpeedFact := (temp 12 &&& 0x1C) >>> 2
  maxWrBlockLen := (temp 12 &&& 0x03) <<< 2 ||| (temp 13 &&& 0xC0) >>> 6
  writeBlockPaPartial := (temp 13 &&& 0x20) >>> 5
  reserved3 := 0
  contentProtectAppli := temp 13 &&& 0x01
  fileFormatGrouop := (temp 14 &&& 0x80) >>> 7
  copyFlag := (temp 14 &&& 0x40) >>> 6
  permWrProtect := (temp 14 &&& 0x20) >>> 5
  tempWrProtect := (temp 14 &&& 0x10) >>> 4
  fileFormat := (temp 14 &&& 0x0C) >>> 2
  ecc := temp 14 &&& 0x03
  csdCrc := (temp 15 &&& 0xFE) >>> 1
  reserved4 := 1

structure SpisdInfo where
  csd : SpisdCsd
  capacity : UInt64
  blockSize : UInt32

/-- The device size of the second structure version. -/
def deviceSize2 (temp : Nat → UInt8) : UInt32 :=
  (temp 7 &&& 63).toUInt32 <<< 16 + (temp 8).toUInt32 <<< 8 + (temp 9).toUInt32

/-- The product of the first version is shifted in 32 bits. -/
def spisdInfo (temp : Nat → UInt8) : SpisdInfo :=
  let csd := decodeCsd temp
  let blockSize := (1 : UInt32) <<< csd.rdBlockLen.toUInt32
  if csd.csdStruct = 0 then
    let shift := csd.deviceSizeMul.toUInt32 + csd.rdBlockLen.toUInt32 + 2
    { csd, blockSize, capacity := ((csd.deviceSize + 1) <<< shift).toUInt64 }
  else
    let csd := { csd with deviceSize := deviceSize2 temp }
    { csd, blockSize, capacity := (csd.deviceSize + 1).toUInt64 * blockSize.toUInt64 * 1024 }

def CardInfo.decoded (info : CardInfo) : SpisdInfo := spisdInfo fun index => info.csd.getD index 0

def ctrlSync : UInt8 := 0
def getSectorCount : UInt8 := 1
def getBlockSize : UInt8 := 3

/-- What a store of `bits` bits leaves in the caller's `LBA_t`. -/
def storeLow (bits value : Nat) (buff : UInt64) : UInt64 := UInt64.ofNat (buff.toNat / 2 ^ bits * 2 ^ bits + value % 2 ^ bits)

/-- `buff` is the caller's `LBA_t` that the answer is stored in, as a `DWORD` or a `WORD`. -/
def diskIoctl (drive : Drive) (cmd : UInt8) (buff : UInt64) : DResult × UInt64 :=
  if drive.devSts = 0 then (.error, buff)
  else if cmd = ctrlSync then (.ok, buff)
  else if cmd = getSectorCount then
    let info := drive.info.decoded
    (.ok, storeLow 32 (info.capacity / info.blockSize.toUInt64).toNat buff)
  else if cmd = getBlockSize then (.ok, storeLow 16 drive.info.decoded.blockSize.toNat buff)
  else (.error, buff)

def register (csd : List UInt8) : Nat := Nat.ofDigits 256 (csd.reverse.map UInt8.toNat)

/-- The bits from `high` down to `low` of the register. -/
def registerBits (csd : List UInt8) (high low : Nat) : Nat := register csd / 2 ^ low % 2 ^ (high + 1 - low)

def specifiedCapacity (csd : List UInt8) : Nat :=
  if registerBits csd 127 126 = 0 then
    (registerBits csd 73 62 + 1) * 2 ^ (registerBits csd 49 47 + 2) * 2 ^ registerBits csd 83 80
  else (registerBits csd 69 48 + 1) * 512 * 1024

/-- The capacity is exact, and FatFs is told the number of blocks that the driver moves. -/
def SizeExact (drive : Drive) (buff : UInt64) : Prop :=
  drive.info.decoded.capacity.toNat = specifiedCapacity drive.info.csd ∧
    (diskIoctl drive getSectorCount buff).1 = .ok ∧
    (diskIoctl drive getSectorCount buff).2.toNat = specifiedCapacity drive.info.csd / blockSize

private theorem or_toNat {high : UInt32} (low : UInt32) {bits multiple : Nat} (above : high.toNat = 2 ^ bits * multiple) (below : low.toNat < 2 ^ bits) :
    (high ||| low).toNat = high.toNat + low.toNat := by
  rw [UInt32.toNat_or, above, Nat.two_pow_add_eq_or_of_lt below]

private theorem top_bits (byte : UInt8) : ((byte &&& 0xC0) >>> 6).toNat = byte.toNat / 64 := by
  have all : ∀ bits : BitVec 8, ((bits &&& 0xC0) >>> 6).toNat = bits.toNat / 64 := by decide
  exact all byte.toBitVec

private theorem top_bit (byte : UInt8) : ((byte &&& 0x80) >>> 7).toNat = byte.toNat / 128 := by
  have all : ∀ bits : BitVec 8, ((bits &&& 0x80) >>> 7).toNat = bits.toNat / 128 := by decide
  exact all byte.toBitVec

private theorem low_bits (byte : UInt8) (bits : Nat) (mask : UInt8) (same : mask.toNat = 2 ^ bits - 1) :
    (byte &&& mask).toNat = byte.toNat % 2 ^ bits := by
  rw [UInt8.toNat_and, same, Nat.and_two_pow_sub_one_eq_mod]

private theorem shifted (byte : UInt8) {bits : Nat} (few : bits ≤ 16) :
    (byte.toUInt32 <<< UInt32.ofNat bits).toNat = byte.toNat * 2 ^ bits := by
  have small := byte.toNat_lt
  have power : 2 ^ bits ≤ 2 ^ 16 := Nat.pow_le_pow_right (by decide) few
  have amount : (UInt32.ofNat bits).toNat = bits := UInt32.toNat_ofNat_of_lt (Nat.lt_of_le_of_lt few (by decide))
  have fits : byte.toNat * 2 ^ bits < 2 ^ 32 :=
    calc byte.toNat * 2 ^ bits ≤ 255 * 2 ^ 16 := Nat.mul_le_mul (by omega) power
      _ < 2 ^ 32 := by decide
  rw [UInt32.toNat_shiftLeft, amount, Nat.mod_eq_of_lt (by omega : bits < 32), UInt8.toNat_toUInt32, Nat.shiftLeft_eq]
  exact Nat.mod_eq_of_lt fits

section Fields
variable (temp : Nat → UInt8)

private theorem csdStruct_toNat : (decodeCsd temp).csdStruct.toNat = (temp 0).toNat / 64 := top_bits (temp 0)

private theorem rdBlockLen_toNat : (decodeCsd temp).rdBlockLen.toNat = (temp 5).toNat % 16 := low_bits (temp 5) 4 0x0F rfl

private theorem deviceSizeMul_toNat : (decodeCsd temp).deviceSizeMul.toNat = (temp 9).toNat % 4 * 2 + (temp 10).toNat / 128 := by
  have all : ∀ low : BitVec 8, ((low &&& 3) <<< 1).toNat = 2 ^ 1 * (low.toNat % 4) := by decide
  have high : ((temp 9 &&& 0x03) <<< 1).toNat = 2 ^ 1 * ((temp 9).toNat % 4) := all (temp 9).toBitVec
  have small := (temp 10).toNat_lt
  show ((temp 9 &&& 0x03) <<< 1 ||| (temp 10 &&& 0x80) >>> 7).toNat = _
  rw [UInt8.toNat_or, top_bit, high, ← Nat.two_pow_add_eq_or_of_lt (by omega)]
  omega

private theorem deviceSize_toNat :
    (decodeCsd temp).deviceSize.toNat = (temp 6).toNat % 4 * 1024 + (temp 7).toNat * 4 + (temp 8).toNat / 64 := by
  have byte6 : ((temp 6 &&& 0x03).toUInt32 <<< 10).toNat = 2 ^ 10 * ((temp 6).toNat % 4) := by
    rw [Nat.mul_comm]
    exact (shifted _ (by decide)).trans (congrArg (· * 1024) (low_bits (temp 6) 2 0x03 rfl))
  have byte7 : ((temp 7).toUInt32 <<< 2).toNat = (temp 7).toNat * 4 := shifted (temp 7) (by decide)
  have byte8 : ((temp 8 &&& 0xC0) >>> 6).toUInt32.toNat = (temp 8).toNat / 64 := top_bits (temp 8)
  have small7 := (temp 7).toNat_lt
  have small8 := (temp 8).toNat_lt
  have first := or_toNat ((temp 7).toUInt32 <<< 2) byte6 (by omega)
  have upper : ((temp 6 &&& 0x03).toUInt32 <<< 10 ||| (temp 7).toUInt32 <<< 2).toNat =
      2 ^ 2 * ((temp 6).toNat % 4 * 256 + (temp 7).toNat) := by
    rw [first, byte6, byte7]
    omega
  have joined := or_toNat ((temp 8 &&& 0xC0) >>> 6).toUInt32 upper (by omega)
  refine joined.trans ?_
  rw [first, byte6, byte7, byte8]
  omega

private theorem deviceSize2_toNat :
    (deviceSize2 temp).toNat = (temp 7).toNat % 64 * 65536 + (temp 8).toNat * 256 + (temp 9).toNat := by
  have byte7 : ((temp 7 &&& 63).toUInt32 <<< 16).toNat = (temp 7).toNat % 64 * 65536 :=
    (shifted _ (by decide)).trans (congrArg (· * 65536) (low_bits (temp 7) 6 63 rfl))
  have byte8 : ((temp 8).toUInt32 <<< 8).toNat = (temp 8).toNat * 256 := shifted (temp 8) (by decide)
  have small8 := (temp 8).toNat_lt
  have small9 := (temp 9).toNat_lt
  rw [deviceSize2, UInt32.toNat_add, UInt32.toNat_add, byte7, byte8, UInt8.toNat_toUInt32]
  omega

private theorem capacity_first (version : (decodeCsd temp).csdStruct = 0) :
    (spisdInfo temp).capacity.toNat = ((decodeCsd temp).deviceSize.toNat + 1) *
      2 ^ ((decodeCsd temp).deviceSizeMul.toNat + (decodeCsd temp).rdBlockLen.toNat + 2) % 2 ^ 32 := by
  have len := rdBlockLen_toNat temp
  have mul := deviceSizeMul_toNat temp
  have size := deviceSize_toNat temp
  have small7 := (temp 7).toNat_lt
  have small8 := (temp 8).toNat_lt
  have small10 := (temp 10).toNat_lt
  have next : ((decodeCsd temp).deviceSize + 1).toNat = (decodeCsd temp).deviceSize.toNat + 1 := by
    rw [UInt32.toNat_add]
    apply Nat.mod_eq_of_lt
    show (decodeCsd temp).deviceSize.toNat + 1 < 2 ^ 32
    omega
  have shift : ((decodeCsd temp).deviceSizeMul.toUInt32 + (decodeCsd temp).rdBlockLen.toUInt32 + 2).toNat % 32 =
      (decodeCsd temp).deviceSizeMul.toNat + (decodeCsd temp).rdBlockLen.toNat + 2 := by
    rw [UInt32.toNat_add, UInt32.toNat_add, UInt8.toNat_toUInt32, UInt8.toNat_toUInt32]
    show ((_ + _) % 2 ^ 32 + 2) % 2 ^ 32 % 32 = _
    omega
  rw [spisdInfo]
  dsimp only
  rw [if_pos version]
  show (((decodeCsd temp).deviceSize + 1) <<< _).toNat = _
  rw [UInt32.toNat_shiftLeft, shift, next, Nat.shiftLeft_eq]

private theorem blockSize_toNat : (spisdInfo temp).blockSize.toNat = 2 ^ (decodeCsd temp).rdBlockLen.toNat := by
  have len := rdBlockLen_toNat temp
  have small : (decodeCsd temp).rdBlockLen.toNat < 16 := by omega
  have power : 2 ^ (decodeCsd temp).rdBlockLen.toNat < 2 ^ 16 := Nat.pow_lt_pow_right (by decide) small
  have shifted : ((1 : UInt32) <<< (decodeCsd temp).rdBlockLen.toUInt32).toNat = 2 ^ (decodeCsd temp).rdBlockLen.toNat := by
    rw [UInt32.toNat_shiftLeft, UInt8.toNat_toUInt32, Nat.mod_eq_of_lt (by omega : (decodeCsd temp).rdBlockLen.toNat < 32),
      Nat.shiftLeft_eq]
    show 1 * _ % 2 ^ 32 = _
    omega
  unfold spisdInfo
  dsimp only
  split <;> exact shifted

private theorem capacity_second (version : (decodeCsd temp).csdStruct ≠ 0) :
    (spisdInfo temp).capacity.toNat = ((deviceSize2 temp).toNat + 1) * 2 ^ (decodeCsd temp).rdBlockLen.toNat * 1024 := by
  have len := rdBlockLen_toNat temp
  have size := deviceSize2_toNat temp
  have small8 := (temp 8).toNat_lt
  have small9 := (temp 9).toNat_lt
  have block := blockSize_toNat temp
  have next : (deviceSize2 temp + 1).toUInt64.toNat = (deviceSize2 temp).toNat + 1 := by
    rw [UInt32.toNat_toUInt64, UInt32.toNat_add]
    apply Nat.mod_eq_of_lt
    show (deviceSize2 temp).toNat + 1 < 2 ^ 32
    omega
  have power : 2 ^ (decodeCsd temp).rdBlockLen.toNat < 2 ^ 16 := Nat.pow_lt_pow_right (by decide) (by omega)
  have fits : ((deviceSize2 temp).toNat + 1) * 2 ^ (decodeCsd temp).rdBlockLen.toNat < 2 ^ 23 * 2 ^ 16 :=
    Nat.mul_lt_mul_of_lt_of_lt (by omega) power
  unfold spisdInfo at block ⊢
  dsimp only at block ⊢
  rw [if_neg version] at block ⊢
  dsimp only at block ⊢
  rw [UInt64.toNat_mul, UInt64.toNat_mul, next, UInt32.toNat_toUInt64, block]
  show _ % 2 ^ 64 * 1024 % 2 ^ 64 = _
  omega

end Fields

section Positions
variable {csd : List UInt8}

theorem registerBits_bytes (sixteen : csd.length = 16) :
    registerBits csd 127 126 = (csd.getD 0 0).toNat / 64 ∧ registerBits csd 83 80 = (csd.getD 5 0).toNat % 16 ∧
    registerBits csd 73 62 = (csd.getD 6 0).toNat % 4 * 1024 + (csd.getD 7 0).toNat * 4 + (csd.getD 8 0).toNat / 64 ∧
    registerBits csd 49 47 = (csd.getD 9 0).toNat % 4 * 2 + (csd.getD 10 0).toNat / 128 ∧
    registerBits csd 69 48 = (csd.getD 7 0).toNat % 64 * 65536 + (csd.getD 8 0).toNat * 256 + (csd.getD 9 0).toNat := by
  match csd, sixteen with
  | [b0, b1, b2, b3, b4, b5, b6, b7, b8, b9, b10, b11, b12, b13, b14, b15], _ =>
    have small : ∀ byte : UInt8, byte.toNat < 256 := UInt8.toNat_lt
    have s0 := small b0
    have s1 := small b1
    have s2 := small b2
    have s3 := small b3
    have s4 := small b4
    have s5 := small b5
    have s6 := small b6
    have s7 := small b7
    have s8 := small b8
    have s9 := small b9
    have s10 := small b10
    have s11 := small b11
    have s12 := small b12
    have s13 := small b13
    have s14 := small b14
    have s15 := small b15
    simp only [registerBits, register, List.reverse_cons, List.reverse_nil, List.nil_append, List.cons_append, List.map_cons,
      List.map_nil, Nat.ofDigits_cons, Nat.ofDigits_nil, List.getD_cons_zero, List.getD_cons_succ]
    refine ⟨?_, ?_, ?_, ?_, ?_⟩ <;> omega

end Positions

private theorem storeLow_toNat (value : Nat) (buff : UInt64) :
    (storeLow 32 value buff).toNat = buff.toNat / 2 ^ 32 * 2 ^ 32 + value % 2 ^ 32 := by
  have small := buff.toNat_lt
  apply UInt64.toNat_ofNat_of_lt
  show _ < 2 ^ 64
  omega

/-- With `total` blocks of `2 ^ len` bytes the number of sectors is right for one length only. -/
theorem first_exact {total len high : Nat} (positive : 0 < total) (few : total ≤ 2 ^ 21) :
    (total * 2 ^ len % 2 ^ 32 = total * 2 ^ len ∧ high * 2 ^ 32 + total * 2 ^ len % 2 ^ 32 / 2 ^ len % 2 ^ 32 = total * 2 ^ len / 512) ↔
    (len = 9 ∧ high = total * 2 ^ len / 512 / 2 ^ 32) := by
  have blocks : total * 2 ^ len / 2 ^ len = total := Nat.mul_div_cancel total (Nat.two_pow_pos len)
  constructor
  · rintro ⟨exact_size, count⟩
    have fits := Nat.mod_lt (total * 2 ^ len) (Nat.two_pow_pos 32)
    rw [exact_size] at count fits
    rw [blocks] at count
    rcases Nat.lt_trichotomy len 9 with short | rfl | long
    · have power : 2 ^ len ≤ 256 := Nat.pow_le_pow_right (by decide) (by omega : len ≤ 8)
      have less : total * 2 ^ len ≤ total * 256 := Nat.mul_le_mul_left total power
      omega
    · exact ⟨rfl, by omega⟩
    · have power : 1024 ≤ 2 ^ len := Nat.pow_le_pow_right Nat.two_pos (by omega : 10 ≤ len)
      have more : total * 1024 ≤ total * 2 ^ len := Nat.mul_le_mul_left total power
      omega
  · rintro ⟨rfl, same⟩
    have exact_size : total * 2 ^ 9 % 2 ^ 32 = total * 2 ^ 9 := Nat.mod_eq_of_lt (by omega)
    rw [exact_size, blocks]
    exact ⟨rfl, by omega⟩

private theorem second_exact {count len high : Nat} (positive : 0 < count) :
    (count * 2 ^ len * 1024 = count * 512 * 1024 ∧
      high * 2 ^ 32 + count * 2 ^ len * 1024 / 2 ^ len % 2 ^ 32 = count * 512 * 1024 / 512) ↔
    (len = 9 ∧ high = count * 512 * 1024 / 512 / 2 ^ 32) := by
  have blocks : count * 2 ^ len * 1024 / 2 ^ len = count * 1024 := by
    rw [Nat.mul_right_comm]
    exact Nat.mul_div_cancel _ (Nat.two_pow_pos len)
  constructor
  · rintro ⟨exact_size, sectors⟩
    have power : 2 ^ len = 2 ^ 9 := Nat.eq_of_mul_eq_mul_left positive (Nat.eq_of_mul_eq_mul_right (Nat.succ_pos 1023) exact_size)
    rw [blocks] at sectors
    exact ⟨Nat.pow_right_injective (Nat.le_refl 2) power, by omega⟩
  · rintro ⟨rfl, same⟩
    rw [blocks]
    exact ⟨rfl, by omega⟩

/-- The size is exact exactly when the card's block length is the driver's, and what the caller's variable holds above the stored
word is what belongs there. -/
theorem sizeExact_iff (drive : Drive) (buff : UInt64) (initialised : drive.devSts ≠ 0) (sixteen : drive.info.csd.length = 16) :
    SizeExact drive buff ↔ registerBits drive.info.csd 83 80 = 9 ∧
      buff.toNat / 2 ^ 32 = specifiedCapacity drive.info.csd / blockSize / 2 ^ 32 := by
  obtain ⟨version, len, size1, mul, size2⟩ := registerBits_bytes sixteen
  have small := fun index => (drive.info.csd.getD index 0).toNat_lt
  have small7 := small 7
  have small8 := small 8
  have small9 := small 9
  have small10 := small 10
  have ioctl : diskIoctl drive getSectorCount buff =
      (.ok, storeLow 32 (drive.info.decoded.capacity / drive.info.decoded.blockSize.toUInt64).toNat buff) := by
    rw [diskIoctl, if_neg initialised]
    rfl
  have block : drive.info.decoded.blockSize.toUInt64.toNat = 2 ^ registerBits drive.info.csd 83 80 := by
    rw [UInt32.toNat_toUInt64, len]
    exact (blockSize_toNat _).trans (congrArg (2 ^ ·) (rdBlockLen_toNat _))
  rw [SizeExact, ioctl, storeLow_toNat, UInt64.toNat_div, block, specifiedCapacity]
  by_cases first : (decodeCsd fun index => drive.info.csd.getD index 0).csdStruct = 0
  · have zero : registerBits drive.info.csd 127 126 = 0 := by
      rw [version]
      exact (csdStruct_toNat _).symm.trans (congrArg UInt8.toNat first)
    have capacity := capacity_first _ first
    rw [deviceSize_toNat, deviceSizeMul_toNat, rdBlockLen_toNat, ← size1, ← mul, ← len] at capacity
    have product : ∀ count : Nat, count * 2 ^ (registerBits drive.info.csd 49 47 + registerBits drive.info.csd 83 80 + 2) =
        count * 2 ^ (registerBits drive.info.csd 49 47 + 2) * 2 ^ registerBits drive.info.csd 83 80 := by
      intro count
      rw [Nat.add_right_comm, Nat.pow_add, Nat.mul_assoc]
    rw [product] at capacity
    rw [CardInfo.decoded, capacity, if_pos zero]
    simp only [true_and]
    apply first_exact
    · exact Nat.mul_pos (Nat.succ_pos _) (Nat.two_pow_pos _)
    · have power : 2 ^ (registerBits drive.info.csd 49 47 + 2) ≤ 2 ^ 9 := Nat.pow_le_pow_right (by decide) (by omega)
      have bound : (registerBits drive.info.csd 73 62 + 1) * 2 ^ (registerBits drive.info.csd 49 47 + 2) ≤ 2 ^ 12 * 2 ^ 9 :=
        Nat.mul_le_mul (by omega) power
      exact bound
  · have later : registerBits drive.info.csd 127 126 ≠ 0 := by
      rw [version]
      intro zero
      exact first (UInt8.toNat_inj.mp ((csdStruct_toNat _).trans zero))
    have capacity := capacity_second _ first
    rw [deviceSize2_toNat, rdBlockLen_toNat, ← size2, ← len] at capacity
    rw [CardInfo.decoded, capacity, if_neg later]
    simp only [true_and]
    exact second_exact (Nat.succ_pos _)

/-- A card of 8 GB whose block length is the driver's. -/
theorem sizeExact_usual :
    let drive : Drive := ⟨1, .sdv2hc, ⟨.sdv2hc, [0x40, 0x0E, 0, 0x32, 0x5B, 0x59, 0, 0, 0x3B, 0x37, 0x7F, 0x80, 0x0A, 0x40, 0, 1], []⟩⟩
    drive.devSts ≠ 0 ∧ drive.info.csd.length = 16 ∧ SizeExact drive 0 := by
  refine ⟨by decide, rfl, ?_⟩
  exact (sizeExact_iff _ 0 (by decide) rfl).mpr (by decide)

/-- A card of 2 GB announces blocks of 1024 bytes, and FatFs is told half of its sectors. -/
theorem sectors_halved :
    let drive : Drive := ⟨1, .sdv1, ⟨.sdv1, [0, 0x0E, 0, 0x32, 0x5B, 0x5A, 0x83, 0xFF, 0xFF, 0xFF, 0xFF, 0x80, 0x0A, 0x40, 0, 1], []⟩⟩
    specifiedCapacity drive.info.csd = 2 ^ 31 ∧ diskIoctl drive getSectorCount 0 = (.ok, 2097152) ∧ ¬SizeExact drive 0 := by
  refine ⟨by decide, by decide, ?_⟩
  rintro ⟨_, _, sectors⟩
  revert sectors
  decide

end ArduinoK210.Sd
