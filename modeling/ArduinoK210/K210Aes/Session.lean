import ArduinoK210.Lib.Run
import Mathlib.Algebra.Group.Nat.Defs

/-! The static session of the `AES` class: the calls that set it up, the calls that
stream a message, and the device calls that they make. -/

namespace ArduinoK210.K210Aes

def sizeRange : Nat := 2 ^ 64

inductive CipherMode where
  | ecb | cbc | gcm | max
  deriving DecidableEq

inductive KeyLen where
  | aes128 | aes192 | aes256
  deriving DecidableEq

def KeyLen.bytes : KeyLen → Nat
  | .aes128 => 16
  | .aes192 => 24
  | .aes256 => 32

inductive IvLen where
  | invalid | iv96 | iv128
  deriving DecidableEq

def IvLen.bytes : IvLen → Nat
  | .invalid => 0
  | .iv96 => 12
  | .iv128 => 16

inductive Direction where
  | encryption | decryption
  deriving DecidableEq

/-- A buffer whose length is passed as a `uint8_t`. -/
abbrev ShortBuffer := { bytes : List UInt8 // bytes.length < 256 }

/-- A buffer whose length is passed as a `size_t`. -/
abbrev Buffer := { bytes : List UInt8 // bytes.length < sizeRange }

/-- What the device is told. A pointer with its length is the bytes that are read there. -/
inductive DeviceCall where
  | init (key iv aad : List UInt8) (mode : CipherMode) (direction : Direction) (total : Nat)
  | process (input : List UInt8) (mode : CipherMode)
  | getTag
  deriving DecidableEq

structure Aes where
  processDataLen : Nat
  totalDataLen : Nat
  key : List UInt8
  iv : List UInt8
  gcmAad : List UInt8
  gcmAadLen : Nat
  mode : CipherMode
  keyLen : KeyLen
  ivLen : IvLen
  device : List DeviceCall

namespace Aes

def zeros (size : Nat) : List UInt8 := List.replicate size 0

def memcpy (target source : List UInt8) (size : Nat) : List UInt8 := source.take size ++ target.drop size

def powerOn : Aes := ⟨0, 0, zeros 32, zeros 16, zeros 33, 0, .ecb, .aes128, .iv128, []⟩

def begin (mode : CipherMode) (keyLen : KeyLen) (ivLen : IvLen) (aes : Aes) : Int × Aes :=
  if mode = .max then (-1, aes)
  else if keyLen ≠ .aes128 ∧ keyLen ≠ .aes192 ∧ keyLen ≠ .aes256 then (-1, { aes with mode })
  else if (mode = .cbc ∧ ivLen ≠ .iv128) ∨ (mode = .gcm ∧ ivLen ≠ .iv96) then (-1, { aes with mode, keyLen })
  else (0, ⟨0, 0, zeros 32, zeros 16, zeros 33, 0, mode, keyLen, ivLen, aes.device⟩)

def end_ (aes : Aes) : Aes :=
  { aes with
    processDataLen := 0, totalDataLen := 0, key := zeros 32, iv := zeros 16, gcmAad := zeros 33, gcmAadLen := 0 }

def setDataLen (dataLen : Nat) (aes : Aes) : Int × Aes :=
  if (aes.totalDataLen + sizeRange - aes.processDataLen) % sizeRange ≠ 0 then (-1, aes)
  else (0, { aes with processDataLen := 0, totalDataLen := (dataLen + 15) % sizeRange / 16 * 16 })

def setKey (key : ShortBuffer) (aes : Aes) : Int × Aes :=
  let copied := { aes with key := memcpy aes.key key.val (min key.val.length 32) }
  if key.val.length ≠ aes.keyLen.bytes then (-1, copied) else (0, copied)

def setIv (iv : ShortBuffer) (aes : Aes) : Int × Aes :=
  let copied := { aes with iv := memcpy aes.iv iv.val (min iv.val.length 16) }
  if iv.val.length ≠ aes.ivLen.bytes then (-1, copied) else (0, copied)

def gcmSetAad (aad : ShortBuffer) (aes : Aes) : Int × Aes :=
  if aes.mode = .gcm then (0, { aes with gcmAad := memcpy aes.gcmAad aad.val (min aad.val.length 33) })
  else (-1, aes)

/-- `aes_init` with the fields of the session. -/
def initCall (direction : Direction) (aes : Aes) : DeviceCall :=
  .init (aes.key.take aes.keyLen.bytes) (aes.iv.take aes.ivLen.bytes) (aes.gcmAad.take aes.gcmAadLen) aes.mode direction
    aes.totalDataLen

def taken (len : Nat) (aes : Aes) : Nat :=
  if (aes.processDataLen + len) % sizeRange > aes.totalDataLen then
    (aes.totalDataLen + sizeRange - aes.processDataLen) % sizeRange
  else len

def process (direction : Direction) (input : Buffer) (aes : Aes) : Int × Aes :=
  let len := aes.taken input.val.length
  if len = 0 then (-1, aes)
  else
    let opening := if aes.processDataLen = 0 then [aes.initCall direction] else []
    (0, { aes with
      device := aes.device ++ opening ++ [.process (input.val.take len) aes.mode]
      processDataLen := (aes.processDataLen + len) % sizeRange })

def gcmGetTag (aes : Aes) : Int × Aes :=
  if aes.mode = .gcm then (0, { aes with device := aes.device ++ [.getTag] }) else (-1, aes)

end Aes

inductive Call where
  | begin (mode : CipherMode) (keyLen : KeyLen) (ivLen : IvLen)
  | end
  | setDataLen (dataLen : Nat)
  | setKey (key : ShortBuffer)
  | setIv (iv : ShortBuffer)
  | gcmSetAad (aad : ShortBuffer)
  | process (direction : Direction) (input : Buffer)
  | gcmGetTag

def Aes.call : Call → Aes → Int × Aes
  | .begin mode keyLen ivLen, aes => aes.begin mode keyLen ivLen
  | .end, aes => (0, aes.end_)
  | .setDataLen dataLen, aes => aes.setDataLen dataLen
  | .setKey key, aes => aes.setKey key
  | .setIv iv, aes => aes.setIv iv
  | .gcmSetAad aad, aes => aes.gcmSetAad aad
  | .process direction input, aes => aes.process direction input
  | .gcmGetTag, aes => aes.gcmGetTag

/-- The class with the key, the IV and the AAD that its calls have accepted last. -/
structure Session where
  aes : Aes
  key : List UInt8
  iv : List UInt8
  aad : List UInt8

namespace Session

/-- What an accepted call asks for. `begin` and `end` leave zeros and no AAD. -/
def note (session : Session) (aes : Aes) : Call → Session
  | .begin _ keyLen ivLen => ⟨aes, Aes.zeros keyLen.bytes, Aes.zeros ivLen.bytes, []⟩
  | .end => ⟨aes, Aes.zeros aes.keyLen.bytes, Aes.zeros aes.ivLen.bytes, []⟩
  | .setKey key => { session with aes, key := key.val }
  | .setIv iv => { session with aes, iv := iv.val }
  | .gcmSetAad aad => { session with aes, aad := aad.val }
  | .setDataLen _ | .process _ _ | .gcmGetTag => { session with aes }

def step (call : Call) (session : Session) : Session :=
  let reply := session.aes.call call
  if reply.1 = 0 then session.note reply.2 call else { session with aes := reply.2 }

def start : Session := ⟨.powerOn, Aes.zeros 16, Aes.zeros 16, []⟩

/-- The calls that may leave a part of a rejected request behind are accepted. -/
def Accepted : Call → Session → Prop
  | .begin mode keyLen ivLen, session => (session.aes.begin mode keyLen ivLen).1 = 0
  | .setKey key, session => (session.aes.setKey key).1 = 0
  | .setIv iv, session => (session.aes.setIv iv).1 = 0
  | _, _ => True

/-- The fields hold what the session has accepted. -/
structure Kept (session : Session) : Prop where
  key : session.aes.key.take session.aes.keyLen.bytes = session.key
  keySize : session.aes.key.length = 32
  iv : session.aes.iv.take session.aes.ivLen.bytes = session.iv
  ivSize : session.aes.iv.length = 16
  aadLen : session.aes.gcmAadLen = 0
  order : session.aes.processDataLen ≤ session.aes.totalDataLen
  range : session.aes.totalDataLen < sizeRange

theorem sizeRange_pos : 0 < sizeRange := by simp [sizeRange]

private theorem zeros_take {size most : Nat} (fits : size ≤ most) : (Aes.zeros most).take size = Aes.zeros size := by
  simp [Aes.zeros, Nat.min_eq_left fits]

private theorem keyLen_le (keyLen : KeyLen) : keyLen.bytes ≤ 32 := by
  cases keyLen <;> simp [KeyLen.bytes]

private theorem ivLen_le (ivLen : IvLen) : ivLen.bytes ≤ 16 := by
  cases ivLen <;> simp [IvLen.bytes]

private theorem memcpy_length {target source : List UInt8} {size : Nat} (fits : size ≤ source.length) (room : size ≤ target.length) :
    (Aes.memcpy target source size).length = target.length := by
  simp only [Aes.memcpy, List.length_append, List.length_take, List.length_drop]
  omega

theorem memcpy_take (target source : List UInt8) :
    (Aes.memcpy target source source.length).take source.length = source := by
  rw [Aes.memcpy, List.take_length, List.take_left]

private theorem Kept.cleared (aes : Aes) {key iv gcmAad : List UInt8} (keys : key = Aes.zeros 32) (ivs : iv = Aes.zeros 16) :
    Kept ⟨{ aes with processDataLen := 0, totalDataLen := 0, key, iv, gcmAad, gcmAadLen := 0 },
      Aes.zeros aes.keyLen.bytes, Aes.zeros aes.ivLen.bytes, []⟩ := by
  subst keys ivs
  refine ⟨zeros_take (keyLen_le _), ?_, zeros_take (ivLen_le _), ?_, rfl, Nat.le_refl 0, sizeRange_pos⟩
  · exact List.length_replicate
  · exact List.length_replicate

theorem start_kept : Kept start := Kept.cleared .powerOn rfl rfl

variable {session : Session}

private theorem Kept.begin (mode : CipherMode) (keyLen : KeyLen) (ivLen : IvLen)
    (accepted : (session.aes.begin mode keyLen ivLen).1 = 0) : Kept (step (.begin mode keyLen ivLen) session) := by
  have reply : session.aes.begin mode keyLen ivLen =
      (0, ⟨0, 0, Aes.zeros 32, Aes.zeros 16, Aes.zeros 33, 0, mode, keyLen, ivLen, session.aes.device⟩) := by
    unfold Aes.begin at accepted ⊢
    split at accepted
    next => cases accepted
    next valid =>
      split at accepted
      next => cases accepted
      next size =>
        split at accepted
        next => cases accepted
        next iv => rw [if_neg valid, if_neg size, if_neg iv]
  simp only [step, Aes.call, reply, if_true, note]
  exact Kept.cleared ⟨0, 0, [], [], [], 0, mode, keyLen, ivLen, session.aes.device⟩ rfl rfl

private theorem Kept.setKey (kept : Kept session) (key : ShortBuffer) (accepted : (session.aes.setKey key).1 = 0) :
    Kept (step (.setKey key) session) := by
  unfold Aes.setKey at accepted
  dsimp only at accepted
  split at accepted
  next => cases accepted
  next same =>
    have size : key.val.length = session.aes.keyLen.bytes := Decidable.not_not.mp same
    have fits : min key.val.length 32 = key.val.length := Nat.min_eq_left (size ▸ keyLen_le _)
    simp only [step, Aes.call, Aes.setKey, if_neg same, if_true, note, fits]
    refine ⟨?_, ?_, kept.iv, kept.ivSize, kept.aadLen, kept.order, kept.range⟩
    · rw [← size]
      exact memcpy_take _ _
    · refine (memcpy_length (Nat.le_refl _) ?_).trans kept.keySize
      rw [size, kept.keySize]
      exact keyLen_le _

private theorem Kept.setIv (kept : Kept session) (iv : ShortBuffer) (accepted : (session.aes.setIv iv).1 = 0) :
    Kept (step (.setIv iv) session) := by
  unfold Aes.setIv at accepted
  dsimp only at accepted
  split at accepted
  next => cases accepted
  next same =>
    have size : iv.val.length = session.aes.ivLen.bytes := Decidable.not_not.mp same
    have fits : min iv.val.length 16 = iv.val.length := Nat.min_eq_left (size ▸ ivLen_le _)
    simp only [step, Aes.call, Aes.setIv, if_neg same, if_true, note, fits]
    refine ⟨kept.key, kept.keySize, ?_, ?_, kept.aadLen, kept.order, kept.range⟩
    · rw [← size]
      exact memcpy_take _ _
    · refine (memcpy_length (Nat.le_refl _) ?_).trans kept.ivSize
      rw [size, kept.ivSize]
      exact ivLen_le _

theorem taken_le {aes : Aes} (order : aes.processDataLen ≤ aes.totalDataLen) (len : Nat) :
    (aes.processDataLen + aes.taken len) % sizeRange ≤ aes.totalDataLen := by
  unfold Aes.taken
  split
  next =>
    have all : aes.processDataLen + (aes.totalDataLen + sizeRange - aes.processDataLen) = aes.totalDataLen + sizeRange := by
      omega
    rw [Nat.add_mod_mod, all, Nat.add_mod_right]
    exact Nat.mod_le _ _
  next fits => exact Nat.le_of_not_lt fits

private theorem Kept.process (kept : Kept session) (direction : Direction) (input : Buffer) :
    Kept (step (.process direction input) session) := by
  simp only [step, Aes.call, Aes.process]
  by_cases none : session.aes.taken input.val.length = 0
  · simp only [if_pos none]
    exact kept
  · simp only [if_neg none, if_true, note]
    exact ⟨kept.key, kept.keySize, kept.iv, kept.ivSize, kept.aadLen, taken_le kept.order _, kept.range⟩

private theorem Kept.setDataLen (kept : Kept session) (dataLen : Nat) : Kept (step (.setDataLen dataLen) session) := by
  simp only [step, Aes.call, Aes.setDataLen]
  by_cases busy : (session.aes.totalDataLen + sizeRange - session.aes.processDataLen) % sizeRange ≠ 0
  · simp only [if_pos busy]
    exact kept
  · simp only [if_neg busy, if_true, note]
    refine ⟨kept.key, kept.keySize, kept.iv, kept.ivSize, kept.aadLen, Nat.zero_le _, ?_⟩
    have bound : (dataLen + 15) % sizeRange < sizeRange := Nat.mod_lt _ sizeRange_pos
    exact Nat.lt_of_le_of_lt (Nat.div_mul_le_self _ 16) bound

theorem Kept.step (kept : Kept session) (call : Call) (accepted : Accepted call session) : Kept (step call session) := by
  cases call with
  | begin mode keyLen ivLen => exact .begin mode keyLen ivLen accepted
  | «end» => exact Kept.cleared session.aes rfl rfl
  | setDataLen dataLen => exact kept.setDataLen dataLen
  | setKey key => exact kept.setKey key accepted
  | setIv iv => exact kept.setIv iv accepted
  | gcmSetAad aad =>
    simp only [Session.step, Aes.call, Aes.gcmSetAad]
    by_cases gcm : session.aes.mode = .gcm
    · simp only [if_pos gcm, if_true, note]
      exact ⟨kept.key, kept.keySize, kept.iv, kept.ivSize, kept.aadLen, kept.order, kept.range⟩
    · simp only [if_neg gcm]
      exact kept
  | process direction input => exact kept.process direction input
  | gcmGetTag =>
    simp only [Session.step, Aes.call, Aes.gcmGetTag]
    by_cases gcm : session.aes.mode = .gcm
    · simp only [if_pos gcm, if_true, note]
      exact ⟨kept.key, kept.keySize, kept.iv, kept.ivSize, kept.aadLen, kept.order, kept.range⟩
    · simp only [if_neg gcm]
      exact kept

end Session
end ArduinoK210.K210Aes
