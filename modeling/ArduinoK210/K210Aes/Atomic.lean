import ArduinoK210.K210Aes.Session

/-! Which rejected calls leave the session as it was. `begin` writes each argument before it looks
at the next one, and the key and the IV are copied before their length is looked at. -/

namespace ArduinoK210.K210Aes

/-- A call with its arguments; a key length that is none of the three is `none`, and `max` is any mode out of range. -/
inductive Request where
  | begin (mode : CipherMode) (keyLen : Option KeyLen) (ivLen : IvLen)
  | setDataLen (dataLen : Nat)
  | setKey (key : ShortBuffer)
  | setIv (iv : ShortBuffer)
  | encrypt (input : Buffer)
  | decrypt (input : Buffer)
  | gcmSetAad (aad : ShortBuffer)

namespace Aes

def beginAny (mode : CipherMode) (keyLen : Option KeyLen) (ivLen : IvLen) (aes : Aes) : Int × Aes :=
  match keyLen with
  | some keyLen => aes.begin mode keyLen ivLen
  | none => if mode = .max then (-1, aes) else (-1, { aes with mode })

def request : Request → Aes → Int × Aes
  | .begin mode keyLen ivLen, aes => aes.beginAny mode keyLen ivLen
  | .setDataLen dataLen, aes => aes.setDataLen dataLen
  | .setKey key, aes => aes.setKey key
  | .setIv iv, aes => aes.setIv iv
  | .encrypt input, aes => aes.process .encryption input
  | .decrypt input, aes => aes.process .decryption input
  | .gcmSetAad aad, aes => aes.gcmSetAad aad

/-- The settings, the buffers and the progress of a message. -/
structure Unchanged (before after : Aes) : Prop where
  mode : after.mode = before.mode
  keyLen : after.keyLen = before.keyLen
  ivLen : after.ivLen = before.ivLen
  key : after.key = before.key
  iv : after.iv = before.iv
  gcmAad : after.gcmAad = before.gcmAad
  totalDataLen : after.totalDataLen = before.totalDataLen
  processDataLen : after.processDataLen = before.processDataLen

def Atomic (request : Request) (aes : Aes) : Prop := (aes.request request).1 = -1 → Unchanged aes (aes.request request).2

/-- What is written before the check that fails is what is there already. -/
def Rewrites : Request → Aes → Prop
  | .begin .max _ _, _ => True
  | .begin mode none _, aes => mode = aes.mode
  | .begin mode (some keyLen) ivLen, aes =>
      (mode = .cbc ∧ ivLen ≠ .iv128) ∨ (mode = .gcm ∧ ivLen ≠ .iv96) → mode = aes.mode ∧ keyLen = aes.keyLen
  | .setKey key, aes => key.val.length ≠ aes.keyLen.bytes → key.val.take 32 = aes.key.take (min key.val.length 32)
  | .setIv iv, aes => iv.val.length ≠ aes.ivLen.bytes → iv.val.take 16 = aes.iv.take (min iv.val.length 16)
  | _, _ => True

variable {aes : Aes}

private theorem Unchanged.refl (aes : Aes) : Unchanged aes aes := ⟨rfl, rfl, rfl, rfl, rfl, rfl, rfl, rfl⟩

private theorem memcpy_eq_iff (target source : List UInt8) (most : Nat) :
    memcpy target source (min source.length most) = target ↔ source.take most = target.take (min source.length most) := by
  have part : source.take (min source.length most) = source.take most := by
    obtain short | long := Nat.le_total source.length most
    · rw [Nat.min_eq_left short, List.take_length, List.take_of_length_le short]
    · rw [Nat.min_eq_right long]
  have whole := List.take_append_drop (min source.length most) target
  unfold memcpy
  rw [part]
  constructor
  · intro same
    exact List.append_cancel_right (same.trans whole.symm)
  · intro same
    rw [same, whole]

private theorem beginAny_atomic_iff (mode : CipherMode) (keyLen : Option KeyLen) (ivLen : IvLen) :
    Atomic (.begin mode keyLen ivLen) aes ↔ Rewrites (.begin mode keyLen ivLen) aes := by
  by_cases invalid : mode = .max
  · cases invalid
    have same : aes.request (.begin .max keyLen ivLen) = (-1, aes) := by cases keyLen <;> rfl
    unfold Atomic
    rw [same]
    exact ⟨fun _ => by cases keyLen <;> trivial, fun _ _ => .refl aes⟩
  · cases keyLen with
    | none =>
      have reply : aes.request (.begin mode none ivLen) = (-1, { aes with mode }) := if_neg invalid
      have written : Rewrites (.begin mode none ivLen) aes ↔ mode = aes.mode := by
        cases mode <;> first | rfl | exact absurd rfl invalid
      unfold Atomic
      rw [reply, written]
      exact ⟨fun kept => (kept rfl).mode, fun same _ => ⟨same, rfl, rfl, rfl, rfl, rfl, rfl, rfl⟩⟩
    | some keyLen =>
      have written : Rewrites (.begin mode (some keyLen) ivLen) aes ↔
          ((mode = .cbc ∧ ivLen ≠ .iv128) ∨ (mode = .gcm ∧ ivLen ≠ .iv96) → mode = aes.mode ∧ keyLen = aes.keyLen) := by
        cases mode <;> first | rfl | exact absurd rfl invalid
      have size : ¬(keyLen ≠ .aes128 ∧ keyLen ≠ .aes192 ∧ keyLen ≠ .aes256) := by cases keyLen <;> decide
      have reply : aes.request (.begin mode (some keyLen) ivLen) = aes.begin mode keyLen ivLen := rfl
      unfold Atomic
      rw [reply]
      unfold begin
      rw [written, if_neg invalid, if_neg size]
      by_cases bad : (mode = .cbc ∧ ivLen ≠ .iv128) ∨ (mode = .gcm ∧ ivLen ≠ .iv96)
      · rw [if_pos bad]
        refine ⟨fun kept _ => ⟨(kept rfl).mode, (kept rfl).keyLen⟩, fun same _ => ?_⟩
        exact ⟨(same bad).1, (same bad).2, rfl, rfl, rfl, rfl, rfl, rfl⟩
      · rw [if_neg bad]
        exact ⟨fun _ rejected => absurd rejected bad, fun _ rejected => by cases rejected⟩

private theorem setKey_atomic_iff (key : ShortBuffer) : Atomic (.setKey key) aes ↔ Rewrites (.setKey key) aes := by
  have copied := memcpy_eq_iff aes.key key.val 32
  unfold Atomic request setKey Rewrites
  dsimp only
  split
  next short =>
    refine ⟨fun kept _ => copied.mp (kept rfl).key, fun same _ => ?_⟩
    exact ⟨rfl, rfl, rfl, copied.mpr (same short), rfl, rfl, rfl, rfl⟩
  next fits => exact ⟨fun _ short => absurd short fits, fun _ rejected => by cases rejected⟩

private theorem setIv_atomic_iff (iv : ShortBuffer) : Atomic (.setIv iv) aes ↔ Rewrites (.setIv iv) aes := by
  have copied := memcpy_eq_iff aes.iv iv.val 16
  unfold Atomic request setIv Rewrites
  dsimp only
  split
  next short =>
    refine ⟨fun kept _ => copied.mp (kept rfl).iv, fun same _ => ?_⟩
    exact ⟨rfl, rfl, rfl, rfl, copied.mpr (same short), rfl, rfl, rfl⟩
  next fits => exact ⟨fun _ short => absurd short fits, fun _ rejected => by cases rejected⟩

private theorem process_atomic (direction : Direction) (input : Buffer) (rejected : (aes.process direction input).1 = -1) :
    (aes.process direction input).2 = aes := by
  unfold process at rejected ⊢
  dsimp only at rejected ⊢
  split
  next => rfl
  next some =>
    rw [if_neg some] at rejected
    cases rejected

private theorem setDataLen_atomic (dataLen : Nat) (rejected : (aes.setDataLen dataLen).1 = -1) : (aes.setDataLen dataLen).2 = aes := by
  unfold setDataLen at rejected ⊢
  split
  next => rfl
  next done =>
    rw [if_neg done] at rejected
    cases rejected

private theorem gcmSetAad_atomic (aad : ShortBuffer) (rejected : (aes.gcmSetAad aad).1 = -1) : (aes.gcmSetAad aad).2 = aes := by
  unfold gcmSetAad at rejected ⊢
  split
  next gcm =>
    rw [if_pos gcm] at rejected
    cases rejected
  next => rfl

private theorem Unchanged.of_eq {after : Aes} (same : after = aes) : Unchanged aes after := same ▸ .refl aes

/-- A rejected call leaves the session as it was just when what it wrote first was there already. -/
theorem request_atomic_iff (request : Request) (aes : Aes) : Atomic request aes ↔ Rewrites request aes := by
  cases request with
  | begin mode keyLen ivLen => exact beginAny_atomic_iff mode keyLen ivLen
  | setKey key => exact setKey_atomic_iff key
  | setIv iv => exact setIv_atomic_iff iv
  | setDataLen dataLen => exact ⟨fun _ => trivial, fun _ rejected => .of_eq (setDataLen_atomic dataLen rejected)⟩
  | encrypt input => exact ⟨fun _ => trivial, fun _ rejected => .of_eq (process_atomic .encryption input rejected)⟩
  | decrypt input => exact ⟨fun _ => trivial, fun _ rejected => .of_eq (process_atomic .decryption input rejected)⟩
  | gcmSetAad aad => exact ⟨fun _ => trivial, fun _ rejected => .of_eq (gcmSetAad_atomic aad rejected)⟩

/-- A key of one byte is refused, and is the first byte of the key from then on. -/
theorem short_key_stays : ¬Atomic (.setKey ⟨[7], by decide⟩) .powerOn := by
  intro atomic
  have key := (atomic rfl).key
  revert key
  decide

end Aes
end ArduinoK210.K210Aes
