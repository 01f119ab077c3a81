import ArduinoK210.Jpeg.Reads

/-! What a block of samples should be, and that the blocks at offsets inside the image are. -/

namespace ArduinoK210.Jpeg

open Imaging (u32 u32Range)

namespace Mcu

variable (mcu : Mcu)

def Shows (x y : Nat) : Prop :=
  (mcu.xOffset ≤ x ∧ x < mcu.xOffset + mcuW) ∧ mcu.yOffset ≤ y ∧ y < mcu.yOffset + mcuH

instance (x y : Nat) : Decidable (mcu.Shows x y) := inferInstanceAs (Decidable (_ ∧ _))

def luma (bytes : List Nat) : List (Nat × Nat) :=
  (mcu.samples.filter (·.bytes = bytes)).map fun sample =>
    (mcu.xOffset + sample.index % mcuW, mcu.yOffset + sample.index / mcuW)

/-- A block reads only what is both in it and in the image, each pixel for its own entry, and is zero past the edges. -/
structure Right (src : ImageInfo) : Prop where
  inside : ∀ sample ∈ mcu.samples, ∀ a ∈ sample.bytes,
    ∃ x y, x < src.w ∧ y < src.h ∧ mcu.Shows x y ∧ a ∈ src.pixelBytes x y
  luma : ∀ x y, x < src.w → y < src.h → mcu.luma (src.pixelBytes x y) = if mcu.Shows x y then [(x, y)] else []
  zero : ∀ index, index < mcuSize →
    src.w ≤ mcu.xOffset + index % mcuW ∨ src.h ≤ mcu.yOffset + index / mcuW →
      mcu.y0 index = some 0 ∧ (src.pixfmt ≠ .grayscale → mcu.cb index = some 0 ∧ mcu.cr index = some 0)

private theorem luma_eq (bytes : List Nat) :
    mcu.luma bytes = (mcu.samples.map Sample.key).flatMap fun key =>
      if key.2 = bytes then [(mcu.xOffset + key.1 % mcuW, mcu.yOffset + key.1 / mcuW)] else [] := by
  rw [luma, List.flatMap_map]
  induction mcu.samples with
  | nil => rfl
  | cons sample samples ih =>
    rw [List.filter_cons, List.flatMap_cons, ← ih]
    by_cases found : sample.bytes = bytes
    · simp [Sample.key, found]
    · simp [Sample.key, found]

end Mcu

private theorem Plane.store_other {value : Sample → Option UInt8} {index : Nat} {samples : List Sample} :
    ∀ {plane : Plane}, (∀ sample ∈ samples, sample.index ≠ index) → plane.store value samples index = plane index := by
  induction samples with
  | nil => exact fun _ => rfl
  | cons sample samples ih =>
    intro plane others
    rw [Plane.store, List.foldl_cons]
    refine (ih fun other member => others other (List.mem_cons_of_mem _ member)).trans ?_
    split
    · exact Function.update_of_ne (others sample List.mem_cons_self).symm _ _
    · rfl

theorem remaining_inside {size offset : Nat} (inside : offset ≤ size) (bound : size + 32 ≤ 2 ^ 31) :
    remaining size offset = size - offset := by
  simp only [remaining, u32, u32Range]
  omega

theorem remaining_outside {size offset : Nat} (outside : size < offset) (near : offset ≤ size + 16) :
    mcuW ≤ remaining size offset := by
  simp only [mcuW, remaining, u32, u32Range]
  omega

theorem imMin_le (a b : Nat) : imMin a b ≤ a ∧ imMin a b ≤ b := by
  unfold imMin
  split <;> omega

section Block

variable {src : ImageInfo} {xOffset yOffset dx dy : Nat}

theorem mcuSamples_at (valid : src.Valid) (wide : 1 ≤ dx) (most : dx ≤ mcuW) (rows : yOffset + dy ≤ src.h) {sample : Sample}
    (member : sample ∈ mcuSamples src xOffset yOffset dx dy) :
    ∃ j k, j < dy ∧ k < dx ∧ sample.index = j * mcuW + k ∧ sample.bytes = src.pixelBytes (xOffset + k) (yOffset + j) := by
  have key := List.mem_map_of_mem (f := Sample.key) member
  rw [mcuSamples_key valid wide most rows] at key
  obtain ⟨j, row, found⟩ := List.mem_flatMap.mp key
  obtain ⟨k, column, same⟩ := List.mem_map.mp found
  simp only [Sample.key, Prod.mk.injEq] at same
  exact ⟨j, k, List.mem_range.mp row, List.mem_range.mp column, same.1.symm, same.2.symm⟩

theorem jpegGetMcu_luma (valid : src.Valid) (wide : 1 ≤ dx) (most : dx ≤ mcuW) (columns : xOffset + dx ≤ src.w)
    (rows : yOffset + dy ≤ src.h) {x y : Nat} (column : x < src.w) :
    (jpegGetMcu src xOffset yOffset dx dy).luma (src.pixelBytes x y) =
      if yOffset ≤ y ∧ y < yOffset + dy then if xOffset ≤ x ∧ x < xOffset + dx then [(x, y)] else [] else [] := by
  rw [Mcu.luma_eq]
  simp only [jpegGetMcu, mcuSamples_key valid wide most rows, List.flatMap_assoc, List.flatMap_map]
  apply Stride.range_flatMap
  intro j _
  have row : ∀ k, k < dx →
      (if src.pixelBytes (xOffset + k) (yOffset + j) = src.pixelBytes x y then
        [(xOffset + (j * mcuW + k) % mcuW, yOffset + (j * mcuW + k) / mcuW)] else []) =
      if xOffset + k = x then if yOffset + j = y then [(x, y)] else [] else [] := by
    intro k within
    have entry : (j * mcuW + k) % mcuW = k ∧ (j * mcuW + k) / mcuW = j := by
      simp only [mcuW] at most ⊢
      omega
    rw [if_congr (valid.pixelBytes_inj (by omega) column) rfl rfl, entry.1, entry.2, ite_and]
    split
    next here =>
      split
      next same => rw [here, same]
      next => rfl
    next => rfl
  rw [Stride.range_flatMap row]
  split <;> split <;> rfl

private theorem jpegGetMcu_inside (valid : src.Valid) (wide : 1 ≤ dx) (most : dx ≤ mcuW) (tall : dy ≤ mcuH)
    (columns : xOffset + dx ≤ src.w) (rows : yOffset + dy ≤ src.h) {sample : Sample}
    (member : sample ∈ (jpegGetMcu src xOffset yOffset dx dy).samples) {a : Nat} (byte : a ∈ sample.bytes) :
    ∃ x y, x < src.w ∧ y < src.h ∧ (jpegGetMcu src xOffset yOffset dx dy).Shows x y ∧ a ∈ src.pixelBytes x y := by
  obtain ⟨j, k, row, column, _, bytes⟩ := mcuSamples_at valid wide most rows member
  refine ⟨xOffset + k, yOffset + j, by omega, by omega, ⟨?_, ?_⟩, bytes ▸ byte⟩
  · show xOffset ≤ xOffset + k ∧ xOffset + k < xOffset + mcuW
    omega
  · show yOffset ≤ yOffset + j ∧ yOffset + j < yOffset + mcuH
    omega

/-- An entry that no pixel is read for is zero, for `memset` has cleared the block. -/
theorem jpegGetMcu_zero (valid : src.Valid) (wide : 1 ≤ dx) (most : dx ≤ mcuW) (rows : yOffset + dy ≤ src.h)
    {index : Nat} (inside : index < mcuSize) (beyond : dx ≤ index % mcuW ∨ dy ≤ index / mcuW) :
    (jpegGetMcu src xOffset yOffset dx dy).y0 index = some 0 ∧
      (src.pixfmt ≠ .grayscale →
        (jpegGetMcu src xOffset yOffset dx dy).cb index = some 0 ∧ (jpegGetMcu src xOffset yOffset dx dy).cr index = some 0) := by
  have others : ∀ sample ∈ mcuSamples src xOffset yOffset dx dy, sample.index ≠ index := by
    intro sample member same
    obtain ⟨j, k, row, column, at_, _⟩ := mcuSamples_at valid wide most rows member
    simp only [mcuW] at most beyond at_
    omega
  have ragged : dx ≠ mcuW ∨ dy ≠ mcuH := by
    simp only [mcuSize, mcuW, mcuH] at *
    omega
  have cleared : Plane.zeros index = some 0 := if_pos inside
  simp only [jpegGetMcu, Plane.store_other others, ragged, decide_true, true_or, true_and, if_true]
  refine ⟨cleared, fun format => ?_⟩
  rw [if_pos (Or.inl format)]
  exact ⟨cleared, cleared⟩

/-- The blocks at offsets inside the image. -/
theorem jpegGetMcu_right (valid : src.Valid) (column : xOffset < src.w) (row : yOffset < src.h) :
    (jpegGetMcu src xOffset yOffset (imMin mcuW (remaining src.w xOffset)) (imMin mcuH (remaining src.h yOffset))).Right src := by
  rw [remaining_inside (Nat.le_of_lt column) valid.w_lt, remaining_inside (Nat.le_of_lt row) valid.h_lt]
  have width : imMin mcuW (src.w - xOffset) = min mcuW (src.w - xOffset) := by
    unfold imMin
    split <;> omega
  have height : imMin mcuH (src.h - yOffset) = min mcuH (src.h - yOffset) := by
    unfold imMin
    split <;> omega
  rw [width, height]
  have wide : 1 ≤ min mcuW (src.w - xOffset) := by
    simp only [mcuW]
    omega
  have most : min mcuW (src.w - xOffset) ≤ mcuW := Nat.min_le_left _ _
  have tall : min mcuH (src.h - yOffset) ≤ mcuH := Nat.min_le_left _ _
  refine ⟨fun sample member a byte => ?_, fun x y inColumn inRow => ?_, fun index inside beyond => ?_⟩
  · exact jpegGetMcu_inside valid wide most tall (by omega) (by omega) member byte
  · rw [jpegGetMcu_luma valid wide most (by omega) (by omega) inColumn, ← ite_and]
    apply if_congr _ rfl rfl
    show _ ↔ (xOffset ≤ x ∧ x < xOffset + mcuW) ∧ yOffset ≤ y ∧ y < yOffset + mcuH
    omega
  · have past : src.w ≤ xOffset + index % mcuW ∨ src.h ≤ yOffset + index / mcuW := beyond
    exact jpegGetMcu_zero valid wide most (by omega) inside (by omega)

theorem blank_right (beyond : src.w ≤ xOffset ∨ src.h ≤ yOffset) : (blank xOffset yOffset).Right src := by
  refine ⟨fun sample member => absurd member List.not_mem_nil, fun x y column row => ?_, fun index inside _ => ?_⟩
  · have nowhere : ¬(blank xOffset yOffset).Shows x y := by
      show ¬((xOffset ≤ x ∧ x < xOffset + mcuW) ∧ yOffset ≤ y ∧ y < yOffset + mcuH)
      omega
    rw [if_neg nowhere]
    rfl
  · exact ⟨if_pos inside, fun _ => ⟨if_pos inside, if_pos inside⟩⟩

end Block

end ArduinoK210.Jpeg
