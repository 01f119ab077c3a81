import ArduinoK210.Jpeg.Buffer
import ArduinoK210.Jpeg.Mcu
import Mathlib.Data.List.Nodup
import ArduinoK210.Jpeg.Decoder

/-! `jpeg_processDU`: the transform of eight by eight samples, its quantization, the bits that are written for it, and how a reader
takes them back. -/

namespace ArduinoK210.Jpeg

/-- `FIX_0_382683433` and the other constants -/
def fix0382683433 : Int := 98

def fix0541196100 : Int := 139

def fix0707106781 : Int := 181

def fix1306562965 : Int := 334

def multiply (x y : Int) : Int := (x * y) >>> (8 : Nat)

/-- One round of the loops over rows and columns, which differ in the stride of `p` only. -/
def dct (p : Nat → Int) : Nat → Int :=
  let t0 := p 0 + p 7
  let t1 := p 1 + p 6
  let t2 := p 2 + p 5
  let t3 := p 3 + p 4
  let t7 := p 0 - p 7
  let t6 := p 1 - p 6
  let t5 := p 2 - p 5
  let t4 := p 3 - p 4
  let t10 := t0 + t3
  let t13 := t0 - t3
  let t11 := t1 + t2
  let t12 := t1 - t2
  let z1 := multiply (t12 + t13) fix0707106781
  let u10 := t4 + t5
  let u11 := t5 + t6
  let u12 := t6 + t7
  let z5 := multiply (u10 - u12) fix0382683433
  let z2 := multiply u10 fix0541196100 + z5
  let z4 := multiply u12 fix1306562965 + z5
  let z3 := multiply u11 fix0707106781
  let z11 := t7 + z3
  let z13 := t7 - z3
  fun k =>
    match k with
    | 0 => t10 + t11
    | 1 => z11 + z4
    | 2 => t13 + z1
    | 3 => z13 - z2
    | 4 => t10 - t11
    | 5 => z13 + z2
    | 6 => t13 - z1
    | _ => z11 - z4

def dctRows (cdu : Nat → Int) (index : Nat) : Int := dct (fun k => cdu (8 * (index / 8) + k)) (index % 8)

def dctColumns (du : Nat → Int) (index : Nat) : Int := dct (fun k => du (8 * k + index % 8)) (index / 8)

/-- The floating point of the encoder: the entries of `fdtbl_Y` and `fdtbl_UV`, by row, column and table entry, and the rounded
product with one of them. -/
structure Floats (F : Type) where
  zero : F
  fdtbl : (r c : Nat) → (table : Nat) → F
  descale : (du : Int) → F → Int
  descale_zero : ∀ du, descale du zero = 0

/-- An entry of `DUQ`, and `end0pos`, after one round of the loop. -/
def quantizeStep {F : Type} (floats : Floats F) (du : Nat → Int) (fdtbl : Nat → F) (state : (Nat → Int) × Nat) (i : Nat) :
    (Nat → Int) × Nat :=
  let position := zigZag.getD i 0
  let value := floats.descale (du i) (fdtbl i)
  (Function.update state.1 position value, if position > state.2 ∧ value ≠ 0 then position else state.2)

def quantize {F : Type} (floats : Floats F) (du : Nat → Int) (fdtbl : Nat → F) : (Nat → Int) × Nat :=
  (List.range 64).foldl (quantizeStep floats du fdtbl) (fun _ => 0, 0)

/-- The magnitude of a number that is not zero. -/
def jpegCalcBits (val : Int) : BitString :=
  let t1 := val.natAbs
  let val := if val < 0 then val - 1 else val
  let length := Nat.log2 t1 + 1
  ((val % 2 ^ length).toNat % 2 ^ 16, length)

/-- The inner loop of the AC coefficients, of at most so many rounds. -/
def skipZeros (duq : Nat → Int) (end0pos : Nat) : (rounds i : Nat) → Nat
  | 0, i => i
  | rounds + 1, i => if duq i = 0 ∧ i ≤ end0pos then skipZeros duq end0pos rounds (i + 1) else i

/-- What one round of the outer loop writes for a run of zeros and the coefficient behind it. -/
def runBits (htac : List BitString) (nrzeroes : Nat) (coefficient : Int) : List BitString :=
  let bits := jpegCalcBits coefficient
  if nrzeroes ≥ 16 then
    List.replicate (nrzeroes >>> 4) (row htac 0xF0) ++ [row htac (((nrzeroes &&& 15) <<< 4) + bits.2), bits]
  else [row htac ((nrzeroes <<< 4) + bits.2), bits]

def acBits (htac : List BitString) (duq : Nat → Int) (end0pos : Nat) : (rounds i : Nat) → List BitString
  | 0, _ => []
  | rounds + 1, i =>
      if i ≤ end0pos then
        let next := skipZeros duq end0pos 64 i
        runBits htac (next - i) (duq next) ++ acBits htac duq end0pos rounds (next + 1)
      else []

def dcBits (htdc : List BitString) (diff : Int) : List BitString :=
  if diff = 0 then [row htdc 0] else [row htdc (jpegCalcBits diff).2, jpegCalcBits diff]

def duBits (htdc htac : List BitString) (duq : Nat → Int) (end0pos : Nat) (dc : Int) : List BitString :=
  dcBits htdc (duq 0 - dc) ++
    if end0pos = 0 then [row htac 0x00]
    else acBits htac duq end0pos 64 1 ++ if end0pos ≠ 63 then [row htac 0x00] else []

/-- The buffer after the call, and its result. -/
def jpegProcessDU {F : Type} (floats : Floats F) (jpegBuf : JpegBuf) (cdu : Nat → Int) (fdtbl : Nat → F) (dc : Int)
    (htdc htac : List BitString) : JpegBuf × Int :=
  let quantized := quantize floats (dctColumns (dctRows cdu)) fdtbl
  let checked := jpegBuf.jpegCheckHighwater
  if checked.1 then (checked.2, 0)
  else (checked.2.writeAll (duBits htdc htac quantized.1 quantized.2 dc), quantized.1 0)

theorem zigZag_nodup : zigZag.Nodup := by decide

theorem zigZag_lt : ∀ position ∈ zigZag, position < 64 := by decide

structure EndsAt (duq : Nat → Int) (end0pos : Nat) : Prop where
  inside : end0pos < 64
  behind : ∀ k, end0pos < k → duq k = 0
  last : end0pos ≠ 0 → duq end0pos ≠ 0

section Quantize
variable {F : Type} (floats : Floats F) (du : Nat → Int) (fdtbl : Nat → F)

private theorem quantizeStep_ends {state : (Nat → Int) × Nat} {i : Nat} (below : i < 64) (ends : EndsAt state.1 state.2)
    (fresh : state.1 (zigZag.getD i 0) = 0) :
    EndsAt (quantizeStep floats du fdtbl state i).1 (quantizeStep floats du fdtbl state i).2 := by
  have bound : zigZag.getD i 0 < 64 := by
    have long : i < zigZag.length := below
    rw [List.getD_eq_getElem zigZag 0 long]
    exact zigZag_lt _ (List.getElem_mem long)
  unfold quantizeStep
  generalize zigZag.getD i 0 = position at *
  generalize floats.descale (du i) (fdtbl i) = value at *
  dsimp only
  by_cases grows : position > state.2 ∧ value ≠ 0
  · rw [if_pos grows]
    refine ⟨bound, fun k behind => ?_, fun _ => ?_⟩
    · rw [Function.update_of_ne (by omega)]
      exact ends.behind k (by omega)
    · rw [Function.update_self]
      exact grows.2
  · rw [if_neg grows]
    refine ⟨ends.inside, fun k behind => ?_, fun some => ?_⟩
    · by_cases here : k = position
      · subst here
        rw [Function.update_self]
        by_contra set
        exact grows ⟨behind, set⟩
      · rw [Function.update_of_ne here]
        exact ends.behind k behind
    · have last := ends.last some
      have apart : state.2 ≠ position := by
        rintro rfl
        exact last fresh
      rw [Function.update_of_ne apart]
      exact last

theorem quantize_rounds {i : Nat} (inside : i ≤ 64) :
    let state := (List.range i).foldl (quantizeStep floats du fdtbl) (fun _ => 0, 0)
    EndsAt state.1 state.2 ∧ (∀ j < i, state.1 (zigZag.getD j 0) = floats.descale (du j) (fdtbl j)) ∧
      ∀ j, i ≤ j → j < 64 → state.1 (zigZag.getD j 0) = 0 := by
  induction i with
  | zero => exact ⟨⟨Nat.zero_lt_succ 63, fun _ _ => rfl, fun none => absurd rfl none⟩, nofun, fun _ _ _ => rfl⟩
  | succ i ih =>
    obtain ⟨ends, before, later⟩ := ih (by omega)
    rw [List.range_succ, List.foldl_append]
    have apart : ∀ j < 64, j ≠ i → zigZag.getD j 0 ≠ zigZag.getD i 0 := by
      intro j below other same
      have long : j < zigZag.length := below
      have long' : i < zigZag.length := inside
      rw [List.getD_eq_getElem zigZag 0 long, List.getD_eq_getElem zigZag 0 long'] at same
      exact other ((List.Nodup.getElem_inj_iff zigZag_nodup).mp same)
    refine ⟨quantizeStep_ends floats du fdtbl inside ends (later i (Nat.le_refl i) inside), fun j below => ?_, fun j above below => ?_⟩
    · by_cases here : j = i
      · rw [here]
        exact Function.update_self _ _ _
      · exact (Function.update_of_ne (apart j (by omega) here) _ _).trans (before j (by omega))
    · exact (Function.update_of_ne (apart j below (by omega)) _ _).trans (later j (by omega) below)

theorem quantize_ends : EndsAt (quantize floats du fdtbl).1 (quantize floats du fdtbl).2 :=
  (quantize_rounds floats du fdtbl (Nat.le_refl 64)).1

/-- Each coefficient stands at its place in zigzag order. -/
theorem quantize_at {i : Nat} (inside : i < 64) :
    (quantize floats du fdtbl).1 (zigZag.getD i 0) = floats.descale (du i) (fdtbl i) :=
  (quantize_rounds floats du fdtbl (Nat.le_refl 64)).2.1 i inside

end Quantize

open Decoder (receive extend magnitude decodeAc decodeBlock)
open PrefixCode (Code decode codeOf)

/-- The word of a symbol is read back as the symbol. -/
structure Speaks (table : List BitString) (code : Code Nat) (symbol : Nat) : Prop where
  fits : (row table symbol).Fits
  reads : ∀ rest, decode code ((row table symbol).word ++ rest) = some (symbol, rest)

private theorem Agrees.speaks {table : List BitString} {nrcodes values : List Nat} (agrees : Agrees table nrcodes values) {symbol : Nat}
    (listed : ∃ entry ∈ declared nrcodes values, entry.symbol = symbol) : Speaks table (codeOf (declared nrcodes values)) symbol := by
  obtain ⟨entry, member, rfl⟩ := listed
  obtain ⟨same, below, narrow⟩ := agrees entry member
  constructor
  · rw [same]
    exact ⟨below, narrow⟩
  · intro rest
    rw [same]
    exact PrefixCode.decode_canonical (fun other member => (agrees other member).2.1) member rest

/-- The tables of a component, against the codes that its header declares. -/
structure Coder (htdc htac : List BitString) (dc ac : Code Nat) : Prop where
  difference : ∀ size < 12, Speaks htdc dc size
  coefficient : ∀ run < 16, ∀ size < 11, 0 < size → Speaks htac ac (16 * run + size)
  zeros : Speaks htac ac 0xF0
  finish : Speaks htac ac 0x00

theorem luminance : Coder ydcHt yacHt (codeOf (declared stdDcLuminanceNrcodes stdDcLuminanceValues))
    (codeOf (declared stdAcLuminanceNrcodes stdAcLuminanceValues)) where
  difference size below := by
    have listed : ∀ size < 12, ∃ entry ∈ declared stdDcLuminanceNrcodes stdDcLuminanceValues, entry.symbol = size := by decide +kernel
    exact ydcHt_agrees.speaks (listed size below)
  coefficient run below size small positive := by
    have listed : ∀ run < 16, ∀ size < 11, 0 < size →
        ∃ entry ∈ declared stdAcLuminanceNrcodes stdAcLuminanceValues, entry.symbol = 16 * run + size := by decide +kernel
    exact yacHt_agrees.speaks (listed run below size small positive)
  zeros := yacHt_agrees.speaks (by decide +kernel)
  finish := yacHt_agrees.speaks (by decide +kernel)

theorem chrominance : Coder uvdcHt uvacHt (codeOf (declared stdDcChrominanceNrcodes stdDcChrominanceValues))
    (codeOf (declared stdAcChrominanceNrcodes stdAcChrominanceValues)) where
  difference size below := by
    have listed : ∀ size < 12, ∃ entry ∈ declared stdDcChrominanceNrcodes stdDcChrominanceValues, entry.symbol = size := by
      decide +kernel
    exact uvdcHt_agrees.speaks (listed size below)
  coefficient run below size small positive := by
    have listed : ∀ run < 16, ∀ size < 11, 0 < size →
        ∃ entry ∈ declared stdAcChrominanceNrcodes stdAcChrominanceValues, entry.symbol = 16 * run + size := by decide +kernel
    exact uvacHt_agrees.speaks (listed run below size small positive)
  zeros := uvacHt_agrees.speaks (by decide +kernel)
  finish := uvacHt_agrees.speaks (by decide +kernel)

section Magnitude

private theorem receive_append (word rest : List Bool) : receive word.length (word ++ rest) = some (PrefixCode.number word, rest) := by
  rw [receive, if_pos (by rw [List.length_append]; omega), List.take_left, List.drop_left]

theorem jpegCalcBits_spec {val : Int} (set : val ≠ 0) (small : val.natAbs < 2 ^ 15) :
    0 < (jpegCalcBits val).2 ∧ (jpegCalcBits val).2 ≤ 15 ∧ 2 ^ ((jpegCalcBits val).2 - 1) ≤ val.natAbs ∧
      val.natAbs < 2 ^ (jpegCalcBits val).2 ∧
      ((jpegCalcBits val).1 : Int) = if val < 0 then val - 1 + 2 ^ (jpegCalcBits val).2 else val := by
  have nonzero : val.natAbs ≠ 0 := Int.natAbs_ne_zero.mpr set
  have low : 2 ^ Nat.log2 val.natAbs ≤ val.natAbs := Nat.log2_self_le nonzero
  have high : val.natAbs < 2 ^ (Nat.log2 val.natAbs + 1) := Nat.lt_log2_self
  have narrow : Nat.log2 val.natAbs < 15 := (Nat.log2_lt nonzero).mpr small
  refine ⟨Nat.succ_pos _, narrow, low, high, ?_⟩
  unfold jpegCalcBits
  dsimp only
  generalize Nat.log2 val.natAbs = top at low high narrow
  have bound : 2 ^ (top + 1) ≤ 2 ^ 15 := Nat.pow_le_pow_right (by decide) narrow
  generalize size : 2 ^ (top + 1) = range at high bound
  have cast : (2 : Int) ^ (top + 1) = range := by
    rw [← size]
    push_cast
    rfl
  rw [cast]
  split
  · next negative =>
    have wrapped : (val - 1) % (range : Int) = val - 1 + range := by
      rw [← Int.add_emod_right, Int.emod_eq_of_lt (by omega) (by omega)]
    rw [wrapped]
    omega
  · next positive =>
    rw [Int.emod_eq_of_lt (by omega) (by omega)]
    omega

private theorem jpegCalcBits_fits {val : Int} (set : val ≠ 0) (small : val.natAbs < 2 ^ 15) : (jpegCalcBits val).Fits := by
  obtain ⟨-, narrow, -, above, same⟩ := jpegCalcBits_spec set small
  refine ⟨?_, by omega⟩
  have cast : ((2 ^ (jpegCalcBits val).2 : Nat) : Int) = 2 ^ (jpegCalcBits val).2 := by push_cast; rfl
  generalize 2 ^ (jpegCalcBits val).2 = range at *
  rw [← cast] at same
  split at same <;> omega

theorem jpegCalcBits_narrow {val : Int} (set : val ≠ 0) {bound : Nat} (few : bound < 15) (small : val.natAbs < 2 ^ bound) :
    (jpegCalcBits val).2 < bound + 1 := by
  have tiny : val.natAbs < 2 ^ 15 := Nat.lt_of_lt_of_le small (Nat.pow_le_pow_right (by decide) (by omega))
  obtain ⟨-, -, low, -⟩ := jpegCalcBits_spec set tiny
  by_contra wide
  have : 2 ^ bound ≤ 2 ^ ((jpegCalcBits val).2 - 1) := Nat.pow_le_pow_right (by decide) (by omega)
  omega

/-- The bits of a number, behind its size, are read as the number. -/
theorem magnitude_jpegCalcBits {val : Int} (set : val ≠ 0) (small : val.natAbs < 2 ^ 15) (rest : List Bool) :
    magnitude (jpegCalcBits val).2 ((jpegCalcBits val).word ++ rest) = some (val, rest) := by
  obtain ⟨positive, -, low, high, same⟩ := jpegCalcBits_spec set small
  have below := (jpegCalcBits_fits set small).1
  have length : (jpegCalcBits val).word.length = (jpegCalcBits val).2 := PrefixCode.bits_length _ _
  have number : PrefixCode.number (jpegCalcBits val).word = (jpegCalcBits val).1 := PrefixCode.bits_number_of_lt below
  have received := receive_append (jpegCalcBits val).word rest
  rw [length, number] at received
  rw [magnitude, if_neg (Nat.ne_of_gt positive), received]
  refine congrArg some (Prod.ext ?_ rfl)
  change extend (jpegCalcBits val).1 (jpegCalcBits val).2 = val
  obtain ⟨half, size⟩ := Nat.exists_eq_succ_of_ne_zero (Nat.ne_of_gt positive)
  have cast : (2 : Int) ^ (half + 1) = ((2 ^ half : Nat) : Int) * 2 := by
    rw [pow_succ]
    push_cast
    rfl
  have double : 2 ^ (half + 1) = 2 ^ half * 2 := pow_succ 2 half
  rw [size] at low high same ⊢
  change 2 ^ half ≤ val.natAbs at low
  change val.natAbs < 2 ^ (half + 1) at high
  change ((jpegCalcBits val).1 : Int) = if val < 0 then val - 1 + 2 ^ (half + 1) else val at same
  rw [cast] at same
  rw [extend]
  change (if (jpegCalcBits val).1 < 2 ^ half then (((jpegCalcBits val).1 : Int) - 2 ^ (half + 1) + 1) else (jpegCalcBits val).1) = val
  rw [cast]
  generalize 2 ^ half = middle at *
  split at same <;> split <;> omega

end Magnitude

section Blocks
variable {htdc htac : List BitString} {dc ac : Code Nat} {duq : Nat → Int} {end0pos : Nat}

private theorem decodeAc_zeros (coder : Coder htdc htac dc ac) {count left : Nat} (enough : 16 * count ≤ left) (rest : List Bool) :
    decodeAc ac left (words (List.replicate count (row htac 0xF0)) ++ rest) =
      (decodeAc ac (left - 16 * count) rest).map fun read => (List.replicate (16 * count) 0 ++ read.1, read.2) := by
  induction count generalizing left with
  | zero =>
    change decodeAc ac left rest = _
    cases decodeAc ac (left - 16 * 0) rest <;> simp_all
  | succ count ih =>
    rw [List.replicate_succ, words_cons, List.append_assoc, decodeAc, if_neg (by omega), coder.zeros.reads]
    change (if 16 ≤ left then _ else _) = _
    rw [if_pos (by omega), ih (by omega), Option.map_map, Nat.sub_sub, Nat.add_comm 16]
    refine congrArg (fun f => Option.map f _) (funext fun read => ?_)
    rw [Nat.mul_add 16 count 1, Nat.add_comm _ (16 * 1), List.replicate_add, List.append_assoc]
    rfl

theorem decodeAc_runBits (coder : Coder htdc htac dc ac) {run left : Nat} (inside : run < left) {value : Int} (set : value ≠ 0)
    (small : value.natAbs ≤ 1023) (rest : List Bool) :
    decodeAc ac left (words (runBits htac run value) ++ rest) =
      (decodeAc ac (left - run - 1) rest).map fun read => (List.replicate run 0 ++ value :: read.1, read.2) := by
  have tiny : value.natAbs < 2 ^ 15 := by omega
  have positive := (jpegCalcBits_spec set tiny).1
  have ten := @jpegCalcBits_narrow value set 10 (by decide) (by omega)
  have single : ∀ few < 16, ∀ left, few < left →
      decodeAc ac left (words [row htac ((few <<< 4) + (jpegCalcBits value).2), jpegCalcBits value] ++ rest) =
        (decodeAc ac (left - few - 1) rest).map fun read => (List.replicate few 0 ++ value :: read.1, read.2) := by
    intro few small left inside
    have symbol : (few <<< 4) + (jpegCalcBits value).2 = 16 * few + (jpegCalcBits value).2 := by rw [Nat.shiftLeft_eq]; omega
    have size : (16 * few + (jpegCalcBits value).2) % 16 = (jpegCalcBits value).2 := by omega
    have zeros : (16 * few + (jpegCalcBits value).2) / 16 = few := by omega
    rw [symbol, words_cons, words_cons, List.append_assoc, List.append_assoc, decodeAc, if_neg (by omega),
      (coder.coefficient few small _ ten positive).reads]
    dsimp only
    rw [size, zeros, if_neg (by omega), if_pos inside, magnitude_jpegCalcBits set tiny]
    rfl
  unfold runBits
  dsimp only
  split
  · have high : run >>> 4 = run / 16 := Nat.shiftRight_eq_div_pow run 4
    have low : run &&& 15 = run % 16 := Nat.and_two_pow_sub_one_eq_mod run 4
    rw [high, low, words_append, List.append_assoc, decodeAc_zeros coder (by omega), single _ (by omega) _ (by omega), Option.map_map,
      Nat.sub_sub left, show 16 * (run / 16) + run % 16 = run by omega]
    refine congrArg (fun f => Option.map f _) (funext fun read => ?_)
    change (List.replicate (16 * (run / 16)) 0 ++ (List.replicate (run % 16) 0 ++ _), _) = _
    rw [← List.append_assoc, ← List.replicate_add, show 16 * (run / 16) + run % 16 = run by omega]
  · exact single run (by omega) left inside

theorem skipZeros_spec {rounds i : Nat} (before : i ≤ end0pos) (last : duq end0pos ≠ 0) (enough : end0pos < i + rounds) :
    i ≤ skipZeros duq end0pos rounds i ∧ skipZeros duq end0pos rounds i ≤ end0pos ∧ duq (skipZeros duq end0pos rounds i) ≠ 0 ∧
      ∀ k, i ≤ k → k < skipZeros duq end0pos rounds i → duq k = 0 := by
  induction rounds generalizing i with
  | zero => omega
  | succ rounds ih =>
    unfold skipZeros
    split
    · next zero =>
      have different : i ≠ end0pos := by
        rintro rfl
        exact last zero.1
      obtain ⟨above, below, set, zeros⟩ := @ih (i + 1) (by omega) (by omega)
      refine ⟨by omega, below, set, fun k low high => ?_⟩
      by_cases here : k = i
      · rw [here]
        exact zero.1
      · exact zeros k (by omega) high
    · next stop =>
      refine ⟨Nat.le_refl i, before, fun zero => stop ⟨zero, before⟩, fun k above below => ?_⟩
      omega

private theorem map_range'_zeros {i count : Nat} (zeros : ∀ k, i ≤ k → k < i + count → duq k = 0) :
    (List.range' i count).map duq = List.replicate count 0 := by
  refine List.eq_replicate_iff.mpr ⟨by simp, fun value member => ?_⟩
  obtain ⟨k, inside, rfl⟩ := List.mem_map.mp member
  obtain ⟨above, below⟩ := List.mem_range'_1.mp inside
  exact zeros k above below

private theorem decodeAc_acBits (coder : Coder htdc htac dc ac) (ends : EndsAt duq end0pos) (some_ : end0pos ≠ 0)
    (small : ∀ k, (duq k).natAbs ≤ 1023 ∨ k = 0) {rounds i : Nat} (positive : 0 < i) (before : i ≤ end0pos + 1)
    (enough : end0pos < i + rounds) (rest : List Bool) :
    decodeAc ac (64 - i) (words (acBits htac duq end0pos rounds i ++ if end0pos ≠ 63 then [row htac 0x00] else []) ++ rest) =
      some ((List.range' i (64 - i)).map duq, rest) := by
  have inside := ends.inside
  have stop : ∀ i, i = end0pos + 1 → decodeAc ac (64 - i) (words (if end0pos ≠ 63 then [row htac 0x00] else []) ++ rest) =
      some ((List.range' i (64 - i)).map duq, rest) := by
    rintro i rfl
    rw [map_range'_zeros fun k above _ => ends.behind k above]
    split
    · next more =>
      rw [words_cons, List.append_assoc, decodeAc, if_neg (by omega), coder.finish.reads]
      rfl
    · next full =>
      have none : 64 - (end0pos + 1) = 0 := by omega
      rw [none, decodeAc, if_pos rfl]
      rfl
  induction rounds generalizing i with
  | zero =>
    change decodeAc ac (64 - i) (words ([] ++ _) ++ rest) = _
    rw [List.nil_append]
    exact stop i (by omega)
  | succ rounds ih =>
    unfold acBits
    split
    · next more =>
      obtain ⟨above, below, set, zeros⟩ := @skipZeros_spec duq end0pos 64 i more (ends.last some_) (by omega)
      dsimp only
      generalize skipZeros duq end0pos 64 i = next at above below set zeros ⊢
      have bound : (duq next).natAbs ≤ 1023 := (small next).resolve_right (by omega)
      rw [List.append_assoc, words_append, List.append_assoc, decodeAc_runBits coder (by omega) set bound,
        show 64 - i - (next - i) - 1 = 64 - (next + 1) by omega, ih (by omega) (by omega) (by omega)]
      refine congrArg some (Prod.ext ?_ rfl)
      change List.replicate (next - i) 0 ++ duq next :: (List.range' (next + 1) (64 - (next + 1))).map duq = _
      have split : 64 - i = (next - i) + (1 + (64 - (next + 1))) := by omega
      rw [split, ← List.range'_append_1, List.map_append, map_range'_zeros fun k low high => zeros k low (by omega),
        show i + (next - i) = next by omega, Nat.add_comm 1, List.range'_succ, List.map_cons]
    · rw [List.nil_append]
      exact stop i (by omega)

/-- The differences and coefficients that the tables have words for. -/
def Codable (duq : Nat → Int) (dc : Int) : Prop :=
  (duq 0 - dc).natAbs ≤ 2047 ∧ ∀ k, 0 < k → (duq k).natAbs ≤ 1023

theorem decodeBlock_duBits (coder : Coder htdc htac dc ac) (ends : EndsAt duq end0pos) {predicted : Int} (codable : Codable duq predicted)
    (rest : List Bool) :
    decodeBlock dc ac predicted (words (duBits htdc htac duq end0pos predicted) ++ rest) = some ((List.range 64).map duq, rest) := by
  obtain ⟨near, small⟩ := codable
  have coefficients : ∀ rest, decodeAc ac 63
      (words (if end0pos = 0 then [row htac 0x00] else acBits htac duq end0pos 64 1 ++ if end0pos ≠ 63 then [row htac 0x00] else []) ++
        rest) = some ((List.range' 1 63).map duq, rest) := by
    intro rest
    split
    · next flat =>
      rw [words_cons, List.append_assoc, decodeAc, if_neg (by decide), coder.finish.reads,
        map_range'_zeros fun k above _ => ends.behind k (by omega)]
      rfl
    · next some_ =>
      have inside := ends.inside
      exact @decodeAc_acBits htdc htac dc ac duq end0pos coder ends some_
        (fun k => (Nat.eq_zero_or_pos k).symm.imp_left (small k)) 64 1 (by decide) (by omega) (by omega) rest
  have whole : (List.range 64).map duq = duq 0 :: (List.range' 1 63).map duq := by
    rw [List.range_eq_range', List.range'_succ, List.map_cons]
  rw [duBits, words_append, List.append_assoc, whole]
  generalize duq 0 = first at near ⊢
  by_cases same : first - predicted = 0
  · have equal : first = predicted := by omega
    rw [decodeBlock, dcBits, if_pos same, words_cons, List.append_assoc, (coder.difference 0 (by decide)).reads]
    change (decodeAc ac 63 _).map _ = _
    rw [words, List.flatMap_nil, List.nil_append, coefficients, equal]
    change some ((predicted + 0) :: _, _) = _
    rw [Int.add_zero]
  · have tiny : (first - predicted).natAbs < 2 ^ 15 := by omega
    have twelve := @jpegCalcBits_narrow (first - predicted) same 11 (by decide) (by omega)
    rw [decodeBlock, dcBits, if_neg same, words_cons, words_cons, List.append_assoc, List.append_assoc,
      (coder.difference _ twelve).reads]
    dsimp only
    rw [magnitude_jpegCalcBits same tiny]
    change (decodeAc ac 63 _).map _ = _
    rw [words, List.flatMap_nil, List.nil_append, coefficients]
    change some ((predicted + (first - predicted)) :: _, _) = _
    have back : predicted + (first - predicted) = first := by omega
    rw [back]

private theorem runBits_fits (coder : Coder htdc htac dc ac) (run : Nat) {value : Int} (set : value ≠ 0) (small : value.natAbs ≤ 1023) :
    ∀ bs ∈ runBits htac run value, bs.Fits := by
  have tiny : value.natAbs < 2 ^ 15 := by omega
  have pair : ∀ few < 16, ∀ bs ∈ [row htac ((few <<< 4) + (jpegCalcBits value).2), jpegCalcBits value], bs.Fits := by
    intro few below bs member
    have symbol : (few <<< 4) + (jpegCalcBits value).2 = 16 * few + (jpegCalcBits value).2 := by rw [Nat.shiftLeft_eq]; omega
    rcases List.mem_cons.mp member with rfl | other
    · rw [symbol]
      exact (coder.coefficient few below _ (@jpegCalcBits_narrow value set 10 (by decide) (by omega)) (jpegCalcBits_spec set tiny).1).fits
    · cases List.mem_singleton.mp other
      exact jpegCalcBits_fits set tiny
  intro bs member
  unfold runBits at member
  dsimp only at member
  split at member
  · rcases List.mem_append.mp member with zeros | last
    · cases List.eq_of_mem_replicate zeros
      exact coder.zeros.fits
    · have low : run &&& 15 = run % 16 := Nat.and_two_pow_sub_one_eq_mod run 4
      exact pair _ (by omega) bs last
  · exact pair _ (by omega) bs member

private theorem acBits_fits (coder : Coder htdc htac dc ac) (ends : EndsAt duq end0pos) (some_ : end0pos ≠ 0)
    (small : ∀ k, 0 < k → (duq k).natAbs ≤ 1023) {rounds i : Nat} (positive : 0 < i) (enough : end0pos < i + rounds) :
    ∀ bs ∈ acBits htac duq end0pos rounds i, bs.Fits := by
  induction rounds generalizing i with
  | zero => exact fun bs member => absurd member List.not_mem_nil
  | succ rounds ih =>
    have inside := ends.inside
    intro bs member
    unfold acBits at member
    split at member
    · next more =>
      obtain ⟨above, -, set, -⟩ := @skipZeros_spec duq end0pos 64 i more (ends.last some_) (by omega)
      rcases List.mem_append.mp member with first | later
      · exact runBits_fits coder _ set (small _ (by omega)) bs first
      · exact ih (Nat.succ_pos _) (by omega) bs later
    · exact absurd member List.not_mem_nil

theorem duBits_fits (coder : Coder htdc htac dc ac) (ends : EndsAt duq end0pos) {predicted : Int} (codable : Codable duq predicted) :
    ∀ bs ∈ duBits htdc htac duq end0pos predicted, bs.Fits := by
  obtain ⟨near, small⟩ := codable
  intro bs member
  rcases List.mem_append.mp member with first | later
  · unfold dcBits at first
    split at first
    · cases List.mem_singleton.mp first
      exact (coder.difference 0 (by decide)).fits
    · next set =>
      have tiny : (duq 0 - predicted).natAbs < 2 ^ 15 := by omega
      rcases List.mem_cons.mp first with rfl | other
      · exact (coder.difference _ (@jpegCalcBits_narrow _ set 11 (by decide) (by omega))).fits
      · cases List.mem_singleton.mp other
        exact jpegCalcBits_fits set tiny
  · split at later
    · cases List.mem_singleton.mp later
      exact coder.finish.fits
    · next some_ =>
      have inside := ends.inside
      rcases List.mem_append.mp later with coefficient | last
      · exact acBits_fits coder ends some_ small (by decide) (by omega) bs coefficient
      · split at last
        · cases List.mem_singleton.mp last
          exact coder.finish.fits
        · exact absurd last List.not_mem_nil

end Blocks

end ArduinoK210.Jpeg
