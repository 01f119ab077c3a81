import ArduinoK210.Lib.Nor
import ArduinoK210.Lib.Positional

/-! The text that `integer_text` writes for a value of any integer type, in any radix. -/

namespace ArduinoK210.Streams

open Nor (put slice)
open Positional (Notation)

/-- An integer type: its `sizeof`, and whether it is signed. -/
structure IntegerType where
  size : Nat
  signed : Bool
  positive : 0 < size
  fits : size ≤ 8

namespace IntegerType

def bits (type : IntegerType) : Nat := 8 * type.size

abbrev Word (type : IntegerType) := BitVec type.bits

def value (type : IntegerType) (word : type.Word) : Int := if type.signed then word.toInt else word.toNat

def long : IntegerType := ⟨8, true, by decide, by decide⟩

def ofLong (value : Int64) : long.Word := value.toBitVec

private theorem value_ofLong (number : Int64) : long.value (ofLong number) = number.toInt := rfl

end IntegerType

def digitChar (digit : Nat) : UInt8 := UInt8.ofNat (if digit < 10 then 48 + digit else 65 + digit - 10)

/-- The loop over the digits. `reversed` is a stack with its last digit on top, and a push into a full one has no result. -/
def reverseDigits (radix : Nat) : (room magnitude : Nat) → (reversed : List UInt8) → Option (List UInt8)
  | 0, _, _ => none
  | room + 1, magnitude, reversed =>
      let digit := magnitude % radix
      let reversed := digitChar digit :: reversed
      let magnitude := magnitude / radix
      if magnitude ≠ 0 then reverseDigits radix room magnitude reversed else some reversed

/-- `while (count) output[length++] = reversed[--count]`. -/
def copyDigits (output : Nat → UInt8) (length : Nat) : (reversed : List UInt8) → Nat × (Nat → UInt8)
  | [] => (length, output)
  | digit :: reversed => copyDigits (put output length [digit]) (length + 1) reversed

def radixOf (radix : UInt32) : Nat := if radix < 2 ∨ 36 < radix then 10 else radix.toNat

def integerText (type : IntegerType) (output : Nat → UInt8) (word : type.Word) (radix : UInt32) : Option (Nat × (Nat → UInt8)) :=
  let radix := radixOf radix
  let negative : Bool := type.signed && decide (type.value word < 0) && decide (radix = 10)
  let magnitude : type.Word := if negative then 0 - word else word
  match reverseDigits radix type.bits magnitude.toNat [] with
  | none => none
  | some reversed =>
      let output := if negative then put output 0 [45] else output
      let (length, output) := copyDigits output (if negative then 1 else 0) reversed
      some (length, put output length [0])

/-- `Print::number`, by what it hands to `write`: one byte for radix 0, and a text in `text` otherwise. -/
def number (type : IntegerType) (text : Nat → UInt8) (word : type.Word) (radix : UInt32) : Option (List UInt8) :=
  if radix = 0 then some [UInt8.ofBitVec (word.setWidth 8)]
  else (integerText type text word radix).map fun written => slice written.2 0 written.1

/-- `Print::print(long value, int base)`. -/
def print (text : Nat → UInt8) (value : Int64) (base : UInt32) : Option (List UInt8) :=
  number .long text (IntegerType.ofLong value) base

def DEC : UInt32 := 10

/-- What stands before the digits: the sign of a negative value in radix 10. -/
def signOf (type : IntegerType) (word : type.Word) (radix : Nat) : List UInt8 :=
  if radix = 10 ∧ type.value word < 0 then [45] else []

/-- What the digits stand for: the magnitude in radix 10, and the bits in two's complement otherwise. -/
def magnitudeOf (type : IntegerType) (word : type.Word) (radix : Nat) : Nat :=
  if radix = 10 then (type.value word).natAbs else word.toNat

namespace IntegerType
variable {type : IntegerType} {word : type.Word}

theorem value_negative (negative : type.value word < 0) : type.signed = true := by
  cases sign : type.signed with
  | true => rfl
  | false =>
    rw [value, sign] at negative
    exact absurd negative (Int.not_lt.mpr (Int.natCast_nonneg _))

private theorem bits_pos (type : IntegerType) : 0 < type.bits := Nat.mul_pos (by decide) type.positive

theorem negated_toNat (negative : type.value word < 0) : (0 - word).toNat = (type.value word).natAbs := by
  have signed := value_negative negative
  have value : type.value word = word.toInt := by rw [IntegerType.value, if_pos signed]
  rw [value] at negative ⊢
  have below : (0 - word).toNat = (2 ^ type.bits - word.toNat) % 2 ^ type.bits := by
    rw [BitVec.toNat_sub]
    simp
  have bound := word.isLt
  have toInt := BitVec.toInt_eq_toNat_cond word
  by_cases small : 2 * word.toNat < 2 ^ type.bits
  · rw [toInt, if_pos small] at negative
    omega
  · rw [toInt, if_neg small] at negative ⊢
    have positive : 0 < word.toNat := by omega
    rw [below, Nat.mod_eq_of_lt (by omega)]
    omega

theorem positive_toNat (positive : ¬type.value word < 0) : word.toNat = (type.value word).natAbs := by
  unfold value at positive ⊢
  split at positive
  next signed =>
    rw [if_pos signed]
    have bound := word.isLt
    have toInt := BitVec.toInt_eq_toNat_cond word
    by_cases small : 2 * word.toNat < 2 ^ type.bits
    · rw [toInt, if_pos small]
      rfl
    · rw [toInt, if_neg small] at positive
      omega
  next unsigned =>
    rw [if_neg unsigned]
    rfl

end IntegerType

private theorem copyDigits_eq (output : Nat → UInt8) (length : Nat) (reversed : List UInt8) :
    copyDigits output length reversed = (length + reversed.length, put output length reversed) := by
  induction reversed generalizing output length with
  | nil => rw [copyDigits, Nor.put_nil, List.length_nil, Nat.add_zero]
  | cons digit reversed ih =>
    have joined := Nor.put_append output length [digit] reversed
    rw [copyDigits, ih, List.length_cons, Nat.add_assoc, Nat.add_comm 1]
    exact congrArg (Prod.mk _) joined.symm

/-- Room for the bits of a number is room for its digits. -/
theorem reverseDigits_spec {radix room magnitude : Nat} (two : 2 ≤ radix) (one : 0 < room) (fits : magnitude < 2 ^ room)
    (reversed : List UInt8) : ∃ digits, Notation radix magnitude digits ∧
      reverseDigits radix room magnitude reversed = some (digits.map digitChar ++ reversed) := by
  induction room generalizing magnitude reversed with
  | zero => exact absurd one (Nat.lt_irrefl 0)
  | succ room ih =>
    rw [reverseDigits]
    by_cases ends : magnitude / radix = 0
    · have small : magnitude < radix := (Nat.div_eq_zero_iff.mp ends).resolve_left (by omega)
      refine ⟨[magnitude], Notation.single small, ?_⟩
      rw [Nat.mod_eq_of_lt small, if_neg (not_not_intro ends)]
      rfl
    · have large : radix ≤ magnitude := by
        by_contra small
        exact ends (Nat.div_eq_of_lt (Nat.not_le.mp small))
      have less : magnitude / radix < 2 ^ room :=
        calc magnitude / radix ≤ magnitude / 2 := Nat.div_le_div_left two (by decide)
          _ < 2 ^ room := Nat.div_lt_of_lt_mul (by rwa [Nat.mul_comm, ← Nat.pow_succ])
      have more : 0 < room := by
        rcases Nat.eq_zero_or_pos room with rfl | positive
        · exact absurd (Nat.lt_one_iff.mp less) ends
        · exact positive
      obtain ⟨digits, written, same⟩ := ih more less (digitChar (magnitude % radix) :: reversed)
      refine ⟨digits ++ [magnitude % radix], written.push two large, ?_⟩
      rw [if_pos ends, same, List.map_append, List.append_assoc]
      rfl

section
variable (type : IntegerType) (word : type.Word) (radix : Nat)

private theorem negative_eq :
    (type.signed && decide (type.value word < 0) && decide (radix = 10)) = decide (radix = 10 ∧ type.value word < 0) := by
  by_cases negative : type.value word < 0
  · rw [type.value_negative negative, decide_eq_true negative]
    simp [negative]
  · simp [negative]

private theorem magnitude_toNat :
    (if radix = 10 ∧ type.value word < 0 then 0 - word else word).toNat = magnitudeOf type word radix := by
  unfold magnitudeOf
  by_cases ten : radix = 10
  · rw [if_pos ten]
    by_cases negative : type.value word < 0
    · rw [if_pos ⟨ten, negative⟩]
      exact type.negated_toNat negative
    · rw [if_neg fun both => negative both.2]
      exact type.positive_toNat negative
  · rw [if_neg ten, if_neg fun both => ten both.1]

/-- What `integer_text` leaves in `output`: the text, its end, and nothing else. -/
structure Written (output : Nat → UInt8) (count : Nat) (final : Nat → UInt8) (digits : List Nat) : Prop where
  positional : Notation radix (magnitudeOf type word radix) digits
  length : count = (signOf type word radix ++ digits.map digitChar).length
  output : final = put output 0 (signOf type word radix ++ digits.map digitChar ++ [0])
  short : count ≤ 65

variable {type word radix}

theorem Written.text {output final : Nat → UInt8} {count : Nat} {digits : List Nat}
    (written : Written type word radix output count final digits) :
    slice final 0 count = signOf type word radix ++ digits.map digitChar := by
  rw [written.output, written.length, Nor.put_append, Nat.zero_add,
    Memory.slice_put_apart _ (.inl (Nat.le_of_eq (Nat.zero_add _))), Memory.slice_put]

private theorem signOf_ten : signOf type word 10 = if type.value word < 0 then [45] else [] := by
  simp only [signOf, true_and]

private theorem magnitudeOf_ten : magnitudeOf type word 10 = (type.value word).natAbs := if_pos rfl

theorem text_short {digits : List Nat} (two : 2 ≤ radix) (written : Notation radix (magnitudeOf type word radix) digits) :
    (signOf type word radix ++ digits.map digitChar).length ≤ 65 := by
  have fits : magnitudeOf type word radix < radix ^ type.bits := by
    rw [← magnitude_toNat]
    exact Nat.lt_of_lt_of_le (BitVec.isLt _) (Nat.pow_le_pow_left two _)
  have few : digits.length ≤ 8 * type.size := written.length_le two type.bits_pos fits
  have size := type.fits
  have sign : (signOf type word radix).length ≤ 1 := by
    unfold signOf
    split <;> simp
  rw [List.length_append, List.length_map]
  omega

end

theorem integerText_written (type : IntegerType) (output : Nat → UInt8) (word : type.Word) (radix : UInt32) (two : 2 ≤ radixOf radix) :
    ∃ count final digits, integerText type output word radix = some (count, final) ∧
      Written type word (radixOf radix) output count final digits := by
  unfold integerText
  generalize radixOf radix = radix at two ⊢
  have fits := BitVec.isLt (if radix = 10 ∧ type.value word < 0 then 0 - word else word)
  obtain ⟨digits, written, reversed⟩ := reverseDigits_spec two type.bits_pos fits []
  have places : (if radix = 10 ∧ type.value word < 0 then 1 else 0) = (signOf type word radix).length := by
    unfold signOf
    split <;> rfl
  have minus : (if radix = 10 ∧ type.value word < 0 then put output 0 [45] else output) = put output 0 (signOf type word radix) := by
    unfold signOf
    split
    · rfl
    · exact (Nor.put_nil output 0).symm
  dsimp only
  rw [negative_eq]
  simp only [decide_eq_true_eq]
  rw [reversed, minus, places]
  dsimp only
  rw [copyDigits_eq, List.append_nil]
  rw [magnitude_toNat] at written
  refine ⟨_, _, digits, rfl, written, ?_, ?_, ?_⟩
  · rw [List.length_append]
  · rw [Nor.put_append, Nor.put_append, Nat.zero_add, List.length_append, Nat.zero_add]
  · rw [← List.length_append]
    exact text_short two written

theorem radixOf_two (radix : UInt32) : 2 ≤ radixOf radix := by
  unfold radixOf
  split
  next => decide
  next inside =>
    have least : ¬radix < 2 := fun small => inside (.inl small)
    exact UInt32.le_iff_toNat_le.mp (UInt32.not_lt.mp least)

/-- `print` writes the sign and the decimal digits of a value. -/
theorem print_text (text : Nat → UInt8) (value : Int64) : ∃ digits, Notation 10 value.toInt.natAbs digits ∧
    print text value DEC = some ((if value.toInt < 0 then [45] else []) ++ digits.map digitChar) := by
  obtain ⟨count, final, digits, done, written⟩ := integerText_written .long text (IntegerType.ofLong value) DEC (radixOf_two DEC)
  have ten : radixOf DEC = 10 := by decide
  rw [ten] at written
  have positional := written.positional
  rw [magnitudeOf_ten, IntegerType.value_ofLong] at positional
  refine ⟨digits, positional, ?_⟩
  rw [print, number, if_neg (by decide), done, Option.map_some, written.text, signOf_ten, IntegerType.value_ofLong]

end ArduinoK210.Streams
