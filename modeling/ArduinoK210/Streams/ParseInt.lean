import ArduinoK210.Streams.IntegerText
import ArduinoK210.Streams.Stream

/-! What `parseInt` reads from a stream: the bytes that it skips, a sign, and digits whose value it clamps. -/

namespace ArduinoK210.Streams

open Positional (horner saturate)
open Text (isspace)

def begins (value : UInt8) : Bool := isDigit value || value == 45

def skips : LookaheadMode → UInt8 → Bool
  | .skipAll, value => !begins value
  | .skipNone, _ => false
  | .skipWhitespace, value => isspace value

/-- The bytes behind the sign that belong to a number. -/
def belongs (ignore value : UInt8) : Bool := isDigit value || value == ignore

def digitsOf (taken : List UInt8) : List Nat := (taken.filter isDigit).map fun value => value.toNat - 48

/-- How a stream falls apart under `parseInt`: what is skipped, a minus sign, the digits and ignored bytes, and what is left. -/
inductive Reading (mode : LookaheadMode) (ignore : UInt8) : Stream → (skipped minus taken rest : List UInt8) → Prop where
  | nothing {skipped rest : List UInt8} : (∀ value ∈ skipped, skips mode value = true) →
      (∀ value ∈ rest.head?, skips mode value = false ∧ begins value = false) →
      Reading mode ignore (skipped ++ rest) skipped [] [] rest
  | positive {skipped taken rest : List UInt8} {first : UInt8} : (∀ value ∈ skipped, skips mode value = true) →
      isDigit first = true → (∀ value ∈ taken, belongs ignore value = true) → (∀ value ∈ rest.head?, belongs ignore value = false) →
      Reading mode ignore (skipped ++ first :: (taken ++ rest)) skipped [] (first :: taken) rest
  | negative {skipped taken rest : List UInt8} : (∀ value ∈ skipped, skips mode value = true) →
      (∀ value ∈ taken, belongs ignore value = true) → (∀ value ∈ rest.head?, belongs ignore value = false) →
      Reading mode ignore (skipped ++ 45 :: (taken ++ rest)) skipped [45] taken rest

def clamped (minus taken : List UInt8) : Int :=
  if minus = [] then min (horner 10 0 (digitsOf taken)) (2 ^ 63 - 1) else max (-(horner 10 0 (digitsOf taken) : Int)) (-2 ^ 63)

private theorem isDigit_iff (value : UInt8) : isDigit value = true ↔ 48 ≤ value.toNat ∧ value.toNat ≤ 57 := by
  rw [isDigit, Bool.and_eq_true, decide_eq_true_eq, decide_eq_true_eq, UInt8.le_iff_toNat_le, UInt8.le_iff_toNat_le]
  rfl

private theorem digit_toNat {value : UInt8} (digit : isDigit value = true) : (value - 48).toUInt64.toNat = value.toNat - 48 := by
  have bounds := (isDigit_iff value).mp digit
  have least : (48 : UInt8) ≤ value := UInt8.le_iff_toNat_le.mpr bounds.1
  rw [UInt8.toNat_toUInt64, UInt8.toNat_sub_of_le _ _ least]
  rfl

private theorem digitsOf_cons_digit {value : UInt8} (digit : isDigit value = true) (taken : List UInt8) :
    digitsOf (value :: taken) = (value.toNat - 48) :: digitsOf taken := by
  rw [digitsOf, List.filter_cons_of_pos digit]
  rfl

private theorem digitsOf_cons_other {value : UInt8} (other : isDigit value = false) (taken : List UInt8) :
    digitsOf (value :: taken) = digitsOf taken := by
  rw [digitsOf, List.filter_cons_of_neg (Bool.eq_false_iff.mp other)]
  rfl

private theorem digitsOf_lt {taken : List UInt8} : ∀ digit ∈ digitsOf taken, digit ≤ 9 := by
  intro digit member
  obtain ⟨value, kept, rfl⟩ := List.mem_map.mp member
  have bounds := (isDigit_iff value).mp (List.mem_filter.mp kept).2
  omega

structure Limit (limit : UInt64) : Prop where
  nine : 9 ≤ limit.toNat
  most : limit.toNat ≤ 2 ^ 63

section
variable {limit result : UInt64}

private theorem accumulate_toNat (bounds : Limit limit) (inside : result.toNat ≤ limit.toNat) {value : UInt8} (digit : isDigit value = true) :
    (accumulate limit result value).toNat = if (limit.toNat - (value.toNat - 48)) / 10 < result.toNat then limit.toNat
      else result.toNat * 10 + (value.toNat - 48) := by
  have nine := bounds.nine
  have most := bounds.most
  have digits := (isDigit_iff value).mp digit
  have same := digit_toNat digit
  have below : (value - 48).toUInt64 ≤ limit := UInt64.le_iff_toNat_le.mpr (by omega)
  have quotient : ((limit - (value - 48).toUInt64) / 10).toNat = (limit.toNat - (value.toNat - 48)) / 10 := by
    rw [UInt64.toNat_div, UInt64.toNat_sub_of_le _ _ below, same]
    rfl
  unfold accumulate
  dsimp only
  by_cases leaves : (limit.toNat - (value.toNat - 48)) / 10 < result.toNat
  · have more : (limit - (value - 48).toUInt64) / 10 < result := UInt64.lt_iff_toNat_lt.mpr (by rwa [quotient])
    rw [if_pos leaves, if_pos more]
  · have fewer : ¬result > (limit - (value - 48).toUInt64) / 10 := by
      intro more
      rw [gt_iff_lt, UInt64.lt_iff_toNat_lt, quotient] at more
      exact leaves more
    rw [if_neg leaves, if_neg fewer, UInt64.toNat_add, UInt64.toNat_mul, same]
    have ten : (10 : UInt64).toNat = 10 := rfl
    rw [ten]
    omega

private theorem accumulate_le (bounds : Limit limit) (inside : result.toNat ≤ limit.toNat) {value : UInt8} (digit : isDigit value = true) :
    (accumulate limit result value).toNat ≤ limit.toNat := by
  have digits := (isDigit_iff value).mp digit
  have nine := bounds.nine
  rw [accumulate_toNat bounds inside digit]
  split <;> omega

/-- The loop takes the bytes that belong to the number, and comes to their digits with the limit. -/
theorem parseDigits_spec (bounds : Limit limit) (inside : result.toNat ≤ limit.toNat) (ignore : UInt8) (stream : Stream) :
    ∃ taken rest final, parseDigits ignore limit result stream = (final, rest) ∧ stream = taken ++ rest ∧
      (∀ value ∈ taken, belongs ignore value = true) ∧ (∀ value ∈ rest.head?, belongs ignore value = false) ∧
      final.toNat = saturate 10 limit.toNat result.toNat (digitsOf taken) := by
  induction stream generalizing result with
  | nil => exact ⟨[], [], result, rfl, rfl, nofun, nofun, rfl⟩
  | cons value stream ih =>
    rw [parseDigits]
    cases digit : isDigit value with
    | true =>
      obtain ⟨taken, rest, final, loop, rfl, all, ends, total⟩ := ih (accumulate_le bounds inside digit)
      refine ⟨value :: taken, rest, final, loop, rfl, ?_, ends, ?_⟩
      · intro other member
        rcases List.mem_cons.mp member with rfl | member
        · rw [belongs, digit, Bool.true_or]
        · exact all other member
      · rw [total, digitsOf_cons_digit digit, accumulate_toNat bounds inside digit]
        rfl
    | false =>
      by_cases ignored : value = ignore
      · obtain ⟨taken, rest, final, loop, rfl, all, ends, total⟩ := ih inside
        refine ⟨value :: taken, rest, final, ?_, rfl, ?_, ends, ?_⟩
        · rw [if_neg Bool.false_ne_true, if_neg (by simp [ignored])]
          exact loop
        · intro other member
          rcases List.mem_cons.mp member with rfl | member
          · rw [belongs, ignored, beq_self_eq_true, Bool.or_true]
          · exact all other member
        · rw [total, digitsOf_cons_other digit]
      · refine ⟨[], value :: stream, result, ?_, rfl, nofun, ?_, rfl⟩
        · rw [if_neg Bool.false_ne_true, if_pos (by simp [ignored])]
        · rintro _ ⟨⟩
          rw [belongs, digit, Bool.false_or]
          exact beq_eq_false_iff_ne.mpr ignored

end

/-- Among the bytes that begin no number, the search stops at those that the mode does not pass over. -/
theorem stops_eq (mode : LookaheadMode) {value : UInt8} (other : begins value = false) :
    (mode == .skipNone || (mode == .skipWhitespace && !isspace value)) = !skips mode value := by
  cases mode with
  | skipAll =>
    rw [skips, other]
    rfl
  | skipNone => rfl
  | skipWhitespace => rfl

/-- A number stands behind what the search passes over, or none does. -/
theorem peekNextDigit_spec (mode : LookaheadMode) (stream : Stream) :
    ∃ skipped rest answer, peekNextDigit mode false stream = (answer, rest) ∧ stream = skipped ++ rest ∧
      (∀ value ∈ skipped, skips mode value = true) ∧
      ((answer = none ∧ ∀ value ∈ rest.head?, skips mode value = false ∧ begins value = false) ∨
        ∃ first more, answer = some first ∧ rest = first :: more ∧ begins first = true) := by
  induction stream with
  | nil => exact ⟨[], [], none, rfl, rfl, nofun, .inl ⟨rfl, nofun⟩⟩
  | cons value stream ih =>
    rw [peekNextDigit, Bool.false_and, Bool.or_false]
    cases starts : begins value with
    | true =>
      rw [if_pos (show (isDigit value || value == 45) = true from starts)]
      exact ⟨[], value :: stream, some value, rfl, rfl, nofun, .inr ⟨value, stream, rfl, rfl, starts⟩⟩
    | false =>
      have other : ¬(isDigit value || value == 45) = true := Bool.eq_false_iff.mp starts
      rw [if_neg other, stops_eq mode starts]
      cases passed : skips mode value with
      | false =>
        refine ⟨[], value :: stream, none, rfl, rfl, nofun, .inl ⟨rfl, ?_⟩⟩
        rintro _ ⟨⟩
        exact ⟨passed, starts⟩
      | true =>
        obtain ⟨skipped, rest, answer, search, rfl, all, found⟩ := ih
        refine ⟨value :: skipped, rest, answer, search, rfl, ?_, found⟩
        intro byte member
        rcases List.mem_cons.mp member with rfl | member
        · exact passed
        · exact all byte member

private theorem limit_positive : Limit LONG_MAX := ⟨by decide, by decide⟩

private theorem limit_negative : Limit (LONG_MAX + 1) := ⟨by decide, by decide⟩

/-- The digits behind a sign come to their value, clamped once. -/
theorem parseDigits_clamps {limit : UInt64} (bounds : Limit limit) (ignore : UInt8) (stream : Stream) :
    ∃ taken rest final, parseDigits ignore limit 0 stream = (final, rest) ∧ stream = taken ++ rest ∧
      (∀ value ∈ taken, belongs ignore value = true) ∧ (∀ value ∈ rest.head?, belongs ignore value = false) ∧
      final.toNat = min limit.toNat (horner 10 0 (digitsOf taken)) := by
  have nine := bounds.nine
  have inside : (0 : UInt64).toNat ≤ limit.toNat := Nat.zero_le _
  obtain ⟨taken, rest, final, loop, whole, all, ends, total⟩ := parseDigits_spec bounds inside ignore stream
  have room : ∀ digit ∈ digitsOf taken, digit ≤ limit.toNat := fun digit member => Nat.le_trans (digitsOf_lt digit member) nine
  have once := @Positional.saturate_eq 10 limit.toNat (by decide) (by omega) _ room 0
  rw [Nat.min_zero] at once
  exact ⟨taken, rest, final, loop, whole, all, ends, total.trans once⟩

theorem toInt64_toInt {result : UInt64} (fits : result.toNat < 2 ^ 63) : result.toInt64.toInt = result.toNat := by
  have bits : result.toInt64.toInt = result.toBitVec.toInt := rfl
  rw [bits, BitVec.toInt_eq_toNat_cond]
  have small : 2 * result.toBitVec.toNat < 2 ^ 64 := by
    have same : result.toBitVec.toNat = result.toNat := rfl
    omega
  rw [if_pos small]
  rfl

private theorem neg_toInt64_toInt {result : UInt64} (fits : result.toNat < 2 ^ 63) : (-result.toInt64).toInt = -result.toNat := by
  rw [Int64.toInt_neg, toInt64_toInt fits]
  exact Int.bmod_eq_of_le_mul_two (by omega) (by omega)

section
variable {final : UInt64} {taken : List UInt8}

private theorem positive_clamps (total : final.toNat = min LONG_MAX.toNat (horner 10 0 (digitsOf taken))) :
    final.toInt64.toInt = clamped [] taken := by
  have most : LONG_MAX.toNat = 2 ^ 63 - 1 := by decide
  rw [most] at total
  rw [toInt64_toInt (by omega), clamped, if_pos rfl]
  omega

private theorem negative_clamps (total : final.toNat = min (LONG_MAX + 1).toNat (horner 10 0 (digitsOf taken))) :
    (if final = LONG_MAX + 1 then LONG_MIN else -final.toInt64).toInt = clamped [45] taken := by
  have most : (LONG_MAX + 1).toNat = 2 ^ 63 := by decide
  rw [most] at total
  rw [clamped, if_neg (List.cons_ne_nil _ _)]
  by_cases least : final = LONG_MAX + 1
  · have lowest : LONG_MIN.toInt = -2 ^ 63 := by decide
    have value : final.toNat = 2 ^ 63 := by rw [least, most]
    rw [if_pos least, lowest]
    omega
  · have less : final.toNat ≠ 2 ^ 63 := fun same => least (UInt64.toNat_inj.mp (same.trans most.symm))
    rw [if_neg least, neg_toInt64_toInt (by omega)]
    omega

end

section
variable {mode : LookaheadMode} {ignore first : UInt8} {stream more rest : Stream} {final : UInt64}

private theorem parseInt_negative (search : peekNextDigit mode false stream = (some 45, 45 :: more))
    (loop : parseDigits ignore (LONG_MAX + 1) 0 more = (final, rest)) :
    parseInt mode ignore stream = (if final = LONG_MAX + 1 then LONG_MIN else -final.toInt64, rest) := by
  have minus : ((45 :: more : Stream).head? == some 45) = true := by simp
  unfold parseInt
  rw [search]
  dsimp only
  rw [minus, if_pos rfl, if_pos rfl, List.drop_one, List.tail_cons, loop]
  by_cases least : final = LONG_MAX + 1 <;> simp [least]

private theorem parseInt_positive (search : peekNextDigit mode false stream = (some first, first :: more)) (other : first ≠ 45)
    (loop : parseDigits ignore LONG_MAX 0 (first :: more) = (final, rest)) :
    parseInt mode ignore stream = (final.toInt64, rest) := by
  have plus : ((first :: more : Stream).head? == some 45) = false := by simp [other]
  unfold parseInt
  rw [search]
  dsimp only
  rw [plus, if_neg Bool.false_ne_true, if_neg Bool.false_ne_true, loop]
  rfl

end

/-- `parseInt` takes the bytes of one reading, and returns the clamped value of its digits. -/
theorem parseInt_reads (mode : LookaheadMode) (ignore : UInt8) (stream : Stream) :
    ∃ skipped minus taken, Reading mode ignore stream skipped minus taken (parseInt mode ignore stream).2 ∧
      (parseInt mode ignore stream).1.toInt = clamped minus taken := by
  obtain ⟨skipped, rest, answer, search, rfl, passed, found⟩ := peekNextDigit_spec mode stream
  rcases found with ⟨rfl, outside⟩ | ⟨first, more, rfl, rfl, starts⟩
  · have nothing : parseInt mode ignore (skipped ++ rest) = (0, rest) := by rw [parseInt, search]
    rw [nothing]
    exact ⟨skipped, [], [], .nothing passed outside, rfl⟩
  · by_cases minus : first = 45
    · subst minus
      obtain ⟨taken, rest, final, loop, rfl, all, ends, total⟩ := parseDigits_clamps limit_negative ignore more
      rw [parseInt_negative search loop]
      exact ⟨skipped, [45], taken, .negative passed all ends, negative_clamps total⟩
    · have digit : isDigit first = true := by
        rcases Bool.or_eq_true_iff.mp starts with digit | same
        · exact digit
        · exact absurd (beq_iff_eq.mp same) minus
      obtain ⟨taken, rest, final, loop, whole, all, ends, total⟩ := parseDigits_clamps limit_positive ignore (first :: more)
      rw [parseInt_positive search minus loop]
      -- the loop takes the digit that the search found
      cases taken with
      | nil =>
        have left : first :: more = rest := whole
        have outside := ends first (by rw [← left]; rfl)
        rw [belongs, digit] at outside
        cases outside
      | cons value taken =>
        obtain ⟨rfl, rfl⟩ := List.cons.inj whole
        refine ⟨skipped, [], first :: taken, ?_, positive_clamps total⟩
        exact .positive passed digit (fun byte member => all byte (List.mem_cons_of_mem _ member)) ends

private theorem digitChar_digit {digit : Nat} (below : digit < 10) : isDigit (digitChar digit) = true ∧ (digitChar digit).toNat - 48 = digit := by
  have value : (digitChar digit).toNat = 48 + digit := by
    rw [digitChar, if_pos below, UInt8.toNat_ofNat']
    omega
  refine ⟨(isDigit_iff _).mpr ?_, ?_⟩ <;> omega

private theorem digitsOf_digitChar {digits : List Nat} (below : ∀ digit ∈ digits, digit < 10) : digitsOf (digits.map digitChar) = digits := by
  induction digits with
  | nil => rfl
  | cons digit digits ih =>
    obtain ⟨reads, value⟩ := digitChar_digit (below digit List.mem_cons_self)
    rw [List.map_cons, digitsOf_cons_digit reads, value, ih fun other member => below other (List.mem_cons_of_mem _ member)]

theorem parseDigits_all {limit : UInt64} (ignore : UInt8) (result : UInt64) {text : List UInt8} (digits : ∀ value ∈ text, isDigit value = true) :
    (parseDigits ignore limit result text).2 = [] := by
  induction text generalizing result with
  | nil => rfl
  | cons value text ih =>
    rw [parseDigits, if_pos (digits value List.mem_cons_self)]
    exact ih _ fun other member => digits other (List.mem_cons_of_mem _ member)

private theorem peekNextDigit_head (mode : LookaheadMode) {first : UInt8} (starts : begins first = true) (more : Stream) :
    peekNextDigit mode false (first :: more) = (some first, first :: more) := by
  rw [peekNextDigit, Bool.false_and, Bool.or_false, if_pos (show (isDigit first || first == 45) = true from starts)]

section
variable (mode : LookaheadMode) (ignore : UInt8) {text : List UInt8}

theorem parseDigits_text {limit : UInt64} (bounds : Limit limit) (digits : ∀ value ∈ text, isDigit value = true) :
    ∃ final, parseDigits ignore limit 0 text = (final, []) ∧ final.toNat = min limit.toNat (horner 10 0 (digitsOf text)) := by
  obtain ⟨taken, rest, final, loop, whole, -, -, total⟩ := parseDigits_clamps bounds ignore text
  have all := @parseDigits_all limit ignore 0 text digits
  rw [loop] at all
  have none : rest = [] := all
  rw [none, List.append_nil] at whole
  rw [none] at loop
  exact ⟨final, loop, whole ▸ total⟩

private theorem parseInt_minus (digits : ∀ value ∈ text, isDigit value = true) :
    ∃ number, parseInt mode ignore (45 :: text) = (number, []) ∧ number.toInt = clamped [45] text := by
  obtain ⟨final, loop, total⟩ := parseDigits_text ignore limit_negative digits
  have minus : begins 45 = true := by decide
  exact ⟨_, parseInt_negative (peekNextDigit_head mode minus text) loop, negative_clamps total⟩

private theorem parseInt_plain (digits : ∀ value ∈ text, isDigit value = true) (nonempty : text ≠ []) :
    ∃ number, parseInt mode ignore text = (number, []) ∧ number.toInt = clamped [] text := by
  obtain ⟨first, more, rfl⟩ := List.exists_cons_of_ne_nil nonempty
  have digit := digits first List.mem_cons_self
  have other : first ≠ 45 := by
    rintro rfl
    cases digit
  have starts : begins first = true := by rw [begins, digit, Bool.true_or]
  obtain ⟨final, loop, total⟩ := parseDigits_text ignore limit_positive digits
  exact ⟨_, parseInt_positive (peekNextDigit_head mode starts more) other loop, positive_clamps total⟩

/-- What `print` writes for a value is read back as the value, to the end of the text. -/
theorem parseInt_print (output : Nat → UInt8) (value : Int64) :
    ∃ text, print output value DEC = some text ∧ parseInt mode ignore text = (value, []) := by
  obtain ⟨digits, written, printed⟩ := print_text output value
  have below : ∀ byte ∈ digits.map digitChar, isDigit byte = true := by
    intro byte member
    obtain ⟨digit, among, rfl⟩ := List.mem_map.mp member
    exact (digitChar_digit (written.below digit among)).1
  have total : horner 10 0 (digitsOf (digits.map digitChar)) = value.toInt.natAbs := by
    rw [digitsOf_digitChar written.below, written.value]
  have low := value.le_toInt
  have high := value.toInt_lt
  refine ⟨_, printed, ?_⟩
  by_cases negative : value.toInt < 0
  · rw [if_pos negative]
    obtain ⟨number, parsed, same⟩ := parseInt_minus mode ignore below
    rw [clamped, if_neg (List.cons_ne_nil _ _), total] at same
    have equal : number.toInt = value.toInt := by omega
    exact parsed.trans (congrArg (·, []) (Int64.toInt_inj.mp equal))
  · rw [if_neg negative]
    have nonempty : digits.map digitChar ≠ [] := fun none => written.nonempty (List.map_eq_nil_iff.mp none)
    obtain ⟨number, parsed, same⟩ := parseInt_plain mode ignore below nonempty
    rw [clamped, if_pos rfl, total] at same
    have equal : number.toInt = value.toInt := by omega
    exact parsed.trans (congrArg (·, []) (Int64.toInt_inj.mp equal))

end

/-- Texts of integers: what is written in a radix, what is read from a stream, and that the one reads the other back. -/
theorem integerText_parseInt :
    (∀ (type : IntegerType) (output : Nat → UInt8) (word : type.Word) (radix : UInt32), 2 ≤ radix → radix ≤ 36 →
      ∃ count final digits, integerText type output word radix = some (count, final) ∧
        Written type word radix.toNat output count final digits) ∧
    (∀ (mode : LookaheadMode) (ignore : UInt8) (stream : Stream), ∃ skipped minus taken,
      Reading mode ignore stream skipped minus taken (parseInt mode ignore stream).2 ∧
        (parseInt mode ignore stream).1.toInt = clamped minus taken) ∧
    ∀ (mode : LookaheadMode) (ignore : UInt8) (output : Nat → UInt8) (value : Int64),
      ∃ text, print output value DEC = some text ∧ parseInt mode ignore text = (value, []) := by
  refine ⟨?_, parseInt_reads, parseInt_print⟩
  intro type output word radix two most
  have same : radixOf radix = radix.toNat := by
    apply if_neg
    rintro (small | large)
    · exact absurd two (UInt32.not_le.mpr small)
    · exact absurd most (UInt32.not_le.mpr large)
  have written := integerText_written type output word radix (radixOf_two radix)
  rwa [same] at written

/-- The bits of -1 in hexadecimal. -/
theorem integerText_parseInt_hexadecimal : ∃ count final digits,
    integerText .long (fun _ => 0) (IntegerType.ofLong (-1)) 16 = some (count, final) ∧
      Written .long (IntegerType.ofLong (-1)) 16 (fun _ => 0) count final digits :=
  integerText_parseInt.1 .long (fun _ => 0) (IntegerType.ofLong (-1)) 16 (by decide) (by decide)

end ArduinoK210.Streams
