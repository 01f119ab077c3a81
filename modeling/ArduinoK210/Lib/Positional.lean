import Mathlib.Data.List.Induction
import Mathlib.Data.Nat.Digits.Defs
import Mathlib.Data.Nat.Init
import Mathlib.Tactic.Linarith

/-! Positional notation: the digits of a number, the most significant first, in any base from two on, and the reading
of digits that stops growing at a limit. -/

namespace Positional

variable (base : Nat)

def horner (value : Nat) (digits : List Nat) : Nat := digits.foldl (fun value digit => value * base + digit) value

/-- The digits stand for the number, and none of them is there for nothing. -/
structure Notation (number : Nat) (digits : List Nat) : Prop where
  below : ∀ digit ∈ digits, digit < base
  value : horner base 0 digits = number
  nonempty : digits ≠ []
  leading : digits.length = 1 ∨ digits.head? ≠ some 0

/-- The value of more digits behind `value`, where a step that leaves the limit takes it instead. -/
def saturate (limit value : Nat) (digits : List Nat) : Nat :=
  digits.foldl (fun value digit => if (limit - digit) / base < value then limit else value * base + digit) value

variable {base}

theorem horner_append (value : Nat) (first second : List Nat) :
    horner base value (first ++ second) = horner base (horner base value first) second :=
  List.foldl_append

theorem horner_cons (value digit : Nat) (digits : List Nat) :
    horner base value (digit :: digits) = horner base (value * base + digit) digits :=
  rfl

/-- Each digit behind a value makes it at least as large as the base makes it. -/
theorem pow_le_horner (value : Nat) (digits : List Nat) : value * base ^ digits.length ≤ horner base value digits := by
  induction digits generalizing value with
  | nil =>
    rw [List.length_nil, Nat.pow_zero, Nat.mul_one]
    exact Nat.le_refl value
  | cons digit digits ih =>
    have larger : value * base ≤ value * base + digit := Nat.le_add_right _ _
    calc value * base ^ (digits.length + 1) = value * base * base ^ digits.length := by
          rw [Nat.pow_succ, Nat.mul_comm _ base, Nat.mul_assoc]
      _ ≤ (value * base + digit) * base ^ digits.length := Nat.mul_le_mul_right _ larger
      _ ≤ horner base (value * base + digit) digits := ih _

theorem horner_eq_ofDigits (digits : List Nat) : horner base 0 digits = Nat.ofDigits base digits.reverse := by
  induction digits using List.reverseRecOn with
  | nil => rfl
  | append_singleton digits digit ih =>
    rw [horner_append, ih, List.reverse_append, List.reverse_singleton, List.singleton_append, Nat.ofDigits_cons, Nat.add_comm,
      Nat.mul_comm base]
    rfl

namespace Notation
variable {number : Nat} {digits : List Nat}

theorem single (small : number < base) : Notation base number [number] := by
  refine ⟨?_, ?_, List.cons_ne_nil _ _, .inl rfl⟩
  · intro digit member
    rw [List.mem_singleton.mp member]
    exact small
  · rw [horner_cons, Nat.zero_mul, Nat.zero_add]
    rfl

theorem head (written : Notation base number digits) (positive : 0 < number) : digits.head? ≠ some 0 := by
  rcases written.leading with single | leading
  · obtain ⟨digit, rfl⟩ := List.length_eq_one_iff.mp single
    intro zero
    have none : digit = 0 := Option.some.inj zero
    have value := written.value
    rw [none, horner_cons, Nat.zero_mul, Nat.zero_add] at value
    exact absurd value (Nat.ne_of_lt positive)
  · exact leading

theorem zero (written : Notation base 0 digits) : digits = [0] := by
  obtain ⟨first, rest, rfl⟩ := List.exists_cons_of_ne_nil written.nonempty
  have value := written.value
  rw [horner_cons, Nat.zero_mul, Nat.zero_add] at value
  have positive : 0 < base := Nat.lt_of_le_of_lt (Nat.zero_le first) (written.below first List.mem_cons_self)
  have least := @pow_le_horner base first rest
  rw [value] at least
  have none : first = 0 := by
    by_contra some_
    have more : 0 < first * base ^ rest.length := Nat.mul_pos (Nat.pos_of_ne_zero some_) (Nat.pow_pos positive)
    omega
  rcases written.leading with single | leading
  · rw [List.length_eq_zero_iff.mp (Nat.succ.inj single), none]
  · exact absurd (congrArg some none) leading

theorem push (two : 2 ≤ base) (large : base ≤ number) (written : Notation base (number / base) digits) :
    Notation base number (digits ++ [number % base]) := by
  have positive : 0 < number / base := Nat.div_pos large (by omega)
  refine ⟨?_, ?_, List.append_ne_nil_of_right_ne_nil _ (List.cons_ne_nil _ _), .inr ?_⟩
  · intro digit member
    rcases List.mem_append.mp member with front | back
    · exact written.below digit front
    · rw [List.mem_singleton.mp back]
      exact Nat.mod_lt number (by omega)
  · rw [horner_append, written.value, horner_cons, Nat.mul_comm]
    exact Nat.div_add_mod number base
  · obtain ⟨digit, rest, rfl⟩ := List.exists_cons_of_ne_nil written.nonempty
    exact written.head positive

theorem length_le (written : Notation base number digits) (two : 2 ≤ base) {room : Nat} (one : 0 < room)
    (fits : number < base ^ room) : digits.length ≤ room := by
  rcases written.leading with single | leading
  · rw [single]
    exact one
  · obtain ⟨digit, rest, rfl⟩ := List.exists_cons_of_ne_nil written.nonempty
    have positive : 1 ≤ digit := Nat.pos_of_ne_zero fun zero => leading (congrArg some zero)
    have value := written.value
    rw [horner_cons, Nat.zero_mul, Nat.zero_add] at value
    have least : base ^ rest.length < base ^ room :=
      calc base ^ rest.length = 1 * base ^ rest.length := (Nat.one_mul _).symm
        _ ≤ digit * base ^ rest.length := Nat.mul_le_mul_right _ positive
        _ ≤ horner base digit rest := pow_le_horner digit rest
        _ = number := value
        _ < base ^ room := fits
    have shorter := (Nat.pow_lt_pow_iff_right two).mp least
    rw [List.length_cons]
    exact shorter

theorem reverse_eq (written : Notation base number digits) (two : 2 ≤ base) (positive : 0 < number) :
    digits.reverse = Nat.digits base number := by
  have value := written.value
  rw [horner_eq_ofDigits] at value
  rw [← value]
  refine (Nat.digits_ofDigits base two digits.reverse (fun digit member => written.below digit (List.mem_reverse.mp member)) ?_).symm
  intro some_
  obtain ⟨first, rest, rfl⟩ := List.exists_cons_of_ne_nil written.nonempty
  rw [List.getLast_reverse]
  exact fun zero => written.head positive (congrArg some zero)

/-- A number is written in one way. -/
theorem unique (written : Notation base number digits) (two : 2 ≤ base) {other : List Nat} (again : Notation base number other) :
    digits = other := by
  rcases Nat.eq_zero_or_pos number with rfl | positive
  · exact written.zero.trans again.zero.symm
  · apply List.reverse_inj.mp
    rw [written.reverse_eq two positive, again.reverse_eq two positive]

end Notation

/-- The limit is taken just when the exact step would leave it. -/
theorem saturate_step {limit value digit : Nat} (two : 2 ≤ base) (room : digit ≤ limit) (positive : 0 < limit) :
    (if (limit - digit) / base < min limit value then limit else min limit value * base + digit) =
      min limit (value * base + digit) := by
  have grows : value ≤ value * base := Nat.le_mul_of_pos_right value (by omega)
  rcases Nat.le_total value limit with inside | outside
  · rw [Nat.min_eq_right inside]
    by_cases leaves : (limit - digit) / base < value
    · have exact_ := (Nat.div_lt_iff_lt_mul (by omega)).mp leaves
      rw [if_pos leaves, Nat.min_eq_left (by omega)]
    · have exact_ := mt (Nat.div_lt_iff_lt_mul (by omega)).mpr leaves
      rw [if_neg leaves, Nat.min_eq_right (by omega)]
  · have leaves : (limit - digit) / base < limit :=
      calc (limit - digit) / base ≤ limit / base := Nat.div_le_div_right (Nat.sub_le _ _)
        _ < limit := Nat.div_lt_self positive two
    rw [Nat.min_eq_left outside, if_pos leaves, Nat.min_eq_left (by omega)]

/-- Digits that are read with a limit come to their value, clamped once. -/
theorem saturate_eq {limit : Nat} (two : 2 ≤ base) (positive : 0 < limit) {digits : List Nat}
    (room : ∀ digit ∈ digits, digit ≤ limit) (value : Nat) :
    saturate base limit (min limit value) digits = min limit (horner base value digits) := by
  induction digits generalizing value with
  | nil => rfl
  | cons digit digits ih =>
    have step := @saturate_step base limit value digit two (room digit List.mem_cons_self) positive
    calc saturate base limit (min limit value) (digit :: digits) =
          saturate base limit (min limit (value * base + digit)) digits := by rw [← step]; rfl
      _ = min limit (horner base (value * base + digit) digits) :=
          ih (fun other member => room other (List.mem_cons_of_mem _ member)) _

end Positional
