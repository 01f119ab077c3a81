import Mathlib.Data.Nat.Digits.Defs
import Mathlib.Tactic.Linarith

/-! Numerals at the front of a text, in any base and with any limit, and lists of items that one character separates. -/

namespace Numeral

variable (digit : Char → Option Nat) (base : Nat) (fits : Nat → Nat → Bool)

/-- The value of more digits behind `value`. -/
def extend (value : Nat) (digits : List Char) : Nat := digits.foldl (fun value ch => value * base + (digit ch).getD 0) value

/-- Reads digits for as long as they come, and fails when their number and value do not fit. -/
def scan (value count : Nat) : List Char → Option (Nat × Nat × List Char)
  | [] => some (value, count, [])
  | ch :: rest =>
      match digit ch with
      | none => some (value, count, ch :: rest)
      | some next => if fits (count + 1) (value * base + next) then scan (value * base + next) (count + 1) rest else none

def Digits (text : List Char) : Prop := ∀ ch ∈ text, (digit ch).isSome

/-- The text does not go on with a digit. -/
def Stops (text : List Char) : Prop := ∀ ch rest, text = ch :: rest → digit ch = none

/-- What fits goes on fitting when it is made smaller. -/
def Shrinks : Prop := ∀ count value more larger, count ≤ more → value ≤ larger → fits more larger = true → fits count value = true

variable {digit base fits}

theorem extend_cons {ch : Char} {next : Nat} (read : digit ch = some next) (value : Nat) (text : List Char) :
    extend digit base value (ch :: text) = extend digit base (value * base + next) text := by
  rw [extend, List.foldl_cons, read]
  rfl

theorem extend_append (value : Nat) (first second : List Char) :
    extend digit base value (first ++ second) = extend digit base (extend digit base value first) second :=
  List.foldl_append

theorem le_extend (positive : 0 < base) (value : Nat) (text : List Char) : value ≤ extend digit base value text := by
  induction text generalizing value with
  | nil => exact Nat.le_refl value
  | cons ch rest ih =>
    calc value ≤ value * base := Nat.le_mul_of_pos_right value positive
      _ ≤ value * base + (digit ch).getD 0 := Nat.le_add_right _ _
      _ ≤ extend digit base value (ch :: rest) := ih _

def Bounded (digit : Char → Option Nat) (base : Nat) : Prop := ∀ ch value, digit ch = some value → value < base

theorem extend_lt (bounded : Bounded digit base) {text : List Char} (all : Digits digit text) {value count : Nat}
    (small : value < base ^ count) : extend digit base value text < base ^ (count + text.length) := by
  induction text generalizing value count with
  | nil => exact small
  | cons ch text ih =>
    obtain ⟨next, read⟩ := Option.isSome_iff_exists.mp (all ch List.mem_cons_self)
    have less := bounded ch next read
    have more : value * base + next < base ^ (count + 1) :=
      calc value * base + next < (value + 1) * base := by rw [Nat.add_mul, Nat.one_mul]; omega
        _ ≤ base ^ count * base := Nat.mul_le_mul_right base small
        _ = base ^ (count + 1) := (Nat.pow_succ base count).symm
    have whole := ih (fun ch member => all ch (List.mem_cons_of_mem _ member)) more
    rw [extend_cons read, List.length_cons]
    rwa [Nat.add_assoc, Nat.add_comm 1] at whole

theorem scan_sound {value count last total : Nat} {text rest : List Char}
    (scanned : scan digit base fits value count text = some (last, total, rest)) :
    ∃ digits, text = digits ++ rest ∧ Digits digit digits ∧ Stops digit rest ∧ total = count + digits.length ∧
      last = extend digit base value digits ∧ (digits ≠ [] → fits total last = true) := by
  induction text generalizing value count with
  | nil =>
    cases scanned
    exact ⟨[], rfl, fun _ member => absurd member List.not_mem_nil, nofun, rfl, rfl, fun none => absurd rfl none⟩
  | cons ch text ih =>
    rw [scan] at scanned
    split at scanned
    · next none =>
      cases scanned
      refine ⟨[], rfl, fun _ member => absurd member List.not_mem_nil, ?_, rfl, rfl, fun none => absurd rfl none⟩
      rintro _ _ ⟨⟩
      exact none
    · next next read =>
      split at scanned
      · next fit =>
        obtain ⟨digits, rfl, all, stops, rfl, rfl, fitting⟩ := ih scanned
        refine ⟨ch :: digits, rfl, ?_, stops, ?_, ?_, fun _ => ?_⟩
        · intro other member
          rcases List.mem_cons.mp member with rfl | member
          · rw [read]
            rfl
          · exact all other member
        · rw [List.length_cons]
          omega
        · exact (extend_cons read value digits).symm
        · cases digits with
          | nil => exact fit
          | cons _ _ => exact fitting nofun
      · cases scanned

theorem scan_complete (positive : 0 < base) (shrinks : Shrinks fits) {value count : Nat} {digits rest : List Char}
    (all : Digits digit digits) (stops : Stops digit rest)
    (fit : digits ≠ [] → fits (count + digits.length) (extend digit base value digits) = true) :
    scan digit base fits value count (digits ++ rest) = some (extend digit base value digits, count + digits.length, rest) := by
  induction digits generalizing value count with
  | nil =>
    cases rest with
    | nil => rfl
    | cons ch rest =>
      rw [List.nil_append, scan, stops ch rest rfl]
      rfl
  | cons ch digits ih =>
    obtain ⟨next, read⟩ := Option.isSome_iff_exists.mp (all ch List.mem_cons_self)
    have first : extend digit base value (ch :: digits) = extend digit base (value * base + next) digits := extend_cons read value digits
    have length : count + (ch :: digits).length = count + 1 + digits.length := by
      rw [List.length_cons]
      omega
    have whole := fit nofun
    rw [first, length] at whole
    have now : fits (count + 1) (value * base + next) = true :=
      shrinks _ _ _ _ (Nat.le_add_right _ _) (le_extend positive _ _) whole
    rw [List.cons_append, scan, read]
    dsimp only
    rw [if_pos now, first, length]
    exact ih (fun ch member => all ch (List.mem_cons_of_mem _ member)) fun _ => whole

/-- A digit character of the base is read as its value. -/
def Reads (digit : Char → Option Nat) (base : Nat) : Prop := ∀ value < base, digit (Nat.digitChar value) = some value

theorem toDigits_reads (two : 1 < base) (reads : Reads digit base) (value : Nat) :
    Digits digit (Nat.toDigits base value) ∧ extend digit base 0 (Nat.toDigits base value) = value := by
  induction value using Nat.strongRecOn with
  | ind value ih =>
    rw [Nat.toDigits_eq_if two]
    split
    · next small =>
      refine ⟨?_, ?_⟩
      · intro ch member
        rw [List.mem_singleton.mp member, reads value small]
        rfl
      · rw [extend_cons (reads value small), Nat.zero_mul, Nat.zero_add]
        rfl
    · next large =>
      have last := reads (value % base) (Nat.mod_lt value (by omega))
      obtain ⟨all, same⟩ := ih (value / base) (Nat.div_lt_self (by omega) two)
      refine ⟨?_, ?_⟩
      · intro ch member
        rcases List.mem_append.mp member with front | back
        · exact all ch front
        · rw [List.mem_singleton.mp back, last]
          rfl
      · rw [extend_append, same, extend_cons last, Nat.mul_comm]
        exact Nat.div_add_mod value base

end Numeral

/-- Items with a character between each two, and a last one of its own kind. -/
inductive Separated {α : Type} (separator : Char) (item final : List Char → List α → Prop) : List Char → List α → Prop where
  | last {text : List Char} {values : List α} : final text values → Separated separator item final text values
  | cons {first rest : List Char} {values more : List α} : item first values → Separated separator item final rest more →
      Separated separator item final (first ++ separator :: rest) (values ++ more)

namespace Separated
variable {α : Type} {separator : Char} {item final other : List Char → List α → Prop} {text : List Char} {values : List α}

theorem mono (separated : Separated separator item final text values) (weaker : ∀ text values, final text values → other text values) :
    Separated separator item other text values := by
  induction separated with
  | last end_ => exact .last (weaker _ _ end_)
  | cons first _ ih => exact .cons first ih

end Separated
