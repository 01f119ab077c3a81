import Mathlib.Data.List.Basic
import Mathlib.Data.List.Infix
import Mathlib.Data.Nat.Bitwise
import Mathlib.Tactic.Linarith
import Mathlib.Tactic.Ring

/-! Numbers as bits, the highest bit first, and codes whose words are told apart by what they begin with. A canonical code
counts its words up and doubles the count where the words become longer. -/

namespace PrefixCode

universe u

variable {α : Type u}

/-- The low bits of a number, the highest first. -/
def bits : (width : Nat) → (value : Nat) → List Bool
  | 0, _ => []
  | width + 1, value => value.testBit width :: bits width value

def number (word : List Bool) : Nat := word.foldl (fun value bit => 2 * value + bit.toNat) 0

@[simp] theorem bits_length (width value : Nat) : (bits width value).length = width := by
  induction width with
  | zero => rfl
  | succ width ih => rw [bits, List.length_cons, ih]

theorem foldl_number (value : Nat) (word : List Bool) :
    word.foldl (fun value bit => 2 * value + bit.toNat) value = value * 2 ^ word.length + number word := by
  induction word generalizing value with
  | nil => simp [number]
  | cons bit word ih =>
    have rest : number (bit :: word) = (2 * 0 + bit.toNat) * 2 ^ word.length + number word := ih _
    rw [List.foldl_cons, ih, rest, List.length_cons, Nat.pow_succ]
    ring

@[simp] theorem number_nil : number [] = 0 := rfl

theorem number_cons (bit : Bool) (word : List Bool) : number (bit :: word) = bit.toNat * 2 ^ word.length + number word := by
  rw [number, List.foldl_cons, foldl_number, Nat.mul_zero, Nat.zero_add]

theorem number_append (first second : List Bool) :
    number (first ++ second) = number first * 2 ^ second.length + number second := by
  rw [number, List.foldl_append]
  exact foldl_number _ second

theorem number_lt (word : List Bool) : number word < 2 ^ word.length := by
  induction word with
  | nil => exact Nat.one_pos
  | cons bit word ih =>
    have low : bit.toNat ≤ 1 := Bool.toNat_le bit
    rw [number_cons, List.length_cons, Nat.pow_succ]
    calc bit.toNat * 2 ^ word.length + number word < 1 * 2 ^ word.length + 2 ^ word.length :=
          Nat.add_lt_add_of_le_of_lt (Nat.mul_le_mul_right _ low) ih
      _ = 2 ^ word.length * 2 := by ring

theorem number_bits (width value : Nat) : number (bits width value) = value % 2 ^ width := by
  induction width with
  | zero => simp [bits, Nat.mod_one]
  | succ width ih =>
    rw [bits, number_cons, bits_length, ih, Nat.testBit_eq_decide_div_mod_eq, Nat.pow_succ, Nat.mod_mul]
    have split : value / 2 ^ width % 2 = 0 ∨ value / 2 ^ width % 2 = 1 := by omega
    rcases split with even | odd
    · rw [even]
      simp
    · rw [odd]
      simp
      omega

theorem bits_number_of_lt {width value : Nat} (below : value < 2 ^ width) : number (bits width value) = value := by
  rw [number_bits, Nat.mod_eq_of_lt below]

theorem number_inj {first second : List Bool} (lengths : first.length = second.length) (same : number first = number second) :
    first = second := by
  induction first generalizing second with
  | nil => exact (List.length_eq_zero_iff.mp lengths.symm).symm
  | cons bit first ih =>
    cases second with
    | nil => cases lengths
    | cons other second =>
      have tail := Nat.succ.inj lengths
      have small := number_lt first
      have small' := number_lt second
      rw [number_cons, number_cons, ← tail] at same
      rw [← tail] at small'
      cases bit <;> cases other <;> simp only [Bool.toNat_false, Bool.toNat_true, Nat.zero_mul, Nat.one_mul, Nat.zero_add] at same
      · rw [ih tail same]
      · omega
      · omega
      · rw [ih tail (Nat.add_left_cancel same)]

theorem bits_number (word : List Bool) : bits word.length (number word) = word :=
  number_inj (bits_length _ _) (bits_number_of_lt (number_lt word))

abbrev Code (α : Type u) := List (α × List Bool)

/-- No word begins with another. -/
def PrefixFree (code : Code α) : Prop := code.Pairwise fun first second => ¬first.2 <+: second.2 ∧ ¬second.2 <+: first.2

/-- The symbol whose word the input begins with, and what follows it. -/
def decode (code : Code α) (input : List Bool) : Option (α × List Bool) :=
  code.findSome? fun entry => if entry.2.isPrefixOf input then some (entry.1, input.drop entry.2.length) else none

theorem decode_word {code : Code α} (free : PrefixFree code) {symbol : α} {word : List Bool} (coded : (symbol, word) ∈ code)
    (rest : List Bool) : decode code (word ++ rest) = some (symbol, rest) := by
  induction code with
  | nil => exact absurd coded List.not_mem_nil
  | cons entry code ih =>
    obtain ⟨first, later⟩ := List.pairwise_cons.mp free
    rw [decode, List.findSome?_cons]
    rcases List.mem_cons.mp coded with here | there
    · subst here
      have begins : word.isPrefixOf (word ++ rest) = true := List.isPrefixOf_iff_prefix.mpr (List.prefix_append word rest)
      rw [if_pos begins, List.drop_left]
    · have apart : ¬entry.2 <+: word ++ rest := by
        intro begins
        rcases List.prefix_or_prefix_of_prefix begins (List.prefix_append word rest) with shorter | longer
        · exact (first _ there).1 shorter
        · exact (first _ there).2 longer
      rw [if_neg fun begins => apart (List.isPrefixOf_iff_prefix.mp begins)]
      exact ih later there

/-- A symbol with the number of its word and the number of bits. -/
structure Entry (α : Type u) where
  symbol : α
  width : Nat
  value : Nat
  deriving DecidableEq

def Entry.word (entry : Entry α) : List Bool := bits entry.width entry.value

/-- The words of one width, counted up. -/
def level (width value : Nat) : List α → List (Entry α)
  | [] => []
  | symbol :: symbols => ⟨symbol, width, value⟩ :: level width (value + 1) symbols

/-- The canonical code with so many words of each width. The first count is for `width`. -/
def canonical (width value : Nat) : (counts : List Nat) → (symbols : List α) → List (Entry α)
  | [], _ => []
  | count :: counts, symbols =>
      level width value (symbols.take count) ++ canonical (width + 1) (2 * (value + count)) counts (symbols.drop count)

/-- The words behind an entry lie above everything that begins with its word. -/
def Entry.Below (first second : Entry α) : Prop :=
  first.width ≤ second.width ∧ (first.value + 1) * 2 ^ (second.width - first.width) ≤ second.value

theorem mem_level {width value : Nat} {symbols : List α} {entry : Entry α} (member : entry ∈ level width value symbols) :
    entry.width = width ∧ value ≤ entry.value ∧ entry.value < value + symbols.length := by
  induction symbols generalizing value with
  | nil => exact absurd member List.not_mem_nil
  | cons symbol symbols ih =>
    rcases List.mem_cons.mp member with rfl | later
    · exact ⟨rfl, Nat.le_refl _, by simp⟩
    · obtain ⟨same, above, below⟩ := ih later
      rw [List.length_cons]
      exact ⟨same, by omega, by omega⟩

theorem mem_canonical {width value : Nat} {counts : List Nat} {symbols : List α} {entry : Entry α}
    (member : entry ∈ canonical width value counts symbols) :
    width ≤ entry.width ∧ value * 2 ^ (entry.width - width) ≤ entry.value := by
  induction counts generalizing width value symbols with
  | nil => exact absurd member List.not_mem_nil
  | cons count counts ih =>
    rcases List.mem_append.mp member with here | later
    · obtain ⟨rfl, above, -⟩ := mem_level here
      exact ⟨Nat.le_refl _, by simpa using above⟩
    · obtain ⟨wide, above⟩ := ih later
      obtain ⟨more, same⟩ := Nat.exists_eq_add_of_le wide
      refine ⟨by omega, ?_⟩
      have shift : entry.width - width = more + 1 := by omega
      have shift' : entry.width - (width + 1) = more := by omega
      rw [shift', Nat.mul_comm 2, Nat.mul_assoc] at above
      rw [shift, Nat.pow_succ, Nat.mul_comm _ 2]
      exact Nat.le_trans (Nat.mul_le_mul_right _ (Nat.le_add_right _ _)) above

theorem level_pairwise (width value : Nat) (symbols : List α) : (level width value symbols).Pairwise Entry.Below := by
  induction symbols generalizing value with
  | nil => exact List.Pairwise.nil
  | cons symbol symbols ih =>
    refine List.pairwise_cons.mpr ⟨fun entry member => ?_, ih _⟩
    obtain ⟨same, above, -⟩ := mem_level member
    exact ⟨same.ge, by simpa [same] using above⟩

theorem canonical_pairwise (width value : Nat) (counts : List Nat) (symbols : List α) :
    (canonical width value counts symbols).Pairwise Entry.Below := by
  induction counts generalizing width value symbols with
  | nil => exact List.Pairwise.nil
  | cons count counts ih =>
    refine List.pairwise_append.mpr ⟨level_pairwise _ _ _, ih _ _ _, fun first here second later => ?_⟩
    obtain ⟨same, -, below⟩ := mem_level here
    obtain ⟨wide, above⟩ := mem_canonical later
    obtain ⟨more, same'⟩ := Nat.exists_eq_add_of_le wide
    have few : (symbols.take count).length ≤ count := by
      rw [List.length_take]
      exact Nat.min_le_left _ _
    refine ⟨by omega, ?_⟩
    have shift : second.width - first.width = more + 1 := by omega
    have shift' : second.width - (width + 1) = more := by omega
    rw [shift', Nat.mul_comm 2, Nat.mul_assoc] at above
    rw [shift, Nat.pow_succ, Nat.mul_comm _ 2]
    exact Nat.le_trans (Nat.mul_le_mul_right _ (by omega)) above

theorem Entry.Below.apart {first second : Entry α} (below : first.Below second) (fits : first.value < 2 ^ first.width)
    (fits' : second.value < 2 ^ second.width) : ¬first.word <+: second.word ∧ ¬second.word <+: first.word := by
  obtain ⟨narrow, above⟩ := below
  constructor
  · rintro ⟨rest, whole⟩
    have lengths := congrArg List.length whole
    have numbers := congrArg number whole
    rw [Entry.word, Entry.word, List.length_append, bits_length, bits_length] at lengths
    rw [Entry.word, Entry.word, number_append, bits_number_of_lt fits, bits_number_of_lt fits'] at numbers
    have small := number_lt rest
    have shift : second.width - first.width = rest.length := by omega
    rw [shift, Nat.add_mul, Nat.one_mul] at above
    omega
  · intro begins
    have shorter := begins.length_le
    rw [Entry.word, Entry.word, bits_length, bits_length] at shorter
    have widths : second.width = first.width := Nat.le_antisymm shorter narrow
    have words : second.word = first.word := begins.eq_of_length (by rw [Entry.word, Entry.word, bits_length, bits_length, widths])
    have numbers := congrArg number words
    rw [Entry.word, Entry.word, bits_number_of_lt fits, bits_number_of_lt fits'] at numbers
    rw [widths, Nat.sub_self, Nat.pow_zero, Nat.mul_one] at above
    omega

def codeOf (entries : List (Entry α)) : Code α := entries.map fun entry => (entry.symbol, entry.word)

/-- A canonical code whose counts leave no word too large for its width is free of prefixes. -/
theorem canonical_prefixFree {width value : Nat} {counts : List Nat} {symbols : List α}
    (fits : ∀ entry ∈ canonical width value counts symbols, entry.value < 2 ^ entry.width) :
    PrefixFree (codeOf (canonical width value counts symbols)) := by
  refine List.pairwise_map.mpr ((canonical_pairwise width value counts symbols).imp_of_mem ?_)
  intro first second here there below
  exact below.apart (fits first here) (fits second there)

theorem decode_canonical {width value : Nat} {counts : List Nat} {symbols : List α}
    (fits : ∀ entry ∈ canonical width value counts symbols, entry.value < 2 ^ entry.width) {entry : Entry α}
    (coded : entry ∈ canonical width value counts symbols) (rest : List Bool) :
    decode (codeOf (canonical width value counts symbols)) (entry.word ++ rest) = some (entry.symbol, rest) :=
  decode_word (canonical_prefixFree fits) (List.mem_map.mpr ⟨entry, coded, rfl⟩) rest

end PrefixCode
