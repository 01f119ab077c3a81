import ArduinoK210.Net.IPAddress

/-! Which texts are addresses, and that `fromString` reads exactly these. -/

namespace ArduinoK210.Net
open Numeral

/-- One to three decimal digits with a value of at most 255. -/
def Octet (text : List Char) (octets : List UInt8) : Prop :=
  ∃ octet, octets = [octet] ∧ Digits decimalValue text ∧ text ≠ [] ∧ text.length ≤ 3 ∧
    extend decimalValue 10 0 text = octet.toNat

def DottedQuad (text : List Char) (octets : List UInt8) : Prop := Separated '.' Octet Octet text octets ∧ octets.length = 4

/-- One to four hexadecimal digits. -/
def Group (text : List Char) (words : List UInt16) : Prop :=
  ∃ word, words = [word] ∧ Digits hexValue text ∧ text ≠ [] ∧ text.length ≤ 4 ∧ extend hexValue 16 0 text = word.toNat

/-- What may stand at the end: a group, or a dotted quad for two. -/
def Tail (text : List Char) (words : List UInt16) : Prop :=
  Group text words ∨ ∃ octets, DottedQuad text octets ∧ words = quadWords octets

/-- Groups on the left of a double colon, and on its right; there may be none. -/
def Front (text : List Char) (words : List UInt16) : Prop := text = [] ∧ words = [] ∨ Separated ':' Group Group text words

def Back (text : List Char) (words : List UInt16) : Prop := text = [] ∧ words = [] ∨ Separated ':' Group Tail text words

/-- Eight groups, of which one double colon may stand for one or more zeros. -/
def IPv6Text (text : List Char) (words : List UInt16) : Prop :=
  (Separated ':' Group Tail text words ∧ words.length = 8) ∨
  ∃ left right front back, text = left ++ ':' :: ':' :: right ∧ Front left front ∧ Back right back ∧
    front.length + back.length ≤ 7 ∧ words = front ++ List.replicate (8 - (front.length + back.length)) 0 ++ back

inductive Denotes (text : List Char) : IPAddress → Prop where
  | quad {a b c d : UInt8} : DottedQuad text [a, b, c, d] → Denotes text (.ofOctets a b c d)
  | groups {words : List UInt16} : IPv6Text text words → Denotes text (.ofWords fun index => words.getD index 0)

theorem decimalValue_some {ch : Char} {value : Nat} (read : decimalValue ch = some value) : hexValue ch = some value ∧ value < 10 := by
  unfold decimalValue at read
  split at read
  · next inside =>
    cases read
    have low : 48 ≤ ch.toNat := inside.1
    have high : ch.toNat ≤ 57 := inside.2
    refine ⟨by rw [hexValue, if_pos inside], ?_⟩
    show ch.toNat - 48 < 10
    omega
  · cases read

private theorem hexValue_bounded : Bounded hexValue 16 := by
  intro ch value read
  unfold hexValue at read
  split at read
  · next inside =>
    cases read
    have high : ch.toNat ≤ 57 := inside.2
    show ch.toNat - 48 < 16
    omega
  · split at read
    · next inside =>
      cases read
      have high : ch.toNat ≤ 102 := inside.2
      show ch.toNat - 97 + 10 < 16
      omega
    · split at read
      · next inside =>
        cases read
        have high : ch.toNat ≤ 70 := inside.2
        show ch.toNat - 65 + 10 < 16
        omega
      · cases read

private theorem octetFits_shrinks : Shrinks octetFits := by
  intro count value more larger fewer less fits
  have both := Bool.and_eq_true_iff.mp fits
  have digits := of_decide_eq_true both.1
  have small := of_decide_eq_true both.2
  exact Bool.and_eq_true_iff.mpr ⟨decide_eq_true (by omega), decide_eq_true (by omega)⟩

theorem groupFits_shrinks : Shrinks groupFits := by
  intro count value more larger fewer _ fits
  have digits := of_decide_eq_true fits
  exact decide_eq_true (by omega)

theorem scan_octet {text rest : List Char} {octet : UInt8} (given : Octet text [octet]) (stops : Stops decimalValue rest) :
    scan decimalValue 10 octetFits 0 0 (text ++ rest) = some (octet.toNat, text.length, rest) := by
  obtain ⟨_, same, all, _, few, value⟩ := given
  cases same
  have fits : octetFits (0 + text.length) (extend decimalValue 10 0 text) = true := by
    have small := octet.toNat_lt
    rw [value]
    exact Bool.and_eq_true_iff.mpr ⟨decide_eq_true (by omega), decide_eq_true (by omega)⟩
  have scanned := scan_complete (Nat.succ_pos 9) octetFits_shrinks all stops fun _ => fits
  rw [value, Nat.zero_add] at scanned
  exact scanned

private theorem octet_scanned {text rest : List Char} {value digits : Nat}
    (scanned : scan decimalValue 10 octetFits 0 0 text = some (value, digits, rest)) (some_digit : digits ≠ 0) :
    ∃ first, text = first ++ rest ∧ Stops decimalValue rest ∧ Octet first [UInt8.ofNat value] := by
  obtain ⟨first, rfl, all, stops, rfl, rfl, fits⟩ := scan_sound scanned
  rw [Nat.zero_add] at some_digit fits
  have nonempty : first ≠ [] := fun none => some_digit (List.length_eq_zero_iff.mpr none)
  have both := Bool.and_eq_true_iff.mp (fits nonempty)
  refine ⟨first, rfl, stops, _, rfl, all, nonempty, of_decide_eq_true both.1, ?_⟩
  have small := of_decide_eq_true both.2
  exact (UInt8.toNat_ofNat_of_lt (Nat.lt_of_le_of_lt small (by decide))).symm

theorem scan_group {text rest : List Char} {word : UInt16} (given : Group text [word]) (stops : Stops hexValue rest) :
    scan hexValue 16 groupFits 0 0 (text ++ rest) = some (word.toNat, text.length, rest) := by
  obtain ⟨_, same, all, _, few, value⟩ := given
  cases same
  have fits : groupFits (0 + text.length) (extend hexValue 16 0 text) = true := decide_eq_true (by omega)
  have scanned := scan_complete (Nat.succ_pos 15) groupFits_shrinks all stops fun _ => fits
  rw [value, Nat.zero_add] at scanned
  exact scanned

theorem group_scanned {text rest : List Char} {value digits : Nat}
    (scanned : scan hexValue 16 groupFits 0 0 text = some (value, digits, rest)) (some_digit : digits ≠ 0) :
    ∃ first, text = first ++ rest ∧ Stops hexValue rest ∧ Group first [UInt16.ofNat value] := by
  obtain ⟨first, rfl, all, stops, rfl, rfl, fits⟩ := scan_sound scanned
  rw [Nat.zero_add] at some_digit fits
  have nonempty : first ≠ [] := fun none => some_digit (List.length_eq_zero_iff.mpr none)
  have few : first.length ≤ 4 := of_decide_eq_true (fits nonempty)
  refine ⟨first, rfl, stops, _, rfl, all, nonempty, few, ?_⟩
  have less : extend hexValue 16 0 first < 16 ^ (0 + first.length) :=
    extend_lt hexValue_bounded all (Nat.lt_add_one 0 : 0 < 16 ^ 0)
  have power : 16 ^ (0 + first.length) ≤ 16 ^ 4 := Nat.pow_le_pow_right (by decide) (by omega)
  exact (UInt16.toNat_ofNat_of_lt (Nat.lt_of_lt_of_le less power)).symm

theorem octet_singleton {text : List Char} {octets : List UInt8} (given : Octet text octets) : ∃ octet, octets = [octet] := by
  obtain ⟨octet, same, _⟩ := given
  exact ⟨octet, same⟩

theorem group_singleton {text : List Char} {words : List UInt16} (given : Group text words) : ∃ word, words = [word] := by
  obtain ⟨word, same, _⟩ := given
  exact ⟨word, same⟩

private theorem stops_dot (rest : List Char) : Stops decimalValue ('.' :: rest) := by
  rintro _ _ ⟨⟩
  decide

private theorem octet_length {text : List Char} {octets : List UInt8} (given : Octet text octets) : text.length ≠ 0 := by
  obtain ⟨_, _, _, nonempty, _⟩ := given
  exact fun none => nonempty (List.length_eq_zero_iff.mp none)

private theorem parseOctets_last {text : List Char} {octet : UInt8} (given : Octet text [octet]) : parseOctets 1 text = some [octet] := by
  have scanned := scan_octet given (nofun : Stops decimalValue [])
  rw [List.append_nil] at scanned
  rw [parseOctets, scanned]
  dsimp only
  rw [if_neg (octet_length given), if_pos rfl, if_pos rfl, UInt8.ofNat_toNat]

private theorem parseOctets_next (left : Nat) {first : List Char} (rest : List Char) {octet : UInt8} (given : Octet first [octet]) :
    parseOctets (left + 2) (first ++ '.' :: rest) = (parseOctets (left + 1) rest).map (octet :: ·) := by
  rw [parseOctets, scan_octet given (stops_dot rest)]
  dsimp only
  rw [if_neg (octet_length given), if_neg (Nat.succ_ne_zero left), UInt8.ofNat_toNat]
  rfl

private theorem parseOctets_round {left : Nat} {text : List Char} {octets : List UInt8} (parsed : parseOctets (left + 1) text = some octets) :
    ∃ first rest octet, text = first ++ rest ∧ Octet first [octet] ∧
      (left = 0 ∧ rest = [] ∧ octets = [octet] ∨
        left ≠ 0 ∧ ∃ later more, rest = '.' :: later ∧ parseOctets left later = some more ∧ octets = octet :: more) := by
  rw [parseOctets] at parsed
  split at parsed
  · cases parsed
  · next value digits rest scanned =>
    split at parsed
    · cases parsed
    · next some_digit =>
      obtain ⟨first, rfl, -, octet⟩ := octet_scanned scanned some_digit
      refine ⟨first, rest, _, rfl, octet, ?_⟩
      split at parsed
      · next last =>
        split at parsed
        · next ended =>
          cases parsed
          exact Or.inl ⟨last, ended, rfl⟩
        · cases parsed
      · next more_left =>
        split at parsed
        · next later =>
          obtain ⟨more, read, same⟩ := Option.map_eq_some_iff.mp parsed
          exact Or.inr ⟨more_left, later, more, rfl, read, same.symm⟩
        · cases parsed

private theorem separated_nonempty {α : Type} {separator : Char} {item final : List Char → List α → Prop} {text : List Char} {values : List α}
    (separated : Separated separator item final text values) (items : ∀ text values, item text values → values ≠ [])
    (finals : ∀ text values, final text values → values ≠ []) : values ≠ [] := by
  cases separated with
  | last final => exact finals _ _ final
  | cons item _ => exact fun none => items _ _ item (List.append_eq_nil_iff.mp none).1

private theorem octet_nonempty (text : List Char) (octets : List UInt8) (given : Octet text octets) : octets ≠ [] := by
  obtain ⟨octet, rfl⟩ := octet_singleton given
  exact List.cons_ne_nil _ _

/-- The loop over the octets reads exactly the quads with that many. -/
theorem parseOctets_iff (left : Nat) (text : List Char) (octets : List UInt8) :
    parseOctets (left + 1) text = some octets ↔ Separated '.' Octet Octet text octets ∧ octets.length = left + 1 := by
  induction left generalizing text octets with
  | zero =>
    constructor
    · intro parsed
      obtain ⟨first, rest, octet, rfl, given, ⟨_, rfl, rfl⟩ | ⟨more, _⟩⟩ := parseOctets_round parsed
      · rw [List.append_nil]
        exact ⟨.last given, rfl⟩
      · exact absurd rfl more
    · rintro ⟨separated, one⟩
      cases separated with
      | last given =>
        obtain ⟨octet, rfl⟩ := octet_singleton given
        exact parseOctets_last given
      | cons given rest =>
        obtain ⟨octet, rfl⟩ := octet_singleton given
        have more := List.length_pos_iff.mpr (separated_nonempty rest octet_nonempty octet_nonempty)
        rw [List.length_append, List.length_singleton] at one
        omega
  | succ left ih =>
    constructor
    · intro parsed
      obtain ⟨first, rest, octet, rfl, given, ⟨none, _⟩ | ⟨_, later, more, rfl, read, rfl⟩⟩ := parseOctets_round parsed
      · exact absurd none (Nat.succ_ne_zero left)
      · obtain ⟨separated, length⟩ := (ih later more).mp read
        exact ⟨.cons given separated, congrArg (· + 1) length⟩
    · rintro ⟨separated, many⟩
      cases separated with
      | last given =>
        obtain ⟨octet, rfl⟩ := octet_singleton given
        rw [List.length_singleton] at many
        omega
      | cons given separated =>
        obtain ⟨octet, rfl⟩ := octet_singleton given
        rw [List.length_append, List.length_singleton] at many
        rw [parseOctets_next left _ given]
        exact Option.map_eq_some_iff.mpr ⟨_, (ih _ _).mpr ⟨separated, by omega⟩, rfl⟩

theorem parseV4_iff (text : List Char) (octets : List UInt8) : parseV4 text = some octets ↔ DottedQuad text octets :=
  parseOctets_iff 3 text octets

end ArduinoK210.Net
