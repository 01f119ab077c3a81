import ArduinoK210.Net.Grammar

/-! The scan of an IPv6 text: its loop takes one group a round, and remembers where the double colon stood. -/

namespace ArduinoK210.Net
open Numeral

private theorem stops_colon (rest : List Char) : Stops hexValue (':' :: rest) := by
  rintro _ _ ⟨⟩
  decide

private theorem group_head {text : List Char} {words : List UInt16} (given : Group text words) :
    ∃ ch rest, text = ch :: rest ∧ (hexValue ch).isSome := by
  obtain ⟨_, _, all, nonempty, _⟩ := given
  obtain ⟨ch, rest, rfl⟩ := List.exists_cons_of_ne_nil nonempty
  exact ⟨ch, rest, rfl, all ch List.mem_cons_self⟩

private theorem group_length {text : List Char} {words : List UInt16} (given : Group text words) : text.length ≠ 0 := by
  obtain ⟨ch, rest, rfl, _⟩ := group_head given
  exact Nat.succ_ne_zero _

theorem octet_hex {text : List Char} {octets : List UInt8} (given : Octet text octets) :
    Digits hexValue text ∧ text ≠ [] ∧ text.length ≤ 3 := by
  obtain ⟨_, _, all, nonempty, few, _⟩ := given
  refine ⟨fun ch member => ?_, nonempty, few⟩
  obtain ⟨value, read⟩ := Option.isSome_iff_exists.mp (all ch member)
  rw [(decimalValue_some read).1]
  rfl

private theorem quad_front {text : List Char} {octets : List UInt8} (quad : DottedQuad text octets) :
    ∃ first rest, text = first ++ '.' :: rest ∧ Digits hexValue first ∧ first ≠ [] ∧ first.length ≤ 3 := by
  obtain ⟨separated, four⟩ := quad
  cases separated with
  | last octet =>
    obtain ⟨_, rfl⟩ := octet_singleton octet
    cases four
  | cons octet _ => exact ⟨_, _, rfl, octet_hex octet⟩

private theorem tail_head {text : List Char} {words : List UInt16} (given : Tail text words) :
    ∃ ch rest, text = ch :: rest ∧ (hexValue ch).isSome := by
  rcases given with group | ⟨octets, quad, _⟩
  · exact group_head group
  · obtain ⟨first, rest, rfl, all, nonempty, _⟩ := quad_front quad
    obtain ⟨ch, front, rfl⟩ := List.exists_cons_of_ne_nil nonempty
    exact ⟨ch, front ++ '.' :: rest, rfl, all ch List.mem_cons_self⟩

theorem separated_head {final : List Char → List UInt16 → Prop} {text : List Char} {words : List UInt16}
    (separated : Separated ':' Group final text words) (heads : ∀ text words, final text words → Tail text words) :
    ∃ ch rest, text = ch :: rest ∧ (hexValue ch).isSome := by
  cases separated with
  | last end_ => exact tail_head (heads _ _ end_)
  | cons group _ =>
    obtain ⟨ch, rest, rfl, digit⟩ := group_head group
    exact ⟨ch, _, rfl, digit⟩

private theorem parseGroups_last (left : Nat) (words : List UInt16) (hole : Option Nat) {text : List Char} {word : UInt16}
    (given : Group text [word]) : parseGroups (left + 1) words hole text = some (words ++ [word], hole) := by
  have scanned := scan_group given (nofun : Stops hexValue [])
  have length := group_length given
  obtain ⟨ch, rest, rfl, _⟩ := group_head given
  rw [List.append_nil] at scanned
  rw [parseGroups, scanned]
  dsimp only
  rw [if_neg length, UInt16.ofNat_toNat]

private theorem parseGroups_quad (left : Nat) {words : List UInt16} (hole : Option Nat) {text : List Char} {octets : List UInt8}
    (quad : DottedQuad text octets) (room : words.length ≤ 6) :
    parseGroups (left + 1) words hole text = some (words ++ quadWords octets, hole) := by
  have parsed := (parseV4_iff text octets).mpr quad
  obtain ⟨first, rest, rfl, all, nonempty, few⟩ := quad_front quad
  obtain ⟨ch, front, rfl⟩ := List.exists_cons_of_ne_nil nonempty
  have stops : Stops hexValue ('.' :: rest) := by
    rintro _ _ ⟨⟩
    decide
  have fits : groupFits (0 + (ch :: front).length) (extend hexValue 16 0 (ch :: front)) = true := decide_eq_true (by omega)
  have scanned := scan_complete (Nat.succ_pos 15) groupFits_shrinks all stops fun _ => fits
  rw [List.cons_append] at scanned parsed ⊢
  rw [parseGroups, scanned]
  dsimp only
  rw [if_neg (Nat.not_lt.mpr room), parsed]
  rfl

private theorem parseGroups_next (left : Nat) (words : List UInt16) (hole : Option Nat) {first rest : List Char} {word : UInt16}
    (given : Group first [word]) {ch : Char} (digit : (hexValue ch).isSome) :
    parseGroups (left + 1) words hole (first ++ ':' :: ch :: rest) = parseGroups left (words ++ [word]) hole (ch :: rest) := by
  have scanned := scan_group given (stops_colon (ch :: rest))
  have length := group_length given
  obtain ⟨head, front, rfl, _⟩ := group_head given
  have other : ch ≠ ':' := by
    rintro rfl
    cases digit
  rw [List.cons_append] at scanned ⊢
  rw [parseGroups, scanned]
  split
  · next none => cases none
  · next dot => simp at dot
  · next same =>
    cases same
    rw [if_neg length, UInt16.ofNat_toNat]
    dsimp only
    split
    · next none => cases none
    · next double => exact absurd (List.cons.inj (List.cons.inj double).2).1 other
    · next ended => cases ended
    · next same => rw [(List.cons.inj same).2]
    · next none => exact absurd rfl (none _)

private theorem parseGroups_hole (left : Nat) (words : List UInt16) {first rest : List Char} {word : UInt16}
    (given : Group first [word]) :
    parseGroups (left + 1) words none (first ++ ':' :: ':' :: rest) =
      parseGroups left (words ++ [word]) (some (words ++ [word]).length) rest := by
  have scanned := scan_group given (stops_colon (':' :: rest))
  have length := group_length given
  obtain ⟨head, front, rfl, _⟩ := group_head given
  rw [List.cons_append] at scanned ⊢
  rw [parseGroups, scanned]
  split
  · next none => cases none
  · next dot => simp at dot
  · next same =>
    cases same
    rw [if_neg length, UInt16.ofNat_toNat]
    rfl

/-- What one round of the loop can have read when the parse succeeds. -/
inductive Round (left : Nat) (words : List UInt16) (hole : Option Nat) (text : List Char) (outcome : List UInt16 × Option Nat) : Prop where
  | ended {added : List UInt16} : Tail text added → words.length + added.length ≤ 8 → outcome = (words ++ added, hole) →
      Round left words hole text outcome
  | next {first : List Char} {ch : Char} {rest : List Char} {word : UInt16} : text = first ++ ':' :: ch :: rest → Group first [word] →
      parseGroups left (words ++ [word]) hole (ch :: rest) = some outcome → Round left words hole text outcome
  | hole {first rest : List Char} {word : UInt16} : text = first ++ ':' :: ':' :: rest → Group first [word] → hole = none →
      parseGroups left (words ++ [word]) (some (words ++ [word]).length) rest = some outcome → Round left words hole text outcome

theorem quadWords_length {octets : List UInt8} (four : octets.length = 4) : (quadWords octets).length = 2 := by
  match octets, four with
  | [_, _, _, _], _ => rfl

private theorem parseGroups_round {left : Nat} {words : List UInt16} {hole : Option Nat} {text : List Char}
    {outcome : List UInt16 × Option Nat} (nonempty : text ≠ []) (room : words.length + left = 7)
    (parsed : parseGroups (left + 1) words hole text = some outcome) : Round left words hole text outcome := by
  obtain ⟨ch, cursor, rfl⟩ := List.exists_cons_of_ne_nil nonempty
  rw [parseGroups] at parsed
  split at parsed
  · cases parsed
  · split at parsed
    · cases parsed
    · next few =>
      obtain ⟨octets, read, same⟩ := Option.map_eq_some_iff.mp parsed
      have quad := (parseV4_iff _ _).mp read
      refine .ended (.inr ⟨octets, quad, rfl⟩) ?_ same.symm
      rw [quadWords_length quad.2]
      omega
  · next value digits rest _ scanned =>
    split at parsed
    · cases parsed
    · next some_digit =>
      obtain ⟨first, whole, -, group⟩ := group_scanned scanned some_digit
      rw [whole]
      dsimp only at parsed
      split at parsed
      · cases parsed
        rw [List.append_nil]
        refine .ended (.inl group) ?_ rfl
        rw [List.length_singleton]
        omega
      · next rest =>
        split at parsed
        · cases parsed
        · next unset => exact .hole rfl group (Option.not_isSome_iff_eq_none.mp unset) parsed
      · cases parsed
      · next later _ no_end _ =>
        cases later with
        | nil => exact absurd rfl no_end
        | cons ch rest => exact .next rfl group parsed
      · cases parsed

/-- What the rest of a text adds to the words, and where it puts the hole. -/
inductive Adds (start : Nat) (hole : Option Nat) (text : List Char) : List UInt16 → Option Nat → Prop where
  | back {added : List UInt16} : Back text added → Adds start hole text added hole
  | hole {left right : List Char} {front back : List UInt16} : hole = none → text = left ++ ':' :: ':' :: right →
      Separated ':' Group Group left front → Back right back → Adds start hole text (front ++ back) (some (start + front.length))

theorem parseGroups_sound {left : Nat} {words final : List UInt16} {hole last : Option Nat} {text : List Char}
    (room : words.length + left = 8) (parsed : parseGroups left words hole text = some (final, last)) :
    ∃ added, final = words ++ added ∧ final.length ≤ 8 ∧ Adds words.length hole text added last := by
  induction left generalizing words hole text with
  | zero =>
    cases text with
    | nil =>
      cases parsed
      exact ⟨[], (List.append_nil _).symm, by omega, .back (.inl ⟨rfl, rfl⟩)⟩
    | cons ch rest => cases parsed
  | succ left ih =>
    by_cases nonempty : text = []
    · subst nonempty
      cases parsed
      exact ⟨[], (List.append_nil _).symm, by omega, .back (.inl ⟨rfl, rfl⟩)⟩
    · have rooms : ∀ word, (words ++ [word]).length + left = 8 := by
        intro word
        rw [List.length_append, List.length_singleton]
        omega
      cases parseGroups_round nonempty (by omega) parsed with
      | ended tail few same =>
        cases same
        refine ⟨_, rfl, ?_, .back (.inr (.last tail))⟩
        rw [List.length_append]
        exact few
      | @next first ch rest word whole group later =>
        obtain ⟨added, rfl, few, adds⟩ := ih (rooms word) later
        refine ⟨word :: added, List.append_assoc _ _ _, few, ?_⟩
        subst whole
        cases adds with
        | back back =>
          rcases back with ⟨none, _⟩ | separated
          · cases none
          · exact .back (.inr (.cons group separated))
        | @hole left right front back unset whole separated back_right =>
          rw [whole]
          have place : (words ++ [word]).length + front.length = words.length + ([word] ++ front).length := by
            simp only [List.length_append, List.length_singleton]
            omega
          rw [place]
          exact .hole unset (List.append_assoc first (':' :: left) _).symm (.cons group separated) back_right
      | @hole first rest word whole group unset later =>
        obtain ⟨added, rfl, few, adds⟩ := ih (rooms word) later
        refine ⟨word :: added, List.append_assoc _ _ _, few, ?_⟩
        subst whole
        cases adds with
        | back back =>
          rw [List.length_append]
          exact .hole unset rfl (.last group) back
        | hole set => cases set

theorem parseGroups_back {text : List Char} {added : List UInt16} (separated : Separated ':' Group Tail text added)
    {left : Nat} {words : List UInt16} (hole : Option Nat) (room : words.length + left = 8)
    (few : words.length + added.length ≤ 8) : parseGroups left words hole text = some (words ++ added, hole) := by
  induction separated generalizing left words with
  | last tail =>
    rcases tail with group | ⟨octets, quad, rfl⟩
    · obtain ⟨word, rfl⟩ := group_singleton group
      rw [List.length_singleton] at few
      obtain ⟨less, rfl⟩ : ∃ less, left = less + 1 := ⟨left - 1, by omega⟩
      exact parseGroups_last less words hole group
    · rw [quadWords_length quad.2] at few
      obtain ⟨less, rfl⟩ : ∃ less, left = less + 1 := ⟨left - 1, by omega⟩
      exact parseGroups_quad less hole quad (by omega)
  | cons group rest ih =>
    obtain ⟨word, rfl⟩ := group_singleton group
    rw [List.length_append, List.length_singleton] at few
    obtain ⟨less, rfl⟩ : ∃ less, left = less + 1 := ⟨left - 1, by omega⟩
    obtain ⟨ch, text, rfl, digit⟩ := separated_head rest fun _ _ tail => tail
    rw [parseGroups_next less words hole group digit, ih, List.append_assoc]
    · rw [List.length_append, List.length_singleton]
      omega
    · rw [List.length_append, List.length_singleton]
      omega

theorem parseGroups_Back {text : List Char} {added : List UInt16} (back : Back text added) {left : Nat} {words : List UInt16}
    (hole : Option Nat) (room : words.length + left = 8) (few : words.length + added.length ≤ 8) :
    parseGroups left words hole text = some (words ++ added, hole) := by
  rcases back with ⟨rfl, rfl⟩ | separated
  · rw [List.append_nil]
    cases left <;> rfl
  · exact parseGroups_back separated hole room few

theorem parseGroups_double {text right : List Char} {front back : List UInt16} (separated : Separated ':' Group Group text front)
    (later : Back right back) {left : Nat} {words : List UInt16} (room : words.length + left = 8)
    (few : words.length + front.length + back.length ≤ 8) :
    parseGroups left words none (text ++ ':' :: ':' :: right) =
      some (words ++ front ++ back, some (words.length + front.length)) := by
  induction separated generalizing left words with
  | last group =>
    obtain ⟨word, rfl⟩ := group_singleton group
    rw [List.length_singleton] at few
    obtain ⟨less, rfl⟩ : ∃ less, left = less + 1 := ⟨left - 1, by omega⟩
    rw [parseGroups_hole less words group, parseGroups_Back later, List.length_append]
    · rw [List.length_append, List.length_singleton]
      omega
    · rw [List.length_append, List.length_singleton]
      omega
  | cons group rest ih =>
    obtain ⟨word, rfl⟩ := group_singleton group
    rw [List.length_append, List.length_singleton] at few
    obtain ⟨less, rfl⟩ : ∃ less, left = less + 1 := ⟨left - 1, by omega⟩
    have rest_head := separated_head rest fun _ _ group => Or.inl group
    obtain ⟨ch, text, rfl, digit⟩ := rest_head
    rw [List.append_assoc, List.cons_append, List.cons_append, parseGroups_next less words none group digit, ← List.cons_append, ih]
    · simp only [List.append_assoc, List.length_append, List.length_singleton, Nat.add_assoc]
    · rw [List.length_append, List.length_singleton]
      omega
    · rw [List.length_append, List.length_singleton]
      omega

end ArduinoK210.Net
