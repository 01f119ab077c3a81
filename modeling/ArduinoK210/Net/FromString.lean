import ArduinoK210.Net.Parse

/-! `fromString` reads the texts of the grammar and no others. -/

namespace ArduinoK210.Net

private theorem fillHole_some {front back : List UInt16} (few : front.length + back.length ≤ 7) :
    fillHole (front ++ back) (some front.length) =
      some (front ++ List.replicate (8 - (front.length + back.length)) 0 ++ back) := by
  rw [fillHole, if_neg (by rw [List.length_append]; omega), List.take_left, List.drop_left, List.length_append]

private theorem parseV6_digit {ch : Char} (digit : (hexValue ch).isSome) (rest : List Char) :
    parseV6 (ch :: rest) = (parseGroups 8 [] none (ch :: rest)).bind fun (words, hole) => fillHole words hole := by
  have other : ch ≠ ':' := by
    rintro rfl
    cases digit
  unfold parseV6
  split
  · next none => cases none
  · next double => exact absurd (List.cons.inj double).1 other
  · next single => exact absurd (List.cons.inj single).1 other
  · rfl

private theorem parseV6_sound {text : List Char} {words : List UInt16} (parsed : parseV6 text = some words) : IPv6Text text words := by
  unfold parseV6 at parsed
  split at parsed
  · cases parsed
  · next rest =>
    obtain ⟨⟨read, hole⟩, scanned, filled⟩ := Option.bind_eq_some_iff.mp parsed
    obtain ⟨_, rfl, few, adds⟩ := parseGroups_sound rfl scanned
    dsimp only at filled
    cases adds with
    | back back =>
      rw [fillHole] at filled
      split at filled
      · cases filled
      · next room =>
        cases filled
        refine .inr ⟨[], rest, [], read, rfl, .inl ⟨rfl, rfl⟩, back, ?_, ?_⟩
        · rw [List.length_nil]
          omega
        · rw [List.length_nil, Nat.zero_add]
          rfl
    | hole unset => cases unset
  · cases parsed
  · obtain ⟨⟨read, hole⟩, scanned, filled⟩ := Option.bind_eq_some_iff.mp parsed
    obtain ⟨_, rfl, few, adds⟩ := parseGroups_sound rfl scanned
    dsimp only at filled
    cases adds with
    | back back =>
      rw [fillHole] at filled
      split at filled
      · next eight =>
        cases filled
        rcases back with ⟨rfl, rfl⟩ | separated
        · cases eight
        · exact .inl ⟨separated, eight⟩
      · cases filled
    | @hole left right front back _ whole separated back_right =>
      rw [List.length_nil, Nat.zero_add] at filled
      have room : front.length + back.length ≤ 7 := by
        by_contra full
        rw [fillHole, if_pos (by rw [List.length_append]; omega)] at filled
        cases filled
      rw [fillHole_some room] at filled
      cases filled
      exact .inr ⟨left, right, front, back, whole, .inr separated, back_right, room, rfl⟩

private theorem parseV6_complete {text : List Char} {words : List UInt16} (given : IPv6Text text words) : parseV6 text = some words := by
  rcases given with ⟨separated, eight⟩ | ⟨left, right, front, back, rfl, front_left, back_right, few, rfl⟩
  · obtain ⟨ch, rest, rfl, digit⟩ := separated_head separated fun _ _ tail => tail
    rw [parseV6_digit digit, parseGroups_back separated none rfl (by rw [List.length_nil, eight]), Option.bind_some, List.nil_append]
    exact if_pos eight
  · rcases front_left with ⟨rfl, rfl⟩ | separated
    · rw [List.length_nil, Nat.zero_add] at few
      have scanned := parseGroups_Back back_right (some 0) (rfl : ([] : List UInt16).length + 8 = 8)
        (by rw [List.length_nil]; omega)
      show (parseGroups 8 [] (some 0) right).bind _ = _
      rw [scanned, Option.bind_some]
      have few' : ([] : List UInt16).length + back.length ≤ 7 := by
        rw [List.length_nil]
        omega
      exact fillHole_some few'
    · have scanned := parseGroups_double separated back_right (rfl : ([] : List UInt16).length + 8 = 8)
        (by rw [List.length_nil]; omega)
      obtain ⟨ch, rest, rfl, digit⟩ := separated_head separated fun _ _ group => Or.inl group
      rw [List.cons_append, parseV6_digit digit, ← List.cons_append, scanned, Option.bind_some, List.nil_append, List.length_nil,
        Nat.zero_add]
      exact fillHole_some few

/-- A dotted quad has digits and dots only. -/
theorem quad_chars {text : List Char} {octets : List UInt8} (separated : Separated '.' Octet Octet text octets) :
    ∀ ch ∈ text, ch = '.' ∨ (decimalValue ch).isSome := by
  induction separated with
  | last octet =>
    obtain ⟨_, _, all, _⟩ := octet
    exact fun ch member => .inr (all ch member)
  | cons octet _ ih =>
    obtain ⟨_, _, all, _⟩ := octet
    intro ch member
    rcases List.mem_append.mp member with front | back
    · exact .inr (all ch front)
    · rcases List.mem_cons.mp back with rfl | back
      · exact .inl rfl
      · exact ih ch back

private theorem quad_no_colon {text : List Char} {octets : List UInt8} (quad : DottedQuad text octets) : ':' ∉ text := by
  intro member
  rcases quad_chars quad.1 ':' member with dot | digit
  · exact absurd dot (by decide)
  · cases digit

private theorem ipv6_colon {text : List Char} {words : List UInt16} (given : IPv6Text text words) : ':' ∈ text := by
  rcases given with ⟨separated, eight⟩ | ⟨left, right, front, back, rfl, _⟩
  · cases separated with
    | last tail =>
      rcases tail with group | ⟨octets, quad, rfl⟩
      · obtain ⟨word, rfl⟩ := group_singleton group
        cases eight
      · rw [quadWords_length quad.2] at eight
        cases eight
    | cons _ _ => exact List.mem_append_right _ List.mem_cons_self
  · exact List.mem_append_right _ List.mem_cons_self

theorem fromString_denotes {text : List Char} {address : IPAddress} (denotes : Denotes text address) (before : IPAddress) :
    fromString text before = (true, address) := by
  cases denotes with
  | quad quad =>
    rw [fromString, if_neg (quad_no_colon quad), fromString4, (parseV4_iff _ _).mpr quad]
  | groups given =>
    rw [fromString, if_pos (ipv6_colon given), fromString6, parseV6_complete given]

private theorem denotes_fromString {text : List Char} {before after : IPAddress} (read : fromString text before = (true, after)) :
    Denotes text after := by
  rw [fromString] at read
  split at read
  · rw [fromString6] at read
    split at read
    · next words parsed =>
      cases read
      exact .groups (parseV6_sound parsed)
    · cases read
  · rw [fromString4] at read
    split at read
    · next parsed =>
      cases read
      exact .quad ((parseV4_iff _ _).mp parsed)
    · cases read

private theorem fromString_false {text : List Char} {before after : IPAddress} (read : fromString text before = (false, after)) :
    after = before := by
  rw [fromString] at read
  split at read
  · rw [fromString6] at read
    split at read
    · cases read
    · cases read
      rfl
  · rw [fromString4] at read
    split at read
    · cases read
    · cases read
      rfl

/-- `fromString` succeeds exactly on the texts of the grammar, with the address that the text denotes, and changes nothing when it
fails. -/
theorem fromString_grammar (text : List Char) (before : IPAddress) :
    ((fromString text before).1 = true ↔ ∃ address, Denotes text address) ∧
    (∀ address, Denotes text address → (fromString text before).2 = address) ∧
    ((fromString text before).1 = false → (fromString text before).2 = before) := by
  refine ⟨⟨fun read => ?_, ?_⟩, ?_, fun read => ?_⟩
  · exact ⟨_, denotes_fromString (Prod.ext read rfl)⟩
  · rintro ⟨address, denotes⟩
    rw [fromString_denotes denotes]
  · intro address denotes
    rw [fromString_denotes denotes]
  · exact fromString_false (Prod.ext read rfl)

end ArduinoK210.Net
