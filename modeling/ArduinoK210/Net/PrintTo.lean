import ArduinoK210.Net.FromString

/-! The text that `printTo` writes is read back as the same address, and shortens the first longest run of zero groups. -/

namespace ArduinoK210.Net
open Numeral

namespace IPAddress

def wordAt (address : IPAddress) (index : Nat) : UInt16 := if inside : index < 8 then address.word ⟨index, inside⟩ else 0

def words (address : IPAddress) : List UInt16 := (List.range 8).map address.wordAt

end IPAddress

def hexText (word : UInt16) : List Char := Nat.toDigits 16 word.toNat

/-- The groups of some words, with a colon between each two. -/
def joinGroups (words : List UInt16) : List Char := [':'].intercalate (words.map hexText)

/-- `length` words from `start` on are zero. -/
def ZeroRun (zero : Nat → Prop) (start length : Nat) : Prop :=
  start + length ≤ 8 ∧ ∀ index, start ≤ index → index < start + length → zero index

/-- A run of at least two that no other exceeds, and the first of its length. -/
structure FirstLongest (zero : Nat → Prop) (start length : Nat) : Prop where
  two : 2 ≤ length
  run : ZeroRun zero start length
  longest : ∀ other more, ZeroRun zero other more → more ≤ length ∧ (more = length → start ≤ other)

/-- The text of an IPv6 address: all its groups, or a double colon for the first longest run of zeros. -/
inductive Shortened (address : IPAddress) : List Char → Prop where
  | full : (∀ start length, ZeroRun (address.wordAt · = 0) start length → length ≤ 1) → Shortened address (joinGroups address.words)
  | run {start length : Nat} : FirstLongest (address.wordAt · = 0) start length →
      Shortened address (joinGroups (address.words.take start) ++ ':' :: ':' :: joinGroups (address.words.drop (start + length)))

section Search
variable {zero : Nat → Bool}

private theorem runEnd_spec (zero : Nat → Bool) (left last : Nat) (bounded : last + left = 8) :
    last ≤ runEnd zero left last ∧ runEnd zero left last ≤ 8 ∧
      (∀ index, last ≤ index → index < runEnd zero left last → zero index = true) ∧
      (runEnd zero left last < 8 → zero (runEnd zero left last) = false) := by
  induction left generalizing last with
  | zero =>
    rw [runEnd]
    exact ⟨Nat.le_refl _, by omega, fun index low high => absurd high (Nat.not_lt.mpr low), fun inside => absurd inside (by omega)⟩
  | succ left ih =>
    rw [runEnd]
    split
    · next here =>
      obtain ⟨low, high, all, stops⟩ := ih (last + 1) (by omega)
      refine ⟨by omega, high, fun index from_last below => ?_, stops⟩
      rcases Nat.eq_or_lt_of_le from_last with rfl | later
      · exact here
      · exact all index later below
    · next here =>
      exact ⟨Nat.le_refl _, by omega, fun index low high => absurd high (Nat.not_lt.mpr low), fun _ => Bool.eq_false_of_not_eq_true here⟩

/-- The runs that begin before `index` end there, and `best` is the first longest of them. -/
structure Searched (zero : Nat → Bool) (index : Nat) (best : Nat × Nat) : Prop where
  found : best = (8, 0) ∨ 2 ≤ best.2 ∧ ZeroRun (zero · = true) best.1 best.2
  before : best.2 ≠ 0 → best.1 < index
  passed : ∀ start length, ZeroRun (zero · = true) start length → 2 ≤ length → start < index →
    start + length ≤ index ∧ length ≤ best.2 ∧ (length = best.2 → best.1 ≤ start)

private theorem Searched.skip {index : Nat} {best : Nat × Nat} (searched : Searched zero index best) (nonzero : zero index = false) :
    Searched zero (index + 1) best := by
  obtain ⟨found, before, passed⟩ := searched
  refine ⟨found, fun some_run => Nat.lt_succ_of_lt (before some_run), fun start length run two early => ?_⟩
  rcases Nat.lt_or_ge start index with earlier | here
  · obtain ⟨ends, rest⟩ := passed start length run two earlier
    exact ⟨Nat.le_succ_of_le ends, rest⟩
  · have same : start = index := by omega
    subst same
    have set : zero start = true := run.2 start (Nat.le_refl _) (by omega)
    rw [nonzero] at set
    cases set

private theorem Searched.pass {index last : Nat} {best : Nat × Nat} (searched : Searched zero index best) (further : index < last)
    (inside : last ≤ 8) (all : ∀ other, index ≤ other → other < last → zero other = true)
    (stops : last < 8 → zero last = false) :
    Searched zero last (if best.2 < last - index ∧ 2 ≤ last - index then (index, last - index) else best) := by
  obtain ⟨found, before, passed⟩ := searched
  have run : ZeroRun (zero · = true) index (last - index) := ⟨by omega, fun other low high => all other low (by omega)⟩
  have ends : ∀ start length, ZeroRun (zero · = true) start length → index ≤ start → start < last → start + length ≤ last := by
    intro start length other low early
    by_contra beyond
    have below : last < 8 := by
      have bound := other.1
      omega
    have set : zero last = true := other.2 last (by omega) (by omega)
    rw [stops below] at set
    cases set
  split
  · next better =>
    refine ⟨.inr ⟨better.2, run⟩, fun _ => further, fun start length other two early => ?_⟩
    rcases Nat.lt_or_ge start index with earlier | here
    · obtain ⟨last_end, less, _⟩ := passed start length other two earlier
      exact ⟨by omega, by omega, fun same => absurd same (by omega)⟩
    · have bound := ends start length other here early
      exact ⟨bound, by omega, fun _ => here⟩
  · next worse =>
    refine ⟨found, fun some_run => (before some_run).trans further, fun start length other two early => ?_⟩
    rcases Nat.lt_or_ge start index with earlier | here
    · obtain ⟨last_end, rest⟩ := passed start length other two earlier
      exact ⟨by omega, rest⟩
    · have bound := ends start length other here early
      refine ⟨bound, by omega, fun same => ?_⟩
      have earlier := before (by omega)
      omega

private theorem bestRun_searched (left index : Nat) (best : Nat × Nat) (enough : 8 ≤ index + left) (inside : index ≤ 8)
    (searched : Searched zero index best) : Searched zero 8 (bestRun zero left index best) := by
  induction left generalizing index best with
  | zero =>
    have finished : index = 8 := by omega
    rw [bestRun, ← finished]
    exact searched
  | succ left ih =>
    rw [bestRun]
    split
    · next finished =>
      have same : index = 8 := by omega
      rw [← same]
      exact searched
    · next more =>
      split
      · next here =>
        obtain ⟨low, high, all, stops⟩ := runEnd_spec zero (8 - index) index (by omega)
        have further : index < runEnd zero (8 - index) index := by
          rcases Nat.eq_or_lt_of_le low with same | further
          · have unset := stops (by omega)
            rw [← same, here] at unset
            cases unset
          · exact further
        exact ih _ _ (by omega) high (searched.pass further high all stops)
      · next here =>
        exact ih _ _ (by omega) (by omega) (searched.skip (Bool.eq_false_of_not_eq_true here))

/-- The search finds the first longest run of at least two zeros, or says that there is none. -/
theorem bestRun_spec (zero : Nat → Bool) :
    (bestRun zero 8 0 (8, 0) = (8, 0) ∧ ∀ start length, ZeroRun (zero · = true) start length → length ≤ 1) ∨
    FirstLongest (zero · = true) (bestRun zero 8 0 (8, 0)).1 (bestRun zero 8 0 (8, 0)).2 := by
  have start : Searched zero 0 (8, 0) := ⟨.inl rfl, fun some_run => absurd rfl some_run, fun _ _ _ _ early => absurd early (Nat.not_lt_zero _)⟩
  obtain ⟨found, _, passed⟩ := bestRun_searched 8 0 (8, 0) (Nat.le_refl _) (Nat.zero_le _) start
  rcases found with none | ⟨two, run⟩
  · refine .inl ⟨none, fun start length other => ?_⟩
    by_contra long
    have bound := other.1
    obtain ⟨_, less, _⟩ := passed start length other (by omega) (by omega)
    rw [none] at less
    have less : length ≤ 0 := less
    omega
  · refine .inr ⟨two, run, fun start length other => ?_⟩
    rcases Nat.lt_or_ge length 2 with short | long
    · exact ⟨by omega, fun same => absurd same (by omega)⟩
    · have bound := other.1
      obtain ⟨_, rest⟩ := passed start length other long (by omega)
      exact rest

end Search

section Groups

def addGroup (text group : List Char) : List Char := (if text ≠ [] ∧ text.getLast? ≠ some ':' then text ++ [':'] else text) ++ group

def Plain (group : List Char) : Prop := group ≠ [] ∧ group.getLast? ≠ some ':'

private theorem addGroup_plain (text : List Char) {group : List Char} (plain : Plain group) : Plain (addGroup text group) := by
  obtain ⟨nonempty, last⟩ := plain
  refine ⟨fun none => nonempty (List.append_eq_nil_iff.mp none).2, ?_⟩
  rw [addGroup, List.getLast?_append, List.getLast?_eq_some_getLast nonempty, Option.some_or, ← List.getLast?_eq_some_getLast nonempty]
  exact last

private theorem foldl_addGroup {groups : List (List Char)} (plain : ∀ group ∈ groups, Plain group) (text : List Char) (some_group : groups ≠ []) :
    groups.foldl addGroup text = addGroup text ([':'].intercalate groups) := by
  induction groups generalizing text with
  | nil => exact absurd rfl some_group
  | cons group rest ih =>
    rw [List.foldl_cons]
    by_cases last : rest = []
    · subst last
      rw [List.intercalate_singleton]
      rfl
    · have first := addGroup_plain text (plain group List.mem_cons_self)
      have separated : addGroup (addGroup text group) ([':'].intercalate rest) = addGroup text group ++ [':'] ++ [':'].intercalate rest :=
        congrArg (· ++ [':'].intercalate rest) (if_pos first)
      rw [ih (fun other member => plain other (List.mem_cons_of_mem _ member)) _ last, List.intercalate_cons_of_ne_nil last, separated]
      simp only [addGroup, List.append_assoc]

variable (words : Nat → UInt16) (best : Nat × Nat)

theorem printGroups_plain (left index last : Nat) (text : List Char) (ordered : index ≤ last) (inside : last ≤ 8)
    (enough : 8 ≤ index + left) (unshortened : ∀ other, index ≤ other → other < last → other ≠ best.1) :
    ∃ more, 8 ≤ last + more ∧ printGroups words best left index text =
      printGroups words best more last (((List.range' index (last - index)).map fun other => hexText (words other)).foldl addGroup text) := by
  induction left generalizing index text with
  | zero =>
    have same : index = last := by omega
    subst same
    rw [Nat.sub_self]
    exact ⟨0, enough, rfl⟩
  | succ left ih =>
    rcases Nat.eq_or_lt_of_le ordered with rfl | further
    · rw [Nat.sub_self]
      exact ⟨left + 1, enough, rfl⟩
    · obtain ⟨more, still, same⟩ := ih (index + 1) (addGroup text (hexText (words index))) further (by omega)
        fun other low high => unshortened other (by omega) high
      refine ⟨more, still, ?_⟩
      have step : last - index = last - (index + 1) + 1 := by omega
      rw [printGroups, if_neg (by omega), if_neg (unshortened index (Nat.le_refl _) further), step, List.range'_succ, List.map_cons,
        List.foldl_cons, ← same]
      rfl

private theorem printGroups_end (left : Nat) (text : List Char) : printGroups words best left 8 text = text := by
  cases left <;> rfl

end Groups

private theorem hexValue_reads : Reads hexValue 16 := by
  unfold Reads
  decide

private theorem decimalValue_reads : Reads decimalValue 10 := by
  unfold Reads
  decide

private theorem hexText_group (word : UInt16) : Group (hexText word) [word] := by
  obtain ⟨all, same⟩ := toDigits_reads (by decide) hexValue_reads word.toNat
  refine ⟨word, rfl, all, Nat.toDigits_ne_nil, ?_, same⟩
  exact (Nat.length_toDigits_le_iff (by decide) (by decide)).mpr word.toNat_lt

private theorem decimal_octet (octet : UInt8) : Octet (Nat.toDigits 10 octet.toNat) [octet] := by
  obtain ⟨all, same⟩ := toDigits_reads (by decide) decimalValue_reads octet.toNat
  refine ⟨octet, rfl, all, Nat.toDigits_ne_nil, ?_, same⟩
  exact (Nat.length_toDigits_le_iff (by decide) (by decide)).mpr (Nat.lt_of_lt_of_le octet.toNat_lt (by decide))

private theorem hexText_plain (word : UInt16) : Plain (hexText word) := by
  obtain ⟨_, _, all, nonempty, _⟩ := hexText_group word
  refine ⟨nonempty, fun last => ?_⟩
  have digit := all ':' (List.mem_of_getLast? last)
  cases digit

private theorem joinGroups_singleton (word : UInt16) : joinGroups [word] = hexText word := List.intercalate_singleton

private theorem joinGroups_cons (word : UInt16) {rest : List UInt16} (more : rest ≠ []) :
    joinGroups (word :: rest) = hexText word ++ ':' :: joinGroups rest := by
  rw [joinGroups, List.map_cons, List.intercalate_cons_of_ne_nil (fun none => more (List.map_eq_nil_iff.mp none)), List.append_assoc]
  rfl

private theorem joinGroups_group {words : List UInt16} (some_word : words ≠ []) : Separated ':' Group Group (joinGroups words) words := by
  induction words with
  | nil => exact absurd rfl some_word
  | cons word rest ih =>
    by_cases last : rest = []
    · subst last
      rw [joinGroups_singleton]
      exact .last (hexText_group word)
    · rw [joinGroups_cons word last]
      exact .cons (hexText_group word) (ih last)

private theorem joinGroups_front (words : List UInt16) : Front (joinGroups words) words := by
  by_cases none : words = []
  · subst none
    exact .inl ⟨rfl, rfl⟩
  · exact .inr (joinGroups_group none)

private theorem joinGroups_back (words : List UInt16) : Back (joinGroups words) words := by
  by_cases none : words = []
  · subst none
    exact .inl ⟨rfl, rfl⟩
  · exact .inr ((joinGroups_group none).mono fun _ _ group => .inl group)

private theorem joinGroups_length (words : List UInt16) : (joinGroups words).length ≤ 5 * words.length - 1 := by
  induction words with
  | nil => exact Nat.le_refl 0
  | cons word rest ih =>
    obtain ⟨_, _, _, _, few, _⟩ := hexText_group word
    by_cases last : rest = []
    · subst last
      rw [joinGroups_singleton]
      exact few
    · have more := List.length_pos_iff.mpr last
      rw [joinGroups_cons word last, List.length_append, List.length_cons, List.length_cons]
      omega

theorem foldl_words {words : List UInt16} (text : List Char) (some_word : words ≠ []) :
    (words.map hexText).foldl addGroup text = addGroup text (joinGroups words) := by
  apply foldl_addGroup
  · intro group member
    obtain ⟨word, _, rfl⟩ := List.mem_map.mp member
    exact hexText_plain word
  · exact fun none => some_word (List.map_eq_nil_iff.mp none)

private theorem foldl_start (words : List UInt16) : (words.map hexText).foldl addGroup [] = joinGroups words := by
  by_cases none : words = []
  · subst none
    rfl
  · exact foldl_words [] none

private theorem foldl_double (words : List UInt16) (text : List Char) :
    (words.map hexText).foldl addGroup (text ++ [':', ':']) = text ++ ':' :: ':' :: joinGroups words := by
  by_cases none : words = []
  · subst none
    rfl
  · have ends : ¬(text ++ [':', ':'] ≠ [] ∧ (text ++ [':', ':']).getLast? ≠ some ':') := by
      rintro ⟨_, other⟩
      rw [List.getLast?_append] at other
      exact other rfl
    rw [foldl_words _ none, addGroup, if_neg ends, List.append_assoc]
    rfl

theorem word_toNat (high low : UInt8) : (high.toUInt16 <<< 8 ||| low.toUInt16).toNat = high.toNat * 256 + low.toNat := by
  have small := low.toNat_lt
  have large := high.toNat_lt
  have shifted : (high.toUInt16 <<< 8).toNat = 2 ^ 8 * high.toNat := by
    rw [UInt16.toNat_shiftLeft, UInt8.toNat_toUInt16, Nat.shiftLeft_eq]
    show high.toNat * 2 ^ 8 % 2 ^ 16 = _
    omega
  rw [UInt16.toNat_or, shifted, UInt8.toNat_toUInt16, ← Nat.two_pow_add_eq_or_of_lt small]
  omega

namespace IPAddress
variable (address : IPAddress)

private theorem words_length : address.words.length = 8 := by
  rw [words, List.length_map, List.length_range]

private theorem words_take {count : Nat} (few : count ≤ 8) :
    (address.words.take count).map hexText = (List.range' 0 (count - 0)).map fun index => hexText (address.wordAt index) := by
  rw [words, List.range_eq_range', ← List.map_take, List.map_map, List.take_range'_of_length_ge few]
  rfl

private theorem words_drop (count : Nat) :
    (address.words.drop count).map hexText = (List.range' count (8 - count)).map fun index => hexText (address.wordAt index) := by
  rw [words, List.range_eq_range', ← List.map_drop, List.map_map, List.drop_range', Nat.zero_add, Nat.mul_one]
  rfl

private theorem isZero_iff (index : Nat) (inside : index < 8) : address.isZero index = true ↔ address.wordAt index = 0 := by
  rw [isZero, wordAt, dif_pos inside, dif_pos inside, word, Bool.and_eq_true_iff, beq_iff_eq, beq_iff_eq]
  constructor
  · rintro ⟨high, low⟩
    rw [high, low]
    rfl
  · intro zero
    have sum : (address.bytes ⟨2 * index, by omega⟩).toNat * 256 + (address.bytes ⟨2 * index + 1, by omega⟩).toNat = 0 :=
      (word_toNat _ _).symm.trans (congrArg UInt16.toNat zero)
    exact ⟨UInt8.toNat_inj.mp (by rw [UInt8.toNat_zero]; omega), UInt8.toNat_inj.mp (by rw [UInt8.toNat_zero]; omega)⟩

private theorem ofWords_words (wide : address.family = .IPv6) : ofWords (fun index => address.words.getD index 0) = address := by
  have each : ∀ index : Fin 8, address.words.getD index.val 0 = address.word index := by
    intro index
    have inside : index.val < address.words.length := by
      rw [words_length]
      exact index.isLt
    rw [List.getD_eq_getElem?_getD, List.getElem?_eq_getElem inside]
    simp only [words, List.getElem_map, List.getElem_range, wordAt, index.isLt, dite_true, Option.getD_some]
  ext index
  · have half : index.val / 2 < 8 := by omega
    have small := (address.bytes index).toNat_lt
    show (if index.val % 2 = 0 then (address.words.getD (index.val / 2) 0 >>> 8).toUInt8
      else (address.words.getD (index.val / 2) 0).toUInt8).toNat = _
    rw [each ⟨index.val / 2, half⟩]
    have sum := word_toNat (address.bytes ⟨2 * (index.val / 2), by omega⟩) (address.bytes ⟨2 * (index.val / 2) + 1, by omega⟩)
    have low := (address.bytes ⟨2 * (index.val / 2) + 1, by omega⟩).toNat_lt
    split
    · next even =>
      have place : (⟨2 * (index.val / 2), by omega⟩ : Fin 16) = index := Fin.ext (by show 2 * (index.val / 2) = _; omega)
      rw [place] at sum
      rw [UInt16.toNat_toUInt8, UInt16.toNat_shiftRight, word, place, sum, Nat.shiftRight_eq_div_pow]
      show (_ + _) / 2 ^ 8 % 2 ^ 8 = _
      omega
    · next odd =>
      have place : (⟨2 * (index.val / 2) + 1, by omega⟩ : Fin 16) = index := Fin.ext (by show 2 * (index.val / 2) + 1 = _; omega)
      rw [place] at sum
      rw [UInt16.toNat_toUInt8, word, place, sum]
      omega
  · exact wide.symm

end IPAddress

private theorem zeroRun_congr {zero other : Nat → Prop} (same : ∀ index < 8, zero index ↔ other index) {start length : Nat} :
    ZeroRun zero start length ↔ ZeroRun other start length := by
  apply and_congr_right
  intro inside
  exact forall_congr' fun index => imp_congr_right fun _ => imp_congr_right fun below => same index (by omega)

theorem printTo_shortened (address : IPAddress) (wide : address.family = .IPv6) : Shortened address address.printTo := by
  have congr : ∀ start length, ZeroRun (address.isZero · = true) start length ↔ ZeroRun (address.wordAt · = 0) start length :=
    fun _ _ => zeroRun_congr address.isZero_iff
  have text : address.printTo = printGroups address.wordAt (bestRun address.isZero 8 0 (8, 0)) 8 0 [] := by
    rw [IPAddress.printTo, wide]
    rfl
  rw [text]
  rcases bestRun_spec address.isZero with ⟨none, short⟩ | best
  · rw [none]
    obtain ⟨more, _, same⟩ := printGroups_plain address.wordAt (8, 0) 8 0 8 [] (Nat.zero_le _) (Nat.le_refl _)
      (Nat.le_refl _) fun other _ high => Nat.ne_of_lt high
    rw [same, printGroups_end, ← address.words_drop 0, List.drop_zero, foldl_start]
    exact .full fun start length run => short start length ((congr start length).mpr run)
  · generalize bestRun address.isZero 8 0 (8, 0) = chosen at best
    obtain ⟨start, length⟩ := chosen
    have inside : start + length ≤ 8 := best.run.1
    have two : 2 ≤ length := best.two
    obtain ⟨more, enough, first⟩ := printGroups_plain address.wordAt (start, length) 8 0 start [] (Nat.zero_le _)
      (by omega) (Nat.le_refl _) fun other _ high => Nat.ne_of_lt high
    obtain ⟨less, rfl⟩ : ∃ less, more = less + 1 := ⟨more - 1, by omega⟩
    rw [first, ← address.words_take (by omega), foldl_start, printGroups, if_neg (by omega), if_pos rfl]
    obtain ⟨last, _, second⟩ := printGroups_plain address.wordAt (start, length) less (start + length) 8
      (joinGroups (address.words.take start) ++ [':', ':']) inside (Nat.le_refl _) (by omega) fun other low _ => Nat.ne_of_gt (by omega)
    rw [second, printGroups_end, ← address.words_drop, foldl_double]
    refine .run ⟨best.two, (congr _ _).mp best.run, fun other more run => ?_⟩
    exact best.longest other more ((congr _ _).mpr run)

private theorem Shortened.length_le {address : IPAddress} {text : List Char} (shortened : Shortened address text) : text.length ≤ 39 := by
  have eight := address.words_length
  cases shortened with
  | full =>
    have bound := joinGroups_length address.words
    omega
  | @run start length first =>
    have two := first.two
    have inside := first.run.1
    have left := joinGroups_length (address.words.take start)
    have right := joinGroups_length (address.words.drop (start + length))
    rw [List.length_take, eight] at left
    rw [List.length_drop, eight] at right
    rw [List.length_append, List.length_cons, List.length_cons]
    omega

private theorem Shortened.denotes {address : IPAddress} {text : List Char} (wide : address.family = .IPv6)
    (shortened : Shortened address text) : Denotes text address := by
  have eight := address.words_length
  have whole : IPv6Text text address.words := by
    cases shortened with
    | full =>
      refine .inl ⟨(joinGroups_group ?_).mono fun _ _ group => .inl group, eight⟩
      exact fun none => absurd eight (by rw [none]; decide)
    | @run start length first =>
      have two := first.two
      have inside := first.run.1
      refine .inr ⟨_, _, address.words.take start, address.words.drop (start + length), rfl, joinGroups_front _, joinGroups_back _, ?_, ?_⟩
      · rw [List.length_take, List.length_drop, eight]
        omega
      · have middle : (address.words.drop start).take length = List.replicate length 0 := by
          apply List.eq_replicate_iff.mpr
          refine ⟨?_, fun word member => ?_⟩
          · rw [List.length_take, List.length_drop, eight]
            omega
          · obtain ⟨index, below, same⟩ := List.mem_iff_getElem.mp member
            rw [List.length_take] at below
            have zero := first.run.2 (start + index) (Nat.le_add_right _ _) (by omega)
            rw [List.getElem_take, List.getElem_drop] at same
            simp only [IPAddress.words, List.getElem_map, List.getElem_range] at same
            rw [← same]
            exact zero
        have count : 8 - ((address.words.take start).length + (address.words.drop (start + length)).length) = length := by
          rw [List.length_take, List.length_drop, eight]
          omega
        rw [count, ← middle, List.append_assoc, ← List.drop_drop, List.take_append_drop, List.take_append_drop]
  rw [← address.ofWords_words wide]
  exact .groups whole

private theorem printTo_quad (address : IPAddress) (narrow : address.family = .IPv4) :
    address.printTo.length ≤ 15 ∧ Denotes address.printTo address := by
  have digits : ∀ octet : UInt8, (Nat.toDigits 10 octet.toNat).length ≤ 3 := by
    intro octet
    obtain ⟨_, _, _, _, few, _⟩ := decimal_octet octet
    exact few
  have text : address.printTo = Nat.toDigits 10 (address.bytes 12).toNat ++ '.' :: (Nat.toDigits 10 (address.bytes 13).toNat ++
      '.' :: (Nat.toDigits 10 (address.bytes 14).toNat ++ '.' :: Nat.toDigits 10 (address.bytes 15).toNat)) := by
    rw [IPAddress.printTo, narrow]
    simp only [List.append_assoc, List.cons_append]
  have quad : DottedQuad address.printTo [address.bytes 12, address.bytes 13, address.bytes 14, address.bytes 15] := by
    rw [text]
    exact ⟨.cons (decimal_octet _) (.cons (decimal_octet _) (.cons (decimal_octet _) (.last (decimal_octet _)))), rfl⟩
  have same : IPAddress.ofOctets (address.bytes 12) (address.bytes 13) (address.bytes 14) (address.bytes 15) = address := by
    ext index
    · show (if index.val = 12 then _ else if index.val = 13 then _ else if index.val = 14 then _ else if index.val = 15 then _ else 0 :
        UInt8).toNat = _
      split
      · next here =>
          obtain rfl : index = 12 := Fin.ext here
          rfl
      · split
        · next here =>
            obtain rfl : index = 13 := Fin.ext here
            rfl
        · split
          · next here =>
              obtain rfl : index = 14 := Fin.ext here
              rfl
          · split
            · next here =>
                obtain rfl : index = 15 := Fin.ext here
                rfl
            · rw [address.padded narrow index (by omega)]
    · exact narrow.symm
  have denotes := Denotes.quad quad
  rw [same] at denotes
  refine ⟨?_, denotes⟩
  rw [text]
  simp only [List.length_append, List.length_cons]
  have first := digits (address.bytes 12)
  have second := digits (address.bytes 13)
  have third := digits (address.bytes 14)
  have fourth := digits (address.bytes 15)
  omega

/-- What `printTo` writes is read back as the same address, is short, and shortens the first longest run of zero groups only. -/
theorem printTo_roundTrip (address before : IPAddress) :
    fromString address.printTo before = (true, address) ∧ address.printTo.length ≤ 39 ∧
      (address.family = .IPv6 → Shortened address address.printTo) := by
  cases family : address.family with
  | IPv4 =>
    obtain ⟨short, denotes⟩ := printTo_quad address family
    exact ⟨fromString_denotes denotes before, by omega, nofun⟩
  | IPv6 =>
    have shortened := printTo_shortened address family
    exact ⟨fromString_denotes (shortened.denotes family) before, shortened.length_le, fun _ => shortened⟩

end ArduinoK210.Net
