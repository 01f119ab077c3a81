import ArduinoK210.Lib.Dynamic
import ArduinoK210.Publish.Index

/-! The order of versions, and the precedence of Semantic Versioning. -/

namespace ArduinoK210.Publish

open Dynamic (Value Faithful Comparison)

structure Ascii extends Unicode where
  digit : ∀ c : Char, c.toNat < 128 → isdigit c = c.isDigit
  space : ∀ c : Char, c.isDigit = true → isspace c = false

namespace Unicode
variable (unicode : Unicode)

def identifierValue (part : Text) : Option Value :=
  if part ≠ [] ∧ part.all unicode.isdigit then (unicode.int part).map fun number => .tuple [.int 0, .int number]
  else some (.tuple [.int 1, .str part])

/-- `version_key`, with the values that Python compares. -/
def versionKeyValue (version : Text) : Option Value := do
  let value := (removePrefix (text "v") version).takeWhile (· ≠ '+')
  let base := value.takeWhile (· ≠ '-')
  let suffix := (value.dropWhile (· ≠ '-')).drop 1
  let numbers ← (base.splitOn '.').mapM fun part => (unicode.int part).map Value.int
  let identifiers ← (suffix.splitOn '.').mapM unicode.identifierValue
  return .tuple [.tuple numbers, .bool suffix.isEmpty, .tuple identifiers]

/-- `<` or `<=` of the keys of two versions. It raises if a key or the comparison does. -/
def compareVersions (comparison : Comparison) (one other : Text) : Option Bool := do
  let one ← unicode.versionKeyValue one
  let other ← unicode.versionKeyValue other
  one.compare comparison other

def equalVersions (one other : Text) : Option Bool := do
  let one ← unicode.versionKeyValue one
  let other ← unicode.versionKeyValue other
  return one.equal other

end Unicode

def identifierChar (c : Char) : Bool := c.isAlphanum || c == '-'

/-- An identifier that is no number. -/
structure Word where
  text : Text
  chars : text.all identifierChar = true
  nondigit : text.all Char.isDigit = false
  deriving DecidableEq

/-- An identifier of build metadata. -/
structure BuildPart where
  text : Text
  chars : text.all identifierChar = true
  nonempty : text ≠ []
  deriving DecidableEq

namespace SemVer

inductive Identifier where
  | number (value : Nat)
  | word (name : Word)
  deriving DecidableEq

def Identifier.text : Identifier → Text
  | .number value => Nat.toDigits 10 value
  | .word name => name.text

/-- Numbers compare as numbers and come before words. -/
inductive Identifier.Lower : Identifier → Identifier → Prop where
  | numbers {one other : Nat} : one < other → Lower (.number one) (.number other)
  | mixed (value : Nat) (name : Word) : Lower (.number value) (.word name)
  | words {one other : Word} : one.text < other.text → Lower (.word one) (.word other)

end SemVer

open SemVer (Identifier)

/-- A version of Semantic Versioning. Without a prerelease or build metadata their identifiers are none. -/
structure SemVer where
  major : Nat
  minor : Nat
  patch : Nat
  prerelease : List Identifier
  build : List BuildPart
  deriving DecidableEq

namespace SemVer

def dotted (parts : List Text) : Text := ['.'].intercalate parts

def core (version : SemVer) : Text := dotted [Nat.toDigits 10 version.major, Nat.toDigits 10 version.minor, Nat.toDigits 10 version.patch]

def behind (separator : Char) (parts : List Text) : Text := if parts = [] then [] else separator :: dotted parts

def text (prefixed : Bool) (version : SemVer) : Text :=
  (if prefixed then ['v'] else []) ++ version.core ++ behind '-' (version.prerelease.map Identifier.text) ++
    behind '+' (version.build.map BuildPart.text)

/-- Precedence, by the first difference. -/
inductive Precedes (one other : SemVer) : Prop where
  | major : one.major < other.major → Precedes one other
  | minor : one.major = other.major → one.minor < other.minor → Precedes one other
  | patch : one.major = other.major → one.minor = other.minor → one.patch < other.patch → Precedes one other
  | release : one.major = other.major → one.minor = other.minor → one.patch = other.patch →
      one.prerelease ≠ [] → other.prerelease = [] → Precedes one other
  | prerelease : one.major = other.major → one.minor = other.minor → one.patch = other.patch →
      one.prerelease ≠ [] → other.prerelease ≠ [] → List.Lex Identifier.Lower one.prerelease other.prerelease → Precedes one other

/-- The same precedence: build metadata does not count. -/
def Same (one other : SemVer) : Prop :=
  one.major = other.major ∧ one.minor = other.minor ∧ one.patch = other.patch ∧ one.prerelease = other.prerelease

end SemVer

section Texts
variable {c : Char}

private theorem isDigit_of_number {value : Nat} (member : c ∈ Nat.toDigits 10 value) : c.isDigit = true :=
  Nat.isDigit_of_mem_toDigits (by decide) (by decide) member

private theorem identifierChar_of_digit (digit : c.isDigit = true) : identifierChar c = true := by
  rw [identifierChar, Char.isAlphanum, digit, Bool.or_true, Bool.true_or]

private theorem identifierChar_lt (is : identifierChar c = true) : c.toNat < 128 := by
  change (((decide (c.val ≥ 'A'.val ∧ c.val ≤ 'Z'.val) || (decide (c.val ≥ 'a'.val) && decide (c.val ≤ 'z'.val))) ||
    (decide (c.val ≥ '0'.val) && decide (c.val ≤ '9'.val))) || c == '-') = true at is
  simp only [Bool.or_eq_true, Bool.and_eq_true, decide_eq_true_eq, beq_iff_eq, UInt32.le_iff_toNat_le, ge_iff_le] at is
  change (((65 ≤ c.toNat ∧ c.toNat ≤ 90) ∨ (97 ≤ c.toNat ∧ c.toNat ≤ 122)) ∨ (48 ≤ c.toNat ∧ c.toNat ≤ 57)) ∨ c = '-' at is
  rcases is with letters | rfl
  · omega
  · decide

private theorem SemVer.Identifier.chars (identifier : Identifier) : ∀ c ∈ identifier.text, identifierChar c = true := by
  cases identifier with
  | number value => exact fun c member => identifierChar_of_digit (isDigit_of_number member)
  | word name => exact List.all_eq_true.mp name.chars

private theorem SemVer.Identifier.nonempty (identifier : Identifier) : identifier.text ≠ [] := by
  cases identifier with
  | number value => exact Nat.toDigits_ne_nil
  | word name =>
    intro none
    have nondigit := name.nondigit
    rw [show name.text = [] from none] at nondigit
    cases nondigit

private theorem mem_dotted {parts : List Text} (member : c ∈ SemVer.dotted parts) : c = '.' ∨ ∃ part ∈ parts, c ∈ part := by
  induction parts with
  | nil => exact absurd member List.not_mem_nil
  | cons part parts ih =>
    by_cases last : parts = []
    · rw [last, SemVer.dotted, List.intercalate_singleton] at member
      exact .inr ⟨part, List.mem_cons_self, member⟩
    · rw [SemVer.dotted, List.intercalate_cons_of_ne_nil last, List.append_assoc] at member
      rcases List.mem_append.mp member with front | back
      · exact .inr ⟨part, List.mem_cons_self, front⟩
      · rcases List.mem_append.mp back with dot | rest
        · exact .inl (List.mem_singleton.mp dot)
        · exact (ih rest).imp_right fun ⟨part, found, inside⟩ => ⟨part, List.mem_cons_of_mem _ found, inside⟩

private theorem core_chars (version : SemVer) (member : c ∈ version.core) : c = '.' ∨ c.isDigit = true := by
  refine (mem_dotted member).imp_right fun ⟨part, found, inside⟩ => ?_
  simp only [List.mem_cons, List.not_mem_nil, or_false] at found
  rcases found with rfl | rfl | rfl
  · exact isDigit_of_number inside
  · exact isDigit_of_number inside
  · exact isDigit_of_number inside

private theorem prerelease_chars (version : SemVer) (member : c ∈ SemVer.dotted (version.prerelease.map Identifier.text)) :
    c = '.' ∨ identifierChar c = true := by
  refine (mem_dotted member).imp_right fun ⟨part, found, inside⟩ => ?_
  obtain ⟨identifier, _, rfl⟩ := List.mem_map.mp found
  exact identifier.chars c inside

theorem dotless {text : Text} (chars : ∀ c ∈ text, identifierChar c = true) : '.' ∉ text := fun member =>
  absurd (chars '.' member) (by decide)

private theorem splitOn_dotted {parts : List Text} (chars : ∀ part ∈ parts, ∀ c ∈ part, identifierChar c = true) (more : parts ≠ []) :
    (SemVer.dotted parts).splitOn '.' = parts :=
  List.splitOn_intercalate '.' (fun part found => dotless (chars part found)) more

end Texts

section Reading
variable (unicode : Ascii) (version : SemVer)

private theorem natural_digits {digits : Text} (all : ∀ c ∈ digits, c.isDigit = true) (more : digits ≠ []) :
    unicode.natural digits = some (Nat.ofDigitChars 10 digits 0) := by
  have plain : '_' ∉ digits := fun member => absurd (all '_' member) (by decide)
  have filtered : digits.filter (· ≠ '_') = digits := by
    apply List.filter_eq_self.mpr
    exact fun c member => decide_eq_true fun same => plain (same ▸ member)
  have folds (start : Nat) {digits : Text} (all : ∀ c ∈ digits, c.isDigit = true) :
      digits.foldlM (fun value c => (unicode.decimal c).map (10 * value + ·)) start = some (Nat.ofDigitChars 10 digits start) := by
    induction digits generalizing start with
    | nil => rfl
    | cons c digits ih =>
      rw [List.foldlM_cons, unicode.ascii c (all c List.mem_cons_self)]
      exact ih (10 * start + (c.toNat - 48)) fun c member => all c (List.mem_cons_of_mem _ member)
  rw [Unicode.natural, List.splitOn_eq_singleton plain, filtered, folds 0 all]
  cases digits with
  | nil => exact absurd rfl more
  | cons c digits => rfl

private theorem strip_digits {digits : Text} (all : ∀ c ∈ digits, c.isDigit = true) : digits.dropWhile unicode.isspace = digits := by
  cases digits with
  | nil => rfl
  | cons c digits => rw [List.dropWhile_cons, unicode.space c (all c List.mem_cons_self), if_neg Bool.false_ne_true]

theorem int_number (value : Nat) : unicode.int (Nat.toDigits 10 value) = some (value : Int) := by
  have all : ∀ c ∈ Nat.toDigits 10 value, c.isDigit = true := fun c => isDigit_of_number
  have some_ : Nat.toDigits 10 value ≠ [] := Nat.toDigits_ne_nil
  have read := natural_digits unicode all some_
  rw [Nat.ofDigitChars_ten_toDigits] at read
  rw [Unicode.int, strip_digits unicode all, strip_digits unicode fun c member => all c (List.mem_reverse.mp member), List.reverse_reverse]
  split
  next digits same => exact absurd (all '-' (same ▸ List.mem_cons_self)) (by decide)
  next digits same => exact absurd (all '+' (same ▸ List.mem_cons_self)) (by decide)
  next => rw [read, Option.map_some]; rfl

/-- What the key has for an identifier. -/
def SemVer.Identifier.key : Identifier → Unicode.Identifier
  | .number value => toLex (.inl (value : Int))
  | .word name => toLex (.inr name.text)

private theorem identifier_key (identifier : Identifier) : unicode.identifier identifier.text = some identifier.key := by
  cases identifier with
  | number value =>
    have digits : (Nat.toDigits 10 value).all unicode.isdigit = true := by
      apply List.all_eq_true.mpr
      intro c member
      have digit := isDigit_of_number member
      rw [unicode.digit c (identifierChar_lt (identifierChar_of_digit digit)), digit]
    rw [Identifier.text, Unicode.identifier, if_pos ⟨Nat.toDigits_ne_nil, digits⟩, int_number, Option.map_some]
    rfl
  | word name =>
    have other : ¬(name.text ≠ [] ∧ name.text.all unicode.isdigit = true) := by
      rintro ⟨-, all⟩
      have digits : name.text.all Char.isDigit = true := by
        apply List.all_eq_true.mpr
        intro c member
        rw [← unicode.digit c (identifierChar_lt (List.all_eq_true.mp name.chars c member))]
        exact List.all_eq_true.mp all c member
      exact absurd (name.nondigit.symm.trans digits) Bool.false_ne_true
    rw [Identifier.text, Unicode.identifier, if_neg other]
    rfl

private theorem mapM_map_some {α β γ : Type} {f : β → Option γ} {text : α → β} {value : α → γ} {items : List α}
    (read : ∀ item ∈ items, f (text item) = some (value item)) : (items.map text).mapM f = some (items.map value) := by
  induction items with
  | nil => rfl
  | cons item items ih =>
    rw [List.map_cons, List.mapM_cons, read item List.mem_cons_self, ih fun item member => read item (List.mem_cons_of_mem _ member)]
    rfl

/-- The identifiers of a release are those of an empty text: one word without a character. -/
def SemVer.identifiers : List Unicode.Identifier :=
  if version.prerelease = [] then [toLex (.inr [])] else version.prerelease.map Identifier.key

def SemVer.numbers : List Int := [version.major, version.minor, version.patch]

def SemVer.key : Unicode.VersionKey := toLex (version.numbers, toLex (version.prerelease.isEmpty, version.identifiers))

private theorem takeWhile_behind (separator : Char) (parts : List Text) : (SemVer.behind separator parts).takeWhile (· ≠ separator) = [] := by
  unfold SemVer.behind
  split
  next => rfl
  next => rw [List.takeWhile_cons_of_neg (by simp)]

private theorem drop_behind (separator : Char) (parts : List Text) :
    ((SemVer.behind separator parts).dropWhile (· ≠ separator)).drop 1 = SemVer.dotted parts := by
  unfold SemVer.behind
  split
  next none =>
    rw [none]
    rfl
  next => rw [List.dropWhile_cons_of_neg (by simp)]; rfl

private theorem core_head : ∃ c rest, version.core = c :: rest ∧ c.isDigit = true := by
  obtain ⟨c, rest, same⟩ := List.exists_cons_of_ne_nil (@Nat.toDigits_ne_nil version.major 10)
  have member : c ∈ Nat.toDigits 10 version.major := by
    rw [same]
    exact List.mem_cons_self
  refine ⟨c, SemVer.dotted [rest, Nat.toDigits 10 version.minor, Nat.toDigits 10 version.patch], ?_, isDigit_of_number member⟩
  rw [SemVer.core, SemVer.dotted, same, List.intercalate_cons_cons_left]
  rfl

private theorem removePrefix_text (prefixed : Bool) : removePrefix (text "v") (version.text prefixed) = version.text false := by
  cases prefixed with
  | true => rfl
  | false =>
    obtain ⟨c, rest, same, digit⟩ := core_head version
    apply if_neg
    rw [SemVer.text, same]
    intro front
    change ('v' == c && true) = true at front
    rw [Bool.and_true, beq_iff_eq] at front
    rw [← front] at digit
    exact absurd digit (by decide)

private theorem value_text : (version.text false).takeWhile (· ≠ '+') =
    version.core ++ SemVer.behind '-' (version.prerelease.map Identifier.text) := by
  have plain : ∀ c ∈ version.core ++ SemVer.behind '-' (version.prerelease.map Identifier.text), decide (c ≠ '+') = true := by
    intro c member
    apply decide_eq_true
    rintro rfl
    rcases List.mem_append.mp member with front | back
    · rcases core_chars version front with dot | digit
      · exact absurd dot (by decide)
      · exact absurd digit (by decide)
    · unfold SemVer.behind at back
      split at back
      next => exact absurd back List.not_mem_nil
      next =>
        rcases List.mem_cons.mp back with dash | inside
        · exact absurd dash (by decide)
        · rcases prerelease_chars version inside with dot | char
          · exact absurd dot (by decide)
          · exact absurd char (by decide)
  rw [SemVer.text, if_neg Bool.false_ne_true, List.nil_append, List.takeWhile_append_of_pos plain, takeWhile_behind, List.append_nil]

private theorem core_dash : ∀ c ∈ version.core, decide (c ≠ '-') = true := by
  intro c member
  apply decide_eq_true
  rintro rfl
  rcases core_chars version member with dot | digit
  · exact absurd dot (by decide)
  · exact absurd digit (by decide)

private theorem numbers_text : (version.core.splitOn '.').mapM unicode.int = some version.numbers := by
  let parts := [version.major, version.minor, version.patch]
  have split : version.core.splitOn '.' = parts.map (Nat.toDigits 10) := by
    apply splitOn_dotted
    · intro part found c member
      change part ∈ parts.map (Nat.toDigits 10) at found
      obtain ⟨value, _, rfl⟩ := List.mem_map.mp found
      exact identifierChar_of_digit (isDigit_of_number member)
    · exact List.cons_ne_nil _ _
  rw [split]
  exact mapM_map_some fun value _ => int_number unicode value

private theorem identifiers_text :
    ((SemVer.dotted (version.prerelease.map Identifier.text)).splitOn '.').mapM unicode.identifier = some version.identifiers := by
  unfold SemVer.identifiers
  split
  next none =>
    rw [none]
    rfl
  next more =>
    rw [splitOn_dotted]
    · exact mapM_map_some fun identifier _ => identifier_key unicode identifier
    · intro part found
      obtain ⟨identifier, _, rfl⟩ := List.mem_map.mp found
      exact identifier.chars
    · exact mt List.map_eq_nil_iff.mp more

private theorem dotted_isEmpty : (SemVer.dotted (version.prerelease.map Identifier.text)).isEmpty = version.prerelease.isEmpty := by
  cases version.prerelease with
  | nil => rfl
  | cons identifier rest =>
    obtain ⟨c, more, same⟩ := List.exists_cons_of_ne_nil identifier.nonempty
    rw [List.map_cons, same, SemVer.dotted, List.intercalate_cons_cons_left]
    rfl

theorem versionKey_text (prefixed : Bool) : unicode.versionKey (version.text prefixed) = some version.key := by
  unfold Unicode.versionKey
  rw [removePrefix_text, value_text]
  dsimp only
  rw [List.takeWhile_append_of_pos (core_dash version), takeWhile_behind, List.append_nil, numbers_text,
    List.dropWhile_append_of_pos (core_dash version), drop_behind, identifiers_text, dotted_isEmpty]
  rfl

end Reading

section Order
variable {one other : SemVer}

theorem SemVer.Identifier.lower_iff {one other : Identifier} : Lower one other ↔ one.key < other.key := by
  constructor
  · rintro (less | _ | less)
    · exact Sum.Lex.inl_lt_inl_iff.mpr (Int.ofNat_lt.mpr less)
    · exact Sum.Lex.inl_lt_inr _ _
    · exact Sum.Lex.inr_lt_inr_iff.mpr less
  · intro less
    cases one with
    | number value =>
      cases other with
      | number value' => exact .numbers (Int.ofNat_lt.mp (Sum.Lex.inl_lt_inl_iff.mp less))
      | word name => exact .mixed value name
    | word name =>
      cases other with
      | number value => exact absurd less Sum.Lex.not_inr_lt_inl
      | word name' => exact .words (Sum.Lex.inr_lt_inr_iff.mp less)

theorem SemVer.Identifier.key_injective : Function.Injective Identifier.key := by
  rintro (value | ⟨text, _, _⟩) (value' | ⟨text', _, _⟩) same
  · rw [Int.ofNat_inj.mp (Sum.inl.inj (toLex.injective same))]
  · cases toLex.injective same
  · cases toLex.injective same
  · cases Sum.inr.inj (toLex.injective same)
    rfl

/-- Lists of identifiers are ordered as the lists of their keys. -/
theorem lower_lists_iff (one other : List Identifier) :
    List.Lex Identifier.Lower one other ↔ one.map Identifier.key < other.map Identifier.key := by
  induction one generalizing other with
  | nil => cases other <;> simp
  | cons first rest ih =>
    cases other with
    | nil => simp
    | cons second rest' =>
      rw [List.map_cons, List.map_cons, List.cons_lt_cons_iff, ← ih, ← Identifier.lower_iff, Identifier.key_injective.eq_iff]
      exact List.cons_lex_cons_iff

private theorem numbers_lt_iff : one.numbers < other.numbers ↔ one.major < other.major ∨
    one.major = other.major ∧ (one.minor < other.minor ∨ one.minor = other.minor ∧ one.patch < other.patch) := by
  simp only [SemVer.numbers, List.cons_lt_cons_iff, List.not_lt_nil, and_false, or_false, Int.ofNat_lt, Int.ofNat_inj]

private theorem numbers_eq_iff :
    one.numbers = other.numbers ↔ one.major = other.major ∧ one.minor = other.minor ∧ one.patch = other.patch := by
  simp only [SemVer.numbers, List.cons.injEq, and_true, Int.ofNat_inj]

private theorem prerelease_lt_iff :
    toLex (one.prerelease.isEmpty, one.identifiers) < toLex (other.prerelease.isEmpty, other.identifiers) ↔
      one.prerelease ≠ [] ∧ other.prerelease = [] ∨
        one.prerelease ≠ [] ∧ other.prerelease ≠ [] ∧ List.Lex Identifier.Lower one.prerelease other.prerelease := by
  rw [Prod.Lex.toLex_lt_toLex, SemVer.identifiers, SemVer.identifiers]
  by_cases none : one.prerelease = []
  · by_cases none' : other.prerelease = []
    · simp [none, none']
    · simp [none, none']
  · have some_ : one.prerelease.isEmpty = false := List.isEmpty_eq_false_iff.mpr none
    by_cases none' : other.prerelease = []
    · simp [none, none', some_]
    · have some' : other.prerelease.isEmpty = false := List.isEmpty_eq_false_iff.mpr none'
      simp [none, none', some_, some', lower_lists_iff]

private theorem prerelease_eq_iff :
    one.prerelease.isEmpty = other.prerelease.isEmpty ∧ one.identifiers = other.identifiers ↔ one.prerelease = other.prerelease := by
  constructor
  · rintro ⟨empty, identifiers⟩
    unfold SemVer.identifiers at identifiers
    by_cases none : one.prerelease = []
    · rw [none] at empty ⊢
      exact (List.isEmpty_iff.mp empty.symm).symm
    · have none' : other.prerelease ≠ [] := fun none' => none (List.isEmpty_iff.mp (by rw [empty, none']; rfl))
      rw [if_neg none, if_neg none'] at identifiers
      exact List.map_injective_iff.mpr Identifier.key_injective identifiers
  · intro same
    rw [SemVer.identifiers, SemVer.identifiers, same]
    exact ⟨rfl, rfl⟩

/-- The keys of versions are in the order of their precedence. -/
theorem key_lt_iff : one.key < other.key ↔ one.Precedes other := by
  rw [SemVer.key, SemVer.key, Prod.Lex.toLex_lt_toLex]
  dsimp only
  rw [numbers_lt_iff, numbers_eq_iff, prerelease_lt_iff]
  constructor
  · rintro ((major | ⟨major, minor | ⟨minor, patch⟩⟩) | ⟨⟨major, minor, patch⟩, ⟨some_, none⟩ | ⟨some_, some', lower⟩⟩)
    · exact .major major
    · exact .minor major minor
    · exact .patch major minor patch
    · exact .release major minor patch some_ none
    · exact .prerelease major minor patch some_ some' lower
  · intro precedes
    cases precedes with
    | major major => exact .inl (.inl major)
    | minor major minor => exact .inl (.inr ⟨major, .inl minor⟩)
    | patch major minor patch => exact .inl (.inr ⟨major, .inr ⟨minor, patch⟩⟩)
    | release major minor patch some_ none => exact .inr ⟨⟨major, minor, patch⟩, .inl ⟨some_, none⟩⟩
    | prerelease major minor patch some_ some' lower => exact .inr ⟨⟨major, minor, patch⟩, .inr ⟨some_, some', lower⟩⟩

private theorem key_eq_iff : one.key = other.key ↔ one.Same other := by
  have parts : one.key = other.key ↔ one.numbers = other.numbers ∧
      one.prerelease.isEmpty = other.prerelease.isEmpty ∧ one.identifiers = other.identifiers := by
    rw [SemVer.key, SemVer.key, toLex_inj, Prod.mk.injEq, toLex_inj, Prod.mk.injEq]
  rw [parts, numbers_eq_iff, prerelease_eq_iff, SemVer.Same, and_assoc, and_assoc]

end Order

section Values
variable (unicode : Unicode)

/-- The item of the key for an identifier. -/
def identifierOf : Unicode.Identifier → Value := Dynamic.tag Value.int Value.str

def keyValue (key : Unicode.VersionKey) : Value :=
  .tuple [.tuple ((ofLex key).1.map Value.int), .bool (ofLex (ofLex key).2).1, .tuple ((ofLex (ofLex key).2).2.map identifierOf)]

private theorem identifierOf_faithful : Faithful identifierOf := Faithful.int.tagged Faithful.str

/-- The comparisons of keys are those of their order, and all have an answer. -/
theorem keyValue_faithful : Faithful keyValue := Faithful.int.tuple.triple .bool identifierOf_faithful.tuple

private theorem mapM_map {α β γ : Type} (f : α → Option β) (g : β → γ) (items : List α) :
    items.mapM (fun item => (f item).map g) = (items.mapM f).map (List.map g) := by
  induction items with
  | nil => rfl
  | cons item items ih =>
    rw [List.mapM_cons, List.mapM_cons, ih]
    cases f item with
    | none => rfl
    | some value => cases items.mapM f <;> rfl

private theorem versionKeyValue_eq (version : Text) : unicode.versionKeyValue version = (unicode.versionKey version).map keyValue := by
  have item : unicode.identifierValue = fun part => (unicode.identifier part).map identifierOf := by
    funext part
    unfold Unicode.identifierValue Unicode.identifier
    split
    next => cases unicode.int part <;> rfl
    next => rfl
  unfold Unicode.versionKeyValue Unicode.versionKey
  rw [item]
  simp only [mapM_map]
  generalize List.mapM unicode.int _ = numbers
  generalize List.mapM unicode.identifier _ = identifiers
  cases numbers with
  | none => rfl
  | some numbers => cases identifiers <;> rfl

end Values

section Versions
variable (unicode : Ascii)

private theorem versionKeyValue_text (version : SemVer) (prefixed : Bool) :
    unicode.versionKeyValue (version.text prefixed) = some (keyValue version.key) := by
  rw [versionKeyValue_eq, versionKey_text, Option.map_some]

private theorem compareVersions_text (comparison : Comparison) (one other : SemVer) (prefixed prefixed' : Bool) :
    unicode.compareVersions comparison (one.text prefixed) (other.text prefixed') = some (comparison.holds one.key other.key) := by
  rw [Unicode.compareVersions, versionKeyValue_text, versionKeyValue_text]
  exact keyValue_faithful.compare comparison one.key other.key

/-- What `<=` says of two versions. -/
def AtMost (one other : Text) : Prop := unicode.compareVersions .lessEqual one other = some true

private theorem atMost_iff {one other : SemVer} {prefixed prefixed' : Bool} :
    AtMost unicode (one.text prefixed) (other.text prefixed') ↔ one.key ≤ other.key := by
  rw [AtMost, compareVersions_text, Option.some_inj]
  exact decide_eq_true_iff

/-- Versions are compared by their precedence, and every comparison has an answer. -/
theorem version_key_precedence :
    (∀ (one other : SemVer) (prefixed prefixed' : Bool),
      (∃ answer, unicode.compareVersions .less (one.text prefixed) (other.text prefixed') = some answer ∧
        (answer = true ↔ one.Precedes other)) ∧
      (∃ answer, unicode.compareVersions .lessEqual (one.text prefixed) (other.text prefixed') = some answer ∧
        (answer = true ↔ one.Precedes other ∨ one.Same other)) ∧
      ∃ answer, unicode.equalVersions (one.text prefixed) (other.text prefixed') = some answer ∧
        (answer = true ↔ one.Same other)) ∧
    (∀ (one other : SemVer) (prefixed prefixed' : Bool),
      AtMost unicode (one.text prefixed) (other.text prefixed') ∨ AtMost unicode (other.text prefixed') (one.text prefixed)) ∧
    ∀ (one other third : SemVer) (prefixed prefixed' prefixed'' : Bool),
      AtMost unicode (one.text prefixed) (other.text prefixed') → AtMost unicode (other.text prefixed') (third.text prefixed'') →
        AtMost unicode (one.text prefixed) (third.text prefixed'') := by
  refine ⟨fun one other prefixed prefixed' => ⟨?_, ?_, ?_⟩, fun one other prefixed prefixed' => ?_,
    fun one other third prefixed prefixed' prefixed'' first second => ?_⟩
  · exact ⟨_, compareVersions_text unicode .less one other prefixed prefixed', decide_eq_true_iff.trans key_lt_iff⟩
  · refine ⟨_, compareVersions_text unicode .lessEqual one other prefixed prefixed', decide_eq_true_iff.trans ?_⟩
    rw [le_iff_lt_or_eq, key_lt_iff, key_eq_iff]
  · refine ⟨(keyValue one.key).equal (keyValue other.key), ?_, (keyValue_faithful.equal one.key other.key).trans key_eq_iff⟩
    rw [Unicode.equalVersions, versionKeyValue_text, versionKeyValue_text]
    rfl
  · rw [atMost_iff, atMost_iff]
    exact le_total one.key other.key
  · rw [atMost_iff] at first second ⊢
    exact le_trans first second

end Versions

def asciiDecimal (c : Char) : Option Nat := if c.isDigit then some (c.toNat - 48) else none

private theorem asciiDecimal_digit (c : Char) (digit : c.isDigit = true) : asciiDecimal c = some (c.toNat - 48) := if_pos digit

def asciiTables : Ascii where
  decimal := asciiDecimal
  isdigit c := c.isDigit
  isspace c := c = ' '
  ascii := asciiDecimal_digit
  slash := by decide
  digit c _ := rfl
  space c digit := by
    apply decide_eq_false
    rintro rfl
    exact absurd digit (by decide)

example : asciiTables.compareVersions .less (text "v1.2.3-rc.2") (text "1.2.3-rc.10+build-1") = some true := by decide +kernel

end ArduinoK210.Publish
