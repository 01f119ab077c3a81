import ArduinoK210.Streams.IntegerText
import ArduinoK210.Text.Refinement

/-! The characters that `print` writes for an integer beside those of a `String` that is made of it. -/

namespace ArduinoK210.Streams

open Nor (slice)
open Positional (Notation)
open Text (World Library Leaves Value construct)

/-- The integer types that both have an overload for. -/
inductive Integer where
  | unsignedChar
  | int
  | unsignedInt
  | long
  | unsignedLong
  | longLong
  | unsignedLongLong
  deriving DecidableEq, Repr

namespace Integer

def type : Integer → IntegerType
  | unsignedChar => ⟨1, false, by decide, by decide⟩
  | int => ⟨4, true, by decide, by decide⟩
  | unsignedInt => ⟨4, false, by decide, by decide⟩
  | long => .long
  | unsignedLong => { IntegerType.long with signed := false }
  | longLong => .long
  | unsignedLongLong => { IntegerType.long with signed := false }

abbrev Word (kind : Integer) := kind.type.Word

def value (kind : Integer) (word : kind.Word) : Int := kind.type.value word

/-- The type with which `print` calls `number`. -/
def printed : Integer → Integer
  | unsignedChar => unsignedLong
  | int => long
  | unsignedInt => unsignedLong
  | kind => kind

def widen (kind : Integer) (word : kind.Word) : kind.printed.Word := BitVec.ofInt _ (kind.value word)

end Integer

def printValue (kind : Integer) (text : Nat → UInt8) (word : kind.Word) (base : UInt32) : Option (List UInt8) :=
  number kind.printed.type text (kind.widen word) base

/-- The bytes of a local `text`. -/
def textRoom : Nat := 66

/-- `String::String` of an integer. `stack` is the address of its `text`. -/
def stringOf (lib : Library) (id home stack : Nat) (kind : Integer) (word : kind.Word) (base : UInt8) (world : World) : Option World :=
  match integerText kind.type (fun place => world.mem (stack + place)) word base.toUInt32 with
  | none => none
  | some (count, text) =>
      let written := { world with mem := fun a => if stack ≤ a then text (a - stack) else world.mem a }
      some (construct lib id home (some stack) count written)

/-- The overload of `print` for `long`. -/
theorem printValue_long (text : Nat → UInt8) (value : Int64) (base : UInt32) :
    printValue .long text (IntegerType.ofLong value) base = print text value base := by
  have same : Integer.long.widen (IntegerType.ofLong value) = IntegerType.ofLong value := BitVec.ofInt_toInt
  exact congrArg (number .long text · base) same

namespace Integer
variable {kind : Integer} {word : kind.Word}

private theorem widen_unsigned {size : Nat} (word : BitVec size) (fits : size ≤ 64) :
    (BitVec.ofInt 64 (word.toNat : Int)).toNat = word.toNat := by
  rw [BitVec.ofInt_natCast, BitVec.toNat_ofNat]
  exact Nat.mod_eq_of_lt (Nat.lt_of_lt_of_le word.isLt (Nat.pow_le_pow_right (by decide) fits))

private theorem widen_signed {size : Nat} (word : BitVec size) (fits : size ≤ 64) : (BitVec.ofInt 64 word.toInt).toInt = word.toInt := by
  have low := word.le_toInt
  have high := word.toInt_lt
  have wider : (2 : Int) ^ (size - 1) ≤ 2 ^ (64 - 1) := by exact_mod_cast Nat.pow_le_pow_right (by decide) (Nat.sub_le_sub_right fits 1)
  apply BitVec.toInt_ofInt_eq_self (by decide) <;> omega

theorem value_widen (kind : Integer) (word : kind.Word) : kind.printed.value (kind.widen word) = kind.value word := by
  cases kind with
  | unsignedChar => exact congrArg Nat.cast (widen_unsigned word (by decide))
  | int => exact widen_signed word (by decide)
  | unsignedInt => exact congrArg Nat.cast (widen_unsigned word (by decide))
  | long => exact widen_signed word (by decide)
  | unsignedLong => exact congrArg Nat.cast (widen_unsigned word (by decide))
  | longLong => exact widen_signed word (by decide)
  | unsignedLongLong => exact congrArg Nat.cast (widen_unsigned word (by decide))

theorem toNat_eq (type : IntegerType) (word : type.Word) :
    (word.toNat : Int) = if type.value word < 0 then type.value word + 2 ^ type.bits else type.value word := by
  split
  next negative =>
    have signed := IntegerType.value_negative negative
    have value : type.value word = word.toInt := by rw [IntegerType.value, if_pos signed]
    have toInt := BitVec.toInt_eq_toNat_cond word
    rw [value] at negative ⊢
    split at toInt
    next => omega
    next =>
      rw [toInt]
      push_cast
      omega
  next positive =>
    rw [IntegerType.positive_toNat positive]
    omega

/-- A negative `int` in another base than 10, whose bits are those of two types. -/
def Differs (kind : Integer) (word : kind.Word) (base : Nat) : Prop := kind = .int ∧ kind.value word < 0 ∧ base ≠ 10

private theorem sign_widen (kind : Integer) (word : kind.Word) (base : Nat) :
    signOf kind.printed.type (kind.widen word) base = signOf kind.type word base := by
  unfold signOf
  rw [show kind.printed.type.value (kind.widen word) = kind.type.value word from value_widen kind word]

/-- The bits of a negative value, in the wider type and in its own. -/
theorem negative_widen (negative : kind.value word < 0) :
    word.toNat = (kind.widen word).toNat ↔ kind ≠ .int := by
  have narrow := toNat_eq kind.type word
  have wide := toNat_eq kind.printed.type (kind.widen word)
  rw [show kind.printed.type.value (kind.widen word) = kind.value word from value_widen kind word, if_pos negative] at wide
  rw [show kind.type.value word = kind.value word from rfl, if_pos negative] at narrow
  have signed : kind.type.signed = true := IntegerType.value_negative negative
  cases kind with
  | unsignedChar => cases signed
  | unsignedInt => cases signed
  | unsignedLong => cases signed
  | unsignedLongLong => cases signed
  | int =>
    have narrow : (word.toNat : Int) = int.value word + 2 ^ 32 := narrow
    have wide : ((int.widen word).toNat : Int) = int.value word + 2 ^ 64 := wide
    refine ⟨fun same => ?_, fun other => absurd rfl other⟩
    rw [same, wide] at narrow
    omega
  | long => exact ⟨fun _ same => Integer.noConfusion same, fun _ => Int.ofNat_inj.mp (narrow.trans wide.symm)⟩
  | longLong => exact ⟨fun _ same => Integer.noConfusion same, fun _ => Int.ofNat_inj.mp (narrow.trans wide.symm)⟩

/-- The digits stand for the same number but for a negative `int` in another base than 10. -/
theorem magnitude_widen_iff (kind : Integer) (word : kind.Word) (base : Nat) :
    magnitudeOf kind.type word base = magnitudeOf kind.printed.type (kind.widen word) base ↔ ¬kind.Differs word base := by
  have value : kind.printed.type.value (kind.widen word) = kind.value word := value_widen kind word
  unfold magnitudeOf Differs
  rw [value]
  by_cases ten : base = 10
  · rw [if_pos ten, if_pos ten]
    exact ⟨fun _ differs => differs.2.2 ten, fun _ => rfl⟩
  · rw [if_neg ten, if_neg ten]
    by_cases negative : kind.value word < 0
    · refine (negative_widen negative).trans ⟨fun other differs => other differs.1, fun same is => same ⟨is, negative, ten⟩⟩
    · have narrow := toNat_eq kind.type word
      have wide := toNat_eq kind.printed.type (kind.widen word)
      rw [value, if_neg negative] at wide
      rw [show kind.type.value word = kind.value word from rfl, if_neg negative] at narrow
      exact ⟨fun _ differs => negative differs.2.1, fun _ => Int.ofNat_inj.mp (narrow.trans wide.symm)⟩

/-- In another base than 10 the digits are those of the bits. -/
theorem differs_bits (differs : kind.Differs word base) :
    (magnitudeOf kind.printed.type (kind.widen word) base : Int) = 2 ^ 64 + kind.value word ∧
      (magnitudeOf kind.type word base : Int) = 2 ^ 32 + kind.value word := by
  obtain ⟨rfl, negative, other⟩ := differs
  have narrow := toNat_eq int.type word
  have wide := toNat_eq int.printed.type (int.widen word)
  rw [show int.printed.type.value (int.widen word) = int.value word from value_widen int word, if_pos negative] at wide
  rw [show int.type.value word = int.value word from rfl, if_pos negative] at narrow
  rw [magnitudeOf, if_neg other, magnitudeOf, if_neg other]
  exact ⟨wide.trans (Int.add_comm _ _), narrow.trans (Int.add_comm _ _)⟩

end Integer

/-- The text of a value: its sign, and its digits. -/
def Spelled (type : IntegerType) (word : type.Word) (base : Nat) (text : List UInt8) : Prop :=
  ∃ digits, Notation base (magnitudeOf type word base) digits ∧ text = signOf type word base ++ digits.map digitChar

private theorem digitChar_toNat {digit : Nat} (below : digit < 36) : (digitChar digit).toNat = if digit < 10 then 48 + digit else 55 + digit := by
  unfold digitChar
  split
  next => exact Nat.mod_eq_of_lt (by omega)
  next => exact (Nat.mod_eq_of_lt (by omega)).trans (by omega)

private theorem digitChar_injective {first second : Nat} (below : first < 36) (below' : second < 36) (same : digitChar first = digitChar second) :
    first = second := by
  have codes := congrArg UInt8.toNat same
  rw [digitChar_toNat below, digitChar_toNat below'] at codes
  split at codes <;> split at codes <;> omega

private theorem radixOf_inside {base : UInt32} (two : 2 ≤ base.toNat) (most : base.toNat ≤ 36) : radixOf base = base.toNat := by
  apply if_neg
  rintro (small | large)
  · exact Nat.not_lt.mpr two (UInt32.lt_iff_toNat_lt.mp small)
  · exact Nat.not_lt.mpr most (UInt32.lt_iff_toNat_lt.mp large)

private theorem map_digitChar_inj {first second : List Nat} (below : ∀ digit ∈ first, digit < 36) (below' : ∀ digit ∈ second, digit < 36)
    (same : first.map digitChar = second.map digitChar) : first = second := by
  induction first generalizing second with
  | nil => exact (List.map_eq_nil_iff.mp same.symm).symm
  | cons digit first ih =>
    cases second with
    | nil => exact absurd same (List.cons_ne_nil _ _)
    | cons other second =>
      obtain ⟨heads, tails⟩ := List.cons_eq_cons.mp same
      rw [digitChar_injective (below digit List.mem_cons_self) (below' other List.mem_cons_self) heads,
        ih (fun digit member => below digit (List.mem_cons_of_mem _ member))
          (fun digit member => below' digit (List.mem_cons_of_mem _ member)) tails]

namespace Spelled
variable {type other : IntegerType} {word : type.Word} {word' : other.Word} {base : Nat} {text text' : List UInt8}

theorem eq_iff (spelled : Spelled type word base text) (spelled' : Spelled other word' base text') (two : 2 ≤ base) (most : base ≤ 36)
    (sign : signOf other word' base = signOf type word base) :
    text = text' ↔ magnitudeOf type word base = magnitudeOf other word' base := by
  obtain ⟨digits, written, rfl⟩ := spelled
  obtain ⟨digits', written', rfl⟩ := spelled'
  rw [sign, List.append_cancel_left_eq]
  refine ⟨fun same => ?_, fun same => ?_⟩
  · have digits := map_digitChar_inj (fun digit member => Nat.lt_of_lt_of_le (written.below digit member) most)
      (fun digit member => Nat.lt_of_lt_of_le (written'.below digit member) most) same
    rw [← written.value, ← written'.value, digits]
  · rw [same] at written
    rw [written.unique two written']

theorem unsigned (spelled : Spelled type word base text) (other : base ≠ 10) {number : Nat}
    (bits : magnitudeOf type word base = number) : ∃ digits, Notation base number digits ∧ text = digits.map digitChar := by
  obtain ⟨digits, written, rfl⟩ := spelled
  rw [bits] at written
  refine ⟨digits, written, ?_⟩
  rw [signOf, if_neg fun both => other both.1, List.nil_append]

end Spelled

private theorem number_spelled (type : IntegerType) (text : Nat → UInt8) (word : type.Word) {base : UInt32} (two : 2 ≤ base.toNat)
    (most : base.toNat ≤ 36) : ∃ written, number type text word base = some written ∧ Spelled type word base.toNat written := by
  obtain ⟨count, final, digits, done, written⟩ := integerText_written type text word base (radixOf_two base)
  rw [radixOf_inside two most] at written
  have other : base ≠ 0 := by
    rintro rfl
    exact absurd two (by decide)
  refine ⟨_, ?_, digits, written.positional, written.text⟩
  rw [number, if_neg other, done, Option.map_some]

/-- The rest of the program writes into its own memory. -/
theorem elsewhere_written {world : World} (sound : world.Sound) {number stack room : Nat} (zone : world.foreign number = (stack, room))
    {mem : Nat → UInt8} (same : ∀ a, ¬(stack ≤ a ∧ a < stack + room) → mem a = world.mem a) :
    world.Elsewhere { world with mem := mem } := by
  have buffer {a : Nat} (inside : stack ≤ a ∧ a < stack + room) : world.Holds (.foreign number) a := by
    rw [World.Holds, zone]
    exact inside
  have apart {a number' : Nat} {zone : Text.Zone} {id : Nat} (own : zone.Of id) (holds : world.Holds (.foreign number') a) :
      ¬world.Holds zone a := by
    intro other
    have equal := sound.apart _ _ a holds other
    rcases own with rfl | rfl
    · cases equal
    · cases equal
  refine ⟨rfl, fun id zone a own holds => same a fun inside => apart own (buffer inside) holds,
    fun number a holds id zone own => apart own holds, fun number other a first second => ?_,
    fun number a holds => sound.below (.foreign number) a holds, Nat.le_refl _⟩
  exact Text.Zone.foreign.inj (sound.apart _ _ a first second)

section
variable {world : World} {id home stack number : Nat}

/-- A new `String` has the text of its integer, if there is memory for it. -/
theorem stringOf_spelled (lib : Library) (sound : world.Sound) (fresh : world.Fresh id home)
    (buffer : world.foreign number = (stack, textRoom)) (kind : Integer) (word : kind.Word) {base : UInt8} (two : 2 ≤ base.toNat)
    (most : base.toNat ≤ 36) : ∃ after string, stringOf lib id home stack kind word base world = some after ∧
      Spelled kind.type word base.toNat string ∧
      Leaves (world.strings.put id (if after.refused = world.refused then some string else none)) after := by
  obtain ⟨count, final, digits, done, written⟩ :=
    integerText_written kind.type (fun place => world.mem (stack + place)) word base.toUInt32 (radixOf_two base.toUInt32)
  have same : base.toUInt32.toNat = base.toNat := UInt8.toNat_toUInt32 base
  rw [radixOf_inside (by rw [same]; exact two) (by rw [same]; exact most), same] at written
  let next := { world with mem := fun a => if stack ≤ a then final (a - stack) else world.mem a }
  have short := written.short
  have elsewhere : world.Elsewhere next := by
    apply elsewhere_written sound buffer
    intro a outside
    split
    next above =>
      have data : (signOf kind.type word base.toNat ++ digits.map digitChar ++ [0]).length ≤ textRoom := by
        rw [List.length_append, ← written.length]
        exact Nat.succ_le_succ short
      rw [written.output, Nor.put_outside _ _ _ _ (.inr (by omega)), Nat.add_sub_cancel' above]
    next => rfl
  have strings := elsewhere.leaves sound
  have text : slice next.mem stack count = signOf kind.type word base.toNat ++ digits.map digitChar := by
    rw [← written.text]
    apply List.map_congr_left
    intro place inside
    rw [Nat.zero_add]
    exact (if_pos (Nat.le_add_right _ _)).trans (congrArg final (Nat.add_sub_cancel_left _ _))
  have fresh' : next.Fresh id home := fresh
  have leaves : Leaves _ (construct lib id home (some stack) count next) :=
    Text.construct_leaves strings.1 fresh' (Nat.le_trans short (by decide)) (by
      rintro start ⟨⟩
      refine ⟨.foreign number, fun a low high => ?_⟩
      rw [World.Holds, show next.foreign number = (stack, textRoom) from buffer]
      exact ⟨low, Nat.lt_of_lt_of_le high (Nat.add_le_add_left (Nat.le_succ_of_le short) stack)⟩)
  rw [strings.2, Option.map_some, text] at leaves
  refine ⟨_, _, by rw [stringOf, done], ⟨digits, written.positional, rfl⟩, ?_⟩
  have few : (signOf kind.type word base.toNat ++ digits.map digitChar).length < Text.uintMax := by
    rw [← written.length]
    exact Nat.lt_of_le_of_lt short (by decide)
  convert leaves using 2
  rw [Value.stored, Option.filter_some]
  simp only [few, decide_true, Bool.and_true, beq_iff_eq]
  rfl

/-- `print` and a `String` have the same characters for an integer, but for a negative `int` in another base than 10: its bits
are those of a `long` for `print`, and its own for a `String`. -/
theorem print_agrees_with_string (lib : Library) (sound : world.Sound) (fresh : world.Fresh id home)
    (buffer : world.foreign number = (stack, textRoom)) (kind : Integer) (word : kind.Word) (text : Nat → UInt8) {base : UInt8}
    (two : 2 ≤ base.toNat) (most : base.toNat ≤ 36) :
    ∃ printed string after, printValue kind text word base.toUInt32 = some printed ∧
      stringOf lib id home stack kind word base world = some after ∧
      Leaves (world.strings.put id (if after.refused = world.refused then some string else none)) after ∧
      (printed = string ↔ ¬kind.Differs word base.toNat) ∧
      (kind.Differs word base.toNat → ∃ wide narrow, Notation base.toNat (2 ^ 64 + kind.value word).toNat wide ∧
        Notation base.toNat (2 ^ 32 + kind.value word).toNat narrow ∧
        printed = wide.map digitChar ∧ string = narrow.map digitChar) := by
  have same : base.toUInt32.toNat = base.toNat := UInt8.toNat_toUInt32 base
  obtain ⟨after, string, constructed, own, leaves⟩ := stringOf_spelled lib sound fresh buffer kind word two most
  obtain ⟨printed, wrote, wider⟩ :=
    number_spelled kind.printed.type text (kind.widen word) (by rw [same]; exact two) (by rw [same]; exact most)
  rw [same] at wider
  refine ⟨printed, string, after, wrote, constructed, leaves, ?_, fun differs => ?_⟩
  · have texts := wider.eq_iff own two most (kind.sign_widen word base.toNat).symm
    exact texts.trans (eq_comm.trans (kind.magnitude_widen_iff word base.toNat))
  · obtain ⟨wide, narrow⟩ := Integer.differs_bits differs
    obtain ⟨digits, written, rfl⟩ := wider.unsigned differs.2.2 (Int.toNat_natCast _).symm
    obtain ⟨digits', written', rfl⟩ := own.unsigned differs.2.2 (Int.toNat_natCast _).symm
    rw [wide] at written
    rw [narrow] at written'
    exact ⟨digits, digits', written, written', rfl, rfl⟩

end

def stacked : World := { Text.blank with foreign := fun number => if number = 0 then (200, textRoom) else (0, 0), top := 300 }

private theorem stacked_holds {zone : Text.Zone} {a : Nat} (holds : stacked.Holds zone a) : zone = .foreign 0 ∧ 200 ≤ a ∧ a < 266 := by
  cases zone with
  | home id => exact absurd holds.1 Bool.false_ne_true
  | heap id => exact absurd holds.1 Bool.false_ne_true
  | foreign number =>
    rw [World.Holds] at holds
    by_cases zero : number = 0
    · rw [show stacked.foreign number = (200, textRoom) from if_pos zero] at holds
      exact ⟨by rw [zero], holds⟩
    · rw [show stacked.foreign number = (0, 0) from if_neg zero] at holds
      exact absurd holds.2 (Nat.not_lt_zero a)

private theorem stacked_sound : stacked.Sound := by
  refine ⟨fun id alive => absurd alive Bool.false_ne_true, fun zone other a first second => ?_, fun zone a holds => ?_⟩
  · rw [(stacked_holds first).1, (stacked_holds second).1]
  · exact Nat.lt_trans (stacked_holds holds).2.2 (by decide)

private theorem stacked_fresh : stacked.Fresh 0 100 :=
  ⟨rfl, fun _ _ _ high holds => absurd (stacked_holds holds).2.1 (Nat.not_le.mpr (Nat.lt_trans high (by decide)))⟩

theorem print_agrees_with_string_minus_one :
    ∃ printed string after, printValue .int (fun _ => 0) (BitVec.ofInt 32 (-1)) 16 = some printed ∧
      stringOf (Text.bump 1) 0 100 200 .int (BitVec.ofInt 32 (-1)) 16 stacked = some after ∧
      Leaves (stacked.strings.put 0 (if after.refused = stacked.refused then some string else none)) after ∧
      (printed = string ↔ ¬Integer.int.Differs (BitVec.ofInt 32 (-1)) 16) ∧
      (Integer.int.Differs (BitVec.ofInt 32 (-1)) 16 → ∃ wide narrow,
        Notation 16 (2 ^ 64 + Integer.int.value (BitVec.ofInt 32 (-1))).toNat wide ∧
        Notation 16 (2 ^ 32 + Integer.int.value (BitVec.ofInt 32 (-1))).toNat narrow ∧
        printed = wide.map digitChar ∧ string = narrow.map digitChar) :=
  @print_agrees_with_string stacked 0 100 200 0 (Text.bump 1) stacked_sound stacked_fresh rfl .int (BitVec.ofInt 32 (-1))
    (fun _ => 0) 16 (by decide) (by decide)

/-- Minus one in hexadecimal has sixteen digits for `print`, and eight for a `String`. -/
theorem print_string_minus_one :
    printValue .int (fun _ => 0) (BitVec.ofInt 32 (-1)) 16 = some (List.replicate 16 70) ∧
      (stringOf (Text.bump 1) 0 100 200 .int (BitVec.ofInt 32 (-1)) 16 stacked).map (·.value 0) = some (some (List.replicate 8 70)) := by
  decide

end ArduinoK210.Streams
