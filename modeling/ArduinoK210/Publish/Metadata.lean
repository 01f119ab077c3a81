import ArduinoK210.Publish.Index

/-! What a run publishes: the tag, the version and the channel that `release_metadata` reads from the event of the workflow,
and the archive and the index that `build_package` makes of them. -/

namespace ArduinoK210.Publish

inductive Channel where
  | stable
  | prerelease
  | dev
  deriving DecidableEq

structure Metadata where
  tag : Text
  version : Text
  channel : Channel
  deriving DecidableEq

/-- The groups of `VERSION`. -/
structure Matched where
  major : Text
  minor : Text
  patch : Text
  suffix : Option Text

section
variable (unicode : Unicode)

def numeral (part : Text) : Bool :=
  match part with
  | [] => false
  | first :: rest => part = ['0'] || ('1' ≤ first && first ≤ '9' && rest.all fun c => (unicode.decimal c).isSome)

def wordChar (c : Char) : Bool := ('0' ≤ c && c ≤ '9') || ('A' ≤ c && c ≤ 'Z') || ('a' ≤ c && c ≤ 'z') || c = '-'

def identifiers (suffix : Text) : Bool := (suffix.splitOn '.').all fun part => !part.isEmpty && part.all wordChar

/-- `VERSION.fullmatch`. No number has a hyphen, so the first one begins the suffix. -/
def versionMatch (version : Text) : Option Matched :=
  let value := removePrefix (text "v") version
  match (value.takeWhile (· ≠ '-')).splitOn '.', value.dropWhile (· ≠ '-') with
  | [major, minor, patch], suffix =>
      if numeral unicode major && numeral unicode minor && numeral unicode patch then
        match suffix with
        | [] => some ⟨major, minor, patch, none⟩
        | _ :: suffix => if identifiers suffix then some ⟨major, minor, patch, some suffix⟩ else none
      else none
  | _, _ => none

structure EventRelease where
  tag : Text
  draft : Bool
  prerelease : Bool

inductive EventName where
  | push
  | release
  | workflowDispatch
  | other
  deriving DecidableEq

structure Event where
  name : EventName
  published : Bool
  release : Option EventRelease

/-- The commit that is checked out, with the date of the committer as `%Y%m%d%H%M%S`. -/
structure Checkout where
  sha : Text
  date : Text
  base : Text
  tagged : Text → Option Text
  hex : 12 ≤ sha.length ∧ ∀ c ∈ sha, ('0' ≤ c ∧ c ≤ '9') ∨ ('a' ≤ c ∧ c ≤ 'f')
  digits : date.length = 14 ∧ ∀ c ∈ date, c.isDigit = true

def taggedMetadata (event : Event) (checkout : Checkout) (tag : Text) : Option Metadata :=
  match versionMatch unicode tag with
  | none => none
  | some matched =>
      if checkout.tagged tag ≠ some checkout.sha then none
      else some
        { tag := tag
          version := removePrefix (text "v") tag
          channel :=
            if matched.suffix.isSome || (event.release.map EventRelease.prerelease).getD false then .prerelease else .stable }

def mainTag (checkout : Checkout) : Text := text "dev-" ++ checkout.date ++ text "-" ++ checkout.sha.take 12

def mainMetadata (checkout : Checkout) : Option Metadata :=
  match versionMatch unicode checkout.base with
  | none => none
  | some matched =>
      some
        { tag := mainTag checkout
          version := matched.major ++ ['.'] ++ matched.minor ++ ['.'] ++ matched.patch ++ text "-dev." ++ checkout.date ++
            text ".g" ++ checkout.sha.take 12
          channel := .dev }

def releaseMetadata (event : Event) (ref : Text) (checkout : Checkout) : Option Metadata :=
  match event.name with
  | .other => none
  | .release =>
      if !event.published || (event.release.map EventRelease.draft).getD false then none
      else event.release.bind fun release => taggedMetadata unicode event checkout release.tag
  | _ =>
      if (text "refs/tags/").isPrefixOf ref then taggedMetadata unicode event checkout (removePrefix (text "refs/tags/") ref)
      else if ref = text "refs/heads/main" then mainMetadata unicode checkout
      else none

end

abbrev Bytes := List UInt8

/-- The package index template: the package of the board and the fields of its platform that stay. -/
structure Template where
  name : Text
  architecture : Text
  rest : Text
  tools : List Tool
  describe : Text → Nat → Text

/-- The repository with what Python and its libraries supply. -/
structure Host where
  unicode : Unicode
  repository : Text
  template : Template
  sha256 : Bytes → Text
  dumps : Index → Bytes

structure Build (host : Host) where
  metadata : Metadata
  archive : Bytes
  released : ∃ event ref checkout, releaseMetadata host.unicode event ref checkout = some metadata

namespace Build
variable {host : Host} (build : Build host)

abbrev tag : Text := build.metadata.tag

abbrev channel : Channel := build.metadata.channel

def archiveName : Text := text "k210-" ++ build.metadata.version ++ text ".zip"

def platform : Platform :=
  { architecture := host.template.architecture
    version := build.metadata.version
    url := some (releases host.repository ++ build.tag ++ text "/" ++ build.archiveName)
    checksum := text "SHA-256:" ++ host.sha256 build.archive
    rest := host.template.describe build.archiveName build.archive.length }

/-- The index that `build_package` returns, which lists the new platform alone. -/
def index : Index := ⟨[⟨host.template.name, host.template.rest, [build.platform], host.template.tools⟩]⟩

end Build

section Forms
variable {unicode : Unicode}

private theorem numeral_decimal {part : Text} (number : numeral unicode part = true) :
    ∃ first rest, part = first :: rest ∧ (unicode.decimal first).isSome = true ∧ first.isDigit = true ∧
      ∀ c ∈ part, (unicode.decimal c).isSome = true := by
  cases part with
  | nil => cases number
  | cons first rest =>
    have digit : ∀ c : Char, '0' ≤ c → c ≤ '9' → c.isDigit = true := by
      intro c low high
      simp only [Char.isDigit, Bool.and_eq_true, decide_eq_true_eq]
      exact ⟨low, high⟩
    have known : ∀ c : Char, c.isDigit = true → (unicode.decimal c).isSome = true := by
      intro c is
      rw [unicode.ascii c is]
      rfl
    rcases Bool.or_eq_true _ _ |>.mp number with zero | other
    · cases of_decide_eq_true zero
      refine ⟨'0', [], rfl, known '0' (by decide), by decide, ?_⟩
      intro c member
      cases List.mem_singleton.mp member
      exact known '0' (by decide)
    · obtain ⟨bounds, rest_decimal⟩ := Bool.and_eq_true _ _ |>.mp other
      obtain ⟨low, high⟩ := Bool.and_eq_true _ _ |>.mp bounds
      have is := digit first (le_trans (by decide) (of_decide_eq_true low)) (of_decide_eq_true high)
      refine ⟨first, rest, rfl, known first is, is, ?_⟩
      intro c member
      rcases List.mem_cons.mp member with rfl | later
      · exact known c is
      · exact List.all_eq_true.mp rest_decimal c later

private theorem mem_splitOn {c : Char} {value : Text} (separator : Char) (member : c ∈ value) :
    c = separator ∨ ∃ part ∈ value.splitOn separator, c ∈ part := by
  have joined : ∀ parts : List Text, c ∈ [separator].intercalate parts → c = separator ∨ ∃ part ∈ parts, c ∈ part := by
    intro parts
    induction parts with
    | nil => intro inside; cases inside
    | cons part parts ih =>
      intro inside
      cases parts with
      | nil =>
        rw [List.intercalate_singleton] at inside
        exact .inr ⟨part, List.mem_cons_self, inside⟩
      | cons next parts =>
        rw [List.intercalate_cons_cons, List.append_assoc] at inside
        rcases List.mem_append.mp inside with first | later
        · exact .inr ⟨part, List.mem_cons_self, first⟩
        · rcases List.mem_append.mp later with mark | rest
          · exact .inl (List.mem_singleton.mp mark)
          · exact (ih rest).imp_right fun ⟨other, there, holds⟩ => ⟨other, List.mem_cons_of_mem part there, holds⟩
  apply joined
  rw [List.intercalate_splitOn]
  exact member

private theorem wordChar_slash {c : Char} (word : wordChar c = true) : c ≠ '/' := by
  rintro rfl
  revert word
  decide

private theorem removePrefix_mem {value : Text} {c : Char} (front : Text) (member : c ∈ value) : c ∈ front ∨ c ∈ removePrefix front value := by
  unfold removePrefix
  split
  · next leads =>
    obtain ⟨rest, rfl⟩ := List.isPrefixOf_iff_prefix.mp leads
    rw [List.drop_left]
    exact List.mem_append.mp member
  · exact .inr member

/-- A version that matches is three numbers and a suffix. -/
theorem matched_parts {version : Text} {matched : Matched} (found : versionMatch unicode version = some matched) :
    ∃ base suffix, removePrefix (text "v") version = base ++ suffix ∧
      base.splitOn '.' = [matched.major, matched.minor, matched.patch] ∧
      (∀ part ∈ base.splitOn '.', numeral unicode part = true) ∧
      (suffix = [] ∨ ∃ rest, suffix = '-' :: rest ∧ identifiers rest = true) := by
  have whole := @List.takeWhile_append_dropWhile Char (fun c => decide (c ≠ '-')) (removePrefix (text "v") version)
  have hyphen : ∀ c rest, (removePrefix (text "v") version).dropWhile (fun c => decide (c ≠ '-')) = c :: rest → c = '-' := by
    intro c rest same
    have stop := List.head?_dropWhile_not (fun c => decide (c ≠ '-')) (removePrefix (text "v") version)
    rw [same] at stop
    simpa using stop
  unfold versionMatch at found
  dsimp only at found
  split at found
  · next _ major minor patch base_parts =>
    split at found
    · next numbers =>
      obtain ⟨front, third⟩ := Bool.and_eq_true _ _ |>.mp numbers
      obtain ⟨first, second⟩ := Bool.and_eq_true _ _ |>.mp front
      have all : ∀ part ∈ [major, minor, patch], numeral unicode part = true := by
        simp [first, second, third]
      split at found
      · next rest =>
        cases found
        exact ⟨_, [], by rw [← rest, whole], base_parts, base_parts ▸ all, .inl rfl⟩
      · next c suffix rest =>
        split at found
        · next word =>
          cases found
          cases hyphen c suffix rest
          exact ⟨_, '-' :: suffix, by rw [← rest, whole], base_parts, base_parts ▸ all, .inr ⟨suffix, rfl, word⟩⟩
        · cases found
    · cases found
  · cases found

private theorem matched_digit {version : Text} {matched : Matched} (found : versionMatch unicode version = some matched) :
    ∃ first rest, removePrefix (text "v") version = first :: rest ∧ first.isDigit = true := by
  obtain ⟨base, suffix, whole, parts, numbers, _⟩ := matched_parts found
  have joined := @List.intercalate_splitOn Char base _ _ '.'
  rw [parts, List.intercalate_cons_cons] at joined
  obtain ⟨first, rest, same, _, digit, _⟩ := numeral_decimal (numbers matched.major (by simp [parts]))
  rw [same] at joined
  exact ⟨first, _, by rw [whole, ← joined]; rfl, digit⟩

private theorem matched_major {version : Text} {matched : Matched} (found : versionMatch unicode version = some matched) :
    ∃ first rest, matched.major = first :: rest ∧ first.isDigit = true := by
  obtain ⟨base, suffix, _, parts, numbers, _⟩ := matched_parts found
  obtain ⟨first, rest, same, _, digit, _⟩ := numeral_decimal (numbers matched.major (by simp [parts]))
  exact ⟨first, rest, same, digit⟩

private theorem matched_slash {version : Text} {matched : Matched} (found : versionMatch unicode version = some matched) : '/' ∉ version := by
  obtain ⟨base, suffix, whole, parts, numbers, ending⟩ := matched_parts found
  intro member
  rcases removePrefix_mem (text "v") member with mark | inside
  · exact absurd mark (by decide)
  rw [whole] at inside
  rcases List.mem_append.mp inside with number | word
  · rcases mem_splitOn '.' number with dot | ⟨part, there, holds⟩
    · cases dot
    · obtain ⟨_, _, _, _, _, known⟩ := numeral_decimal (numbers part there)
      have decimal := known '/' holds
      rw [unicode.slash] at decimal
      cases decimal
  · rcases ending with rfl | ⟨rest, rfl, words⟩
    · cases word
    · rcases List.mem_cons.mp word with hyphen | later
      · cases hyphen
      · rcases mem_splitOn '.' later with dot | ⟨part, there, holds⟩
        · cases dot
        · obtain ⟨_, chars⟩ := Bool.and_eq_true _ _ |>.mp (List.all_eq_true.mp words part there)
          exact wordChar_slash (List.all_eq_true.mp chars '/' holds) rfl

private theorem digit_prefix {first : Char} {front rest : Text} {c : Char} (digit : first.isDigit = true) (letter : c.isDigit = false) :
    (c :: front).isPrefixOf (first :: rest) = false := by
  have apart : (c == first) = false := by
    apply beq_false_of_ne
    rintro rfl
    rw [digit] at letter
    cases letter
  rw [List.isPrefixOf, apart, Bool.false_and]

private theorem matched_generated {version : Text} {matched : Matched} (found : versionMatch unicode version = some matched) :
    devTag unicode version = false := by
  have no_front : (text "dev-").isPrefixOf version = false := by
    obtain ⟨first, rest, same, digit⟩ := matched_digit found
    unfold removePrefix at same
    split at same
    · next leads =>
      obtain ⟨after, rfl⟩ := List.isPrefixOf_iff_prefix.mp leads
      rfl
    · rw [same]
      exact digit_prefix digit (by decide)
  rw [devTag, no_front, Bool.and_false, Bool.false_and, Bool.false_and, Bool.false_and]

/-- What `release_metadata` returns: the name of a release or the one it makes of a commit. -/
structure Metadata.Sound (unicode : Unicode) (metadata : Metadata) : Prop where
  bare : removePrefix (text "v") metadata.version = metadata.version
  slash : '/' ∉ metadata.tag
  generated : devTag unicode metadata.tag = true ↔ metadata.channel = .dev

private theorem taggedMetadata_sound {event : Event} {checkout : Checkout} {tag : Text} {metadata : Metadata}
    (done : taggedMetadata unicode event checkout tag = some metadata) : metadata.Sound unicode := by
  unfold taggedMetadata at done
  split at done
  · cases done
  · next matched found =>
    split at done
    · cases done
    · cases done
      obtain ⟨first, rest, same, digit⟩ := matched_digit found
      refine ⟨?_, matched_slash found, ?_⟩
      · rw [same, removePrefix, if_neg]
        rw [Bool.not_eq_true]
        exact digit_prefix digit (by decide)
      · rw [matched_generated found]
        refine ⟨nofun, fun dev => ?_⟩
        dsimp only at dev
        split at dev <;> cases dev

private theorem mainTag_generated (checkout : Checkout) : devTag unicode (mainTag checkout) = true := by
  have date := checkout.digits.1
  have sha : (checkout.sha.take 12).length = 12 := by
    rw [List.length_take]
    exact Nat.min_eq_left checkout.hex.1
  have four : (mainTag checkout).drop 4 = checkout.date ++ (text "-" ++ checkout.sha.take 12) := by
    rw [mainTag, List.append_assoc, List.append_assoc]
    rfl
  have eighteen : (mainTag checkout).drop 18 = text "-" ++ checkout.sha.take 12 := by
    rw [show 18 = 4 + 14 from rfl, ← List.drop_drop, four, ← date, List.drop_left]
  have nineteen : (mainTag checkout).drop 19 = checkout.sha.take 12 := by
    rw [show 19 = 18 + 1 from rfl, ← List.drop_drop, eighteen]
    rfl
  have front : (text "dev-").isPrefixOf (mainTag checkout) = true := by
    rw [List.isPrefixOf_iff_prefix, mainTag, List.append_assoc, List.append_assoc]
    exact List.prefix_append _ _
  have length : (mainTag checkout).length = 31 := by
    simp [mainTag, date, sha, text]
  have digits : (((mainTag checkout).drop 4).take 14).all (fun c => (unicode.decimal c).isSome) = true := by
    rw [four, ← date, List.take_left, List.all_eq_true]
    intro c member
    rw [unicode.ascii c (checkout.digits.2 c member)]
    rfl
  have hex : ((mainTag checkout).drop 19).all (fun c => ('0' ≤ c && c ≤ '9') || ('a' ≤ c && c ≤ 'f')) = true := by
    rw [nineteen, List.all_eq_true]
    intro c member
    simpa using checkout.hex.2 c (List.mem_of_mem_take member)
  have mark : ((mainTag checkout).drop 18).take 1 = text "-" := by
    rw [eighteen]
    rfl
  rw [devTag, length, front, digits, mark, hex]
  rfl

private theorem mainTag_slash (checkout : Checkout) : '/' ∉ mainTag checkout := by
  intro member
  rcases List.mem_append.mp member with front | sha
  · rcases List.mem_append.mp front with named | hyphen
    · rcases List.mem_append.mp named with word | date
      · exact absurd word (by decide)
      · exact absurd (checkout.digits.2 '/' date) (by decide)
    · exact absurd hyphen (by decide)
  · exact absurd (checkout.hex.2 '/' (List.mem_of_mem_take sha)) (by decide)

private theorem releaseMetadata_sound {event : Event} {ref : Text} {checkout : Checkout} {metadata : Metadata}
    (done : releaseMetadata unicode event ref checkout = some metadata) : metadata.Sound unicode := by
  have main : mainMetadata unicode checkout = some metadata → metadata.Sound unicode := by
    intro done
    unfold mainMetadata at done
    split at done
    · cases done
    · next matched found =>
      cases done
      refine ⟨?_, mainTag_slash checkout, ⟨fun _ => rfl, fun _ => mainTag_generated checkout⟩⟩
      obtain ⟨first, rest, same, digit⟩ := matched_major found
      dsimp only
      rw [same, removePrefix, if_neg]
      rw [Bool.not_eq_true]
      exact digit_prefix digit (by decide)
  unfold releaseMetadata at done
  split at done
  · cases done
  · split at done
    · cases done
    · obtain ⟨release, _, done⟩ := Option.bind_eq_some_iff.mp done
      exact taggedMetadata_sound done
  · split at done
    · exact taggedMetadata_sound done
    · split at done
      · exact main done
      · cases done

end Forms

namespace Build
variable {host : Host} (build : Build host)

theorem sound : build.metadata.Sound host.unicode := by
  obtain ⟨event, ref, checkout, done⟩ := build.released
  exact releaseMetadata_sound done

/-- The address of the archive names the tag. -/
theorem downloadTag_platform : downloadTag host.repository build.platform = build.tag := by
  have front : (releases host.repository).isPrefixOf (releases host.repository ++ build.tag ++ text "/" ++ build.archiveName) = true := by
    rw [List.isPrefixOf_iff_prefix, List.append_assoc, List.append_assoc]
    exact List.prefix_append _ _
  have rest : (releases host.repository ++ build.tag ++ text "/" ++ build.archiveName).drop (releases host.repository).length =
      build.tag ++ '/' :: build.archiveName := by
    rw [List.append_assoc, List.append_assoc, List.drop_left]
    rfl
  rw [downloadTag, platform, Option.getD_some, if_pos front, rest, List.takeWhile_append_of_pos]
  · simp
  · intro c member
    have other : c ≠ '/' := fun same => build.sound.slash (same ▸ member)
    simpa using other

end Build

end ArduinoK210.Publish
