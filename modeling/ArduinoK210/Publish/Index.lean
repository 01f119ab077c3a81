import ArduinoK210.Lib.Keyed
import Mathlib.Data.Char
import Mathlib.Data.List.Lex
import Mathlib.Data.Prod.Lex
import Mathlib.Data.Sum.Order
import Mathlib.Order.WithBot

/-! The package indexes of the board manager: how they are merged, and which snapshots of the development branch stay.
Fields that no function reads are kept as one text, so that indexes are compared as a whole. -/

namespace ArduinoK210.Publish

abbrev Text := List Char

def text (literal : String) : Text := literal.toList

/-- What Python looks up of a character in its Unicode tables. -/
structure Unicode where
  decimal : Char → Option Nat
  isdigit : Char → Bool
  isspace : Char → Bool
  ascii : ∀ c, c.isDigit = true → decimal c = some (c.toNat - 48)
  slash : decimal '/' = none

def removePrefix (front whole : Text) : Text := if front.isPrefixOf whole then whole.drop front.length else whole

namespace Unicode
variable (unicode : Unicode)

/-- The digits of a number, in groups that single underscores separate. -/
def natural (digits : Text) : Option Nat :=
  if (digits.splitOn '_').any List.isEmpty then none
  else (digits.filter (· ≠ '_')).foldlM (fun value c => (unicode.decimal c).map (10 * value + ·)) 0

def int (value : Text) : Option Int :=
  let stripped := ((value.dropWhile unicode.isspace).reverse.dropWhile unicode.isspace).reverse
  match stripped with
  | '-' :: digits => (unicode.natural digits).map fun number => -(number : Int)
  | '+' :: digits => (unicode.natural digits).map Int.ofNat
  | digits => (unicode.natural digits).map Int.ofNat

/-- A number comes before a word. -/
abbrev Identifier := Int ⊕ₗ Text

abbrev VersionKey := List Int ×ₗ Bool ×ₗ List Identifier

def identifier (part : Text) : Option Identifier :=
  if part ≠ [] ∧ part.all unicode.isdigit then (unicode.int part).map fun number => toLex (.inl number)
  else some (toLex (.inr part))

/-- `version_key`. A version with a part that is no number raises. -/
def versionKey (version : Text) : Option VersionKey :=
  let value := (removePrefix (text "v") version).takeWhile (· ≠ '+')
  let base := value.takeWhile (· ≠ '-')
  let suffix := (value.dropWhile (· ≠ '-')).drop 1
  match (base.splitOn '.').mapM unicode.int, (suffix.splitOn '.').mapM unicode.identifier with
  | some numbers, some identifiers => some (toLex (numbers, toLex (suffix.isEmpty, identifiers)))
  | _, _ => none

end Unicode

structure Platform where
  architecture : Text
  version : Text
  url : Option Text
  checksum : Text
  rest : Text
  deriving DecidableEq

structure Tool where
  name : Text
  version : Text
  rest : Text
  deriving DecidableEq

structure Package where
  name : Text
  rest : Text
  platforms : List Platform
  tools : List Tool
  deriving DecidableEq

structure Index where
  packages : List Package
  deriving DecidableEq

def Index.empty : Index := ⟨[]⟩

def Platform.key (platform : Platform) : Text × Text := (platform.architecture, platform.version)

def Tool.key (tool : Tool) : Text × Text := (tool.name, tool.version)

/-- The platforms and the tools of `incoming` that the package has not yet. -/
def Package.extend (package incoming : Package) : Package :=
  { package with
    platforms := Keyed.extend Platform.key package.platforms incoming.platforms
    tools := Keyed.extend Tool.key package.tools incoming.tools }

def absorb (packages : List Package) (incoming : Package) : List Package :=
  if packages.any fun package => package.name = incoming.name then
    packages.map fun package => if package.name = incoming.name then package.extend incoming else package
  else packages ++ [incoming]

section
variable (unicode : Unicode)

def Platform.rank (platform : Platform) : WithBot Unicode.VersionKey := unicode.versionKey platform.version

/-- The order of the sort, in which the newest version comes first. -/
def Platform.Before (one other : Platform) : Prop := other.rank unicode ≤ one.rank unicode

instance : DecidableRel (Platform.Before unicode) := fun one other =>
  inferInstanceAs (Decidable (other.rank unicode ≤ one.rank unicode))

def Package.sorted (package : Package) : Option Package :=
  if package.platforms.all fun platform => (unicode.versionKey platform.version).isSome then
    some { package with platforms := package.platforms.insertionSort (Platform.Before unicode) }
  else none

def mergeIndexes (indexes : List Index) : Option Index :=
  (((indexes.flatMap Index.packages).foldl absorb []).mapM (Package.sorted unicode)).map Index.mk

def devTag (tag : Text) : Bool :=
  tag.length = 31 && (text "dev-").isPrefixOf tag && ((tag.drop 4).take 14).all (fun c => (unicode.decimal c).isSome) &&
    (tag.drop 18).take 1 = text "-" && (tag.drop 19).all fun c => ('0' ≤ c && c ≤ '9') || ('a' ≤ c && c ≤ 'f')

def releases (repository : Text) : Text := text "https://github.com/" ++ repository ++ text "/releases/download/"

def downloadTag (repository : Text) (platform : Platform) : Text :=
  let url := platform.url.getD []
  if (releases repository).isPrefixOf url then (url.drop (releases repository).length).takeWhile (· ≠ '/') else []

variable (repository : Text)

/-- A generated snapshot of the architecture. -/
def Platform.snapshot (architecture : Text) (platform : Platform) : Bool :=
  platform.architecture = architecture && devTag unicode (downloadTag repository platform)

def latestDev (architecture : Text) (platforms : List Platform) : Option Text :=
  ((platforms.filter (Platform.snapshot unicode repository architecture)).map (downloadTag repository)).max?

/-- A snapshot that is not the latest. -/
def Platform.obsolete (architecture : Text) (latest : Option Text) (platform : Platform) : Bool :=
  platform.snapshot unicode repository architecture && some (downloadTag repository platform) ≠ latest

def Package.retained (architecture : Text) (package : Package) : Package :=
  let latest := latestDev unicode repository architecture package.platforms
  { package with platforms := package.platforms.filter fun platform => !platform.obsolete unicode repository architecture latest }

/-- `retain_latest_dev`. It changes the first package of the name and raises without one. -/
def retainLatestDev (name architecture : Text) : List Package → Option (List Package × Option Text)
  | [] => none
  | package :: packages =>
      if package.name = name then
        some (package.retained unicode repository architecture :: packages, latestDev unicode repository architecture package.platforms)
      else (retainLatestDev name architecture packages).map fun kept => (package :: kept.1, kept.2)

end
end ArduinoK210.Publish
