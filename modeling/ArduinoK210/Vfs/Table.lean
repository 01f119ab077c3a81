import Mathlib.Algebra.Group.Nat.Defs
import Mathlib.Data.List.Range
import Mathlib.Logic.Function.Basic

/-! The tables of the virtual file system: the file systems that are registered, with the prefix of the paths that each one serves,
and the descriptors, each of which names a file system by its place in the first table. -/

namespace ArduinoK210.Vfs

/-- A C string, without the zero at its end. -/
abbrev Path := List UInt8

def slash : UInt8 := 47

inductive EspErr where
  | ok | fail | noMem | invalidArg | invalidState
deriving DecidableEq

inductive Errno where
  | zero | eperm | enoent | eintr | eio | enxio | ebadf | enomem | eacces | eexist | exdev | enodev | einval | enfile | enospc
  | enosys | enotsup | etimedout
deriving DecidableEq

structure Reply (O : Type) where
  ret : Int
  errno : Option Errno
  out : Option O
deriving DecidableEq

/-- A function of a file system, once it has its arguments. It may change the world, or wait and never return. -/
abbrev Call (W O : Type) := W → Option (Reply O × W)

/-- `esp_vfs_t`. Each function gets the context pointer if the flag `ESP_VFS_FLAG_CONTEXT_PTR` is set, and a null pointer stands
for a function that the file system lacks. -/
structure EspVfs (C W O : Type) where
  contextPtr : Bool
  write : Option (Option C → Int → List UInt8 → Call W O) := none
  lseek : Option (Option C → Int → Int → Int → Call W O) := none
  read : Option (Option C → Int → Nat → Call W O) := none
  pread : Option (Option C → Int → Nat → Int → Call W O) := none
  pwrite : Option (Option C → Int → List UInt8 → Int → Call W O) := none
  open_ : Option (Option C → Path → Int → Int → Call W O) := none
  close : Option (Option C → Int → Call W O) := none
  fstat : Option (Option C → Int → Call W O) := none
  fcntl : Option (Option C → Int → Int → Int → Call W O) := none
  ioctl : Option (Option C → Int → Int → List Int → Call W O) := none
  fsync : Option (Option C → Int → Call W O) := none
  ftruncate : Option (Option C → Int → Int → Call W O) := none
  stat : Option (Option C → Path → Call W O) := none
  utime : Option (Option C → Path → Option Int → Call W O) := none
  link : Option (Option C → Path → Path → Call W O) := none
  unlink : Option (Option C → Path → Call W O) := none
  rename : Option (Option C → Path → Path → Call W O) := none
  mkdir : Option (Option C → Path → Int → Call W O) := none
  rmdir : Option (Option C → Path → Call W O) := none
  access : Option (Option C → Path → Int → Call W O) := none
  truncate : Option (Option C → Path → Int → Call W O) := none
  opendir : Option (Option C → Path → Call W O) := none
  readdir : Option (Option C → Int → Call W O) := none
  readdirR : Option (Option C → Int → Call W O) := none
  telldir : Option (Option C → Int → Call W O) := none
  seekdir : Option (Option C → Int → Int → Call W O) := none
  closedir : Option (Option C → Int → Call W O) := none

structure VfsEntry (C W O : Type) where
  vfs : EspVfs C W O
  pathPrefix : Path
  pathPrefixLen : Nat
  ctx : C
  offset : Nat

def vfsMaxCount : Nat := 8
def espVfsPathMax : Nat := 15

/-- `LEN_PATH_PREFIX_IGNORED`, the length of a file system that no path is for. -/
def lenPathPrefixIgnored : Nat := 2 ^ 64 - 1

structure Registry (C W O : Type) where
  sVfs : Nat → Option (VfsEntry C W O)
  sVfsCount : Nat

/-- `fd_table_t`, with no index for −1 -/
structure FdEntry where
  permanent : Bool
  hasPendingClose : Bool
  hasPendingSelect : Bool
  vfsIndex : Option Nat
  localFd : UInt8
deriving DecidableEq

def FdEntry.unused : FdEntry := ⟨false, false, false, none, 255⟩

abbrev FdTable := Nat → FdEntry

variable {C W O : Type}

namespace Registry

def empty : Registry C W O := ⟨fun _ => none, 0⟩

/-- The first free place below the count, or the count itself. -/
def freeIndex (registry : Registry C W O) : Nat :=
  ((List.range registry.sVfsCount).find? fun index => (registry.sVfs index).isNone).getD registry.sVfsCount

def validPrefix (basePath : Path) (len : Nat) : Bool :=
  len == lenPathPrefixIgnored ||
    (len != 1 && len ≤ espVfsPathMax && (len < 2 || (basePath[0]? == some slash && basePath[len - 1]? != some slash)))

def storedPrefix (basePath : Path) (len : Nat) : Path := if len = lenPathPrefixIgnored then [] else basePath

/-- The index of the new entry comes with the result. -/
def espVfsRegisterCommon (memory : Bool) (basePath : Path) (len : Nat) (vfs : EspVfs C W O) (ctx : C) (registry : Registry C W O) :
    Except EspErr Nat × Registry C W O :=
  if validPrefix basePath len then
    if memory then
      let index := registry.freeIndex
      if index = registry.sVfsCount ∧ vfsMaxCount ≤ registry.sVfsCount then (.error .noMem, registry)
      else
        let entry := ⟨vfs, storedPrefix basePath len, len, ctx, index⟩
        (.ok index, ⟨Function.update registry.sVfs index (some entry), if index = registry.sVfsCount then index + 1 else registry.sVfsCount⟩)
    else (.error .noMem, registry)
  else (.error .invalidArg, registry)

def espVfsRegister (memory : Bool) (basePath : Path) (vfs : EspVfs C W O) (ctx : C) (registry : Registry C W O) :
    Except EspErr Nat × Registry C W O :=
  registry.espVfsRegisterCommon memory basePath basePath.length vfs ctx

def espVfsRegisterWithId (memory : Bool) (vfs : EspVfs C W O) (ctx : C) (registry : Registry C W O) :
    Except EspErr Nat × Registry C W O :=
  registry.espVfsRegisterCommon memory [] lenPathPrefixIgnored vfs ctx

def remove (index : Nat) (registry : Registry C W O) : Registry C W O :=
  { registry with sVfs := Function.update registry.sVfs index none }

def getVfsForIndex (index : Int) (registry : Registry C W O) : Option (VfsEntry C W O) :=
  if index < 0 ∨ registry.sVfsCount ≤ index then none else registry.sVfs index.toNat

/-- The entry that `esp_vfs_unregister` finds for a prefix. -/
def indexOf (basePath : Path) (registry : Registry C W O) : Option Nat :=
  (List.range registry.sVfsCount).find? fun index =>
    match registry.sVfs index with
    | none => false
    | some vfs => basePath.length == vfs.pathPrefixLen && basePath == vfs.pathPrefix.take vfs.pathPrefixLen

end Registry

namespace FdTable

def empty : FdTable := fun _ => .unused

/-- The first descriptor below `MAX_FDS` that is not in use. -/
def free (maxFds : Nat) (table : FdTable) : Option Nat :=
  (List.range maxFds).find? fun fd => (table fd).vfsIndex.isNone

def occupy (fd : Nat) (permanent : Bool) (index : Nat) (localFd : UInt8) (table : FdTable) : FdTable :=
  Function.update table fd { table fd with permanent, vfsIndex := some index, localFd }

def release (fd : Nat) (table : FdTable) : FdTable :=
  Function.update table fd .unused

/-- The loop of `esp_vfs_unregister_with_id`. It ends with the number of file systems, where the table has `MAX_FDS` entries. -/
def forget (index : Nat) (table : FdTable) : FdTable :=
  (List.range vfsMaxCount).foldl (fun table fd => if (table fd).vfsIndex = some index then table.release fd else table) table

def giveBack (index : Nat) : List Nat → FdTable → FdTable
  | [], table => table
  | fd :: fds, table => giveBack index fds (if (table fd).vfsIndex = some index then table.release fd else table)

/-- The loop of `esp_vfs_register_fd_range`: the descriptors that are taken, and those that are not reached yet. -/
def takeRange (index : Nat) (taken : List Nat) : List Nat → FdTable → Bool × FdTable
  | [], table => (true, table)
  | fd :: fds, table =>
    if (table fd).vfsIndex.isSome then (false, table.giveBack index taken)
    else takeRange index (taken ++ [fd]) fds (table.occupy fd true index (UInt8.ofNat fd))

end FdTable

/-- What `esp_vfs_register_common` leaves in an entry. -/
structure VfsEntry.Formed (vfs : VfsEntry C W O) : Prop where
  length : vfs.pathPrefixLen = lenPathPrefixIgnored ∨ vfs.pathPrefixLen = vfs.pathPrefix.length
  short : vfs.pathPrefix.length ≤ espVfsPathMax
  rooted : vfs.pathPrefix ≠ [] → vfs.pathPrefix[0]? = some slash

namespace Registry

/-- Each entry stands at its own place, below the count. -/
structure Formed (registry : Registry C W O) : Prop where
  count_le : registry.sVfsCount ≤ vfsMaxCount
  inside : ∀ index vfs, registry.sVfs index = some vfs → index < registry.sVfsCount
  offset : ∀ index vfs, registry.sVfs index = some vfs → vfs.offset = index
  entry : ∀ index vfs, registry.sVfs index = some vfs → vfs.Formed

theorem empty_formed : (empty : Registry C W O).Formed where
  count_le := Nat.zero_le _
  inside _ _ found := by simp [empty] at found
  offset _ _ found := by simp [empty] at found
  entry _ _ found := by simp [empty] at found

private theorem freeIndex_le (registry : Registry C W O) : registry.freeIndex ≤ registry.sVfsCount := by
  unfold freeIndex
  cases found : (List.range registry.sVfsCount).find? fun index => (registry.sVfs index).isNone with
  | none => exact le_refl _
  | some index => exact (List.mem_range.mp (List.mem_of_find?_eq_some found)).le

private theorem Formed.freeIndex_free {registry : Registry C W O} (formed : registry.Formed) :
    registry.sVfs registry.freeIndex = none := by
  unfold freeIndex
  cases found : (List.range registry.sVfsCount).find? fun index => (registry.sVfs index).isNone with
  | none =>
    cases there : registry.sVfs registry.sVfsCount with
    | none => exact there
    | some vfs => exact absurd (formed.inside _ vfs there) (lt_irrefl _)
  | some index =>
    have free := List.find?_some found
    exact Option.isNone_iff_eq_none.mp free

/-- What the registration of a file system does: nothing, or it puts an entry at a place that was free. -/
inductive Registers (registry : Registry C W O) (vfs : EspVfs C W O) (basePath : Path) (len : Nat) (ctx : C) :
    Except EspErr Nat × Registry C W O → Prop
  | refused (status : EspErr) : Registers registry vfs basePath len ctx (.error status, registry)
  | added (index count : Nat) (free : registry.sVfs index = none) (inside : index < count) (grows : registry.sVfsCount ≤ count)
      (bounded : count ≤ vfsMaxCount) (formed : VfsEntry.Formed ⟨vfs, basePath, len, ctx, index⟩) :
      Registers registry vfs basePath len ctx
        (.ok index, ⟨Function.update registry.sVfs index (some ⟨vfs, basePath, len, ctx, index⟩), count⟩)

private theorem formed_of_validPrefix {basePath : Path} {len : Nat} (whole : len = lenPathPrefixIgnored ∨ len = basePath.length)
    (valid : validPrefix basePath len = true) (vfs : EspVfs C W O) (ctx : C) (index : Nat) :
    VfsEntry.Formed ⟨vfs, storedPrefix basePath len, len, ctx, index⟩ := by
  unfold storedPrefix
  by_cases ignored : len = lenPathPrefixIgnored
  · rw [if_pos ignored]
    exact ⟨.inl ignored, Nat.zero_le _, fun nonempty => absurd rfl nonempty⟩
  · rw [if_neg ignored]
    have length := whole.resolve_left ignored
    simp only [validPrefix, Bool.or_eq_true, Bool.and_eq_true, beq_iff_eq, bne_iff_ne, decide_eq_true_eq] at valid
    obtain ⟨⟨single, short⟩, ends⟩ := valid.resolve_left ignored
    refine ⟨.inr length, length ▸ short, fun nonempty => ?_⟩
    obtain tiny | ⟨rooted, -⟩ := ends
    · have positive : 0 < basePath.length := List.length_pos_iff.mpr nonempty
      omega
    · exact rooted

theorem Formed.registers {registry : Registry C W O} (formed : registry.Formed) (memory : Bool) (basePath : Path) {len : Nat}
    (whole : len = lenPathPrefixIgnored ∨ len = basePath.length) (vfs : EspVfs C W O) (ctx : C) :
    Registers registry vfs (storedPrefix basePath len) len ctx (registry.espVfsRegisterCommon memory basePath len vfs ctx) := by
  unfold espVfsRegisterCommon
  split
  case isFalse => exact .refused _
  case isTrue valid =>
    split
    case isFalse => exact .refused _
    case isTrue =>
      dsimp only
      split
      case isTrue => exact .refused _
      case isFalse room =>
        have below := registry.freeIndex_le
        have bounded := formed.count_le
        apply Registers.added
        · exact formed.freeIndex_free
        · split <;> omega
        · split <;> omega
        · split <;> omega
        · exact formed_of_validPrefix whole valid vfs ctx _

theorem update_some {α : Type} {places : Nat → Option α} {index other : Nat} {entry there : α}
    (found : Function.update places index (some entry) other = some there) :
    other = index ∧ entry = there ∨ other ≠ index ∧ places other = some there := by
  by_cases same : other = index
  · subst same
    rw [Function.update_self] at found
    exact .inl ⟨rfl, Option.some.inj found⟩
  · rw [Function.update_of_ne same] at found
    exact .inr ⟨same, found⟩

theorem Formed.update {registry : Registry C W O} (formed : registry.Formed) {index count : Nat} {entry : VfsEntry C W O}
    (inside : index < count) (grows : registry.sVfsCount ≤ count) (bounded : count ≤ vfsMaxCount) (offset : entry.offset = index)
    (good : entry.Formed) : Formed ⟨Function.update registry.sVfs index (some entry), count⟩ where
  count_le := bounded
  inside other vfs found := by
    obtain ⟨rfl, -⟩ | ⟨-, there⟩ := update_some found
    · exact inside
    · exact (formed.inside other vfs there).trans_le grows
  offset other vfs found := by
    obtain ⟨rfl, rfl⟩ | ⟨-, there⟩ := update_some found
    · exact offset
    · exact formed.offset other vfs there
  entry other vfs found := by
    obtain ⟨-, rfl⟩ | ⟨-, there⟩ := update_some found
    · exact good
    · exact formed.entry other vfs there

theorem remove_some {registry : Registry C W O} {index other : Nat} {vfs : VfsEntry C W O} :
    (registry.remove index).sVfs other = some vfs ↔ other ≠ index ∧ registry.sVfs other = some vfs := by
  unfold remove
  by_cases same : other = index
  · subst same
    simp
  · simp [same]

theorem Formed.remove {registry : Registry C W O} (formed : registry.Formed) (index : Nat) : (registry.remove index).Formed where
  count_le := formed.count_le
  inside other vfs found := formed.inside other vfs (remove_some.mp found).2
  offset other vfs found := formed.offset other vfs (remove_some.mp found).2
  entry other vfs found := formed.entry other vfs (remove_some.mp found).2

theorem Formed.getVfsForIndex_of {registry : Registry C W O} (formed : registry.Formed) {index : Nat} {vfs : VfsEntry C W O}
    (found : registry.sVfs index = some vfs) : registry.getVfsForIndex index = some vfs := by
  have inside := formed.inside index vfs found
  unfold getVfsForIndex
  rw [if_neg (by omega)]
  exact found

end Registry

end ArduinoK210.Vfs
