import ArduinoK210.Lib.Run
import ArduinoK210.Vfs.Calls

/-! What descriptors are for: each one holds the file system that has opened it, until it is closed or the file system goes. The tables
of the code, where a descriptor holds a place, answer all calls in the same way, if no file system goes that has a descriptor behind
the part of the table that is searched then. -/

namespace ArduinoK210.Vfs

variable {C W O : Type}

structure Descriptor (C W O : Type) where
  permanent : Bool
  vfs : VfsEntry C W O
  localFd : UInt8

abbrev Files (C W O : Type) := Nat → Option (Descriptor C W O)

/-- The same state with the file systems themselves in place of their places. -/
abbrev Descriptors (C W O : Type) := State C W O (Files C W O) (Int → Option (VfsEntry C W O))

namespace Files

def empty : Files C W O := fun _ => none

def free (maxFds : Nat) (files : Files C W O) : Option Nat :=
  (List.range maxFds).find? fun fd => (files fd).isNone

def bind (fd : Nat) (file : Descriptor C W O) (files : Files C W O) : Files C W O := Function.update files fd (some file)

def release (fd : Nat) (files : Files C W O) : Files C W O := Function.update files fd none

/-- A file system takes its descriptors with it. -/
def forget (index : Nat) (files : Files C W O) : Files C W O :=
  fun fd => (files fd).filter fun file => file.vfs.offset != index

/-- Each of the descriptors gets itself as the descriptor of the file system. -/
def bindAll (vfs : VfsEntry C W O) (fds : List Nat) (files : Files C W O) : Files C W O :=
  fun fd => if fd ∈ fds then some ⟨true, vfs, UInt8.ofNat fd⟩ else files fd

end Files

namespace Descriptors

variable (maxFds : Nat)

def bound (fd : Int) (state : Descriptors C W O) : Option (VfsEntry C W O × Int) :=
  if 0 ≤ fd ∧ fd < maxFds then (state.table fd.toNat).map fun file => (file.vfs, file.localFd.toNat) else none

def onFd (call : FdCall C W O) (fd : Int) (state : Descriptors C W O) : Answer O × Descriptors C W O :=
  state.setMachine <|
    match bound maxFds fd state with
    | none => call.unbound fd state.machine
    | some (vfs, local_fd) =>
      state.machine.forward (-1) vfs fun funcs => (call.func funcs).map fun func ctx => func ctx local_fd

/-- The new descriptor is the first one that is free. A file that finds none is closed again. -/
def open_ (path : Path) (flags mode : Int) (state : Descriptors C W O) : Answer O × Descriptors C W O :=
  match state.registry.getVfsForPath path with
  | none => state.setMachine (state.machine.fails (-1) .enoent)
  | some vfs =>
    match vfs.checkAndCall (fun funcs => funcs.open_.map fun func ctx => func ctx (vfs.translatePath path) flags mode)
      state.machine with
    | .missing => state.setMachine (state.machine.fails (-1) .enosys)
    | .blocked => (.blocked, state)
    | .returned fdWithinVfs _ machine =>
      if 0 ≤ fdWithinVfs then
        match state.table.free maxFds with
        | some fd => (.ret fd none, { state with machine, table := state.table.bind fd ⟨false, vfs, UInt8.ofInt fdWithinVfs⟩ })
        | none =>
          match vfs.checkAndCall (fun funcs => funcs.close.map fun func ctx => func ctx fdWithinVfs) machine with
          | .missing => state.setMachine (machine.fails (-1) .enosys)
          | .blocked => (.blocked, { state with machine })
          | .returned _ _ machine => state.setMachine (machine.fails (-1) .enomem)
      else state.setMachine (machine.fails (-1) machine.errno)

def close (fd : Int) (state : Descriptors C W O) : Answer O × Descriptors C W O :=
  match bound maxFds fd state with
  | none => state.setMachine (state.machine.fails (-1) .ebadf)
  | some (vfs, local_fd) =>
    match vfs.checkAndCall (fun funcs => funcs.close.map fun func ctx => func ctx local_fd) state.machine with
    | .missing => state.setMachine (state.machine.fails (-1) .enosys)
    | .blocked => (.blocked, state)
    | .returned ret out machine =>
      (.ret ret out,
        { state with
          machine
          table := if (state.table fd.toNat).any (·.permanent) then state.table else state.table.release fd.toNat })

def opendir (name : Path) (state : Descriptors C W O) : Answer O × Descriptors C W O :=
  match state.registry.getVfsForPath name with
  | none => state.setMachine (state.machine.fails 0 .enoent)
  | some vfs =>
    match vfs.checkAndCall (fun funcs => funcs.opendir.map fun func ctx => func ctx (vfs.translatePath name)) state.machine with
    | .missing => state.setMachine (state.machine.fails 0 .enosys)
    | .blocked => (.blocked, state)
    | .returned ret out machine =>
      (.ret ret out, { state with machine, dirs := if ret = 0 then state.dirs else Function.update state.dirs ret (some vfs) })

def onDir (call : DirCall C W O) (dir : Int) (state : Descriptors C W O) : Answer O × Descriptors C W O :=
  state.setMachine <|
    match state.dirs dir with
    | none => call.unbound state.machine
    | some vfs =>
      state.machine.forward call.failure vfs fun funcs => (call.func funcs).map fun func ctx => func ctx dir

def closedir (dir : Int) (state : Descriptors C W O) : Answer O × Descriptors C W O :=
  match state.dirs dir with
  | none => state.setMachine (badDir state.machine)
  | some vfs =>
    match vfs.checkAndCall (fun funcs => funcs.closedir.map fun func ctx => func ctx dir) state.machine with
    | .missing => state.setMachine (state.machine.fails (-1) .enosys)
    | .blocked => (.blocked, state)
    | .returned ret out machine => (.ret ret out, { state with machine, dirs := Function.update state.dirs dir none })

/-- A file system gets all the descriptors of the range or none of them. -/
def registerFdRange (memory : Bool) (vfs : EspVfs C W O) (ctx : C) (minFd maxFd : Int) (state : Descriptors C W O) :
    Answer O × Descriptors C W O :=
  if minFd < 0 ∨ maxFd < 0 ∨ maxFds < minFd ∨ maxFds < maxFd ∨ maxFd < minFd then (.err .invalidArg none, state)
  else
    match state.registry.espVfsRegisterWithId memory vfs ctx with
    | (.error status, registry) => (.err status none, { state with registry })
    | (.ok index, registry) =>
      let fds := (List.range maxFd.toNat).drop minFd.toNat
      if ∀ fd ∈ fds, state.table fd = none then
        (.err .ok none,
          { state with registry, table := state.table.bindAll ⟨vfs, [], lenPathPrefixIgnored, ctx, index⟩ fds })
      else (.err .invalidArg none, { state with registry := registry.remove index })

def unregisterWithId (vfsId : Int) (state : Descriptors C W O) : Answer O × Descriptors C W O :=
  if vfsId < 0 ∨ vfsMaxCount ≤ vfsId ∨ (state.registry.sVfs vfsId.toNat).isNone then (.err .invalidArg none, state)
  else
    (.err .ok none,
      { state with registry := state.registry.remove vfsId.toNat, table := state.table.forget vfsId.toNat })

def unregister (basePath : Path) (state : Descriptors C W O) : Answer O × Descriptors C W O :=
  match state.registry.indexOf basePath with
  | some index => unregisterWithId index state
  | none => (.err .invalidState none, state)

def registerFdWithLocalFd (vfsId localFd : Int) (permanent : Bool) (state : Descriptors C W O) : Answer O × Descriptors C W O :=
  match state.registry.getVfsForIndex vfsId with
  | none => (.err .invalidArg none, state)
  | some vfs =>
    match state.table.free maxFds with
    | none => (.err .noMem none, state)
    | some fd =>
      (.err .ok (some fd),
        { state with
          table := state.table.bind fd ⟨permanent, vfs, if 0 ≤ localFd then UInt8.ofInt localFd else UInt8.ofNat fd⟩ })

def unregisterFd (vfsId fd : Int) (state : Descriptors C W O) : Answer O × Descriptors C W O :=
  if vfsId < 0 ∨ state.registry.sVfsCount ≤ vfsId ∨ fd < 0 ∨ maxFds ≤ fd then (.err .invalidArg none, state)
  else if (state.table fd.toNat).any
      fun file => file.permanent && file.vfs.offset == vfsId.toNat && (file.localFd.toNat : Int) == fd then
    (.err .ok none, { state with table := state.table.release fd.toNat })
  else (.err .invalidArg none, state)

def step : Request C W O → Descriptors C W O → Answer O × Descriptors C W O
  | .register memory basePath vfs ctx => State.espVfsRegister memory basePath vfs ctx
  | .registerWithId memory vfs ctx => State.espVfsRegisterWithId memory vfs ctx
  | .registerFdRange memory vfs ctx minFd maxFd => registerFdRange maxFds memory vfs ctx minFd maxFd
  | .unregisterWithId vfsId => unregisterWithId vfsId
  | .unregister basePath => unregister basePath
  | .registerFdWithLocalFd vfsId localFd permanent => registerFdWithLocalFd maxFds vfsId localFd permanent
  | .unregisterFd vfsId fd => unregisterFd maxFds vfsId fd
  | .open_ path flags mode => open_ maxFds path flags mode
  | .close fd => close maxFds fd
  | .onFd call fd => onFd maxFds call fd
  | .onPath call path => State.onPath call path
  | .onPaths call first second => State.onPaths call first second
  | .opendir name => opendir name
  | .onDir call dir => onDir call dir
  | .closedir dir => closedir dir

def start (machine : Machine W) : Descriptors C W O := ⟨.empty, .empty, fun _ => none, machine⟩

/-- The file system at a place has no descriptor behind the part of the table that its removal searches, and no open directory. -/
def Leaves (index : Nat) (state : Descriptors C W O) : Prop :=
  (∀ fd file, vfsMaxCount ≤ fd → state.table fd = some file → file.vfs.offset ≠ index) ∧
    ∀ dir vfs, state.dirs dir = some vfs → vfs.offset ≠ index

/-- A file system goes only if it leaves nothing, and gets descriptors only while it is there. -/
def Orderly : Request C W O → Descriptors C W O → Prop
  | .unregisterWithId vfsId, state => 0 ≤ vfsId → Leaves vfsId.toNat state
  | .unregister basePath, state => ∀ index, state.registry.indexOf basePath = some index → Leaves index state
  | .registerFdWithLocalFd vfsId _ _, state =>
    0 ≤ vfsId → vfsId < state.registry.sVfsCount → (state.registry.sVfs vfsId.toNat).isSome
  | _, _ => True

end Descriptors

end ArduinoK210.Vfs
