import ArduinoK210.Vfs.Paths

/-! The calls of a program to the virtual file system. A call on a descriptor goes to the file system that stands at the place the
descriptor names, with the descriptor that this file system has given out. -/

namespace ArduinoK210.Vfs

variable {C W O : Type}

/-- What a call changes beside the tables: `errno` as the file systems set it, the error number of the caller, the console, and the
world of the file systems. -/
structure Machine (W : Type) where
  errno : Errno
  reent : Errno
  console : List UInt8
  world : W

inductive Answer (O : Type) where
  | ret (value : Int) (out : Option O)
  | err (status : EspErr) (given : Option Int)
  | blocked
deriving DecidableEq

/-- How `CHECK_AND_CALL` ends: there is no such function, it does not return, or what it returned. -/
inductive Outcome (W O : Type) where
  | missing
  | blocked
  | returned (ret : Int) (out : Option O) (machine : Machine W)

def VfsEntry.checkAndCall (vfs : VfsEntry C W O) (func : EspVfs C W O → Option (Option C → Call W O)) (machine : Machine W) :
    Outcome W O :=
  match func vfs.vfs with
  | none => .missing
  | some func =>
    match func (if vfs.vfs.contextPtr then some vfs.ctx else none) machine.world with
    | none => .blocked
    | some (reply, world) =>
      .returned reply.ret reply.out { machine with errno := reply.errno.getD machine.errno, world }

namespace Machine

def fails (failure : Int) (reason : Errno) (machine : Machine W) : Answer O × Machine W :=
  (.ret failure none, { machine with reent := reason })

def forward (failure : Int) (vfs : VfsEntry C W O) (func : EspVfs C W O → Option (Option C → Call W O)) (machine : Machine W) :
    Answer O × Machine W :=
  match vfs.checkAndCall func machine with
  | .missing => machine.fails failure .enosys
  | .blocked => (.blocked, machine)
  | .returned ret out machine => (.ret ret out, machine)

end Machine

/-- A call on a descriptor: the function that it is for, and what it does with a descriptor that is not open. -/
structure FdCall (C W O : Type) where
  func : EspVfs C W O → Option (Option C → Int → Call W O)
  unbound : Int → Machine W → Answer O × Machine W

/-- Most calls only report a bad descriptor. -/
def badFd (_fd : Int) (machine : Machine W) : Answer O × Machine W := machine.fails (-1) .ebadf

/-- `rt_hw_console_write` returns 0, whatever it has written. -/
def espVfsWrite (data : List UInt8) : FdCall C W O where
  func vfs := vfs.write.map fun func ctx local_fd => func ctx local_fd data
  unbound fd machine :=
    if fd = 1 ∨ fd = 2 then (.ret 0 none, { machine with console := machine.console ++ data })
    else if fd = 0 then machine.fails (-1) .enotsup
    else machine.fails (-1) .ebadf

def espVfsRead (size : Nat) : FdCall C W O where
  func vfs := vfs.read.map fun func ctx local_fd => func ctx local_fd size
  unbound fd machine := if fd = 0 ∨ fd = 1 ∨ fd = 2 then machine.fails (-1) .enotsup else machine.fails (-1) .ebadf

def espVfsLseek (size mode : Int) : FdCall C W O :=
  ⟨fun vfs => vfs.lseek.map fun func ctx local_fd => func ctx local_fd size mode, badFd⟩

def espVfsPread (size : Nat) (offset : Int) : FdCall C W O :=
  ⟨fun vfs => vfs.pread.map fun func ctx local_fd => func ctx local_fd size offset, badFd⟩

def espVfsPwrite (data : List UInt8) (offset : Int) : FdCall C W O :=
  ⟨fun vfs => vfs.pwrite.map fun func ctx local_fd => func ctx local_fd data offset, badFd⟩

def espVfsFstat : FdCall C W O := ⟨fun vfs => vfs.fstat, badFd⟩

def espVfsFcntlR (cmd arg : Int) : FdCall C W O :=
  ⟨fun vfs => vfs.fcntl.map fun func ctx local_fd => func ctx local_fd cmd arg, badFd⟩

def espVfsIoctl (cmd : Int) (args : List Int) : FdCall C W O :=
  ⟨fun vfs => vfs.ioctl.map fun func ctx local_fd => func ctx local_fd cmd args, badFd⟩

def espVfsFsync : FdCall C W O := ⟨fun vfs => vfs.fsync, badFd⟩

def espVfsFtruncate (length : Int) : FdCall C W O :=
  ⟨fun vfs => vfs.ftruncate.map fun func ctx local_fd => func ctx local_fd length, badFd⟩

abbrev PathCall (C W O : Type) := EspVfs C W O → Option (Option C → Path → Call W O)

def espVfsStat : PathCall C W O := fun vfs => vfs.stat

def espVfsUtime (times : Option Int) : PathCall C W O := fun vfs => vfs.utime.map fun func ctx path => func ctx path times

def espVfsUnlink : PathCall C W O := fun vfs => vfs.unlink

def espVfsMkdir (mode : Int) : PathCall C W O := fun vfs => vfs.mkdir.map fun func ctx path => func ctx path mode

def espVfsRmdir : PathCall C W O := fun vfs => vfs.rmdir

def espVfsAccess (amode : Int) : PathCall C W O := fun vfs => vfs.access.map fun func ctx path => func ctx path amode

def espVfsTruncate (length : Int) : PathCall C W O := fun vfs => vfs.truncate.map fun func ctx path => func ctx path length

abbrev PathsCall (C W O : Type) := EspVfs C W O → Option (Option C → Path → Path → Call W O)

def espVfsLink : PathsCall C W O := fun vfs => vfs.link

def espVfsRename : PathsCall C W O := fun vfs => vfs.rename

structure DirCall (C W O : Type) where
  func : EspVfs C W O → Option (Option C → Int → Call W O)
  failure : Int
  unbound : Machine W → Answer O × Machine W

/-- Without a file system, `errno` is set. -/
def badDir (machine : Machine W) : Answer O × Machine W := (.ret (-1) none, { machine with errno := .ebadf })

def espVfsReaddir : DirCall C W O := ⟨fun vfs => vfs.readdir, 0, fun machine => machine.fails 0 .ebadf⟩

def espVfsReaddirR : DirCall C W O := ⟨fun vfs => vfs.readdirR, -1, badDir⟩

def espVfsTelldir : DirCall C W O := ⟨fun vfs => vfs.telldir, -1, badDir⟩

/-- This one returns nothing, which is −1 here. -/
def espVfsSeekdir (loc : Int) : DirCall C W O := ⟨fun vfs => vfs.seekdir.map fun func ctx dir => func ctx dir loc, -1, badDir⟩

def espVfsRewinddir : DirCall C W O := espVfsSeekdir 0

/-- The state of the virtual file system. `T` is what it has of descriptors, and `D` of open directories, each of which is known by
the address of its `DIR`. -/
structure State (C W O T D : Type) where
  registry : Registry C W O
  table : T
  dirs : D
  machine : Machine W

/-- The state as the code has it: a descriptor and a `DIR` hold the place of their file system. -/
abbrev Tables (C W O : Type) := State C W O FdTable (Int → Option Nat)

namespace State

variable {T D : Type}

def setMachine (state : State C W O T D) (done : Answer O × Machine W) : Answer O × State C W O T D :=
  (done.1, { state with machine := done.2 })

def onPath (call : PathCall C W O) (path : Path) (state : State C W O T D) : Answer O × State C W O T D :=
  state.setMachine <|
    match state.registry.getVfsForPath path with
    | none => state.machine.fails (-1) .enoent
    | some vfs => state.machine.forward (-1) vfs fun funcs => (call funcs).map fun func ctx => func ctx (vfs.translatePath path)

/-- Two file systems are one if they stand at one place of the table. -/
def onPaths (call : PathsCall C W O) (first second : Path) (state : State C W O T D) : Answer O × State C W O T D :=
  state.setMachine <|
    match state.registry.getVfsForPath first with
    | none => state.machine.fails (-1) .enoent
    | some vfs =>
      if (state.registry.getVfsForPath second).map (·.offset) = some vfs.offset then
        state.machine.forward (-1) vfs fun funcs =>
          (call funcs).map fun func ctx => func ctx (vfs.translatePath first) (vfs.translatePath second)
      else state.machine.fails (-1) .exdev

def espVfsRegister (memory : Bool) (basePath : Path) (vfs : EspVfs C W O) (ctx : C) (state : State C W O T D) :
    Answer O × State C W O T D :=
  match state.registry.espVfsRegister memory basePath vfs ctx with
  | (.ok _, registry) => (.err .ok none, { state with registry })
  | (.error status, registry) => (.err status none, { state with registry })

/-- The index of the file system is given out, and −1 if there is none. -/
def espVfsRegisterWithId (memory : Bool) (vfs : EspVfs C W O) (ctx : C) (state : State C W O T D) :
    Answer O × State C W O T D :=
  match state.registry.espVfsRegisterWithId memory vfs ctx with
  | (.ok index, registry) => (.err .ok (some index), { state with registry })
  | (.error status, registry) => (.err status (some (-1)), { state with registry })

end State

namespace Tables

variable (maxFds : Nat)

def getVfsForFd (fd : Int) (state : Tables C W O) : Option (VfsEntry C W O) :=
  if 0 ≤ fd ∧ fd < maxFds then
    match (state.table fd.toNat).vfsIndex with
    | none => state.registry.getVfsForIndex (-1)
    | some index => state.registry.getVfsForIndex index
  else none

def getLocalFd (vfs : Option (VfsEntry C W O)) (fd : Int) (state : Tables C W O) : Int :=
  if vfs.isSome ∧ 0 ≤ fd ∧ fd < maxFds then (state.table fd.toNat).localFd.toNat else -1

/-- The file system and its own descriptor, with which each call on a descriptor starts. -/
def bound (fd : Int) (state : Tables C W O) : Option (VfsEntry C W O × Int) :=
  let vfs := getVfsForFd maxFds fd state
  let local_fd := getLocalFd maxFds vfs fd state
  if local_fd < 0 then none else vfs.map fun vfs => (vfs, local_fd)

def onFd (call : FdCall C W O) (fd : Int) (state : Tables C W O) : Answer O × Tables C W O :=
  state.setMachine <|
    match bound maxFds fd state with
    | none => call.unbound fd state.machine
    | some (vfs, local_fd) =>
      state.machine.forward (-1) vfs fun funcs => (call.func funcs).map fun func ctx => func ctx local_fd

def espVfsOpen (path : Path) (flags mode : Int) (state : Tables C W O) : Answer O × Tables C W O :=
  match state.registry.getVfsForPath path with
  | none => state.setMachine (state.machine.fails (-1) .enoent)
  | some vfs =>
    match vfs.checkAndCall (fun funcs => funcs.open_.map fun func ctx => func ctx (vfs.translatePath path) flags mode)
      state.machine with
    | .missing => state.setMachine (state.machine.fails (-1) .enosys)
    | .blocked => (.blocked, state)
    | .returned fdWithinVfs _ machine =>
      if 0 ≤ fdWithinVfs then
        match state.table.free maxFds with
        | some fd =>
          (.ret fd none, { state with machine, table := state.table.occupy fd false vfs.offset (UInt8.ofInt fdWithinVfs) })
        | none =>
          match vfs.checkAndCall (fun funcs => funcs.close.map fun func ctx => func ctx fdWithinVfs) machine with
          | .missing => state.setMachine (machine.fails (-1) .enosys)
          | .blocked => (.blocked, { state with machine })
          | .returned _ _ machine => state.setMachine (machine.fails (-1) .enomem)
      else state.setMachine (machine.fails (-1) machine.errno)

def espVfsClose (fd : Int) (state : Tables C W O) : Answer O × Tables C W O :=
  match bound maxFds fd state with
  | none => state.setMachine (state.machine.fails (-1) .ebadf)
  | some (vfs, local_fd) =>
    match vfs.checkAndCall (fun funcs => funcs.close.map fun func ctx => func ctx local_fd) state.machine with
    | .missing => state.setMachine (state.machine.fails (-1) .enosys)
    | .blocked => (.blocked, state)
    | .returned ret out machine =>
      let entry := state.table fd.toNat
      (.ret ret out,
        { state with
          machine
          table :=
            if entry.permanent then state.table
            else if entry.hasPendingSelect then Function.update state.table fd.toNat { entry with hasPendingClose := true }
            else state.table.release fd.toNat })

def espVfsOpendir (name : Path) (state : Tables C W O) : Answer O × Tables C W O :=
  match state.registry.getVfsForPath name with
  | none => state.setMachine (state.machine.fails 0 .enoent)
  | some vfs =>
    match vfs.checkAndCall (fun funcs => funcs.opendir.map fun func ctx => func ctx (vfs.translatePath name)) state.machine with
    | .missing => state.setMachine (state.machine.fails 0 .enosys)
    | .blocked => (.blocked, state)
    | .returned ret out machine =>
      (.ret ret out, { state with machine, dirs := if ret = 0 then state.dirs else Function.update state.dirs ret (some vfs.offset) })

def onDir (call : DirCall C W O) (dir : Int) (state : Tables C W O) : Answer O × Tables C W O :=
  state.setMachine <|
    match (state.dirs dir).bind fun index => state.registry.getVfsForIndex index with
    | none => call.unbound state.machine
    | some vfs =>
      state.machine.forward call.failure vfs fun funcs => (call.func funcs).map fun func ctx => func ctx dir

/-- The `DIR` is gone whatever `closedir` returns: a file system frees it also where it reports a failure. -/
def espVfsClosedir (dir : Int) (state : Tables C W O) : Answer O × Tables C W O :=
  match (state.dirs dir).bind fun index => state.registry.getVfsForIndex index with
  | none => state.setMachine (badDir state.machine)
  | some vfs =>
    match vfs.checkAndCall (fun funcs => funcs.closedir.map fun func ctx => func ctx dir) state.machine with
    | .missing => state.setMachine (state.machine.fails (-1) .enosys)
    | .blocked => (.blocked, state)
    | .returned ret out machine => (.ret ret out, { state with machine, dirs := Function.update state.dirs dir none })

def espVfsRegisterFdRange (memory : Bool) (vfs : EspVfs C W O) (ctx : C) (minFd maxFd : Int) (state : Tables C W O) :
    Answer O × Tables C W O :=
  if minFd < 0 ∨ maxFd < 0 ∨ maxFds < minFd ∨ maxFds < maxFd ∨ maxFd < minFd then (.err .invalidArg none, state)
  else
    match state.registry.espVfsRegisterWithId memory vfs ctx with
    | (.error status, registry) => (.err status none, { state with registry })
    | (.ok index, registry) =>
      match FdTable.takeRange index [] ((List.range maxFd.toNat).drop minFd.toNat) state.table with
      | (true, table) => (.err .ok none, { state with registry, table })
      | (false, table) => (.err .invalidArg none, { state with registry := registry.remove index, table })

def espVfsUnregisterWithId (vfsId : Int) (state : Tables C W O) : Answer O × Tables C W O :=
  if vfsId < 0 ∨ vfsMaxCount ≤ vfsId ∨ (state.registry.sVfs vfsId.toNat).isNone then (.err .invalidArg none, state)
  else
    (.err .ok none,
      { state with registry := state.registry.remove vfsId.toNat, table := state.table.forget vfsId.toNat })

def espVfsUnregister (basePath : Path) (state : Tables C W O) : Answer O × Tables C W O :=
  match state.registry.indexOf basePath with
  | some index => espVfsUnregisterWithId index state
  | none => (.err .invalidState none, state)

def espVfsRegisterFdWithLocalFd (vfsId localFd : Int) (permanent : Bool) (state : Tables C W O) : Answer O × Tables C W O :=
  if vfsId < 0 ∨ state.registry.sVfsCount ≤ vfsId then (.err .invalidArg none, state)
  else
    match state.table.free maxFds with
    | none => (.err .noMem none, state)
    | some fd =>
      (.err .ok (some fd),
        { state with
          table := state.table.occupy fd permanent vfsId.toNat (if 0 ≤ localFd then UInt8.ofInt localFd else UInt8.ofNat fd) })

def espVfsRegisterFd (vfsId : Int) (state : Tables C W O) : Answer O × Tables C W O :=
  espVfsRegisterFdWithLocalFd maxFds vfsId (-1) true state

def espVfsUnregisterFd (vfsId fd : Int) (state : Tables C W O) : Answer O × Tables C W O :=
  if vfsId < 0 ∨ state.registry.sVfsCount ≤ vfsId ∨ fd < 0 ∨ maxFds ≤ fd then (.err .invalidArg none, state)
  else
    let entry := state.table fd.toNat
    if entry.permanent ∧ entry.vfsIndex = some vfsId.toNat ∧ (entry.localFd.toNat : Int) = fd then
      (.err .ok none, { state with table := state.table.release fd.toNat })
    else (.err .invalidArg none, state)

end Tables

/-- A call of the program. What the allocator has to offer comes with the calls that allocate. -/
inductive Request (C W O : Type) where
  | register (memory : Bool) (basePath : Path) (vfs : EspVfs C W O) (ctx : C)
  | registerWithId (memory : Bool) (vfs : EspVfs C W O) (ctx : C)
  | registerFdRange (memory : Bool) (vfs : EspVfs C W O) (ctx : C) (minFd maxFd : Int)
  | unregisterWithId (vfsId : Int)
  | unregister (basePath : Path)
  | registerFdWithLocalFd (vfsId localFd : Int) (permanent : Bool)
  | unregisterFd (vfsId fd : Int)
  | open_ (path : Path) (flags mode : Int)
  | close (fd : Int)
  | onFd (call : FdCall C W O) (fd : Int)
  | onPath (call : PathCall C W O) (path : Path)
  | onPaths (call : PathsCall C W O) (first second : Path)
  | opendir (name : Path)
  | onDir (call : DirCall C W O) (dir : Int)
  | closedir (dir : Int)

def Request.Closes (fd : Nat) : Request C W O → Prop
  | .close other => other = fd
  | _ => False

def Tables.Removes (index : Nat) : Request C W O → Tables C W O → Prop
  | .unregisterWithId vfsId, _ => vfsId = index
  | .unregister basePath, state => state.registry.indexOf basePath = some index
  | _, _ => False

def Tables.step (maxFds : Nat) : Request C W O → Tables C W O → Answer O × Tables C W O
  | .register memory basePath vfs ctx => State.espVfsRegister memory basePath vfs ctx
  | .registerWithId memory vfs ctx => State.espVfsRegisterWithId memory vfs ctx
  | .registerFdRange memory vfs ctx minFd maxFd => espVfsRegisterFdRange maxFds memory vfs ctx minFd maxFd
  | .unregisterWithId vfsId => espVfsUnregisterWithId vfsId
  | .unregister basePath => espVfsUnregister basePath
  | .registerFdWithLocalFd vfsId localFd permanent => espVfsRegisterFdWithLocalFd maxFds vfsId localFd permanent
  | .unregisterFd vfsId fd => espVfsUnregisterFd maxFds vfsId fd
  | .open_ path flags mode => espVfsOpen maxFds path flags mode
  | .close fd => espVfsClose maxFds fd
  | .onFd call fd => onFd maxFds call fd
  | .onPath call path => State.onPath call path
  | .onPaths call first second => State.onPaths call first second
  | .opendir name => espVfsOpendir name
  | .onDir call dir => onDir call dir
  | .closedir dir => espVfsClosedir dir

/-- Nothing is registered, and no descriptor is in use. -/
def Tables.start (machine : Machine W) : Tables C W O := ⟨.empty, .empty, fun _ => none, machine⟩

end ArduinoK210.Vfs
