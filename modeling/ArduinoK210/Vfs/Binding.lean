import ArduinoK210.Vfs.Descriptors

/-! The tables of the code follow the descriptors that hold their file systems. The place in a descriptor is the one of its file system
as long as no other file system has come to stand there. -/

namespace ArduinoK210.Vfs

open Simulation (Agree)

variable {C W O : Type}

def Descriptor.entry : Option (Descriptor C W O) → FdEntry
  | none => .unused
  | some file => ⟨file.permanent, false, false, some file.vfs.offset, file.localFd⟩

/-- The state in the form of the tables. -/
def Descriptors.encode (state : Descriptors C W O) : Tables C W O where
  registry := state.registry
  table fd := Descriptor.entry (state.table fd)
  dirs dir := (state.dirs dir).map (·.offset)
  machine := state.machine

/-- The file system of each descriptor and open directory is still registered. -/
structure Descriptors.Kept (state : Descriptors C W O) : Prop where
  formed : state.registry.Formed
  files : ∀ fd file, state.table fd = some file → state.registry.sVfs file.vfs.offset = some file.vfs
  dirs : ∀ dir vfs, state.dirs dir = some vfs → state.registry.sVfs vfs.offset = some vfs

/-- The tables are the ones of descriptors that are kept. -/
def Tracks (tables : Tables C W O) (state : Descriptors C W O) : Prop :=
  tables = state.encode ∧ state.Kept

section Table

variable {files : Files C W O}

private theorem entry_vfsIndex (file : Option (Descriptor C W O)) :
    (Descriptor.entry file).vfsIndex = file.map (·.vfs.offset) := by
  cases file <;> rfl

private theorem free_entry (maxFds : Nat) (files : Files C W O) :
    FdTable.free maxFds (fun fd => Descriptor.entry (files fd)) = files.free maxFds := by
  unfold FdTable.free Files.free
  simp only [entry_vfsIndex, Option.isNone_map]

private theorem files_free {maxFds fd : Nat} (found : files.free maxFds = some fd) : files fd = none := by
  have free := List.find?_some found
  exact Option.isNone_iff_eq_none.mp free

private theorem occupy_entry {fd : Nat} (free : files fd = none) (file : Descriptor C W O) :
    FdTable.occupy fd file.permanent file.vfs.offset file.localFd (fun fd => Descriptor.entry (files fd)) =
      fun other => Descriptor.entry (files.bind fd file other) := by
  funext other
  unfold FdTable.occupy Files.bind
  by_cases same : other = fd
  · subst same
    simp [free, Descriptor.entry, FdEntry.unused]
  · simp [same]

private theorem release_entry (fd : Nat) (files : Files C W O) :
    FdTable.release fd (fun fd => Descriptor.entry (files fd)) = fun other => Descriptor.entry (files.release fd other) := by
  funext other
  unfold FdTable.release Files.release
  by_cases same : other = fd
  · subst same
    simp [Descriptor.entry]
  · simp [same]

/-- What the loop over the first entries leaves of the table. -/
theorem foldl_release (index : Nat) (fds : List Nat) (table : FdTable) (fd : Nat) :
    (fds.foldl (fun table fd => if (table fd).vfsIndex = some index then table.release fd else table) table) fd =
      if fd ∈ fds ∧ (table fd).vfsIndex = some index then .unused else table fd := by
  induction fds generalizing table with
  | nil => simp
  | cons head fds ih =>
    rw [List.foldl_cons, ih]
    by_cases same : fd = head
    · subst same
      by_cases taken : (table fd).vfsIndex = some index
      · simp [taken, FdTable.release, FdEntry.unused]
      · simp [taken]
    · have kept : (if (table head).vfsIndex = some index then table.release head else table) fd = table fd := by
        split
        · exact Function.update_of_ne same _ _
        · rfl
      rw [kept]
      simp [same]

private theorem forget_entry {index : Nat} (leaves : ∀ fd file, vfsMaxCount ≤ fd → files fd = some file → file.vfs.offset ≠ index) :
    FdTable.forget index (fun fd => Descriptor.entry (files fd)) = fun fd => Descriptor.entry (files.forget index fd) := by
  funext fd
  unfold FdTable.forget
  rw [foldl_release, entry_vfsIndex]
  unfold Files.forget
  cases there : files fd with
  | none => simp [Descriptor.entry]
  | some file =>
    by_cases same : file.vfs.offset = index
    · have searched : fd < vfsMaxCount := by
        by_contra beyond
        exact leaves fd file (not_lt.mp beyond) there same
      simp [same, searched, Descriptor.entry, Option.filter]
    · simp [same, Descriptor.entry, Option.filter]

theorem giveBack_entry (index : Nat) (fds : List Nat) (table : FdTable) (fd : Nat) :
    (table.giveBack index fds) fd = if fd ∈ fds ∧ (table fd).vfsIndex = some index then .unused else table fd := by
  have same : table.giveBack index fds =
      fds.foldl (fun table fd => if (table fd).vfsIndex = some index then table.release fd else table) table := by
    induction fds generalizing table with
    | nil => rfl
    | cons head fds ih => exact ih _
  rw [same, foldl_release]

private theorem bindAll_snoc (vfs : VfsEntry C W O) (taken : List Nat) (fd : Nat) (files : Files C W O) :
    (files.bindAll vfs taken).bind fd ⟨true, vfs, UInt8.ofNat fd⟩ = files.bindAll vfs (taken ++ [fd]) := by
  funext other
  unfold Files.bind Files.bindAll
  by_cases same : other = fd
  · subst same
    simp
  · simp [same]

/-- By induction on the descriptors that are left, with those that are taken so far. -/
theorem takeRange_entry (vfs : VfsEntry C W O) (files : Files C W O) (fds taken : List Nat) (distinct : (taken ++ fds).Nodup)
    (free : ∀ fd ∈ taken, files fd = none) :
    FdTable.takeRange vfs.offset taken fds (fun fd => Descriptor.entry (files.bindAll vfs taken fd)) =
      if ∀ fd ∈ fds, files fd = none then (true, fun fd => Descriptor.entry (files.bindAll vfs (taken ++ fds) fd))
      else (false, fun fd => Descriptor.entry (files fd)) := by
  induction fds generalizing taken with
  | nil => simp [FdTable.takeRange]
  | cons head fds ih =>
    have apart : head ∉ taken := fun inside =>
      (List.nodup_append.mp distinct).2.2 head inside head (List.mem_cons_self ..) rfl
    have here : files.bindAll vfs taken head = files head := if_neg apart
    unfold FdTable.takeRange
    rw [entry_vfsIndex, here, Option.isSome_map]
    cases there : files head with
    | some file =>
      have stops : ¬ ∀ fd ∈ head :: fds, files fd = none := fun all => by simp [all head (List.mem_cons_self ..)] at there
      rw [if_pos Option.isSome_some, if_neg stops]
      refine congrArg (Prod.mk false) (funext fun fd => ?_)
      rw [giveBack_entry, entry_vfsIndex]
      by_cases inside : fd ∈ taken
      · have bound : files.bindAll vfs taken fd = some ⟨true, vfs, UInt8.ofNat fd⟩ := if_pos inside
        rw [bound, free fd inside, if_pos ⟨inside, rfl⟩]
        rfl
      · have same : files.bindAll vfs taken fd = files fd := if_neg inside
        rw [if_neg (fun both => inside both.1), same]
    | none =>
      rw [if_neg (by simp)]
      have taking := occupy_entry (here.trans there) ⟨true, vfs, UInt8.ofNat head⟩
      rw [bindAll_snoc] at taking
      have more := ih (taken ++ [head]) (by simpa using distinct) (by
        intro fd inside
        obtain before | last := List.mem_append.mp inside
        · exact free fd before
        · rw [List.mem_singleton.mp last]
          exact there)
      rw [List.append_assoc] at more
      refine (congrArg _ taking).trans (more.trans ?_)
      simp [there]

end Table

namespace Descriptors.Kept

variable {state : Descriptors C W O}

private theorem with_machine (kept : state.Kept) (machine : Machine W) : Kept { state with machine } :=
  ⟨kept.formed, kept.files, kept.dirs⟩

private theorem bind {fd : Nat} {file : Descriptor C W O} (kept : state.Kept)
    (there : state.registry.sVfs file.vfs.offset = some file.vfs) : Kept { state with table := state.table.bind fd file } := by
  refine ⟨kept.formed, fun other opened found => ?_, kept.dirs⟩
  obtain ⟨-, rfl⟩ | ⟨-, before⟩ := Registry.update_some found
  · exact there
  · exact kept.files other opened before

private theorem release (kept : state.Kept) (fd : Nat) : Kept { state with table := state.table.release fd } := by
  refine ⟨kept.formed, fun other opened found => ?_, kept.dirs⟩
  have apart : other ≠ fd := by
    rintro rfl
    simp [Files.release] at found
  refine kept.files other opened ?_
  simpa [Files.release, apart] using found

theorem register {vfs : EspVfs C W O} {basePath : Path} {len : Nat} {ctx : C} {done : Except EspErr Nat × Registry C W O}
    (kept : state.Kept) (registers : state.registry.Registers vfs basePath len ctx done) : Kept { state with registry := done.2 } := by
  cases registers with
  | refused => exact kept
  | added index count free inside grows bounded formed =>
    have elsewhere {other : Nat} {there : VfsEntry C W O} (found : state.registry.sVfs other = some there) :
        Function.update state.registry.sVfs index (some ⟨vfs, basePath, len, ctx, index⟩) other = some there := by
      have apart : other ≠ index := fun same => by simp [same, free] at found
      rw [Function.update_of_ne apart]
      exact found
    exact ⟨kept.formed.update inside grows bounded rfl formed, fun fd file found => elsewhere (kept.files fd file found),
      fun dir entry found => elsewhere (kept.dirs dir entry found)⟩

theorem remove {index : Nat} (kept : state.Kept) (unopened : ∀ dir vfs, state.dirs dir = some vfs → vfs.offset ≠ index) :
    Kept { state with registry := state.registry.remove index, table := state.table.forget index } := by
  refine ⟨kept.formed.remove index, fun fd file found => ?_, fun dir vfs found => ?_⟩
  · obtain ⟨there, apart⟩ := Option.filter_eq_some_iff.mp found
    exact Registry.remove_some.mpr ⟨by simpa using apart, kept.files fd file there⟩
  · exact Registry.remove_some.mpr ⟨unopened dir vfs found, kept.dirs dir vfs found⟩

/-- The lookup in the tables finds the file system that the descriptor holds. -/
theorem bound_encode (kept : state.Kept) (maxFds : Nat) (fd : Int) :
    Tables.bound maxFds fd state.encode = Descriptors.bound maxFds fd state := by
  unfold Tables.bound Descriptors.bound Tables.getLocalFd Tables.getVfsForFd
  by_cases inside : 0 ≤ fd ∧ fd < maxFds
  · simp only [if_pos inside]
    cases there : state.table fd.toNat with
    | none =>
      have entry : state.encode.table fd.toNat = .unused := congrArg Descriptor.entry there
      simp [entry, FdEntry.unused, Registry.getVfsForIndex]
    | some file =>
      have entry : state.encode.table fd.toNat = Descriptor.entry (some file) := congrArg Descriptor.entry there
      have found : state.encode.registry.getVfsForIndex file.vfs.offset = some file.vfs :=
        kept.formed.getVfsForIndex_of (kept.files _ file there)
      simp [entry, Descriptor.entry, found, inside]
  · simp [if_neg inside]

private theorem dir_encode (kept : state.Kept) (dir : Int) :
    ((state.encode.dirs dir).bind fun index => state.encode.registry.getVfsForIndex index) = state.dirs dir := by
  change ((state.dirs dir).map (·.offset)).bind (fun index : Nat => state.registry.getVfsForIndex index) = _
  cases there : state.dirs dir with
  | none => rfl
  | some vfs => exact kept.formed.getVfsForIndex_of (kept.dirs dir vfs there)

private theorem agree_setMachine (kept : state.Kept) (done : Answer O × Machine W) :
    Agree Tracks (state.encode.setMachine done) (state.setMachine done) :=
  ⟨rfl, rfl, kept.with_machine done.2⟩

private theorem agree_onFd (kept : state.Kept) (maxFds : Nat) (call : FdCall C W O) (fd : Int) :
    Agree Tracks (Tables.onFd maxFds call fd state.encode) (Descriptors.onFd maxFds call fd state) := by
  unfold Tables.onFd Descriptors.onFd
  rw [kept.bound_encode]
  exact kept.agree_setMachine _

private theorem agree_onDir (kept : state.Kept) (call : DirCall C W O) (dir : Int) :
    Agree Tracks (Tables.onDir call dir state.encode) (Descriptors.onDir call dir state) := by
  unfold Tables.onDir Descriptors.onDir
  rw [kept.dir_encode]
  exact kept.agree_setMachine _

theorem tracks_bind (kept : state.Kept) (file : Descriptor C W O) {maxFds fd : Nat} (free : state.table.free maxFds = some fd)
    (there : state.registry.sVfs file.vfs.offset = some file.vfs) (machine : Machine W) :
    Tracks { state.encode with machine, table := state.encode.table.occupy fd file.permanent file.vfs.offset file.localFd }
      { state with machine, table := state.table.bind fd file } := by
  refine ⟨?_, (kept.bind there).with_machine machine⟩
  have table := occupy_entry (files_free free) file
  exact congrArg (fun table => (⟨state.registry, table, state.encode.dirs, machine⟩ : Tables C W O)) table

private theorem tracks_release (kept : state.Kept) (fd : Nat) (machine : Machine W) :
    Tracks { state.encode with machine, table := state.encode.table.release fd }
      { state with machine, table := state.table.release fd } := by
  refine ⟨?_, (kept.release fd).with_machine machine⟩
  exact congrArg (fun table => (⟨state.registry, table, state.encode.dirs, machine⟩ : Tables C W O)) (release_entry fd state.table)

private theorem getVfsForPath_registered (kept : state.Kept) {path : Path} {vfs : VfsEntry C W O}
    (found : state.registry.getVfsForPath path = some vfs) : state.registry.sVfs vfs.offset = some vfs := by
  rw [Registry.getVfsForPath_eq] at found
  obtain ⟨inside, -, -⟩ := mem_candidates.mp (chosen_mem found)
  obtain ⟨index, -, there⟩ := List.mem_filterMap.mp inside
  rw [kept.formed.offset index vfs there]
  exact there

private theorem agree_open (kept : state.Kept) (maxFds : Nat) (path : Path) (flags mode : Int) :
    Agree Tracks (Tables.espVfsOpen maxFds path flags mode state.encode) (Descriptors.open_ maxFds path flags mode state) := by
  have registry : state.encode.registry = state.registry := rfl
  have machine : state.encode.machine = state.machine := rfl
  have table : state.encode.table.free maxFds = state.table.free maxFds := free_entry maxFds state.table
  simp only [Tables.espVfsOpen, Descriptors.open_, registry, machine, table]
  cases found : state.registry.getVfsForPath path with
  | none => exact kept.agree_setMachine _
  | some vfs =>
    dsimp only
    cases vfs.checkAndCall (fun funcs => funcs.open_.map fun func ctx => func ctx (vfs.translatePath path) flags mode)
      state.machine with
    | missing => exact kept.agree_setMachine _
    | blocked => exact ⟨rfl, rfl, kept⟩
    | returned fdWithinVfs out machine =>
      dsimp only
      by_cases opened : 0 ≤ fdWithinVfs
      · rw [if_pos opened, if_pos opened]
        cases free : state.table.free maxFds with
        | some fd =>
          refine ⟨rfl, kept.tracks_bind ⟨false, vfs, UInt8.ofInt fdWithinVfs⟩ free ?_ machine⟩
          exact kept.getVfsForPath_registered found
        | none =>
          dsimp only
          cases vfs.checkAndCall (fun funcs => funcs.close.map fun func ctx => func ctx fdWithinVfs) machine with
          | missing => exact kept.agree_setMachine _
          | blocked => exact ⟨rfl, rfl, kept.with_machine machine⟩
          | returned ret out machine => exact kept.agree_setMachine _
      · rw [if_neg opened, if_neg opened]
        exact kept.agree_setMachine _

private theorem agree_close (kept : state.Kept) (maxFds : Nat) (fd : Int) :
    Agree Tracks (Tables.espVfsClose maxFds fd state.encode) (Descriptors.close maxFds fd state) := by
  have machine : state.encode.machine = state.machine := rfl
  have entry : state.encode.table fd.toNat = Descriptor.entry (state.table fd.toNat) := rfl
  simp only [Tables.espVfsClose, Descriptors.close, machine, entry, kept.bound_encode]
  cases bound : Descriptors.bound maxFds fd state with
  | none => exact kept.agree_setMachine _
  | some pair =>
    obtain ⟨vfs, local_fd⟩ := pair
    dsimp only
    cases vfs.checkAndCall (fun funcs => funcs.close.map fun func ctx => func ctx local_fd) state.machine with
    | missing => exact kept.agree_setMachine _
    | blocked => exact ⟨rfl, rfl, kept⟩
    | returned ret out machine =>
      cases there : state.table fd.toNat with
      | none =>
        obtain ⟨-, found⟩ : (0 ≤ fd ∧ fd < maxFds) ∧
            (state.table fd.toNat).map (fun file => (file.vfs, (file.localFd.toNat : Int))) = some (vfs, local_fd) := by
          unfold Descriptors.bound at bound
          split at bound
          case isTrue inside => exact ⟨inside, bound⟩
          case isFalse => exact absurd bound (by simp)
        exact absurd found (by simp [there])
      | some file =>
        dsimp only [Descriptor.entry]
        by_cases permanent : file.permanent = true
        · simp only [permanent, if_true, Option.any_some]
          exact ⟨rfl, rfl, kept.with_machine machine⟩
        · simp only [permanent, Bool.false_eq_true, if_false, Option.any_some]
          exact ⟨rfl, kept.tracks_release fd.toNat machine⟩

private theorem agree_opendir (kept : state.Kept) (name : Path) :
    Agree Tracks (Tables.espVfsOpendir name state.encode) (Descriptors.opendir name state) := by
  have registry : state.encode.registry = state.registry := rfl
  have machine : state.encode.machine = state.machine := rfl
  simp only [Tables.espVfsOpendir, Descriptors.opendir, registry, machine]
  cases found : state.registry.getVfsForPath name with
  | none => exact kept.agree_setMachine _
  | some vfs =>
    dsimp only
    cases vfs.checkAndCall (fun funcs => funcs.opendir.map fun func ctx => func ctx (vfs.translatePath name)) state.machine with
    | missing => exact kept.agree_setMachine _
    | blocked => exact ⟨rfl, rfl, kept⟩
    | returned ret out machine =>
      dsimp only
      by_cases null : ret = 0
      · rw [if_pos null, if_pos null]
        exact ⟨rfl, rfl, kept.with_machine machine⟩
      · rw [if_neg null, if_neg null]
        refine ⟨rfl, ?_, kept.formed, kept.files, fun dir entry opened => ?_⟩
        · have dirs : Function.update state.encode.dirs ret (some vfs.offset) =
              fun dir => (Function.update state.dirs ret (some vfs) dir).map (·.offset) := by
            funext dir
            by_cases same : dir = ret
            · subst same
              simp
            · simp [same, encode]
          exact congrArg (fun dirs => (⟨state.registry, state.encode.table, dirs, machine⟩ : Tables C W O)) dirs
        · by_cases same : dir = ret
          · subst same
            have equal : vfs = entry := by simpa using opened
            exact equal ▸ kept.getVfsForPath_registered found
          · exact kept.dirs dir entry (by simpa [same] using opened)

private theorem agree_closedir (kept : state.Kept) (dir : Int) :
    Agree Tracks (Tables.espVfsClosedir dir state.encode) (Descriptors.closedir dir state) := by
  have machine : state.encode.machine = state.machine := rfl
  simp only [Tables.espVfsClosedir, Descriptors.closedir, machine, kept.dir_encode]
  cases opened : state.dirs dir with
  | none => exact kept.agree_setMachine _
  | some vfs =>
    dsimp only
    cases vfs.checkAndCall (fun funcs => funcs.closedir.map fun func ctx => func ctx dir) state.machine with
    | missing => exact kept.agree_setMachine _
    | blocked => exact ⟨rfl, rfl, kept⟩
    | returned ret out machine =>
      refine ⟨rfl, ?_, kept.formed, kept.files, fun other entry there => ?_⟩
      · have dirs : Function.update state.encode.dirs dir none =
            fun other => (Function.update state.dirs dir none other).map (·.offset) := by
          funext other
          by_cases same : other = dir
          · subst same
            simp
          · simp [same, encode]
        exact congrArg (fun dirs => (⟨state.registry, state.encode.table, dirs, machine⟩ : Tables C W O)) dirs
      · have apart : other ≠ dir := by
          rintro rfl
          simp at there
        exact kept.dirs other entry (by simpa [apart] using there)

private theorem agree_register (kept : state.Kept) (memory : Bool) (basePath : Path) (vfs : EspVfs C W O) (ctx : C) :
    Agree Tracks (State.espVfsRegister memory basePath vfs ctx state.encode) (State.espVfsRegister memory basePath vfs ctx state) := by
  have registry : state.encode.registry = state.registry := rfl
  have registers := kept.register (kept.formed.registers memory basePath (.inr rfl) vfs ctx)
  simp only [State.espVfsRegister, Registry.espVfsRegister, registry]
  revert registers
  cases state.registry.espVfsRegisterCommon memory basePath basePath.length vfs ctx with
  | mk result registry => cases result <;> exact fun registers => ⟨rfl, rfl, registers⟩

private theorem agree_registerWithId (kept : state.Kept) (memory : Bool) (vfs : EspVfs C W O) (ctx : C) :
    Agree Tracks (State.espVfsRegisterWithId memory vfs ctx state.encode) (State.espVfsRegisterWithId memory vfs ctx state) := by
  have registry : state.encode.registry = state.registry := rfl
  have registers := kept.register (kept.formed.registers memory [] (.inl rfl) vfs ctx)
  simp only [State.espVfsRegisterWithId, Registry.espVfsRegisterWithId, registry]
  revert registers
  cases state.registry.espVfsRegisterCommon memory [] lenPathPrefixIgnored vfs ctx with
  | mk result registry => cases result <;> exact fun registers => ⟨rfl, rfl, registers⟩

private theorem agree_unregisterWithId (kept : state.Kept) {vfsId : Int} (leaves : 0 ≤ vfsId → Descriptors.Leaves vfsId.toNat state) :
    Agree Tracks (Tables.espVfsUnregisterWithId vfsId state.encode) (Descriptors.unregisterWithId vfsId state) := by
  have registry : state.encode.registry = state.registry := rfl
  simp only [Tables.espVfsUnregisterWithId, Descriptors.unregisterWithId, registry]
  split
  · exact ⟨rfl, rfl, kept⟩
  · next valid =>
    obtain ⟨files, dirs⟩ := leaves (by omega)
    refine ⟨rfl, ?_, kept.remove dirs⟩
    exact congrArg (fun table => (⟨_, table, state.encode.dirs, state.machine⟩ : Tables C W O)) (forget_entry files)

private theorem agree_unregister (kept : state.Kept) {basePath : Path}
    (leaves : ∀ index, state.registry.indexOf basePath = some index → Descriptors.Leaves index state) :
    Agree Tracks (Tables.espVfsUnregister basePath state.encode) (Descriptors.unregister basePath state) := by
  have registry : state.encode.registry = state.registry := rfl
  simp only [Tables.espVfsUnregister, Descriptors.unregister, registry]
  cases found : state.registry.indexOf basePath with
  | none => exact ⟨rfl, rfl, kept⟩
  | some index => exact kept.agree_unregisterWithId fun _ => leaves index found

private theorem agree_registerFdWithLocalFd (kept : state.Kept) (maxFds : Nat) {vfsId : Int} (localFd : Int) (permanent : Bool)
    (there : 0 ≤ vfsId → vfsId < state.registry.sVfsCount → (state.registry.sVfs vfsId.toNat).isSome) :
    Agree Tracks (Tables.espVfsRegisterFdWithLocalFd maxFds vfsId localFd permanent state.encode)
      (Descriptors.registerFdWithLocalFd maxFds vfsId localFd permanent state) := by
  have registry : state.encode.registry = state.registry := rfl
  have table : state.encode.table.free maxFds = state.table.free maxFds := free_entry maxFds state.table
  simp only [Tables.espVfsRegisterFdWithLocalFd, Descriptors.registerFdWithLocalFd, registry, table]
  by_cases invalid : vfsId < 0 ∨ state.registry.sVfsCount ≤ vfsId
  · rw [if_pos invalid, Registry.getVfsForIndex, if_pos invalid]
    exact ⟨rfl, rfl, kept⟩
  · rw [if_neg invalid, Registry.getVfsForIndex, if_neg invalid]
    obtain ⟨vfs, found⟩ := Option.isSome_iff_exists.mp (there (by omega) (by omega))
    rw [found]
    cases free : state.table.free maxFds with
    | none => exact ⟨rfl, rfl, kept⟩
    | some fd =>
      have place := kept.formed.offset _ vfs found
      refine ⟨rfl, ?_⟩
      rw [← place]
      exact kept.tracks_bind ⟨permanent, vfs, _⟩ free (place ▸ found) state.machine

private theorem agree_unregisterFd (kept : state.Kept) (maxFds : Nat) (vfsId fd : Int) :
    Agree Tracks (Tables.espVfsUnregisterFd maxFds vfsId fd state.encode) (Descriptors.unregisterFd maxFds vfsId fd state) := by
  have registry : state.encode.registry = state.registry := rfl
  have entry : state.encode.table fd.toNat = Descriptor.entry (state.table fd.toNat) := rfl
  simp only [Tables.espVfsUnregisterFd, Descriptors.unregisterFd, registry, entry]
  by_cases invalid : vfsId < 0 ∨ state.registry.sVfsCount ≤ vfsId ∨ fd < 0 ∨ maxFds ≤ fd
  · rw [if_pos invalid, if_pos invalid]
    exact ⟨rfl, rfl, kept⟩
  · rw [if_neg invalid, if_neg invalid]
    have same : ((Descriptor.entry (state.table fd.toNat)).permanent = true ∧
        (Descriptor.entry (state.table fd.toNat)).vfsIndex = some vfsId.toNat ∧
        ((Descriptor.entry (state.table fd.toNat)).localFd.toNat : Int) = fd) ↔
        (state.table fd.toNat).any (fun file => file.permanent && file.vfs.offset == vfsId.toNat &&
          (file.localFd.toNat : Int) == fd) = true := by
      cases state.table fd.toNat with
      | none => simp [Descriptor.entry, FdEntry.unused]
      | some file => simp [Descriptor.entry, and_assoc]
    simp only [same]
    split
    · exact ⟨rfl, kept.tracks_release fd.toNat state.machine⟩
    · exact ⟨rfl, rfl, kept⟩

/-- The place that a range has got is free again if the range fails. -/
theorem remove_register {vfs : EspVfs C W O} {ctx : C} {index : Nat} {registry : Registry C W O} (kept : state.Kept)
    (registers : state.registry.Registers vfs [] lenPathPrefixIgnored ctx (.ok index, registry)) :
    Kept { state with registry := registry.remove index } := by
  have after := kept.register registers
  cases registers with
  | added _ count free inside grows bounded formed =>
    refine ⟨after.formed.remove index, fun fd file found => ?_, fun dir entry found => ?_⟩
    · refine Registry.remove_some.mpr ⟨fun same => ?_, after.files fd file found⟩
      have before := kept.files fd file found
      simp [same, free] at before
    · refine Registry.remove_some.mpr ⟨fun same => ?_, after.dirs dir entry found⟩
      have before := kept.dirs dir entry found
      simp [same, free] at before

private theorem bindAll {vfs : VfsEntry C W O} (kept : state.Kept) (there : state.registry.sVfs vfs.offset = some vfs) (fds : List Nat) :
    Kept { state with table := state.table.bindAll vfs fds } := by
  refine ⟨kept.formed, fun fd file found => ?_, kept.dirs⟩
  by_cases inside : fd ∈ fds
  · have equal := Option.some.inj ((if_pos inside).symm.trans found)
    exact equal ▸ there
  · exact kept.files fd file ((if_neg inside).symm.trans found)

private theorem agree_registerFdRange (kept : state.Kept) (maxFds : Nat) (memory : Bool) (vfs : EspVfs C W O) (ctx : C) (minFd maxFd : Int) :
    Agree Tracks (Tables.espVfsRegisterFdRange maxFds memory vfs ctx minFd maxFd state.encode)
      (Descriptors.registerFdRange maxFds memory vfs ctx minFd maxFd state) := by
  have registry : state.encode.registry = state.registry := rfl
  have registers := kept.formed.registers memory [] (.inl rfl) vfs ctx
  simp only [Tables.espVfsRegisterFdRange, Descriptors.registerFdRange, registry, Registry.espVfsRegisterWithId]
  split
  · exact ⟨rfl, rfl, kept⟩
  · revert registers
    cases state.registry.espVfsRegisterCommon memory [] lenPathPrefixIgnored vfs ctx with
    | mk result registry =>
      intro registers
      cases result with
      | error status => exact ⟨rfl, rfl, kept.register registers⟩
      | ok index =>
        dsimp only
        have taken := takeRange_entry ⟨vfs, [], lenPathPrefixIgnored, ctx, index⟩ state.table
          ((List.range maxFd.toNat).drop minFd.toNat) []
          ((List.nodup_range).sublist (List.drop_sublist ..)) (by simp)
        have none_taken : (fun fd => Descriptor.entry
            (state.table.bindAll ⟨vfs, [], lenPathPrefixIgnored, ctx, index⟩ [] fd)) = state.encode.table := by
          funext fd
          simp [Files.bindAll, encode]
        rw [none_taken] at taken
        by_cases unused : ∀ fd ∈ (List.range maxFd.toNat).drop minFd.toNat, state.table fd = none
        · rw [if_pos unused] at taken
          rw [taken, if_pos unused]
          refine ⟨rfl, rfl, (kept.register registers).bindAll ?_ _⟩
          cases registers with
          | added => exact Function.update_self ..
        · rw [if_neg unused] at taken
          rw [taken, if_neg unused]
          exact ⟨rfl, rfl, kept.remove_register registers⟩

end Descriptors.Kept

/-- Every call that is orderly is answered in the same way. -/
theorem tracks_follows (maxFds : Nat) :
    Simulation.Follows (Tables.step maxFds (C := C) (W := W) (O := O)) (Descriptors.step maxFds) Descriptors.Orderly Tracks := by
  rintro request tables state ⟨rfl, kept⟩ orderly
  cases request with
  | register memory basePath vfs ctx => exact kept.agree_register memory basePath vfs ctx
  | registerWithId memory vfs ctx => exact kept.agree_registerWithId memory vfs ctx
  | registerFdRange memory vfs ctx minFd maxFd => exact kept.agree_registerFdRange maxFds memory vfs ctx minFd maxFd
  | unregisterWithId vfsId => exact kept.agree_unregisterWithId orderly
  | unregister basePath => exact kept.agree_unregister orderly
  | registerFdWithLocalFd vfsId localFd permanent => exact kept.agree_registerFdWithLocalFd maxFds localFd permanent orderly
  | unregisterFd vfsId fd => exact kept.agree_unregisterFd maxFds vfsId fd
  | open_ path flags mode => exact kept.agree_open maxFds path flags mode
  | close fd => exact kept.agree_close maxFds fd
  | onFd call fd => exact kept.agree_onFd maxFds call fd
  | onPath call path => exact kept.agree_setMachine _
  | onPaths call first second => exact kept.agree_setMachine _
  | opendir name => exact kept.agree_opendir name
  | onDir call dir => exact kept.agree_onDir call dir
  | closedir dir => exact kept.agree_closedir dir

theorem tracks_start (machine : Machine W) : Tracks (Tables.start machine : Tables C W O) (Descriptors.start machine) := by
  refine ⟨rfl, Registry.empty_formed, fun fd file found => ?_, fun dir vfs found => ?_⟩
  · simp [Descriptors.start, Files.empty] at found
  · simp [Descriptors.start] at found

end ArduinoK210.Vfs
