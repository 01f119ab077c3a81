import ArduinoK210.Vfs.Routing

/-! The life of a descriptor. From `open` on it is the same file of the same file system, until it is closed or the file system goes. The
removal of a file system searches the first eight descriptors. The others stay, name a place without a file system, and come back with
the next file system that stands there. -/

namespace ArduinoK210.Vfs

open Simulation (answers after Allowed)

variable {C W O : Type} {maxFds : Nat}

/-- A program whose file systems leave nothing gets the answers it would get from descriptors that hold their file systems. -/
theorem answers_of_orderly (maxFds : Nat) (machine : Machine W) (requests : List (Request C W O))
    (orderly : Allowed (Descriptors.step maxFds) Descriptors.Orderly requests (Descriptors.start machine)) :
    answers (Tables.step maxFds) requests (Tables.start machine) =
      answers (Descriptors.step maxFds) requests (Descriptors.start machine) :=
  Simulation.answers_eq (tracks_follows maxFds) (tracks_start machine) orderly

/-- A file system with one file, which is what was written last. -/
def shelf : EspVfs Unit (List UInt8) (List UInt8) where
  contextPtr := false
  open_ := some fun _ _ _ _ world => some (⟨3, none, none⟩, world)
  close := some fun _ _ world => some (⟨0, none, none⟩, world)
  write := some fun _ _ data _ => some (⟨data.length, none, none⟩, data)
  read := some fun _ _ size world => some (⟨(world.take size).length, none, some (world.take size)⟩, world)

def emptyShelf : Machine (List UInt8) := ⟨.zero, .zero, [], []⟩

/-- The shelf is at `/s`, and its file is `/s/a`. -/
def shelfRequests : List (Request Unit (List UInt8) (List UInt8)) :=
  [.register true [47, 115] shelf (), .open_ [47, 115, 47, 97] 0 0, .onFd (espVfsWrite [7, 8]) 0, .onFd (espVfsRead 1) 0, .close 0,
    .unregister [47, 115]]

theorem answers_of_orderly_shelf :
    answers (Tables.step 16) shelfRequests (Tables.start emptyShelf) =
      answers (Descriptors.step 16) shelfRequests (Descriptors.start emptyShelf) := by
  refine answers_of_orderly 16 emptyShelf shelfRequests ⟨trivial, trivial, trivial, trivial, trivial, ?_, trivial⟩
  let closed := after (Descriptors.step 16) (shelfRequests.take 5) (Descriptors.start emptyShelf)
  have table : closed.table = ((Files.empty.bind 0 ⟨false, ⟨shelf, [47, 115], 2, (), 0⟩, 3⟩).release 0) := rfl
  have dirs : closed.dirs = fun _ => none := rfl
  refine fun index _ => ⟨fun fd file _ found => ?_, fun dir vfs found => ?_⟩
  · have nothing : closed.table fd = none := by
      rw [table]
      by_cases same : fd = 0 <;> simp [Files.release, Files.bind, Files.empty, same]
    exact absurd (nothing.symm.trans found) (by simp)
  · exact absurd ((congrFun dirs dir).symm.trans found) (by simp)

private theorem takeRange_keeps {index fd : Nat} {fds taken : List Nat} {table : FdTable} (used : (table fd).vfsIndex.isSome = true)
    (apart : fd ∉ taken) : (FdTable.takeRange index taken fds table).2 fd = table fd := by
  induction fds generalizing taken table with
  | nil => rfl
  | cons head fds ih =>
    unfold FdTable.takeRange
    split
    · exact (giveBack_entry index taken table fd).trans (if_neg fun both => apart both.1)
    · next free =>
      have other : fd ≠ head := by
        rintro rfl
        exact free used
      have same : table.occupy head true index (UInt8.ofNat head) fd = table fd := Function.update_of_ne other ..
      rw [ih (by rw [same]; exact used) (by simp [apart, other]), same]

private theorem free_used {fd given : Nat} {table : FdTable} (free : table.free maxFds = some given)
    (used : (table fd).vfsIndex.isSome = true) : fd ≠ given := by
  rintro rfl
  have unused := List.find?_some free
  simp only [Option.isNone_iff_eq_none] at unused
  simp [unused] at used

namespace Tables

variable {fd index : Nat} {state : Tables C W O}

private theorem occupy_keeps (used : (state.table fd).vfsIndex.isSome = true) {given : Nat} (free : state.table.free maxFds = some given)
    (permanent : Bool) (place : Nat) (localFd : UInt8) : state.table.occupy given permanent place localFd fd = state.table fd :=
  Function.update_of_ne (free_used free used) ..

private theorem bound_inside {fd : Int} {pair : VfsEntry C W O × Int} (found : bound maxFds fd state = some pair) : 0 ≤ fd ∧ fd < maxFds := by
  by_contra outside
  simp [bound, getVfsForFd, getLocalFd, outside] at found

/-- A descriptor is bound to the file system at the place it names. -/
theorem bound_named (formed : state.registry.Formed) (inside : fd < maxFds) (named : (state.table fd).vfsIndex = some index)
    {vfs : VfsEntry C W O} (there : state.registry.sVfs index = some vfs) :
    bound maxFds fd state = some (vfs, ((state.table fd).localFd.toNat : Int)) := by
  have within : (0 : Int) ≤ fd ∧ (fd : Int) < maxFds := ⟨Int.natCast_nonneg fd, by exact_mod_cast inside⟩
  have lookup : getVfsForFd maxFds fd state = some vfs := by
    unfold getVfsForFd
    rw [if_pos within, Int.toNat_natCast, named]
    exact formed.getVfsForIndex_of there
  unfold bound
  rw [lookup]
  simp [getLocalFd, within]

private theorem unregisterWithId_keeps (named : (state.table fd).vfsIndex = some index) {vfsId : Int} (spared : vfsId ≠ index) :
    (espVfsUnregisterWithId vfsId state).2.table fd = state.table fd := by
  unfold espVfsUnregisterWithId
  split
  · rfl
  · next valid =>
    refine (foldl_release _ _ _ fd).trans (if_neg fun both => spared ?_)
    have same : index = vfsId.toNat := Option.some.inj (named.symm.trans both.2)
    omega

/-- A descriptor that is not permanent stays as it is through each call that neither closes it nor is to unregister its file system. -/
theorem step_keeps (maxFds : Nat) (temporary : (state.table fd).permanent = false) (named : (state.table fd).vfsIndex = some index)
    {request : Request C W O} (open_ : ¬request.Closes fd) (stays : ¬Removes index request state) :
    (step maxFds request state).2.table fd = state.table fd := by
  have used : (state.table fd).vfsIndex.isSome = true := by
    rw [named]
    rfl
  cases request with
  | register memory basePath vfs ctx =>
    simp only [step, State.espVfsRegister]
    split <;> rfl
  | registerWithId memory vfs ctx =>
    simp only [step, State.espVfsRegisterWithId]
    split <;> rfl
  | registerFdRange memory vfs ctx minFd maxFd =>
    simp only [step, espVfsRegisterFdRange]
    split
    · rfl
    · split
      · rfl
      · next place registry _ =>
        have kept : (FdTable.takeRange place [] ((List.range maxFd.toNat).drop minFd.toNat) state.table).2 fd = state.table fd :=
          takeRange_keeps used List.not_mem_nil
        split <;> next done => exact (congrArg (fun done : Bool × FdTable => done.2 fd) done).symm.trans kept
  | unregisterWithId vfsId => exact unregisterWithId_keeps named stays
  | unregister basePath =>
    simp only [step, espVfsUnregister]
    split
    · next place found =>
      refine unregisterWithId_keeps named fun same => stays ?_
      exact found.trans (congrArg some (Int.ofNat_inj.mp same))
    · rfl
  | registerFdWithLocalFd vfsId localFd permanent =>
    simp only [step, espVfsRegisterFdWithLocalFd]
    split
    · rfl
    · split
      · rfl
      · next free => exact occupy_keeps used free _ _ _
  | unregisterFd vfsId other =>
    simp only [step, espVfsUnregisterFd]
    split
    · rfl
    · split
      · next matching =>
        refine Function.update_of_ne ?_ ..
        rintro same
        rw [← same, temporary] at matching
        exact absurd matching.1 (by simp)
      · rfl
  | open_ path flags mode =>
    simp only [step, espVfsOpen]
    split
    · rfl
    · split
      · rfl
      · rfl
      · split
        · split
          · next free => exact occupy_keeps used free _ _ _
          · split <;> rfl
        · rfl
  | close other =>
    simp only [step, espVfsClose]
    split
    · rfl
    · next bound =>
      have inside := bound_inside bound
      have apart : fd ≠ other.toNat := by
        rintro rfl
        exact open_ (Int.toNat_of_nonneg inside.1).symm
      split
      · rfl
      · rfl
      · dsimp only
        split
        · rfl
        · split <;> exact Function.update_of_ne apart ..
  | onFd call other => rfl
  | onPath call path => rfl
  | onPaths call first second => rfl
  | opendir name =>
    simp only [step, espVfsOpendir]
    split
    · rfl
    · split <;> rfl
  | onDir call dir => rfl
  | closedir dir =>
    simp only [step, espVfsClosedir]
    split
    · rfl
    · split <;> rfl

/-- A call of `open` that succeeds gets a descriptor that was not in use, for the file system that the path is for. -/
theorem open_some {path : Path} {flags mode : Int} {out : Option O}
    (opened : (espVfsOpen maxFds path flags mode state).1 = .ret fd out) :
    fd < maxFds ∧ (state.table fd).vfsIndex = none ∧ ∃ vfs fdWithinVfs given machine, state.registry.getVfsForPath path = some vfs ∧
      vfs.checkAndCall (fun funcs => funcs.open_.map fun func ctx => func ctx (vfs.translatePath path) flags mode) state.machine =
        .returned fdWithinVfs given machine ∧
      (espVfsOpen maxFds path flags mode state).2.table = state.table.occupy fd false vfs.offset (UInt8.ofInt fdWithinVfs) := by
  have failed {machine : Machine W} {reason : Errno} {state : Tables C W O} :
      (state.setMachine (machine.fails (-1) reason)).1 ≠ (.ret fd out : Answer O) := by
    intro same
    have values : (-1 : Int) = fd := (Answer.ret.inj same).1
    omega
  unfold espVfsOpen at opened ⊢
  split at opened
  · exact absurd opened failed
  · next vfs found =>
    rw [found]
    split at opened
    · exact absurd opened failed
    · exact absurd opened (by simp)
    · next fdWithinVfs given machine outcome =>
      split at opened
      · next positive =>
        split at opened
        · next other free =>
          have same : other = fd := Int.ofNat_inj.mp (Answer.ret.inj opened).1
          subst same
          have unused := List.find?_some free
          refine ⟨List.mem_range.mp (List.mem_of_find?_eq_some free), Option.isNone_iff_eq_none.mp unused, vfs, fdWithinVfs, given,
            machine, rfl, outcome, ?_⟩
          simp only [if_pos positive]
        · split at opened
          · exact absurd opened failed
          · exact absurd opened (by simp)
          · exact absurd opened failed
      · exact absurd opened failed

/-- The descriptor is the one that `open` has filled in, and its file system is there. -/
structure Opened (fd : Nat) (vfs : VfsEntry C W O) (localFd : UInt8) (state : Tables C W O) : Prop where
  formed : state.registry.Formed
  temporary : (state.table fd).permanent = false
  named : (state.table fd).vfsIndex = some vfs.offset
  local_fd : (state.table fd).localFd = localFd
  there : state.registry.sVfs vfs.offset = some vfs

private theorem Opened.step {vfs : VfsEntry C W O} {localFd : UInt8} (opened : Opened fd vfs localFd state) (maxFds : Nat)
    {request : Request C W O} (open_ : ¬request.Closes fd) (stays : ¬Removes vfs.offset request state) :
    Opened fd vfs localFd (Tables.step maxFds request state).2 := by
  have changes := step_changes maxFds opened.formed request
  have kept := step_keeps maxFds opened.temporary opened.named open_ stays
  refine ⟨changes.formed opened.formed, ?_, ?_, ?_, changes.stays opened.there stays⟩
  · rw [kept]
    exact opened.temporary
  · rw [kept]
    exact opened.named
  · rw [kept]
    exact opened.local_fd

end Tables

/-- The descriptor that `open` returns was not in use. It stays bound to the file system that the path was for, and to the descriptor
that its `open` has returned, through all calls that neither close it nor are to unregister that file system. -/
theorem opened_stays (maxFds : Nat) (machine : Machine W) (front : List (Request C W O)) (path : Path) (flags mode : Int) (fd : Nat)
    {out : Option O}
    (opened : (Tables.step maxFds (.open_ path flags mode) (after (Tables.step maxFds) front (Tables.start machine))).1 =
      .ret fd out) :
    let before := after (Tables.step maxFds) front (Tables.start machine)
    (before.table fd).vfsIndex = none ∧
      ∃ vfs fdWithinVfs given machine', before.registry.getVfsForPath path = some vfs ∧
        vfs.checkAndCall (fun funcs => funcs.open_.map fun func ctx => func ctx (vfs.translatePath path) flags mode) before.machine =
          .returned fdWithinVfs given machine' ∧
        ∀ later, Allowed (Tables.step maxFds)
            (fun request state => ¬request.Closes fd ∧ ¬Tables.Removes vfs.offset request state) later
            (Tables.step maxFds (.open_ path flags mode) before).2 →
          Tables.bound maxFds fd (after (Tables.step maxFds) (front ++ .open_ path flags mode :: later) (Tables.start machine)) =
            some (vfs, ((UInt8.ofInt fdWithinVfs).toNat : Int)) := by
  intro before
  have formed : before.registry.Formed := Tables.after_formed maxFds machine front
  obtain ⟨inside, unused, vfs, fdWithinVfs, given, machine', found, outcome, table⟩ := Tables.open_some opened
  refine ⟨unused, vfs, fdWithinVfs, given, machine', found, outcome, fun later spared => ?_⟩
  have first : Tables.Opened fd vfs (UInt8.ofInt fdWithinVfs) (Tables.step maxFds (.open_ path flags mode) before).2 := by
    have registry : (Tables.step maxFds (.open_ path flags mode) before).2.registry = before.registry :=
      Tables.open_registry path flags mode before
    have entry : (Tables.step maxFds (.open_ path flags mode) before).2.table fd = _ :=
      (congrFun table fd).trans (Function.update_self ..)
    refine ⟨registry ▸ formed, ?_, ?_, ?_, ?_⟩
    · rw [entry]
    · rw [entry]
    · rw [entry]
    · rw [registry]
      exact (formed.routes found).reaches.1
  have last := spared.keeps (fun _ _ opened spared => opened.step maxFds spared.1 spared.2) first
  rw [Simulation.after_append, ← last.local_fd]
  exact Tables.bound_named last.formed inside last.named last.there

/-- A second shelf comes and goes, and its file is opened and closed. -/
theorem opened_stays_shelf :
    let later := [.register true [47, 116] shelf (), .open_ [47, 116, 47, 97] 0 0, .close 1, .unregister [47, 116],
      .onFd (espVfsWrite [7, 8]) 0]
    ∃ vfs, Tables.bound 16 0 (after (Tables.step 16) (shelfRequests.take 1 ++ .open_ [47, 115, 47, 97] 0 0 :: later)
      (Tables.start emptyShelf)) = some (vfs, 3) := by
  intro later
  obtain ⟨-, vfs, fdWithinVfs, given, machine', found, outcome, stays⟩ :=
    opened_stays 16 emptyShelf (shelfRequests.take 1) [47, 115, 47, 97] 0 0 0 rfl
  cases found
  cases outcome
  have other : (1 : Int) ≠ 0 := by decide
  have second : some 1 ≠ some 0 := by decide
  exact ⟨_, stays later ⟨⟨id, id⟩, ⟨id, id⟩, ⟨other, id⟩, ⟨id, second⟩, ⟨id, id⟩, trivial⟩⟩

/-- A descriptor that is in use, but names a place without a file system. -/
structure Tables.Stale (fd index : Nat) (state : Tables C W O) : Prop where
  formed : state.registry.Formed
  temporary : (state.table fd).permanent = false
  named : (state.table fd).vfsIndex = some index
  gone : state.registry.sVfs index = none

namespace Tables.Stale

variable {fd index : Nat} {state : Tables C W O}

private theorem bound_none (stale : state.Stale fd index) : bound maxFds fd state = none := by
  have nothing : getVfsForFd maxFds fd state = none := by
    unfold getVfsForFd
    rw [Int.toNat_natCast, stale.named]
    split
    · dsimp only
      unfold Registry.getVfsForIndex
      split
      · rfl
      · exact stale.gone
    · rfl
  unfold bound
  rw [nothing]
  rfl

/-- No call gives the descriptor back, not even one that closes it. -/
theorem step_keeps (stale : state.Stale fd index) (maxFds : Nat) (request : Request C W O) :
    (step maxFds request state).2.table fd = state.table fd := by
  have unregister (vfsId : Int) : (espVfsUnregisterWithId vfsId state).2.table fd = state.table fd := by
    by_cases same : vfsId = index
    · unfold espVfsUnregisterWithId
      rw [if_pos (.inr (.inr (by rw [same, Int.toNat_natCast, stale.gone]; rfl)))]
    · exact unregisterWithId_keeps stale.named same
  cases request with
  | close other =>
    by_cases same : other = fd
    · subst same
      simp only [step, espVfsClose, stale.bound_none]
      rfl
    · exact Tables.step_keeps maxFds stale.temporary stale.named same id
  | unregisterWithId vfsId => exact unregister vfsId
  | unregister basePath =>
    simp only [step, espVfsUnregister]
    split
    · exact unregister _
    · rfl
  | _ => exact Tables.step_keeps maxFds stale.temporary stale.named id id

/-- After a call, the descriptor is still stale, or it has got a file system with the descriptor that it had in the old one. -/
theorem step_inherits (stale : state.Stale fd index) (inside : fd < maxFds) (request : Request C W O) :
    (step maxFds request state).2.Stale fd index ∨ ∃ vfs, (step maxFds request state).2.registry.sVfs index = some vfs ∧
      bound maxFds fd (step maxFds request state).2 = some (vfs, ((state.table fd).localFd.toNat : Int)) := by
  have formed := (step_changes maxFds stale.formed request).formed stale.formed
  have kept := stale.step_keeps maxFds request
  cases there : (step maxFds request state).2.registry.sVfs index with
  | none => exact .inl ⟨formed, by rw [kept]; exact stale.temporary, by rw [kept]; exact stale.named, there⟩
  | some vfs =>
    refine .inr ⟨vfs, rfl, ?_⟩
    rw [bound_named formed inside (kept.symm ▸ stale.named) there, kept]

/-- The descriptor stays as it is, through all of the calls. -/
def Waits (maxFds fd index : Nat) (requests : List (Request C W O)) (state : Tables C W O) : Prop :=
  ∀ part, part <+: requests →
    (after (step maxFds) part state).Stale fd index ∧ (after (step maxFds) part state).table fd = state.table fd

private theorem waits_nil (stale : state.Stale fd index) : Waits maxFds fd index [] state := by
  intro part sub
  cases List.prefix_nil.mp sub
  exact ⟨stale, rfl⟩

private theorem waits_cons (stale : state.Stale fd index) {request : Request C W O} {requests : List (Request C W O)}
    (rest : Waits maxFds fd index requests (step maxFds request state).2) : Waits maxFds fd index (request :: requests) state := by
  intro part sub
  cases part with
  | nil => exact ⟨stale, rfl⟩
  | cons head part =>
    obtain ⟨equal, inner⟩ := List.cons_prefix_cons.mp sub
    subst equal
    obtain ⟨still, same⟩ := rest part inner
    exact ⟨still, same.trans (stale.step_keeps maxFds _)⟩

/-- By induction on the calls: the descriptor waits until a call puts a file system at its place. -/
theorem run_inherits (stale : state.Stale fd index) (inside : fd < maxFds) (requests : List (Request C W O)) :
    Waits maxFds fd index requests state ∨
      ∃ front request vfs, front ++ [request] <+: requests ∧ Waits maxFds fd index front state ∧
        (after (step maxFds) (front ++ [request]) state).registry.sVfs index = some vfs ∧
        bound maxFds fd (after (step maxFds) (front ++ [request]) state) = some (vfs, ((state.table fd).localFd.toNat : Int)) := by
  induction requests generalizing state with
  | nil => exact .inl stale.waits_nil
  | cons request requests ih =>
    obtain still | ⟨vfs, there, found⟩ := stale.step_inherits inside request
    · obtain waits | ⟨front, last, vfs, sub, waits, there, found⟩ := ih still
      · exact .inl (stale.waits_cons waits)
      · rw [stale.step_keeps maxFds] at found
        exact .inr ⟨request :: front, last, vfs, List.cons_prefix_cons.mpr ⟨rfl, sub⟩, stale.waits_cons waits, there, found⟩
    · exact .inr ⟨[], request, vfs, List.cons_prefix_cons.mpr ⟨rfl, List.nil_prefix⟩, stale.waits_nil, there, found⟩

/-- What the removal of a file system leaves of a descriptor that it does not search. -/
theorem of_unregister (maxFds : Nat) {vfsId : Nat} (formed : state.registry.Formed) (registered : (state.registry.sVfs vfsId).isSome = true)
    (beyond : vfsMaxCount ≤ fd) (temporary : (state.table fd).permanent = false) (named : (state.table fd).vfsIndex = some vfsId) :
    (step maxFds (.unregisterWithId vfsId) state).2.Stale fd vfsId ∧
      (step maxFds (.unregisterWithId vfsId) state).2.table fd = state.table fd := by
  obtain ⟨vfs, there⟩ := Option.isSome_iff_exists.mp registered
  have bounded : vfsId < vfsMaxCount := (formed.inside vfsId vfs there).trans_le formed.count_le
  have removed : step maxFds (.unregisterWithId vfsId) state =
      (.err .ok none, { state with registry := state.registry.remove vfsId, table := state.table.forget vfsId }) := by
    simp only [step, espVfsUnregisterWithId, Int.toNat_natCast]
    exact if_neg (by simp [there]; omega)
  have kept : (state.table.forget vfsId) fd = state.table fd :=
    (foldl_release _ _ _ fd).trans (if_neg fun both => by have := List.mem_range.mp both.1; omega)
  rw [removed]
  exact ⟨⟨formed.remove vfsId, (congrArg FdEntry.permanent kept).trans temporary, (congrArg FdEntry.vfsIndex kept).trans named,
    by simp [Registry.remove]⟩, kept⟩

end Tables.Stale

/-- A descriptor from the ninth on that is open when its file system is unregistered is never given back, not even by `close`. Calls on
it fail, until a file system is registered at the same place: then they go to that one, with the descriptor of the old file system. -/
theorem unregistered_descriptor_stays (maxFds : Nat) (machine : Machine W) (earlier later : List (Request C W O)) (vfsId fd : Nat)
    (inside : fd < maxFds) (beyond : vfsMaxCount ≤ fd)
    (registered : ((after (Tables.step maxFds) earlier (Tables.start machine)).registry.sVfs vfsId).isSome = true)
    (temporary : ((after (Tables.step maxFds) earlier (Tables.start machine)).table fd).permanent = false)
    (named : ((after (Tables.step maxFds) earlier (Tables.start machine)).table fd).vfsIndex = some vfsId) :
    let opened := (after (Tables.step maxFds) earlier (Tables.start machine)).table fd
    let gone := after (Tables.step maxFds) (earlier ++ [.unregisterWithId vfsId]) (Tables.start machine)
    let Fails front := ∀ part, part <+: front → (after (Tables.step maxFds) part gone).table fd = opened ∧
      Tables.bound maxFds fd (after (Tables.step maxFds) part gone) = none
    Fails later ∨ ∃ front request vfs, front ++ [request] <+: later ∧ Fails front ∧
      (after (Tables.step maxFds) (front ++ [request]) gone).registry.sVfs vfsId = some vfs ∧
      Tables.bound maxFds fd (after (Tables.step maxFds) (front ++ [request]) gone) = some (vfs, (opened.localFd.toNat : Int)) := by
  intro opened gone Fails
  have formed := Tables.after_formed maxFds machine earlier
  have gone_eq : gone = (Tables.step maxFds (.unregisterWithId vfsId)
      (after (Tables.step maxFds) earlier (Tables.start machine))).2 := Simulation.after_append _ earlier _ _
  obtain ⟨stale, same⟩ := Tables.Stale.of_unregister maxFds formed registered beyond temporary named
  rw [← gone_eq] at stale same
  have fails {front : List (Request C W O)} (waits : Tables.Stale.Waits maxFds fd vfsId front gone) : Fails front := by
    intro part sub
    obtain ⟨still, kept⟩ := waits part sub
    exact ⟨kept.trans same, still.bound_none⟩
  obtain waits | ⟨front, request, vfs, sub, waits, there, found⟩ := stale.run_inherits inside later
  · exact .inl (fails waits)
  · rw [same] at found
    exact .inr ⟨front, request, vfs, sub, fails waits, there, found⟩

/-- A shelf, and nine files on it. -/
def nineOpen : List (Request Unit (List UInt8) (List UInt8)) :=
  .register true [47, 115] shelf () :: List.replicate 9 (.open_ [47, 115, 47, 97] 0 0)

theorem unregistered_descriptor_stays_shelf :
    ∃ vfs, Tables.bound 16 8 (after (Tables.step 16) [.register true [47, 116] shelf ()]
      (after (Tables.step 16) (nineOpen ++ [.unregisterWithId 0]) (Tables.start emptyShelf))) = some (vfs, 3) := by
  obtain fails | ⟨front, request, vfs, ⟨rest, whole⟩, -, -, found⟩ :=
    unregistered_descriptor_stays 16 emptyShelf nineOpen [.register true [47, 116] shelf ()] 0 8 (by decide) (by decide) rfl rfl rfl
  · exact absurd (fails _ List.prefix_rfl).2 (Option.isSome_iff_ne_none.mp rfl)
  · cases front with
    | nil =>
      obtain ⟨same, -⟩ := List.cons.inj whole
      rw [List.nil_append, same] at found
      exact ⟨vfs, found⟩
    | cons head front => exact absurd (congrArg List.length whole) (by simp)

end ArduinoK210.Vfs
