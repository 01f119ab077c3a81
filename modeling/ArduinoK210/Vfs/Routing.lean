import ArduinoK210.Vfs.Binding

/-! Where paths go, in every run: what the calls do to the registered file systems, and which of these a path is for. -/

namespace ArduinoK210.Vfs

open Simulation (after)

variable {C W O : Type} {maxFds : Nat}

namespace Tables

theorem open_registry (path : Path) (flags mode : Int) (state : Tables C W O) :
    (espVfsOpen maxFds path flags mode state).2.registry = state.registry := by
  unfold espVfsOpen
  split
  · rfl
  · split
    · rfl
    · rfl
    · split
      · split
        · rfl
        · split <;> rfl
      · rfl

private theorem close_registry (fd : Int) (state : Tables C W O) : (espVfsClose maxFds fd state).2.registry = state.registry := by
  unfold espVfsClose
  split
  · rfl
  · split <;> rfl

private theorem opendir_registry (name : Path) (state : Tables C W O) : (espVfsOpendir name state).2.registry = state.registry := by
  unfold espVfsOpendir
  split
  · rfl
  · split <;> rfl

private theorem closedir_registry (dir : Int) (state : Tables C W O) : (espVfsClosedir dir state).2.registry = state.registry := by
  unfold espVfsClosedir
  split
  · rfl
  · split <;> rfl

private theorem registerFdWithLocalFd_registry (vfsId localFd : Int) (permanent : Bool) (state : Tables C W O) :
    (espVfsRegisterFdWithLocalFd maxFds vfsId localFd permanent state).2.registry = state.registry := by
  unfold espVfsRegisterFdWithLocalFd
  split
  · rfl
  · split <;> rfl

private theorem unregisterFd_registry (vfsId fd : Int) (state : Tables C W O) :
    (espVfsUnregisterFd maxFds vfsId fd state).2.registry = state.registry := by
  unfold espVfsUnregisterFd
  split
  · rfl
  · dsimp only
    split <;> rfl

/-- What a call does to the file systems: nothing, or one comes to a place that is free, or one goes that it is to unregister. -/
inductive Changes (removes : Nat → Prop) (registry : Registry C W O) : Registry C W O → Prop
  | same : Changes removes registry registry
  | registered (vfs : EspVfs C W O) (basePath : Path) (len : Nat) (ctx : C) (done : Except EspErr Nat × Registry C W O)
      (registers : registry.Registers vfs basePath len ctx done) : Changes removes registry done.2
  | withdrawn (vfs : EspVfs C W O) (ctx : C) (index : Nat) (added : Registry C W O)
      (registers : registry.Registers vfs [] lenPathPrefixIgnored ctx (.ok index, added)) :
      Changes removes registry (added.remove index)
  | removed (index : Nat) (asked : removes index) : Changes removes registry (registry.remove index)

theorem Changes.formed {removes : Nat → Prop} {registry next : Registry C W O} (changes : Changes removes registry next)
    (formed : registry.Formed) : next.Formed := by
  have kept {vfs : EspVfs C W O} {basePath : Path} {len : Nat} {ctx : C} {done : Except EspErr Nat × Registry C W O}
      (registers : registry.Registers vfs basePath len ctx done) : done.2.Formed := by
    cases registers with
    | refused => exact formed
    | added index count free inside grows bounded good => exact formed.update inside grows bounded rfl good
  cases changes with
  | same => exact formed
  | registered vfs basePath len ctx done registers => exact kept registers
  | withdrawn vfs ctx index added registers => exact (kept registers).remove index
  | removed index => exact formed.remove index

/-- A file system stays until a call is to unregister it. -/
theorem Changes.stays {removes : Nat → Prop} {registry next : Registry C W O} (changes : Changes removes registry next) {index : Nat}
    {entry : VfsEntry C W O} (there : registry.sVfs index = some entry) (spared : ¬removes index) : next.sVfs index = some entry := by
  have apart {place : Nat} (free : registry.sVfs place = none) : index ≠ place := by
    rintro rfl
    simp [there] at free
  cases changes with
  | same => exact there
  | registered vfs basePath len ctx done registers =>
    cases registers with
    | refused => exact there
    | added place count free => exact (Function.update_of_ne (apart free) ..).trans there
  | withdrawn vfs ctx place added registers =>
    cases registers with
    | added _ count free => exact Registry.remove_some.mpr ⟨apart free, (Function.update_of_ne (apart free) ..).trans there⟩
  | removed place asked => exact Registry.remove_some.mpr ⟨fun same => spared (same ▸ asked), there⟩

private theorem unregisterWithId_changes {removes : Nat → Prop} (vfsId : Int) (asked : ∀ index : Nat, vfsId = index → removes index)
    (state : Tables C W O) : Changes removes state.registry (espVfsUnregisterWithId vfsId state).2.registry := by
  unfold espVfsUnregisterWithId
  split
  · exact .same
  · exact .removed vfsId.toNat (asked _ (by omega))

theorem step_changes (maxFds : Nat) {state : Tables C W O} (formed : state.registry.Formed) (request : Request C W O) :
    Changes (Removes · request state) state.registry (step maxFds request state).2.registry := by
  cases request with
  | register memory basePath vfs ctx =>
    have registers := formed.registers memory basePath (.inr rfl) vfs ctx
    simp only [step, State.espVfsRegister, Registry.espVfsRegister]
    split <;> next done => exact .registered vfs _ _ ctx _ (done ▸ registers)
  | registerWithId memory vfs ctx =>
    have registers := formed.registers memory [] (.inl rfl) vfs ctx
    simp only [step, State.espVfsRegisterWithId, Registry.espVfsRegisterWithId]
    split <;> next done => exact .registered vfs _ _ ctx _ (done ▸ registers)
  | registerFdRange memory vfs ctx minFd maxFd =>
    have registers := formed.registers memory [] (.inl rfl) vfs ctx
    simp only [step, espVfsRegisterFdRange, Registry.espVfsRegisterWithId]
    split
    · exact .same
    · split
      · next done => exact .registered vfs _ _ ctx _ (done ▸ registers)
      · next done =>
        rw [done] at registers
        split
        · exact .registered vfs _ _ ctx _ registers
        · exact .withdrawn vfs ctx _ _ registers
  | unregisterWithId vfsId => exact unregisterWithId_changes vfsId (fun _ same => same) state
  | unregister basePath =>
    simp only [step, espVfsUnregister]
    split
    · next place found =>
      refine unregisterWithId_changes _ (fun index same => ?_) state
      exact found.trans (congrArg some (Int.ofNat_inj.mp same))
    · exact .same
  | registerFdWithLocalFd vfsId localFd permanent =>
    exact (registerFdWithLocalFd_registry vfsId localFd permanent state).symm ▸ .same
  | unregisterFd vfsId fd => exact (unregisterFd_registry vfsId fd state).symm ▸ .same
  | open_ path flags mode => exact (open_registry path flags mode state).symm ▸ .same
  | close fd => exact (close_registry fd state).symm ▸ .same
  | onFd call fd => exact .same
  | onPath call path => exact .same
  | onPaths call first second => exact .same
  | opendir name => exact (opendir_registry name state).symm ▸ .same
  | onDir call dir => exact .same
  | closedir dir => exact (closedir_registry dir state).symm ▸ .same

/-- In every run, the entries are as they were registered, each at its own place. -/
theorem after_formed (maxFds : Nat) (machine : Machine W) (requests : List (Request C W O)) :
    (after (step maxFds) requests (start machine)).registry.Formed :=
  Simulation.after_invariant (fun state : Tables C W O => state.registry.Formed)
    (fun request _ formed => (step_changes maxFds formed request).formed formed) requests Registry.empty_formed

end Tables

theorem Registry.Formed.entries_mem {registry : Registry C W O} (formed : registry.Formed) {vfs : VfsEntry C W O} :
    vfs ∈ registry.entries ↔ registry.sVfs vfs.offset = some vfs := by
  unfold entries
  rw [List.mem_filterMap]
  constructor
  · rintro ⟨index, -, there⟩
    rw [formed.offset index vfs there]
    exact there
  · exact fun there => ⟨vfs.offset, List.mem_range.mpr (formed.inside _ vfs there), there⟩

private theorem Registry.Formed.entries_sorted {registry : Registry C W O} (formed : registry.Formed) :
    registry.entries.Pairwise fun first second => first.offset < second.offset := by
  unfold entries
  rw [List.pairwise_filterMap]
  refine List.pairwise_lt_range.imp fun {first second} below one found other there => ?_
  rw [formed.offset first one found, formed.offset second other there]
  exact below

private theorem candidates_sorted {entries : List (VfsEntry C W O)}
    (sorted : entries.Pairwise fun first second => first.offset < second.offset) (path : Path) :
    (candidates path entries).Pairwise fun first second => first.offset < second.offset :=
  (sorted.filter _).filter _

private theorem chosen_length {path : Path} {entries : List (VfsEntry C W O)} {vfs : VfsEntry C W O}
    (taken : chosen path entries = some vfs) : (vfs.pathPrefixLen : Int) = longest path entries :=
  beq_iff_eq.mp (List.mem_filter.mp (chosen_mem taken)).2

private theorem chosen_first {path : Path} {entries : List (VfsEntry C W O)}
    (sorted : entries.Pairwise fun first second => first.offset < second.offset) {vfs other : VfsEntry C W O}
    (taken : chosen path entries = some vfs) (among : other ∈ candidates path entries)
    (named : ¬(vfs.pathPrefixLen = 0 ∧ absolute path = true)) : vfs.offset ≤ other.offset := by
  have length := chosen_length taken
  have ordered := candidates_sorted sorted path
  unfold chosen at taken
  rw [if_neg (fun both => named ⟨by omega, both.2⟩)] at taken
  cases found : candidates path entries with
  | nil => simp [found] at among
  | cons first rest =>
    rw [found] at taken among ordered
    have same : first = vfs := by simpa using taken
    subst same
    obtain rfl | later := List.mem_cons.mp among
    · exact le_refl _
    · exact (List.rel_of_pairwise_cons ordered later).le

/-- Of the file systems for the empty prefix, an absolute path goes to the second one, if there is a second one. -/
theorem chosen_second {path : Path} {entries : List (VfsEntry C W O)}
    (sorted : entries.Pairwise fun first second => first.offset < second.offset) {vfs : VfsEntry C W O}
    (taken : chosen path entries = some vfs) (default : vfs.pathPrefixLen = 0) (rooted : absolute path = true) :
    (∀ other ∈ candidates path entries, other = vfs) ∨
      ∃ first ∈ candidates path entries, first.offset < vfs.offset ∧
        ∀ other ∈ candidates path entries, other ≠ first → vfs.offset ≤ other.offset := by
  have length := chosen_length taken
  have ordered := candidates_sorted sorted path
  unfold chosen at taken
  rw [if_pos ⟨by omega, rooted⟩] at taken
  cases found : candidates path entries with
  | nil => simp [found] at taken
  | cons first rest =>
    rw [found] at taken ordered
    cases rest with
    | nil =>
      have same : first = vfs := by simpa using taken
      exact .inl fun other among => (List.mem_singleton.mp among).trans same
    | cons second rest =>
      have same : second = vfs := by simpa using taken
      subst same
      refine .inr ⟨first, List.mem_cons_self .., List.rel_of_pairwise_cons ordered (List.mem_cons_self ..), ?_⟩
      intro other among apart
      obtain same | behind := List.mem_cons.mp among
      · exact absurd same apart
      · obtain rfl | later := List.mem_cons.mp behind
        · exact le_refl _
        · exact (List.rel_of_pairwise_cons (List.pairwise_cons.mp ordered).2 later).le

/-- A file system for paths stands at a place, and the path is in its tree. -/
def Registry.Reaches (registry : Registry C W O) (path : Path) (vfs : VfsEntry C W O) : Prop :=
  registry.sVfs vfs.offset = some vfs ∧ vfs.Mounted ∧ Under vfs.pathPrefix path

/-- The file system that a path goes to has the longest prefix of those that the path is under. Of several with this prefix it is the
first one, or for an absolute path and the empty prefix the second one. -/
structure Registry.Routes (registry : Registry C W O) (path : Path) (vfs : VfsEntry C W O) : Prop where
  reaches : registry.Reaches path vfs
  longest : ∀ other, registry.Reaches path other → other.pathPrefix.length ≤ vfs.pathPrefix.length
  first : (vfs.pathPrefix ≠ [] ∨ absolute path = false) →
    ∀ other, registry.Reaches path other → other.pathPrefix.length = vfs.pathPrefix.length → vfs.offset ≤ other.offset
  second : vfs.pathPrefix = [] → absolute path = true →
    (∀ other, registry.Reaches path other → other = vfs) ∨
      ∃ first, registry.Reaches path first ∧ first.offset < vfs.offset ∧
        ∀ other, registry.Reaches path other → other ≠ first → vfs.offset ≤ other.offset
  rest : path[0]? = some slash → (vfs.translatePath path)[0]? = some slash ∧
    (path = vfs.pathPrefix ++ vfs.translatePath path ∨ path = vfs.pathPrefix ∧ vfs.translatePath path = [slash])

namespace Registry.Formed

variable {registry : Registry C W O}

private theorem reaches_iff (formed : registry.Formed) (path : Path) (vfs : VfsEntry C W O) :
    registry.Reaches path vfs ↔ vfs ∈ registry.entries ∧ vfs.serves path = true := by
  rw [formed.entries_mem]
  unfold Reaches
  refine and_congr_right fun there => ?_
  rw [serves_iff (formed.entry _ vfs there)]

private theorem length_of_reaches (formed : registry.Formed) {path : Path} {vfs : VfsEntry C W O} (reaches : registry.Reaches path vfs) :
    vfs.pathPrefixLen = vfs.pathPrefix.length :=
  (formed.entry _ vfs reaches.1).length.resolve_left reaches.2.1

private theorem mem_candidates_iff (formed : registry.Formed) {path : Path} {vfs : VfsEntry C W O} :
    vfs ∈ candidates path registry.entries ↔
      registry.Reaches path vfs ∧ ∀ other, registry.Reaches path other → other.pathPrefix.length ≤ vfs.pathPrefix.length := by
  rw [mem_candidates, ← and_assoc, ← formed.reaches_iff path vfs]
  refine and_congr_right fun reaches => ?_
  constructor
  · intro greatest other there
    obtain ⟨inside, serves⟩ := (formed.reaches_iff path other).mp there
    have bound := greatest other inside serves
    rw [formed.length_of_reaches reaches, formed.length_of_reaches there] at bound
    exact bound
  · intro greatest other inside serves
    have there := (formed.reaches_iff path other).mpr ⟨inside, serves⟩
    rw [formed.length_of_reaches reaches, formed.length_of_reaches there]
    exact greatest other there

theorem routes (formed : registry.Formed) {path : Path} {vfs : VfsEntry C W O}
    (found : registry.getVfsForPath path = some vfs) : registry.Routes path vfs := by
  rw [getVfsForPath_eq] at found
  obtain ⟨reaches, greatest⟩ := formed.mem_candidates_iff.mp (chosen_mem found)
  have length := formed.length_of_reaches reaches
  refine ⟨reaches, greatest, fun named other there same => ?_, fun default rooted => ?_, fun rooted => ?_⟩
  · refine chosen_first formed.entries_sorted found ?_ fun both => ?_
    · exact formed.mem_candidates_iff.mpr ⟨there, fun next further => (greatest next further).trans_eq same.symm⟩
    · obtain nonempty | relative := named
      · exact nonempty (List.eq_nil_of_length_eq_zero (length.symm.trans both.1))
      · exact absurd both.2 (by simp [relative])
  · -- everything that the path reaches has the empty prefix
    have all {other : VfsEntry C W O} (there : registry.Reaches path other) : other ∈ candidates path registry.entries := by
      refine formed.mem_candidates_iff.mpr ⟨there, fun next further => ?_⟩
      have short := greatest next further
      rw [default] at short
      exact short.trans (Nat.zero_le _)
    obtain alone | ⟨first, member, before, least⟩ :=
      chosen_second formed.entries_sorted found (by rw [length, default]; rfl) rooted
    · exact .inl fun other there => alone other (all there)
    · exact .inr ⟨first, (formed.mem_candidates_iff.mp member).1, before, fun other there apart => least other (all there) apart⟩
  · exact translatePath_of_under (formed.entry _ vfs reaches.1) reaches.2.1 reaches.2.2 rooted

private theorem routes_none_iff (formed : registry.Formed) (path : Path) :
    registry.getVfsForPath path = none ↔ ∀ vfs, ¬ registry.Reaches path vfs := by
  rw [getVfsForPath_eq, chosen_eq_none_iff]
  constructor
  · intro nothing vfs reaches
    obtain ⟨inside, serves⟩ := (formed.reaches_iff path vfs).mp reaches
    have bound := le_longest inside serves
    omega
  · intro nothing
    rw [← candidates_eq_nil_iff]
    apply List.eq_nil_iff_forall_not_mem.mpr
    intro vfs member
    exact nothing vfs (formed.mem_candidates_iff.mp member).1

end Registry.Formed

/-- Where a path goes in every state that the calls of a program can reach. -/
theorem routes_of_requests (maxFds : Nat) (machine : Machine W) (requests : List (Request C W O)) (path : Path) :
    let registry := (after (Tables.step maxFds) requests (Tables.start machine)).registry
    (registry.getVfsForPath path = none ↔ ∀ vfs, ¬ registry.Reaches path vfs) ∧
      ∀ vfs, registry.getVfsForPath path = some vfs → registry.Routes path vfs := by
  intro registry
  have formed : registry.Formed := Tables.after_formed maxFds machine requests
  exact ⟨formed.routes_none_iff path, fun vfs found => formed.routes found⟩

end ArduinoK210.Vfs
