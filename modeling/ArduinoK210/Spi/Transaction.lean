import ArduinoK210.Lib.Mutex
import ArduinoK210.Lib.Run

/-! Tasks that share one started `SPIClass`. A task may be preempted between any two
accesses to the flag, the mutex, the settings or the port. -/

namespace ArduinoK210.Spi

structure BusSettings where
  clock : Nat
  bitOrder : Nat
  dataMode : Nat
  deriving DecidableEq

def spiLsbFirst : Nat := 0
def spiMsbFirst : Nat := 1
def spiMode3 : Nat := 3

/-- The three setters, by the field that each writes. -/
inductive Setter where
  | bitOrder (order : Nat)
  | dataMode (mode : Nat)
  | frequency (hz : Nat)
  deriving DecidableEq

def Setter.accepts : Setter → Bool
  | .bitOrder order => decide (order ≤ spiMsbFirst)
  | .dataMode mode => decide (mode ≤ spiMode3)
  | .frequency hz => decide (hz ≠ 0)

def Setter.apply : Setter → BusSettings → BusSettings
  | .bitOrder order, settings => { settings with bitOrder := order }
  | .dataMode mode, settings => { settings with dataMode := mode }
  | .frequency hz, settings => { settings with clock := hz }

/-- Only the bit order is applied without a call of `configure`. -/
def Setter.configures : Setter → Bool
  | .bitOrder _ => false
  | .dataMode _ | .frequency _ => true

def reversed (input : UInt8) : UInt8 :=
  ((List.range 8).foldl (fun (state : UInt8 × UInt8) _ => (state.1 <<< 1 ||| state.2 &&& 1, state.2 >>> 1)) (0, input)).1

def BusSettings.wireByte (settings : BusSettings) (value : UInt8) : UInt8 :=
  if settings.bitOrder = spiLsbFirst then reversed value else value

/-- The bytes that `wordTransfer` packs: four for `transfer32`, two for `transfer16`. -/
def BusSettings.wordBytes (settings : BusSettings) (value : Nat) (wide : Bool) : List UInt8 :=
  let bytes := if wide then 4 else 2
  (List.range bytes).map fun i =>
    UInt8.ofNat (value >>> (8 * if settings.bitOrder = spiMsbFirst then bytes - 1 - i else i))

/-- Where a task is in a call. `outer` says that `wordTransfer` made the transfer. -/
inductive Pc where
  | idle
  | beginTake (settings : BusSettings)
  | beginTest (settings : BusSettings)
  | beginAccept (settings : BusSettings)
  | beginConfigure (settings : BusSettings)
  | beginRelease
  | endClear
  | endRelease
  | setTake (setter : Setter)
  | setApply (setter : Setter)
  | setRelease
  | wordTake (value : Nat) (wide : Bool)
  | transferTake (input : List UInt8) (outer : Bool)
  | transferring (input : List UInt8) (outer : Bool)
  | wordRelease

/-- What a task holds because of an accepted `beginTransaction`: nothing, an open
transaction, or one whose flag its own `endTransaction` has cleared. -/
inductive Stake where
  | none | transaction | ending
  deriving DecidableEq

def Stake.cleared : Stake → Stake
  | .transaction => .ending
  | stake => stake

/-- `port` is what `configure` last gave the controller and `sent` the bytes on the
wire, each with its task. No call reads `stake`. -/
structure SpiClass where
  transaction : Bool
  settings : BusSettings
  port : Nat × Nat
  mutex : Mutex Nat
  sent : List (Nat × UInt8)
  pc : Nat → Pc
  stake : Nat → Stake

inductive Action where
  | beginTransaction (settings : BusSettings)
  | endTransaction
  | set (setter : Setter)
  | transferBytes (input : List UInt8)
  | wordTransfer (value : Nat) (wide : Bool)
  | proceed

namespace SpiClass

def goto (task : Nat) (pc : Pc) (spi : SpiClass) : SpiClass := { spi with pc := Function.update spi.pc task pc }

def setStake (task : Nat) (stake : Stake) (spi : SpiClass) : SpiClass :=
  { spi with stake := Function.update spi.stake task stake }

def configure (spi : SpiClass) : SpiClass := { spi with port := (spi.settings.dataMode, spi.settings.clock) }

/-- `rt_mutex_take` without a limit: the task stays where it is while another task
holds the mutex. -/
def takeThen (task : Nat) (pc : Pc) (spi : SpiClass) : SpiClass :=
  if spi.mutex.Available task then { spi with mutex := spi.mutex.take task }.goto task pc else spi

def releaseThen (task : Nat) (pc : Pc) (spi : SpiClass) : SpiClass :=
  { spi with mutex := spi.mutex.release task }.goto task pc

def proceed (task : Nat) (spi : SpiClass) : SpiClass :=
  match spi.pc task with
  | .idle => spi
  | .beginTake settings => spi.takeThen task (.beginTest settings)
  | .beginTest settings => spi.goto task (if spi.transaction then .beginRelease else .beginAccept settings)
  | .beginAccept settings =>
      ({ spi with transaction := true }.setStake task .transaction).goto task (.beginConfigure settings)
  | .beginConfigure settings => { spi with settings }.configure.goto task .idle
  | .beginRelease => spi.releaseThen task .idle
  | .endClear =>
      ({ spi with transaction := false }.setStake task (spi.stake task).cleared).goto task .endRelease
  | .endRelease => (spi.setStake task .none).releaseThen task .idle
  | .setTake setter => spi.takeThen task (.setApply setter)
  | .setApply setter =>
      let applied := { spi with settings := setter.apply spi.settings }
      (if setter.configures then applied.configure else applied).goto task .setRelease
  | .setRelease => spi.releaseThen task .idle
  | .wordTake value wide => spi.takeThen task (.transferTake (spi.settings.wordBytes value wide) true)
  | .transferTake input outer => spi.takeThen task (.transferring input outer)
  | .transferring [] outer => spi.releaseThen task (if outer then .wordRelease else .idle)
  | .transferring (value :: rest) outer =>
      { spi with sent := spi.sent ++ [(task, spi.settings.wireByte value)] }.goto task (.transferring rest outer)
  | .wordRelease => spi.releaseThen task .idle

/-- The start of a call, up to the point where it takes the mutex or returns. -/
def enter (task : Nat) : Action → SpiClass → SpiClass
  | .beginTransaction settings, spi =>
      if settings.clock = 0 ∨ spiMode3 < settings.dataMode ∨ spiMsbFirst < settings.bitOrder then spi
      else spi.goto task (.beginTake settings)
  | .endTransaction, spi => if spi.transaction then spi.goto task .endClear else spi
  | .set setter, spi => if setter.accepts then spi.goto task (.setTake setter) else spi
  | .transferBytes input, spi => if input = [] then spi else spi.goto task (.transferTake input false)
  | .wordTransfer value wide, spi => spi.goto task (.wordTake value wide)
  | .proceed, spi => spi

def step (event : Nat × Action) (spi : SpiClass) : SpiClass :=
  match event.2, spi.pc event.1 with
  | .proceed, _ => spi.proceed event.1
  | action, .idle => spi.enter event.1 action
  | _, _ => spi

def start (settings : BusSettings) (port : Nat × Nat) : SpiClass :=
  ⟨false, settings, port, .free, [], fun _ => .idle, fun _ => .none⟩

/-- The releases that a task still owes for the call it is in. -/
def pcHolds : Pc → Nat
  | .beginTest _ | .beginAccept _ | .beginRelease | .setApply _ | .setRelease | .wordRelease => 1
  | .transferTake _ outer => outer.toNat
  | .transferring _ outer => outer.toNat + 1
  | _ => 0

def stakeHolds : Stake → Nat
  | .none => 0
  | .transaction | .ending => 1

def debt (spi : SpiClass) (task : Nat) : Nat := stakeHolds (spi.stake task) + pcHolds (spi.pc task)

/-- The mutex is held for what the tasks owe, the flag says that a transaction is
open, and a task is in the right place for what it holds. -/
structure Kept (spi : SpiClass) : Prop where
  accounts : spi.mutex.Accounts spi.debt
  flag : spi.transaction = true ↔ ∃ task, spi.stake task = .transaction
  accepting : ∀ task settings, spi.pc task = .beginAccept settings → spi.stake task = .none
  configuring : ∀ task settings, spi.pc task = .beginConfigure settings → spi.stake task = .transaction
  ending : ∀ task, spi.stake task = .ending → spi.pc task = .endRelease
  releasing : ∀ task, spi.pc task = .endRelease → spi.stake task ≠ .transaction

variable {spi : SpiClass} {task : Nat}

private theorem start_kept (settings : BusSettings) (port : Nat × Nat) : Kept (start settings port) := by
  refine ⟨Mutex.Accounts.free, ⟨fun set => ?_, fun ⟨_, stake⟩ => ?_⟩, ?_, ?_, ?_, ?_⟩
  · cases set
  · cases stake
  · intro _ _ pc
    cases pc
  · intro _ _ pc
    cases pc
  · intro _ stake
    cases stake
  · intro _ pc
    cases pc

/-- A step of one task moves only that task, and owes what the mutex then holds. -/
theorem Kept.move (kept : Kept spi) {after : SpiClass} {pc : Pc} {stake : Stake}
    (pcs : after.pc = Function.update spi.pc task pc) (stakes : after.stake = Function.update spi.stake task stake)
    (accounts : after.mutex.Accounts after.debt)
    (flag : after.transaction = true ↔ stake = .transaction ∨ ∃ other, other ≠ task ∧ spi.stake other = .transaction)
    (accepting : ∀ settings, pc = .beginAccept settings → stake = .none)
    (configuring : ∀ settings, pc = .beginConfigure settings → stake = .transaction)
    (ending : stake = .ending → pc = .endRelease) (releasing : pc = .endRelease → stake ≠ .transaction) : Kept after := by
  have own : after.pc task = pc ∧ after.stake task = stake := by simp [pcs, stakes]
  have rest : ∀ other, other ≠ task → after.pc other = spi.pc other ∧ after.stake other = spi.stake other := by
    intro other different
    simp [pcs, stakes, Function.update_of_ne different]
  refine ⟨accounts, ?_, fun other => ?_, fun other => ?_, fun other => ?_, fun other => ?_⟩
  · rw [flag]
    refine ⟨fun open_ => ?_, fun ⟨other, open_⟩ => ?_⟩
    · rcases open_ with mine | ⟨other, different, theirs⟩
      · exact ⟨task, own.2.trans mine⟩
      · exact ⟨other, (rest other different).2.trans theirs⟩
    · by_cases same : other = task
      · subst same
        exact .inl (own.2.symm.trans open_)
      · exact .inr ⟨other, same, (rest other same).2.symm.trans open_⟩
  · by_cases same : other = task
    · subst same
      rw [own.1, own.2]
      exact accepting
    · rw [(rest other same).1, (rest other same).2]
      exact kept.accepting other
  · by_cases same : other = task
    · subst same
      rw [own.1, own.2]
      exact configuring
    · rw [(rest other same).1, (rest other same).2]
      exact kept.configuring other
  · by_cases same : other = task
    · subst same
      rw [own.1, own.2]
      exact ending
    · rw [(rest other same).1, (rest other same).2]
      exact kept.ending other
  · by_cases same : other = task
    · subst same
      rw [own.1, own.2]
      exact releasing
    · rw [(rest other same).1, (rest other same).2]
      exact kept.releasing other

private theorem Kept.flag_split (kept : Kept spi) (task : Nat) : spi.transaction = true ↔
    spi.stake task = .transaction ∨ ∃ other, other ≠ task ∧ spi.stake other = .transaction := by
  rw [kept.flag]
  refine ⟨fun ⟨other, stake⟩ => ?_, fun either => ?_⟩
  · by_cases same : other = task
    · exact .inl (same ▸ stake)
    · exact .inr ⟨other, same, stake⟩
  · rcases either with mine | ⟨other, _, theirs⟩
    · exact ⟨task, mine⟩
    · exact ⟨other, theirs⟩

/-- The places that `Kept` says nothing about. -/
def Plain : Pc → Prop
  | .beginAccept _ | .beginConfigure _ | .endRelease => False
  | _ => True

/-- A move that leaves the mutex and what the task owes alone. -/
theorem Kept.accounts_move (kept : Kept spi) {after : SpiClass} {pc : Pc} {stake : Stake}
    (pcs : after.pc = Function.update spi.pc task pc) (stakes : after.stake = Function.update spi.stake task stake)
    (mutex : after.mutex = spi.mutex) (own : stakeHolds stake + pcHolds pc = spi.debt task) :
    after.mutex.Accounts after.debt := by
  rw [mutex]
  apply kept.accounts.congr
  intro other
  by_cases same : other = task
  · subst same
    simp only [debt, pcs, stakes, Function.update_self]
    exact own
  · simp only [debt, pcs, stakes, Function.update_of_ne same]

theorem Kept.advance (kept : Kept spi) {after : SpiClass} {pc : Pc} (left : spi.pc task ≠ .endRelease) (plain : Plain pc)
    (pcs : after.pc = Function.update spi.pc task pc) (stakes : after.stake = spi.stake)
    (flag : after.transaction = spi.transaction) (accounts : after.mutex.Accounts after.debt) : Kept after := by
  have same : after.stake = Function.update spi.stake task (spi.stake task) := by rw [stakes, Function.update_eq_self]
  refine kept.move pcs same accounts (flag ▸ kept.flag_split task) ?_ ?_ ?_ ?_
  · intro settings equal
    exact (equal ▸ plain).elim
  · intro settings equal
    exact (equal ▸ plain).elim
  · intro stake
    exact absurd (kept.ending task stake) left
  · intro equal
    exact (equal ▸ plain).elim

private theorem Kept.takeThen (kept : Kept spi) {pc : Pc} (left : spi.pc task ≠ .endRelease) (plain : Plain pc)
    (more : pcHolds pc = pcHolds (spi.pc task) + 1) : Kept (spi.takeThen task pc) := by
  unfold SpiClass.takeThen
  split
  next available =>
    refine kept.advance left plain rfl rfl rfl ?_
    apply kept.accounts.take available
    · simp only [debt, goto, Function.update_self, more]
      omega
    · intro other different
      simp only [debt, goto, Function.update_of_ne different]
  next => exact kept

private theorem Kept.releaseThen (kept : Kept spi) {pc : Pc} (left : spi.pc task ≠ .endRelease) (plain : Plain pc)
    (less : pcHolds pc + 1 = pcHolds (spi.pc task)) : Kept (spi.releaseThen task pc) := by
  refine kept.advance left plain rfl rfl rfl ?_
  apply kept.accounts.release
  · simp only [debt, SpiClass.releaseThen, goto, Function.update_self]
    omega
  · intro other different
    simp only [debt, SpiClass.releaseThen, goto, Function.update_of_ne different]

theorem Kept.stay (kept : Kept spi) {after : SpiClass} {pc : Pc} (left : spi.pc task ≠ .endRelease)
    (pcs : after.pc = Function.update spi.pc task pc) (stakes : after.stake = spi.stake)
    (flag : after.transaction = spi.transaction) (mutex : after.mutex = spi.mutex) (plain : Plain pc)
    (holds : pcHolds pc = pcHolds (spi.pc task)) : Kept after := by
  refine kept.advance left plain pcs stakes flag ?_
  refine kept.accounts_move pcs (stakes.trans (Function.update_eq_self task spi.stake).symm) mutex ?_
  rw [holds, debt]

/-- A task that finds the flag clear has nothing at stake yet. -/
theorem Kept.pass (kept : Kept spi) {settings : BusSettings} (pc : spi.pc task = .beginTest settings)
    (closed : spi.stake task ≠ .transaction) : Kept (spi.goto task (.beginAccept settings)) := by
  have stake : spi.stake task = .none := by
    cases held : spi.stake task with
    | none => rfl
    | transaction => exact absurd held closed
    | ending => cases pc.symm.trans (kept.ending task held)
  have stakes : spi.stake = Function.update spi.stake task .none := by rw [← stake, Function.update_eq_self]
  refine kept.move rfl stakes ?_ ?_ (fun _ _ => rfl) ?_ ?_ ?_
  · refine kept.accounts_move rfl stakes rfl ?_
    simp [debt, stake, pc, stakeHolds, pcHolds]
  · rw [← stake]
    exact kept.flag_split task
  · intro _ impossible
    cases impossible
  · intro impossible
    cases impossible
  · intro impossible
    cases impossible

private theorem Kept.accept (kept : Kept spi) {settings : BusSettings} (pc : spi.pc task = .beginAccept settings) :
    Kept (spi.proceed task) := by
  have before := kept.accepting task settings pc
  simp only [proceed, pc]
  refine kept.move rfl rfl ?_ ⟨fun _ => .inl rfl, fun _ => rfl⟩ ?_ (fun _ _ => rfl) ?_ ?_
  · refine kept.accounts_move rfl rfl rfl ?_
    simp [debt, before, pc, stakeHolds, pcHolds]
  · intro _ impossible
    cases impossible
  · intro impossible
    cases impossible
  · intro impossible
    cases impossible

private theorem stakeHolds_cleared (stake : Stake) : stakeHolds stake.cleared = stakeHolds stake := by
  cases stake <;> rfl

private theorem Kept.clear (kept : Kept spi) (pc : spi.pc task = .endClear)
    (alone : ∀ other, other ≠ task → spi.stake other ≠ .transaction) : Kept (spi.proceed task) := by
  have closed : (spi.stake task).cleared ≠ .transaction := by
    cases spi.stake task <;> (intro impossible; cases impossible)
  simp only [proceed, pc]
  refine kept.move rfl rfl ?_ ⟨fun set => ?_, fun either => ?_⟩ ?_ ?_ (fun _ => rfl) (fun _ => closed)
  · refine kept.accounts_move rfl rfl rfl ?_
    simp [debt, pc, stakeHolds_cleared, pcHolds]
  · cases set
  · rcases either with mine | ⟨other, different, theirs⟩
    · exact absurd mine closed
    · exact absurd theirs (alone other different)
  · intro _ impossible
    cases impossible
  · intro _ impossible
    cases impossible

/-- The last step of `endTransaction` gives up the hold of the transaction, if the
task had one. -/
theorem Kept.finish (kept : Kept spi) (pc : spi.pc task = .endRelease) : Kept (spi.proceed task) := by
  have closed := kept.releasing task pc
  simp only [proceed, pc]
  refine kept.move rfl rfl ?_ ?_ ?_ ?_ ?_ ?_
  · have rest : ∀ other, other ≠ task → ((spi.setStake task .none).releaseThen task .idle).debt other = spi.debt other := by
      intro other different
      simp only [debt, SpiClass.releaseThen, setStake, goto, Function.update_of_ne different]
    have own : ((spi.setStake task .none).releaseThen task .idle).debt task = 0 := by
      simp [debt, SpiClass.releaseThen, setStake, goto, stakeHolds, pcHolds]
    cases stake : spi.stake task with
    | none =>
      have nothing : spi.debt task = 0 := by simp [debt, stake, pc, stakeHolds, pcHolds]
      have same := kept.accounts.release_idle nothing
      simp only [SpiClass.releaseThen, setStake, goto, same] at rest own ⊢
      apply kept.accounts.congr
      intro other
      by_cases equal : other = task
      · subst equal
        exact own.trans nothing.symm
      · exact rest other equal
    | transaction => exact absurd stake closed
    | ending =>
      apply kept.accounts.release _ rest
      rw [own]
      simp [debt, stake, pc, stakeHolds, pcHolds]
  · refine (kept.flag_split task).trans ⟨fun either => ?_, fun either => ?_⟩
    · exact .inr (either.resolve_left closed)
    · exact either.imp_left fun impossible => by cases impossible
  · intro _ _
    rfl
  · intro _ impossible
    cases impossible
  · intro impossible
    cases impossible
  · intro impossible
    cases impossible

/-- No task clears the flag while the transaction of another task is open. -/
def Unstray : Nat × Action → SpiClass → Prop
  | (task, .proceed), spi => spi.pc task = .endClear → ∀ other, other ≠ task → spi.stake other ≠ .transaction
  | _, _ => True

private theorem Kept.proceed (kept : Kept spi) (unstray : Unstray (task, .proceed) spi) : Kept (spi.proceed task) := by
  cases pc : spi.pc task with
  | beginAccept settings => exact kept.accept pc
  | endClear => exact kept.clear pc (unstray pc)
  | endRelease => exact kept.finish pc
  | idle =>
    simp only [SpiClass.proceed, pc]
    exact kept
  | beginTake settings =>
    simp only [SpiClass.proceed, pc]
    exact kept.takeThen (by simp [pc]) trivial (by simp [pc, pcHolds])
  | beginTest settings =>
    simp only [SpiClass.proceed, pc]
    split
    next => exact kept.stay (by simp [pc]) rfl rfl rfl rfl trivial (by simp [pc, pcHolds])
    next unset =>
      exact kept.pass pc (fun stake => unset (kept.flag.mpr ⟨task, stake⟩))
  | beginConfigure settings =>
    simp only [SpiClass.proceed, pc]
    exact kept.stay (by simp [pc]) rfl rfl rfl rfl trivial (by simp [pc, pcHolds])
  | beginRelease =>
    simp only [SpiClass.proceed, pc]
    exact kept.releaseThen (by simp [pc]) trivial (by simp [pc, pcHolds])
  | setTake setter =>
    simp only [SpiClass.proceed, pc]
    exact kept.takeThen (by simp [pc]) trivial (by simp [pc, pcHolds])
  | setApply setter =>
    simp only [SpiClass.proceed, pc]
    split <;> exact kept.stay (by simp [pc]) rfl rfl rfl rfl trivial (by simp [pc, pcHolds])
  | setRelease =>
    simp only [SpiClass.proceed, pc]
    exact kept.releaseThen (by simp [pc]) trivial (by simp [pc, pcHolds])
  | wordTake value wide =>
    simp only [SpiClass.proceed, pc]
    exact kept.takeThen (by simp [pc]) trivial (by simp [pc, pcHolds])
  | transferTake input outer =>
    simp only [SpiClass.proceed, pc]
    exact kept.takeThen (by simp [pc]) trivial (by simp [pc, pcHolds])
  | transferring input outer =>
    cases input with
    | nil =>
      simp only [SpiClass.proceed, pc]
      cases outer with
      | false => exact kept.releaseThen (by simp [pc]) trivial (by simp [pc, pcHolds])
      | true => exact kept.releaseThen (by simp [pc]) trivial (by simp [pc, pcHolds])
    | cons value rest =>
      simp only [SpiClass.proceed, pc]
      exact kept.stay (by simp [pc]) rfl rfl rfl rfl trivial (by simp [pc, pcHolds])
  | wordRelease =>
    simp only [SpiClass.proceed, pc]
    exact kept.releaseThen (by simp [pc]) trivial (by simp [pc, pcHolds])

private theorem Kept.enter (kept : Kept spi) (idle : spi.pc task = .idle) (action : Action) : Kept (spi.enter task action) := by
  have moved : ∀ pc, Plain pc → pcHolds pc = 0 → Kept (spi.goto task pc) := by
    intro pc plain nothing
    have same : pcHolds pc = pcHolds (spi.pc task) := by
      rw [nothing, idle]
      rfl
    exact kept.stay (by simp [idle]) rfl rfl rfl rfl plain same
  cases action with
  | beginTransaction settings =>
    simp only [SpiClass.enter]
    split
    next => exact kept
    next => exact moved _ trivial rfl
  | endTransaction =>
    simp only [SpiClass.enter]
    split
    next => exact moved _ trivial rfl
    next => exact kept
  | set setter =>
    simp only [SpiClass.enter]
    split
    next => exact moved _ trivial rfl
    next => exact kept
  | transferBytes input =>
    simp only [SpiClass.enter]
    split
    next => exact kept
    next => exact moved _ trivial rfl
  | wordTransfer value wide => exact moved _ trivial rfl
  | proceed => exact kept

/-- A step goes on with a call, begins one, or does nothing. -/
theorem step_cases (task : Nat) (action : Action) (spi : SpiClass) :
    (action = .proceed ∧ step (task, action) spi = spi.proceed task) ∨
      (spi.pc task = .idle ∧ action ≠ .proceed ∧ step (task, action) spi = spi.enter task action) ∨
      (action ≠ .proceed ∧ spi.pc task ≠ .idle ∧ step (task, action) spi = spi) := by
  cases action with
  | proceed => exact .inl ⟨rfl, rfl⟩
  | _ =>
    refine .inr ?_
    cases pc : spi.pc task with
    | idle => exact .inl ⟨rfl, fun impossible => (by cases impossible), by simp [step, pc]⟩
    | _ =>
      exact .inr ⟨fun impossible => (by cases impossible), fun impossible => (by cases impossible), by simp [step, pc]⟩

private theorem Kept.step (kept : Kept spi) (event : Nat × Action) (unstray : Unstray event spi) : Kept (step event spi) := by
  obtain ⟨task, action⟩ := event
  rcases step_cases task action spi with ⟨rfl, same⟩ | ⟨idle, _, same⟩ | ⟨_, _, same⟩
  · rw [same]
    exact kept.proceed unstray
  · rw [same]
    exact kept.enter idle action
  · rw [same]
    exact kept

/-- What a transaction promises at a step. -/
structure Good (event : Nat × Action) (spi : SpiClass) : Prop where
  flag : (step event spi).transaction = true ↔
    ∃ task, (step event spi).stake task = .transaction ∧ (step event spi).mutex.owner = some task
  ends : ∀ task, event = (task, .endTransaction) → spi.pc task = .idle → spi.stake task = .transaction →
    (step event spi).pc task = .endClear
  released : ∀ task, event = (task, .proceed) → spi.pc task = .endRelease → spi.stake task = .ending →
    spi.mutex.owner = some task ∧ (step event spi).mutex.owner = none
  isolated : ∀ task, spi.stake task = .transaction → event.1 ≠ task →
    (step event spi).settings = spi.settings ∧ (step event spi).port = spi.port ∧ (step event spi).sent = spi.sent

private theorem Kept.owner (kept : Kept spi) (stake : spi.stake task = .transaction) : spi.mutex.owner = some task := by
  apply kept.accounts.owner
  simp only [debt, stake, stakeHolds]
  omega

private theorem Kept.flag_owned (kept : Kept spi) :
    spi.transaction = true ↔ ∃ task, spi.stake task = .transaction ∧ spi.mutex.owner = some task := by
  refine kept.flag.trans ⟨fun ⟨task, stake⟩ => ?_, fun ⟨task, stake, _⟩ => ?_⟩
  · exact ⟨task, stake, kept.owner stake⟩
  · exact ⟨task, stake⟩

/-- The settings, the controller and the wire are as they were. -/
def Untouched (spi after : SpiClass) : Prop :=
  after.settings = spi.settings ∧ after.port = spi.port ∧ after.sent = spi.sent

private theorem takeThen_untouched (spi : SpiClass) (task : Nat) (pc : Pc) : Untouched spi (spi.takeThen task pc) := by
  unfold takeThen
  split
  next => exact ⟨rfl, rfl, rfl⟩
  next => exact ⟨rfl, rfl, rfl⟩

private theorem enter_untouched (spi : SpiClass) (task : Nat) (action : Action) : Untouched spi (spi.enter task action) := by
  cases action with
  | beginTransaction settings =>
    simp only [enter]
    split <;> exact ⟨rfl, rfl, rfl⟩
  | endTransaction =>
    simp only [enter]
    split <;> exact ⟨rfl, rfl, rfl⟩
  | set setter =>
    simp only [enter]
    split <;> exact ⟨rfl, rfl, rfl⟩
  | transferBytes input =>
    simp only [enter]
    split <;> exact ⟨rfl, rfl, rfl⟩
  | wordTransfer value wide => exact ⟨rfl, rfl, rfl⟩
  | proceed => exact ⟨rfl, rfl, rfl⟩

/-- A task that owes the mutex nothing is at no access to what the mutex guards. -/
theorem Kept.untouched (kept : Kept spi) (nothing : spi.debt task = 0) : Untouched spi (spi.proceed task) := by
  obtain ⟨noStake, noCall⟩ := Nat.add_eq_zero_iff.mp nothing
  cases pc : spi.pc task with
  | beginConfigure settings =>
    rw [kept.configuring task settings pc] at noStake
    cases noStake
  | setApply setter =>
    rw [pc] at noCall
    cases noCall
  | transferring input outer =>
    rw [pc] at noCall
    cases noCall
  | beginTake settings =>
    simp only [SpiClass.proceed, pc]
    apply takeThen_untouched
  | setTake setter =>
    simp only [SpiClass.proceed, pc]
    apply takeThen_untouched
  | wordTake value wide =>
    simp only [SpiClass.proceed, pc]
    apply takeThen_untouched
  | transferTake input outer =>
    simp only [SpiClass.proceed, pc]
    apply takeThen_untouched
  | _ =>
    simp only [SpiClass.proceed, pc]
    exact ⟨rfl, rfl, rfl⟩

private theorem Kept.isolated (kept : Kept spi) {owner : Nat} (stake : spi.stake owner = .transaction) (event : Nat × Action)
    (different : event.1 ≠ owner) : Untouched spi (SpiClass.step event spi) := by
  obtain ⟨task, action⟩ := event
  have owes : spi.debt owner ≠ 0 := by
    simp only [debt, stake, stakeHolds]
    omega
  rcases step_cases task action spi with ⟨rfl, same⟩ | ⟨_, _, same⟩ | ⟨_, _, same⟩
  · rw [same]
    exact kept.untouched (kept.accounts.alone owes different)
  · rw [same]
    exact enter_untouched spi task action
  · rw [same]
    exact ⟨rfl, rfl, rfl⟩

private theorem Kept.ends (kept : Kept spi) (idle : spi.pc task = .idle) (stake : spi.stake task = .transaction) :
    (SpiClass.step (task, .endTransaction) spi).pc task = .endClear := by
  have set : spi.transaction = true := kept.flag.mpr ⟨task, stake⟩
  simp [SpiClass.step, idle, SpiClass.enter, set, goto]

private theorem Kept.released (kept : Kept spi) (pc : spi.pc task = .endRelease) (stake : spi.stake task = .ending) :
    spi.mutex.owner = some task ∧ (SpiClass.step (task, .proceed) spi).mutex.owner = none := by
  have debt : spi.debt task = 1 := by simp [debt, pc, stake, stakeHolds, pcHolds]
  have owner : spi.mutex.owner = some task := kept.accounts.owner (by omega)
  have hold : spi.mutex.hold = 1 := by
    have owed := kept.accounts.owed task
    rw [if_pos owner, debt] at owed
    exact owed.symm
  refine ⟨owner, ?_⟩
  simp [SpiClass.step, SpiClass.proceed, pc, SpiClass.releaseThen, goto, setStake, Mutex.release, owner, hold, Mutex.free]

/-- Under the invariant a step breaks the promise only by clearing the flag of another
task. -/
theorem Kept.good_iff (kept : Kept spi) (event : Nat × Action) : Good event spi ↔ Unstray event spi := by
  refine ⟨fun good => ?_, fun unstray => ?_⟩
  · obtain ⟨task, action⟩ := event
    cases action with
    | proceed =>
      intro pc other different stake
      have cleared : (SpiClass.step (task, .proceed) spi).transaction = false := by
        simp [SpiClass.step, SpiClass.proceed, pc, goto, setStake]
      have flagged : (SpiClass.step (task, .proceed) spi).transaction = true := by
        apply good.flag.mpr
        refine ⟨other, ?_, ?_⟩
        · simpa [SpiClass.step, SpiClass.proceed, pc, goto, setStake, Function.update_of_ne different] using stake
        · simpa [SpiClass.step, SpiClass.proceed, pc, goto, setStake] using kept.owner stake
      cases cleared.symm.trans flagged
    | _ => trivial
  · refine ⟨(kept.step event unstray).flag_owned, ?_, ?_, ?_⟩
    · rintro task rfl idle stake
      exact kept.ends idle stake
    · rintro task rfl pc stake
      exact kept.released pc stake
    · intro task stake different
      exact kept.isolated stake event different

/-- A transaction holds the bus in exactly the runs in which no task clears the flag of
another task's transaction. -/
theorem transaction_locks_iff (settings : BusSettings) (port : Nat × Nat) (events : List (Nat × Action)) :
    Run.Guarded step Good events (start settings port) ↔ Run.Guarded step Unstray events (start settings port) := by
  apply Run.guarded_congr
  · exact fun event _ kept => Kept.good_iff kept event
  · exact fun event _ kept unstray => Kept.step kept event unstray
  · exact start_kept settings port

/-- A second task ends the transaction that the first has begun. -/
def strayEnd : List (Nat × Action) :=
  [(1, .beginTransaction ⟨4000000, spiMsbFirst, 0⟩), (1, .proceed), (1, .proceed), (1, .proceed), (1, .proceed),
    (2, .endTransaction), (2, .proceed)]

theorem strayEnd_unlocks : ¬ ∀ settings port events, Run.Guarded step Good events (start settings port) := by
  intro locked
  have good := (locked ⟨1000000, spiMsbFirst, 0⟩ (0, 0) strayEnd).2.2.2.2.2.2.1
  have flagged := good.flag.mpr ⟨1, rfl, rfl⟩
  cases flagged

end SpiClass
end ArduinoK210.Spi
