import ArduinoK210.Dma.Channels
import ArduinoK210.Dma.Windows
import ArduinoK210.Lib.Mutex
import ArduinoK210.Lib.Run

/-! The clients of the channel table beside the flash driver, which names its
channels itself. Every client and every task of the flash driver runs on its own,
one access to the table or to a channel at a time. -/

namespace ArduinoK210.Dma
open Flash Owners

inductive User where
  | client (id : Nat)
  | flash (task : Nat)
  deriving DecidableEq

/-- `uses` has the channels that clients hold and those with a flash transfer on
them, `pending` the channels that a task's window has yet to program. -/
structure System where
  table : List DmaChnInfo
  uses : List (User × Nat)
  pending : Nat → List Nat

inductive Event where
  | acquire (id : Nat)
  | releas (id chn : Nat)
  | window (task : Nat) (frame : Frame)
  | program (task : Nat)
  | complete (task chn : Nat)

namespace System

def start : System := ⟨dmaChnInfo, [], fun _ => []⟩

/-- A client keeps what it acquired and releases only that. A task begins a window
when its last one is over. -/
def step : Event → System → System
  | .acquire id, system =>
    let got := halDmaGetFreeChn system.table
    if dmacChannelMax ≤ got.1 then { system with table := got.2 }
    else { system with table := got.2, uses := (.client id, got.1) :: system.uses }
  | .releas id chn, system =>
    if (.client id, chn) ∈ system.uses then
      { system with table := halDmaReleasChn chn system.table, uses := system.uses.filter (· ≠ (.client id, chn)) }
    else system
  | .window task frame, system =>
    if system.pending task = [] ∧ ∀ use ∈ system.uses, use.1 ≠ .flash task then
      { system with pending := fun other => if other = task then windowChannels frame else system.pending other }
    else system
  | .program task, system =>
    match system.pending task with
    | [] => system
    | chn :: later =>
      { system with
        uses := (.flash task, chn) :: system.uses
        pending := fun other => if other = task then later else system.pending other }
  | .complete task chn, system => { system with uses := system.uses.filter (· ≠ (.flash task, chn)) }

/-- The table marks exactly the channels that clients hold, each held once. -/
structure Tracked (system : System) : Prop where
  chns : system.table.map DmaChnInfo.chn = [0, 1, 2, 3]
  used : ∀ chn, Used system.table chn ↔ ∃ id, (User.client id, chn) ∈ system.uses
  once : ∀ id other chn, (User.client id, chn) ∈ system.uses → (User.client other, chn) ∈ system.uses → id = other

/-- No channel has two users, and none that a client holds would be handed out. -/
structure Apart (system : System) : Prop where
  exclusive : Exclusive system.uses
  unheld : ∀ id chn, (User.client id, chn) ∈ system.uses → (halDmaGetFreeChn system.table).1 ≠ chn

/-- A client asks for a channel only while no flash transfer is on the first free
one, and a flash transfer begins only on a channel that nobody else uses. -/
def Clear : Event → System → Prop
  | .acquire _, system => ∀ info, system.table.find? (fun info => !info.chnSts) = some info →
      ∀ task, (User.flash task, info.chn) ∉ system.uses
  | .program task, system => ∀ chn later, system.pending task = chn :: later →
      ∀ user, (user, chn) ∈ system.uses → user = .flash task
  | .releas _ _, _ | .window _ _, _ | .complete _ _, _ => True

variable {system : System}

private theorem Tracked.small (tracked : Tracked system) : ∀ info ∈ system.table, info.chn < 4 := by
  intro info member
  have listed : info.chn ∈ [0, 1, 2, 3] := tracked.chns ▸ List.mem_map_of_mem member
  simp only [List.mem_cons, List.not_mem_nil, or_false] at listed
  omega

private theorem Tracked.nodup (tracked : Tracked system) : (system.table.map DmaChnInfo.chn).Nodup := by
  rw [tracked.chns]
  decide

private theorem Tracked.length (tracked : Tracked system) : system.table.length = 4 := by
  have mapped := congrArg List.length tracked.chns
  rwa [List.length_map] at mapped

private theorem Tracked.unused (tracked : Tracked system) : ¬ Used system.table (halDmaGetFreeChn system.table).1 :=
  getFreeChn_unused tracked.nodup fun info member => Nat.lt_trans (tracked.small info member) (by decide)

private theorem Tracked.unheld (tracked : Tracked system) {id chn : Nat} (held : (User.client id, chn) ∈ system.uses) :
    (halDmaGetFreeChn system.table).1 ≠ chn := by
  intro same
  exact tracked.unused ((tracked.used _).mpr ⟨id, same ▸ held⟩)

private theorem start_tracked : Tracked start := by
  refine ⟨rfl, fun chn => ⟨?_, ?_⟩, fun id other chn held => ?_⟩
  · intro ⟨info, member, _, busy⟩
    simp only [start, dmaChnInfo, List.mem_cons, List.not_mem_nil, or_false] at member
    rcases member with rfl | rfl | rfl | rfl <;> cases busy
  · intro ⟨id, held⟩
    cases held
  · cases held

private theorem Tracked.acquire (tracked : Tracked system) (id : Nat) : Tracked (step (.acquire id) system) := by
  have chns := (getFreeChn_chns system.table).trans tracked.chns
  simp only [step]
  split
  next none =>
    refine ⟨chns, fun chn => ?_, tracked.once⟩
    rw [getFreeChn_used, ← tracked.used chn]
    refine ⟨fun either => either.elim (fun used => used) fun ⟨same, listed⟩ => ?_, Or.inl⟩
    obtain ⟨info, member, equal⟩ := List.mem_map.mp listed
    have small := tracked.small info member
    simp only [dmacChannelMax] at none
    omega
  next some =>
    have listed : (halDmaGetFreeChn system.table).1 ∈ system.table.map DmaChnInfo.chn :=
      (getFreeChn_mem system.table).resolve_left fun none => some (Nat.le_of_eq none.symm)
    refine ⟨chns, fun chn => ?_, fun first second chn one two => ?_⟩
    · rw [getFreeChn_used, tracked.used chn]
      refine ⟨fun either => ?_, fun ⟨holder, held⟩ => ?_⟩
      · rcases either with ⟨holder, held⟩ | ⟨same, _⟩
        · exact ⟨holder, List.mem_cons_of_mem _ held⟩
        · exact ⟨id, same ▸ List.mem_cons_self⟩
      · rcases List.mem_cons.mp held with here | before
        · cases here
          exact .inr ⟨rfl, listed⟩
        · exact .inl ⟨holder, before⟩
    · rcases List.mem_cons.mp one with here | before
      · cases here
        rcases List.mem_cons.mp two with also | earlier
        · cases also
          rfl
        · exact absurd rfl (tracked.unheld earlier)
      · rcases List.mem_cons.mp two with also | earlier
        · cases also
          exact absurd rfl (tracked.unheld before)
        · exact tracked.once first second chn before earlier

private theorem Tracked.releas (tracked : Tracked system) (id chn : Nat) : Tracked (step (.releas id chn) system) := by
  simp only [step]
  split
  next held =>
    have inside : chn < 4 := by
      obtain ⟨info, member, same, _⟩ := (tracked.used chn).mpr ⟨id, held⟩
      exact same ▸ tracked.small info member
    refine ⟨(releasChn_chns chn system.table).trans tracked.chns, fun other => ?_, fun first second wanted one two => ?_⟩
    · have cleared : halDmaReleasChn chn system.table = clearFirst chn system.table := by
        rw [halDmaReleasChn, tracked.length, if_neg (Nat.not_le_of_lt inside)]
      rw [cleared, clearFirst_used tracked.nodup, tracked.used other]
      refine ⟨fun ⟨⟨holder, kept⟩, different⟩ => ?_, fun ⟨holder, kept⟩ => ?_⟩
      · refine ⟨holder, List.mem_filter.mpr ⟨kept, decide_eq_true fun same => ?_⟩⟩
        cases same
        exact different rfl
      · obtain ⟨before, apart⟩ := List.mem_filter.mp kept
        refine ⟨⟨holder, before⟩, fun same => ?_⟩
        cases same
        cases tracked.once holder id chn before held
        exact of_decide_eq_true apart rfl
    · exact tracked.once first second wanted (List.mem_of_mem_filter one) (List.mem_of_mem_filter two)
  next => exact tracked

theorem Tracked.frame {after : System} (tracked : Tracked system) (table : after.table = system.table)
    (clients : ∀ id chn, (User.client id, chn) ∈ after.uses ↔ (User.client id, chn) ∈ system.uses) : Tracked after := by
  refine ⟨table ▸ tracked.chns, fun chn => ?_, fun id other chn one two => ?_⟩
  · rw [table, tracked.used chn]
    exact exists_congr fun id => (clients id chn).symm
  · exact tracked.once id other chn ((clients id chn).mp one) ((clients other chn).mp two)

private theorem Tracked.step (tracked : Tracked system) (event : Event) : Tracked (step event system) := by
  cases event with
  | acquire id => exact tracked.acquire id
  | releas id chn => exact tracked.releas id chn
  | window task frame =>
    simp only [System.step]
    split
    next => exact tracked.frame rfl fun _ _ => Iff.rfl
    next => exact tracked
  | program task =>
    simp only [System.step]
    split
    next => exact tracked
    next => exact tracked.frame rfl fun _ _ => by simp
  | complete task chn => exact tracked.frame rfl fun _ _ => by simp [System.step]

private theorem Exclusive.acquire_iff (exclusive : Exclusive system.uses) (tracked : Tracked system) (id : Nat) :
    Exclusive (step (.acquire id) system).uses ↔ Clear (.acquire id) system := by
  simp only [step, getFreeChn_first, Clear]
  cases found : system.table.find? fun info => !info.chnSts with
  | none => simp [exclusive]
  | some info =>
    have first : (halDmaGetFreeChn system.table).1 = info.chn := by simp [getFreeChn_first, found]
    have small : ¬ dmacChannelMax ≤ info.chn := by
      have bound := tracked.small info (List.mem_of_find?_eq_some found)
      simp only [dmacChannelMax]
      omega
    simp only [Option.map_some, Option.getD_some, if_neg small, exclusive_cons_iff exclusive]
    refine ⟨fun alone other same task busy => ?_, fun clear user busy => ?_⟩
    · cases same
      cases alone _ busy
    · cases user with
      | client holder => exact absurd first (tracked.unheld busy)
      | flash task => exact absurd busy (clear info rfl task)

private theorem Exclusive.program_iff (exclusive : Exclusive system.uses) (task : Nat) :
    Exclusive (step (.program task) system).uses ↔ Clear (.program task) system := by
  simp only [step, Clear]
  cases waiting : system.pending task with
  | nil => simp [exclusive]
  | cons chn later =>
    simp only [exclusive_cons_iff exclusive]
    refine ⟨fun alone other rest same => ?_, fun clear => clear chn later rfl⟩
    cases same
    exact alone

private theorem Exclusive.step_iff (exclusive : Exclusive system.uses) (tracked : Tracked system) (event : Event) :
    Exclusive (step event system).uses ↔ Clear event system := by
  cases event with
  | acquire id => exact Exclusive.acquire_iff exclusive tracked id
  | program task => exact Exclusive.program_iff exclusive task
  | releas id chn =>
    refine ⟨fun _ => trivial, fun _ => ?_⟩
    simp only [step]
    split
    next => exact exclusive.subset (List.filter_subset_self _)
    next => exact exclusive
  | window task frame =>
    refine ⟨fun _ => trivial, fun _ => ?_⟩
    simp only [step]
    split <;> exact exclusive
  | complete task chn => exact ⟨fun _ => trivial, fun _ => exclusive.subset (List.filter_subset_self _)⟩

/-- In every state that a run passes no channel has two users and none that is held
would be handed out, if and only if every step of the run is clear. -/
theorem channels_apart_iff (events : List Event) :
    (∀ front, front <+: events → Apart (Run.run step front start)) ↔ Run.Guarded step Clear events start := by
  have exact_guard : ∀ event system, Exclusive system.uses ∧ Tracked system →
      (Exclusive (step event system).uses ∧ Tracked (step event system) ↔ Clear event system) := by
    intro event system ⟨exclusive, tracked⟩
    rw [← Exclusive.step_iff exclusive tracked event]
    exact and_iff_left (tracked.step event)
  rw [← Run.guarded_iff exact_guard events start ⟨Exclusive.nil, start_tracked⟩]
  refine forall₂_congr fun front _ => ⟨fun apart => ⟨apart.exclusive, ?_⟩, fun ⟨exclusive, tracked⟩ => ?_⟩
  · exact Run.invariant (fun event _ kept => kept.step event) front start start_tracked
  · exact ⟨exclusive, fun _ _ held => tracked.unheld held⟩

def readWindow : Frame := .receiveQuad Opcode.fastReadQualIo 0 32 4 1

private theorem read_window (flash : Driver) : (FlashOp.read 0 1).perform flash = exchanges [readWindow] flash := by
  simp [FlashOp.perform, Driver.halFlashReadData, Driver.w25qxxReadDataDma, Driver.w25qxxReadChunk, exchanges, readWindow]

/-- A client holds channel 0 while a task reads a byte of the flash. -/
theorem read_programs_held :
    (∀ flash, (FlashOp.read 0 1).perform flash = exchanges [readWindow] flash) ∧
      ¬ Exclusive (Run.run step [.acquire 0, .window 0 readWindow, .program 0, .program 0] start).uses := by
  refine ⟨read_window, fun exclusive => ?_⟩
  have shared := exclusive (.client 0) (.flash 0) 0 (by decide) (by decide)
  cases shared

end System
end ArduinoK210.Dma
