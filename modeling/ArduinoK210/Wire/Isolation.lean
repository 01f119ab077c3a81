import ArduinoK210.Wire.TwoWire
import ArduinoK210.Lib.Run

/-! Tasks that share a `TwoWire`. What the bus carries is compared with a history of
the calls and their replies, which no call reads. -/

namespace ArduinoK210.Wire
open TwoWire

structure Event where
  task : Nat
  call : Call
  reply : Reply

/-- The writes of a task from its last `beginTransmission` up to the next
`endTransmission`, by what each of them returned. -/
structure Collection where
  address : Nat
  bytes : List UInt8
  failed : Bool
  overflowed : Bool
  isOpen : Bool

def Collection.begun (address : Nat) : Collection := ⟨address, [], decide (1023 < address), false, true⟩

def Collection.wrote (buffer : Buffer) (accepted : Nat) (collection : Collection) : Collection :=
  if collection.isOpen then
    { collection with
      bytes := collection.bytes ++ buffer.bytes.take accepted
      failed := collection.failed || decide (accepted ≠ buffer.count)
      overflowed := collection.overflowed ||
        decide (collection.address ≤ 1023 ∧ buffer.isNull = false ∧ accepted ≠ buffer.count) }
  else collection

def Event.note (event : Event) (before : Option Collection) : Option Collection :=
  match event.call, event.reply with
  | .beginTransmission address, _ => some (.begun address)
  | .beginTransmissionInt address, _ => some (.begun (intAddress address))
  | .write buffer, .count accepted => before.map (Collection.wrote buffer accepted)
  | .endTransmission _, _ => before.map fun collection => { collection with isOpen := false }
  | _, _ => before

/-- The history has the latest event first. -/
def collection (task : Nat) : List Event → Option Collection
  | [] => none
  | event :: earlier => if event.task = task then event.note (collection task earlier) else collection task earlier

structure World where
  wire : TwoWire
  history : List Event

def World.step (controller : Controller) (call : Nat × Call) (world : World) : World :=
  let outcome := call.2.perform controller call.1 world.wire
  ⟨outcome.wire, ⟨call.1, call.2, outcome.reply⟩ :: world.history⟩

structure Bounded (wire : TwoWire) : Prop where
  tx : wire.txSize ≤ hardwareI2cBuffLen
  rx : wire.rxOffset ≤ wire.rxSize ∧ wire.rxSize ≤ hardwareI2cBuffLen
  idle : wire.phase = .idle → wire.txSize = 0 ∧ wire.task = none ∧ wire.overflow = false

/-- The buffer of a collection in progress, or of a command that waits for its read,
is what its task's writes were told to have accepted. -/
structure Holds (wire : TwoWire) (held : Collection) : Prop where
  bytes : held.bytes = wire.txBytes
  address : held.address = wire.address
  isOpen : held.isOpen = decide (wire.phase = .collecting)
  overflowed : held.overflowed = wire.overflow
  failed : held.failed = true → wire.phase = .collecting ∧ wire.writeError = true
  pending : wire.phase = .commandPending → wire.address ≤ 1023 ∧ wire.txSize ≠ 0 ∧ wire.overflow = false
  low : wire.overflow = true → wire.address ≤ 1023

structure Kept (world : World) : Prop where
  bounded : Bounded world.wire
  holds : world.wire.phase ≠ .idle → ∃ task held, world.wire.task = some task ∧
    collection task world.history = some held ∧ Holds world.wire held

private theorem perform_refused {controller : Controller} {task : Nat} {wire : TwoWire} (call : Call)
    (refused : ¬ wire.accessible task) :
    (call.perform controller task wire).traffic = [] ∧ (call.perform controller task wire).wire = wire := by
  cases call <;> simp [Call.perform, start, write, endTransmission, receive, available, peek, TwoWire.read, flush, setClock,
    guarded, refused]

private theorem map_range_copy (tx : Nat → UInt8) (bytes : List UInt8) (size accepted : Nat) (enough : accepted ≤ bytes.length) :
    (List.range (size + accepted)).map (fun i =>
      if size ≤ i ∧ i < size + accepted then bytes.getD (i - size) 0 else tx i) =
      (List.range size).map tx ++ bytes.take accepted := by
  rw [List.range_add, List.map_append]
  congr 1
  · apply List.map_congr_left
    intro i member
    have below := List.mem_range.mp member
    exact if_neg fun inside => absurd inside.1 (Nat.not_le_of_lt below)
  · apply List.ext_getElem
    · simp [enough]
    · intro i inside _
      have below : i < accepted := by simpa using inside
      have present : i < bytes.length := Nat.lt_of_lt_of_le below enough
      simp [below, present]

variable {controller : Controller} {world : World} {task : Nat}

private theorem collection_other {event : Event} {other : Nat} (different : event.task ≠ other) (history : List Event) :
    collection other (event :: history) = collection other history := if_neg different

private theorem collection_own (event : Event) (history : List Event) :
    collection event.task (event :: history) = event.note (collection event.task history) := if_pos rfl

theorem Kept.idle {after : World} (bounded : Bounded after.wire) (idle : after.wire.phase = .idle) : Kept after :=
  ⟨bounded, fun active => absurd idle active⟩

private theorem Kept.refused (kept : Kept world) (call : Call) (refused : ¬ world.wire.accessible task) :
    Kept (world.step controller (task, call)) := by
  have same : (call.perform controller task world.wire).wire = world.wire := (perform_refused call refused).2
  refine ⟨?_, fun active => ?_⟩
  · simp only [World.step, same]
    exact kept.bounded
  · simp only [World.step, same] at active ⊢
    obtain ⟨owner, held, owns, collected, holds⟩ := kept.holds active
    have different : task ≠ owner := by
      intro equal
      exact refused (.inr (equal ▸ owns))
    exact ⟨owner, held, owns, (collection_other different _).trans collected, holds⟩

/-- The owner of a busy wire is the task that may call it. -/
theorem Kept.owner (kept : Kept world) (allowed : world.wire.accessible task) (active : world.wire.phase ≠ .idle) :
    ∃ held, world.wire.task = some task ∧ collection task world.history = some held ∧ Holds world.wire held := by
  obtain ⟨owner, held, owns, collected, holds⟩ := kept.holds active
  have same := allowed.resolve_left active
  cases owns.symm.trans same
  exact ⟨held, owns, collected, holds⟩

theorem Kept.frame (kept : Kept world) (allowed : world.wire.accessible task) {wire : TwoWire} {event : Event}
    (by_task : event.task = task) (bounded : Bounded wire) (phase : wire.phase = world.wire.phase)
    (owner : wire.task = world.wire.task)
    (holds : ∀ held, collection task world.history = some held → Holds world.wire held → world.wire.phase ≠ .idle →
      ∃ next, event.note (some held) = some next ∧ Holds wire next) :
    Kept ⟨wire, event :: world.history⟩ := by
  refine ⟨bounded, fun active => ?_⟩
  have busy : world.wire.phase ≠ .idle := fun idle => active (phase.trans idle)
  obtain ⟨held, owns, collected, before⟩ := kept.owner allowed busy
  obtain ⟨next, noted, after⟩ := holds held collected before busy
  refine ⟨task, next, owner.trans owns, ?_, after⟩
  subst by_task
  rw [collection_own, collected, noted]

private theorem Kept.start (kept : Kept world) (allowed : world.wire.accessible task) {call : Call} {address : Nat}
    (same : call.perform controller task = TwoWire.start task address)
    (noted : ∀ reply before, Event.note ⟨task, call, reply⟩ before = some (.begun address)) :
    Kept (world.step controller (task, call)) := by
  simp only [World.step, same, TwoWire.start, guarded, allowed, if_true]
  refine ⟨⟨Nat.zero_le _, kept.bounded.rx, fun impossible => nomatch impossible⟩, fun _ => ?_⟩
  refine ⟨task, .begun address, rfl, ?_, rfl, rfl, rfl, rfl, fun failed => ⟨rfl, failed⟩, ?_, ?_⟩
  · rw [← noted .unit (collection task world.history)]
    exact if_pos rfl
  · intro impossible
    cases impossible
  · intro impossible
    cases impossible

/-- A write that is turned away fails the collection, if there is one. -/
theorem Holds.rejected {wire : TwoWire} {held : Collection} (holds : Holds wire held) {buffer : Buffer}
    (rejected : wire.phase ≠ .collecting ∨ 1023 < wire.address ∨ (buffer.isNull = true ∧ buffer.count ≠ 0)) :
    Holds { wire with writeError := true } (held.wrote buffer 0) := by
  unfold Collection.wrote
  split
  next isOpen =>
    have collecting : wire.phase = .collecting := of_decide_eq_true (holds.isOpen.symm.trans isOpen)
    have full : ¬ (held.address ≤ 1023 ∧ buffer.isNull = false ∧ 0 ≠ buffer.count) := by
      intro ⟨low, present, _⟩
      rw [holds.address] at low
      rcases rejected with phase | wide | ⟨null, _⟩
      · exact phase collecting
      · exact absurd low (Nat.not_le_of_lt wide)
      · cases null.symm.trans present
    refine ⟨?_, holds.address, ?_, ?_, fun _ => ⟨collecting, rfl⟩, holds.pending, holds.low⟩
    · rw [List.take_zero, List.append_nil]
      exact holds.bytes
    · exact isOpen.trans (decide_eq_true collecting).symm
    · simp only [full, decide_false, Bool.or_false]
      exact holds.overflowed
  next =>
    refine ⟨holds.bytes, holds.address, holds.isOpen, holds.overflowed, fun failed => ⟨?_, rfl⟩, holds.pending,
      holds.low⟩
    exact (holds.failed failed).1

theorem Holds.accepted {wire : TwoWire} {held : Collection} (holds : Holds wire held) {buffer : Buffer} {accepted : Nat}
    (collecting : wire.phase = .collecting) (low : wire.address ≤ 1023)
    (present : ¬ (buffer.isNull = true ∧ buffer.count ≠ 0)) (within : accepted ≤ buffer.count) :
    Holds { wire with
      tx := fun i =>
        if wire.txSize ≤ i ∧ i < wire.txSize + accepted then buffer.bytes.getD (i - wire.txSize) 0 else wire.tx i
      txSize := wire.txSize + accepted
      overflow := wire.overflow || decide (accepted ≠ buffer.count)
      writeError := wire.writeError || decide (accepted ≠ buffer.count) } (held.wrote buffer accepted) := by
  have isOpen : held.isOpen = true := holds.isOpen.trans (decide_eq_true collecting)
  have enough : accepted ≤ buffer.bytes.length ∧ (accepted ≠ buffer.count → buffer.isNull = false) := by
    cases buffer with
    | null count =>
      have zero : count = 0 := by simpa [Buffer.isNull, Buffer.count] using present
      simp only [Buffer.count, zero] at within
      simp only [Buffer.bytes, Buffer.count, List.length_nil, zero]
      exact ⟨within, fun short => absurd (Nat.le_zero.mp within) short⟩
    | data bytes => exact ⟨within, fun _ => rfl⟩
  simp only [Collection.wrote, isOpen, if_true]
  refine ⟨?_, holds.address, (decide_eq_true collecting).symm, ?_, fun failed => ⟨collecting, ?_⟩, fun waiting => ?_,
    fun _ => low⟩
  · simp only [holds.bytes, txBytes]
    exact (map_range_copy wire.tx buffer.bytes wire.txSize accepted enough.1).symm
  · simp only [holds.address, low, true_and, and_iff_right_of_imp enough.2, holds.overflowed]
  · simp only [Bool.or_eq_true] at failed ⊢
    exact failed.imp_left fun before => (holds.failed before).2
  · cases collecting.symm.trans waiting

private theorem Kept.write (kept : Kept world) (allowed : world.wire.accessible task) (buffer : Buffer) :
    Kept (world.step controller (task, .write buffer)) := by
  simp only [World.step, Call.perform, TwoWire.write, guarded, allowed, if_true]
  split
  next rejected =>
    refine kept.frame allowed rfl ⟨kept.bounded.tx, kept.bounded.rx, kept.bounded.idle⟩ rfl rfl ?_
    exact fun held _ holds _ => ⟨held.wrote buffer 0, rfl, holds.rejected rejected⟩
  next accepts =>
    obtain ⟨collecting, accepts⟩ := not_or.mp accepts
    obtain ⟨low, present⟩ := not_or.mp accepts
    have collecting : world.wire.phase = .collecting := Classical.not_not.mp collecting
    generalize taken : (if buffer.count < hardwareI2cBuffLen - world.wire.txSize then buffer.count
      else hardwareI2cBuffLen - world.wire.txSize) = accepted
    have sizes : world.wire.txSize + accepted ≤ hardwareI2cBuffLen ∧ accepted ≤ buffer.count := by
      have bound := kept.bounded.tx
      rw [← taken]
      split <;> omega
    refine kept.frame allowed rfl ⟨sizes.1, kept.bounded.rx, fun idle => ?_⟩ rfl rfl fun held _ holds _ => ?_
    · cases collecting.symm.trans idle
    · exact ⟨held.wrote buffer accepted, rfl, holds.accepted collecting (Nat.le_of_not_lt low) present sizes.2⟩

/-- Closing a sound collection leaves its bytes to wait for the read. -/
theorem Holds.deferred {wire : TwoWire} {held : Collection} (holds : Holds wire held) (low : wire.address ≤ 1023)
    (fits : wire.overflow = false)
    (sound : wire.writeError = false ∧ wire.txSize ≠ 0) :
    Holds { wire with phase := .commandPending } { held with isOpen := false } := by
  refine ⟨holds.bytes, holds.address, rfl, holds.overflowed, fun failed => ?_, fun _ => ⟨low, sound.2, fits⟩, holds.low⟩
  cases (holds.failed failed).2.symm.trans sound.1

private theorem Bounded.finish {wire : TwoWire} (bounded : Bounded wire) (status : Nat) : Bounded (wire.finish status) :=
  ⟨Nat.zero_le _, bounded.rx, fun _ => ⟨rfl, rfl, rfl⟩⟩

private theorem Kept.endTransmission (kept : Kept world) (allowed : world.wire.accessible task) (stop : Bool) :
    Kept (world.step controller (task, .endTransmission stop)) := by
  simp only [World.step, Call.perform, TwoWire.endTransmission, guarded, allowed, if_true]
  split
  next collecting =>
    split
    next => exact Kept.idle (kept.bounded.finish 1) rfl
    next fits =>
      split
      next sound =>
        split
        next =>
          have active : world.wire.phase ≠ .idle := fun idle => nomatch collecting.1.symm.trans idle
          obtain ⟨held, owns, collected, holds⟩ := kept.owner allowed active
          refine ⟨⟨kept.bounded.tx, kept.bounded.rx, fun idle => nomatch idle⟩, fun _ => ?_⟩
          refine ⟨task, { held with isOpen := false }, owns, ?_, holds.deferred collecting.2 (Bool.not_eq_true _ ▸ fits) sound⟩
          rw [collection_own ⟨task, _, _⟩, collected]
          rfl
        next => exact Kept.idle ⟨Nat.zero_le _, kept.bounded.rx, fun _ => ⟨rfl, rfl, rfl⟩⟩ rfl
      next => exact Kept.idle (kept.bounded.finish 4) rfl
  next => exact Kept.idle (kept.bounded.finish 4) rfl

private theorem receive_idle (controller : Controller) {wire : TwoWire} (allowed : wire.accessible task) (address count : Nat) (stop : Bool) :
    (receive controller task address count stop wire).wire.phase = .idle ∧
      Bounded (receive controller task address count stop wire).wire := by
  have idle : ∀ after : TwoWire, after.phase = .idle ∧ after.txSize = 0 ∧ after.task = none ∧ after.overflow = false ∧
      after.rxOffset = 0 ∧ after.rxSize ≤ hardwareI2cBuffLen → after.phase = .idle ∧ Bounded after := by
    intro after ⟨phase, size, owner, overflow, offset, bound⟩
    refine ⟨phase, ⟨?_, ?_, fun _ => ⟨size, owner, overflow⟩⟩⟩
    · exact size ▸ Nat.zero_le _
    · exact ⟨offset ▸ Nat.zero_le _, bound⟩
  have clipped : (if hardwareI2cBuffLen < count then hardwareI2cBuffLen else count) ≤ hardwareI2cBuffLen := by
    split <;> omega
  simp only [receive, guarded, allowed, if_true]
  apply idle
  split
  next => exact ⟨rfl, rfl, rfl, rfl, rfl, Nat.zero_le _⟩
  next =>
    split
    next => exact ⟨rfl, rfl, rfl, rfl, rfl, Nat.zero_le _⟩
    next =>
      split
      next => exact ⟨rfl, rfl, rfl, rfl, rfl, clipped⟩
      next => exact ⟨rfl, rfl, rfl, rfl, rfl, Nat.zero_le _⟩

/-- A call that leaves the owner's collection and the buffer alone. -/
theorem Kept.glance (kept : Kept world) (allowed : world.wire.accessible task) {wire : TwoWire} {event : Event}
    (by_task : event.task = task) (bounded : Bounded wire) (phase : wire.phase = world.wire.phase)
    (owner : wire.task = world.wire.task) (noted : ∀ before, event.note before = before)
    (holds : ∀ held, Holds world.wire held → Holds wire held) : Kept ⟨wire, event :: world.history⟩ :=
  kept.frame allowed by_task bounded phase owner fun held _ before _ => ⟨held, noted _, holds held before⟩

private theorem Kept.step (kept : Kept world) (call : Nat × Call) : Kept (world.step controller call) := by
  obtain ⟨task, call⟩ := call
  by_cases allowed : world.wire.accessible task
  · cases call with
    | beginTransmission address => exact kept.start allowed rfl fun _ _ => rfl
    | beginTransmissionInt address => exact kept.start allowed rfl fun _ _ => rfl
    | write buffer => exact kept.write allowed buffer
    | endTransmission stop => exact kept.endTransmission allowed stop
    | requestFrom address count stop =>
      obtain ⟨idle, bounded⟩ := receive_idle controller allowed address count stop
      exact Kept.idle bounded idle
    | requestFromInt address count stop =>
      obtain ⟨idle, bounded⟩ := receive_idle controller allowed (intAddress address)
        (if 0 < count then count.toNat else 0) (decide (stop ≠ 0))
      exact Kept.idle bounded idle
    | available =>
      simp only [World.step, Call.perform, available, guarded, allowed, if_true]
      exact kept.glance allowed rfl kept.bounded rfl rfl (fun _ => rfl) fun _ holds => holds
    | peek =>
      simp only [World.step, Call.perform, peek, guarded, allowed, if_true]
      exact kept.glance allowed rfl kept.bounded rfl rfl (fun _ => rfl) fun _ holds => holds
    | read =>
      simp only [World.step, Call.perform, TwoWire.read, guarded, allowed, if_true]
      split
      next unread =>
        refine kept.glance allowed rfl ⟨kept.bounded.tx, ⟨unread, kept.bounded.rx.2⟩, kept.bounded.idle⟩ rfl rfl
          (fun _ => rfl) fun _ holds => ?_
        exact ⟨holds.bytes, holds.address, holds.isOpen, holds.overflowed, holds.failed, holds.pending, holds.low⟩
      next => exact kept.glance allowed rfl kept.bounded rfl rfl (fun _ => rfl) fun _ holds => holds
    | flush =>
      simp only [World.step, Call.perform, flush, guarded, allowed, if_true]
      exact Kept.idle ⟨Nat.zero_le _, ⟨Nat.le_refl _, Nat.zero_le _⟩, fun _ => ⟨rfl, rfl, rfl⟩⟩ rfl
    | setClock frequency =>
      simp only [World.step, Call.perform, setClock, guarded, allowed, if_true]
      split
      next =>
        refine kept.glance allowed rfl ⟨kept.bounded.tx, kept.bounded.rx, kept.bounded.idle⟩ rfl rfl (fun _ => rfl)
          fun _ holds => ?_
        exact ⟨holds.bytes, holds.address, holds.isOpen, holds.overflowed, holds.failed, holds.pending, holds.low⟩
      next => exact kept.glance allowed rfl kept.bounded rfl rfl (fun _ => rfl) fun _ holds => holds
  · exact kept.refused call allowed

/-- What a call may put on the bus: nothing, a sound collection that its owner ends,
or a read, with the command that waits for it. -/
inductive Carries (task : Nat) (wire : TwoWire) : List I2cCall → Prop where
  | nothing : Carries task wire []
  | send (allowed : wire.accessible task) (collecting : wire.phase = .collecting) (sound : wire.writeError = false)
      : Carries task wire [.init wire.address (addressWidth wire.address) wire.clock, .sendData wire.txBytes]
  | receive (address count : Nat) (allowed : wire.accessible task) (ended : wire.phase ≠ .collecting)
      (matching : wire.phase = .commandPending → address = wire.address)
      : Carries task wire [.init address (addressWidth address) wire.clock, .recvData wire.txBytes count]

private theorem receive_carries (controller : Controller) (task address count : Nat) (stop : Bool) (wire : TwoWire) :
    Carries task wire (receive controller task address count stop wire).traffic := by
  by_cases allowed : wire.accessible task
  · simp only [receive, guarded, allowed, if_true]
    split
    next => exact .nothing
    next valid =>
      obtain ⟨_, _, ended, pending⟩ := Classical.not_not.mp valid
      split
      next => exact .nothing
      next => exact .receive address _ allowed ended fun waiting => pending.resolve_left fun other => other waiting
  · simp only [receive, guarded, allowed, if_false]
    exact .nothing

private theorem endTransmission_carries (controller : Controller) (task : Nat) (stop : Bool) (wire : TwoWire) :
    Carries task wire (endTransmission controller task stop wire).traffic := by
  by_cases allowed : wire.accessible task
  · simp only [endTransmission, guarded, allowed, if_true]
    split
    next collecting =>
      split
      next => exact .nothing
      next =>
        split
        next sound =>
          split
          next => exact .nothing
          next => exact .send allowed collecting.1 sound.1
        next => exact .nothing
    next => exact .nothing
  · simp only [endTransmission, guarded, allowed, if_false]
    exact .nothing

private theorem perform_carries (controller : Controller) (task : Nat) (call : Call) (wire : TwoWire) :
    Carries task wire (call.perform controller task wire).traffic := by
  have silent : ∀ (refused : Reply) (body : TwoWire → Outcome), (∀ wire, (body wire).traffic = []) →
      Carries task wire (guarded task refused body wire).traffic := by
    intro refused body quiet
    unfold guarded
    split
    next => exact quiet wire ▸ .nothing
    next => exact .nothing
  cases call with
  | endTransmission stop => exact endTransmission_carries controller task stop wire
  | requestFrom address count stop => exact receive_carries controller task address count stop wire
  | requestFromInt address count stop => exact receive_carries controller task _ _ _ wire
  | write buffer =>
    apply silent
    intro wire
    dsimp only
    split <;> rfl
  | read =>
    apply silent
    intro wire
    split <;> rfl
  | beginTransmission address => exact silent _ _ fun _ => rfl
  | beginTransmissionInt address => exact silent _ _ fun _ => rfl
  | available => exact silent _ _ fun _ => rfl
  | peek => exact silent _ _ fun _ => rfl
  | flush => exact silent _ _ fun _ => rfl
  | setClock frequency => exact silent _ _ fun _ => rfl

def Call.request : Call → Option (Nat × Nat × Bool)
  | .requestFrom address count stop => some (address, count, stop)
  | .requestFromInt address count stop =>
      some (intAddress address, if 0 < count then count.toNat else 0, decide (stop ≠ 0))
  | _ => none

private theorem request_perform {call : Call} {address count : Nat} {stop : Bool} (request : call.request = some (address, count, stop))
    (controller : Controller) (task : Nat) : call.perform controller task = receive controller task address count stop := by
  cases call with
  | requestFrom _ _ _ | requestFromInt _ _ _ =>
    cases request
    rfl
  | _ => cases request

/-- What tasks that share a wire can rely on in a state. -/
structure Isolated (controller : Controller) (world : World) : Prop where
  bounded : Bounded world.wire
  others : ∀ task (call : Call), world.wire.phase ≠ .idle → world.wire.task ≠ some task →
    (call.perform controller task world.wire).traffic = [] ∧ (call.perform controller task world.wire).wire = world.wire
  sent : ∀ task (call : Call) bytes, .sendData bytes ∈ (call.perform controller task world.wire).traffic →
    ∃ held, collection task world.history = some held ∧ held.bytes = bytes ∧ held.failed = false ∧
      (call.perform controller task world.wire).traffic =
        [.init held.address (addressWidth held.address) world.wire.clock, .sendData bytes]
  received : ∀ task (call : Call) bytes count, .recvData bytes count ∈ (call.perform controller task world.wire).traffic →
    bytes = [] ∨ ∃ held, collection task world.history = some held ∧ held.bytes = bytes ∧ held.failed = false ∧
      (call.perform controller task world.wire).traffic =
        [.init held.address (addressWidth held.address) world.wire.clock, .recvData bytes count]
  failed : ∀ task held, world.wire.task = some task → collection task world.history = some held → held.failed = true →
    ∀ call : Call, (call.perform controller task world.wire).traffic = []
  overflowed : ∀ task held, world.wire.task = some task → collection task world.history = some held →
    held.overflowed = true → ∀ stop, (endTransmission controller task stop world.wire).reply = .status 1
  deferred : ∀ task (others : List (Nat × Call)) (call : Call) address count stop,
    (endTransmission controller task false world.wire).reply = .status 0 → (∀ other ∈ others, other.1 ≠ task) →
    call.request = some (address, count, stop) →
    ∃ held, collection task world.history = some held ∧
      let waiting := Run.run (World.step controller) others (world.step controller (task, .endTransmission false))
      let outcome := call.perform controller task waiting.wire
      outcome.traffic = (if address = held.address ∧ stop = true ∧ count ≠ 0 then
        [.init address (addressWidth address) world.wire.clock, .recvData held.bytes (min count hardwareI2cBuffLen)]
        else []) ∧ outcome.wire.phase = .idle ∧ outcome.wire.txSize = 0

private theorem Kept.carried (kept : Kept world) {traffic : List I2cCall} (carries : Carries task world.wire traffic) :
    (∀ bytes, .sendData bytes ∈ traffic → ∃ held, collection task world.history = some held ∧ held.bytes = bytes ∧
      held.failed = false ∧
      traffic = [.init held.address (addressWidth held.address) world.wire.clock, .sendData bytes]) ∧
    (∀ bytes count, .recvData bytes count ∈ traffic → bytes = [] ∨ ∃ held, collection task world.history = some held ∧
      held.bytes = bytes ∧ held.failed = false ∧
      traffic = [.init held.address (addressWidth held.address) world.wire.clock, .recvData bytes count]) := by
  cases carries with
  | nothing => simp
  | send allowed collecting sound =>
    have active : world.wire.phase ≠ .idle := fun idle => nomatch collecting.symm.trans idle
    obtain ⟨held, _, collected, holds⟩ := kept.owner allowed active
    have unfailed : held.failed = false := by
      by_contra failed
      cases sound.symm.trans (holds.failed (eq_true_of_ne_false failed)).2
    refine ⟨fun bytes member => ?_, fun bytes count member => ?_⟩
    · have same : bytes = world.wire.txBytes := by simpa using member
      exact ⟨held, collected, holds.bytes.trans same.symm, unfailed, by rw [holds.address, same]⟩
    · simp at member
  | receive address count allowed ended matching =>
    refine ⟨fun bytes member => ?_, fun bytes wanted member => ?_⟩
    · simp at member
    · have same : bytes = world.wire.txBytes ∧ wanted = count := by simpa using member
      by_cases idle : world.wire.phase = .idle
      · have empty := (kept.bounded.idle idle).1
        exact .inl (by rw [same.1, txBytes, empty, List.range_zero, List.map_nil])
      · obtain ⟨held, _, collected, holds⟩ := kept.owner allowed idle
        have pending : world.wire.phase = .commandPending := by
          cases phase : world.wire.phase with
          | idle => exact absurd phase idle
          | collecting => exact absurd phase ended
          | commandPending => rfl
        have unfailed : held.failed = false := by
          by_contra failed
          exact ended (holds.failed (eq_true_of_ne_false failed)).1
        refine .inr ⟨held, collected, holds.bytes.trans same.1.symm, unfailed, ?_⟩
        rw [holds.address, matching pending, same.1, same.2]

private theorem Kept.failed (kept : Kept world) {held : Collection} (owns : world.wire.task = some task)
    (collected : collection task world.history = some held) (failed : held.failed = true) (call : Call) :
    (call.perform controller task world.wire).traffic = [] := by
  have active : world.wire.phase ≠ .idle := fun idle => nomatch owns.symm.trans (kept.bounded.idle idle).2.1
  obtain ⟨same, _, found, holds⟩ := kept.owner (.inr owns) active
  cases collected.symm.trans found
  obtain ⟨collecting, wrong⟩ := holds.failed failed
  have carries := perform_carries controller task call world.wire
  generalize (call.perform controller task world.wire).traffic = traffic at carries
  cases carries with
  | nothing => rfl
  | send _ _ sound => cases wrong.symm.trans sound
  | receive _ _ _ ended => exact absurd collecting ended

private theorem Kept.overflowed (kept : Kept world) {held : Collection} (owns : world.wire.task = some task)
    (collected : collection task world.history = some held) (overflowed : held.overflowed = true) (stop : Bool) :
    (TwoWire.endTransmission controller task stop world.wire).reply = .status 1 := by
  have active : world.wire.phase ≠ .idle := fun idle => nomatch owns.symm.trans (kept.bounded.idle idle).2.1
  obtain ⟨same, _, found, holds⟩ := kept.owner (.inr owns) active
  cases collected.symm.trans found
  have full : world.wire.overflow = true := holds.overflowed.symm.trans overflowed
  have collecting : world.wire.phase = .collecting := by
    cases phase : world.wire.phase with
    | idle => exact absurd phase active
    | collecting => rfl
    | commandPending => cases full.symm.trans (holds.pending phase).2.2
  have allowed : world.wire.accessible task := .inr owns
  simp only [TwoWire.endTransmission, guarded, allowed, if_true, collecting, holds.low full, and_self, full]

theorem run_others (others : List (Nat × Call)) {world : World} (active : world.wire.phase ≠ .idle)
    (owns : world.wire.task = some task) (apart : ∀ other ∈ others, other.1 ≠ task) :
    (Run.run (World.step controller) others world).wire = world.wire := by
  induction others generalizing world with
  | nil => rfl
  | cons other rest ih =>
    have refused : ¬ world.wire.accessible other.1 := by
      intro allowed
      have same := allowed.resolve_left active
      exact apart other List.mem_cons_self (Option.some.inj (same.symm.trans owns))
    have same : (world.step controller other).wire = world.wire := (perform_refused other.2 refused).2
    refine Eq.trans (ih ?_ ?_ fun next member => apart next (List.mem_cons_of_mem _ member)) same
    · rw [same]
      exact active
    · rw [same]
      exact owns

/-- `endTransmission(false)` reports success only where it leaves a command to wait. -/
theorem endTransmission_deferred {wire : TwoWire} (answered : (endTransmission controller task false wire).reply = .status 0) :
    wire.accessible task ∧ wire.phase = .collecting ∧ wire.address ≤ 1023 ∧ wire.writeError = false ∧
      (endTransmission controller task false wire).wire = { wire with phase := .commandPending } := by
  by_cases allowed : wire.accessible task
  · refine ⟨allowed, ?_⟩
    simp only [endTransmission, guarded, allowed, if_true] at answered ⊢
    split at answered
    next collecting =>
      split at answered
      next => cases answered
      next fits =>
        split at answered
        next sound => simp only [collecting, fits, sound, and_self, if_true, if_false, Bool.false_eq_true, ne_eq,
          not_false_eq_true]
        next => cases answered
    next => cases answered
  · simp only [endTransmission, guarded, allowed, if_false] at answered
    cases answered

/-- The read after a deferred command: one transfer to the same address, or nothing. -/
theorem receive_pending (wire : TwoWire) (owns : wire.task = some task) (pending : wire.phase = .commandPending)
    (low : wire.address ≤ 1023) (address count : Nat) (stop : Bool) :
    (receive controller task address count stop wire).traffic =
      (if address = wire.address ∧ stop = true ∧ count ≠ 0 then
        [.init address (addressWidth address) wire.clock, .recvData wire.txBytes (min count hardwareI2cBuffLen)]
        else []) := by
  have allowed : wire.accessible task := .inr owns
  simp only [receive, guarded, allowed, if_true]
  split
  next invalid =>
    have unmatched : ¬ (address = wire.address ∧ stop = true ∧ count ≠ 0) := by
      intro ⟨same, stopped, _⟩
      exact invalid ⟨stopped, same ▸ low, fun collecting => (nomatch pending.symm.trans collecting), .inr same⟩
    exact (if_neg unmatched).symm
  next valid =>
    obtain ⟨stopped, _, _, matching⟩ := Classical.not_not.mp valid
    have same := matching.resolve_left fun other => other pending
    split
    next zero => exact (if_neg fun wanted => wanted.2.2 zero).symm
    next some =>
      have clipped : (if hardwareI2cBuffLen < count then hardwareI2cBuffLen else count) = min count hardwareI2cBuffLen := by
        split <;> omega
      rw [clipped]
      exact (if_pos ⟨same, stopped, some⟩).symm

private theorem Kept.deferred (kept : Kept world) (others : List (Nat × Call)) {call : Call} {address count : Nat} {stop : Bool}
    (answered : (TwoWire.endTransmission controller task false world.wire).reply = .status 0)
    (apart : ∀ other ∈ others, other.1 ≠ task) (request : call.request = some (address, count, stop)) :
    ∃ held, collection task world.history = some held ∧
      let waiting := Run.run (World.step controller) others (world.step controller (task, .endTransmission false))
      let outcome := call.perform controller task waiting.wire
      outcome.traffic = (if address = held.address ∧ stop = true ∧ count ≠ 0 then
        [.init address (addressWidth address) world.wire.clock, .recvData held.bytes (min count hardwareI2cBuffLen)]
        else []) ∧ outcome.wire.phase = .idle ∧ outcome.wire.txSize = 0 := by
  obtain ⟨allowed, collecting, low, _, ended⟩ := endTransmission_deferred answered
  have active : world.wire.phase ≠ .idle := fun idle => nomatch collecting.symm.trans idle
  obtain ⟨held, owns, collected, holds⟩ := kept.owner allowed active
  refine ⟨held, collected, ?_⟩
  have first : (world.step controller (task, .endTransmission false)).wire = { world.wire with phase := .commandPending } :=
    ended
  have waiting : (Run.run (World.step controller) others (world.step controller (task, .endTransmission false))).wire =
      { world.wire with phase := .commandPending } := by
    refine (run_others others ?_ ?_ apart).trans first
    · rw [first]
      exact fun idle => nomatch idle
    · rw [first]
      exact owns
  simp only [waiting, request_perform request]
  have reachable : ({ world.wire with phase := .commandPending } : TwoWire).accessible task := .inr owns
  obtain ⟨idle, bounded⟩ := receive_idle controller reachable address count stop
  refine ⟨?_, idle, (bounded.idle idle).1⟩
  rw [holds.address, holds.bytes]
  exact receive_pending { world.wire with phase := .commandPending } owns rfl low address count stop

/-- Tasks that share a started wire, in any interleaving, are isolated from each other. -/
theorem wire_isolated (controller : Controller) (calls : List (Nat × Call)) (clock address : Nat) (tx rx : Nat → UInt8) :
    Isolated controller (Run.run (World.step controller) calls ⟨.started clock address tx rx, []⟩) := by
  have kept : Kept (Run.run (World.step controller) calls ⟨.started clock address tx rx, []⟩) := by
    apply Run.invariant fun call _ kept => kept.step call
    exact Kept.idle ⟨Nat.zero_le _, ⟨Nat.le_refl _, Nat.zero_le _⟩, fun _ => ⟨rfl, rfl, rfl⟩⟩ rfl
  refine ⟨kept.bounded, fun task call active other => ?_, fun task call => ?_, fun task call => ?_, ?_, ?_, ?_⟩
  · exact perform_refused call fun allowed => other (allowed.resolve_left active)
  · exact (kept.carried (perform_carries controller task call _)).1
  · exact (kept.carried (perform_carries controller task call _)).2
  · exact fun task held owns collected failed call => kept.failed owns collected failed call
  · exact fun task held owns collected overflowed stop => kept.overflowed owns collected overflowed stop
  · exact fun task others call address count stop answered apart request => kept.deferred others answered apart request

end ArduinoK210.Wire
