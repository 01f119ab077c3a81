import ArduinoK210.Lib.Run
import Mathlib.Tactic.Linarith

/-! One frame at a time from the camera port. `capture` asks for a frame by clearing a flag, the interrupt of the port starts the
conversion at the next frame start and sets the flag when the frame has finished. -/

namespace ArduinoK210.Camera

/-- A conversion that the interrupt has started: how many calls had begun by then, and whether one was there to wait for it. -/
structure Conversion where
  call : Nat
  waited : Bool
  deriving DecidableEq

/-- The argument of a call, and the clock when it began. The clock counts microseconds in 64 bits and does not come to its end. -/
structure Call where
  timeout : UInt32
  start : Nat
  deriving DecidableEq

/-- The product has the width of its first factor. -/
def Call.deadline (call : Call) : Nat := call.start + (call.timeout * 1000).toNat

/-- Where a call stands: before it clears the flag, before the loop tests the flag or the clock, asleep, or about to return. -/
inductive Stage where
  | request
  | poll
  | check
  | sleep
  | giveUp
  | finish
  deriving DecidableEq

inductive Capture where
  | idle
  | within (stage : Stage) (call : Call)
  deriving DecidableEq

structure Result where
  number : Nat
  call : Call
  stop : Nat
  value : Int
  deriving DecidableEq

/-- The port after `begin`. What has been started, finished and returned so far is recorded along the way, and whether the last
call gave up on a frame that has not finished since. -/
structure Port where
  irqDoneFlag : Int := 1
  frameStart : Bool := false
  frameFinish : Bool := false
  clock : Nat := 0
  capture : Capture := .idle
  calls : Nat := 0
  abandoned : Bool := false
  converting : List Conversion := []
  started : List Conversion := []
  finished : List Conversion := []
  results : List Result := []

inductive Turn where
  | tick (microseconds : Nat)
  | frameStart
  | frameFinish (index : Nat)
  | interrupt
  | capture (timeout : UInt32)
  | step
  deriving DecidableEq

namespace Port

def startConvert (port : Port) : Port :=
  let conversion := { call := port.calls, waited := port.capture != .idle }
  { port with converting := port.converting ++ [conversion], started := port.started ++ [conversion] }

def busDvpIrq (port : Port) : Port :=
  if port.frameFinish then
    { port with frameStart := false, frameFinish := false, irqDoneFlag := 1, abandoned := false }
  else
    let port := if port.irqDoneFlag = 0 then port.startConvert else port
    { port with frameStart := false }

def leave (port : Port) (call : Call) (value : Int) : Port :=
  { port with
    capture := .idle
    abandoned := port.irqDoneFlag == 0
    results := port.results ++ [{ number := port.calls, call, stop := port.clock, value }] }

/-- One step of `capture`. -/
def step (port : Port) : Port :=
  match port.capture with
  | .idle => port
  | .within .request call => { port with irqDoneFlag := 0, capture := .within .poll call }
  | .within .poll call => { port with capture := .within (if port.irqDoneFlag = 0 then .check else .finish) call }
  | .within .check call => { port with capture := .within (if call.deadline ≤ port.clock then .giveUp else .sleep) call }
  | .within .sleep call => { port with capture := .within .poll call }
  | .within .giveUp call => port.leave call (-1)
  | .within .finish call => port.leave call 0

/-- The port reports the end of a frame only when its conversion was started. -/
def finishFrame (port : Port) (index : Nat) : Port :=
  match port.converting[index]? with
  | none => port
  | some conversion =>
      { port with
        frameFinish := true
        converting := port.converting.eraseIdx index
        finished := port.finished ++ [conversion] }

def turn (turn : Turn) (port : Port) : Port :=
  match turn with
  | .tick microseconds => { port with clock := port.clock + microseconds }
  | .frameStart => { port with frameStart := true }
  | .frameFinish index => port.finishFrame index
  | .interrupt => if port.frameStart || port.frameFinish then port.busDvpIrq else port
  | .capture timeout =>
      if port.capture = .idle then
        { port with calls := port.calls + 1, abandoned := false, capture := .within .request { timeout, start := port.clock } }
      else port
  | .step => port.step

end Port

/-- What the call protocol promises: a frame that was started for the call, the whole of the timeout, and no conversion that
nobody waits for. -/
structure Port.Promised (port : Port) : Prop where
  returns : ∀ result ∈ port.results, result.value = 0 → ∃ conversion ∈ port.finished, result.number ≤ conversion.call
  gives_up : ∀ result ∈ port.results, result.value = -1 → result.call.start + result.call.timeout.toNat * 1000 ≤ result.stop
  starts : ∀ conversion ∈ port.started, conversion.waited = true
  writes : ∀ conversion ∈ port.converting, conversion.waited = true

/-- The timeout fits the product, no call begins on a frame that an earlier one has left in progress, and no frame starts between
a call that gave up on its frame and the next one. -/
def Clean : Turn → Port → Prop
  | .capture timeout, port => timeout.toNat * 1000 < 2 ^ 32 ∧ port.converting = [] ∧ port.frameFinish = false
  | .interrupt, port => port.capture = .idle → port.abandoned = true → port.frameFinish = true ∨ port.frameStart = false
  | _, _ => True

instance (turn : Turn) (port : Port) : Decidable (Clean turn port) := by
  cases turn <;> unfold Clean <;> infer_instance

/-- A frame that was started for the current call has finished. -/
def Port.Served (port : Port) : Prop := ∃ conversion ∈ port.finished, port.calls ≤ conversion.call

/-- What holds while a call is at a stage. -/
structure Port.Within (port : Port) (stage : Stage) (call : Call) : Prop where
  exact : call.deadline = call.start + call.timeout.toNat * 1000
  own : ∀ conversion ∈ port.converting, port.calls ≤ conversion.call
  pending : port.frameFinish = true → port.Served
  done : stage ≠ .request → port.irqDoneFlag ≠ 0 → port.Served
  finished : stage = .finish → port.irqDoneFlag ≠ 0
  late : stage = .giveUp → call.deadline ≤ port.clock

structure Port.Sound (port : Port) : Prop where
  promised : port.Promised
  idle : port.capture = .idle → port.irqDoneFlag = 0 → port.abandoned = true
  within : ∀ stage call, port.capture = .within stage call → port.Within stage call

variable {port : Port}

/-- The promises are about what has been recorded. -/
theorem Port.Promised.same (promised : port.Promised) {next : Port} (results : next.results = port.results)
    (finished : next.finished = port.finished) (started : next.started = port.started)
    (converting : next.converting = port.converting) : next.Promised := by
  obtain ⟨returns, gives_up, starts, writes⟩ := promised
  rw [← results] at returns gives_up
  rw [← finished] at returns
  rw [← started] at starts
  rw [← converting] at writes
  exact ⟨returns, gives_up, starts, writes⟩

private theorem Port.Sound.initial (clock : Nat) : Port.Sound { clock } := by
  refine ⟨⟨?_, ?_, ?_, ?_⟩, nofun, nofun⟩
  all_goals exact fun _ member => absurd member List.not_mem_nil

theorem Port.Sound.go (sound : port.Sound) {stage next : Stage} {call : Call} (here : port.capture = .within stage call)
    (asked : stage ≠ .request) (finished : next = .finish → port.irqDoneFlag ≠ 0)
    (late : next = .giveUp → call.deadline ≤ port.clock) :
    Port.Sound { port with capture := .within next call } := by
  have within := sound.within stage call here
  refine ⟨sound.promised.same rfl rfl rfl rfl, nofun, ?_⟩
  rintro _ _ ⟨⟩
  exact ⟨within.exact, within.own, within.pending, fun _ => within.done asked, finished, late⟩

private theorem Port.Sound.leave (sound : port.Sound) {call : Call} {value : Int}
    (returns : value = 0 → port.Served) (gives_up : value = -1 → call.start + call.timeout.toNat * 1000 ≤ port.clock) :
    (port.leave call value).Sound := by
  obtain ⟨promised, _, _⟩ := sound
  refine ⟨⟨?_, ?_, promised.starts, promised.writes⟩, ?_, nofun⟩
  · intro result member
    rcases List.mem_append.mp member with old | new
    · exact promised.returns result old
    · cases List.mem_singleton.mp new
      exact returns
  · intro result member
    rcases List.mem_append.mp member with old | new
    · exact promised.gives_up result old
    · cases List.mem_singleton.mp new
      exact gives_up
  · intro _ zero
    exact beq_iff_eq.mpr zero

private theorem Port.Sound.step (sound : port.Sound) : port.step.Sound := by
  unfold Port.step
  split
  · exact sound
  · next call here =>
    have within := sound.within _ _ here
    refine ⟨sound.promised.same rfl rfl rfl rfl, nofun, ?_⟩
    rintro _ _ ⟨⟩
    exact ⟨within.exact, within.own, within.pending, fun _ nonzero => absurd rfl nonzero, nofun, nofun⟩
  · next call here =>
    apply sound.go here nofun
    · split
      · exact nofun
      · next set => exact fun _ => set
    · split <;> exact nofun
  · next call here =>
    apply sound.go here nofun
    · split <;> exact nofun
    · split
      · next late => exact fun _ => late
      · exact nofun
  · next call here => exact sound.go here nofun nofun nofun
  · next call here =>
    have within := sound.within _ _ here
    exact sound.leave nofun fun _ => within.exact ▸ within.late rfl
  · next call here =>
    have within := sound.within _ _ here
    exact sound.leave (fun _ => within.done nofun (within.finished rfl)) nofun

theorem Port.Sound.startConvert (sound : port.Sound) (waited : port.capture ≠ .idle) : port.startConvert.Sound := by
  have wanted : (port.capture != .idle) = true := bne_iff_ne.mpr waited
  refine ⟨⟨sound.promised.returns, sound.promised.gives_up, ?_, ?_⟩, fun idle => absurd idle waited, ?_⟩
  · intro conversion member
    rcases List.mem_append.mp member with old | new
    · exact sound.promised.starts conversion old
    · cases List.mem_singleton.mp new
      exact wanted
  · intro conversion member
    rcases List.mem_append.mp member with old | new
    · exact sound.promised.writes conversion old
    · cases List.mem_singleton.mp new
      exact wanted
  · intro stage call here
    have within := sound.within stage call here
    refine ⟨within.exact, ?_, within.pending, within.done, within.finished, within.late⟩
    intro conversion member
    rcases List.mem_append.mp member with old | new
    · exact within.own conversion old
    · cases List.mem_singleton.mp new
      exact Nat.le_refl _

private theorem Port.Sound.status (sound : port.Sound) (frameStart : Bool) : Port.Sound { port with frameStart } := by
  refine ⟨sound.promised.same rfl rfl rfl rfl, sound.idle, ?_⟩
  intro stage call here
  have within := sound.within stage call here
  exact ⟨within.exact, within.own, within.pending, within.done, within.finished, within.late⟩

private theorem Port.Sound.busDvpIrq (sound : port.Sound)
    (clean : port.capture = .idle → port.abandoned = true → port.frameFinish = true) : port.busDvpIrq.Sound := by
  unfold Port.busDvpIrq
  split
  · next finish =>
    refine ⟨sound.promised.same rfl rfl rfl rfl, fun _ zero => absurd zero one_ne_zero, ?_⟩
    intro stage call here
    have within := sound.within stage call here
    exact ⟨within.exact, within.own, nofun, fun _ _ => within.pending finish, fun _ => one_ne_zero, within.late⟩
  · next no_finish =>
    apply Port.Sound.status
    split
    · next unset =>
      apply sound.startConvert
      exact fun idle => no_finish (clean idle (sound.idle idle unset))
    · exact sound

private theorem Port.Sound.finishFrame (sound : port.Sound) (index : Nat) : (port.finishFrame index).Sound := by
  unfold Port.finishFrame
  split
  · exact sound
  · next conversion found =>
    have inside : conversion ∈ port.converting := List.mem_of_getElem? found
    refine ⟨⟨?_, sound.promised.gives_up, sound.promised.starts, ?_⟩, sound.idle, ?_⟩
    · intro result member zero
      obtain ⟨served, known, later⟩ := sound.promised.returns result member zero
      exact ⟨served, List.mem_append_left _ known, later⟩
    · intro other member
      exact sound.promised.writes other (List.mem_of_mem_eraseIdx member)
    · intro stage call here
      have within := sound.within stage call here
      refine ⟨within.exact, ?_, ?_, ?_, within.finished, within.late⟩
      · intro other member
        exact within.own other (List.mem_of_mem_eraseIdx member)
      · intro _
        exact ⟨conversion, List.mem_append_right _ (List.mem_singleton.mpr rfl), within.own conversion inside⟩
      · intro asked set
        obtain ⟨served, known, later⟩ := within.done asked set
        exact ⟨served, List.mem_append_left _ known, later⟩

private theorem Port.Sound.capture (sound : port.Sound) {timeout : UInt32} (clean : Clean (.capture timeout) port) :
    Port.Sound { port with calls := port.calls + 1, abandoned := false, capture := .within .request ⟨timeout, port.clock⟩ } := by
  obtain ⟨fits, nothing, no_finish⟩ := clean
  refine ⟨sound.promised.same rfl rfl rfl rfl, nofun, ?_⟩
  rintro _ _ ⟨⟩
  refine ⟨?_, ?_, ?_, fun asked => absurd rfl asked, nofun, nofun⟩
  · have product : (timeout * 1000).toNat = timeout.toNat * 1000 := by
      rw [UInt32.toNat_mul]
      exact Nat.mod_eq_of_lt fits
    exact congrArg (port.clock + ·) product
  · intro conversion member
    rw [nothing] at member
    exact absurd member List.not_mem_nil
  · intro finish
    rw [no_finish] at finish
    cases finish

private theorem Port.Sound.turn (sound : port.Sound) (turn : Turn) (clean : Clean turn port) : (port.turn turn).Sound := by
  cases turn with
  | tick microseconds =>
    refine ⟨sound.promised.same rfl rfl rfl rfl, sound.idle, ?_⟩
    intro stage call here
    have within := sound.within stage call here
    exact ⟨within.exact, within.own, within.pending, within.done, within.finished,
      fun giveUp => (within.late giveUp).trans (Nat.le_add_right _ _)⟩
  | frameStart => exact sound.status true
  | frameFinish index => exact sound.finishFrame index
  | interrupt =>
    dsimp only [Port.turn]
    split
    · next raised =>
      apply sound.busDvpIrq
      intro idle abandoned
      rcases clean idle abandoned with finish | no_start
      · exact finish
      · rw [no_start] at raised
        exact raised
    · exact sound
  | capture timeout =>
    dsimp only [Port.turn]
    split
    · exact sound.capture clean
    · exact sound
  | step => exact sound.step

/-- The port keeps its promises at every point of a run in which no call begins on, and no frame starts after, a frame that a call
gave up on, and every timeout fits the product. -/
theorem capture_promised (clock : Nat) (turns : List Turn) (clean : Run.Guarded Port.turn Clean turns { clock })
    (front : List Turn) (sub : front <+: turns) : (Run.run Port.turn front { clock }).Promised := by
  apply Port.Sound.promised
  apply (clean.front sub).invariant _ (Port.Sound.initial clock)
  exact fun turn port sound clean => sound.turn turn clean

/-- A call that waits for a frame, gets it and is told so, then one that has nothing to wait for. -/
theorem capture_promised_frame :
    let turns : List Turn := [.capture 200, .step, .step, .step, .frameStart, .interrupt, .tick 30000, .frameFinish 0, .interrupt,
      .step, .step, .step, .capture 0, .step, .step, .step, .step, .step]
    Run.Guarded Port.turn Clean turns { clock := 5 } ∧ (Run.run Port.turn turns { clock := 5 }).Promised := by
  have clean : Run.Guarded Port.turn Clean [.capture 200, .step, .step, .step, .frameStart, .interrupt, .tick 30000,
      .frameFinish 0, .interrupt, .step, .step, .step, .capture 0, .step, .step, .step, .step, .step] { clock := 5 } := by
    decide
  exact ⟨clean, capture_promised 5 _ clean _ (List.prefix_refl _)⟩

/-- A call gives up before its frame starts; the frame is converted with nobody waiting, and the next call returns on it. -/
theorem capture_stale :
    let port := Run.run Port.turn [.capture 1, .step, .step, .tick 1000, .step, .step, .frameStart, .interrupt, .capture 200, .step,
      .frameFinish 0, .interrupt, .step, .step] {}
    port.results = [⟨1, ⟨1, 0⟩, 1000, -1⟩, ⟨2, ⟨200, 1000⟩, 1000, 0⟩] ∧ port.finished = [⟨1, false⟩] ∧ ¬ port.Promised := by
  refine ⟨by decide, by decide, ?_⟩
  intro promised
  have waited := promised.starts ⟨1, false⟩ (by decide)
  cases waited

end ArduinoK210.Camera
