import ArduinoK210.Lib.Run
import ArduinoK210.Touch.Filter

/-! What a touch screen is to report: a press is a begin, moves and an end, and every poll
that brings nothing new reports nothing. A sample whose point was not read leaves the filter
and the point alone. The poll of the NS2009 follows this while no record is left over. -/

namespace ArduinoK210.Touch

/-- `held` is the point of the press that is going on. -/
structure Protocol where
  filter : TsFilter
  held : Option (Int × Int)
  report : TsEvent

namespace Protocol

def quiet : TsEvent := ⟨.none, 0, 0⟩

def start (cal : Fin 7 → Int) (buffer : Nat → Int) (index : Nat → Nat) : Protocol :=
  ⟨(TsFilter.alloc 5 5 buffer index).setcal cal, none, quiet⟩

def touch (x y : Int) (protocol : Protocol) : Protocol :=
  let (point, filter) := protocol.filter.update x y
  { filter
    held := some point
    report :=
      match protocol.held with
      | none => ⟨.begin, point.1, point.2⟩
      | some last => if last = point then quiet else ⟨.move, point.1, point.2⟩ }

def lift (protocol : Protocol) : Protocol :=
  match protocol.held with
  | none => { protocol with report := quiet }
  | some last => ⟨protocol.filter.clear, none, ⟨.finish, last.1, last.2⟩⟩

def step (sample : Sample) (protocol : Protocol) : Protocol :=
  match tsRead sample.z with
  | none => { protocol with report := quiet }
  | some z1 =>
      if 70 < z1 ∧ z1 < 2000 then
        match tsRead sample.x, tsRead sample.y with
        | some x, some y => protocol.touch x y
        | _, _ => { protocol with report := quiet }
      else protocol.lift

def reports : List Sample → Protocol → List EventType
  | [], _ => []
  | sample :: samples, protocol => (protocol.step sample).report.type :: reports samples (protocol.step sample)

end Protocol

/-- A begin, then moves, then an end, with silence anywhere. `pressing` says whether a press is open. -/
def Presses : Bool → List EventType → Prop
  | _, [] => True
  | pressing, .none :: types => Presses pressing types
  | false, .begin :: types => Presses true types
  | true, .move :: types => Presses true types
  | true, .finish :: types => Presses false types
  | _, _ :: _ => False

namespace Protocol

variable (sample : Sample) (protocol : Protocol)

/-- One step reports nothing and keeps the press as it is, or begins, goes on with or ends one. -/
theorem step_cases :
    (protocol.step sample).report.type = .none ∧ (protocol.step sample).held.isSome = protocol.held.isSome ∨
      (protocol.step sample).report.type = .begin ∧ protocol.held.isSome = false ∧ (protocol.step sample).held.isSome = true ∨
      (protocol.step sample).report.type = .move ∧ protocol.held.isSome = true ∧ (protocol.step sample).held.isSome = true ∨
      (protocol.step sample).report.type = .finish ∧ protocol.held.isSome = true ∧
        (protocol.step sample).held.isSome = false := by
  unfold step
  split
  · exact .inl ⟨rfl, rfl⟩
  · split
    · split
      · unfold touch
        cases held : protocol.held with
        | none => exact .inr (.inl ⟨rfl, rfl, rfl⟩)
        | some last =>
          dsimp only
          split
          · exact .inl ⟨rfl, rfl⟩
          · exact .inr (.inr (.inl ⟨rfl, rfl, rfl⟩))
      · exact .inl ⟨rfl, rfl⟩
    · unfold lift
      cases held : protocol.held with
      | none => exact .inl ⟨rfl, rfl⟩
      | some last => exact .inr (.inr (.inr ⟨rfl, rfl, rfl⟩))

/-- The reports of every run are presses one after the other. -/
theorem reports_presses (samples : List Sample) : Presses protocol.held.isSome (protocol.reports samples) := by
  induction samples generalizing protocol with
  | nil => trivial
  | cons sample samples ih =>
    have later := ih (protocol.step sample)
    rw [reports]
    obtain ⟨type, same⟩ | ⟨type, before, after⟩ | ⟨type, before, after⟩ | ⟨type, before, after⟩ := step_cases sample protocol
    · rw [type, ← same]
      cases pressing : (protocol.step sample).held.isSome <;> simpa only [Presses, pressing] using later
    · rw [type, before]
      rwa [after] at later
    · rw [type, before]
      rwa [after] at later
    · rw [type, before]
      rwa [after] at later

end Protocol

/-- The poll and the protocol after the same samples: the same filter, the same press at the same point, and the report
that is due. Where nothing is due only the type of the record matters. -/
structure Agrees (ts : Ns2009) (protocol : Protocol) : Prop where
  filter : ts.filter = protocol.filter
  press : ts.press = protocol.held.isSome
  point : ∀ point, protocol.held = some point → (ts.x, ts.y) = point
  type : ts.event.type = protocol.report.type
  report : protocol.report.type ≠ .none → ts.event = protocol.report

/-- What a sample needs of the poll: a touch has its point read, and whatever brings nothing new finds no event in the
record. -/
def Ok (sample : Sample) (ts : Ns2009) : Prop :=
  ∀ z1, tsRead sample.z = some z1 →
    if 70 < z1 ∧ z1 < 2000 then
      ∃ x y, tsRead sample.x = some x ∧ tsRead sample.y = some y ∧
        (ts.press = true → (ts.filter.update x y).1 = (ts.x, ts.y) → ts.event.type = .none)
    else ts.press = false → ts.event.type = .none

/-- The poll beside the protocol. -/
structure Pair where
  ts : Ns2009
  protocol : Protocol

def Pair.step (sample : Sample) (pair : Pair) : Pair := ⟨pair.ts.poll sample, pair.protocol.step sample⟩

/-- The invariant: a filter of one value would not remember that it was updated. -/
structure Pair.Sound (pair : Pair) : Prop where
  agrees : Agrees pair.ts pair.protocol
  sized : 1 < pair.ts.filter.mx.length

namespace Pair

variable {ts : Ns2009} {protocol : Protocol} {x y : Int}

private theorem update_position (filter : MedianFilter) (value : Int) :
    (filter.update value).2.position = if filter.position + 1 = filter.length then 0 else filter.position + 1 := rfl

theorem update_changes (filter : TsFilter) (long : 1 < filter.mx.length) (x y : Int) : (filter.update x y).2 ≠ filter := by
  intro same
  have position : (filter.mx.update x).2.position = filter.mx.position := congrArg (fun filter => filter.mx.position) same
  rw [update_position] at position
  split at position <;> omega

private theorem pressed_length (ts : Ns2009) (x y : Int) : (ts.pressed x y).filter.mx.length = ts.filter.mx.length :=
  MedianFilter.update_length x ts.filter.mx

private theorem poll_length (sample : Sample) (ts : Ns2009) : (ts.poll sample).filter.mx.length = ts.filter.mx.length := by
  unfold Ns2009.poll
  split
  · rfl
  · split
    · exact pressed_length ts _ _
    · unfold Ns2009.released
      split <;> rfl

theorem touch_agrees_iff (agrees : Agrees ts protocol) :
    Agrees (ts.pressed x y) (protocol.touch x y) ↔
      (ts.press = true → (ts.filter.update x y).1 = (ts.x, ts.y) → ts.event.type = .none) := by
  have press := agrees.press
  unfold Ns2009.pressed Protocol.touch
  rw [← agrees.filter]
  cases held : protocol.held with
  | none =>
    rw [held] at press
    refine ⟨fun _ pressing => ?_, fun _ => ?_⟩
    · rw [press] at pressing
      cases pressing
    · have fresh : ts.press = false := press
      refine ⟨rfl, rfl, ?_, ?_, fun _ => ?_⟩
      · rintro point here
        cases here
        rfl
      · simp [fresh]
      · simp [fresh]
  | some last =>
    rw [held] at press
    have going : ts.press = true := press
    have point := agrees.point last held
    obtain ⟨⟨x', y'⟩, filter⟩ := ts.filter.update x y
    by_cases still : last = (x', y')
    · have unmoved : ¬(ts.x ≠ x' ∨ ts.y ≠ y') := by
        cases point.trans still
        simp
      simp only [going, Bool.true_eq_false, if_false, if_neg unmoved, if_pos still]
      refine ⟨fun after _ _ => after.type, fun silent => ?_⟩
      refine ⟨rfl, rfl, ?_, silent trivial (point.trans still).symm, fun due => absurd rfl due⟩
      rintro point here
      cases here
      rfl
    · have moved : ts.x ≠ x' ∨ ts.y ≠ y' := by
        by_contra same
        have both : ts.x = x' ∧ ts.y = y' := by simpa using same
        exact still (point.symm.trans (Prod.ext both.1 both.2))
      simp only [going, Bool.true_eq_false, if_false, if_pos moved, if_neg still]
      refine ⟨fun _ _ same => absurd (point.symm.trans same.symm) still, fun _ => ?_⟩
      refine ⟨rfl, rfl, ?_, rfl, fun _ => rfl⟩
      rintro point here
      cases here
      rfl

/-- A touch whose point was not read enters the filter all the same. -/
theorem unread (sized : 1 < ts.filter.mx.length) (agrees : Agrees ts protocol) :
    ¬Agrees (ts.pressed x y) { protocol with report := Protocol.quiet } := by
  intro after
  exact update_changes ts.filter sized x y (after.filter.trans agrees.filter.symm)

private theorem lift_agrees_iff (agrees : Agrees ts protocol) :
    Agrees ts.released protocol.lift ↔ (ts.press = false → ts.event.type = .none) := by
  have press := agrees.press
  unfold Ns2009.released Protocol.lift
  cases held : protocol.held with
  | none =>
    rw [held] at press
    have idle : ts.press = false := press
    simp only [idle, Bool.false_eq_true, if_false]
    refine ⟨fun after _ => after.type, fun silent => ?_⟩
    exact ⟨agrees.filter, idle, fun _ impossible => (by cases impossible), silent trivial, fun due => absurd rfl due⟩
  | some last =>
    rw [held] at press
    have going : ts.press = true := press
    have point := agrees.point last held
    simp only [going, if_true]
    refine ⟨fun _ idle => (by cases idle), fun _ => ?_⟩
    refine ⟨by rw [agrees.filter], rfl, ?_, rfl, fun _ => ?_⟩
    · rintro point here
      cases here
    · rw [← point]

private theorem sound_start (cal : Fin 7 → Int) (buffer : Nat → Int) (index : Nat → Nat) :
    Sound ⟨.start cal buffer index, .start cal buffer index⟩ := by
  refine ⟨⟨rfl, rfl, ?_, rfl, fun due => absurd rfl due⟩, ?_⟩
  · rintro point here
    cases here
  · exact Nat.lt_of_sub_pos (Nat.succ_pos 3)

/-- Each poll follows the protocol exactly when the sample is one that it can take. -/
theorem step_sound_iff (sample : Sample) (pair : Pair) (sound : pair.Sound) : (pair.step sample).Sound ↔ Ok sample pair.ts := by
  obtain ⟨agrees, sized⟩ := sound
  obtain ⟨ts, protocol⟩ := pair
  have long : 1 < (ts.poll sample).filter.mx.length := by
    rw [poll_length]
    exact sized
  have only : (step sample ⟨ts, protocol⟩).Sound ↔ Agrees (ts.poll sample) (protocol.step sample) :=
    ⟨fun after => after.agrees, fun after => ⟨after, long⟩⟩
  rw [only]
  unfold Ns2009.poll Protocol.step Ok
  cases z : tsRead sample.z with
  | none =>
    refine ⟨fun _ z1 impossible => (by cases impossible), fun _ => ?_⟩
    exact ⟨agrees.filter, agrees.press, agrees.point, rfl, fun due => absurd rfl due⟩
  | some z1 =>
    dsimp only
    have one : ∀ {need : Int → Prop}, (∀ other, some z1 = some other → need other) ↔ need z1 := by simp
    rw [one]
    split
    · cases atX : tsRead sample.x with
      | none => exact ⟨fun after => (unread sized agrees after).elim, fun ⟨x, y, impossible, _⟩ => (by cases impossible)⟩
      | some x =>
        cases atY : tsRead sample.y with
        | none => exact ⟨fun after => (unread sized agrees after).elim, fun ⟨x, y, _, impossible, _⟩ => (by cases impossible)⟩
        | some y =>
          refine (touch_agrees_iff agrees).trans ⟨fun silent => ⟨x, y, rfl, rfl, silent⟩, ?_⟩
          rintro ⟨x', y', sameX, sameY, silent⟩
          cases sameX
          cases sameY
          exact silent
    · exact lift_agrees_iff agrees

end Pair
/-- The polls of a run agree with the protocol all along exactly when each finds a sample that it can take. -/
theorem touch_protocol_iff (cal : Fin 7 → Int) (buffer : Nat → Int) (index : Nat → Nat) (samples : List Sample) :
    (∀ front, front <+: samples →
      Agrees (Run.run Ns2009.poll front (.start cal buffer index)) (Run.run Protocol.step front (.start cal buffer index))) ↔
      Run.Guarded Ns2009.poll Ok samples (.start cal buffer index) := by
  let start : Pair := ⟨.start cal buffer index, .start cal buffer index⟩
  have sound : start.Sound := Pair.sound_start cal buffer index
  have commutes : ∀ sample pair, (Pair.step sample pair).ts = Ns2009.poll sample pair.ts := fun _ _ => rfl
  have polls : ∀ front, (Run.run Pair.step front start).ts = Run.run Ns2009.poll front start.ts :=
    fun front => Run.run_project Pair.ts (fun _ _ => rfl) front start
  have steps : ∀ front, (Run.run Pair.step front start).protocol = Run.run Protocol.step front start.protocol :=
    fun front => Run.run_project Pair.protocol (fun _ _ => rfl) front start
  have long : ∀ front, 1 < (Run.run Pair.step front start).ts.filter.mx.length := by
    intro front
    apply Run.invariant (fun sample pair (sized : 1 < pair.ts.filter.mx.length) => ?_) front start sound.sized
    rw [Pair.step, Pair.poll_length]
    exact sized
  rw [← Run.guarded_project Pair.ts commutes samples start, ← Run.guarded_iff Pair.step_sound_iff samples start sound]
  refine ⟨fun agrees front sub => ⟨?_, long front⟩, fun sounds front sub => ?_⟩
  · rw [polls, steps]
    exact agrees front sub
  · have whole := (sounds front sub).agrees
    rwa [polls, steps] at whole

/-- A finger that rests is reported to begin again. -/
theorem still_touch_begins_again :
    ¬∀ front, front <+: [(⟨some (6, 64), some (60, 0), some (60, 0)⟩ : Sample), ⟨some (6, 64), some (60, 0), some (60, 0)⟩] →
      Agrees (Run.run Ns2009.poll front (.start ![1, 0, 0, 0, 1, 0, 1] (fun _ => 0) fun _ => 0))
        (Run.run Protocol.step front (.start ![1, 0, 0, 0, 1, 0, 1] (fun _ => 0) fun _ => 0)) := by
  intro agrees
  have second := (agrees _ List.prefix_rfl).type
  revert second
  decide

end ArduinoK210.Touch
