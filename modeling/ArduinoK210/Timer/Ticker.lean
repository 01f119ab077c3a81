import ArduinoK210.Timer.Irq
import ArduinoK210.Timer.Ownership

/-! Tickers over the timer channels: scheduling, detaching and the interrupt
handler that runs their callbacks. A callback may schedule and detach Tickers. -/

namespace ArduinoK210.Timer

/-- `dev.tim` and `chn.tim` of a row of `timer_dev_chn_map`. -/
def place (row : Fin 12) : Place := ⟨⟨row.val / 4, by omega⟩, ⟨row.val % 4, by omega⟩⟩

/-- The two values of `i` in the handler's loop, `(channel >> 1) << 1` and the next. -/
def pairLow (channel : Fin 4) : Fin 4 := ⟨channel.val / 2 * 2, by omega⟩

def pairHigh (channel : Fin 4) : Fin 4 := ⟨channel.val / 2 * 2 + 1, by omega⟩

theorem place_injective {first second : Fin 12} (same : place first = place second) : first = second := by
  have device := congrArg (fun place => place.device.val) same
  have channel := congrArg (fun place => place.channel.val) same
  simp only [place] at device channel
  omega

/-- `_timer` and `action_`; a callable is known by its number. -/
structure Ticker where
  timer : Option (Fin 12)
  action : Option Nat

/-- The Tickers with what they work on. `spent` marks a Ticker that fired as a
one-shot since it was last scheduled, and `calls` lists the user callbacks made;
no operation reads these two. -/
structure Board where
  map : ChannelMap
  timers : Timers
  tickers : Nat → Ticker
  spent : Nat → Bool
  calls : List (Nat × Nat)

inductive Call where
  | attach (ticker ms : Nat) (action : Option Nat)
  | once (ticker ms : Nat) (action : Option Nat)
  | detach (ticker : Nat)

def Call.ticker : Call → Nat
  | .attach ticker _ _ | .once ticker _ _ | .detach ticker => ticker

namespace Board

def setTicker (ticker : Nat) (value : Ticker) (board : Board) : Board :=
  { board with
    tickers := Function.update board.tickers ticker value
    spent := Function.update board.spent ticker false }

def detach (ticker : Nat) (board : Board) : Board :=
  match (board.tickers ticker).timer with
  | some row =>
    { board with
      timers := (board.timers.timerSetEnable (place row) false).timerIrqUnregister (place row)
      map := board.map.halTimerReleaseChn row }.setTicker ticker ⟨none, none⟩
  | none => board.setTicker ticker ⟨none, none⟩

/-- The channel that a Ticker has obtained is silenced, registered and started. -/
def start (row : Fin 12) (singleShot : Bool) (ticker : Nat) (timers : Timers) : Timers :=
  ((timers.timerSetEnable (place row) false).timerIrqRegister (place row) singleShot 1 ticker).timerSetEnable
    (place row) true

/-- The board with `ticker` armed on the row that it obtained. -/
def armed (row : Fin 12) (map : ChannelMap) (singleShot : Bool) (ticker : Nat) (action : Option Nat) (board : Board) :
    Board :=
  { board with timers := start row singleShot ticker board.timers, map }.setTicker ticker ⟨some row, action⟩

/-- The part of `schedule` after `detach`. The reload value is a floating-point
quotient, and `timer_set_interval` does not return for one that does not fit: a
call of the model is one that returns. -/
def arm (ticker ms : Nat) (again : Bool) (action : Option Nat) (board : Board) : Board :=
  if ms = 0 ∨ action = none then board
  else
    match board.map.halTimerGetFreeChn with
    | (some row, map) => board.armed row map (!again) ticker action
    | (none, map) => { board with map }

def schedule (ticker ms : Nat) (again : Bool) (action : Option Nat) (board : Board) : Board :=
  (board.detach ticker).arm ticker ms again action

def perform : Call → Board → Board
  | .attach ticker ms action, board => board.schedule ticker ms true action
  | .once ticker ms action, board => board.schedule ticker ms false action
  | .detach ticker, board => board.detach ticker

/-- `Ticker::fired`, where `body` says which calls each callable makes. -/
def fired (body : Nat → List Call) (ticker : Nat) (board : Board) : Board :=
  match (board.tickers ticker).action with
  | some action => Run.run perform (body action) { board with calls := board.calls ++ [(ticker, action)] }
  | none => board

def markSpent (ticker : Nat) (singleShot : Bool) (board : Board) : Board :=
  { board with spent := Function.update board.spent ticker (board.spent ticker || singleShot) }

/-- The callback of one channel and the single-shot check after it, which reads
the instance again. -/
def callback (body : Nat → List Call) (site : Place) (board : Board) : Board :=
  match (board.timers.instances site).callback with
  | none => board
  | some ticker =>
    let after := (board.markSpent ticker (board.timers.instances site).singleShot).fired body ticker
    if (after.timers.instances site).singleShot then { after with timers := after.timers.timerSetEnable site false }
    else after

def serve (body : Nat → List Call) (site : Place) (channelIntStat : BitVec 32) (board : Board) : Board :=
  if channelIntStat &&& 1 ≠ 0 then
    let served := board.callback body site
    { served with timers := served.timers.readEoi site }
  else board

def timerInterruptHandler (body : Nat → List Call) (ctx : Place) (board : Board) : Board :=
  let device := (board.timers.instances ctx).device
  let low := pairLow (board.timers.instances ctx).channel
  let high := pairHigh (board.timers.instances ctx).channel
  let channelIntStat := board.timers.intrStat device >>> low.val
  (board.serve body ⟨device, low⟩ channelIntStat).serve body ⟨device, high⟩ (channelIntStat >>> 1)

def initial (fpioa : Gpio.Fpioa) : Board :=
  ⟨⟨fun _ => -1, fun _ => false, fpioa⟩, .reset, fun _ => ⟨none, none⟩, fun _ => false, []⟩

def Holds (ticker : Nat) (row : Fin 12) (board : Board) : Prop := (board.tickers ticker).timer = some row

instance (ticker : Nat) (row : Fin 12) (board : Board) : Decidable (board.Holds ticker row) :=
  inferInstanceAs (Decidable ((board.tickers ticker).timer = some row))

/-- What every sequence of calls keeps: the channel table agrees with the Tickers,
a held channel is registered for its holder, and a line's context is one of the
two channels on it. -/
structure Sound (board : Board) : Prop where
  allocated : ∃ held, Clients.Consistent ⟨board.map, fun _ => none, held⟩ ∧
    ∀ row, row ∈ held ↔ ∃ ticker, board.Holds ticker row
  single : ∀ first second row, board.Holds first row → board.Holds second row → first = second
  action : ∀ ticker row, board.Holds ticker row → (board.tickers ticker).action.isSome
  registered : ∀ ticker row, board.Holds ticker row → ∃ singleShot,
    board.timers.instances (place row) = ⟨(place row).device, (place row).channel, some ticker, singleShot⟩
  vacant : ∀ site, (∀ ticker row, board.Holds ticker row → place row ≠ site) →
    (board.timers.instances site).callback = none
  lines : ∀ irq ctx, board.timers.line irq = some ctx → getTimerIrqn ctx = irq
  enabled : ∀ ticker row, board.Holds ticker row → board.timers.enabled (getTimerIrqn (place row)) = true

theorem initial_sound (fpioa : Gpio.Fpioa) : Sound (initial fpioa) := by
  constructor
  · exact ⟨[], Clients.initial_consistent fpioa, by simp [Holds, initial]⟩
  all_goals simp [Holds, initial, Timers.reset, Instance.cleared]

theorem detach_tickers (ticker : Nat) (board : Board) :
    (board.detach ticker).tickers = Function.update board.tickers ticker ⟨none, none⟩ := by
  unfold detach
  split <;> rfl

theorem detach_spent (ticker : Nat) (board : Board) :
    (board.detach ticker).spent = Function.update board.spent ticker false := by
  unfold detach
  split <;> rfl

theorem detach_holds (ticker other : Nat) (row : Fin 12) (board : Board) :
    (board.detach ticker).Holds other row ↔ other ≠ ticker ∧ board.Holds other row := by
  unfold Holds
  rw [detach_tickers]
  by_cases same : other = ticker
  · subst same
    simp
  · simp [same]

theorem detach_held {ticker : Nat} {row : Fin 12} {board : Board} (held : board.Holds ticker row) :
    (board.detach ticker).timers = (board.timers.timerSetEnable (place row) false).timerIrqUnregister (place row) ∧
      (board.detach ticker).map = board.map.halTimerReleaseChn row := by
  unfold Holds at held
  simp only [detach, held]
  exact ⟨rfl, rfl⟩

theorem detach_idle {ticker : Nat} {board : Board} (idle : (board.tickers ticker).timer = none) :
    (board.detach ticker).timers = board.timers ∧ (board.detach ticker).map = board.map := by
  simp only [detach, idle]
  exact ⟨rfl, rfl⟩

theorem detach_instances {ticker : Nat} {row : Fin 12} {board : Board} (held : board.Holds ticker row) :
    (board.detach ticker).timers.instances =
      Function.update board.timers.instances (place row) .cleared := by
  rw [(detach_held held).1, Timers.timerIrqUnregister_instances]
  rfl

variable {board : Board}

/-- A row is free in the table exactly when no Ticker holds it. -/
theorem Sound.free_iff (sound : Sound board) (row : Fin 12) :
    board.map.pin row = -1 ↔ ∀ ticker, ¬board.Holds ticker row := by
  obtain ⟨held, consistent, rows⟩ := sound.allocated
  rw [← consistent.free_iff row]
  constructor
  · intro free ticker holds
    exact free.2 ((rows row).mpr ⟨ticker, holds⟩)
  · intro unheld
    refine ⟨nofun, fun member => ?_⟩
    obtain ⟨ticker, holds⟩ := (rows row).mp member
    exact unheld ticker holds

theorem Sound.place_ne (sound : Sound board) {first second : Nat} {left right : Fin 12} (different : first ≠ second)
    (one : board.Holds first left) (other : board.Holds second right) : place left ≠ place right := by
  intro same
  cases place_injective same
  exact different (sound.single first second left one other)

private theorem Sound.detach_allocated (sound : Sound board) (ticker : Nat) :
    ∃ held, Clients.Consistent ⟨(board.detach ticker).map, fun _ => none, held⟩ ∧
      ∀ row, row ∈ held ↔ ∃ other, (board.detach ticker).Holds other row := by
  obtain ⟨held, consistent, rows⟩ := sound.allocated
  cases timer : (board.tickers ticker).timer with
  | none =>
    refine ⟨held, (detach_idle timer).2 ▸ consistent, fun row => ?_⟩
    rw [rows row]
    apply exists_congr
    intro other
    rw [detach_holds]
    refine ⟨fun holds => ⟨fun same => ?_, holds⟩, And.right⟩
    rw [same, Holds, timer] at holds
    cases holds
  | some chn =>
    have member := (rows chn).mpr ⟨ticker, timer⟩
    refine ⟨held.erase chn, (detach_held timer).2 ▸ consistent.releaseChn member, fun row => ?_⟩
    rw [consistent.nodup.mem_erase_iff, rows row]
    constructor
    · intro found
      obtain ⟨different, other, holds⟩ := found
      refine ⟨other, (detach_holds ticker other row board).mpr ⟨fun same => ?_, holds⟩⟩
      rw [same, Holds, timer] at holds
      cases holds
      exact different rfl
    · intro found
      obtain ⟨other, holds⟩ := found
      obtain ⟨different, before⟩ := (detach_holds ticker other row board).mp holds
      refine ⟨fun same => different ?_, other, before⟩
      subst same
      exact sound.single other ticker row before timer

theorem Sound.detach_instance_other (sound : Sound board) {ticker other : Nat} {row : Fin 12} (different : other ≠ ticker)
    (holds : board.Holds other row) :
    (board.detach ticker).timers.instances (place row) = board.timers.instances (place row) := by
  cases timer : (board.tickers ticker).timer with
  | none => rw [(detach_idle timer).1]
  | some chn =>
    rw [detach_instances timer]
    exact Function.update_of_ne (sound.place_ne different holds timer) _ _

theorem Sound.detach (sound : Sound board) (ticker : Nat) : Sound (board.detach ticker) := by
  refine ⟨sound.detach_allocated ticker, ?_, ?_, ?_, ?_, ?_, ?_⟩
  · intro first second row left right
    exact sound.single first second row ((detach_holds _ _ _ _).mp left).2 ((detach_holds _ _ _ _).mp right).2
  · intro other row holds
    obtain ⟨different, before⟩ := (detach_holds _ _ _ _).mp holds
    rw [detach_tickers, Function.update_of_ne different]
    exact sound.action other row before
  · intro other row holds
    obtain ⟨different, before⟩ := (detach_holds _ _ _ _).mp holds
    rw [sound.detach_instance_other different before]
    exact sound.registered other row before
  · intro site unheld
    cases timer : (board.tickers ticker).timer with
    | none =>
      rw [(detach_idle timer).1]
      refine sound.vacant site fun other row holds => unheld other row ((detach_holds _ _ _ _).mpr ⟨fun same => ?_, holds⟩)
      rw [same, Holds, timer] at holds
      cases holds
    | some chn =>
      rw [detach_instances timer]
      by_cases here : site = place chn
      · rw [here, Function.update_self]
        rfl
      · rw [Function.update_of_ne here]
        apply sound.vacant site
        intro other row holds same
        by_cases own : other = ticker
        · rw [own, Holds, timer] at holds
          cases holds
          exact here same.symm
        · exact unheld other row ((detach_holds _ _ _ _).mpr ⟨own, holds⟩) same
  · intro irq ctx line
    apply sound.lines irq ctx
    cases timer : (board.tickers ticker).timer with
    | none => rwa [(detach_idle timer).1] at line
    | some chn =>
      rw [(detach_held timer).1] at line
      by_cases own : irq = getTimerIrqn (place chn)
      · subst own
        rcases Timers.timerIrqUnregister_line_own (place chn) (board.timers.timerSetEnable (place chn) false) with gone | kept
        · rw [gone] at line
          cases line
        · exact kept.symm.trans line
      · rwa [Timers.timerIrqUnregister_line_other _ own] at line
  · intro other row holds
    obtain ⟨_, before⟩ := (detach_holds _ _ _ _).mp holds
    have lit := sound.enabled other row before
    cases timer : (board.tickers ticker).timer with
    | none => rwa [(detach_idle timer).1]
    | some chn =>
      rw [(detach_held timer).1, Timers.timerIrqUnregister_enabled]
      exact lit

/-- Arming an idle Ticker is refused, or takes the lowest free row of the table. -/
theorem Sound.arm_cases (sound : Sound board) (ticker ms : Nat) (again : Bool) (action : Option Nat) :
    board.arm ticker ms again action = board ∧ (ms = 0 ∨ action = none ∨ ∀ row, board.map.pin row ≠ -1) ∨
      ms ≠ 0 ∧ action ≠ none ∧ ∃ row map, board.map.pin row = -1 ∧ (∀ lower < row, board.map.pin lower ≠ -1) ∧
        board.map.halTimerGetFreeChn = (some row, map) ∧ board.arm ticker ms again action =
          board.armed row map (!again) ticker action := by
  obtain ⟨held, consistent, rows⟩ := sound.allocated
  have separate := consistent.separate_untoned fun _ => rfl
  by_cases refused : ms = 0 ∨ action = none
  · refine .inl ⟨by simp only [arm, if_pos refused], ?_⟩
    exact refused.imp_right .inl
  · rcases consistent.getFreeChn_returns separate with
      ⟨none, full⟩ | ⟨index, row, _, absent, free, taken⟩
    · refine .inl ⟨?_, .inr (.inr full)⟩
      dsimp only at none
      simp only [arm, if_neg refused, none]
    · dsimp only at taken free absent
      refine .inr ⟨fun zero => refused (.inl zero), fun null => refused (.inr null), row, _, free, ?_, taken, ?_⟩
      · exact Clients.getFreeChn_lowest separate (congrArg Prod.fst taken)
      · simp only [arm, if_neg refused, taken]

theorem armed_holds (row : Fin 12) (map : ChannelMap) (singleShot : Bool) (ticker : Nat) (action : Option Nat)
    (other : Nat) (held : Fin 12) :
    (board.armed row map singleShot ticker action).Holds other held ↔
      other = ticker ∧ held = row ∨ other ≠ ticker ∧ board.Holds other held := by
  unfold Holds armed setTicker
  by_cases same : other = ticker
  · subst same
    simp [eq_comm]
  · simp [same]

theorem armed_instances (row : Fin 12) (map : ChannelMap) (singleShot : Bool) (ticker : Nat) (action : Option Nat) :
    (board.armed row map singleShot ticker action).timers.instances = Function.update board.timers.instances (place row)
      ⟨(place row).device, (place row).channel, some ticker, singleShot⟩ := rfl

theorem armed_line (row : Fin 12) (map : ChannelMap) (singleShot : Bool) (ticker : Nat) (action : Option Nat) :
    (board.armed row map singleShot ticker action).timers.line =
      Function.update board.timers.line (getTimerIrqn (place row)) (some (place row)) := rfl

private theorem armed_enabled (row : Fin 12) (map : ChannelMap) (singleShot : Bool) (ticker : Nat) (action : Option Nat) :
    (board.armed row map singleShot ticker action).timers.enabled =
      Function.update board.timers.enabled (getTimerIrqn (place row)) true := rfl

private theorem Sound.armed_allocated (sound : Sound board) {ticker : Nat} (idle : (board.tickers ticker).timer = none)
    {row : Fin 12} {map : ChannelMap} (singleShot : Bool) (action : Option Nat)
    (taken : board.map.halTimerGetFreeChn = (some row, map)) :
    ∃ held, Clients.Consistent ⟨(board.armed row map singleShot ticker action).map, fun _ => none, held⟩ ∧
      ∀ chn, chn ∈ held ↔ ∃ other, (board.armed row map singleShot ticker action).Holds other chn := by
  obtain ⟨held, consistent, rows⟩ := sound.allocated
  have next := consistent.getFreeChn (consistent.separate_untoned fun _ => rfl)
  simp only [Clients.getFreeChn, taken] at next
  refine ⟨row :: held, next, fun chn => ?_⟩
  rw [List.mem_cons, rows chn]
  constructor
  · rintro (same | ⟨other, holds⟩)
    · exact ⟨ticker, (armed_holds ..).mpr (.inl ⟨rfl, same⟩)⟩
    · refine ⟨other, (armed_holds ..).mpr (.inr ⟨fun same => ?_, holds⟩)⟩
      rw [same, Holds, idle] at holds
      cases holds
  · intro found
    obtain ⟨other, holds⟩ := found
    rcases (armed_holds ..).mp holds with ⟨_, same⟩ | ⟨_, before⟩
    · exact .inl same
    · exact .inr ⟨other, before⟩

private theorem Sound.armed (sound : Sound board) {ticker : Nat} (idle : (board.tickers ticker).timer = none) {row : Fin 12}
    {map : ChannelMap} (singleShot : Bool) {action : Option Nat} (callable : action ≠ none)
    (free : board.map.pin row = -1) (taken : board.map.halTimerGetFreeChn = (some row, map)) :
    Sound (board.armed row map singleShot ticker action) := by
  have unheld := (sound.free_iff row).mp free
  have elsewhere : ∀ other chn, board.Holds other chn → place chn ≠ place row := by
    intro other chn holds same
    cases place_injective same
    exact unheld other holds
  refine ⟨sound.armed_allocated idle singleShot action taken, ?_, ?_, ?_, ?_, ?_, ?_⟩
  · intro first second chn left right
    rcases (armed_holds ..).mp left with ⟨one, here⟩ | ⟨_, before⟩
    · rcases (armed_holds ..).mp right with ⟨two, _⟩ | ⟨_, other⟩
      · exact one.trans two.symm
      · exact absurd (here ▸ other) (unheld second)
    · rcases (armed_holds ..).mp right with ⟨_, here⟩ | ⟨_, other⟩
      · exact absurd (here ▸ before) (unheld first)
      · exact sound.single first second chn before other
  · intro other chn holds
    rcases (armed_holds ..).mp holds with ⟨same, _⟩ | ⟨different, before⟩
    · subst same
      simpa [Board.armed, setTicker] using Option.isSome_iff_ne_none.mpr callable
    · simpa [Board.armed, setTicker, different] using sound.action other chn before
  · intro other chn holds
    rw [armed_instances]
    rcases (armed_holds ..).mp holds with ⟨rfl, rfl⟩ | ⟨_, before⟩
    · exact ⟨singleShot, Function.update_self _ _ _⟩
    · rw [Function.update_of_ne (elsewhere other chn before)]
      exact sound.registered other chn before
  · intro site unused
    have different : site ≠ place row := fun same => unused ticker row ((armed_holds ..).mpr (.inl ⟨rfl, rfl⟩)) same.symm
    rw [armed_instances, Function.update_of_ne different]
    apply sound.vacant site
    intro other chn holds
    refine unused other chn ((armed_holds ..).mpr (.inr ⟨fun same => ?_, holds⟩))
    rw [same, Holds, idle] at holds
    cases holds
  · intro irq ctx line
    rw [armed_line] at line
    by_cases own : irq = getTimerIrqn (place row)
    · rw [own, Function.update_self] at line
      cases line
      exact own.symm
    · rw [Function.update_of_ne own] at line
      exact sound.lines irq ctx line
  · intro other chn holds
    rw [armed_enabled]
    by_cases own : getTimerIrqn (place chn) = getTimerIrqn (place row)
    · rw [own, Function.update_self]
    · rw [Function.update_of_ne own]
      rcases (armed_holds ..).mp holds with ⟨_, rfl⟩ | ⟨_, before⟩
      · exact absurd rfl own
      · exact sound.enabled other chn before

theorem detach_timer (ticker : Nat) (board : Board) : ((board.detach ticker).tickers ticker).timer = none := by
  rw [detach_tickers, Function.update_self]

private theorem Sound.schedule (sound : Sound board) (ticker ms : Nat) (again : Bool) (action : Option Nat) :
    Sound (board.schedule ticker ms again action) := by
  have detached := sound.detach ticker
  unfold Board.schedule
  rcases detached.arm_cases ticker ms again action with ⟨refused, _⟩ | ⟨_, callable, row, map, free, _, taken, done⟩
  · rw [refused]
    exact detached
  · rw [done]
    exact detached.armed (detach_timer ticker board) (!again) callable free taken

theorem Sound.perform (sound : Sound board) (call : Call) : Sound (perform call board) := by
  cases call with
  | attach ticker ms action => exact sound.schedule ticker ms true action
  | once ticker ms action => exact sound.schedule ticker ms false action
  | detach ticker => exact sound.detach ticker

/-- Soundness is about the table, the Tickers, the instances and the lines. -/
theorem Sound.congr {after : Board} (sound : Sound board) (map : after.map = board.map)
    (tickers : after.tickers = board.tickers) (instances : after.timers.instances = board.timers.instances)
    (line : after.timers.line = board.timers.line) (enabled : after.timers.enabled = board.timers.enabled) :
    Sound after := by
  have holds : ∀ ticker row, after.Holds ticker row ↔ board.Holds ticker row := by
    intro ticker row
    unfold Holds
    rw [tickers]
  constructor
  · simpa only [map, holds] using sound.allocated
  · simpa only [holds] using sound.single
  · simpa only [holds, tickers] using sound.action
  · simpa only [holds, instances] using sound.registered
  · simpa only [holds, instances] using sound.vacant
  · simpa only [line] using sound.lines
  · simpa only [holds, enabled] using sound.enabled

theorem Sound.run (sound : Sound board) (calls : List Call) : Sound (Run.run Board.perform calls board) := by
  induction calls generalizing board with
  | nil => exact sound
  | cons call calls ih => exact ih (sound.perform call)

private theorem Sound.fired (sound : Sound board) (body : Nat → List Call) (ticker : Nat) : Sound (board.fired body ticker) := by
  unfold Board.fired
  split
  next action _ =>
    have logged : Sound { board with calls := board.calls ++ [(ticker, action)] } := sound.congr rfl rfl rfl rfl rfl
    exact logged.run _
  · exact sound

private theorem Sound.callback (sound : Sound board) (body : Nat → List Call) (site : Place) :
    Sound (board.callback body site) := by
  unfold Board.callback
  split
  · exact sound
  next ticker _ =>
    have marked : Sound (board.markSpent ticker (board.timers.instances site).singleShot) :=
      sound.congr rfl rfl rfl rfl rfl
    have ran := marked.fired body ticker
    dsimp only
    split
    · exact ran.congr rfl rfl rfl rfl rfl
    · exact ran

theorem Sound.serve (sound : Sound board) (body : Nat → List Call) (site : Place) (stat : BitVec 32) :
    Sound (board.serve body site stat) := by
  unfold Board.serve
  split
  · exact (sound.callback body site).congr rfl rfl rfl rfl rfl
  · exact sound

end Board
end ArduinoK210.Timer
