import ArduinoK210.Timer.Ticker

/-! Scheduling from inside a callback. The handler checks for a one-shot after the
callback has run, on whatever the channel's instance holds by then: a one-shot that
the callback itself armed on the firing channel is stopped before it ever fires. -/

namespace ArduinoK210.Timer.Board

variable {board : Board}

/-- The channel of a row, its holder and its instance are as they were. -/
structure Untouched (ticker : Nat) (row : Fin 12) (before after : Board) : Prop where
  tickers : after.tickers ticker = before.tickers ticker
  spent : after.spent ticker = before.spent ticker
  instances : after.timers.instances (place row) = before.timers.instances (place row)
  control : after.timers.control (place row) = before.timers.control (place row)

private theorem Untouched.trans {ticker : Nat} {row : Fin 12} {before middle after : Board}
    (first : Untouched ticker row before middle) (last : Untouched ticker row middle after) :
    Untouched ticker row before after :=
  ⟨last.tickers.trans first.tickers, last.spent.trans first.spent, last.instances.trans first.instances,
    last.control.trans first.control⟩

private theorem Untouched.enable {ticker : Nat} {row : Fin 12} {before after : Board}
    (same : Untouched ticker row before after) :
    after.timers.timerIsEnable (place row) = before.timers.timerIsEnable (place row) := by
  unfold Timers.timerIsEnable
  rw [same.control]

private theorem Untouched.holds {ticker : Nat} {row : Fin 12} {before after : Board}
    (same : Untouched ticker row before after) : after.Holds ticker row ↔ before.Holds ticker row := by
  unfold Holds
  rw [same.tickers]

private theorem Sound.detach_untouched (sound : Sound board) {ticker other : Nat} {row : Fin 12} (different : other ≠ ticker)
    (holds : board.Holds other row) : Untouched other row board (board.detach ticker) := by
  refine ⟨?_, ?_, sound.detach_instance_other different holds, ?_⟩
  · rw [detach_tickers, Function.update_of_ne different]
  · rw [detach_spent, Function.update_of_ne different]
  · cases timer : (board.tickers ticker).timer with
    | none => rw [(detach_idle timer).1]
    | some left =>
      rw [(detach_held timer).1, Timers.timerIrqUnregister_control]
      exact Function.update_of_ne (sound.place_ne different holds timer) _ _

private theorem armed_control (row : Fin 12) (map : ChannelMap) (singleShot : Bool) (ticker : Nat) (action : Option Nat) :
    (board.armed row map singleShot ticker action).timers.control =
      Function.update (Function.update board.timers.control (place row) Timers.timerCrInterruptMask) (place row)
        (Timers.timerCrUserMode ||| Timers.timerCrEnable) := rfl

private theorem armed_untouched {ticker other : Nat} {left row : Fin 12} {map : ChannelMap} {singleShot : Bool}
    {action : Option Nat} (different : other ≠ ticker) (elsewhere : row ≠ left) :
    Untouched other row board (board.armed left map singleShot ticker action) := by
  have apart : place row ≠ place left := fun same => elsewhere (place_injective same)
  refine ⟨Function.update_of_ne different _ _, Function.update_of_ne different _ _, ?_, ?_⟩
  · rw [armed_instances, Function.update_of_ne apart]
  · rw [armed_control, Function.update_of_ne apart, Function.update_of_ne apart]

private theorem Sound.schedule_untouched (sound : Sound board) {ticker other : Nat} {row : Fin 12} (different : other ≠ ticker)
    (holds : board.Holds other row) (ms : Nat) (again : Bool) (action : Option Nat) :
    Untouched other row board (board.schedule ticker ms again action) := by
  have first := sound.detach_untouched different holds
  unfold Board.schedule
  rcases (sound.detach ticker).arm_cases ticker ms again action with ⟨refused, _⟩ | ⟨_, _, left, map, free, _, _, done⟩
  · rw [refused]
    exact first
  · rw [done]
    have elsewhere : row ≠ left := by
      intro same
      subst same
      exact ((sound.detach ticker).free_iff row).mp free other (first.holds.mpr holds)
    exact first.trans (armed_untouched different elsewhere)

/-- A call leaves the channels of other Tickers alone. -/
theorem Sound.perform_untouched (sound : Sound board) {call : Call} {other : Nat} {row : Fin 12}
    (different : call.ticker ≠ other) (holds : board.Holds other row) :
    Untouched other row board (Board.perform call board) := by
  cases call with
  | attach ticker ms action => exact sound.schedule_untouched (Ne.symm different) holds ms true action
  | once ticker ms action => exact sound.schedule_untouched (Ne.symm different) holds ms false action
  | detach ticker => exact sound.detach_untouched (Ne.symm different) holds

private theorem perform_tickers_other (call : Call) {other : Nat} (different : call.ticker ≠ other) (sound : Sound board) :
    (perform call board).tickers other = board.tickers other := by
  have detached : ∀ ticker, ticker ≠ other → (board.detach ticker).tickers other = board.tickers other := by
    intro ticker apart
    rw [detach_tickers, Function.update_of_ne (Ne.symm apart)]
  have scheduled : ∀ ticker ms again action, ticker ≠ other →
      (board.schedule ticker ms again action).tickers other = board.tickers other := by
    intro ticker ms again action apart
    unfold schedule
    rcases (sound.detach ticker).arm_cases ticker ms again action with ⟨refused, _⟩ | ⟨_, _, left, map, _, _, _, done⟩
    · rw [refused]
      exact detached ticker apart
    · rw [done]
      exact (Function.update_of_ne (Ne.symm apart) _ _).trans (detached ticker apart)
  cases call with
  | attach ticker ms action => exact scheduled ticker ms true action different
  | once ticker ms action => exact scheduled ticker ms false action different
  | detach ticker => exact detached ticker different

/-- The Ticker of a call holds a channel afterwards only if it was armed on it, and
then the channel is running with a fresh instance. -/
theorem Sound.schedule_own (sound : Sound board) {ticker ms : Nat} {again : Bool} {action : Option Nat} {row : Fin 12}
    (holds : (board.schedule ticker ms again action).Holds ticker row) :
    (board.schedule ticker ms again action).spent ticker = false ∧
      (board.schedule ticker ms again action).timers.timerIsEnable (place row) = true ∧
      ((board.schedule ticker ms again action).timers.instances (place row)).singleShot = !again := by
  unfold Board.schedule at holds ⊢
  rcases (sound.detach ticker).arm_cases ticker ms again action with ⟨refused, _⟩ | ⟨_, _, left, map, _, _, _, done⟩
  · rw [refused] at holds
    exact absurd rfl ((detach_holds ..).mp holds).1
  · rw [done] at holds ⊢
    rcases (armed_holds ..).mp holds with ⟨_, rfl⟩ | ⟨different, _⟩
    · refine ⟨Function.update_self _ _ _, ?_, ?_⟩
      · simp only [Timers.timerIsEnable, armed_control, Function.update_self]
        decide
      · rw [armed_instances, Function.update_self]
    · exact absurd rfl different

/-- The holder of a row has its channel running until it fires as a one-shot, and
stopped after that; an exempt channel may be running still. -/
def Obeys (exempt : Place → Prop) (board : Board) : Prop :=
  ∀ ticker row, board.Holds ticker row →
    (board.spent ticker = false → board.timers.timerIsEnable (place row) = true) ∧
      (board.spent ticker = true → (board.timers.instances (place row)).singleShot = true ∧
        (¬exempt (place row) → board.timers.timerIsEnable (place row) = false))

def Lively (board : Board) : Prop := Obeys (fun _ => False) board

private theorem Sound.schedule_obeys (sound : Sound board) {exempt : Place → Prop} {ticker ms : Nat} {again : Bool}
    {action : Option Nat} {row : Fin 12} (holds : (board.schedule ticker ms again action).Holds ticker row) :
    ((board.schedule ticker ms again action).spent ticker = false →
        (board.schedule ticker ms again action).timers.timerIsEnable (place row) = true) ∧
      ((board.schedule ticker ms again action).spent ticker = true →
        ((board.schedule ticker ms again action).timers.instances (place row)).singleShot = true ∧
          (¬exempt (place row) → (board.schedule ticker ms again action).timers.timerIsEnable (place row) = false)) := by
  obtain ⟨fresh, running, _⟩ := sound.schedule_own holds
  refine ⟨fun _ => running, fun spent => ?_⟩
  rw [fresh] at spent
  cases spent

private theorem Sound.perform_obeys (sound : Sound board) {exempt : Place → Prop} (obeys : Obeys exempt board) (call : Call) :
    Obeys exempt (Board.perform call board) := by
  intro ticker row holds
  by_cases own : call.ticker = ticker
  · subst own
    cases call with
    | attach ticker ms action => exact sound.schedule_obeys holds
    | once ticker ms action => exact sound.schedule_obeys holds
    | detach ticker => exact absurd rfl ((detach_holds ..).mp holds).1
  · have before : board.Holds ticker row := by
      unfold Holds at holds ⊢
      rwa [perform_tickers_other call own sound] at holds
    have same := sound.perform_untouched own before
    rw [same.spent, same.enable, same.instances]
    exact obeys ticker row before

private theorem Sound.run_obeys (sound : Sound board) {exempt : Place → Prop} (obeys : Obeys exempt board) (calls : List Call) :
    Obeys exempt (Run.run Board.perform calls board) := by
  induction calls generalizing board with
  | nil => exact obeys
  | cons call calls ih => exact ih (sound.perform call) (sound.perform_obeys obeys call)

private theorem Sound.run_untouched (sound : Sound board) {calls : List Call} {other : Nat} {row : Fin 12}
    (different : ∀ call ∈ calls, call.ticker ≠ other) (holds : board.Holds other row) :
    Untouched other row board (Run.run Board.perform calls board) := by
  induction calls generalizing board with
  | nil => exact ⟨rfl, rfl, rfl, rfl⟩
  | cons call calls ih =>
    have first := sound.perform_untouched (different call (by simp)) holds
    exact first.trans (ih (sound.perform call) (fun later member => different later (by simp [member]))
      (first.holds.mpr holds))

/-- Among the calls, the last one on the Ticker is a `once` that obtains the row. -/
def ArmsOnce (ticker : Nat) (row : Fin 12) (calls : List Call) (board : Board) : Prop :=
  ∃ earlier ms action later, calls = earlier ++ .once ticker ms action :: later ∧
    (∀ call ∈ later, call.ticker ≠ ticker) ∧
    (Run.run perform (earlier ++ [.once ticker ms action]) board).Holds ticker row

/-- A fresh one-shot found on a row after some calls was armed by them, or it was
there before and no call touched it. -/
theorem Sound.fresh_cases (sound : Sound board) {ticker : Nat} {row : Fin 12} (calls : List Call)
    (holds : (Run.run Board.perform calls board).Holds ticker row)
    (shot : ((Run.run Board.perform calls board).timers.instances (place row)).singleShot = true)
    (fresh : (Run.run Board.perform calls board).spent ticker = false) :
    ArmsOnce ticker row calls board ∨ board.Holds ticker row ∧
      (board.timers.instances (place row)).singleShot = true ∧ board.spent ticker = false := by
  induction calls using List.reverseRecOn with
  | nil => exact .inr ⟨holds, shot, fresh⟩
  | append_singleton calls call ih =>
    have middle := sound.run calls
    by_cases own : call.ticker = ticker
    · rw [Run.run_append] at holds shot
      subst own
      cases call with
      | attach ticker ms action =>
        have repeats := (middle.schedule_own holds).2.2
        exact absurd (repeats.symm.trans shot) (by simp)
      | once ticker ms action =>
        refine .inl ⟨calls, ms, action, [], rfl, by simp, ?_⟩
        rw [Run.run_append]
        exact holds
      | detach ticker => exact absurd rfl ((detach_holds ..).mp holds).1
    · rw [Run.run_append] at holds shot fresh
      have before : (Run.run Board.perform calls board).Holds ticker row := by
        unfold Holds at holds ⊢
        exact (congrArg Ticker.timer (perform_tickers_other call own middle)).symm.trans holds
      have same := middle.perform_untouched own before
      rcases ih before (same.instances ▸ shot) (same.spent ▸ fresh) with
        ⟨earlier, ms, action, later, parts, last, obtained⟩ | untouched
      · refine .inl ⟨earlier, ms, action, later ++ [call], by simp [parts], ?_, obtained⟩
        intro next member
        rcases List.mem_append.mp member with early | late
        · exact last next early
        · exact List.mem_singleton.mp late ▸ own
      · exact .inr untouched

private theorem Sound.armsOnce_fresh (sound : Sound board) {ticker : Nat} {row : Fin 12} {calls : List Call}
    (arms : ArmsOnce ticker row calls board) :
    (Run.run Board.perform calls board).Holds ticker row ∧
      ((Run.run Board.perform calls board).timers.instances (place row)).singleShot = true ∧
      (Run.run Board.perform calls board).spent ticker = false := by
  obtain ⟨earlier, ms, action, later, parts, last, obtained⟩ := arms
  have whole : Run.run Board.perform calls board =
      Run.run Board.perform later (Run.run Board.perform (earlier ++ [.once ticker ms action]) board) := by
    rw [parts, ← Run.run_append, List.append_assoc]
    rfl
  have same := (sound.run (earlier ++ [.once ticker ms action])).run_untouched last obtained
  have own : ((Run.run Board.perform (earlier ++ [.once ticker ms action]) board).spent ticker = false) ∧
      ((Run.run Board.perform (earlier ++ [.once ticker ms action]) board).timers.instances
        (place row)).singleShot = true := by
    rw [Run.run_append] at obtained ⊢
    obtain ⟨fresh, _, shot⟩ := (sound.run earlier).schedule_own obtained
    exact ⟨fresh, shot⟩
  rw [whole, same.holds, same.instances, same.spent]
  exact ⟨obtained, own.2, own.1⟩

/-- Calls read neither `spent` nor the log. -/
theorem perform_ghost (call : Call) (board : Board) (spent : Nat → Bool) (log : List (Nat × Nat)) :
    ∃ spent' log', perform call { board with spent, calls := log } =
      { perform call board with spent := spent', calls := log' } := by
  have detached : ∀ ticker, ∃ spent' log', detach ticker { board with spent, calls := log } =
      { board.detach ticker with spent := spent', calls := log' } := by
    intro ticker
    unfold detach
    dsimp only
    split <;> exact ⟨_, _, rfl⟩
  have scheduled : ∀ ticker ms again action, ∃ spent' log',
      schedule ticker ms again action { board with spent, calls := log } =
        { board.schedule ticker ms again action with spent := spent', calls := log' } := by
    intro ticker ms again action
    obtain ⟨spent', log', same⟩ := detached ticker
    unfold schedule
    rw [same]
    unfold arm
    dsimp only
    split
    · exact ⟨_, _, rfl⟩
    · split <;> exact ⟨_, _, rfl⟩
  cases call with
  | attach ticker ms action => exact scheduled ticker ms true action
  | once ticker ms action => exact scheduled ticker ms false action
  | detach ticker => exact detached ticker

private theorem run_ghost (calls : List Call) (board : Board) (spent : Nat → Bool) (log : List (Nat × Nat)) :
    ∃ spent' log', Run.run perform calls { board with spent, calls := log } =
      { Run.run perform calls board with spent := spent', calls := log' } := by
  induction calls generalizing board spent log with
  | nil => exact ⟨spent, log, rfl⟩
  | cons call calls ih =>
    obtain ⟨spent', log', first⟩ := perform_ghost call board spent log
    simp only [Run.run, first]
    exact ih (perform call board) spent' log'

private theorem armsOnce_ghost {ticker : Nat} {row : Fin 12} {calls : List Call} (board : Board) (spent : Nat → Bool)
    (log : List (Nat × Nat)) :
    ArmsOnce ticker row calls { board with spent, calls := log } ↔ ArmsOnce ticker row calls board := by
  unfold ArmsOnce
  have same : ∀ part, (Run.run perform part { board with spent, calls := log }).Holds ticker row ↔
      (Run.run perform part board).Holds ticker row := by
    intro part
    obtain ⟨_, _, equal⟩ := run_ghost part board spent log
    rw [equal]
    exact Iff.rfl
  simp only [same]

/-- The callback of a channel does not arm a one-shot on that very channel. -/
def Keeps (body : Nat → List Call) (site : Place) (board : Board) : Prop :=
  ∀ ticker action row other, (board.timers.instances site).callback = some ticker →
    (board.tickers ticker).action = some action → place row = site → ¬ArmsOnce other row (body action) board

private theorem Sound.holder (sound : Sound board) {site : Place} {ticker : Nat}
    (called : (board.timers.instances site).callback = some ticker) : ∃ row, board.Holds ticker row ∧ place row = site := by
  by_contra missing
  have vacant := sound.vacant site fun other row holds here => by
    obtain ⟨_, registered⟩ := sound.registered other row holds
    rw [here] at registered
    rw [registered] at called
    cases called
    exact missing ⟨row, holds, here⟩
  rw [called] at vacant
  cases vacant

/-- The state in which the calls of a callback start. -/
def entered (site : Place) (ticker action : Nat) (board : Board) : Board :=
  { board.markSpent ticker (board.timers.instances site).singleShot with calls := board.calls ++ [(ticker, action)] }

private theorem entered_spent_other {site : Place} {ticker action other : Nat} (different : other ≠ ticker) :
    (board.entered site ticker action).spent other = board.spent other := Function.update_of_ne different _ _

private theorem entered_spent (site : Place) (ticker action : Nat) (board : Board) :
    (board.entered site ticker action).spent ticker =
      (board.spent ticker || (board.timers.instances site).singleShot) := Function.update_self _ _ _

private theorem callback_eq (body : Nat → List Call) {site : Place} {ticker action : Nat}
    (called : (board.timers.instances site).callback = some ticker)
    (callable : (board.tickers ticker).action = some action) :
    board.callback body site =
      if ((Run.run perform (body action) (board.entered site ticker action)).timers.instances site).singleShot then
        { Run.run perform (body action) (board.entered site ticker action) with
          timers := (Run.run perform (body action) (board.entered site ticker action)).timers.timerSetEnable site false }
      else Run.run perform (body action) (board.entered site ticker action) := by
  simp only [callback, called, fired, markSpent, callable]
  rfl

private theorem Lively.entered (lively : Lively board) {ticker : Nat} {row : Fin 12}
    (holds : board.Holds ticker row) (action : Nat) :
    Obeys (fun site => site = place row) (board.entered (place row) ticker action) := by
  intro other chn held
  obtain ⟨running, stopped⟩ := lively other chn held
  by_cases own : other = ticker
  · subst own
    cases Option.some.inj (Eq.trans (Eq.symm held) holds)
    refine ⟨fun fresh => ?_, fun spent => ⟨?_, fun apart => absurd rfl apart⟩⟩
    · rw [entered_spent, Bool.or_eq_false_iff] at fresh
      exact running fresh.1
    · rw [entered_spent, Bool.or_eq_true_iff] at spent
      exact spent.elim (fun before => (stopped before).1) id
  · rw [entered_spent_other own]
    exact ⟨running, fun spent => ⟨(stopped spent).1, fun _ => (stopped spent).2 id⟩⟩

private theorem timerIsEnable_stopped (site : Place) (timers : Timers) :
    (timers.timerSetEnable site false).timerIsEnable site = false := by
  simp only [Timers.timerIsEnable, Timers.timerSetEnable, Function.update_self]
  decide

private theorem timerIsEnable_elsewhere {site other : Place} (timers : Timers) (different : other ≠ site) :
    (timers.timerSetEnable site false).timerIsEnable other = timers.timerIsEnable other := by
  simp only [Timers.timerIsEnable, Timers.timerSetEnable, Function.update_of_ne different]

/-- The check after the callback puts the exempt channel right, unless a fresh
one-shot stands on it. -/
theorem lively_after_check {site : Place} (obeys : Obeys (fun other => other = site) board)
    (settled : ∀ ticker row, board.Holds ticker row → place row = site →
      (board.timers.instances site).singleShot = true → board.spent ticker = true) :
    Lively (if (board.timers.instances site).singleShot then
      { board with timers := board.timers.timerSetEnable site false } else board) := by
  split
  next shot =>
    intro ticker row holds
    obtain ⟨running, stopped⟩ := obeys ticker row holds
    by_cases here : place row = site
    · have spent := settled ticker row holds here shot
      refine ⟨fun fresh => ?_, fun _ => ⟨(stopped spent).1, fun _ => ?_⟩⟩
      · exact absurd (spent.symm.trans fresh) (by simp)
      · rw [here]
        exact timerIsEnable_stopped site board.timers
    · rw [timerIsEnable_elsewhere board.timers here]
      exact ⟨running, fun spent => ⟨(stopped spent).1, fun _ => (stopped spent).2 here⟩⟩
  next repeats =>
    intro ticker row holds
    obtain ⟨running, stopped⟩ := obeys ticker row holds
    refine ⟨running, fun spent => ⟨(stopped spent).1, fun _ => (stopped spent).2 fun here => ?_⟩⟩
    exact repeats (here ▸ (stopped spent).1)

/-- A callback leaves the Tickers as they should be exactly when it arms no one-shot
on the channel it was called for. -/
theorem Sound.callback_lively_iff (sound : Sound board) (lively : Lively board) (body : Nat → List Call) (site : Place) :
    Lively (board.callback body site) ↔ Keeps body site board := by
  cases called : (board.timers.instances site).callback with
  | none =>
    have same : board.callback body site = board := by simp only [Board.callback, called]
    rw [same]
    apply iff_of_true lively
    intro ticker action row other registered
    rw [called] at registered
    cases registered
  | some ticker =>
    obtain ⟨row, holds, rfl⟩ := sound.holder called
    obtain ⟨action, callable⟩ := Option.isSome_iff_exists.mp (sound.action ticker row holds)
    have start : Sound (board.entered (place row) ticker action) := sound.congr rfl rfl rfl rfl rfl
    have obeys := start.run_obeys (lively.entered holds action) (body action)
    rw [callback_eq body called callable]
    constructor
    · intro after owner known chn other registered callable' here arms
      cases place_injective here
      cases Option.some.inj (called.symm.trans registered)
      cases Option.some.inj (callable.symm.trans callable')
      obtain ⟨held, shot, fresh⟩ := start.armsOnce_fresh ((armsOnce_ghost board _ _).mpr arms)
      rw [if_pos shot] at after
      have running := (after other row held).1 fresh
      rw [timerIsEnable_stopped] at running
      cases running
    · intro keeps
      apply lively_after_check obeys
      intro other chn held here shot
      cases place_injective here
      by_contra unspent
      rcases start.fresh_cases (body action) held shot (Bool.not_eq_true _ ▸ unspent) with arms | ⟨before, single, fresh⟩
      · exact keeps ticker action row other called callable rfl ((armsOnce_ghost board _ _).mp arms)
      · cases sound.single other ticker row before holds
        rw [entered_spent, Bool.or_eq_false_iff] at fresh
        exact absurd (fresh.2.symm.trans single) (by simp)

private theorem Lively.congr {after : Board} (lively : Lively board) (tickers : after.tickers = board.tickers)
    (spent : after.spent = board.spent) (instances : after.timers.instances = board.timers.instances)
    (control : after.timers.control = board.timers.control) : Lively after := by
  intro ticker row holds
  simp only [Holds, Timers.timerIsEnable, tickers, spent, instances, control] at holds ⊢
  exact lively ticker row holds

private theorem Sound.serve_lively (sound : Sound board) (lively : Lively board) {body : Nat → List Call} {site : Place}
    {stat : BitVec 32} (keeps : stat &&& 1 ≠ 0 → Keeps body site board) : Lively (board.serve body site stat) := by
  unfold Board.serve
  split
  next pending => exact ((sound.callback_lively_iff lively body site).mpr (keeps pending)).congr rfl rfl rfl rfl
  next => exact lively

inductive Event where
  | call (call : Call)
  | expire (site : Place)
  | interrupt (ctx : Place) (body : Nat → List Call)

def step : Event → Board → Board
  | .call call, board => perform call board
  | .expire site, board => { board with timers := board.timers.expire site }
  | .interrupt ctx body, board => board.timerInterruptHandler body ctx

/-- No callback that the handler runs arms a one-shot on the channel it was called for. -/
def Calm : Event → Board → Prop
  | .call _, _ | .expire _, _ => True
  | .interrupt ctx body, board =>
    let device := (board.timers.instances ctx).device
    let low := pairLow (board.timers.instances ctx).channel
    let high := pairHigh (board.timers.instances ctx).channel
    let stat := board.timers.intrStat device >>> low.val
    (stat &&& 1 ≠ 0 → Keeps body ⟨device, low⟩ board) ∧
      (stat >>> 1 &&& 1 ≠ 0 → Keeps body ⟨device, high⟩ (board.serve body ⟨device, low⟩ stat))

private theorem step_lively (event : Event) (board : Board) (before : Sound board ∧ Lively board) (calm : Calm event board) :
    Sound (step event board) ∧ Lively (step event board) := by
  obtain ⟨sound, lively⟩ := before
  cases event with
  | call call => exact ⟨sound.perform call, sound.perform_obeys lively call⟩
  | expire site => exact ⟨sound.congr rfl rfl rfl rfl rfl, lively.congr rfl rfl rfl rfl⟩
  | interrupt ctx body =>
    have first := sound.serve_lively lively calm.1
    exact ⟨(sound.serve body _ _).serve body _ _, (sound.serve body _ _).serve_lively first calm.2⟩

/-- In every run whose callbacks arm no one-shot on the channel they were called for,
a Ticker that holds a channel is registered on it, has it running while it has not
fired as a one-shot, and has it stopped once it has. A further callback keeps that so
exactly when it, too, arms no one-shot on its channel. -/
theorem rearm_from_callback (fpioa : Gpio.Fpioa) (events : List Event)
    (guarded : Run.Guarded step Calm events (initial fpioa)) :
    (∀ ticker row, (Run.run step events (initial fpioa)).Holds ticker row →
      ((Run.run step events (initial fpioa)).timers.instances (place row)).callback = some ticker ∧
        ((Run.run step events (initial fpioa)).spent ticker = false →
          (Run.run step events (initial fpioa)).timers.timerIsEnable (place row) = true) ∧
        ((Run.run step events (initial fpioa)).spent ticker = true →
          (Run.run step events (initial fpioa)).timers.timerIsEnable (place row) = false)) ∧
      ∀ body site, Lively ((Run.run step events (initial fpioa)).callback body site) ↔
        Keeps body site (Run.run step events (initial fpioa)) := by
  have unarmed : Lively (initial fpioa) := by
    intro ticker row holds
    cases holds
  obtain ⟨sound, lively⟩ := guarded.invariant step_lively ⟨initial_sound fpioa, unarmed⟩
  refine ⟨fun ticker row holds => ?_, sound.callback_lively_iff lively⟩
  obtain ⟨shot, registered⟩ := sound.registered ticker row holds
  obtain ⟨running, stopped⟩ := lively ticker row holds
  exact ⟨by rw [registered], running, fun spent => (stopped spent).2 id⟩

private theorem armsOnce_mem {ticker : Nat} {row : Fin 12} {calls : List Call} (arms : ArmsOnce ticker row calls board) :
    ∃ ms action, Call.once ticker ms action ∈ calls := by
  obtain ⟨earlier, ms, action, later, parts, _⟩ := arms
  exact ⟨ms, action, by simp [parts]⟩

/-- A one-shot whose callback arms its Ticker again, as a repeating one. -/
theorem rearm_from_callback_as_repeating :
    (Run.run step [.call (.once 0 100 (some 7)), .expire ⟨0, 0⟩, .interrupt ⟨0, 0⟩ fun _ => [.attach 0 10 (some 8)]]
      (initial ⟨fun _ => 0, fun _ => 0⟩)).timers.timerIsEnable (place 0) = true := by
  refine ((rearm_from_callback ⟨fun _ => 0, fun _ => 0⟩ [.call (.once 0 100 (some 7)), .expire ⟨0, 0⟩,
    .interrupt ⟨0, 0⟩ fun _ => [.attach 0 10 (some 8)]] ?_).1 0 0 (by decide)).2.1 (by decide)
  refine ⟨trivial, trivial, ⟨fun _ ticker action row other _ _ _ arms => ?_, fun pending => ?_⟩, trivial⟩
  · obtain ⟨ms, callable, member⟩ := armsOnce_mem arms
    simp at member
  · exact absurd pending (by decide)

/-- A one-shot whose callback arms its Ticker again, as a one-shot: the Ticker holds
channel 0 and has not fired since, and the channel is stopped. -/
theorem handler_stops_rearmed_one_shot :
    let board := Run.run step [.call (.once 0 100 (some 7)), .expire ⟨0, 0⟩,
      .interrupt ⟨0, 0⟩ fun _ => [.once 0 10 (some 7)]] (initial ⟨fun _ => 0, fun _ => 0⟩)
    board.Holds 0 0 ∧ board.spent 0 = false ∧ board.timers.timerIsEnable (place 0) = false := by
  decide

end ArduinoK210.Timer.Board
