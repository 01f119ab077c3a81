import ArduinoK210.Timer.Ticker

/-! Delivery of a Ticker's interrupt. A Ticker is served when the line of its
channel is registered with a context that still names the channel's own timer and
pair; a Ticker that leaves can take both from its partner on the line. -/

namespace ArduinoK210.Timer.Board

variable {board : Board}

/-- The line of the row is registered with a context that names its timer and pair. -/
def ServedBy (ctx : Place) (row : Fin 12) (board : Board) : Prop :=
  board.timers.line (getTimerIrqn (place row)) = some ctx ∧
    (board.timers.instances ctx).device = (place row).device ∧
    (board.timers.instances ctx).channel.val / 2 = (place row).channel.val / 2

def Delivered (board : Board) : Prop := ∀ ticker row, board.Holds ticker row → ∃ ctx, board.ServedBy ctx row

/-- When the Ticker shares its line with another one, the timer's other line is in
use too, and the line's context is the other channel, or the cleared instance that
it is about to become names timer 0 and its first pair by accident. -/
def Spares (ticker : Nat) (board : Board) : Prop :=
  ∀ row other shared, board.Holds ticker row → board.Holds other shared → other ≠ ticker →
    getTimerIrqn (place shared) = getTimerIrqn (place row) →
    board.timers.OtherPair (place row) ∧
      (board.timers.line (getTimerIrqn (place row)) = some (place row) → getTimerIrqn (place row) = irqnTimer0A)

/-- Scheduling detaches first, and repairs what that breaks when the allocator
gives the Ticker its old row again: every row below it is taken. -/
def Undisturbed : Call → Board → Prop
  | .detach ticker, board => Spares ticker board
  | .attach ticker ms action, board | .once ticker ms action, board =>
    Spares ticker board ∨
      ms ≠ 0 ∧ action ≠ none ∧ ∀ row, board.Holds ticker row → ∀ lower < row, board.map.pin lower ≠ -1

private theorem servedBy_irqn {ctx : Place} {row : Fin 12} :
    board.ServedBy ctx row ↔ board.timers.line (getTimerIrqn (place row)) = some ctx ∧
      getTimerIrqn ⟨(board.timers.instances ctx).device, (board.timers.instances ctx).channel⟩ =
        getTimerIrqn (place row) := by
  rw [getTimerIrqn_eq_iff]
  rfl

theorem Sound.detach_elsewhere (sound : Sound board) {ticker : Nat} {row other : Fin 12} (held : board.Holds ticker row)
    (apart : getTimerIrqn (place other) ≠ getTimerIrqn (place row)) (ctx : Place) :
    (board.detach ticker).ServedBy ctx other ↔ board.ServedBy ctx other := by
  have line : (board.detach ticker).timers.line (getTimerIrqn (place other)) =
      board.timers.line (getTimerIrqn (place other)) := by
    rw [(detach_held held).1, Timers.timerIrqUnregister_line_other _ apart]
    rfl
  unfold ServedBy
  rw [line]
  apply and_congr_right
  intro registered
  have different : ctx ≠ place row := by
    intro same
    subst same
    exact apart (sound.lines _ _ registered).symm
  rw [detach_instances held, Function.update_of_ne different]

/-- On its own line, a Ticker that leaves spares its partner exactly under the two
conditions of `Spares`. -/
theorem Sound.detach_shared (sound : Sound board) {ticker other : Nat} {row shared : Fin 12}
    (held : board.Holds ticker row) (holds : board.Holds other shared) (different : other ≠ ticker)
    (pair : getTimerIrqn (place shared) = getTimerIrqn (place row)) (served : ∃ ctx, board.ServedBy ctx shared) :
    (∃ ctx, (board.detach ticker).ServedBy ctx shared) ↔ board.timers.OtherPair (place row) ∧
      (board.timers.line (getTimerIrqn (place row)) = some (place row) → getTimerIrqn (place row) = irqnTimer0A) := by
  obtain ⟨ctx, before⟩ := served
  obtain ⟨registered, named⟩ := servedBy_irqn.mp before
  rw [pair] at registered named
  have apart := sound.place_ne different holds held
  have live : ((board.timers.timerSetEnable (place row) false).instances (place shared)).callback.isSome := by
    obtain ⟨_, same⟩ := sound.registered other shared holds
    exact (congrArg (fun i : Instance => i.callback.isSome) same).trans rfl
  obtain ⟨kept, dropped⟩ := Timers.timerIrqUnregister_line_shared apart pair live
  by_cases used : board.timers.OtherPair (place row)
  · have line : (board.detach ticker).timers.line (getTimerIrqn (place row)) = some ctx := by
      rw [(detach_held held).1, kept used]
      exact registered
    simp only [servedBy_irqn, pair, line, detach_instances held, used, true_and, registered, Option.some.injEq,
      exists_eq_left']
    by_cases own : ctx = place row
    · subst own
      simp only [Function.update_self, forall_const]
      exact eq_comm
    · simp only [Function.update_of_ne own, own, false_implies, iff_true]
      exact named
  · have line : (board.detach ticker).timers.line (getTimerIrqn (place row)) = none := by
      rw [(detach_held held).1]
      exact dropped used
    simp [servedBy_irqn, pair, line, used]

/-- After a detach a row that is still held is served as before, its line apart. -/
theorem Sound.detach_served_iff (sound : Sound board) (delivered : Delivered board) (ticker : Nat) {other : Nat}
    {row : Fin 12} (different : other ≠ ticker) (holds : board.Holds other row) :
    (∃ ctx, (board.detach ticker).ServedBy ctx row) ↔
      ∀ left, board.Holds ticker left → getTimerIrqn (place row) = getTimerIrqn (place left) →
        board.timers.OtherPair (place left) ∧
          (board.timers.line (getTimerIrqn (place left)) = some (place left) →
            getTimerIrqn (place left) = irqnTimer0A) := by
  have before := delivered other row holds
  cases timer : (board.tickers ticker).timer with
  | none =>
    have untouched : (board.detach ticker).timers = board.timers := (detach_idle timer).1
    refine ⟨fun _ left held => ?_, fun _ => ?_⟩
    · rw [Holds, timer] at held
      cases held
    · unfold ServedBy
      rw [untouched]
      exact before
  | some left =>
    have only : ∀ held, board.Holds ticker held → held = left := fun held same =>
      (Option.some.inj (timer.symm.trans same)).symm
    by_cases pair : getTimerIrqn (place row) = getTimerIrqn (place left)
    · rw [sound.detach_shared timer holds different pair before]
      exact ⟨fun spared held same _ => only held same ▸ spared, fun spares => spares left timer pair⟩
    · refine ⟨fun _ held same shared => absurd (only held same ▸ shared) pair, fun _ => ?_⟩
      obtain ⟨ctx, served⟩ := before
      exact ⟨ctx, (sound.detach_elsewhere timer pair ctx).mpr served⟩

private theorem Sound.detach_delivered_iff (sound : Sound board) (delivered : Delivered board) (ticker : Nat) :
    Delivered (board.detach ticker) ↔ Spares ticker board := by
  constructor
  · intro after left other row held holds different pair
    have served := after other row ((detach_holds ..).mpr ⟨different, holds⟩)
    exact (sound.detach_served_iff delivered ticker different holds).mp served left held pair
  · intro spares other row holds
    obtain ⟨different, before⟩ := (detach_holds ..).mp holds
    exact (sound.detach_served_iff delivered ticker different before).mpr
      fun left held pair => spares left other row held before different pair

/-- Arming serves every row on the line of the new one, and leaves other lines alone. -/
theorem armed_servedBy_own {row shared : Fin 12} {map : ChannelMap} {singleShot : Bool} {ticker : Nat}
    {action : Option Nat} (pair : getTimerIrqn (place shared) = getTimerIrqn (place row)) :
    (board.armed row map singleShot ticker action).ServedBy (place row) shared := by
  rw [servedBy_irqn, pair, armed_line, armed_instances, Function.update_self, Function.update_self]
  exact ⟨rfl, rfl⟩

private theorem Sound.armed_servedBy_other (sound : Sound board) {row other : Fin 12} {map : ChannelMap} {singleShot : Bool}
    {ticker : Nat} {action : Option Nat} (apart : getTimerIrqn (place other) ≠ getTimerIrqn (place row)) (ctx : Place) :
    (board.armed row map singleShot ticker action).ServedBy ctx other ↔ board.ServedBy ctx other := by
  unfold ServedBy
  rw [armed_line, Function.update_of_ne apart]
  apply and_congr_right
  intro registered
  have different : ctx ≠ place row := by
    intro same
    subst same
    exact apart (sound.lines _ _ registered).symm
  rw [armed_instances, Function.update_of_ne different]

/-- A Ticker that is armed on its old row has every line as good as new. -/
theorem Sound.rearmed_delivered (sound : Sound board) (delivered : Delivered board) {ticker : Nat} {row : Fin 12}
    (held : board.Holds ticker row) (map : ChannelMap) (singleShot : Bool) (action : Option Nat) :
    Delivered ((board.detach ticker).armed row map singleShot ticker action) := by
  intro other chn holds
  by_cases pair : getTimerIrqn (place chn) = getTimerIrqn (place row)
  · exact ⟨place row, armed_servedBy_own pair⟩
  · rcases (armed_holds ..).mp holds with ⟨_, rfl⟩ | ⟨different, before⟩
    · exact absurd rfl pair
    · obtain ⟨ctx, served⟩ := delivered other chn ((detach_holds ..).mp before).2
      exact ⟨ctx, ((sound.detach ticker).armed_servedBy_other pair ctx).mpr
        ((sound.detach_elsewhere held pair ctx).mpr served)⟩

/-- Armed on a row of a line that its old partner is not on, a Ticker leaves the
partner as the detach left it. -/
theorem Sound.armed_delivered_iff (sound : Sound board) {ticker : Nat} {row : Fin 12} {map : ChannelMap}
    {singleShot : Bool} {action : Option Nat} (idle : (board.tickers ticker).timer = none)
    (apart : ∀ other chn, board.Holds other chn → getTimerIrqn (place chn) = getTimerIrqn (place row) →
      ∃ ctx, board.ServedBy ctx chn) :
    Delivered (board.armed row map singleShot ticker action) ↔ Delivered board := by
  constructor
  · intro after other chn holds
    by_cases pair : getTimerIrqn (place chn) = getTimerIrqn (place row)
    · exact apart other chn holds pair
    · have different : other ≠ ticker := by
        intro same
        subst same
        rw [Holds, idle] at holds
        cases holds
      obtain ⟨ctx, served⟩ := after other chn ((armed_holds ..).mpr (.inr ⟨different, holds⟩))
      exact ⟨ctx, (sound.armed_servedBy_other pair ctx).mp served⟩
  · intro before other chn holds
    by_cases pair : getTimerIrqn (place chn) = getTimerIrqn (place row)
    · exact ⟨place row, armed_servedBy_own pair⟩
    · rcases (armed_holds ..).mp holds with ⟨_, rfl⟩ | ⟨_, held⟩
      · exact absurd rfl pair
      · obtain ⟨ctx, served⟩ := before other chn held
        exact ⟨ctx, (sound.armed_servedBy_other pair ctx).mpr served⟩

theorem row_of_line {first second third : Fin 12} (two : first ≠ second)
    (pair : getTimerIrqn (place first) = getTimerIrqn (place second))
    (same : getTimerIrqn (place third) = getTimerIrqn (place first)) : third = first ∨ third = second := by
  rw [getTimerIrqn_eq_iff] at pair same
  simp only [place, Fin.mk.injEq] at pair same
  omega

private theorem spares_of_idle {ticker : Nat} (idle : (board.tickers ticker).timer = none) : Spares ticker board := by
  intro row other shared held
  rw [Holds, idle] at held
  cases held

/-- After the detach, a row is taken exactly when another Ticker holds it. -/
theorem Sound.detached_taken (sound : Sound board) (ticker : Nat) (row : Fin 12) :
    (board.detach ticker).map.pin row ≠ -1 ↔ ∃ other, other ≠ ticker ∧ board.Holds other row := by
  rw [Ne, (sound.detach ticker).free_iff row, not_forall]
  simp only [not_not, detach_holds]

private theorem Sound.schedule_elsewhere (sound : Sound board) (delivered : Delivered board) {ticker : Nat} {left row : Fin 12}
    (held : board.Holds ticker left) (free : (board.detach ticker).map.pin row = -1) (different : row ≠ left)
    (map : ChannelMap) (singleShot : Bool) (action : Option Nat) :
    Delivered ((board.detach ticker).armed row map singleShot ticker action) ↔ Spares ticker board := by
  rw [← sound.detach_delivered_iff delivered ticker]
  apply (sound.detach ticker).armed_delivered_iff (detach_timer ticker board)
  intro other chn holds pair
  obtain ⟨apart, before⟩ := (detach_holds ..).mp holds
  by_cases line : getTimerIrqn (place row) = getTimerIrqn (place left)
  · rcases row_of_line different line pair with here | there
    · exact absurd (here ▸ holds) (((sound.detach ticker).free_iff row).mp free other)
    · exact absurd (sound.single other ticker left (there ▸ before) held) apart
  · obtain ⟨ctx, served⟩ := delivered other chn before
    exact ⟨ctx, (sound.detach_elsewhere held (pair ▸ line) ctx).mpr served⟩

private theorem Sound.schedule_delivered_iff (sound : Sound board) (delivered : Delivered board) (ticker ms : Nat) (again : Bool)
    (action : Option Nat) :
    Delivered (board.schedule ticker ms again action) ↔ Spares ticker board ∨
      ms ≠ 0 ∧ action ≠ none ∧ ∀ row, board.Holds ticker row → ∀ lower < row, board.map.pin lower ≠ -1 := by
  unfold Board.schedule
  rcases (sound.detach ticker).arm_cases ticker ms again action with
    ⟨refused, why⟩ | ⟨delay, callable, row, map, free, lowest, _, done⟩
  · rw [refused, sound.detach_delivered_iff delivered ticker]
    refine ⟨.inl, fun either => either.elim id fun ⟨delay, callable, _⟩ => ?_⟩
    have full := (why.resolve_left delay).resolve_left callable
    intro left other shared held
    obtain ⟨owner, apart, holds⟩ := (sound.detached_taken ticker left).mp (full left)
    exact absurd (sound.single owner ticker left holds held) apart
  · rw [done]
    cases timer : (board.tickers ticker).timer with
    | none =>
      have spares : Spares ticker board := spares_of_idle timer
      have before := (sound.detach_delivered_iff delivered ticker).mpr spares
      refine iff_of_true ?_ (.inl spares)
      exact ((sound.detach ticker).armed_delivered_iff (detach_timer ticker board)
        fun other chn holds _ => before other chn holds).mpr before
    | some left =>
      by_cases same : row = left
      · subst same
        refine iff_of_true (sound.rearmed_delivered delivered timer map (!again) action) (.inr ⟨delay, callable, ?_⟩)
        intro held holds lower below
        cases Option.some.inj (timer.symm.trans holds)
        obtain ⟨owner, _, holds⟩ := (sound.detached_taken ticker lower).mp (lowest lower below)
        exact fun unheld => (sound.free_iff lower).mp unheld owner holds
      · rw [sound.schedule_elsewhere delivered timer free same]
        refine ⟨.inl, fun either => either.elim id fun ⟨_, _, taken⟩ => ?_⟩
        have below : row < left := by
          by_contra above
          have left_taken := lowest left (lt_of_le_of_ne (not_lt.mp above) (Ne.symm same))
          obtain ⟨owner, apart, holds⟩ := (sound.detached_taken ticker left).mp left_taken
          exact apart (sound.single owner ticker left holds timer)
        refine absurd ((sound.free_iff row).mpr fun owner holds => ?_) (taken left timer row below)
        by_cases own : owner = ticker
        · subst own
          exact same (Option.some.inj (holds.symm.trans timer))
        · exact (sound.detached_taken ticker row).mpr ⟨owner, own, holds⟩ free

/-- One call keeps every armed Ticker served exactly when it is undisturbed. -/
theorem Sound.perform_delivered_iff (sound : Sound board) (delivered : Delivered board) (call : Call) :
    Delivered (Board.perform call board) ↔ Undisturbed call board := by
  cases call with
  | attach ticker ms action => exact sound.schedule_delivered_iff delivered ticker ms true action
  | once ticker ms action => exact sound.schedule_delivered_iff delivered ticker ms false action
  | detach ticker => exact sound.detach_delivered_iff delivered ticker

private theorem perform_calls (call : Call) (board : Board) : (perform call board).calls = board.calls := by
  have detached : ∀ ticker, (board.detach ticker).calls = board.calls := by
    intro ticker
    unfold detach
    split <;> rfl
  have scheduled : ∀ ticker ms again action, (board.schedule ticker ms again action).calls = board.calls := by
    intro ticker ms again action
    unfold schedule arm
    split
    · exact detached ticker
    · split <;> exact detached ticker
  cases call with
  | attach ticker ms action => exact scheduled ticker ms true action
  | once ticker ms action => exact scheduled ticker ms false action
  | detach ticker => exact detached ticker

private theorem run_calls (calls : List Call) (board : Board) : (Run.run perform calls board).calls = board.calls := by
  induction calls generalizing board with
  | nil => rfl
  | cons call calls ih => exact (ih (perform call board)).trans (perform_calls call board)

theorem callback_calls (body : Nat → List Call) {site : Place} {ticker action : Nat}
    (registered : (board.timers.instances site).callback = some ticker)
    (callable : (board.tickers ticker).action = some action) :
    (board.callback body site).calls = board.calls ++ [(ticker, action)] := by
  have made : ((board.markSpent ticker (board.timers.instances site).singleShot).fired body ticker).calls =
      board.calls ++ [(ticker, action)] := by
    simp only [fired, markSpent, callable]
    exact run_calls _ _
  simp only [callback, registered]
  split <;> exact made

private theorem callback_vacant (body : Nat → List Call) {site : Place}
    (vacant : (board.timers.instances site).callback = none) : board.callback body site = board := by
  simp only [callback, vacant]

/-- A callback that makes no Ticker calls changes no instance and no Ticker. -/
theorem callback_inert {body : Nat → List Call} (inert : ∀ action, body action = []) (site : Place) :
    (board.callback body site).timers.instances = board.timers.instances ∧
      (board.callback body site).tickers = board.tickers := by
  have fixed : ∀ ticker before, (fired body ticker before).timers = before.timers ∧
      (fired body ticker before).tickers = before.tickers := by
    intro ticker before
    unfold fired
    split
    · rw [inert]
      exact ⟨rfl, rfl⟩
    · exact ⟨rfl, rfl⟩
  unfold callback
  split
  · exact ⟨rfl, rfl⟩
  next ticker _ =>
    have same := fixed ticker (board.markSpent ticker (board.timers.instances site).singleShot)
    have instances := congrArg Timers.instances same.1
    dsimp only
    split <;> exact ⟨instances, same.2⟩

private theorem serve_quiet (body : Nat → List Call) (site : Place) {stat : BitVec 32} (quiet : ¬stat &&& 1 ≠ 0) :
    board.serve body site stat = board := by
  rw [serve, if_neg quiet]

private theorem serve_calls (body : Nat → List Call) (site : Place) {stat : BitVec 32} (pending : stat &&& 1 ≠ 0) :
    (board.serve body site stat).calls = (board.callback body site).calls := by
  rw [serve, if_pos pending]

private theorem serve_inert {body : Nat → List Call} (inert : ∀ action, body action = []) (site : Place) (stat : BitVec 32) :
    (board.serve body site stat).timers.instances = board.timers.instances ∧
      (board.serve body site stat).tickers = board.tickers := by
  unfold serve
  split
  · exact callback_inert inert site
  · exact ⟨rfl, rfl⟩

def withStatus (intrStat : Fin 3 → BitVec 32) (board : Board) : Board :=
  { board with timers := { board.timers with intrStat } }

/-- A handler whose context names the timer and pair of `site` serves both channels of that pair. -/
theorem timerInterruptHandler_eq (body : Nat → List Call) {ctx site : Place}
    (device : (board.timers.instances ctx).device = site.device)
    (pair : (board.timers.instances ctx).channel.val / 2 = site.channel.val / 2) :
    board.timerInterruptHandler body ctx =
      (board.serve body ⟨site.device, pairLow site.channel⟩
        (board.timers.intrStat site.device >>> (pairLow site.channel).val)).serve body
        ⟨site.device, pairHigh site.channel⟩ (board.timers.intrStat site.device >>> (pairHigh site.channel).val) := by
  have low : pairLow (board.timers.instances ctx).channel = pairLow site.channel := by
    simp only [pairLow, pair]
  have high : pairHigh (board.timers.instances ctx).channel = pairHigh site.channel := by
    simp only [pairHigh, pair]
  have next : (pairHigh site.channel).val = (pairLow site.channel).val + 1 := rfl
  simp only [timerInterruptHandler, device, low, high, next, BitVec.shiftRight_add]

private theorem pair_cases (site : Place) :
    site = ⟨site.device, pairLow site.channel⟩ ∨ site = ⟨site.device, pairHigh site.channel⟩ := by
  have either : site.channel = pairLow site.channel ∨ site.channel = pairHigh site.channel := by
    simp only [pairLow, pairHigh, Fin.ext_iff]
    omega
  exact either.imp (fun same => Place.ext rfl same) (fun same => Place.ext rfl same)

private theorem pairLow_irqn (site : Place) : getTimerIrqn ⟨site.device, pairLow site.channel⟩ = getTimerIrqn site := by
  rw [getTimerIrqn_eq_iff]
  refine ⟨rfl, ?_⟩
  simp only [pairLow]
  omega

private theorem pairHigh_irqn (site : Place) : getTimerIrqn ⟨site.device, pairHigh site.channel⟩ = getTimerIrqn site := by
  rw [getTimerIrqn_eq_iff]
  refine ⟨rfl, ?_⟩
  simp only [pairHigh]
  omega

private theorem pair_ne (site : Place) :
    (⟨site.device, pairLow site.channel⟩ : Place) ≠ ⟨site.device, pairHigh site.channel⟩ := by
  intro same
  have channel := congrArg (fun site : Place => site.channel.val) same
  simp only [pairLow, pairHigh] at channel
  omega

/-- With only its own bit of the pair pending, the handler calls the callback of
`site` and nothing else, whatever that callback does. -/
theorem handler_calls_alone (body : Nat → List Call) {ctx site : Place} {ticker action : Nat}
    (device : (board.timers.instances ctx).device = site.device)
    (pair : (board.timers.instances ctx).channel.val / 2 = site.channel.val / 2)
    (registered : (board.timers.instances site).callback = some ticker)
    (callable : (board.tickers ticker).action = some action) (pending : board.timers.Pending site)
    (alone : ∀ other, getTimerIrqn other = getTimerIrqn site → other ≠ site → ¬board.timers.Pending other) :
    (board.timerInterruptHandler body ctx).calls = board.calls ++ [(ticker, action)] := by
  rw [timerInterruptHandler_eq body device pair]
  rcases pair_cases site with low | high
  · have quiet := alone _ (pairHigh_irqn site) (fun same => pair_ne site (low.symm.trans same.symm))
    rw [low] at registered pending
    rw [serve_quiet body _ quiet, serve_calls body _ pending]
    exact callback_calls body registered callable
  · have quiet := alone _ (pairLow_irqn site) (fun same => pair_ne site (same.trans high))
    rw [high] at registered pending
    rw [serve_quiet body _ quiet, serve_calls body _ pending]
    exact callback_calls body registered callable

/-- Serving one channel calls its holder when the bit is set, and nobody else. -/
theorem Sound.serve_made (sound : Sound board) (body : Nat → List Call) (site : Place) (stat : BitVec 32) :
    ∃ made, (board.serve body site stat).calls = board.calls ++ made ∧
      (∀ row ticker action, place row = site → board.Holds ticker row → (board.tickers ticker).action = some action →
        stat &&& 1 ≠ 0 → made = [(ticker, action)]) ∧
      ∀ call ∈ made, ∃ row, board.Holds call.1 row ∧ place row = site ∧ stat &&& 1 ≠ 0 := by
  by_cases pending : stat &&& 1 ≠ 0
  · rw [serve_calls body site pending]
    by_cases used : ∃ ticker row, board.Holds ticker row ∧ place row = site
    · obtain ⟨ticker, row, holds, here⟩ := used
      obtain ⟨shot, registered⟩ := sound.registered ticker row holds
      obtain ⟨action, callable⟩ := Option.isSome_iff_exists.mp (sound.action ticker row holds)
      have called : (board.timers.instances site).callback = some ticker := by rw [← here, registered]
      refine ⟨[(ticker, action)], callback_calls body called callable, ?_, ?_⟩
      · intro chn other action' there held known _
        cases place_injective (there.trans here.symm)
        cases sound.single ticker other row holds held
        cases callable.symm.trans known
        rfl
      · intro call member
        cases List.mem_singleton.mp member
        exact ⟨row, holds, here, pending⟩
    · have vacant : (board.timers.instances site).callback = none :=
        sound.vacant site fun ticker row holds here => used ⟨ticker, row, holds, here⟩
      rw [callback_vacant body vacant]
      exact ⟨[], by simp, fun row ticker action here holds => absurd ⟨ticker, row, holds, here⟩ used, by simp⟩
  · rw [serve_quiet body site pending]
    exact ⟨[], by simp, fun _ _ _ _ _ _ set => absurd set pending, by simp⟩

/-- With callbacks that leave the Tickers alone, the handler calls a pending Ticker
of the pair exactly once, and only pending ones. -/
theorem Sound.handler_calls_shared (sound : Sound board) {body : Nat → List Call} (inert : ∀ action, body action = [])
    {ctx : Place} {row : Fin 12} {ticker action : Nat}
    (device : (board.timers.instances ctx).device = (place row).device)
    (pair : (board.timers.instances ctx).channel.val / 2 = (place row).channel.val / 2)
    (holds : board.Holds ticker row) (callable : (board.tickers ticker).action = some action)
    (pending : board.timers.Pending (place row)) :
    ∃ made, (board.timerInterruptHandler body ctx).calls = board.calls ++ made ∧ made.count (ticker, action) = 1 ∧
      ∀ call ∈ made, ∃ chn, board.Holds call.1 chn ∧ board.timers.Pending (place chn) := by
  rw [timerInterruptHandler_eq body device pair]
  obtain ⟨first, firstCalls, firstOwn, firstOnly⟩ := sound.serve_made body
    ⟨(place row).device, pairLow (place row).channel⟩
    (board.timers.intrStat (place row).device >>> (pairLow (place row).channel).val)
  have unchanged : (board.serve body ⟨(place row).device, pairLow (place row).channel⟩
      (board.timers.intrStat (place row).device >>> (pairLow (place row).channel).val)).tickers = board.tickers :=
    (serve_inert inert _ _).2
  obtain ⟨second, secondCalls, secondOwn, secondOnly⟩ := (sound.serve body _ _).serve_made body
    ⟨(place row).device, pairHigh (place row).channel⟩
    (board.timers.intrStat (place row).device >>> (pairHigh (place row).channel).val)
  unfold Holds at secondOwn secondOnly
  rw [unchanged] at secondOwn secondOnly
  refine ⟨first ++ second, by rw [secondCalls, firstCalls, List.append_assoc], ?_, ?_⟩
  · have only : ∀ chn, board.Holds ticker chn → chn = row := fun chn held =>
      Option.some.inj (Eq.trans (Eq.symm held) holds)
    rcases pair_cases (place row) with low | high
    · have here := pending
      rw [low] at here
      rw [firstOwn row ticker action low holds callable here]
      have absent : (ticker, action) ∉ second := by
        intro member
        obtain ⟨chn, held, there, _⟩ := secondOnly _ member
        cases only chn held
        exact pair_ne (place row) (low.symm.trans there)
      simp [List.count_eq_zero_of_not_mem absent]
    · have here := pending
      rw [high] at here
      rw [secondOwn row ticker action high holds callable here]
      have absent : (ticker, action) ∉ first := by
        intro member
        obtain ⟨chn, held, there, _⟩ := firstOnly _ member
        cases only chn held
        exact pair_ne (place row) (there.symm.trans high)
      simp [List.count_eq_zero_of_not_mem absent]
  · intro call member
    rcases List.mem_append.mp member with early | late
    · obtain ⟨chn, held, there, set⟩ := firstOnly call early
      refine ⟨chn, held, ?_⟩
      rw [there]
      exact set
    · obtain ⟨chn, held, there, set⟩ := secondOnly call late
      refine ⟨chn, held, ?_⟩
      rw [there]
      exact set

/-- The interrupt of a Ticker reaches its callback: its line is up, its context
names the right timer and pair, and the handler calls it once and no other Ticker
that is not pending, alone whatever the callback does, and beside its partner when
the callbacks leave the Tickers alone. -/
structure Answers (ticker action : Nat) (row : Fin 12) (ctx : Place) (board : Board) : Prop where
  served : board.ServedBy ctx row
  enabled : board.timers.enabled (getTimerIrqn (place row)) = true
  callable : (board.tickers ticker).action = some action
  alone : ∀ body intrStat, (board.withStatus intrStat).timers.Pending (place row) →
    (∀ other, getTimerIrqn other = getTimerIrqn (place row) → other ≠ place row →
      ¬(board.withStatus intrStat).timers.Pending other) →
    ((board.withStatus intrStat).timerInterruptHandler body ctx).calls = board.calls ++ [(ticker, action)]
  shared : ∀ body intrStat, (∀ action, body action = []) → (board.withStatus intrStat).timers.Pending (place row) →
    ∃ made, ((board.withStatus intrStat).timerInterruptHandler body ctx).calls = board.calls ++ made ∧
      made.count (ticker, action) = 1 ∧
      ∀ call ∈ made, ∃ chn, board.Holds call.1 chn ∧ (board.withStatus intrStat).timers.Pending (place chn)

private theorem Sound.answers (sound : Sound board) {ticker : Nat} {row : Fin 12} (holds : board.Holds ticker row) {ctx : Place}
    (served : board.ServedBy ctx row) : ∃ action, Answers ticker action row ctx board := by
  obtain ⟨action, callable⟩ := Option.isSome_iff_exists.mp (sound.action ticker row holds)
  obtain ⟨shot, registered⟩ := sound.registered ticker row holds
  refine ⟨action, served, sound.enabled ticker row holds, callable, ?_, ?_⟩
  · intro body intrStat pending alone
    have called : (board.timers.instances (place row)).callback = some ticker := by rw [registered]
    exact handler_calls_alone body served.2.1 served.2.2 called callable pending alone
  · intro body intrStat inert pending
    have same : Sound (board.withStatus intrStat) := sound.congr rfl rfl rfl rfl rfl
    exact same.handler_calls_shared inert served.2.1 served.2.2 holds callable pending

/-- In every run whose calls are undisturbed, each armed Ticker's interrupt reaches
its callback, and the next call keeps that so exactly when it is undisturbed too. -/
theorem ticker_delivery (fpioa : Gpio.Fpioa) (calls : List Call)
    (guarded : Run.Guarded perform Undisturbed calls (initial fpioa)) :
    (∀ ticker row, (Run.run perform calls (initial fpioa)).Holds ticker row →
      ∃ ctx action, Answers ticker action row ctx (Run.run perform calls (initial fpioa))) ∧
      ∀ call, Delivered (perform call (Run.run perform calls (initial fpioa))) ↔
        Undisturbed call (Run.run perform calls (initial fpioa)) := by
  have step : ∀ call board, Sound board ∧ Delivered board → Undisturbed call board →
      Sound (perform call board) ∧ Delivered (perform call board) := by
    intro call board both undisturbed
    exact ⟨both.1.perform call, (both.1.perform_delivered_iff both.2 call).mpr undisturbed⟩
  have unarmed : Delivered (initial fpioa) := by
    intro ticker row holds
    cases holds
  obtain ⟨sound, delivered⟩ := guarded.invariant step ⟨initial_sound fpioa, unarmed⟩
  refine ⟨fun ticker row holds => ?_, sound.perform_delivered_iff delivered⟩
  obtain ⟨ctx, served⟩ := delivered ticker row holds
  exact ⟨ctx, sound.answers holds served⟩

/-- Three Tickers on timer 0, of which the first leaves: its partner on the line is
still served, as the other line is in use and the partner registered last. -/
theorem ticker_delivery_partner_leaves :
    ∃ ctx action, Answers 1 action 1 ctx
      (Run.run perform [.attach 0 100 (some 7), .once 1 50 (some 8), .attach 2 10 (some 9), .detach 0]
        (initial ⟨fun _ => 0, fun _ => 0⟩)) := by
  refine (ticker_delivery ⟨fun _ => 0, fun _ => 0⟩
    [.attach 0 100 (some 7), .once 1 50 (some 8), .attach 2 10 (some 9), .detach 0] ?_).1 1 1 (by decide)
  refine ⟨.inl (spares_of_idle rfl), .inl (spares_of_idle (by decide)), .inl (spares_of_idle (by decide)), ?_, trivial⟩
  intro row other shared held holds different pair
  have first : row = 0 := by
    have known : (0 : Fin 12) = row := Option.some.inj (Eq.trans (by decide) held)
    exact known.symm
  subst first
  exact ⟨⟨⟨0, 2⟩, by decide, by decide, by decide⟩, fun _ => by decide⟩

/-- Two Tickers on channels 0 and 1 of timer 0: when the second is detached, the
line is taken down although the first is still armed. -/
theorem detach_stops_partner :
    (Run.run perform [.attach 0 100 (some 7), .attach 1 50 (some 8), .detach 1]
        (initial ⟨fun _ => 0, fun _ => 0⟩)).Holds 0 0 ∧
      ∀ ctx, ¬(Run.run perform [.attach 0 100 (some 7), .attach 1 50 (some 8), .detach 1]
        (initial ⟨fun _ => 0, fun _ => 0⟩)).ServedBy ctx 0 := by
  refine ⟨by decide, fun ctx served => ?_⟩
  have down : (Run.run perform [.attach 0 100 (some 7), .attach 1 50 (some 8), .detach 1]
      (initial ⟨fun _ => 0, fun _ => 0⟩)).timers.line (getTimerIrqn (place 0)) = none := by decide
  rw [served.1] at down
  cases down

end ArduinoK210.Timer.Board
