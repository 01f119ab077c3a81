import ArduinoK210.Gpio.Routing

/-! Pin interrupts. A handler is stored for a pin and registered on the GPIOHS line
that the table names for it; the line keeps both its edge and its handler when the
table gives it to another pin. -/

namespace ArduinoK210.Gpio

inductive PinStatus where
  | low | high | change | falling | rising | other
  deriving DecidableEq

inductive PinEdge where
  | none | falling | rising | both | low | high
  deriving DecidableEq

/-- What can happen at a pad. -/
inductive Trigger where
  | falling | rising | low | high
  deriving DecidableEq

/-- The interrupt enable bits that an edge setting puts into the line's registers. -/
def PinEdge.enables : PinEdge → Trigger → Bool
  | .falling, .falling | .both, .falling => true
  | .rising, .rising | .both, .rising => true
  | .low, .low => true
  | .high, .high => true
  | _, _ => false

/-- A callback may be null. -/
structure InterruptHandle where
  fn : Option Nat
  arg : Nat
  deriving DecidableEq

/-- A line's edge setting and, where `onPinInterrupt` is registered on it, the pin
whose handle it is given. -/
structure Line where
  edge : PinEdge
  context : Option Nat
  deriving DecidableEq

/-- `attached` is the handle last attached to a pin that was neither detached nor
cleared since; no call reads it. -/
structure Interrupts where
  pins : Pins
  lines : Nat → Line
  handlers : Nat → InterruptHandle
  attached : Nat → Option InterruptHandle

namespace Interrupts

def pinEdge : PinStatus → PinEdge
  | .low => .low
  | .high => .high
  | .change => .both
  | .falling => .falling
  | .rising => .rising
  | .other => .none

def gpiohsSetPinEdge (pin : Nat) (edge : PinEdge) (state : Interrupts) : Interrupts :=
  { state with lines := Function.update state.lines pin { state.lines pin with edge } }

def gpiohsIrqRegister (pin context : Nat) (state : Interrupts) : Interrupts :=
  { state with lines := Function.update state.lines pin { state.lines pin with context := some context } }

def gpiohsIrqUnregister (pin : Nat) (state : Interrupts) : Interrupts :=
  { state with lines := Function.update state.lines pin ⟨.none, none⟩ }

def attachInterruptParam (env : Env) (pinNumber : Nat) (callback : Option Nat) (mode : PinStatus) (param : Nat)
    (state : Interrupts) : Interrupts :=
  if k210IoNums ≤ pinNumber then state
  else
    let got := state.pins.halGpiohsGetPinFunc env pinNumber
    if Pins.isGpiohs got.1 then
      { state with
        pins := got.2
        handlers := Function.update state.handlers pinNumber ⟨callback, param⟩
        attached := Function.update state.attached pinNumber (some ⟨callback, param⟩) }
        |>.gpiohsSetPinEdge (got.1 - funcGpiohs0) (pinEdge mode)
        |>.gpiohsIrqRegister (got.1 - funcGpiohs0) pinNumber
    else { state with pins := got.2 }

def detachInterrupt (env : Env) (pinNumber : Nat) (state : Interrupts) : Interrupts :=
  if k210IoNums ≤ pinNumber then state
  else
    let got := state.pins.halGpiohsGetPinFunc env pinNumber
    let detached := { state with pins := got.2, attached := Function.update state.attached pinNumber none }
    if Pins.isGpiohs got.1 then
      detached.gpiohsSetPinEdge (got.1 - funcGpiohs0) .none |>.gpiohsIrqUnregister (got.1 - funcGpiohs0)
    else detached

def pinMode (env : Env) (pinNumber : Nat) (mode : PinMode) (state : Interrupts) : Interrupts :=
  { state with pins := state.pins.pinMode env pinNumber mode }

def pinModeClear (pinNumber : Nat) (state : Interrupts) : Interrupts :=
  { state with
    pins := state.pins.pinModeClear pinNumber
    attached := Function.update state.attached pinNumber none }

def lineOf (pad : Nat) (state : Interrupts) : Option Nat :=
  if Pins.isGpiohs (state.pins.fpioa.chSel pad) then some (state.pins.fpioa.chSel pad - funcGpiohs0) else none

/-- The pad is routed to a line on which the trigger raises an interrupt. -/
def Enabled (pad : Nat) (trigger : Trigger) (state : Interrupts) : Prop :=
  ∃ line, state.lineOf pad = some line ∧ (state.lines line).edge.enables trigger = true

/-- What a trigger at a pad invokes: the handle's pin, its callback and the parameter. -/
def interrupt (pad : Nat) (trigger : Trigger) (state : Interrupts) : Option (Nat × Nat × Nat) := do
  let line ← state.lineOf pad
  if (state.lines line).edge.enables trigger = true then
    let pin ← (state.lines line).context
    (state.handlers pin).fn.map fun fn => (pin, fn, (state.handlers pin).arg)
  else none

inductive Op where
  | pinMode (pin : Fin 48) (mode : PinMode)
  | pinModeClear (pin : Fin 48)
  | attachInterruptParam (pin : Fin 48) (callback : Option Nat) (mode : PinStatus) (param : Nat)
  | detachInterrupt (pin : Fin 48)

def perform (env : Env) : Op → Interrupts → Interrupts
  | .pinMode pin mode, state => state.pinMode env pin mode
  | .pinModeClear pin, state => state.pinModeClear pin
  | .attachInterruptParam pin callback mode param, state => state.attachInterruptParam env pin callback mode param
  | .detachInterrupt pin, state => state.detachInterrupt env pin

/-- Power-on: no line has an edge or a handler. -/
def start (pins : Pins) : Interrupts := ⟨pins, fun _ => ⟨.none, none⟩, fun _ => ⟨none, 0⟩, fun _ => none⟩

structure Delivered (state : Interrupts) : Prop where
  attached : ∀ pin : Fin 48, ∀ trigger, state.Enabled pin trigger → ∀ handle, state.attached pin = some handle →
    state.interrupt pin trigger = handle.fn.map fun fn => (pin.val, fn, handle.arg)
  unattached : ∀ pin : Fin 48, ∀ trigger, state.attached pin = none → state.interrupt pin trigger = none
  own : ∀ pin : Fin 48, ∀ trigger other fn arg, state.interrupt pin trigger = some (other, fn, arg) → other = pin

def Quiet (pad : Nat) (state : Interrupts) : Prop := ∀ line ∈ state.lineOf pad, (state.lines line).edge = .none

instance (pad : Nat) (state : Interrupts) : Decidable (state.Quiet pad) :=
  inferInstanceAs (Decidable (∀ line ∈ state.lineOf pad, (state.lines line).edge = .none))

/-- A `pinMode` takes a line without an enabled edge, or the line registered for the
same pin while that is attached; a pin is cleared only while its line has no enabled
edge; and a pin is detached only then or while the table names the line of its pad. -/
def Released (env : Env) : Op → Interrupts → Prop
  | .pinMode pin _, state => ∀ info ∈ (env.qsort state.pins.sorts state.pins.table).head?,
      (state.lines (info.func - funcGpiohs0)).edge = .none ∨
        ((state.lines (info.func - funcGpiohs0)).context = some pin.val ∧ state.attached pin ≠ none)
  | .pinModeClear pin, state => state.Quiet pin
  | .detachInterrupt pin, state =>
      state.Quiet pin ∨ (state.pins.halGpiohsGetPinFunc env pin).1 = state.pins.fpioa.chSel pin
  | .attachInterruptParam _ _ _ _, _ => True

instance (env : Env) : ∀ op state, Decidable (Released env op state)
  | .pinMode pin _, state => inferInstanceAs (Decidable (∀ info ∈ (env.qsort state.pins.sorts state.pins.table).head?,
      (state.lines (info.func - funcGpiohs0)).edge = .none ∨
        ((state.lines (info.func - funcGpiohs0)).context = some pin.val ∧ state.attached pin ≠ none)))
  | .pinModeClear pin, state => inferInstanceAs (Decidable (state.Quiet pin))
  | .detachInterrupt _, _ => inferInstanceAs (Decidable (_ ∨ _))
  | .attachInterruptParam _ _ _ _, _ => inferInstanceAs (Decidable True)

end Interrupts

namespace Pins

/-- What holds of the table even when a pin has several rows: each function has one
row, and only that row's pin can be routed to it. -/
structure Tabled (pins : Pins) : Prop where
  funcs : (pins.table.map FuncInfo.func).Perm (List.range' funcGpiohs0 gpiohsFuncSize)
  alone : ∀ info ∈ pins.table, info.pin ≠ unbound → ∀ pad < k210IoNums, pins.fpioa.chSel pad = info.func → pad = info.pin

variable {env : Env} {pins : Pins}

private theorem Tabled.func_range (tabled : Tabled pins) {info : FuncInfo} (member : info ∈ pins.table) : isGpiohs info.func := by
  have inside := tabled.funcs.subset (List.mem_map_of_mem member)
  rw [List.mem_range'_1] at inside
  simp only [isGpiohs, funcGpiohs0, funcGpiohs31, gpiohsFuncSize] at inside ⊢
  omega

private theorem isGpiohs.valid {func : Nat} (gpiohs : isGpiohs func) : func < funcMax ∧ func ≠ funcResv0 := by
  simp only [isGpiohs, funcGpiohs0, funcGpiohs31, funcMax, funcResv0] at gpiohs ⊢
  omega

private theorem driveMode_table (line : Nat) (mode : DriveMode) (pins : Pins) :
    (pins.gpiohsSetDriveMode line mode).table = pins.table ∧ (pins.gpiohsSetDriveMode line mode).fpioa = pins.fpioa := by
  unfold gpiohsSetDriveMode
  split
  next => exact ⟨rfl, rfl⟩
  next => exact ⟨rfl, rfl⟩

/-- `pinMode` gives the pin the row that the sort brings to the front. -/
theorem pinMode_table {pin : Nat} (inside : pin < k210IoNums) (mode : PinMode) {info : FuncInfo} {rest : List FuncInfo}
    (sorted : env.qsort pins.sorts pins.table = info :: rest) :
    (pins.pinMode env pin mode).table = ⟨env.timeUs pins.readings, info.func, pin⟩ :: rest ∧
      (pins.pinMode env pin mode).fpioa = pins.fpioa.halFpioaSetPinFunc pin info.func := by
  simp only [pinMode, Nat.not_le_of_lt inside, if_false, halGpiohsSetPinFunc, sorted]
  split
  next => simp only [driveMode_table, and_self]
  next => exact ⟨rfl, rfl⟩

private theorem Tabled.sorted_cons (tabled : Tabled pins) (env : Env) :
    ∃ info rest, env.qsort pins.sorts pins.table = info :: rest := by
  cases sorted : env.qsort pins.sorts pins.table with
  | nil =>
    have perm := env.perm pins.sorts pins.table
    rw [sorted] at perm
    have funcs := tabled.funcs
    rw [List.nil_perm.mp perm] at funcs
    exact absurd funcs.length_eq (by decide)
  | cons info rest => exact ⟨info, rest, rfl⟩

theorem chSel_kept {pin func pad : Nat} (fpioa : Fpioa) (inside : pin < k210IoNums) (gpiohs : isGpiohs func)
    (different : pad ≠ pin) (carried : isGpiohs ((fpioa.halFpioaSetPinFunc pin func).chSel pad)) :
    (fpioa.halFpioaSetPinFunc pin func).chSel pad = fpioa.chSel pad := by
  have other := Fpioa.setPinFunc_other pin func pad fpioa inside gpiohs.valid.1 gpiohs.valid.2 different
  split at other
  next =>
    rw [other] at carried
    exact absurd carried (by decide)
  next => exact other

private theorem Tabled.pinMode (tabled : Tabled pins) (env : Env) {pin : Nat} (inside : pin < k210IoNums) (mode : PinMode) :
    Tabled (pins.pinMode env pin mode) := by
  obtain ⟨info, rest, sorted⟩ := tabled.sorted_cons env
  obtain ⟨table, fpioa⟩ := pinMode_table inside mode sorted
  have perm := env.perm pins.sorts pins.table
  rw [sorted] at perm
  have gpiohs := tabled.func_range (perm.subset List.mem_cons_self)
  have funcs : ((pins.pinMode env pin mode).table.map FuncInfo.func).Perm (List.range' funcGpiohs0 gpiohsFuncSize) := by
    rw [table]
    exact (perm.map FuncInfo.func).trans tabled.funcs
  refine ⟨funcs, fun row member bound pad within carried => ?_⟩
  have nodup := funcs.nodup_iff.mpr List.nodup_range'
  rw [table] at member nodup
  rw [fpioa] at carried
  rcases List.mem_cons.mp member with rfl | kept
  · exact Fpioa.setPinFunc_alone inside gpiohs.valid.1 gpiohs.valid.2 within carried
  · have before := perm.subset (List.mem_cons_of_mem _ kept)
    have fresh : row.func ≠ info.func := by
      intro same
      rw [List.map_cons, List.nodup_cons] at nodup
      exact nodup.1 (same ▸ List.mem_map_of_mem kept)
    have different : pad ≠ pin := by
      intro same
      rw [same, Fpioa.setPinFunc_here pin info.func pins.fpioa inside gpiohs.valid.1] at carried
      exact fresh carried.symm
    have same := chSel_kept pins.fpioa inside gpiohs different (carried ▸ tabled.func_range before)
    exact tabled.alone row before bound pad within (same.symm.trans carried)

theorem Tabled.replace (tabled : Tabled pins) {after : Pins} {front back : List FuncInfo} {info other : FuncInfo}
    (before : pins.table = front ++ info :: back) (table : after.table = front ++ other :: back)
    (func : other.func = info.func) (pin : other.pin = info.pin ∨ other.pin = unbound)
    (chSel : after.fpioa.chSel = pins.fpioa.chSel) : Tabled after := by
  refine ⟨?_, fun row member bound pad within carried => ?_⟩
  · have funcs := tabled.funcs
    rw [before] at funcs
    rw [table]
    simpa [func] using funcs
  · rw [chSel] at carried
    rw [table] at member
    rcases List.mem_append.mp member with early | late
    · exact tabled.alone row (by simp [before, early]) bound pad within carried
    · rcases List.mem_cons.mp late with rfl | rest
      · have same := pin.resolve_right bound
        rw [same] at bound ⊢
        exact tabled.alone info (by simp [before]) bound pad within (carried.trans func)
      · exact tabled.alone row (by simp [before, rest]) bound pad within carried

private theorem Tabled.pinModeClear (tabled : Tabled pins) (pin : Nat) :
    Tabled (pins.pinModeClear pin) ∧ (pins.pinModeClear pin).fpioa.chSel = pins.fpioa.chSel := by
  simp only [Pins.pinModeClear, halGpiohsClrPinFunc]
  cases found : updateFirst pin (fun info => { info with pin := unbound, lastTime := 0 }) pins.table with
  | none => exact ⟨⟨tabled.funcs, tabled.alone⟩, rfl⟩
  | some changed =>
    obtain ⟨info, table⟩ := changed
    obtain ⟨_, front, back, before, after⟩ := updateFirst_some found
    have same := Fpioa.clrPinFunc_chSel pin pins.fpioa
    exact ⟨tabled.replace before after rfl (.inr rfl) same, same⟩

theorem Tabled.get (tabled : Tabled pins) (env : Env) (pin : Nat) :
    Tabled (pins.halGpiohsGetPinFunc env pin).2 ∧ (pins.halGpiohsGetPinFunc env pin).2.fpioa = pins.fpioa ∧
      ((pins.halGpiohsGetPinFunc env pin).1 = funcMax ∨
        ∃ info ∈ pins.table, info.pin = pin ∧ (pins.halGpiohsGetPinFunc env pin).1 = info.func) := by
  simp only [halGpiohsGetPinFunc]
  cases found : updateFirst pin (fun info => { info with lastTime := env.timeUs pins.readings }) pins.table with
  | none => exact ⟨tabled, rfl, .inl rfl⟩
  | some changed =>
    obtain ⟨info, table⟩ := changed
    obtain ⟨carried, front, back, before, after⟩ := updateFirst_some found
    exact ⟨tabled.replace before after rfl (.inl rfl) rfl, rfl, .inr ⟨info, by simp [before], carried, rfl⟩⟩

end Pins

namespace Interrupts
open Pins

/-- An enabled line that a pad is routed to is registered for that pin, which is
attached. -/
structure Registered (state : Interrupts) : Prop where
  tabled : Tabled state.pins
  line : ∀ pad < k210IoNums, ∀ line, state.lineOf pad = some line → (state.lines line).edge ≠ .none →
    (state.lines line).context = some pad ∧ state.attached pad ≠ none
  handle : ∀ pin handle, state.attached pin = some handle → state.handlers pin = handle

variable {env : Env} {state : Interrupts}

private theorem lineOf_some {pad line : Nat} (routed : state.lineOf pad = some line) :
    isGpiohs (state.pins.fpioa.chSel pad) ∧ state.pins.fpioa.chSel pad = funcGpiohs0 + line := by
  unfold lineOf at routed
  split at routed
  next gpiohs =>
    cases routed
    exact ⟨gpiohs, (Nat.add_sub_cancel' gpiohs.1).symm⟩
  next => cases routed

private theorem lineOf_congr {after : Interrupts} {pad : Nat} (same : after.pins.fpioa.chSel pad = state.pins.fpioa.chSel pad) :
    after.lineOf pad = state.lineOf pad := by
  simp only [lineOf, same]

private theorem Registered.pinMode (registered : Registered state) {pin : Fin 48} {mode : PinMode}
    (released : Released env (.pinMode pin mode) state) : Registered (state.pinMode env pin mode) := by
  obtain ⟨info, rest, sorted⟩ := registered.tabled.sorted_cons env
  obtain ⟨_, fpioa⟩ := pinMode_table pin.isLt mode sorted
  have gpiohs := registered.tabled.func_range ((env.perm _ _).subset (sorted ▸ List.mem_cons_self))
  refine ⟨registered.tabled.pinMode env pin.isLt mode, fun pad within line routed enabled => ?_, registered.handle⟩
  obtain ⟨carried, value⟩ := lineOf_some routed
  simp only [Interrupts.pinMode, fpioa] at carried value
  by_cases here : pad = pin
  · subst here
    rw [Fpioa.setPinFunc_here pin info.func _ pin.isLt gpiohs.valid.1] at value
    have front := released info (by simp [sorted])
    rw [value, Nat.add_sub_cancel_left] at front
    exact front.resolve_left enabled
  · have same : (state.pinMode env pin mode).pins.fpioa.chSel pad = state.pins.fpioa.chSel pad := by
      simp only [Interrupts.pinMode, fpioa]
      exact chSel_kept state.pins.fpioa pin.isLt gpiohs here carried
    rw [lineOf_congr same] at routed
    exact registered.line pad within line routed enabled

private theorem Registered.pinModeClear (registered : Registered state) {pin : Fin 48}
    (quiet : state.Quiet pin) : Registered (state.pinModeClear pin) := by
  obtain ⟨tabled, chSel⟩ := registered.tabled.pinModeClear pin
  refine ⟨tabled, fun pad within line routed enabled => ?_, fun other handle held => ?_⟩
  · rw [lineOf_congr (congrFun chSel pad)] at routed
    have different : pad ≠ pin := by
      intro same
      subst same
      exact enabled (quiet line routed)
    simp only [Interrupts.pinModeClear, Function.update_of_ne different]
    exact registered.line pad within line routed enabled
  · simp only [Interrupts.pinModeClear] at held
    by_cases same : other = pin
    · subst same
      simp at held
    · rw [Function.update_of_ne same] at held
      exact registered.handle other handle held

private theorem Registered.attach (registered : Registered state) (env : Env) (pin : Fin 48) (callback : Option Nat)
    (mode : PinStatus) (param : Nat) : Registered (state.attachInterruptParam env pin callback mode param) := by
  obtain ⟨tabled, fpioa, answer⟩ := registered.tabled.get env pin
  have inside : pin.val < k210IoNums := pin.isLt
  simp only [attachInterruptParam, Nat.not_le_of_lt inside, if_false]
  split
  next gpiohs =>
    refine ⟨tabled, fun pad within line routed enabled => ?_, fun other handle held => ?_⟩
    · have same : state.lineOf pad = some line := by
        rw [← routed]
        exact (lineOf_congr (congrArg (Fpioa.chSel · pad) fpioa)).symm
      obtain ⟨_, value⟩ := lineOf_some same
      simp only [gpiohsIrqRegister, gpiohsSetPinEdge, Function.update_idem, Function.update_self] at enabled ⊢
      by_cases here : line = (state.pins.halGpiohsGetPinFunc env pin).1 - funcGpiohs0
      · subst here
        rw [Nat.add_sub_cancel' gpiohs.1] at value
        have mine : pad = pin := by
          rcases answer with none | ⟨info, member, carried, named⟩
          · exact absurd (none ▸ gpiohs) (by decide)
          · rw [← carried]
            refine registered.tabled.alone info member ?_ pad within (value.trans named)
            have bound := pin.isLt
            simp only [unbound]
            omega
        subst mine
        simp
      · simp only [Function.update_of_ne here] at enabled ⊢
        obtain ⟨context, attached⟩ := registered.line pad within line same enabled
        refine ⟨context, ?_⟩
        by_cases mine : pad = pin
        · simp [mine]
        · rwa [Function.update_of_ne mine]
    · simp only [gpiohsIrqRegister, gpiohsSetPinEdge] at held ⊢
      by_cases mine : other = pin
      · subst mine
        simp only [Function.update_self] at held ⊢
        exact Option.some.inj held
      · rw [Function.update_of_ne mine] at held ⊢
        exact registered.handle other handle held
  next =>
    refine ⟨tabled, fun pad within line routed enabled => ?_, registered.handle⟩
    exact registered.line pad within line
      ((lineOf_congr (congrArg (Fpioa.chSel · pad) fpioa)).symm.trans routed) enabled

private theorem Registered.detach (registered : Registered state) {pin : Fin 48}
    (released : Released env (.detachInterrupt pin) state) : Registered (state.detachInterrupt env pin) := by
  obtain ⟨tabled, fpioa, _⟩ := registered.tabled.get env pin
  have handle : ∀ other handle, Function.update state.attached pin none other = some handle →
      state.handlers other = handle := by
    intro other handle held
    by_cases mine : other = pin
    · subst mine
      simp at held
    · rw [Function.update_of_ne mine] at held
      exact registered.handle other handle held
  have elsewhere : ∀ pad < k210IoNums, ∀ line, state.lineOf pad = some line → (state.lines line).edge ≠ .none →
      (isGpiohs (state.pins.halGpiohsGetPinFunc env pin).1 →
        line ≠ (state.pins.halGpiohsGetPinFunc env pin).1 - funcGpiohs0) →
      (state.lines line).context = some pad ∧ Function.update state.attached pin.val none pad ≠ none := by
    intro pad within line routed enabled apart
    obtain ⟨context, attached⟩ := registered.line pad within line routed enabled
    refine ⟨context, ?_⟩
    by_cases mine : pad = pin
    · subst mine
      rcases released with quiet | found
      · exact absurd (quiet line routed) enabled
      · obtain ⟨gpiohs, value⟩ := lineOf_some routed
        rw [found] at apart
        exact absurd (by rw [value, Nat.add_sub_cancel_left]) (apart gpiohs)
    · rwa [Function.update_of_ne mine]
  have inside : pin.val < k210IoNums := pin.isLt
  simp only [detachInterrupt, Nat.not_le_of_lt inside, if_false]
  split
  next gpiohs =>
    refine ⟨tabled, fun pad within line routed enabled => ?_, handle⟩
    have same := (lineOf_congr (congrArg (Fpioa.chSel · pad) fpioa)).symm.trans routed
    simp only [gpiohsIrqUnregister, gpiohsSetPinEdge, Function.update_idem] at enabled ⊢
    by_cases here : line = (state.pins.halGpiohsGetPinFunc env pin).1 - funcGpiohs0
    · subst here
      simp at enabled
    · rw [Function.update_of_ne here] at enabled ⊢
      exact elsewhere pad within line same enabled fun _ => here
  next absent =>
    refine ⟨tabled, fun pad within line routed enabled => ?_, handle⟩
    have same := (lineOf_congr (congrArg (Fpioa.chSel · pad) fpioa)).symm.trans routed
    exact elsewhere pad within line same enabled fun gpiohs => absurd gpiohs absent

private theorem perform_registered (env : Env) (op : Op) (state : Interrupts) (registered : Registered state)
    (released : Released env op state) : Registered (perform env op state) := by
  cases op with
  | pinMode pin mode => exact registered.pinMode released
  | pinModeClear pin => exact registered.pinModeClear released
  | attachInterruptParam pin callback mode param => exact registered.attach env pin callback mode param
  | detachInterrupt pin => exact registered.detach released

private theorem start_registered (fpioa : Fpioa) (outputEn inputEn outputVal : Nat → Bool) (pull : Nat → Pull) :
    Registered (start (Pins.start fpioa outputEn inputEn outputVal pull)) := by
  have routed := start_routed fpioa outputEn inputEn outputVal pull
  refine ⟨⟨routed.funcs, routed.alone⟩, fun pad _ line _ enabled => ?_, fun pin handle held => ?_⟩
  · exact absurd rfl enabled
  · cases held

private theorem PinEdge.enables_none (trigger : Trigger) : PinEdge.none.enables trigger = false := by
  cases trigger <;> rfl

private theorem Registered.enabled (registered : Registered state) {pad line : Nat} {trigger : Trigger} (within : pad < k210IoNums)
    (routed : state.lineOf pad = some line) (enabled : (state.lines line).edge.enables trigger = true) :
    (state.lines line).context = some pad ∧ state.attached pad = some (state.handlers pad) := by
  have active : (state.lines line).edge ≠ .none := by
    intro none
    rw [none, PinEdge.enables_none] at enabled
    cases enabled
  obtain ⟨context, attached⟩ := registered.line pad within line routed active
  obtain ⟨handle, held⟩ := Option.ne_none_iff_exists'.mp attached
  exact ⟨context, held.trans (congrArg some (registered.handle pad handle held).symm)⟩

theorem Registered.interrupt_some (registered : Registered state) {pad : Nat} {trigger : Trigger} {call : Nat × Nat × Nat}
    (within : pad < k210IoNums) (invoked : state.interrupt pad trigger = some call) :
    state.attached pad = some (state.handlers pad) ∧ call.1 = pad := by
  obtain ⟨line, routed, rest⟩ := Option.bind_eq_some_iff.mp invoked
  split at rest
  next enabled =>
    obtain ⟨context, attached⟩ := registered.enabled within routed enabled
    obtain ⟨pin, registeredFor, called⟩ := Option.bind_eq_some_iff.mp rest
    obtain ⟨fn, _, rfl⟩ := Option.map_eq_some_iff.mp called
    exact ⟨attached, Option.some.inj (registeredFor.symm.trans context)⟩
  next => cases rest

private theorem Registered.delivered (registered : Registered state) : Delivered state := by
  refine ⟨fun pin trigger enabled handle attached => ?_, fun pin trigger unattached => ?_,
    fun pin trigger other fn arg invoked => (registered.interrupt_some pin.isLt invoked).2⟩
  · obtain ⟨line, routed, enables⟩ := enabled
    obtain ⟨context, _⟩ := registered.enabled pin.isLt routed enables
    have same := registered.handle pin handle attached
    simp only [interrupt, routed, Option.bind_eq_bind, Option.bind_some, enables, if_true, context, same]
  · cases invoked : state.interrupt pin trigger with
    | none => rfl
    | some call =>
      have attached := (registered.interrupt_some pin.isLt invoked).1
      cases unattached.symm.trans attached

/-- In every run whose calls leave no enabled line behind, each trigger at a pad
invokes the callback last attached to that pin, and none where nothing is attached. -/
theorem pinInterrupt_delivered (env : Env) (fpioa : Fpioa) (outputEn inputEn outputVal : Nat → Bool) (pull : Nat → Pull)
    (ops : List Op) (released : Run.Guarded (perform env) (Released env) ops
      (start (Pins.start fpioa outputEn inputEn outputVal pull))) :
    Delivered (Run.run (perform env) ops (start (Pins.start fpioa outputEn inputEn outputVal pull))) :=
  (released.invariant (perform_registered env) (start_registered fpioa outputEn inputEn outputVal pull)).delivered

/-- Two pins are attached, and the first is detached before it is cleared. -/
theorem pinInterrupt_delivered_second :
    (Run.run (perform plainEnv) [.pinMode 5 .input, .attachInterruptParam 5 (some 7) .rising 1, .pinMode 6 .input,
      .attachInterruptParam 6 (some 8) .change 2, .detachInterrupt 5, .pinModeClear 5] (start plainStart)).interrupt 6
      .falling = some (6, 8, 2) := by
  have released : Run.Guarded (perform plainEnv) (Released plainEnv) [.pinMode 5 .input,
      .attachInterruptParam 5 (some 7) .rising 1, .pinMode 6 .input, .attachInterruptParam 6 (some 8) .change 2,
      .detachInterrupt 5, .pinModeClear 5] (start plainStart) :=
    ⟨by decide, by decide, by decide, by decide, by decide, by decide, trivial⟩
  have delivered := pinInterrupt_delivered plainEnv _ _ _ _ _ _ released
  exact delivered.attached 6 .falling ⟨1, by decide, by decide⟩ ⟨some 8, 2⟩ (by decide)

/-- Pin 5 is attached and cleared, and pin 6 set up: a rising edge at pin 6, to which
nothing was ever attached, invokes the callback of pin 5. -/
theorem pinModeClear_leaves_handler :
    let state := Run.run (perform plainEnv) [.pinMode 5 .input, .attachInterruptParam 5 (some 7) .rising 1,
      .pinModeClear 5, .pinMode 6 .input] (start plainStart)
    state.attached 6 = none ∧ state.interrupt 6 .rising = some (5, 7, 1) ∧ ¬ Delivered state := by
  refine ⟨by decide, by decide, fun delivered => ?_⟩
  have silent := delivered.unattached 6 .rising (by decide)
  exact absurd silent (by decide)

end Interrupts
end ArduinoK210.Gpio
