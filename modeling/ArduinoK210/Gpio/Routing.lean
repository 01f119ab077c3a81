import ArduinoK210.Gpio.Gpiohs
import ArduinoK210.Lib.Run
import Mathlib.Data.List.Perm.Basic
import Mathlib.Data.List.Nodup

/-! The table against the multiplexer. While no pin is bound a second time, each
bound pin is routed to the function that the table names for it, and no other pad is. -/

namespace ArduinoK210.Gpio

/-- No two rows of the table carry the same pin. -/
def OncePerPin (table : List FuncInfo) : Prop :=
  table.Pairwise fun first second => first.pin = second.pin → first.pin = unbound

private theorem OncePerPin.perm {first second : List FuncInfo} (same : first.Perm second) :
    OncePerPin first ↔ OncePerPin second := by
  apply same.pairwise_iff
  intro left right apart equal
  exact equal.trans (apart equal.symm)

private theorem updateFirst_none {pin : Nat} {change : FuncInfo → FuncInfo} {table : List FuncInfo}
    (missing : updateFirst pin change table = none) : ∀ info ∈ table, info.pin ≠ pin := by
  induction table with
  | nil => simp
  | cons head rest ih =>
    unfold updateFirst at missing
    split at missing
    next => cases missing
    next different =>
      intro info member
      rcases List.mem_cons.mp member with rfl | later
      · exact fun same => different same.symm
      · exact ih (Option.map_eq_none_iff.mp missing) info later

theorem updateFirst_some {pin : Nat} {change : FuncInfo → FuncInfo} {table after : List FuncInfo} {info : FuncInfo}
    (found : updateFirst pin change table = some (info, after)) :
    info.pin = pin ∧ ∃ front back, table = front ++ info :: back ∧ after = front ++ change info :: back := by
  induction table generalizing after with
  | nil => cases found
  | cons head rest ih =>
    unfold updateFirst at found
    split at found
    next same =>
      cases found
      exact ⟨same.symm, [], rest, rfl, rfl⟩
    next =>
      obtain ⟨⟨other, tail⟩, inner, equal⟩ := Option.map_eq_some_iff.mp found
      cases equal
      obtain ⟨carried, front, back, before, changed⟩ := ih inner
      exact ⟨carried, head :: front, back, by simp [before], by simp [changed]⟩

private theorem OncePerPin.replace {front back : List FuncInfo} {info other : FuncInfo}
    (once : OncePerPin (front ++ info :: back)) (pin : other.pin = info.pin ∨ other.pin = unbound) :
    OncePerPin (front ++ other :: back) := by
  obtain ⟨first, second, across⟩ := List.pairwise_append.mp once
  obtain ⟨later, rest⟩ := List.pairwise_cons.mp second
  refine List.pairwise_append.mpr ⟨first, List.pairwise_cons.mpr ⟨fun next member same => ?_, rest⟩, ?_⟩
  · rcases pin with kept | free
    · exact kept.trans (later next member (kept.symm.trans same))
    · exact free
  · intro early before next member same
    rcases List.mem_cons.mp member with rfl | after
    · rcases pin with kept | free
      · exact across early before info (by simp) (same.trans kept)
      · exact same.trans free
    · exact across early before next (by simp [after]) same

namespace Pins

variable {env : Env} {pins : Pins}

/-- Every bound pin is routed to its row's function, alone, and the owner of a
function is the pin of its row. -/
structure Routed (pins : Pins) : Prop where
  funcs : (pins.table.map FuncInfo.func).Perm (List.range' funcGpiohs0 gpiohsFuncSize)
  once : OncePerPin pins.table
  inside : ∀ info ∈ pins.table, info.pin ≠ unbound → info.pin < k210IoNums
  routed : ∀ info ∈ pins.table, info.pin ≠ unbound → pins.fpioa.chSel info.pin = info.func
  alone : ∀ info ∈ pins.table, info.pin ≠ unbound → ∀ pad < k210IoNums, pins.fpioa.chSel pad = info.func → pad = info.pin
  owner : ∀ func pin out, pins.owner func = some (pin, out) → pin < k210IoNums ∧
    (∃ info ∈ pins.table, info.func = func ∧ info.pin = pin) ∧ (out = true → pins.outputEn (func - funcGpiohs0) = true)

private theorem Routed.func_range (routed : Routed pins) {info : FuncInfo} (member : info ∈ pins.table) : isGpiohs info.func := by
  have inside := routed.funcs.subset (List.mem_map_of_mem member)
  rw [List.mem_range'_1] at inside
  simp only [isGpiohs, funcGpiohs0, funcGpiohs31, gpiohsFuncSize] at inside ⊢
  omega

private theorem Routed.func_valid (routed : Routed pins) {info : FuncInfo} (member : info ∈ pins.table) :
    info.func < funcMax ∧ info.func ≠ funcResv0 := by
  have range := routed.func_range member
  simp only [isGpiohs, funcGpiohs0, funcGpiohs31, funcMax, funcResv0] at range ⊢
  omega

/-- The row that a sort brings to the front is the only one that the call rebinds:
no other row carries the pin already. -/
def Rebinds (env : Env) (pin : Nat) (pins : Pins) : Prop :=
  ∀ info ∈ (env.qsort pins.sorts pins.table).tail, info.pin ≠ pin

instance (env : Env) (pin : Nat) (pins : Pins) : Decidable (Rebinds env pin pins) :=
  inferInstanceAs (Decidable (∀ info ∈ (env.qsort pins.sorts pins.table).tail, info.pin ≠ pin))

theorem start_routed (fpioa : Fpioa) (outputEn inputEn outputVal : Nat → Bool) (pull : Nat → Pull) :
    Routed (start fpioa outputEn inputEn outputVal pull) := by
  have free : ∀ info ∈ (start fpioa outputEn inputEn outputVal pull).table, info.pin = unbound := by
    intro info member
    obtain ⟨i, _, rfl⟩ := List.mem_map.mp member
    rfl
  refine ⟨?_, ?_, ?_, ?_, ?_, ?_⟩
  · simp only [start, initPins, List.map_map]
    apply List.Perm.of_eq
    decide
  · apply List.pairwise_iff_forall_sublist.mpr
    intro first second sub _
    exact free first (sub.subset (by simp))
  · exact fun info member bound => absurd (free info member) bound
  · exact fun info member bound => absurd (free info member) bound
  · exact fun info member bound => absurd (free info member) bound
  · intro func pin out owned
    cases owned

private theorem Routed.sorted_cons (routed : Routed pins) (env : Env) :
    ∃ info rest, env.qsort pins.sorts pins.table = info :: rest := by
  cases sorted : env.qsort pins.sorts pins.table with
  | nil =>
    have perm := env.perm pins.sorts pins.table
    rw [sorted] at perm
    have funcs := routed.funcs
    rw [List.nil_perm.mp perm] at funcs
    exact absurd funcs.length_eq (by decide)
  | cons info rest => exact ⟨info, rest, rfl⟩

/-- What `pinMode` does: it binds the row that the sort brings to the front, routes
the pin to that row's function and sets the direction of that function. -/
structure Bound (env : Env) (pin : Nat) (mode : PinMode) (info : FuncInfo) (rest : List FuncInfo)
    (before after : Pins) : Prop where
  sorted : env.qsort before.sorts before.table = info :: rest
  table : after.table = ⟨env.timeUs before.readings, info.func, pin⟩ :: rest
  fpioa : after.fpioa = before.fpioa.halFpioaSetPinFunc pin info.func
  owner : after.owner = Function.update before.owner info.func (some (pin, decide (driveMode mode = .output)))
  outputEn : after.outputEn = Function.update before.outputEn (info.func - funcGpiohs0) (decide (driveMode mode = .output))

private theorem Routed.pinMode_bound (routed : Routed pins) (env : Env) {pin : Nat} (inside : pin < k210IoNums) (mode : PinMode) :
    ∃ info rest, Bound env pin mode info rest pins (pins.pinMode env pin mode) := by
  obtain ⟨info, rest, sorted⟩ := routed.sorted_cons env
  have member : info ∈ pins.table := (env.perm pins.sorts pins.table).subset (by simp [sorted])
  have gpiohs := routed.func_range member
  obtain ⟨valid, unreserved⟩ := routed.func_valid member
  have pad : (pins.fpioa.halFpioaSetPinFunc pin info.func).fpioaGetIoByFunction
      (funcGpiohs0 + (info.func - funcGpiohs0)) = some pin := by
    rw [Nat.add_sub_cancel' gpiohs.1]
    exact Fpioa.getIoByFunction_set inside valid unreserved
  refine ⟨info, rest, sorted, ?_, ?_, ?_, ?_⟩
  all_goals
    simp only [pinMode, Nat.not_le_of_lt inside, if_false, halGpiohsSetPinFunc, sorted, gpiohs, if_true,
      gpiohsSetDriveMode, pad]

private theorem Bound.rest_member {pin : Nat} {mode : PinMode} {info : FuncInfo} {rest : List FuncInfo} {after : Pins}
    (bound : Bound env pin mode info rest pins after) {other : FuncInfo} (member : other ∈ rest) : other ∈ pins.table :=
  (env.perm pins.sorts pins.table).subset (by simp [bound.sorted, member])

private theorem Bound.head_member {pin : Nat} {mode : PinMode} {info : FuncInfo} {rest : List FuncInfo} {after : Pins}
    (bound : Bound env pin mode info rest pins after) : info ∈ pins.table :=
  (env.perm pins.sorts pins.table).subset (by simp [bound.sorted])

private theorem Bound.funcs {pin : Nat} {mode : PinMode} {info : FuncInfo} {rest : List FuncInfo} {after : Pins}
    (bound : Bound env pin mode info rest pins after) (routed : Routed pins) :
    (after.table.map FuncInfo.func).Perm (List.range' funcGpiohs0 gpiohsFuncSize) := by
  have same := (env.perm pins.sorts pins.table).map FuncInfo.func
  rw [bound.sorted] at same
  rw [bound.table]
  exact same.trans routed.funcs

/-- The other rows keep a function of their own. -/
theorem Bound.func_ne {pin : Nat} {mode : PinMode} {info : FuncInfo} {rest : List FuncInfo} {after : Pins}
    (bound : Bound env pin mode info rest pins after) (routed : Routed pins) {other : FuncInfo} (member : other ∈ rest) :
    other.func ≠ info.func := by
  have nodup := (bound.funcs routed).nodup_iff.mpr List.nodup_range'
  rw [bound.table, List.map_cons, List.nodup_cons] at nodup
  exact fun same => nodup.1 (same ▸ List.mem_map_of_mem member)

/-- Uniqueness of pins survives a `pinMode` exactly when no other row carries the pin. -/
theorem Bound.once_iff {pin : Nat} {mode : PinMode} {info : FuncInfo} {rest : List FuncInfo} {after : Pins}
    (bound : Bound env pin mode info rest pins after) (routed : Routed pins) (inside : pin < k210IoNums) :
    OncePerPin after.table ↔ Rebinds env pin pins := by
  have rest_once : OncePerPin rest := by
    have sorted := (OncePerPin.perm (env.perm pins.sorts pins.table)).mpr routed.once
    rw [bound.sorted] at sorted
    exact (List.pairwise_cons.mp sorted).2
  have pin_bound : pin ≠ unbound := by
    simp only [k210IoNums, unbound] at inside ⊢
    omega
  rw [bound.table, OncePerPin, List.pairwise_cons]
  unfold Rebinds
  rw [bound.sorted, List.tail_cons]
  constructor
  · intro once other member same
    exact pin_bound (once.1 other member same.symm)
  · intro rebinds
    exact ⟨fun other member same => absurd same.symm (rebinds other member), rest_once⟩

private theorem Bound.kept_member {pin : Nat} {mode : PinMode} {info : FuncInfo} {rest : List FuncInfo} {after : Pins}
    (bound : Bound env pin mode info rest pins after) {other : FuncInfo} (member : other ∈ pins.table)
    (different : other.func ≠ info.func) : other ∈ rest := by
  have sorted := (env.perm pins.sorts pins.table).symm.subset member
  rw [bound.sorted] at sorted
  rcases List.mem_cons.mp sorted with rfl | kept
  · exact absurd rfl different
  · exact kept

/-- The new owner is the pin, and every other function keeps its owner and its direction. -/
theorem Bound.owners {pin : Nat} {mode : PinMode} {info : FuncInfo} {rest : List FuncInfo} {after : Pins}
    (bound : Bound env pin mode info rest pins after) (routed : Routed pins) (inside : pin < k210IoNums) {func owner : Nat}
    {out : Bool} (owned : after.owner func = some (owner, out)) : owner < k210IoNums ∧
      (∃ other ∈ after.table, other.func = func ∧ other.pin = owner) ∧
        (out = true → after.outputEn (func - funcGpiohs0) = true) := by
  rw [bound.owner] at owned
  rw [bound.table, bound.outputEn]
  by_cases same : func = info.func
  · subst same
    rw [Function.update_self] at owned
    cases owned
    exact ⟨inside, ⟨_, List.mem_cons_self, rfl, rfl⟩, fun output => by rw [Function.update_self, output]⟩
  · rw [Function.update_of_ne same] at owned
    obtain ⟨owner_inside, ⟨other, member, named, carried⟩, driven⟩ := routed.owner func owner out owned
    have kept := bound.kept_member member (named ▸ same)
    refine ⟨owner_inside, ⟨other, List.mem_cons_of_mem _ kept, named, carried⟩, fun output => ?_⟩
    have gpiohs := routed.func_range member
    have headGpiohs := routed.func_range bound.head_member
    rw [named] at gpiohs
    have shifted : func - funcGpiohs0 ≠ info.func - funcGpiohs0 := by
      intro equal
      exact same (by have := gpiohs.1; have := headGpiohs.1; omega)
    rw [Function.update_of_ne shifted]
    exact driven output

private theorem Routed.pinMode (routed : Routed pins) {pin : Nat} (inside : pin < k210IoNums) (mode : PinMode)
    (rebinds : Rebinds env pin pins) : Routed (pins.pinMode env pin mode) := by
  obtain ⟨info, rest, bound⟩ := routed.pinMode_bound env inside mode
  obtain ⟨valid, unreserved⟩ := routed.func_valid bound.head_member
  have apart : ∀ other ∈ rest, other.pin ≠ pin := by
    intro other member
    apply rebinds
    rw [bound.sorted]
    exact member
  have here := Fpioa.setPinFunc_here pin info.func pins.fpioa inside valid
  have elsewhere : ∀ other ∈ rest, ∀ pad ≠ pin,
      ((pins.fpioa.halFpioaSetPinFunc pin info.func).chSel pad = other.func ↔ pins.fpioa.chSel pad = other.func) := by
    intro other kept pad different
    have routable := (routed.func_valid (bound.rest_member kept)).2
    exact Fpioa.setPinFunc_elsewhere inside valid unreserved different (bound.func_ne routed kept) routable
  refine ⟨bound.funcs routed, (bound.once_iff routed inside).mpr rebinds, ?_, ?_, ?_, ?_⟩
  · intro other member pinned
    rw [bound.table] at member
    rcases List.mem_cons.mp member with rfl | kept
    · exact inside
    · exact routed.inside other (bound.rest_member kept) pinned
  · intro other member pinned
    rw [bound.table] at member
    rw [bound.fpioa]
    rcases List.mem_cons.mp member with rfl | kept
    · exact here
    · apply (elsewhere other kept other.pin (apart other kept)).mpr
      exact routed.routed other (bound.rest_member kept) pinned
  · intro other member pinned pad pad_inside carried
    rw [bound.table] at member
    rw [bound.fpioa] at carried
    rcases List.mem_cons.mp member with rfl | kept
    · exact Fpioa.setPinFunc_alone inside valid unreserved pad_inside carried
    · have different : pad ≠ pin := by
        intro same
        subst same
        exact bound.func_ne routed kept (carried.symm.trans here)
      apply routed.alone other (bound.rest_member kept) pinned pad pad_inside
      exact (elsewhere other kept pad different).mp carried
  · intro func owner out owned
    exact bound.owners routed inside owned

/-- A row may lose its pin or be touched; its function stays its own. -/
theorem Routed.replace (routed : Routed pins) {after : Pins} {front back : List FuncInfo} {info other : FuncInfo}
    (before : pins.table = front ++ info :: back) (table : after.table = front ++ other :: back)
    (func : other.func = info.func) (pin : other.pin = info.pin ∨ other.pin = unbound)
    (chSel : after.fpioa.chSel = pins.fpioa.chSel) (outputEn : after.outputEn = pins.outputEn)
    (owner : ∀ func held out, after.owner func = some (held, out) →
      pins.owner func = some (held, out) ∧ (held = info.pin → other.pin = info.pin)) : Routed after := by
  have member_info : info ∈ pins.table := by simp [before]
  have old : ∀ row ∈ after.table, row.pin ≠ unbound → ∃ same ∈ pins.table, same.pin = row.pin ∧ same.func = row.func := by
    intro row member pinned
    rw [table] at member
    rcases List.mem_append.mp member with early | late
    · exact ⟨row, by simp [before, early], rfl, rfl⟩
    · rcases List.mem_cons.mp late with rfl | rest
      · exact ⟨info, member_info, (pin.resolve_right pinned).symm, func.symm⟩
      · exact ⟨row, by simp [before, rest], rfl, rfl⟩
  refine ⟨?_, ?_, ?_, ?_, ?_, ?_⟩
  · have funcs := routed.funcs
    rw [before] at funcs
    rw [table]
    simpa [func] using funcs
  · rw [table]
    exact OncePerPin.replace (before ▸ routed.once) pin
  · intro row member pinned
    obtain ⟨same, held, carried, _⟩ := old row member pinned
    rw [← carried] at pinned ⊢
    exact routed.inside same held pinned
  · intro row member pinned
    obtain ⟨same, held, carried, named⟩ := old row member pinned
    rw [← carried] at pinned ⊢
    rw [chSel, ← named]
    exact routed.routed same held pinned
  · intro row member pinned pad inside carries
    obtain ⟨same, held, carried, named⟩ := old row member pinned
    rw [← carried] at pinned ⊢
    rw [chSel, ← named] at carries
    exact routed.alone same held pinned pad inside carries
  · intro number held out owned
    obtain ⟨was, kept⟩ := owner number held out owned
    obtain ⟨inside, ⟨row, member, named, carried⟩, driven⟩ := routed.owner number held out was
    refine ⟨inside, ?_, outputEn ▸ driven⟩
    rw [before] at member
    rw [table]
    rcases List.mem_append.mp member with early | late
    · exact ⟨row, by simp [early], named, carried⟩
    · rcases List.mem_cons.mp late with rfl | rest
      · exact ⟨other, by simp, func.trans named, (kept carried.symm).trans carried⟩
      · exact ⟨row, by simp [rest], named, carried⟩

private theorem Routed.pinModeClear (routed : Routed pins) (pin : Nat) : Routed (pins.pinModeClear pin) := by
  have owner : ∀ func held out, (pins.pinModeClear pin).owner func = some (held, out) →
      pins.owner func = some (held, out) ∧ held ≠ pin := by
    intro func held out owned
    obtain ⟨was, different⟩ := Option.filter_eq_some_iff.mp owned
    exact ⟨was, of_decide_eq_true different⟩
  cases found : updateFirst pin (fun info => { info with pin := unbound, lastTime := 0 }) pins.table with
  | none =>
    have same : pins.halGpiohsClrPinFunc pin = pins := by simp only [halGpiohsClrPinFunc, found]
    refine ⟨?_, ?_, ?_, ?_, ?_, fun func held out owned => ?_⟩
    · simpa only [Pins.pinModeClear, same] using routed.funcs
    · simpa only [Pins.pinModeClear, same] using routed.once
    · simpa only [Pins.pinModeClear, same] using routed.inside
    · simpa only [Pins.pinModeClear, same] using routed.routed
    · simpa only [Pins.pinModeClear, same] using routed.alone
    · have was := routed.owner func held out (owner func held out owned).1
      simpa only [Pins.pinModeClear, same] using was
  | some changed =>
    obtain ⟨info, table⟩ := changed
    obtain ⟨carried, front, back, before, after⟩ := updateFirst_some found
    have cleared : (pins.pinModeClear pin).table = front ++ { info with pin := unbound, lastTime := 0 } :: back := by
      simp only [Pins.pinModeClear, halGpiohsClrPinFunc, found]
      exact after
    refine routed.replace before cleared rfl (.inr rfl) ?_ ?_ fun func held out owned => ?_
    · simp only [Pins.pinModeClear, halGpiohsClrPinFunc, found, Fpioa.clrPinFunc_chSel]
    · simp only [Pins.pinModeClear, halGpiohsClrPinFunc, found]
    · obtain ⟨was, different⟩ := owner func held out owned
      exact ⟨was, fun same => absurd (same.trans carried) different⟩

/-- A lookup answers with the function of a row that carries the pin, and only
notes the time of the use. -/
theorem Routed.get_cases (routed : Routed pins) (env : Env) (pin : Nat) :
    (pins.halGpiohsGetPinFunc env pin = (funcMax, pins) ∧ ∀ info ∈ pins.table, info.pin ≠ pin) ∨
      ∃ info table, info ∈ pins.table ∧ info.pin = pin ∧
        pins.halGpiohsGetPinFunc env pin = (info.func, { pins with table, readings := pins.readings + 1 }) ∧
        Routed { pins with table, readings := pins.readings + 1 } := by
  cases found : updateFirst pin (fun info => { info with lastTime := env.timeUs pins.readings }) pins.table with
  | none =>
    refine .inl ⟨?_, updateFirst_none found⟩
    simp only [halGpiohsGetPinFunc, found]
  | some changed =>
    obtain ⟨info, table⟩ := changed
    obtain ⟨carried, front, back, before, after⟩ := updateFirst_some found
    refine .inr ⟨info, table, by simp [before], carried, ?_, ?_⟩
    · simp only [halGpiohsGetPinFunc, found]
    · exact routed.replace before after rfl (.inl rfl) rfl rfl fun func held out owned => ⟨owned, fun _ => rfl⟩

/-- The lookup never names a function that the pad does not carry. -/
theorem Routed.get_routed (routed : Routed pins) (env : Env) {pin : Nat} (inside : pin < k210IoNums)
    (gpiohs : isGpiohs (pins.halGpiohsGetPinFunc env pin).1) :
    pins.fpioa.chSel pin = (pins.halGpiohsGetPinFunc env pin).1 := by
  rcases routed.get_cases env pin with ⟨missing, _⟩ | ⟨info, table, member, carried, found, _⟩
  · have outside : ¬isGpiohs funcMax := by decide
    rw [missing] at gpiohs
    exact absurd gpiohs outside
  · rw [found, ← carried]
    apply routed.routed info member
    rw [carried]
    simp only [k210IoNums, unbound] at inside ⊢
    omega

private theorem Routed.digitalRead (routed : Routed pins) (env : Env) (pin : Nat) : Routed (pins.digitalRead env pin).2 := by
  unfold Pins.digitalRead
  split
  · exact routed
  · rcases routed.get_cases env pin with ⟨missing, _⟩ | ⟨info, table, _, _, found, after⟩
    · rw [missing]
      exact routed
    · rw [found]
      exact after

private theorem Routed.outputs (routed : Routed pins) (outputVal : Nat → Bool) : Routed { pins with outputVal } :=
  ⟨routed.funcs, routed.once, routed.inside, routed.routed, routed.alone, routed.owner⟩

private theorem Routed.digitalWrite (routed : Routed pins) (env : Env) (pin : Nat) (status : Bool) :
    Routed (pins.digitalWrite env pin status) := by
  have got : Routed (pins.halGpiohsGetPinFunc env pin).2 := by
    rcases routed.get_cases env pin with ⟨missing, _⟩ | ⟨info, table, _, _, found, after⟩
    · rw [missing]
      exact routed
    · rw [found]
      exact after
  unfold Pins.digitalWrite
  split
  · exact routed
  · dsimp only
    split
    · exact got.outputs _
    · exact got

/-- A write to an owned output drives its pad and no other. -/
theorem Routed.write_drives (routed : Routed pins) (env : Env) {func pin : Nat} (status : Bool)
    (owned : pins.owner func = some (pin, true)) :
    (pins.digitalWrite env pin status).padLevel pin = some status ∧
      ∀ pad < k210IoNums, pad ≠ pin → (pins.digitalWrite env pin status).padLevel pad = pins.padLevel pad := by
  obtain ⟨inside, ⟨row, held, named, carries⟩, driven⟩ := routed.owner func pin true owned
  have bound : pin ≠ unbound := by
    simp only [k210IoNums, unbound] at inside ⊢
    omega
  rcases routed.get_cases env pin with ⟨_, absent⟩ | ⟨info, table, member, carried, found, _⟩
  · exact absurd carries (absent row held)
  · have chSel := routed.routed info member (carried ▸ bound)
    have same : info.func = func := by
      rw [← chSel, carried, ← carries, routed.routed row held (carries ▸ bound), named]
    have gpiohs := routed.func_range member
    rw [carried] at chSel
    have written : pins.digitalWrite env pin status = { pins with
        table, readings := pins.readings + 1,
        outputVal := Function.update pins.outputVal (info.func - funcGpiohs0) status } := by
      simp only [Pins.digitalWrite, Nat.not_le_of_lt inside, if_false, found, gpiohs, if_true]
    rw [written]
    constructor
    · have enabled := driven rfl
      rw [← same] at enabled
      simp only [padLevel, chSel, gpiohs, enabled, and_self, if_true, Function.update_self]
    · intro pad pad_inside different
      by_cases range : isGpiohs (pins.fpioa.chSel pad)
      · have other : pins.fpioa.chSel pad - funcGpiohs0 ≠ info.func - funcGpiohs0 := by
          intro equal
          have reached : pins.fpioa.chSel pad = info.func := by
            have := range.1
            have := gpiohs.1
            omega
          exact different ((routed.alone info member (carried ▸ bound) pad pad_inside reached).trans carried)
        simp only [padLevel, Function.update_of_ne other]
      · simp only [padLevel, range, false_and, if_false]

/-- The guard of a run: a pin is not given a second function while it has one. -/
def Fresh (env : Env) : Op → Pins → Prop
  | .pinMode pin _, pins => Rebinds env pin pins
  | .pinModeClear _, _ | .digitalWrite _ _, _ | .digitalRead _, _ => True

instance (env : Env) : ∀ op pins, Decidable (Fresh env op pins)
  | .pinMode pin _, pins => inferInstanceAs (Decidable (Rebinds env pin pins))
  | .pinModeClear _, _ | .digitalWrite _ _, _ | .digitalRead _, _ => inferInstanceAs (Decidable True)

private theorem perform_routed (env : Env) (op : Op) (pins : Pins) (routed : Routed pins) (fresh : Fresh env op pins) :
    Routed (perform env op pins) := by
  cases op with
  | pinMode pin mode => exact routed.pinMode pin.isLt mode fresh
  | pinModeClear pin => exact routed.pinModeClear pin
  | digitalWrite pin status => exact routed.digitalWrite env pin status
  | digitalRead pin => exact routed.digitalRead env pin

/-- The table and the multiplexer agree: no two rows carry the same pin, a lookup
names the function that the pad carries, and a write to a pin whose last mode was an
output drives that pad alone. -/
structure Agreement (env : Env) (pins : Pins) : Prop where
  once : OncePerPin pins.table
  routed : ∀ pin : Fin 48, isGpiohs (pins.halGpiohsGetPinFunc env pin).1 →
    pins.fpioa.chSel pin = (pins.halGpiohsGetPinFunc env pin).1
  drives : ∀ func pin status, pins.owner func = some (pin, true) →
    (pins.digitalWrite env pin status).padLevel pin = some status ∧
      ∀ pad < k210IoNums, pad ≠ pin → (pins.digitalWrite env pin status).padLevel pad = pins.padLevel pad

/-- The table and the multiplexer agree after every run that gives no pin a second
function. A further `pinMode` keeps the rows apart exactly when the pin has no other row. -/
theorem gpiohs_routing (env : Env) (fpioa : Fpioa) (outputEn inputEn outputVal : Nat → Bool) (pull : Nat → Pull)
    (ops : List Op) (guarded : Run.Guarded (perform env) (Fresh env) ops (start fpioa outputEn inputEn outputVal pull)) :
    Agreement env (Run.run (perform env) ops (start fpioa outputEn inputEn outputVal pull)) ∧
      ∀ (pin : Fin 48) mode,
        OncePerPin ((Run.run (perform env) ops (start fpioa outputEn inputEn outputVal pull)).pinMode env pin mode).table ↔
          Rebinds env pin (Run.run (perform env) ops (start fpioa outputEn inputEn outputVal pull)) := by
  have routed := guarded.invariant (perform_routed env) (start_routed fpioa outputEn inputEn outputVal pull)
  refine ⟨⟨routed.once, fun pin gpiohs => routed.get_routed env pin.isLt gpiohs,
    fun func pin status owned => routed.write_drives env status owned⟩, fun pin mode => ?_⟩
  obtain ⟨info, rest, bound⟩ := routed.pinMode_bound env pin.isLt mode
  exact bound.once_iff routed pin.isLt

/-- A clock that ticks at each reading and a stable sort. -/
def plainEnv : Env where
  timeUs reading := reading + 1
  increasing := fun _ _ below => Nat.succ_lt_succ below
  qsort _ table := table.insertionSort fun first second => first.lastTime ≤ second.lastTime
  perm _ table := List.perm_insertionSort _ table
  sorted _ table :=
    have : Std.Total fun first second : FuncInfo => first.lastTime ≤ second.lastTime :=
      ⟨fun first second => Nat.le_total first.lastTime second.lastTime⟩
    have : IsTrans FuncInfo fun first second => first.lastTime ≤ second.lastTime := ⟨fun _ _ _ => Nat.le_trans⟩
    List.pairwise_insertionSort _ table
  inputVal _ _ := false

def plainStart : Pins :=
  start ⟨fun _ => 0, fun _ => funcMax⟩ (fun _ => false) (fun _ => false) (fun _ => false) fun _ => .none

/-- Two outputs, the second of which is cleared and set up again. -/
theorem gpiohs_routing_two_outputs :
    ((Run.run (perform plainEnv) [.pinMode 5 .output, .pinMode 6 .output, .pinModeClear 6, .pinMode 6 .output]
      plainStart).digitalWrite plainEnv 5 true).padLevel 5 = some true := by
  have guarded : Run.Guarded (perform plainEnv) (Fresh plainEnv)
      [.pinMode 5 .output, .pinMode 6 .output, .pinModeClear 6, .pinMode 6 .output] plainStart :=
    ⟨by decide, by decide, by decide, by decide, trivial⟩
  exact ((gpiohs_routing plainEnv _ _ _ _ _ _ guarded).1.drives 24 5 true (by decide)).1

/-- Pin 5 is set up twice and another pin once: the lookup then answers with the
function that pin 5 had first, and a write to pin 5 leaves its pad low. -/
theorem pinMode_twice_misroutes :
    let pins := Run.run (perform plainEnv) [.pinMode 5 .output, .pinMode 5 .output, .pinMode 6 .output] plainStart
    (pins.halGpiohsGetPinFunc plainEnv 5).1 = 24 ∧ pins.fpioa.chSel 5 = 25 ∧ pins.owner 25 = some (5, true) ∧
      (pins.digitalWrite plainEnv 5 true).padLevel 5 = some false := by
  decide

end Pins
end ArduinoK210.Gpio
