import Mathlib.Logic.Function.Basic
import Mathlib.Data.Fin.Basic

/-! The interrupt side of the three timers: the instance table, the control
registers and the six lines to the interrupt controller. Channels 0 and 1 of a
timer share one line, channels 2 and 3 the other. -/

namespace ArduinoK210.Timer

/-- An address `&timer_instance[device][channel]`. -/
@[ext] structure Place where
  device : Fin 3
  channel : Fin 4
  deriving DecidableEq

/-- `Ticker::fired` is the only callback in use, so callback and context are one
field: the Ticker that it is called for. -/
structure Instance where
  device : Fin 3
  channel : Fin 4
  callback : Option Nat
  singleShot : Bool
  deriving DecidableEq

def Instance.cleared : Instance := ⟨0, 0, none, false⟩

def irqnTimer0A : Nat := 14

def irqnTimer0B : Nat := 15

def getTimerIrqn (place : Place) : Nat :=
  if place.channel.val < 2 then irqnTimer0A + place.device.val * 2 else irqnTimer0B + place.device.val * 2

/-- `line irq` is the context that `timer_interrupt_handler` is registered with. -/
structure Timers where
  instances : Place → Instance
  control : Place → UInt32
  intrStat : Fin 3 → BitVec 32
  line : Nat → Option Place
  enabled : Nat → Bool
  priority : Nat → Nat

namespace Timers

def timerCrEnable : UInt32 := 0x1

def timerCrUserMode : UInt32 := 0x2

def timerCrInterruptMask : UInt32 := 0x4

def timerSetEnable (place : Place) (enable : Bool) (timers : Timers) : Timers :=
  { timers with
    control := Function.update timers.control place
      (if enable then timerCrUserMode ||| timerCrEnable else timerCrInterruptMask) }

def timerIsEnable (place : Place) (timers : Timers) : Bool := timers.control place &&& timerCrEnable != 0

def plicSetPriority (irq priority : Nat) (timers : Timers) : Timers :=
  { timers with priority := Function.update timers.priority irq priority }

def plicIrqRegister (irq : Nat) (ctx : Option Place) (timers : Timers) : Timers :=
  { timers with line := Function.update timers.line irq ctx }

def plicIrqUnregister (irq : Nat) (timers : Timers) : Timers := timers.plicIrqRegister irq none

def plicIrqEnable (irq : Nat) (timers : Timers) : Timers :=
  { timers with enabled := Function.update timers.enabled irq true }

def setInstance (place : Place) (value : Instance) (timers : Timers) : Timers :=
  { timers with instances := Function.update timers.instances place value }

/-- Device and channel are in range by their types; the source answers -1 to others. -/
def timerIrqRegister (place : Place) (singleShot : Bool) (priority ticker : Nat) (timers : Timers) : Timers :=
  (((timers.setInstance place ⟨place.device, place.channel, some ticker, singleShot⟩).plicSetPriority
    (getTimerIrqn place) priority).plicIrqRegister (getTimerIrqn place) (some place)).plicIrqEnable (getTimerIrqn place)

def hasCallback (device : Fin 3) (channel : Fin 4) (timers : Timers) : Bool :=
  (timers.instances ⟨device, channel⟩).callback.isSome

/-- The line of the channel is taken down as soon as either pair of the timer is
without a callback, and not only its own. -/
def timerIrqUnregister (place : Place) (timers : Timers) : Timers :=
  let cleared := timers.setInstance place .cleared
  if !(cleared.hasCallback place.device 0 || cleared.hasCallback place.device 1) ||
      !(cleared.hasCallback place.device 2 || cleared.hasCallback place.device 3) then
    cleared.plicIrqUnregister (getTimerIrqn place)
  else cleared

/-- The read of a channel's `eoi` register. -/
def readEoi (place : Place) (timers : Timers) : Timers :=
  { timers with
    intrStat := Function.update timers.intrStat place.device
      (timers.intrStat place.device &&& ~~~(1#32 <<< place.channel.val)) }

/-- The hardware raises a channel's bit of `intr_stat`. -/
def expire (place : Place) (timers : Timers) : Timers :=
  { timers with
    intrStat := Function.update timers.intrStat place.device
      (timers.intrStat place.device ||| 1#32 <<< place.channel.val) }

def Pending (place : Place) (timers : Timers) : Prop := timers.intrStat place.device >>> place.channel.val &&& 1 ≠ 0

def reset : Timers :=
  ⟨fun _ => .cleared, fun _ => timerCrInterruptMask, fun _ => 0, fun _ => none, fun _ => false, fun _ => 0⟩

end Timers

/-- Two channels share a line when they are a pair of one timer. -/
theorem getTimerIrqn_eq_iff (first second : Place) :
    getTimerIrqn first = getTimerIrqn second ↔
      first.device = second.device ∧ first.channel.val / 2 = second.channel.val / 2 := by
  simp only [getTimerIrqn, irqnTimer0A, irqnTimer0B, Fin.ext_iff]
  split <;> split <;> omega

namespace Timers

/-- Some channel on the timer's other line has a callback. -/
def OtherPair (place : Place) (timers : Timers) : Prop :=
  ∃ other : Place, other.device = place.device ∧ getTimerIrqn other ≠ getTimerIrqn place ∧
    (timers.instances other).callback.isSome

private theorem hasCallback_pair (device : Fin 3) (timers : Timers) (low high : Fin 4) (even : low.val % 2 = 0)
    (next : high.val = low.val + 1) :
    (timers.hasCallback device low || timers.hasCallback device high) = true ↔
      ∃ channel : Fin 4, channel.val / 2 = low.val / 2 ∧ timers.hasCallback device channel = true := by
  constructor
  · intro some
    rcases Bool.or_eq_true_iff.mp some with left | right
    · exact ⟨low, rfl, left⟩
    · exact ⟨high, by omega, right⟩
  · intro found
    obtain ⟨channel, same, called⟩ := found
    have either : channel = low ∨ channel = high := by omega
    apply Bool.or_eq_true_iff.mpr
    rcases either with rfl | rfl
    · exact .inl called
    · exact .inr called

@[simp] theorem timerIrqUnregister_instances (place : Place) (timers : Timers) :
    (timers.timerIrqUnregister place).instances = Function.update timers.instances place .cleared := by
  unfold timerIrqUnregister
  dsimp only
  split <;> rfl

@[simp] theorem timerIrqUnregister_control (place : Place) (timers : Timers) :
    (timers.timerIrqUnregister place).control = timers.control := by
  unfold timerIrqUnregister
  dsimp only
  split <;> rfl

@[simp] theorem timerIrqUnregister_enabled (place : Place) (timers : Timers) :
    (timers.timerIrqUnregister place).enabled = timers.enabled := by
  unfold timerIrqUnregister
  dsimp only
  split <;> rfl

theorem timerIrqUnregister_line_other {place : Place} {irq : Nat} (timers : Timers) (other : irq ≠ getTimerIrqn place) :
    (timers.timerIrqUnregister place).line irq = timers.line irq := by
  unfold timerIrqUnregister
  dsimp only
  split
  · exact Function.update_of_ne other _ _
  · rfl

theorem timerIrqUnregister_line_own (place : Place) (timers : Timers) :
    (timers.timerIrqUnregister place).line (getTimerIrqn place) = none ∨
      (timers.timerIrqUnregister place).line (getTimerIrqn place) = timers.line (getTimerIrqn place) := by
  unfold timerIrqUnregister
  dsimp only
  split
  · exact .inl (Function.update_self _ _ _)
  · exact .inr rfl

/-- A pair of the timer is in use when one of its two channels has a callback. -/
def PairInUse (device : Fin 3) (pair : Nat) (timers : Timers) : Prop :=
  ∃ channel : Fin 4, channel.val / 2 = pair ∧ timers.hasCallback device channel = true

private theorem timerIrqUnregister_line_kept {place : Place} {timers : Timers}
    (low : PairInUse place.device 0 (timers.setInstance place .cleared))
    (high : PairInUse place.device 1 (timers.setInstance place .cleared)) :
    (timers.timerIrqUnregister place).line = timers.line := by
  have first := (hasCallback_pair place.device _ 0 1 rfl rfl).mpr low
  have second := (hasCallback_pair place.device _ 2 3 rfl rfl).mpr high
  simp only [timerIrqUnregister, first, second, Bool.not_true, Bool.or_self, Bool.false_eq_true, if_false]
  rfl

private theorem timerIrqUnregister_line_dropped {place : Place} {timers : Timers} {pair : Nat} (two : pair < 2)
    (empty : ¬PairInUse place.device pair (timers.setInstance place .cleared)) :
    (timers.timerIrqUnregister place).line (getTimerIrqn place) = none := by
  have dropped : (!((timers.setInstance place .cleared).hasCallback place.device 0 ||
      (timers.setInstance place .cleared).hasCallback place.device 1) ||
      !((timers.setInstance place .cleared).hasCallback place.device 2 ||
      (timers.setInstance place .cleared).hasCallback place.device 3)) = true := by
    by_contra kept
    rw [Bool.not_eq_true, Bool.or_eq_false_iff, Bool.not_eq_false', Bool.not_eq_false'] at kept
    have low := (hasCallback_pair place.device _ 0 1 rfl rfl).mp kept.1
    have high := (hasCallback_pair place.device _ 2 3 rfl rfl).mp kept.2
    have either : pair = 0 ∨ pair = 1 := by omega
    rcases either with rfl | rfl
    · exact empty low
    · exact empty high
  simp only [timerIrqUnregister, dropped, if_true]
  exact Function.update_self _ _ _

private theorem pairInUse_partner {place partner : Place} {timers : Timers} (different : partner ≠ place)
    (pair : getTimerIrqn partner = getTimerIrqn place) (live : (timers.instances partner).callback.isSome) :
    PairInUse place.device (place.channel.val / 2) (timers.setInstance place .cleared) := by
  obtain ⟨same, half⟩ := (getTimerIrqn_eq_iff partner place).mp pair
  refine ⟨partner.channel, half, ?_⟩
  have here : (⟨place.device, partner.channel⟩ : Place) = partner := Place.ext same.symm rfl
  simp only [hasCallback, setInstance, here, Function.update_of_ne different]
  exact live

private theorem pairInUse_other (place : Place) (timers : Timers) :
    PairInUse place.device (1 - place.channel.val / 2) (timers.setInstance place .cleared) ↔ timers.OtherPair place := by
  constructor
  · intro found
    obtain ⟨channel, half, called⟩ := found
    have apart : getTimerIrqn ⟨place.device, channel⟩ ≠ getTimerIrqn place := by
      intro shared
      have same := ((getTimerIrqn_eq_iff _ _).mp shared).2
      dsimp only at same
      omega
    have elsewhere : (⟨place.device, channel⟩ : Place) ≠ place := fun same => apart (congrArg getTimerIrqn same)
    simp only [hasCallback, setInstance, Function.update_of_ne elsewhere] at called
    exact ⟨⟨place.device, channel⟩, rfl, apart, called⟩
  · rintro ⟨⟨device, channel⟩, rfl, apart, called⟩
    have half : channel.val / 2 ≠ place.channel.val / 2 := fun same =>
      apart ((getTimerIrqn_eq_iff _ _).mpr ⟨rfl, same⟩)
    have elsewhere : (⟨place.device, channel⟩ : Place) ≠ place := fun same => apart (congrArg getTimerIrqn same)
    refine ⟨channel, by omega, ?_⟩
    simp only [hasCallback, setInstance, Function.update_of_ne elsewhere]
    exact called

/-- With a live partner on its line, a channel that leaves keeps the line up just
when the timer's other pair is in use. -/
theorem timerIrqUnregister_line_shared {place partner : Place} {timers : Timers} (different : partner ≠ place)
    (pair : getTimerIrqn partner = getTimerIrqn place) (live : (timers.instances partner).callback.isSome) :
    (timers.OtherPair place → (timers.timerIrqUnregister place).line = timers.line) ∧
      (¬timers.OtherPair place → (timers.timerIrqUnregister place).line (getTimerIrqn place) = none) := by
  have own := pairInUse_partner different pair live
  have halves : place.channel.val / 2 = 0 ∨ place.channel.val / 2 = 1 := by omega
  constructor
  · intro used
    have other := (pairInUse_other place timers).mpr used
    rcases halves with half | half
    · rw [half] at own other
      exact timerIrqUnregister_line_kept own other
    · rw [half] at own other
      exact timerIrqUnregister_line_kept other own
  · intro unused
    exact timerIrqUnregister_line_dropped (by omega) (fun other => unused ((pairInUse_other place timers).mp other))

end Timers
end ArduinoK210.Timer
