import Mathlib.Data.Nat.Basic
import ArduinoK210.Lib.Run

/-! The pin multiplexer and the software map that the HAL keeps beside it. Moving a function to another pin parks the pin that carried
it, which the map does not record. -/

namespace ArduinoK210.Gpio

def k210IoNums : Nat := 48
def funcGpiohs0 : Nat := 24
def funcGpiohs31 : Nat := 55
def funcResv0 : Nat := 120
def funcTimer0Toggle1 : Nat := 190
def funcMax : Nat := 256

/-- `chSel` is the hardware's `ch_sel` field of each pad, `pinFuncMap` the HAL's
record of the function it last gave a pin. -/
structure Fpioa where
  chSel : Nat → Nat
  pinFuncMap : Nat → Nat

namespace Fpioa

def fpioaSetFunctionRaw (number function : Nat) (fpioa : Fpioa) : Fpioa :=
  { fpioa with chSel := fun i => if i = number then function else fpioa.chSel i }

/-- Every other pad that carried the function is parked on the reserved one. -/
def fpioaSetFunction (number function : Nat) (fpioa : Fpioa) : Fpioa :=
  if k210IoNums ≤ number ∨ funcMax ≤ function then fpioa
  else if function = funcResv0 then fpioa.fpioaSetFunctionRaw number funcResv0
  else
    { fpioa with
      chSel := fun i =>
        if i < k210IoNums ∧ fpioa.chSel i = function ∧ i ≠ number then funcResv0 else fpioa.chSel i }
      |>.fpioaSetFunctionRaw number function

def halFpioaSetPinFunc (pin func : Nat) (fpioa : Fpioa) : Fpioa :=
  if pin < k210IoNums then
    { fpioa with pinFuncMap := fun i => if i = pin then func else fpioa.pinFuncMap i }.fpioaSetFunction pin func
  else fpioa

def halFpioaGetPinFunc (pin : Nat) (fpioa : Fpioa) : Nat :=
  if pin < k210IoNums then fpioa.pinFuncMap pin else funcMax

def halFpioaClrPinFunc (pin : Nat) (fpioa : Fpioa) : Fpioa :=
  if pin < k210IoNums then
    { fpioa with pinFuncMap := fun i => if i = pin then funcMax else fpioa.pinFuncMap i }
  else fpioa

def fpioaGetIoByFunction (function : Nat) (fpioa : Fpioa) : Option Nat :=
  (List.range k210IoNums).find? (fun index => fpioa.chSel index = function)

theorem setPinFunc_here (pin func : Nat) (fpioa : Fpioa) (inside : pin < k210IoNums) (valid : func < funcMax) :
    (fpioa.halFpioaSetPinFunc pin func).chSel pin = func := by
  simp only [halFpioaSetPinFunc, inside, if_true, fpioaSetFunction, Nat.not_le_of_lt inside, Nat.not_le_of_lt valid,
    or_self, if_false]
  split
  next reserved => simp [fpioaSetFunctionRaw, reserved]
  next => simp [fpioaSetFunctionRaw]

theorem setPinFunc_other (pin func other : Nat) (fpioa : Fpioa) (inside : pin < k210IoNums) (valid : func < funcMax)
    (unreserved : func ≠ funcResv0) (different : other ≠ pin) :
    (fpioa.halFpioaSetPinFunc pin func).chSel other =
      if other < k210IoNums ∧ fpioa.chSel other = func then funcResv0 else fpioa.chSel other := by
  simp [halFpioaSetPinFunc, inside, fpioaSetFunction, Nat.not_le_of_lt inside, Nat.not_le_of_lt valid, unreserved,
    fpioaSetFunctionRaw, different]

theorem setPinFunc_elsewhere {pin func pad kept : Nat} {fpioa : Fpioa} (inside : pin < k210IoNums) (valid : func < funcMax)
    (unreserved : func ≠ funcResv0) (different : pad ≠ pin) (other : kept ≠ func) (routable : kept ≠ funcResv0) :
    (fpioa.halFpioaSetPinFunc pin func).chSel pad = kept ↔ fpioa.chSel pad = kept := by
  rw [setPinFunc_other pin func pad fpioa inside valid unreserved different]
  split
  next parked =>
    exact ⟨fun reserved => absurd reserved.symm routable, fun same => absurd (same.symm.trans parked.2) other⟩
  next => exact Iff.rfl

theorem setPinFunc_alone {pin func pad : Nat} {fpioa : Fpioa} (inside : pin < k210IoNums) (valid : func < funcMax)
    (unreserved : func ≠ funcResv0) (pad_inside : pad < k210IoNums)
    (carried : (fpioa.halFpioaSetPinFunc pin func).chSel pad = func) : pad = pin := by
  by_contra different
  rw [setPinFunc_other pin func pad fpioa inside valid unreserved different] at carried
  split at carried
  next => exact unreserved carried.symm
  next absent => exact absent ⟨pad_inside, carried⟩

theorem getIoByFunction_set {pin func : Nat} {fpioa : Fpioa} (inside : pin < k210IoNums) (valid : func < funcMax)
    (unreserved : func ≠ funcResv0) : (fpioa.halFpioaSetPinFunc pin func).fpioaGetIoByFunction func = some pin := by
  apply List.find?_range_eq_some.mpr
  refine ⟨decide_eq_true (setPinFunc_here pin func fpioa inside valid), List.mem_range.mpr inside, fun pad below => ?_⟩
  rw [Bool.not_eq_true', decide_eq_false_iff_not]
  intro carried
  have same := setPinFunc_alone inside valid unreserved (Nat.lt_trans below inside) carried
  omega

@[simp] theorem clrPinFunc_chSel (pin : Nat) (fpioa : Fpioa) : (fpioa.halFpioaClrPinFunc pin).chSel = fpioa.chSel := by
  unfold halFpioaClrPinFunc
  split <;> rfl

end Fpioa
end ArduinoK210.Gpio

namespace ArduinoK210.Gpio.Fpioa

def halFpioaInit (fpioa : Fpioa) : Fpioa :=
  { fpioa with pinFuncMap := fun i => if i < k210IoNums then funcMax else fpioa.pinFuncMap i }

/-- The functions are the values of `fpioa_function_t`, `FUNC_MAX` among them. -/
inductive MapOp where
  | setPinFunc (pin : Fin 256) (func : Fin 257)
  | clrPinFunc (pin : Fin 256)

def perform : MapOp → Fpioa → Fpioa
  | .setPinFunc pin func, fpioa => fpioa.halFpioaSetPinFunc pin func
  | .clrPinFunc pin, fpioa => fpioa.halFpioaClrPinFunc pin

structure Agrees (fpioa : Fpioa) : Prop where
  routed : ∀ pin < k210IoNums, fpioa.pinFuncMap pin ≠ funcMax → fpioa.chSel pin = fpioa.pinFuncMap pin
  once : ∀ pin < k210IoNums, ∀ other < k210IoNums, fpioa.pinFuncMap pin ≠ funcMax →
    fpioa.pinFuncMap pin = fpioa.pinFuncMap other → pin = other

/-- The call gives a pin no function that the map records for another pin. -/
def Unrecorded : MapOp → Fpioa → Prop
  | .setPinFunc pin func, fpioa => pin.val < k210IoNums → func.val ≠ funcMax →
      ∀ other < k210IoNums, fpioa.pinFuncMap other = func → other = pin
  | .clrPinFunc _, _ => True

variable {fpioa : Fpioa}

private theorem setPinFunc_map (pin func other : Nat) (fpioa : Fpioa) (inside : pin < k210IoNums) :
    (fpioa.halFpioaSetPinFunc pin func).pinFuncMap other = if other = pin then func else fpioa.pinFuncMap other := by
  simp only [halFpioaSetPinFunc, inside, if_true, fpioaSetFunction, fpioaSetFunctionRaw]
  split
  next => rfl
  next => split <;> rfl

private theorem clrPinFunc_map (pin other : Nat) (fpioa : Fpioa) (inside : pin < k210IoNums) :
    (fpioa.halFpioaClrPinFunc pin).pinFuncMap other = if other = pin then funcMax else fpioa.pinFuncMap other := by
  simp only [halFpioaClrPinFunc, inside, if_true]

private theorem setPinFunc_max (pin : Nat) (fpioa : Fpioa) : (fpioa.halFpioaSetPinFunc pin funcMax).chSel = fpioa.chSel := by
  unfold halFpioaSetPinFunc
  split
  next => simp [fpioaSetFunction]
  next => rfl

theorem setPinFunc_spared {pin func other : Nat} (inside : pin < k210IoNums) (valid : func < funcMax)
    (different : other ≠ pin) (spared : fpioa.chSel other ≠ func) :
    (fpioa.halFpioaSetPinFunc pin func).chSel other = fpioa.chSel other := by
  by_cases reserved : func = funcResv0
  · have bounded : ¬ funcMax ≤ funcResv0 := by decide
    simp [halFpioaSetPinFunc, inside, fpioaSetFunction, Nat.not_le_of_lt inside, bounded, reserved, fpioaSetFunctionRaw,
      different]
  · rw [setPinFunc_other pin func other fpioa inside valid reserved different]
    exact if_neg fun carried => spared carried.2

private theorem init_agrees (fpioa : Fpioa) : Agrees fpioa.halFpioaInit :=
  ⟨fun _ inside recorded => absurd (if_pos inside) recorded,
    fun _ inside _ _ recorded => absurd (if_pos inside) recorded⟩

theorem Agrees.forget {after : Fpioa} {pin : Nat} (agrees : Agrees fpioa) (hardware : after.chSel = fpioa.chSel)
    (map : ∀ other, after.pinFuncMap other = if other = pin then funcMax else fpioa.pinFuncMap other) : Agrees after := by
  have kept : ∀ other, after.pinFuncMap other ≠ funcMax → after.pinFuncMap other = fpioa.pinFuncMap other := by
    intro other recorded
    have value := map other
    split at value
    next => exact absurd value recorded
    next => exact value
  refine ⟨fun other inside recorded => ?_, fun first inside second within recorded same => ?_⟩
  · have equal := kept other recorded
    rw [hardware, equal]
    exact agrees.routed other inside (equal ▸ recorded)
  · have left := kept first recorded
    have right := kept second (same ▸ recorded)
    exact agrees.once first inside second within (left ▸ recorded) (left.symm.trans (same.trans right))

private theorem Agrees.clrPinFunc (agrees : Agrees fpioa) (pin : Nat) : Agrees (fpioa.halFpioaClrPinFunc pin) := by
  by_cases inside : pin < k210IoNums
  · exact agrees.forget (clrPinFunc_chSel pin fpioa) fun other => clrPinFunc_map pin other fpioa inside
  · rw [halFpioaClrPinFunc, if_neg inside]
    exact agrees

private theorem Agrees.setPinFunc {pin func : Nat} (agrees : Agrees fpioa) (inside : pin < k210IoNums) (valid : func < funcMax)
    (unrecorded : ∀ other < k210IoNums, fpioa.pinFuncMap other = func → other = pin) :
    Agrees (fpioa.halFpioaSetPinFunc pin func) := by
  refine ⟨fun other within recorded => ?_, fun first within second bounded recorded same => ?_⟩
  · rw [setPinFunc_map pin func other fpioa inside] at recorded ⊢
    by_cases here : other = pin
    · rw [if_pos here, here]
      exact setPinFunc_here pin func fpioa inside valid
    · rw [if_neg here] at recorded ⊢
      have carried := agrees.routed other within recorded
      have spared : fpioa.chSel other ≠ func := fun clash => here (unrecorded other within (carried.symm.trans clash))
      exact (setPinFunc_spared inside valid here spared).trans carried
  · rw [setPinFunc_map pin func first fpioa inside] at recorded same
    rw [setPinFunc_map pin func second fpioa inside] at same
    by_cases left : first = pin
    · by_cases right : second = pin
      · exact left.trans right.symm
      · rw [if_pos left, if_neg right] at same
        exact left.trans (unrecorded second bounded same.symm).symm
    · rw [if_neg left] at recorded same
      by_cases right : second = pin
      · rw [if_pos right] at same
        exact (unrecorded first within same).trans right.symm
      · rw [if_neg right] at same
        exact agrees.once first within second bounded recorded same

/-- The pin that loses the function keeps its entry in the map. -/
theorem setPinFunc_moved {pin func other : Nat} (inside : pin < k210IoNums) (valid : func < funcMax)
    (within : other < k210IoNums) (recorded : fpioa.pinFuncMap other = func) (different : other ≠ pin) :
    ¬ Agrees (fpioa.halFpioaSetPinFunc pin func) := by
  intro after
  have here : (fpioa.halFpioaSetPinFunc pin func).pinFuncMap pin = func := by
    rw [setPinFunc_map pin func pin fpioa inside, if_pos rfl]
  have there : (fpioa.halFpioaSetPinFunc pin func).pinFuncMap other = func := by
    rw [setPinFunc_map pin func other fpioa inside, if_neg different, recorded]
  have known : (fpioa.halFpioaSetPinFunc pin func).pinFuncMap other ≠ funcMax := by
    rw [there]
    exact Nat.ne_of_lt valid
  exact different (after.once other within pin inside known (there.trans here.symm))

private theorem Agrees.step_iff (op : MapOp) (fpioa : Fpioa) (agrees : Agrees fpioa) :
    Agrees (perform op fpioa) ↔ Unrecorded op fpioa := by
  cases op with
  | clrPinFunc pin => exact ⟨fun _ => trivial, fun _ => agrees.clrPinFunc pin⟩
  | setPinFunc pin func =>
    refine ⟨fun after inside known other within recorded => ?_, fun unrecorded => ?_⟩
    · by_contra different
      have valid : func.val < funcMax := Nat.lt_of_le_of_ne (Nat.lt_succ_iff.mp func.isLt) known
      exact setPinFunc_moved inside valid within recorded different after
    · by_cases inside : pin.val < k210IoNums
      · by_cases known : func.val = funcMax
        · simp only [perform, known]
          apply agrees.forget (setPinFunc_max pin fpioa)
          exact fun other => setPinFunc_map pin funcMax other fpioa inside
        · have valid : func.val < funcMax := Nat.lt_of_le_of_ne (Nat.lt_succ_iff.mp func.isLt) known
          exact agrees.setPinFunc inside valid (unrecorded inside known)
      · simp only [perform, halFpioaSetPinFunc, if_neg inside]
        exact agrees

/-- In every state that a sequence of calls passes the map agrees with the
multiplexer if and only if no call moves a recorded function to another pin. -/
theorem pinFuncMap_agrees_iff (ops : List MapOp) (fpioa : Fpioa) :
    (∀ front, front <+: ops → Agrees (Run.run perform front fpioa.halFpioaInit)) ↔
      Run.Guarded perform Unrecorded ops fpioa.halFpioaInit :=
  Run.guarded_iff Agrees.step_iff ops fpioa.halFpioaInit (init_agrees fpioa)

theorem pinFuncMap_drifts :
    ¬ ∀ (ops : List MapOp) (fpioa : Fpioa), ∀ pin < k210IoNums,
      (Run.run perform ops fpioa.halFpioaInit).pinFuncMap pin ≠ funcMax →
      (Run.run perform ops fpioa.halFpioaInit).chSel pin = (Run.run perform ops fpioa.halFpioaInit).pinFuncMap pin := by
  intro agrees
  have routed := agrees [.setPinFunc 1 24, .setPinFunc 2 24] ⟨fun _ => funcResv0, fun _ => funcMax⟩ 1
  exact absurd (routed (by decide) (by decide)) (by decide)

end ArduinoK210.Gpio.Fpioa
