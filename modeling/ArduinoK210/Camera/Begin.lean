import Mathlib.Algebra.Group.Nat.Defs
import Mathlib.Data.Int.Basic
import Mathlib.Logic.Function.Basic

/-! The start of the camera port, and the exchange of neighbouring pixels in its display buffer.
What the pins, the clock and the port are told after the buffers are there is left out. -/

namespace ArduinoK210.Camera

structure CameraPins where
  pclk : Int
  xclk : Int
  hsync : Int
  vsync : Int
  rst : Int
  pwdn : Int
  deriving DecidableEq

structure AiBuffers where
  r : Option Int
  g : Option Int
  b : Option Int
  deriving DecidableEq

structure CameraBuffers where
  disply : Option Int
  ai : AiBuffers
  deriving DecidableEq

/-- The static fields of `BusDVP`, its lock and the flag of its interrupt. -/
structure BusDvp where
  locked : Bool
  begined : Bool
  imgWidth : Int
  imgHeight : Int
  innerBuffFlag : Bool
  buff : CameraBuffers
  pins : CameraPins
  irqDoneFlag : Int
  deriving DecidableEq

/-- A product in an `int` of 32 bits. -/
def int32 (value : Int) : Int := value.bmod (2 ^ 32)

/-- The arguments of `begin`, and what the allocator answers to each size. -/
structure Start where
  pins : CameraPins
  width : Int
  height : Int
  buff : Option CameraBuffers
  malloc : Int → Option Int

namespace BusDvp

def pixels (bus : BusDvp) : Int := int32 (bus.imgWidth * bus.imgHeight)

/-- The end of `begin`, when there are buffers. -/
def started (buff : CameraBuffers) (innerBuffFlag : Bool) (bus : BusDvp) : Int × BusDvp :=
  (0, { bus with buff, innerBuffFlag, begined := true, irqDoneFlag := 1, locked := false })

/-- `begin`; a call that finds the lock held does not return. -/
def begin (start : Start) (bus : BusDvp) : Option (Int × BusDvp) :=
  let pins := start.pins
  if pins.pclk < 0 ∨ pins.xclk < 0 ∨ pins.hsync < 0 ∨ pins.vsync < 0 ∨ pins.rst < 0 ∨ pins.pwdn < 0 then some (-1, bus)
  else if start.width = 0 ∨ start.height = 0 ∨ bus.begined = true then some (-1, bus)
  else if bus.locked then none
  else
    let bus := { bus with locked := true, pins, imgWidth := start.width, imgHeight := start.height }
    match start.buff with
    | some buff => some (bus.started buff false)
    | none =>
        match start.malloc (int32 (bus.pixels * 5)) with
        | none => some (-1, { bus with innerBuffFlag := true, buff := { bus.buff with disply := none } })
        | some disply =>
            let r := disply + int32 (bus.pixels * 2)
            let g := r + bus.pixels
            let b := g + bus.pixels
            some (bus.started ⟨some disply, ⟨some r, some g, some b⟩⟩ true)

/-- The loop of `convert_display_buffer_order`, with the pixels that it touched. -/
def exchange (stop : Int) : Nat → Int → (Int → UInt16) → Option ((Int → UInt16) × List Int)
  | 0, _, _ => none
  | fuel + 1, img, mem =>
      if img ≠ stop then
        let t := mem img
        let mem := Function.update (Function.update mem img (mem (img + 1))) (img + 1) t
        (exchange stop fuel (img + 2) mem).map fun (last, touched) => (last, img :: (img + 1) :: touched)
      else some (mem, [])

def convertDisplayBufferOrder (fuel : Nat) (mem : Int → UInt16) (bus : BusDvp) : Option ((Int → UInt16) × List Int) :=
  exchange bus.pixels fuel 0 mem

/-- The exchange comes to an end, stays in the picture, and the second one takes the first back. -/
def Reorders (bus : BusDvp) : Prop :=
  ∀ mem, ∃ fuel last touched, bus.convertDisplayBufferOrder fuel mem = some (last, touched) ∧
    (∀ place ∈ touched, 0 ≤ place ∧ place < bus.imgWidth * bus.imgHeight) ∧
      ∃ fuel' touched', bus.convertDisplayBufferOrder fuel' last = some (mem, touched')

/-- Arguments that nothing is wrong with, with buffers of the caller. -/
structure Start.Good (start : Start) : Prop where
  pins : 0 ≤ start.pins.pclk ∧ 0 ≤ start.pins.xclk ∧ 0 ≤ start.pins.hsync ∧ 0 ≤ start.pins.vsync ∧ 0 ≤ start.pins.rst ∧ 0 ≤ start.pins.pwdn
  width : start.width ≠ 0
  height : start.height ≠ 0
  buff : start.buff ≠ none

/-- What `begin` is to leave behind, whatever it returns. -/
structure Promised (start : Start) (bus : BusDvp) : Prop where
  refused : ∀ after, bus.begin start = some (-1, after) → after = bus
  later : ∀ after, bus.begin start = some (-1, after) → bus.begined = false → bus.locked = false →
    ∀ good : Start, Start.Good good → ∃ final, after.begin good = some (0, final)
  accepted : ∀ after, bus.begin start = some (0, after) → after.Reorders

structure Enters (start : Start) (bus : BusDvp) : Prop where
  pins : 0 ≤ start.pins.pclk ∧ 0 ≤ start.pins.xclk ∧ 0 ≤ start.pins.hsync ∧ 0 ≤ start.pins.vsync ∧ 0 ≤ start.pins.rst ∧ 0 ≤ start.pins.pwdn
  width : start.width ≠ 0
  height : start.height ≠ 0
  begined : bus.begined = false
  locked : bus.locked = false

/-- The number of pixels is even, is not negative, and counts pixels of the picture. -/
def Even (width height : Int) : Prop :=
  int32 (width * height) % 2 = 0 ∧ 0 ≤ int32 (width * height) ∧ (int32 (width * height) = 0 ∨ 0 < width * height)

def Clean (start : Start) (bus : BusDvp) : Prop :=
  Enters start bus →
    (start.buff = none → start.malloc (int32 (int32 (start.width * start.height) * 5)) ≠ none) ∧ Even start.width start.height

/-- The neighbour that a pixel changes places with, in pairs from `img` on. -/
def partner (img place : Int) : Int := if (place - img) % 2 = 0 then place + 1 else place - 1

def exchanged (img stop : Int) (mem : Int → UInt16) (place : Int) : UInt16 :=
  if img ≤ place ∧ place < stop then mem (partner img place) else mem place

private theorem exchanged_step {img stop : Int} (more : img + 2 ≤ stop) (whole : (stop - img) % 2 = 0) (mem : Int → UInt16) :
    exchanged (img + 2) stop (Function.update (Function.update mem img (mem (img + 1))) (img + 1) (mem img)) =
      exchanged img stop mem := by
  funext place
  have pairs : partner (img + 2) place = partner img place := by
    unfold partner
    rw [show (place - (img + 2)) % 2 = (place - img) % 2 by omega]
  unfold exchanged
  rw [pairs]
  by_cases later : img + 2 ≤ place ∧ place < stop
  · have first : partner img place ≠ img + 1 ∧ partner img place ≠ img := by
      unfold partner
      split <;> omega
    rw [if_pos later, if_pos (by omega), Function.update_of_ne first.1, Function.update_of_ne first.2]
  · rw [if_neg later]
    by_cases here : place = img
    · rw [here, if_pos (by omega), Function.update_of_ne (by omega), Function.update_self, partner, if_pos (by omega)]
    · by_cases next : place = img + 1
      · rw [next, if_pos (by omega), Function.update_self, partner, if_neg (by omega), Int.add_sub_cancel]
      · rw [if_neg (by omega), Function.update_of_ne next, Function.update_of_ne here]

theorem exchange_pairs (pairs : Nat) (img : Int) (mem : Int → UInt16) :
    ∃ touched, exchange (img + 2 * pairs) (pairs + 1) img mem = some (exchanged img (img + 2 * pairs) mem, touched) ∧
      ∀ place ∈ touched, img ≤ place ∧ place < img + 2 * pairs := by
  induction pairs generalizing img mem with
  | zero =>
    refine ⟨[], ?_, fun place member => absurd member List.not_mem_nil⟩
    have stay : exchanged img (img + 2 * (0 : Nat)) mem = mem := by
      funext place
      exact if_neg (by omega)
    rw [stay, exchange, if_neg (by omega)]
  | succ pairs ih =>
    have stop : img + 2 * ((pairs + 1 : Nat) : Int) = img + 2 + 2 * (pairs : Nat) := by omega
    obtain ⟨touched, later, inside⟩ := ih (img + 2) (Function.update (Function.update mem img (mem (img + 1))) (img + 1) (mem img))
    refine ⟨img :: (img + 1) :: touched, ?_, ?_⟩
    · rw [exchange, if_pos (by omega), stop]
      dsimp only
      rw [later, exchanged_step (by omega) (by omega)]
      rfl
    · intro place member
      obtain first | rest := List.mem_cons.mp member
      · omega
      · obtain second | rest := List.mem_cons.mp rest
        · omega
        · have bounds := inside place rest
          omega

/-- The pointer never meets an end that is behind it or half a pair away. -/
theorem exchange_none {stop : Int} (fuel : Nat) (img : Int) (mem : Int → UInt16) (missed : (stop - img) % 2 ≠ 0 ∨ stop < img) :
    exchange stop fuel img mem = none := by
  induction fuel generalizing img mem with
  | zero => rfl
  | succ fuel ih =>
    rw [exchange, if_pos (by omega)]
    dsimp only
    rw [ih _ _ (by omega)]
    rfl

private theorem exchanged_twice (stop : Int) (whole : stop % 2 = 0) (mem : Int → UInt16) : exchanged 0 stop (exchanged 0 stop mem) = mem := by
  funext place
  unfold exchanged
  by_cases inside : 0 ≤ place ∧ place < stop
  · have back : partner 0 (partner 0 place) = place := by
      unfold partner
      split <;> split <;> omega
    have still : 0 ≤ partner 0 place ∧ partner 0 place < stop := by
      unfold partner
      split <;> omega
    rw [if_pos inside, if_pos still, back]
  · rw [if_neg inside, if_neg inside]

private theorem int32_le {value : Int} (positive : 0 ≤ value) : int32 value ≤ value := by
  unfold int32
  rw [Int.bmod_def]
  split <;> omega

private theorem reorders_iff (bus : BusDvp) : bus.Reorders ↔ Even bus.imgWidth bus.imgHeight := by
  constructor
  · intro reorders
    obtain ⟨fuel, last, touched, ended, inside, -⟩ := reorders fun _ => 0
    have reached : ¬((bus.pixels - 0) % 2 ≠ 0 ∨ bus.pixels < 0) := by
      intro missed
      have none := exchange_none fuel 0 (fun _ => 0) missed
      exact Option.some_ne_none _ (ended.symm.trans none)
    have start : bus.pixels = 0 ∨ 0 ∈ touched := by
      unfold convertDisplayBufferOrder at ended
      cases fuel with
      | zero => cases ended
      | succ fuel =>
        rw [exchange] at ended
        by_cases empty : bus.pixels = 0
        · exact .inl empty
        · rw [if_pos (Ne.symm empty)] at ended
          obtain ⟨rest, -, same⟩ := Option.map_eq_some_iff.mp ended
          cases same
          exact .inr List.mem_cons_self
    unfold pixels at reached start
    refine ⟨by omega, by omega, start.imp id fun member => (inside 0 member).2⟩
  · rintro ⟨whole, positive, counts⟩ mem
    obtain ⟨pairs, count⟩ : ∃ pairs : Nat, bus.pixels = 0 + 2 * pairs := ⟨(bus.pixels / 2).toNat, by unfold pixels; omega⟩
    obtain ⟨touched, ended, inside⟩ := exchange_pairs pairs 0 mem
    obtain ⟨touched', again, -⟩ := exchange_pairs pairs 0 (exchanged 0 (0 + 2 * pairs) mem)
    rw [exchanged_twice _ (by omega)] at again
    unfold convertDisplayBufferOrder
    rw [count]
    refine ⟨pairs + 1, _, touched, ended, fun place member => ?_, pairs + 1, touched', again⟩
    have bounds := inside place member
    have same : int32 (bus.imgWidth * bus.imgHeight) = 0 + 2 * pairs := count
    obtain empty | some := counts
    · omega
    · have most := int32_le (Int.le_of_lt some)
      omega

variable {start : Start} {bus : BusDvp}

private theorem begin_outside (outside : ¬Enters start bus) : bus.begin start = some (-1, bus) ∨ bus.begin start = none := by
  unfold begin
  dsimp only
  split
  next => exact .inl rfl
  next pins =>
    split
    next => exact .inl rfl
    next sizes =>
      split
      next => exact .inr rfl
      next free =>
        simp only [not_or, Int.not_lt, Bool.not_eq_true] at pins sizes free
        exact absurd ⟨pins, sizes.1, sizes.2.1, sizes.2.2, free⟩ outside

/-- What `begin` does behind its checks. -/
theorem begin_enters (enters : Enters start bus) :
    (∃ after, bus.begin start = some (0, after) ∧ after.imgWidth = start.width ∧ after.imgHeight = start.height ∧
        (start.buff = none → start.malloc (int32 (int32 (start.width * start.height) * 5)) ≠ none)) ∨
      ∃ after, bus.begin start = some (-1, after) ∧ after.locked = true ∧ start.buff = none ∧
        start.malloc (int32 (int32 (start.width * start.height) * 5)) = none := by
  obtain ⟨⟨pclk, xclk, hsync, vsync, rst, pwdn⟩, width, height, begined, locked⟩ := enters
  unfold begin
  dsimp only
  rw [if_neg (by omega), if_neg (by simp [width, height, begined]), if_neg (by simp [locked])]
  cases given : start.buff with
  | some buff => exact .inl ⟨_, rfl, rfl, rfl, fun impossible => by cases impossible⟩
  | none =>
    dsimp only [pixels]
    cases answer : start.malloc (int32 (int32 (start.width * start.height) * 5)) with
    | none => exact .inr ⟨_, rfl, rfl, rfl, rfl⟩
    | some disply => exact .inl ⟨_, rfl, rfl, rfl, fun _ => Option.some_ne_none disply⟩

private theorem begin_good {good : Start} (arguments : Start.Good good) (begined : bus.begined = false) (locked : bus.locked = false) :
    ∃ final, bus.begin good = some (0, final) := by
  obtain ⟨pins, width, height, buff⟩ := arguments
  have enters : Enters good bus := ⟨pins, width, height, begined, locked⟩
  obtain ⟨after, done, -⟩ | ⟨-, -, -, missing, -⟩ := begin_enters enters
  · exact ⟨after, done⟩
  · exact absurd missing buff

/-- The start of the camera leaves what it is to leave just when there is memory and the pixels come in pairs. -/
theorem begin_promised_iff (start : Start) (bus : BusDvp) : Promised start bus ↔ Clean start bus := by
  unfold Clean
  by_cases enters : Enters start bus
  · obtain ⟨after, done, width, height, memory⟩ | ⟨after, refused, locked, given, answer⟩ := begin_enters enters
    · have pixels : after.Reorders ↔ Even start.width start.height := by rw [reorders_iff, width, height]
      constructor
      · intro promised _
        exact ⟨memory, pixels.mp (promised.accepted after done)⟩
      · intro clean
        refine ⟨fun other impossible => ?_, fun other impossible => ?_, fun other same => ?_⟩
        · rw [done] at impossible
          cases impossible
        · rw [done] at impossible
          cases impossible
        · rw [done] at same
          cases same
          exact pixels.mpr (clean enters).2
    · constructor
      · intro promised
        have same := promised.refused after refused
        rw [same, enters.locked] at locked
        cases locked
      · intro clean
        exact absurd answer ((clean enters).1 given)
  · have unchanged : ∀ code after, bus.begin start = some (code, after) → code = -1 ∧ after = bus := by
      intro code after returned
      obtain refused | waits := begin_outside enters
      · rw [refused] at returned
        cases returned
        exact ⟨rfl, rfl⟩
      · rw [waits] at returned
        cases returned
    refine ⟨fun _ inside => absurd inside enters, fun _ => ⟨?_, ?_, ?_⟩⟩
    · exact fun after returned => (unchanged _ after returned).2
    · intro after returned begined locked good arguments
      rw [(unchanged _ after returned).2]
      exact begin_good arguments begined locked
    · intro after returned
      cases (unchanged _ after returned).1

def powerOn : BusDvp := ⟨false, false, 0, 0, false, ⟨none, ⟨none, none, none⟩⟩, ⟨-1, -1, -1, -1, -1, -1⟩, -1⟩

/-- Without memory the lock stays held and the next start waits for ever. -/
theorem begin_keeps_lock : ¬Promised ⟨⟨47, 46, 44, 42, 43, 45⟩, 320, 240, none, fun _ => none⟩ powerOn := by
  intro promised
  have after := promised.refused _ rfl
  revert after
  decide

end BusDvp
end ArduinoK210.Camera
