import ArduinoK210.Touch.Calibration
import ArduinoK210.Touch.Filter

/-! A calibration session: the poll runs until five touches have ended, the fit goes to the filter
when there is one, and to the caller in any case. The drawing on the screen is left out. -/

namespace ArduinoK210.Touch

open Casts (float int)

/-- The numerals are places of seven. -/
local instance seven_ne : NeZero 7 := ⟨Nat.succ_ne_zero 6⟩

def identity : Fin 7 → Int := ![1, 0, 0, 0, 1, 0, 1]

namespace Ns2009

/-- `ts_set_calibration` with `TS_IOCTL_SET_CALBRATION` and an array. -/
def setCalibration (cal : Fin 7 → Int) (ts : Ns2009) : Ns2009 := { ts with filter := ts.filter.setcal cal }

/-- The event is taken back after each turn. -/
def consumed (ts : Ns2009) : Ns2009 := { ts with event := { ts.event with type := .none } }

end Ns2009

namespace Tscal

def crosses (width height : Int) (cal : Tscal) : Tscal :=
  { cal with
    xfb := ![50, width - 50, width - 50, 50, width.tdiv 2]
    yfb := ![50, 50, height - 50, height - 50, height.tdiv 2] }

def collect (index : Nat) (point : Int × Int) (cal : Tscal) : Tscal :=
  { cal with
    x := fun j => if j.val = index then point.1 else cal.x j
    y := fun j => if j.val = index then point.2 else cal.y j }

end Tscal

/-- The session inside its loop; the local record starts as what was on the stack. -/
structure Collecting where
  index : Nat
  cal : Tscal
  ts : Ns2009

structure Finished where
  result : Fin 7 → Int
  ts : Ns2009

section Arithmetic

variable (F : Type) [Casts F] [Add F] [Sub F] [Mul F] [Div F] [Neg F] [LT F] [DecidableLT F]

/-- The end of the session, with five points. -/
def conclude (cal : Tscal) (ts : Ns2009) : Finished :=
  let (done, cal) := cal.performCalibration F
  let ts := if done ≠ 0 then ts.setCalibration cal.a else ts
  ⟨cal.a, ts.consumed⟩

def Collecting.turn (sample : Sample) (session : Collecting) : Finished ⊕ Collecting :=
  let ts := session.ts.poll sample
  if ts.event.type = .finish then
    let cal := session.cal.collect session.index (ts.event.x, ts.event.y)
    if 5 ≤ session.index + 1 then .inl (conclude F cal ts) else .inr ⟨session.index + 1, cal, ts.consumed⟩
  else .inr ⟨session.index, session.cal, ts.consumed⟩

def Collecting.loop : List Sample → Collecting → Option Finished
  | [], _ => none
  | sample :: samples, session =>
      match session.turn F sample with
      | .inl finished => some finished
      | .inr session => loop samples session

/-- `do_tscal`, when it returns while the samples last; `record` is what the stack held. -/
def doTscal (width height : Int) (record : Tscal) (samples : List Sample) (ts : Ns2009) : Option Finished :=
  Collecting.loop F samples ⟨0, record.crosses width height, ts.setCalibration identity⟩

end Arithmetic

def ends : List Sample → Ns2009 → List (Int × Int)
  | [], _ => []
  | sample :: samples, ts =>
      let ts := ts.poll sample
      if ts.event.type = .finish then (ts.event.x, ts.event.y) :: ends samples ts.consumed else ends samples ts.consumed

def collected (samples : List Sample) (ts : Ns2009) : List (Int × Int) := (ends samples (ts.setCalibration identity)).take 5

def InLine (points : List (Int × Int)) : Prop :=
  ∃ p q r : ℚ, (p ≠ 0 ∨ q ≠ 0) ∧ ∀ point ∈ points, p * point.1 + q * point.2 = r

section Arithmetic

variable (F : Type) [Casts F] [Add F] [Sub F] [Mul F] [Div F] [Neg F] [LT F]

/-- The determinant test of `perform_calibration` on five points. -/
def Refuses (points : List (Int × Int)) : Prop :=
  (Tscal.sums F (fun j => (points.getD j (0, 0)).1) fun j => (points.getD j (0, 0)).2).Refused

instance [DecidableLT F] (points : List (Int × Int)) : Decidable (Refuses F points) := inferInstanceAs (Decidable (Sums.Refused _))

/-- Where the session returns, the caller and the filter have one calibration, it is one that can be divided by, and a
session with the same points gives the same. -/
def LeavesOne [DecidableLT F] (width height : Int) (samples : List Sample) (ts : Ns2009) : Prop :=
  ∀ record out, doTscal F width height record samples ts = some out →
    out.result = out.ts.filter.cal ∧ out.result 6 ≠ 0 ∧
      ∀ record' samples' ts' out', doTscal F width height record' samples' ts' = some out' →
        collected samples' ts' = collected samples ts → out'.result = out.result

end Arithmetic

namespace Tscal

def collectAll : Nat → List (Int × Int) → Tscal → Tscal
  | _, [], cal => cal
  | index, point :: points, cal => collectAll (index + 1) points (cal.collect index point)

private theorem collectAll_frame (index : Nat) (points : List (Int × Int)) (cal : Tscal) :
    (collectAll index points cal).xfb = cal.xfb ∧ (collectAll index points cal).yfb = cal.yfb ∧ (collectAll index points cal).a = cal.a := by
  induction points generalizing index cal with
  | nil => exact ⟨rfl, rfl, rfl⟩
  | cons point points ih => exact ih (index + 1) (cal.collect index point)

/-- Five points leave nothing of what the record held. -/
theorem collectAll_five (a b c d e : Int × Int) (cal : Tscal) :
    (collectAll 0 [a, b, c, d, e] cal).x = ![a.1, b.1, c.1, d.1, e.1] ∧ (collectAll 0 [a, b, c, d, e] cal).y = ![a.2, b.2, c.2, d.2, e.2] := by
  constructor <;> funext j <;> fin_cases j <;> rfl

private theorem five_points {points : List (Int × Int)} (five : points.length = 5) : ∃ a b c d e, points = [a, b, c, d, e] := by
  match points, five with
  | [a, b, c, d, e], _ => exact ⟨a, b, c, d, e, rfl⟩

private theorem collectAll_refused {F : Type} [Casts F] [Add F] [Sub F] [Mul F] [Div F] [Neg F] [LT F] {points : List (Int × Int)}
    (five : points.length = 5) (cal : Tscal) :
    (sums F (collectAll 0 points cal).x (collectAll 0 points cal).y).Refused ↔ Refuses F points := by
  obtain ⟨a, b, c, d, e, rfl⟩ := five_points five
  unfold Refuses
  have x : (collectAll 0 [a, b, c, d, e] cal).x = fun j : Fin 5 => ([a, b, c, d, e].getD j (0, 0)).1 := by
    funext j
    fin_cases j <;> rfl
  have y : (collectAll 0 [a, b, c, d, e] cal).y = fun j : Fin 5 => ([a, b, c, d, e].getD j (0, 0)).2 := by
    funext j
    fin_cases j <;> rfl
  rw [x, y]

private theorem collectAll_onLine {points : List (Int × Int)} (five : points.length = 5) (cal : Tscal) :
    (collectAll 0 points cal).OnLine ↔ InLine points := by
  obtain ⟨a, b, c, d, e, rfl⟩ := five_points five
  obtain ⟨x, y⟩ := collectAll_five a b c d e cal
  unfold OnLine InLine
  rw [x, y]
  simp [Fin.forall_fin_succ]

end Tscal

/-- In exact arithmetic the points that are refused are those on one line. -/
theorem refuses_exact_iff {points : List (Int × Int)} (five : points.length = 5) : Refuses ℚ points ↔ InLine points := by
  let record : Tscal := ⟨fun _ => 0, fun _ => 0, fun _ => 0, fun _ => 0, fun _ => 0⟩
  rw [← Tscal.collectAll_onLine five record, ← Tscal.collectAll_refused five record, Tscal.refused_iff, Tscal.det_zero_iff]

/-- Single precision refuses points that are on no line. -/
example : let points : List (Int × Int) := [(3393, 1), (3392, 3), (3393, 3), (3391, 3), (3391, 1)]
    Refuses Float32 points ∧ ¬Refuses ℚ points := by decide +kernel

section Arithmetic

variable {F : Type} [Casts F] [Add F] [Sub F] [Mul F] [Div F] [Neg F] [LT F] [DecidableLT F]
variable {width height : Int} {record : Tscal} {samples : List Sample} {ts : Ns2009}

private theorem performCalibration_congr {cal other : Tscal} (x : cal.x = other.x) (y : cal.y = other.y) (xfb : cal.xfb = other.xfb)
    (yfb : cal.yfb = other.yfb) (accepted : ¬(Tscal.sums F cal.x cal.y).Refused) :
    (cal.performCalibration F).2.a = (other.performCalibration F).2.a := by
  obtain ⟨x₁, xfb₁, y₁, yfb₁, a₁⟩ := cal
  obtain ⟨x₂, xfb₂, y₂, yfb₂, a₂⟩ := other
  cases x
  cases y
  cases xfb
  cases yfb
  unfold Tscal.performCalibration
  rw [if_neg accepted, if_neg accepted]
  rfl

private theorem conclude_accepted {cal : Tscal} (accepted : ¬(Tscal.sums F cal.x cal.y).Refused) (ts : Ns2009) :
    (conclude F cal ts).result = (cal.performCalibration F).2.a ∧
      (conclude F cal ts).ts.filter.cal = (cal.performCalibration F).2.a ∧ (conclude F cal ts).result 6 = int (float 65536 : F) := by
  unfold conclude Tscal.performCalibration
  rw [if_neg accepted]
  exact ⟨rfl, rfl, rfl⟩

/-- Points that are refused leave what the record held to the caller and the identity to the filter. -/
private theorem conclude_refused {cal : Tscal} (refused : (Tscal.sums F cal.x cal.y).Refused) (ts : Ns2009) :
    (conclude F cal ts).result = cal.a ∧ (conclude F cal ts).ts.filter = ts.filter := by
  have same : cal.performCalibration F = (0, cal) := if_pos refused
  unfold conclude
  rw [same]
  exact ⟨rfl, rfl⟩

private theorem poll_cal (sample : Sample) (ts : Ns2009) : (ts.poll sample).filter.cal = ts.filter.cal := by
  unfold Ns2009.poll
  split
  · rfl
  · split
    · rfl
    · unfold Ns2009.released
      split <;> rfl

variable (F) in
/-- The loop returns when the points are five, with these points in the record. -/
theorem loop_returns (samples : List Sample) (ts : Ns2009) (index : Nat) (cal : Tscal) (short : index < 5) :
    if 5 ≤ index + (ends samples ts).length then
      ∃ last : Ns2009, last.filter.cal = ts.filter.cal ∧
        Collecting.loop F samples ⟨index, cal, ts⟩ = some (conclude F (cal.collectAll index ((ends samples ts).take (5 - index))) last)
    else Collecting.loop F samples ⟨index, cal, ts⟩ = none := by
  induction samples generalizing index cal ts with
  | nil =>
    rw [if_neg (by simp only [ends, List.length_nil]; omega)]
    rfl
  | cons sample samples ih =>
    have same := poll_cal sample ts
    unfold ends Collecting.loop Collecting.turn
    dsimp only
    by_cases ended : (ts.poll sample).event.type = .finish
    · simp only [if_pos ended, List.length_cons]
      by_cases last : 5 ≤ index + 1
      · have four : 5 - index = 1 := by omega
        rw [if_pos last, if_pos (by omega), four]
        exact ⟨_, same, rfl⟩
      · rw [if_neg last]
        have later := ih (ts.poll sample).consumed (index + 1)
          (cal.collect index ((ts.poll sample).event.x, (ts.poll sample).event.y)) (by omega)
        have rest : 5 - index = 5 - (index + 1) + 1 := by omega
        rw [rest, List.take_succ_cons]
        rw [show index + 1 + (ends samples (ts.poll sample).consumed).length = index + ((ends samples (ts.poll sample).consumed).length + 1)
          by omega] at later
        split at later
        next enough =>
          obtain ⟨final, kept, returned⟩ := later
          rw [if_pos enough]
          exact ⟨final, kept.trans same, returned⟩
        next few =>
          rw [if_neg few]
          exact later
    · simp only [if_neg ended]
      have later := ih (ts.poll sample).consumed index cal short
      split at later
      next enough =>
        obtain ⟨final, kept, returned⟩ := later
        rw [if_pos enough]
        exact ⟨final, kept.trans same, returned⟩
      next few =>
        rw [if_neg few]
        exact later

variable (F) in
/-- The session returns just when five touches end, and then concludes with their points. -/
theorem doTscal_some (width height : Int) (record : Tscal) (enough : 5 ≤ (ends samples (ts.setCalibration identity)).length) :
    ∃ last : Ns2009, last.filter.cal = identity ∧ (collected samples ts).length = 5 ∧
      doTscal F width height record samples ts =
        some (conclude F ((record.crosses width height).collectAll 0 (collected samples ts)) last) := by
  have returns := loop_returns F samples (ts.setCalibration identity) 0 (record.crosses width height) (by omega)
  rw [if_pos (by omega)] at returns
  obtain ⟨last, kept, returned⟩ := returns
  refine ⟨last, kept, ?_, returned⟩
  unfold collected
  rw [List.length_take]
  omega

variable (F) in
private theorem doTscal_none (few : ¬5 ≤ (ends samples (ts.setCalibration identity)).length) :
    doTscal F width height record samples ts = none := by
  have returns := loop_returns F samples (ts.setCalibration identity) 0 (record.crosses width height) (by omega)
  rwa [if_neg (by omega)] at returns

/-- After points that are refused the caller has what was on the stack. -/
theorem refused_leaves (enough : 5 ≤ (ends samples (ts.setCalibration identity)).length) (refuses : Refuses F (collected samples ts))
    (width height : Int) : ¬LeavesOne F width height samples ts := by
  intro leaves
  let record : Tscal := ⟨fun _ => 0, fun _ => 0, fun _ => 0, fun _ => 0, fun _ => 0⟩
  obtain ⟨last, kept, five, returned⟩ := doTscal_some F width height record enough
  obtain ⟨-, divides, -⟩ := leaves record _ returned
  apply divides
  rw [(conclude_refused ((Tscal.collectAll_refused five _).mpr refuses) last).1, (Tscal.collectAll_frame 0 _ _).2.2]
  rfl

private theorem accepted_leaves (scales : int (float 65536 : F) = 65536) (enough : 5 ≤ (ends samples (ts.setCalibration identity)).length)
    (accepts : ¬Refuses F (collected samples ts)) (width height : Int) : LeavesOne F width height samples ts := by
  intro record out returned
  obtain ⟨last, kept, five, same⟩ := doTscal_some F width height record enough
  rw [same] at returned
  cases returned
  have open₁ := mt (Tscal.collectAll_refused five (record.crosses width height)).mp accepts
  obtain ⟨result, installed, divisor⟩ := conclude_accepted open₁ last
  refine ⟨result.trans installed.symm, by rw [divisor, scales]; decide, ?_⟩
  intro record' samples' ts' out' returned' agree
  by_cases enough' : 5 ≤ (ends samples' (ts'.setCalibration identity)).length
  · obtain ⟨last', -, -, same'⟩ := doTscal_some F width height record' enough'
    rw [same'] at returned'
    cases returned'
    rw [agree]
    have open₂ := mt (Tscal.collectAll_refused five (record'.crosses width height)).mp accepts
    rw [(conclude_accepted open₂ last').1, result]
    obtain ⟨a, b, c, d, e, points⟩ := Tscal.five_points five
    rw [points] at open₂ ⊢
    obtain ⟨x, y⟩ := Tscal.collectAll_five a b c d e (record.crosses width height)
    obtain ⟨x', y'⟩ := Tscal.collectAll_five a b c d e (record'.crosses width height)
    obtain ⟨xfb, yfb, -⟩ := Tscal.collectAll_frame 0 [a, b, c, d, e] (record.crosses width height)
    obtain ⟨xfb', yfb', -⟩ := Tscal.collectAll_frame 0 [a, b, c, d, e] (record'.crosses width height)
    exact performCalibration_congr (x'.trans x.symm) (y'.trans y.symm) (xfb'.trans xfb.symm) (yfb'.trans yfb.symm) open₂
  · rw [doTscal_none F enough'] at returned'
    cases returned'

end Arithmetic

/-- The session leaves one calibration just when the determinant of its points is not refused. -/
theorem doTscal_leaves_iff (F : Type) [Casts F] [Add F] [Sub F] [Mul F] [Div F] [Neg F] [LT F] [DecidableLT F]
    (scales : int (float 65536 : F) = 65536) (width height : Int) (samples : List Sample) (ts : Ns2009) :
    LeavesOne F width height samples ts ↔
      (5 ≤ (ends samples (ts.setCalibration identity)).length → ¬Refuses F (collected samples ts)) := by
  refine ⟨fun leaves enough refuses => refused_leaves enough refuses width height leaves, fun accepts => ?_⟩
  by_cases enough : 5 ≤ (ends samples (ts.setCalibration identity)).length
  · exact accepted_leaves scales enough (accepts enough) width height
  · intro record out returned
    rw [doTscal_none F enough] at returned
    cases returned

/-- A poll under a touch at a point in twelve bits, and one after it. -/
def tap (x y : UInt8 × UInt8) : List Sample := [⟨some (6, 64), some x, some y⟩, ⟨some (0, 0), none, none⟩]

def started : Ns2009 := .start ![1, 0, 0, 0, 1, 0, 1] (fun _ => 0) fun _ => 0

/-- Five taps down one line, that single precision accepts. -/
theorem doTscal_leaves_line :
    let taps := tap (51, 48) (95, 32) ++ tap (51, 48) (95, 48) ++ tap (51, 48) (95, 64) ++ tap (51, 48) (95, 80) ++ tap (51, 48) (95, 96)
    collected taps started = [(819, 1522), (819, 1523), (819, 1524), (819, 1525), (819, 1526)] ∧ InLine (collected taps started) ∧
      int (float 65536 : Float32) = 65536 ∧ LeavesOne Float32 240 320 taps started := by
  have points : collected (tap (51, 48) (95, 32) ++ tap (51, 48) (95, 48) ++ tap (51, 48) (95, 64) ++ tap (51, 48) (95, 80) ++
      tap (51, 48) (95, 96)) started = [(819, 1522), (819, 1523), (819, 1524), (819, 1525), (819, 1526)] := by decide
  refine ⟨points, ?_, by decide, (doTscal_leaves_iff Float32 (by decide) 240 320 _ started).mpr fun _ => ?_⟩
  · rw [points]
    refine ⟨1, 0, 819, .inl one_ne_zero, ?_⟩
    simp
  · rw [points]
    decide +kernel

/-- Five taps on one spot: the divisor is what was on the stack. -/
theorem five_taps_leave_stack :
    let spot := tap (60, 0) (60, 0)
    ¬LeavesOne Float32 240 320 (spot ++ spot ++ spot ++ spot ++ spot) started := by
  let spot := tap (60, 0) (60, 0)
  have points : ends (spot ++ spot ++ spot ++ spot ++ spot) (started.setCalibration identity) =
      [(960, 960), (960, 960), (960, 960), (960, 960), (960, 960)] := by decide
  apply refused_leaves
  · rw [points]
    decide
  · unfold collected
    rw [points]
    decide +kernel

end ArduinoK210.Touch
