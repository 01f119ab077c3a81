import ArduinoK210.Jpeg.Compress
import Mathlib.Algebra.Order.Field.Rat
import Mathlib.Data.Rat.Floor
import Mathlib.Tactic.FieldSimp
import Mathlib.Tactic.IntervalCases
import Mathlib.Tactic.Linarith
import Mathlib.Tactic.NormNum
import Mathlib.Tactic.Positivity

/-! The quantizers over the calls of a program, and how large the quantized coefficients can become. The quantizers are computed anew
when the quality is another than before, and the static variable that remembers the quality starts with the value that stands for the
best one. -/

namespace ArduinoK210.Jpeg

private theorem zigZag_onto : ∀ k < 64, ∃ i < 64, zigZag.getD i 0 = k := by decide +kernel

private theorem fillTable_rounds (base table : List Nat) (quality : Int) (size : table.length = 64) {i : Nat} (inside : i ≤ 64) :
    let filled := (List.range i).foldl (fun table i => table.set (zigZag.getD i 0) (tableEntry (base.getD i 0) quality)) table
    filled.length = 64 ∧ ∀ j < i, filled.getD (zigZag.getD j 0) 0 = tableEntry (base.getD j 0) quality := by
  induction i with
  | zero => exact ⟨size, nofun⟩
  | succ i ih =>
    obtain ⟨length, before⟩ := ih (by omega)
    rw [List.range_succ, List.foldl_append]
    refine ⟨(List.length_set ..).trans length, fun j below => ?_⟩
    change ((List.foldl _ table (List.range i)).set (zigZag.getD i 0) _).getD _ 0 = _
    have long : i < zigZag.length := inside
    by_cases here : j = i
    · subst here
      have bound : zigZag.getD j 0 < 64 := by
        rw [List.getD_eq_getElem zigZag 0 long]
        exact zigZag_lt _ (List.getElem_mem long)
      rw [List.getD_eq_getElem?_getD, List.getElem?_set_self (by rw [length]; exact bound)]
      rfl
    · have apart : zigZag.getD i 0 ≠ zigZag.getD j 0 := by
        intro same
        have long' : j < zigZag.length := by
          change j < 64
          omega
        rw [List.getD_eq_getElem zigZag 0 long, List.getD_eq_getElem zigZag 0 long'] at same
        exact here ((List.Nodup.getElem_inj_iff zigZag_nodup).mp same).symm
      rw [List.getD_eq_getElem?_getD, List.getElem?_set_ne apart, ← List.getD_eq_getElem?_getD]
      exact before j (by omega)

theorem fillTable_length {base table : List Nat} {quality : Int} (size : table.length = 64) :
    (fillTable base table quality).length = 64 :=
  (fillTable_rounds base table quality size (Nat.le_refl 64)).1

private theorem fillTable_at {base table : List Nat} {quality : Int} (size : table.length = 64) {i : Nat} (inside : i < 64) :
    (fillTable base table quality).getD (zigZag.getD i 0) 0 = tableEntry (base.getD i 0) quality :=
  (fillTable_rounds base table quality size (Nat.le_refl 64)).2 i inside

/-- Nothing is left of an earlier table. -/
theorem fillTable_fresh {base table other : List Nat} {quality : Int} (size : table.length = 64) (size' : other.length = 64) :
    fillTable base table quality = fillTable base other quality := by
  apply List.ext_getElem ((fillTable_length size).trans (fillTable_length size').symm)
  intro k below below'
  obtain ⟨i, inside, rfl⟩ := zigZag_onto k (@fillTable_length base table quality size ▸ below)
  have first := @fillTable_at base table quality size i inside
  have second := @fillTable_at base other quality size' i inside
  rw [List.getD_eq_getElem _ 0 below] at first
  rw [List.getD_eq_getElem _ 0 below'] at second
  rw [first, second]

private theorem tableEntry_range (base : Nat) (quality : Int) : 1 ≤ tableEntry base quality ∧ tableEntry base quality ≤ 255 := by
  unfold tableEntry
  dsimp only
  generalize (base * quality + 50).tdiv 100 = entry
  split
  · omega
  · split <;> omega

/-- The entries fit into the bytes of the header, and a reader may divide by them. -/
theorem fillTable_range {base table : List Nat} {quality : Int} (size : table.length = 64) {entry : Nat}
    (member : entry ∈ fillTable base table quality) : 1 ≤ entry ∧ entry ≤ 255 := by
  obtain ⟨k, below, rfl⟩ := List.mem_iff_getElem.mp member
  obtain ⟨i, inside, rfl⟩ := zigZag_onto k (fillTable_length size ▸ below)
  have filled := @fillTable_at base table quality size i inside
  rw [List.getD_eq_getElem _ 0 below] at filled
  rw [filled]
  exact tableEntry_range _ _

namespace Tables

variable {F : Type} (floats : Floats F)

def ready (quality : Int) : Tables F :=
  let yTable := fillTable yqt (List.replicate 64 0) quality
  let uvTable := fillTable uvqt (List.replicate 64 0) quality
  ⟨quality, yTable, uvTable, fdtblOf floats yTable, fdtblOf floats uvTable⟩

/-- A call of `jpeg_compress`. The callers ask for a quality from 1 to 100. -/
structure Call where
  src : Option ImageInfo
  dst : Option Nat
  quality : Int
  requested : Subsampling
  lowest : 1 ≤ quality
  highest : quality ≤ 100

/-- The call gets past the checks of its arguments. -/
def Call.accepted (call : Call) : Bool :=
  match call.src, call.dst with
  | some src, some size => src.w ≠ 0 && src.h ≠ 0 && size ≠ 0 && src.pixfmt ≠ .invalid
  | _, _ => false

def after (calls : List Call) : Tables F :=
  calls.foldl (fun tables call => (tables.jpegCompress floats call.src call.dst call.quality call.requested).tables) (start floats)

def asked (calls : List Call) : List Int := (calls.filter Call.accepted).map fun call => scaled call.quality

variable {floats}

theorem jpegInit_same {tables : Tables F} {quality : Int} (same : tables.q = scaled quality) : tables.jpegInit floats quality = tables :=
  if_neg (not_not.mpr same)

private theorem jpegInit_other {tables : Tables F} {quality : Int} (other : tables.q ≠ scaled quality) :
    tables.jpegInit floats quality =
      ⟨scaled quality, fillTable yqt tables.yTable (scaled quality), fillTable uvqt tables.uvTable (scaled quality),
        fdtblOf floats (fillTable yqt tables.yTable (scaled quality)), fdtblOf floats (fillTable uvqt tables.uvTable (scaled quality))⟩ :=
  if_pos other

theorem jpegInit_start (quality : Int) :
    (start floats).jpegInit floats quality = if scaled quality = 0 then start floats else ready floats (scaled quality) := by
  by_cases zero : scaled quality = 0
  · rw [if_pos zero]
    exact jpegInit_same zero.symm
  · rw [if_neg zero]
    exact jpegInit_other (Ne.symm zero)

theorem jpegInit_ready (q quality : Int) : (ready floats q).jpegInit floats quality = ready floats (scaled quality) := by
  have again : ∀ base, fillTable base (fillTable base (List.replicate 64 0) q) (scaled quality) =
      fillTable base (List.replicate 64 0) (scaled quality) := fun base =>
    fillTable_fresh (fillTable_length List.length_replicate) List.length_replicate
  by_cases same : q = scaled quality
  · rw [jpegInit_same same, same]
  · rw [jpegInit_other same]
    dsimp only [ready]
    rw [again, again]

private theorem jpegCompress_tables (tables : Tables F) (call : Call) :
    (tables.jpegCompress floats call.src call.dst call.quality call.requested).tables =
      if call.accepted then tables.jpegInit floats call.quality else tables := by
  obtain ⟨src, dst, quality, requested, -, -⟩ := call
  unfold jpegCompress Call.accepted
  cases src with
  | none => rfl
  | some src =>
    cases dst with
    | none =>
      dsimp only
      split
      · rfl
      · rw [if_pos (.inl rfl)]
        rfl
    | some size =>
      dsimp only
      by_cases sized : src.w = 0 ∨ src.h = 0
      · rw [if_pos sized]
        rcases sized with zero | zero <;> simp [zero]
      · rw [if_neg sized]
        by_cases room : size = 0
        · simp [room]
        · have some_ : ¬(some size = none ∨ some size = some 0) := by simp [room]
          rw [if_neg some_]
          by_cases invalid : src.pixfmt = .invalid
          · simp [invalid]
          · have wide : src.w ≠ 0 := fun zero => sized (.inl zero)
            have high : src.h ≠ 0 := fun zero => sized (.inr zero)
            have valid : (src.w ≠ 0 && src.h ≠ 0 && size ≠ 0 && src.pixfmt ≠ .invalid) = true := by simp [wide, high, room, invalid]
            rw [if_neg invalid, if_pos valid]
            split <;> rfl

theorem asked_accepted {call : Call} (accepted : call.accepted = true) (calls : List Call) :
    asked (calls ++ [call]) = asked calls ++ [scaled call.quality] := by
  rw [asked, List.filter_append, List.map_append, List.filter_singleton, accepted]
  rfl

theorem asked_rejected {call : Call} (rejected : call.accepted = false) (calls : List Call) : asked (calls ++ [call]) = asked calls := by
  rw [asked, List.filter_append, List.map_append, List.filter_singleton, rejected]
  exact List.append_nil _

private theorem after_append (calls : List Call) (call : Call) :
    after floats (calls ++ [call]) = if call.accepted then (after floats calls).jpegInit floats call.quality else after floats calls := by
  rw [after, List.foldl_append]
  exact jpegCompress_tables _ call

/-- The tables are those of the last call, or still empty: as long as every call has asked for the best quality, whose number the
static variable starts with. -/
theorem tables_of_calls (floats : Floats F) (calls : List Call) :
    after floats calls =
      if ∀ quality ∈ asked calls, quality = 0 then start floats else ready floats ((asked calls).getLastD 0) := by
  induction calls using List.reverseRecOn with
  | nil => exact (if_pos nofun).symm
  | append_singleton calls call ih =>
    by_cases accepted : call.accepted = true
    · rw [after_append, if_pos accepted, ih, asked_accepted accepted, List.getLastD_concat]
      by_cases best : ∀ quality ∈ asked calls, quality = 0
      · rw [if_pos best, jpegInit_start]
        by_cases zero : scaled call.quality = 0
        · rw [if_pos zero, if_pos]
          intro quality member
          rcases List.mem_append.mp member with earlier | here
          · exact best quality earlier
          · exact (List.mem_singleton.mp here).trans zero
        · rw [if_neg zero, if_neg fun all => zero (all _ (List.mem_append_right _ List.mem_cons_self))]
      · rw [if_neg best, jpegInit_ready, if_neg fun all => best fun quality member => all quality (List.mem_append_left _ member)]
    · rw [after_append, if_neg accepted, ih, asked_rejected (eq_false_of_ne_true accepted)]

end Tables

private theorem multiply_floor (x y : Int) : 256 * multiply x y ≤ x * y ∧ x * y < 256 * multiply x y + 256 := by
  have shift : multiply x y = x * y / 256 := Int.shiftRight_eq_div_pow (x * y) 8
  rw [shift]
  omega

/-- The sum of the factors of the samples in a coefficient, in parts of 256. -/
def gain (k : Nat) : Nat := [2048, 2572, 2472, 2184, 2048, 1460, 1024, 512].getD k 0

/-- A coefficient of eight samples, up to what the three products of a round are rounded by. -/
theorem dct_bound {p : Nat → Int} {bound : Int} (small : ∀ k < 8, -bound ≤ p k ∧ p k ≤ bound) {k : Nat} (inside : k < 8) :
    -(gain k * bound + 768) ≤ 256 * dct p k ∧ 256 * dct p k ≤ gain k * bound + 768 := by
  obtain ⟨l0, h0⟩ := small 0 (by decide)
  obtain ⟨l1, h1⟩ := small 1 (by decide)
  obtain ⟨l2, h2⟩ := small 2 (by decide)
  obtain ⟨l3, h3⟩ := small 3 (by decide)
  obtain ⟨l4, h4⟩ := small 4 (by decide)
  obtain ⟨l5, h5⟩ := small 5 (by decide)
  obtain ⟨l6, h6⟩ := small 6 (by decide)
  obtain ⟨l7, h7⟩ := small 7 (by decide)
  obtain ⟨a1, b1⟩ := multiply_floor (p 1 + p 6 - (p 2 + p 5) + (p 0 + p 7 - (p 3 + p 4))) 181
  obtain ⟨a3, b3⟩ := multiply_floor (p 2 - p 5 + (p 1 - p 6)) 181
  obtain ⟨a5, b5⟩ := multiply_floor (p 3 - p 4 + (p 2 - p 5) - (p 1 - p 6 + (p 0 - p 7))) 98
  obtain ⟨a2, b2⟩ := multiply_floor (p 3 - p 4 + (p 2 - p 5)) 139
  obtain ⟨a4, b4⟩ := multiply_floor (p 1 - p 6 + (p 0 - p 7)) 334
  interval_cases k
  all_goals
    dsimp only [dct, fix0707106781, fix0382683433, fix0541196100, fix1306562965]
    norm_num [gain]
    constructor <;> linarith

/-- The two coefficients without a product, of samples that need not lie around zero. -/
theorem dct_sums {p : Nat → Int} {low high : Int} (inside : ∀ k < 8, low ≤ p k ∧ p k ≤ high) :
    (8 * low ≤ dct p 0 ∧ dct p 0 ≤ 8 * high) ∧ (4 * low - 4 * high ≤ dct p 4 ∧ dct p 4 ≤ 4 * high - 4 * low) := by
  obtain ⟨l0, h0⟩ := inside 0 (by decide)
  obtain ⟨l1, h1⟩ := inside 1 (by decide)
  obtain ⟨l2, h2⟩ := inside 2 (by decide)
  obtain ⟨l3, h3⟩ := inside 3 (by decide)
  obtain ⟨l4, h4⟩ := inside 4 (by decide)
  obtain ⟨l5, h5⟩ := inside 5 (by decide)
  obtain ⟨l6, h6⟩ := inside 6 (by decide)
  obtain ⟨l7, h7⟩ := inside 7 (by decide)
  have sum : dct p 0 = p 0 + p 7 + (p 3 + p 4) + (p 1 + p 6 + (p 2 + p 5)) := rfl
  have difference : dct p 4 = p 0 + p 7 + (p 3 + p 4) - (p 1 + p 6 + (p 2 + p 5)) := rfl
  rw [sum, difference]
  refine ⟨⟨?_, ?_⟩, ⟨?_, ?_⟩⟩ <;> linarith

def aasf (k : Nat) : Rat :=
  [1, 1387039845 / 1000000000, 1306562965 / 1000000000, 1175875602 / 1000000000, 1, 785694958 / 1000000000, 541196100 / 1000000000,
    275899379 / 1000000000].getD k 1

/-- The quotient that `roundf` is given, without rounding. -/
def exactly (r c table : Nat) (du : Int) : Rat := du / (8 * table * aasf r * aasf c)

/-- The floating point comes close: it is off by what `roundf` takes, and by little more. -/
def Floats.Accurate {F : Type} (floats : Floats F) : Prop :=
  ∀ r < 8, ∀ c < 8, ∀ table, 1 ≤ table → table ≤ 255 → ∀ du,
    |(floats.descale du (floats.fdtbl r c table) : Rat) - exactly r c table du| ≤ 1 / 2 + |exactly r c table du| / 100000

def roundf (x : Rat) : Int := if 0 ≤ x then ⌊x + 1 / 2⌋ else -⌊-x + 1 / 2⌋

def rational : Floats Rat where
  zero := 0
  fdtbl r c table := 1 / (aasf r * aasf c * table * 8)
  descale du divisor := roundf (du * divisor)
  descale_zero du := by
    rw [mul_zero]
    decide +kernel

private theorem roundf_near (x : Rat) : |(roundf x : Rat) - x| ≤ 1 / 2 := by
  have half : ∀ y : Rat, |(⌊y + 1 / 2⌋ : Rat) - y| ≤ 1 / 2 := fun y => by
    have low := Int.floor_le (y + 1 / 2)
    have high := Int.lt_floor_add_one (y + 1 / 2)
    exact abs_le.mpr ⟨by linarith, by linarith⟩
  unfold roundf
  split
  · exact half x
  · have other := half (-x)
    rw [← abs_neg] at other
    push_cast
    convert other using 2
    ring

theorem rational_accurate : rational.Accurate := by
  intro r _ c _ table _ _ du
  have same : (du * (1 / (aasf r * aasf c * table * 8)) : Rat) = exactly r c table du := by
    rw [exactly, mul_one_div]
    congr 1
    ring
  have near := roundf_near (exactly r c table du)
  change |(roundf (du * (1 / (aasf r * aasf c * table * 8))) : Rat) - _| ≤ _
  rw [same]
  have more : 0 ≤ |exactly r c table du| / 100000 := by positivity
  linarith

section Bounds
variable {cdu : Nat → Int}

private theorem rows_bound (samples : ∀ k, -128 ≤ cdu k ∧ cdu k ≤ 127) {c : Nat} (inside : c < 8) (row : Nat) :
    -(gain c * 128 + 768) ≤ 256 * dctRows cdu (8 * row + c) ∧ 256 * dctRows cdu (8 * row + c) ≤ gain c * 128 + 768 := by
  have column : (8 * row + c) % 8 = c := by omega
  rw [dctRows, column]
  exact dct_bound (fun k _ => ⟨(samples _).1, by have := (samples (8 * ((8 * row + c) / 8) + k)).2; omega⟩) inside

theorem du_bound (samples : ∀ k, -128 ≤ cdu k ∧ cdu k ≤ 127) {r c : Nat} (inside : r < 8) (inside' : c < 8) :
    65536 * |dctColumns (dctRows cdu) (8 * r + c)| ≤ gain r * (gain c * 128 + 768) + 196608 := by
  have column : (8 * r + c) % 8 = c := by omega
  have row : (8 * r + c) / 8 = r := by omega
  have scaled : ∀ k < 8, -((gain c * 128 + 768 : Int) / 256) ≤ dctRows cdu (8 * k + c) ∧
      dctRows cdu (8 * k + c) ≤ (gain c * 128 + 768 : Int) / 256 := by
    intro k _
    obtain ⟨low, high⟩ := rows_bound samples inside' k
    omega
  obtain ⟨low, high⟩ := @dct_bound (fun k => dctRows cdu (8 * k + c)) _ scaled r inside
  have divided : gain r * ((gain c * 128 + 768 : Int) / 256) * 256 ≤ gain r * (gain c * 128 + 768) := by
    have exact_ : (gain c * 128 + 768 : Int) / 256 * 256 ≤ gain c * 128 + 768 := by omega
    rw [mul_assoc]
    exact mul_le_mul_of_nonneg_left exact_ (Int.natCast_nonneg _)
  rw [dctColumns, column, row, ← abs_of_pos (show (0 : Int) < 65536 by decide), ← abs_mul]
  apply abs_le.mpr
  constructor <;> linarith

private theorem du_sums (samples : ∀ k, -128 ≤ cdu k ∧ cdu k ≤ 127) :
    (-8192 ≤ dctColumns (dctRows cdu) 0 ∧ dctColumns (dctRows cdu) 0 ≤ 8128) ∧
      |dctColumns (dctRows cdu) 4| ≤ 8160 ∧ |dctColumns (dctRows cdu) 32| ≤ 8160 ∧ |dctColumns (dctRows cdu) 36| ≤ 8160 := by
  have row : ∀ k, (-1024 ≤ dctRows cdu (8 * k) ∧ dctRows cdu (8 * k) ≤ 1016) ∧
      (-1020 ≤ dctRows cdu (8 * k + 4) ∧ dctRows cdu (8 * k + 4) ≤ 1020) := by
    intro k
    obtain ⟨first, second⟩ := @dct_sums (fun i => cdu (8 * k + i)) (-128) 127 fun i _ => samples _
    have zero : dctRows cdu (8 * k) = dct (fun i => cdu (8 * k + i)) 0 := by
      rw [dctRows, Nat.mul_mod_right, Nat.mul_div_cancel_left k (by decide)]
    have four : dctRows cdu (8 * k + 4) = dct (fun i => cdu (8 * k + i)) 4 := by
      rw [dctRows, show (8 * k + 4) % 8 = 4 by omega, show (8 * k + 4) / 8 = k by omega]
    rw [zero, four]
    exact ⟨first, second⟩
  obtain ⟨first, second⟩ := @dct_sums (fun k => dctRows cdu (8 * k)) (-1024) 1016 fun k _ => (row k).1
  obtain ⟨third, fourth⟩ := @dct_sums (fun k => dctRows cdu (8 * k + 4)) (-1020) 1020 fun k _ => (row k).2
  exact ⟨first, abs_le.mpr third, abs_le.mpr second, abs_le.mpr fourth⟩

end Bounds

private theorem aasf_pos {k : Nat} (inside : k < 8) : 0 < aasf k := by
  interval_cases k <;> norm_num [aasf]

/-- Where neither index is a multiple of four, the bound leaves room. -/
theorem gain_room {r c : Nat} (inside : r < 8) (inside' : c < 8) (other : ¬(r % 4 = 0 ∧ c % 4 = 0)) :
    (gain r * (gain c * 128 + 768) + 196608 : Rat) ≤ 65536 * (1020 * (8 * aasf r * aasf c)) := by
  interval_cases r <;> interval_cases c <;> first | exact absurd ⟨rfl, rfl⟩ other | norm_num [gain, aasf]

section Samples
variable {cdu : Nat → Int}

/-- A coefficient but the first is at most 1020 times what it is divided by at least. -/
theorem du_room (samples : ∀ k, -128 ≤ cdu k ∧ cdu k ≤ 127) {r c : Nat} (inside : r < 8) (inside' : c < 8) (other : ¬(r = 0 ∧ c = 0)) :
    (|dctColumns (dctRows cdu) (8 * r + c)| : Rat) ≤ 1020 * (8 * aasf r * aasf c) := by
  by_cases sums : r % 4 = 0 ∧ c % 4 = 0
  · obtain ⟨-, first, second, third⟩ := du_sums samples
    have row : r = 0 ∨ r = 4 := by omega
    have column : c = 0 ∨ c = 4 := by omega
    have unit : aasf r = 1 ∧ aasf c = 1 := by
      rcases row with rfl | rfl <;> rcases column with rfl | rfl <;> norm_num [aasf]
    have whole : |dctColumns (dctRows cdu) (8 * r + c)| ≤ 8160 := by
      rcases row with rfl | rfl <;> rcases column with rfl | rfl
      · exact absurd ⟨rfl, rfl⟩ other
      · exact first
      · exact second
      · exact third
    rw [unit.1, unit.2]
    norm_num
    exact_mod_cast whole
  · have bound := du_bound samples inside inside'
    have cast : (65536 * |dctColumns (dctRows cdu) (8 * r + c)| : Rat) ≤ gain r * (gain c * 128 + 768) + 196608 := by exact_mod_cast bound
    rw [Int.cast_abs] at cast
    linarith [gain_room inside inside' sums]

variable {F : Type} {floats : Floats F}

private theorem exactly_le {r c table : Nat} (inside : r < 8) (inside' : c < 8) (positive : 1 ≤ table) {du : Int} {bound : Rat}
    (small : (|du| : Rat) ≤ bound * (8 * aasf r * aasf c)) : |exactly r c table du| ≤ bound := by
  have first := aasf_pos inside
  have second := aasf_pos inside'
  have one : (1 : Rat) ≤ table := by exact_mod_cast positive
  have scale : (0 : Rat) < 8 * aasf r * aasf c := by positivity
  have whole : (8 * table * aasf r * aasf c : Rat) = table * (8 * aasf r * aasf c) := by ring
  rw [exactly, whole, abs_div, abs_of_pos (mul_pos (lt_of_lt_of_le one_pos one) scale), div_le_iff₀ (mul_pos (lt_of_lt_of_le one_pos one) scale)]
  calc (|(du : Rat)|) ≤ bound * (8 * aasf r * aasf c) := small
    _ = bound * (8 * aasf r * aasf c) * 1 := (mul_one _).symm
    _ ≤ bound * (8 * aasf r * aasf c) * table :=
        mul_le_mul_of_nonneg_left one (le_trans (abs_nonneg _) small)
    _ = bound * (table * (8 * aasf r * aasf c)) := by ring

private theorem exactly_dc_le {table : Nat} (positive : 1 ≤ table) {du : Int} (high : du ≤ 8128) : exactly 0 0 table du ≤ 1016 := by
  have one : (1 : Rat) ≤ table := by exact_mod_cast positive
  have top : (du : Rat) ≤ 8128 := by exact_mod_cast high
  have unit : aasf 0 = 1 := by norm_num [aasf]
  rw [exactly, unit, div_le_iff₀ (by linarith)]
  linarith

private theorem descale_le (accurate : floats.Accurate) {r c table : Nat} (inside : r < 8) (inside' : c < 8) (range : 1 ≤ table ∧ table ≤ 255)
    {du : Int} {bound : Nat} (few : bound ≤ 1024) (small : (|du| : Rat) ≤ bound * (8 * aasf r * aasf c)) :
    (floats.descale du (floats.fdtbl r c table)).natAbs ≤ bound := by
  have near := accurate r inside c inside' table range.1 range.2 du
  have size := exactly_le inside inside' range.1 small
  have bounded : (bound : Rat) ≤ 1024 := by exact_mod_cast few
  have total : (|floats.descale du (floats.fdtbl r c table)| : Rat) < bound + 1 := by
    have triangle := abs_sub_abs_le_abs_sub (floats.descale du (floats.fdtbl r c table) : Rat) (exactly r c table du)
    linarith
  have whole : |floats.descale du (floats.fdtbl r c table)| < bound + 1 := by exact_mod_cast total
  rw [Int.abs_eq_natAbs] at whole
  omega

/-- All coefficients of a data unit are in the range of a baseline picture. -/
theorem baseline_of_samples (accurate : floats.Accurate) {table : List Nat} (range : ∀ k < 64, 1 ≤ table.getD k 0 ∧ table.getD k 0 ≤ 255)
    (samples : ∀ k, -128 ≤ cdu k ∧ cdu k ≤ 127) :
    Baseline (quantize floats (dctColumns (dctRows cdu)) (fdtblOf floats table)).1 := by
  have at_ : ∀ i < 64, (quantize floats (dctColumns (dctRows cdu)) (fdtblOf floats table)).1 (zigZag.getD i 0) =
      floats.descale (dctColumns (dctRows cdu) i) (floats.fdtbl (i / 8) (i % 8) (table.getD (zigZag.getD i 0) 0)) := fun i inside =>
    quantize_at floats _ _ inside
  have entry : ∀ i < 64, zigZag.getD i 0 < 64 := fun i inside => by
    have long : i < zigZag.length := inside
    rw [List.getD_eq_getElem zigZag 0 long]
    exact zigZag_lt _ (List.getElem_mem long)
  have dc := at_ 0 (by decide)
  change (quantize floats (dctColumns (dctRows cdu)) (fdtblOf floats table)).1 0 = _ at dc
  obtain ⟨⟨low, high⟩, -⟩ := du_sums samples
  have small : (|dctColumns (dctRows cdu) 0| : Rat) ≤ (1024 : Nat) * (8 * aasf 0 * aasf 0) := by
    have whole : |dctColumns (dctRows cdu) 0| ≤ 8192 := abs_le.mpr ⟨low, by omega⟩
    norm_num [aasf]
    exact_mod_cast whole
  refine ⟨?_, ?_, fun k positive => ?_⟩
  · have bounded := descale_le accurate (by decide) (by decide) (range _ (entry 0 (by decide))) (by decide) small
    rw [dc]
    change -1024 ≤ floats.descale _ (floats.fdtbl 0 0 _)
    omega
  · have near := accurate 0 (by decide) 0 (by decide) _ (range _ (entry 0 (by decide))).1 (range _ (entry 0 (by decide))).2
      (dctColumns (dctRows cdu) 0)
    have size := @exactly_le 0 0 _ (by decide) (by decide) (range _ (entry 0 (by decide))).1 (dctColumns (dctRows cdu) 0) 1024 small
    have upper := exactly_dc_le (range _ (entry 0 (by decide))).1 high
    have total : (floats.descale (dctColumns (dctRows cdu) 0) (floats.fdtbl 0 0 (table.getD (zigZag.getD 0 0) 0)) : Rat) < 1024 := by
      linarith [le_abs_self ((floats.descale (dctColumns (dctRows cdu) 0) (floats.fdtbl 0 0 (table.getD (zigZag.getD 0 0) 0)) : Rat) -
        exactly 0 0 (table.getD (zigZag.getD 0 0) 0) (dctColumns (dctRows cdu) 0))]
    have whole : floats.descale (dctColumns (dctRows cdu) 0) (floats.fdtbl 0 0 (table.getD (zigZag.getD 0 0) 0)) < 1024 := by
      exact_mod_cast total
    rw [dc]
    exact Int.lt_add_one_iff.mp whole
  · by_cases outside : 64 ≤ k
    · have ends := quantize_ends floats (dctColumns (dctRows cdu)) (fdtblOf floats table)
      rw [ends.behind k (Nat.lt_of_lt_of_le ends.inside outside)]
      decide
    · obtain ⟨i, inside, rfl⟩ := zigZag_onto k (by omega)
      have other : ¬(i / 8 = 0 ∧ i % 8 = 0) := by
        rintro ⟨row, column⟩
        have first : i = 0 := by omega
        rw [first] at positive
        exact absurd positive (by decide)
      have room := du_room samples (show i / 8 < 8 by omega) (show i % 8 < 8 by omega) other
      rw [show 8 * (i / 8) + i % 8 = i by omega] at room
      have bounded := @descale_le F floats accurate (i / 8) (i % 8) (table.getD (zigZag.getD i 0) 0) (by omega) (by omega)
        (range _ (entry i inside)) (dctColumns (dctRows cdu) i) 1020 (by decide) (by exact_mod_cast room)
      rw [at_ i inside]
      omega

end Samples

end ArduinoK210.Jpeg
