import ArduinoK210.Lib.Nor

/-! Loops that fill a buffer cell by cell. A loop that writes each cell once leaves in
each cell what its own iteration wrote, packed or in planes. -/

namespace Raster

open Nor (put slice)

universe u v

variable {σ : Type v} {α : Type u}

def sweep (count : Nat) (body : Nat → σ → σ) (state : σ) : σ := (List.range count).foldl (fun state i => body i state) state

theorem sweep_succ (count : Nat) (body : Nat → σ → σ) (state : σ) :
    sweep (count + 1) body state = body count (sweep count body state) := by
  simp only [sweep, List.range_succ, List.foldl_append, List.foldl_cons, List.foldl_nil]

theorem sweep_congr {count : Nat} {first second : Nat → σ → σ} (same : ∀ i, i < count → first i = second i) (state : σ) :
    sweep count first state = sweep count second state := by
  induction count with
  | zero => rfl
  | succ count ih =>
    rw [sweep_succ, sweep_succ, ih fun i inside => same i (Nat.lt_succ_of_lt inside), same count (Nat.lt_succ_self count)]

theorem sweep_rows (rows width : Nat) (body : Nat → σ → σ) (state : σ) :
    sweep rows (fun y => sweep width fun x => body (y * width + x)) state = sweep (rows * width) body state := by
  have shift : ∀ (base count : Nat) (state : σ),
      sweep (base + count) body state = sweep count (fun x => body (base + x)) (sweep base body state) := by
    intro base count state
    induction count with
    | zero => rfl
    | succ count ih => rw [← Nat.add_assoc, sweep_succ, sweep_succ, ih]
  induction rows with
  | zero =>
    rw [Nat.zero_mul]
    rfl
  | succ rows ih => rw [sweep_succ, ih, Nat.succ_mul, shift]

/-- The loop that writes the chunk of each iteration behind the one before. -/
def lay (base size count : Nat) (chunk : Nat → List α) (mem : Nat → α) : Nat → α :=
  sweep count (fun i mem => put mem (base + i * size) (chunk i)) mem

theorem lay_outside {base size count : Nat} {chunk : Nat → List α} (sized : ∀ i, i < count → (chunk i).length = size)
    (mem : Nat → α) {a : Nat} (outside : a < base ∨ base + count * size ≤ a) : lay base size count chunk mem a = mem a := by
  induction count with
  | zero => rfl
  | succ count ih =>
    have length := sized count (Nat.lt_succ_self count)
    rw [Nat.succ_mul] at outside
    rw [lay, sweep_succ, Nor.put_outside]
    · exact ih (fun i inside => sized i (Nat.lt_succ_of_lt inside)) (by omega)
    · rw [length]
      have grows : base ≤ base + count * size := Nat.le_add_right _ _
      omega

theorem lay_inside {base size count : Nat} {chunk : Nat → List α} (sized : ∀ i, i < count → (chunk i).length = size)
    (mem : Nat → α) {i k : Nat} (inside : i < count) {value : α} (found : (chunk i)[k]? = some value) :
    lay base size count chunk mem (base + i * size + k) = value := by
  induction count with
  | zero => omega
  | succ count ih =>
    have within : k < size := sized i inside ▸ (List.getElem?_eq_some_iff.mp found).1
    rw [lay, sweep_succ]
    by_cases last : i = count
    · rw [last] at found ⊢
      exact Nor.put_inside _ _ _ _ _ found
    · have earlier : i < count := by omega
      have below : i * size + size ≤ count * size := by
        rw [← Nat.succ_mul]
        exact Nat.mul_le_mul_right size earlier
      rw [Nor.put_outside]
      · exact ih (fun i inside => sized i (Nat.lt_succ_of_lt inside)) earlier
      · omega

/-- The loop that writes three bytes per iteration, one in each of three planes. -/
def spread (plane count : Nat) (cell : Nat → α × α × α) (mem : Nat → α) : Nat → α :=
  sweep count (fun i mem =>
    put (put (put mem i [(cell i).1]) (plane + i) [(cell i).2.1]) (plane + plane + i) [(cell i).2.2]) mem

theorem put_one (mem : Nat → α) (base : Nat) (value : α) : put mem base [value] base = value :=
  Nor.put_inside mem base [value] 0 value rfl

theorem put_one_other (mem : Nat → α) {base a : Nat} (value : α) (different : a ≠ base) : put mem base [value] a = mem a := by
  apply Nor.put_outside
  simp only [List.length_singleton]
  omega

theorem spread_inside {plane count : Nat} (cell : Nat → α × α × α) (mem : Nat → α) (fits : count ≤ plane) {i : Nat}
    (inside : i < count) :
    spread plane count cell mem i = (cell i).1 ∧ spread plane count cell mem (plane + i) = (cell i).2.1 ∧
      spread plane count cell mem (plane + plane + i) = (cell i).2.2 := by
  induction count with
  | zero => omega
  | succ count ih =>
    simp only [spread, sweep_succ]
    by_cases last : i = count
    · subst last
      refine ⟨?_, ?_, put_one _ _ _⟩
      · rw [put_one_other _ _ (by omega), put_one_other _ _ (by omega), put_one]
      · rw [put_one_other _ _ (by omega), put_one]
    · obtain ⟨first, second, third⟩ := ih (by omega) (by omega)
      refine ⟨?_, ?_, ?_⟩
      · rw [put_one_other _ _ (by omega), put_one_other _ _ (by omega), put_one_other _ _ (by omega)]
        exact first
      · rw [put_one_other _ _ (by omega), put_one_other _ _ (by omega), put_one_other _ _ (by omega)]
        exact second
      · rw [put_one_other _ _ (by omega), put_one_other _ _ (by omega), put_one_other _ _ (by omega)]
        exact third

/-- How the bytes of the cells of a buffer are laid out. -/
inductive Layout where
  | packed | planar
  deriving DecidableEq

/-- The address of byte `k` of cell `i`. -/
def Layout.address (count size : Nat) : Layout → Nat → Nat → Nat
  | .packed, i, k => i * size + k
  | .planar, i, k => k * count + i

def Layout.texel (layout : Layout) (count size : Nat) (mem : Nat → α) (i : Nat) : List α :=
  (List.range size).map fun k => mem (layout.address count size i k)

theorem Layout.address_lt (layout : Layout) {count size i k : Nat} (inside : i < count) (within : k < size) :
    layout.address count size i k < count * size := by
  cases layout with
  | packed =>
    have below : i * size + size ≤ count * size := by
      rw [← Nat.succ_mul]
      exact Nat.mul_le_mul_right size inside
    simp only [address]
    omega
  | planar =>
    have below : k * count + count ≤ size * count := by
      rw [← Nat.succ_mul]
      exact Nat.mul_le_mul_right count within
    rw [Nat.mul_comm count size]
    simp only [address]
    omega

theorem Layout.address_surjective (layout : Layout) {count size a : Nat} (inside : a < count * size) :
    ∃ i k, i < count ∧ k < size ∧ layout.address count size i k = a := by
  cases layout with
  | packed =>
    have positive : 0 < size := Nat.pos_of_ne_zero fun zero => by simp [zero] at inside
    refine ⟨a / size, a % size, ?_, Nat.mod_lt _ positive, ?_⟩
    · exact Nat.div_lt_of_lt_mul (by rwa [Nat.mul_comm])
    · exact Nat.div_add_mod' a size
  | planar =>
    have positive : 0 < count := Nat.pos_of_ne_zero fun zero => by simp [zero] at inside
    refine ⟨a % count, a / count, Nat.mod_lt _ positive, ?_, ?_⟩
    · exact Nat.div_lt_of_lt_mul inside
    · exact Nat.div_add_mod' a count

theorem Layout.texel_length (layout : Layout) (count size : Nat) (mem : Nat → α) (i : Nat) :
    (layout.texel count size mem i).length = size := by
  simp [texel]

theorem Layout.slice_eq_iff (layout : Layout) (count size : Nat) (first second : Nat → α) :
    slice first 0 (count * size) = slice second 0 (count * size) ↔
      ∀ i, i < count → layout.texel count size first i = layout.texel count size second i := by
  refine ⟨fun same i inside => ?_, fun same => Memory.slice_congr fun a inside => ?_⟩
  · apply List.map_congr_left
    intro k member
    have bound := layout.address_lt inside (List.mem_range.mp member)
    have cell := congrArg (·[layout.address count size i k]?) same
    simp only [Nor.slice_getElem?, if_pos bound, Nat.zero_add] at cell
    exact Option.some.inj cell
  · obtain ⟨i, k, row, byte, found⟩ := layout.address_surjective inside
    have cell := congrArg (·[k]?) (same i row)
    simpa [texel, byte, found] using cell

theorem texel_lay {size count : Nat} {chunk : Nat → List α} (sized : ∀ i, i < count → (chunk i).length = size)
    (mem : Nat → α) {i : Nat} (inside : i < count) :
    Layout.packed.texel count size (lay 0 size count chunk mem) i = chunk i := by
  apply List.ext_getElem?
  intro k
  by_cases within : k < size
  · have bound : k < (chunk i).length := by rwa [sized i inside]
    have found := List.getElem?_eq_getElem bound
    have value : lay 0 size count chunk mem (0 + i * size + k) = _ := lay_inside sized mem inside found
    simp only [Layout.texel, Layout.address, List.getElem?_map, List.getElem?_range within, Option.map_some, found]
    rw [Nat.zero_add] at value
    rw [value]
  · rw [List.getElem?_eq_none (by rw [Layout.texel_length]; omega), List.getElem?_eq_none (by rw [sized i inside]; omega)]

theorem texel_spread {count : Nat} (cell : Nat → α × α × α) (mem : Nat → α) {i : Nat} (inside : i < count) :
    Layout.planar.texel count 3 (spread count count cell mem) i = [(cell i).1, (cell i).2.1, (cell i).2.2] := by
  obtain ⟨first, second, third⟩ := spread_inside cell mem (Nat.le_refl count) inside
  have two : 2 * count + i = count + count + i := by omega
  simp only [Layout.texel, Layout.address, List.range_succ, List.range_zero, List.nil_append, List.cons_append, List.map_cons,
    List.map_nil, Nat.zero_mul, Nat.zero_add, Nat.one_mul, first, second, two, third]

theorem row_div {width x : Nat} (y : Nat) (column : x < width) : (y * width + x) / width = y := by
  rw [Nat.mul_comm, Nat.mul_add_div (Nat.zero_lt_of_lt column), Nat.div_eq_of_lt column, Nat.add_zero]

theorem row_mod {width x : Nat} (y : Nat) (column : x < width) : (y * width + x) % width = x := by
  rw [Nat.mul_comm, Nat.mul_add_mod, Nat.mod_eq_of_lt column]

theorem row_lt {width rows x y : Nat} (row : y < rows) (column : x < width) : y * width + x < width * rows := by
  have below : y * width + width ≤ rows * width := by
    rw [← Nat.succ_mul]
    exact Nat.mul_le_mul_right width row
  rw [Nat.mul_comm width rows]
  omega

theorem sweep_cells (rows width : Nat) (body : Nat → Nat → σ → σ) (state : σ) :
    sweep rows (fun y => sweep width fun x => body y x) state =
      sweep (width * rows) (fun i => body (i / width) (i % width)) state := by
  rw [Nat.mul_comm, ← sweep_rows]
  apply sweep_congr
  intro y _
  funext state
  apply sweep_congr
  intro x column
  rw [row_div y column, row_mod y column]

theorem texel_rows {rows width size : Nat} {cell : Nat → Nat → List α} (sized : ∀ y x, (cell y x).length = size)
    (mem : Nat → α) {x y : Nat} (row : y < rows) (column : x < width) :
    Layout.packed.texel (width * rows) size
      (sweep rows (fun y => sweep width fun x mem => put mem (y * width * size + x * size) (cell y x)) mem)
      (y * width + x) = cell y x := by
  have flat : sweep rows (fun y => sweep width fun x mem => put mem (y * width * size + x * size) (cell y x)) mem =
      lay 0 size (width * rows) (fun i => cell (i / width) (i % width)) mem := by
    rw [sweep_cells]
    apply sweep_congr
    intro i _
    funext mem
    rw [← Nat.add_mul, Nat.div_add_mod', Nat.zero_add]
  rw [flat, texel_lay (fun i _ => sized _ _) mem (row_lt row column), row_div y column, row_mod y column]

theorem texel_plane_rows {rows width : Nat} (cell : Nat → Nat → α × α × α) (mem : Nat → α) {x y : Nat} (row : y < rows)
    (column : x < width) :
    Layout.planar.texel (width * rows) 3
      (sweep rows (fun y => sweep width fun x mem =>
        put (put (put mem (y * width + x) [(cell y x).1]) (width * rows + (y * width + x)) [(cell y x).2.1])
          (width * rows + width * rows + (y * width + x)) [(cell y x).2.2]) mem)
      (y * width + x) = [(cell y x).1, (cell y x).2.1, (cell y x).2.2] := by
  have flat : sweep rows (fun y => sweep width fun x mem =>
        put (put (put mem (y * width + x) [(cell y x).1]) (width * rows + (y * width + x)) [(cell y x).2.1])
          (width * rows + width * rows + (y * width + x)) [(cell y x).2.2]) mem =
      spread (width * rows) (width * rows) (fun i => cell (i / width) (i % width)) mem := by
    rw [sweep_cells]
    apply sweep_congr
    intro i _
    funext mem
    rw [Nat.div_add_mod']
  rw [flat, texel_spread _ mem (row_lt row column), row_div y column, row_mod y column]

theorem texel_copied {rows width size : Nat} (source : Nat → α) (start : Nat → Nat) (mem : Nat → α) {x y : Nat}
    (row : y < rows) (column : x < width) :
    Layout.packed.texel (width * rows) size
      (lay 0 (width * size) rows (fun y => slice source (start y) (width * size)) mem) (y * width + x) =
      (List.range size).map fun k => source (start y + x * size + k) := by
  apply List.map_congr_left
  intro k member
  have within : x * size + k < width * size := by
    have below : x * size + size ≤ width * size := by
      rw [← Nat.succ_mul]
      exact Nat.mul_le_mul_right size column
    have byte := List.mem_range.mp member
    omega
  have found : (slice source (start y) (width * size))[x * size + k]? = some (source (start y + x * size + k)) := by
    rw [Nor.slice_getElem?, if_pos within, Nat.add_assoc]
  have place : Layout.packed.address (width * rows) size (y * width + x) k = 0 + y * (width * size) + (x * size + k) := by
    simp only [Layout.address, Nat.add_mul, Nat.mul_assoc]
    omega
  rw [place]
  exact lay_inside (fun i _ => Nor.slice_length _ _ _) mem row found

theorem texel_copied_planes {rows width : Nat} (source : Nat → α) (start : Nat → Nat → Nat) (mem : Nat → α) {x y : Nat}
    (row : y < rows) (column : x < width) :
    Layout.planar.texel (width * rows) 3
      (lay (width * rows * 2) width rows (fun y => slice source (start 2 y) width)
        (lay (width * rows * 1) width rows (fun y => slice source (start 1 y) width)
          (lay (width * rows * 0) width rows (fun y => slice source (start 0 y) width) mem))) (y * width + x) =
      [source (start 0 y + x), source (start 1 y + x), source (start 2 y + x)] := by
  have cell := row_lt row column
  have area : rows * width = width * rows := Nat.mul_comm _ _
  have own : ∀ (c : Nat) (mem : Nat → α),
      lay (width * rows * c) width rows (fun y => slice source (start c y) width) mem
        (c * (width * rows) + (y * width + x)) = source (start c y + x) := by
    intro c mem
    have found : (slice source (start c y) width)[x]? = some (source (start c y + x)) := by
      rw [Nor.slice_getElem?, if_pos column]
    rw [Nat.mul_comm c, ← Nat.add_assoc]
    exact lay_inside (fun i _ => Nor.slice_length _ _ _) mem row found
  have other : ∀ (c d : Nat) (mem : Nat → α), c < d →
      lay (width * rows * d) width rows (fun y => slice source (start d y) width) mem
        (c * (width * rows) + (y * width + x)) = mem (c * (width * rows) + (y * width + x)) := by
    intro c d mem less
    apply lay_outside fun i _ => Nor.slice_length _ _ _
    have below : c * (width * rows) + width * rows ≤ d * (width * rows) := by
      rw [← Nat.succ_mul]
      exact Nat.mul_le_mul_right _ less
    rw [Nat.mul_comm (width * rows) d]
    omega
  simp only [Layout.texel, Layout.address, List.range_succ, List.range_zero, List.nil_append, List.cons_append, List.map_cons,
    List.map_nil]
  rw [other 0 2 _ (by omega), other 0 1 _ (by omega), own 0, other 1 2 _ (by omega), own 1, own 2]

end Raster
