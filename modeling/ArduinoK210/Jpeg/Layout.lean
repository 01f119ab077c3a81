import ArduinoK210.Jpeg.Quantizers
import ArduinoK210.Jpeg.Coverage

/-! The data units of a whole picture, in the order of the scan and at the places that a reader gives them. The arrays of a block keep
what the block before has left in them, but all entries that are coded are new. -/

namespace ArduinoK210.Jpeg

open Decoder (Place FrameComponent places unitPlaces rounds greatest)
open Stride (strides)

/-- The data units of rounds over the blocks, each with its place. A chrominance unit stands where the first block of its round is. -/
def placed (color : Bool) : Subsampling → List Mcu → List (Place × DataUnit)
  | .s444, mcu :: rest =>
      ((⟨0, mcu.xOffset / 8, mcu.yOffset / 8⟩, (.y, mcu.y0.entry)) ::
        if color then
          [(⟨1, mcu.xOffset / 8, mcu.yOffset / 8⟩, (.u, mcu.cb.entry)), (⟨2, mcu.xOffset / 8, mcu.yOffset / 8⟩, (.v, mcu.cr.entry))]
        else []) ++ placed color .s444 rest
  | .s422, left :: right :: rest =>
      [(⟨0, left.xOffset / 8, left.yOffset / 8⟩, (.y, left.y0.entry)), (⟨0, right.xOffset / 8, right.yOffset / 8⟩, (.y, right.y0.entry)),
        (⟨1, left.xOffset / 16, left.yOffset / 8⟩, (.u, halved left.cb right.cb)),
        (⟨2, left.xOffset / 16, left.yOffset / 8⟩, (.v, halved left.cr right.cr))] ++ placed color .s422 rest
  | .s420, first :: second :: third :: fourth :: rest =>
      [(⟨0, first.xOffset / 8, first.yOffset / 8⟩, (.y, first.y0.entry)), (⟨0, second.xOffset / 8, second.yOffset / 8⟩, (.y, second.y0.entry)),
        (⟨0, third.xOffset / 8, third.yOffset / 8⟩, (.y, third.y0.entry)), (⟨0, fourth.xOffset / 8, fourth.yOffset / 8⟩, (.y, fourth.y0.entry)),
        (⟨1, first.xOffset / 16, first.yOffset / 16⟩, (.u, quartered first.cb second.cb third.cb fourth.cb)),
        (⟨2, first.xOffset / 16, first.yOffset / 16⟩, (.v, quartered first.cr second.cr third.cr fourth.cr))] ++ placed color .s420 rest
  | _, _ => []

theorem placed_units (color : Bool) : ∀ (subsampling : Subsampling) (blocks : List Mcu),
    (placed color subsampling blocks).map Prod.snd = dataUnits color subsampling blocks
  | .auto, [] | .s444, [] | .s422, [] | .s422, [_] | .s420, [] | .s420, [_] | .s420, [_, _] | .s420, [_, _, _] => rfl
  | .auto, _ :: _ => rfl
  | .s444, mcu :: rest => by
    rw [placed, List.map_append, placed_units color .s444 rest, dataUnits]
    cases color <;> rfl
  | .s422, left :: right :: rest => by
    rw [placed, List.map_append, placed_units color .s422 rest, dataUnits]
    rfl
  | .s420, first :: second :: third :: fourth :: rest => by
    rw [placed, List.map_append, placed_units color .s420 rest, dataUnits]
    rfl

private theorem entry_range (plane : Plane) (index : Nat) : -128 ≤ plane.entry index ∧ plane.entry index ≤ 127 := by
  have low := Int8.le_toInt ((plane index).getD 0).toInt8
  have high := Int8.toInt_lt ((plane index).getD 0).toInt8
  rw [Plane.entry]
  omega

theorem tdiv_range {sum count : Int} (positive : 0 < count) (low : -128 * count ≤ sum) (high : sum ≤ 127 * count) :
    -128 ≤ sum.tdiv count ∧ sum.tdiv count ≤ 127 := by
  have whole := Int.mul_tdiv_add_tmod sum count
  have below := Int.tmod_lt_of_pos sum positive
  have above := Int.lt_tmod_of_pos sum positive
  constructor <;> by_contra outside
  · nlinarith
  · nlinarith

private theorem halved_range (left right : Plane) (index : Nat) : -128 ≤ halved left right index ∧ halved left right index ≤ 127 := by
  unfold halved
  dsimp only
  generalize (if index % 8 < 4 then left else right) = block
  obtain ⟨l0, h0⟩ := entry_range block (8 * (index / 8) + 2 * (index % 4))
  obtain ⟨l1, h1⟩ := entry_range block (8 * (index / 8) + 2 * (index % 4) + 1)
  exact tdiv_range (by decide) (by omega) (by omega)

private theorem quartered_range (first second third fourth : Plane) (index : Nat) :
    -128 ≤ quartered first second third fourth index ∧ quartered first second third fourth index ≤ 127 := by
  unfold quartered
  dsimp only
  generalize (if index / 8 < 4 then if index % 8 < 4 then first else second else if index % 8 < 4 then third else fourth) = block
  generalize 16 * (index / 8 % 4) + 2 * (index % 4) = i
  obtain ⟨l0, h0⟩ := entry_range block i
  obtain ⟨l1, h1⟩ := entry_range block (i + 1)
  obtain ⟨l2, h2⟩ := entry_range block (i + 8)
  obtain ⟨l3, h3⟩ := entry_range block (i + 9)
  exact tdiv_range (by decide) (by omega) (by omega)

/-- The place and the samples of a unit are of one component, and the samples are bytes with a sign. -/
def Matching (unit : Place × DataUnit) : Prop :=
  unit.1.component = unit.2.1.index ∧ ∀ k, -128 ≤ unit.2.2 k ∧ unit.2.2 k ≤ 127

theorem placed_matching (color : Bool) : ∀ (subsampling : Subsampling) (blocks : List Mcu),
    ∀ unit ∈ placed color subsampling blocks, Matching unit
  | .auto, [] | .s444, [] | .s422, [] | .s422, [_] | .s420, [] | .s420, [_] | .s420, [_, _] | .s420, [_, _, _] =>
    fun _ member => absurd member List.not_mem_nil
  | .auto, _ :: _ => fun _ member => absurd member List.not_mem_nil
  | .s444, mcu :: rest => by
    rw [placed]
    refine List.forall_mem_append.mpr ⟨List.forall_mem_cons.mpr ⟨⟨rfl, entry_range _⟩, ?_⟩, placed_matching color .s444 rest⟩
    split
    · exact List.forall_mem_cons.mpr ⟨⟨rfl, entry_range _⟩, List.forall_mem_singleton.mpr ⟨rfl, entry_range _⟩⟩
    · exact fun _ member => absurd member List.not_mem_nil
  | .s422, left :: right :: rest => by
    rw [placed]
    refine List.forall_mem_append.mpr ⟨List.forall_mem_cons.mpr ⟨⟨rfl, entry_range _⟩, List.forall_mem_cons.mpr ⟨⟨rfl, entry_range _⟩,
      List.forall_mem_cons.mpr ⟨⟨rfl, halved_range _ _⟩, List.forall_mem_singleton.mpr ⟨rfl, halved_range _ _⟩⟩⟩⟩,
      placed_matching color .s422 rest⟩
  | .s420, first :: second :: third :: fourth :: rest => by
    rw [placed]
    refine List.forall_mem_append.mpr ⟨List.forall_mem_cons.mpr ⟨⟨rfl, entry_range _⟩, List.forall_mem_cons.mpr ⟨⟨rfl, entry_range _⟩,
      List.forall_mem_cons.mpr ⟨⟨rfl, entry_range _⟩, List.forall_mem_cons.mpr ⟨⟨rfl, entry_range _⟩,
      List.forall_mem_cons.mpr ⟨⟨rfl, quartered_range _ _ _ _⟩, List.forall_mem_singleton.mpr ⟨rfl, quartered_range _ _ _ _⟩⟩⟩⟩⟩⟩,
      placed_matching color .s420 rest⟩

theorem placed_gray : ∀ blocks : List Mcu, ∀ unit ∈ placed false .s444 blocks, unit.2.1 = .y
  | [] => fun _ member => absurd member List.not_mem_nil
  | mcu :: rest => by
    rw [placed]
    exact List.forall_mem_cons.mpr ⟨rfl, placed_gray rest⟩

def frameComponents (color : Bool) (subsampling : Subsampling) : List FrameComponent :=
  if color then [⟨1, subsampling.value / 16, subsampling.value % 16, 0⟩, ⟨2, 1, 1, 1⟩, ⟨3, 1, 1, 1⟩] else [⟨1, 1, 1, 0⟩]

section Rounds
variable {color : Bool} {subsampling : Subsampling}

/-- What a round of the loops over the blocks is for a reader: one unit of the scan. -/
def Unites (color : Bool) (subsampling : Subsampling) (round : Nat → Nat → List Mcu) : Prop :=
  let vertical := greatest ((frameComponents color subsampling).map FrameComponent.vertical)
  let horizontal := greatest ((frameComponents color subsampling).map FrameComponent.horizontal)
  ∀ row column rest, placed color subsampling (round (row * (8 * vertical)) (column * (8 * horizontal)) ++ rest) =
      placed color subsampling (round (row * (8 * vertical)) (column * (8 * horizontal))) ++ placed color subsampling rest ∧
    (placed color subsampling (round (row * (8 * vertical)) (column * (8 * horizontal)))).map Prod.fst =
      unitPlaces (frameComponents color subsampling) column row

private theorem half_offset (src : ImageInfo) (yOffset dy xOffset : Nat) :
    (half src yOffset dy xOffset).xOffset = xOffset ∧ (half src yOffset dy xOffset).yOffset = yOffset := by
  unfold half
  dsimp only
  split <;> exact ⟨rfl, rfl⟩

private theorem quarter_offset (src : ImageInfo) (yOffset xOffset : Nat) :
    (quarter src yOffset xOffset).xOffset = xOffset ∧ (quarter src yOffset xOffset).yOffset = yOffset := by
  unfold quarter
  dsimp only
  split <;> exact ⟨rfl, rfl⟩

theorem mcu444_unites (src : ImageInfo) (color : Bool) : Unites color .s444 (mcu444 src) := by
  cases color <;> intro row column rest
  · refine ⟨rfl, ?_⟩
    change [(⟨0, column * 8 / 8, row * 8 / 8⟩ : Place)] = [⟨0, column * 1 + 0, row * 1 + 0⟩]
    congr 2 <;> omega
  · refine ⟨rfl, ?_⟩
    change [(⟨0, column * 8 / 8, row * 8 / 8⟩ : Place), ⟨1, column * 8 / 8, row * 8 / 8⟩, ⟨2, column * 8 / 8, row * 8 / 8⟩] =
      [⟨0, column * 1 + 0, row * 1 + 0⟩, ⟨1, column * 1 + 0, row * 1 + 0⟩, ⟨2, column * 1 + 0, row * 1 + 0⟩]
    rw [Nat.mul_div_cancel _ (by decide), Nat.mul_div_cancel _ (by decide)]
    simp only [Nat.mul_one, Nat.add_zero]

theorem mcu422_unites (src : ImageInfo) : Unites true .s422 (mcu422 src) := by
  intro row column rest
  refine ⟨rfl, ?_⟩
  have x : ∀ dy xOffset, (half src (row * 8) dy xOffset).xOffset = xOffset := fun dy xOffset => (half_offset src _ dy xOffset).1
  have y : ∀ dy xOffset, (half src (row * 8) dy xOffset).yOffset = row * 8 := fun dy xOffset => (half_offset src _ dy xOffset).2
  change [(⟨0, (half src (row * 8) _ (column * 16)).xOffset / 8, (half src (row * 8) _ (column * 16)).yOffset / 8⟩ : Place),
    ⟨0, (half src (row * 8) _ (column * 16 + mcuW)).xOffset / 8, (half src (row * 8) _ (column * 16 + mcuW)).yOffset / 8⟩,
    ⟨1, (half src (row * 8) _ (column * 16)).xOffset / 16, (half src (row * 8) _ (column * 16)).yOffset / 8⟩,
    ⟨2, (half src (row * 8) _ (column * 16)).xOffset / 16, (half src (row * 8) _ (column * 16)).yOffset / 8⟩] =
    [⟨0, column * 2 + 0, row * 1 + 0⟩, ⟨0, column * 2 + 1, row * 1 + 0⟩, ⟨1, column * 1 + 0, row * 1 + 0⟩, ⟨2, column * 1 + 0, row * 1 + 0⟩]
  have even : ∀ n, n * 16 / 8 = n * 2 := fun n => by omega
  have odd : ∀ n, (n * 16 + 8) / 8 = n * 2 + 1 := fun n => by omega
  have whole : ∀ n, n * 16 / 16 = n := fun n => by omega
  have whole' : ∀ n, n * 8 / 8 = n := fun n => by omega
  simp only [x, y, mcuW, even, odd, whole, whole', Nat.mul_one, Nat.add_zero]

theorem mcu420_unites (src : ImageInfo) : Unites true .s420 (mcu420 src) := by
  intro row column rest
  refine ⟨rfl, ?_⟩
  have x : ∀ yOffset xOffset, (quarter src yOffset xOffset).xOffset = xOffset := fun yOffset xOffset => (quarter_offset src yOffset xOffset).1
  have y : ∀ yOffset xOffset, (quarter src yOffset xOffset).yOffset = yOffset := fun yOffset xOffset => (quarter_offset src yOffset xOffset).2
  change [(⟨0, (quarter src (row * 16) (column * 16)).xOffset / 8, (quarter src (row * 16) (column * 16)).yOffset / 8⟩ : Place),
    ⟨0, (quarter src (row * 16) (column * 16 + mcuW)).xOffset / 8, (quarter src (row * 16) (column * 16 + mcuW)).yOffset / 8⟩,
    ⟨0, (quarter src (row * 16 + mcuH) (column * 16)).xOffset / 8, (quarter src (row * 16 + mcuH) (column * 16)).yOffset / 8⟩,
    ⟨0, (quarter src (row * 16 + mcuH) (column * 16 + mcuW)).xOffset / 8, (quarter src (row * 16 + mcuH) (column * 16 + mcuW)).yOffset / 8⟩,
    ⟨1, (quarter src (row * 16) (column * 16)).xOffset / 16, (quarter src (row * 16) (column * 16)).yOffset / 16⟩,
    ⟨2, (quarter src (row * 16) (column * 16)).xOffset / 16, (quarter src (row * 16) (column * 16)).yOffset / 16⟩] =
    [⟨0, column * 2 + 0, row * 2 + 0⟩, ⟨0, column * 2 + 1, row * 2 + 0⟩, ⟨0, column * 2 + 0, row * 2 + 1⟩, ⟨0, column * 2 + 1, row * 2 + 1⟩,
      ⟨1, column * 1 + 0, row * 1 + 0⟩, ⟨2, column * 1 + 0, row * 1 + 0⟩]
  have even : ∀ n, n * 16 / 8 = n * 2 := fun n => by omega
  have odd : ∀ n, (n * 16 + 8) / 8 = n * 2 + 1 := fun n => by omega
  have whole : ∀ n, n * 16 / 16 = n := fun n => by omega
  simp only [x, y, mcuW, mcuH, even, odd, whole, Nat.mul_one, Nat.add_zero]

/-- The places of all data units are those that a reader counts through. -/
theorem places_of_rounds {round : Nat → Nat → List Mcu} (unites : Unites color subsampling round) (src : ImageInfo) {stepY stepX : Nat}
    (positive : 0 < stepY) (positive' : 0 < stepX)
    (vertical : stepY = 8 * greatest ((frameComponents color subsampling).map FrameComponent.vertical))
    (horizontal : stepX = 8 * greatest ((frameComponents color subsampling).map FrameComponent.horizontal)) :
    (placed color subsampling (strides stepY src.h positive (mcuRow src stepX positive' round) 0)).map Prod.fst =
      places ⟨src.h, src.w, frameComponents color subsampling⟩ := by
  have row : ∀ (columns : List Nat) (row : Nat) (rest : List Mcu),
      placed color subsampling (columns.flatMap (fun column => round (row * stepY) (column * stepX)) ++ rest) =
        columns.flatMap (fun column => placed color subsampling (round (row * stepY) (column * stepX))) ++
          placed color subsampling rest := by
    intro columns row rest
    induction columns with
    | nil => rfl
    | cons column columns ih =>
      have here := (unites row column (columns.flatMap (fun column => round (row * stepY) (column * stepX)) ++ rest)).1
      rw [← vertical, ← horizontal] at here
      rw [List.flatMap_cons, List.append_assoc, here, ih, List.flatMap_cons, List.append_assoc]
  have all : ∀ (rows columns : List Nat),
      (placed color subsampling (rows.flatMap fun row => columns.flatMap fun column => round (row * stepY) (column * stepX))).map Prod.fst =
        rows.flatMap fun row => columns.flatMap fun column => unitPlaces (frameComponents color subsampling) column row := by
    intro rows columns
    have empty : placed color subsampling [] = [] := by cases subsampling <;> rfl
    induction rows with
    | nil =>
      rw [List.flatMap_nil, empty]
      rfl
    | cons first rows ih =>
      rw [List.flatMap_cons, row, List.map_append, ih, List.map_flatMap, List.flatMap_cons]
      congr 1
      refine congrArg (fun f => List.flatMap f columns) (funext fun column => ?_)
      have here := (unites first column []).2
      rw [← vertical, ← horizontal] at here
      exact here
  rw [Stride.strides_eq_range, places]
  simp only [mcuRow, Stride.strides_eq_range, Nat.zero_add, Nat.sub_zero]
  rw [← vertical, ← horizontal]
  exact all _ _

end Rounds

private theorem Plane.store_written {value : Sample → Option UInt8} {index : Nat} {samples : List Sample}
    (all : ∀ sample ∈ samples, (value sample).isSome = true) :
    ∀ {plane : Plane}, ((plane index).isSome = true ∨ ∃ sample ∈ samples, sample.index = index) →
      (plane.store value samples index).isSome = true := by
  induction samples with
  | nil => exact fun either => either.resolve_right fun ⟨_, member, _⟩ => absurd member List.not_mem_nil
  | cons sample samples ih =>
    intro plane either
    have first := all sample List.mem_cons_self
    rw [Plane.store, List.foldl_cons, if_pos first]
    refine @ih (fun other member => all other (List.mem_cons_of_mem _ member)) _ ?_
    by_cases here : sample.index = index
    · left
      rw [here, Function.update_self]
      exact first
    · rw [Function.update_of_ne (Ne.symm here)]
      rcases either with before | ⟨other, member, same⟩
      · exact .inl before
      · rcases List.mem_cons.mp member with rfl | later
        · exact absurd same here
        · exact .inr ⟨other, later, same⟩

/-- All entries of the block that are coded have been written. -/
def Mcu.Written (mcu : Mcu) (color : Bool) : Prop :=
  ∀ index < mcuSize, (mcu.y0 index).isSome = true ∧ (color = true → (mcu.cb index).isSome = true ∧ (mcu.cr index).isSome = true)

private theorem mcuSamples_full {src : ImageInfo} (format : src.pixfmt ≠ .invalid) (xOffset yOffset : Nat) {index : Nat} (inside : index < mcuSize) :
    ∃ sample ∈ mcuSamples src xOffset yOffset mcuW mcuH, sample.index = index := by
  have covered : ∀ row : Nat → Nat → List Sample, (∀ y index, (row y index).map Sample.index = (List.range mcuW).map fun k => index + k) →
      ∃ sample ∈ mcuRows row yOffset 0 mcuH, sample.index = index := by
    intro row rows
    have all := mcuRows_map Sample.index (fun index _ _ => index) (fun y index (_ : y < yOffset + mcuH) => rows y index) mcuH yOffset 0
      (Nat.le_refl _)
    have there : index ∈ (mcuRows row yOffset 0 mcuH).map Sample.index := by
      rw [all]
      refine List.mem_flatMap.mpr ⟨index / 8, List.mem_range.mpr ?_, List.mem_map.mpr ⟨index % 8, List.mem_range.mpr ?_, ?_⟩⟩
      · simp only [mcuSize, mcuW, mcuH] at inside ⊢
        omega
      · simp only [mcuW]
        omega
      · simp only [mcuW]
        omega
    exact List.mem_map.mp there
  have keyed : ∀ {row : List Sample} {index : Nat} {bytes : Nat → List Nat},
      row.map Sample.key = (List.range mcuW).map (fun k => (index + k, bytes k)) →
      row.map Sample.index = (List.range mcuW).map fun k => index + k := by
    intro row index bytes keys
    have first := congrArg (List.map Prod.fst) keys
    rw [List.map_map, List.map_map] at first
    exact first
  unfold mcuSamples
  cases same : src.pixfmt with
  | grayscale => exact covered _ fun y index => keyed (grayscaleRow_key (by decide) (by decide) y index)
  | rgb565 => exact covered _ fun y index => keyed (rgb565Row_key mcuW y index)
  | rgb888 =>
    refine covered _ fun y index => ?_
    unfold rgb888Row
    exact keyed (componentRow_key _ mcuW index)
  | rgbp888 =>
    refine covered _ fun y index => ?_
    unfold rgbp888Row
    exact keyed (componentRow_key _ mcuW index)
  | invalid => exact absurd same format

private theorem mcuSamples_chroma {src : ImageInfo} (gray : src.pixfmt ≠ .grayscale) (xOffset yOffset dx dy : Nat) :
    ∀ sample ∈ mcuSamples src xOffset yOffset dx dy, sample.chroma.isSome = true := by
  have rows : ∀ row : Nat → Nat → List Sample, (∀ y index, (row y index).map (·.chroma.isSome) = (List.range dx).map fun _ => true) →
      ∀ sample ∈ mcuRows row yOffset 0 dy, sample.chroma.isSome = true := by
    intro row rows sample member
    have all := mcuRows_map (fun sample => sample.chroma.isSome) (fun _ _ _ => true)
      (fun y index (_ : y < yOffset + dy) => rows y index) dy yOffset 0 (Nat.le_refl _)
    have there := List.mem_map_of_mem (f := fun sample : Sample => sample.chroma.isSome) member
    rw [all] at there
    obtain ⟨j, -, row⟩ := List.mem_flatMap.mp there
    obtain ⟨k, -, same⟩ := List.mem_map.mp row
    exact same.symm
  have component : ∀ place index, (componentRow src place dx index).map (·.chroma.isSome) = (List.range dx).map fun _ => true :=
    fun place index => byTwos_map (fun sample => sample.chroma.isSome) (fun _ => true) (fun _ => rfl) (fun _ => rfl) dx 0
  unfold mcuSamples
  cases same : src.pixfmt with
  | grayscale => exact absurd same gray
  | rgb565 =>
    exact rows _ fun y index => byTwos_map (fun sample => sample.chroma.isSome) (fun _ => true) (fun _ => rfl) (fun _ => rfl) dx 0
  | rgb888 => exact rows _ fun y index => component _ index
  | rgbp888 => exact rows _ fun y index => component _ index
  | invalid => exact fun sample member => absurd member List.not_mem_nil

private theorem jpegGetMcu_written {src : ImageInfo} (format : src.pixfmt ≠ .invalid) (xOffset yOffset dx dy : Nat) :
    (jpegGetMcu src xOffset yOffset dx dy).Written (src.pixfmt ≠ .grayscale) := by
  intro index inside
  have cleared : (Plane.zeros index).isSome = true := by rw [Plane.zeros, if_pos inside]; rfl
  by_cases ragged : dx ≠ mcuW ∨ dy ≠ mcuH
  · unfold jpegGetMcu
    simp only [ragged, decide_true, true_or, true_and, if_true]
    refine ⟨Plane.store_written (fun _ _ => rfl) (.inl cleared), fun color => ?_⟩
    have gray : src.pixfmt ≠ .grayscale := of_decide_eq_true color
    rw [if_pos (.inl gray)]
    have chroma := mcuSamples_chroma gray xOffset yOffset dx dy
    exact ⟨Plane.store_written (fun sample member => by rw [Option.isSome_map]; exact chroma sample member) (.inl cleared),
      Plane.store_written (fun sample member => by rw [Option.isSome_map]; exact chroma sample member) (.inl cleared)⟩
  · obtain ⟨rfl, rfl⟩ : dx = mcuW ∧ dy = mcuH := ⟨by_contra fun other => ragged (.inl other), by_contra fun other => ragged (.inr other)⟩
    have full := mcuSamples_full format xOffset yOffset inside
    refine ⟨Plane.store_written (fun _ _ => rfl) (.inr full), fun color => ?_⟩
    have chroma := mcuSamples_chroma (of_decide_eq_true color) xOffset yOffset mcuW mcuH
    exact ⟨Plane.store_written (fun sample member => by rw [Option.isSome_map]; exact chroma sample member) (.inr full),
      Plane.store_written (fun sample member => by rw [Option.isSome_map]; exact chroma sample member) (.inr full)⟩

private theorem blank_written (xOffset yOffset : Nat) (color : Bool) : (blank xOffset yOffset).Written color := by
  intro index inside
  have cleared : (Plane.zeros index).isSome = true := by rw [Plane.zeros, if_pos inside]; rfl
  exact ⟨cleared, fun _ => ⟨cleared, cleared⟩⟩

/-- No block that is coded has an entry left from the block before it. -/
theorem allBlocks_written {src : ImageInfo} (format : src.pixfmt ≠ .invalid) (chosen : Subsampling) :
    ∀ mcu ∈ allBlocks src chosen, mcu.Written (src.pixfmt ≠ .grayscale) := by
  have halves : ∀ yOffset dy xOffset, (half src yOffset dy xOffset).Written (src.pixfmt ≠ .grayscale) := fun yOffset dy xOffset => by
    unfold half
    dsimp only
    split
    · exact jpegGetMcu_written format _ _ _ _
    · exact blank_written _ _ _
  have quarters : ∀ yOffset xOffset, (quarter src yOffset xOffset).Written (src.pixfmt ≠ .grayscale) := fun yOffset xOffset => by
    unfold quarter
    dsimp only
    split
    · exact jpegGetMcu_written format _ _ _ _
    · exact blank_written _ _ _
  have rounds : ∀ (stepX stepY : Nat) (positiveX : 0 < stepX) (positiveY : 0 < stepY) (round : Nat → Nat → List Mcu),
      (∀ y x, ∀ mcu ∈ round y x, mcu.Written (src.pixfmt ≠ .grayscale)) →
      ∀ mcu ∈ Stride.strides stepY src.h positiveY (mcuRow src stepX positiveX round) 0, mcu.Written (src.pixfmt ≠ .grayscale) := by
    intro stepX stepY positiveX positiveY round written mcu member
    obtain ⟨row, -, there⟩ := Stride.mem_strides.mp member
    obtain ⟨column, -, here⟩ := Stride.mem_strides.mp there
    exact written _ _ mcu here
  unfold allBlocks encode
  cases chosen with
  | auto => exact fun mcu member => absurd member List.not_mem_nil
  | s444 =>
    dsimp only
    rw [Stride.stridesUntil_never]
    exact rounds _ _ _ _ _ fun y x mcu member => List.mem_singleton.mp member ▸ jpegGetMcu_written format _ _ _ _
  | s422 =>
    dsimp only
    rw [Stride.stridesUntil_never]
    refine rounds _ _ _ _ _ fun y x mcu member => ?_
    rcases List.mem_cons.mp member with rfl | second
    · exact halves _ _ _
    · exact List.mem_singleton.mp second ▸ halves _ _ _
  | s420 =>
    dsimp only
    rw [Stride.stridesUntil_never]
    refine rounds _ _ _ _ _ fun y x mcu member => ?_
    simp only [mcu420, List.mem_cons, List.not_mem_nil, or_false] at member
    rcases member with rfl | rfl | rfl | rfl <;> exact quarters _ _

theorem allBlocks_written_twenty : (allBlocks twenty .s422).Forall fun mcu => mcu.Written true :=
  List.forall_iff_forall_mem.mpr (allBlocks_written (by decide) .s422)

end ArduinoK210.Jpeg
