import ArduinoK210.Display.Drawing
import ArduinoK210.Display.Marks

/-! What `endWrite` shows of the draws since `startWrite`. The full path sends every pixel;
the other one sends the whole tiles whose count is not zero, and so neither the pixels beyond
the last whole tile nor those of a tile that was hit a multiple of 256 times. -/

namespace ArduinoK210.Display
open Tft Dma Bus8080

namespace St7789v

structure Faithful (lcd : St7789v) (draws : List Draw) (frame : Nat → UInt16) (panel seen : Panel) : Prop where
  shown : ∀ x y color, lcd.InRange x y → lastColor draws x y = some color →
    seen.cells x.toInt.toNat y.toInt.toNat = color
  sent : ∀ mark ∈ seen.written.drop panel.written.length,
    mark.1 < lcd.width.toInt.toNat ∧ mark.2.1 < lcd.height.toInt.toNat ∧
      frame (mark.1 + mark.2.1 * lcd.width.toInt.toNat) = mark.2.2

/-- `startWrite`, the draws and `endWrite`, on any panel. -/
def Shows (lcd : St7789v) (draws : List Draw) : Prop :=
  ∃ fuel after, (drawAll draws lcd.startWrite).endWrite fuel = some after ∧ after.mapFault = false ∧
    ∀ panel : Panel, Faithful lcd draws (drawAll draws lcd.startWrite).frameBuffer panel
      (panel.receiveAll (trafficSince lcd.bus after.bus))

/-- The entries that are not zero after the draws: they count modulo 256. -/
def dirtyTiles (lcd : St7789v) (draws : List Draw) : Nat :=
  (List.range lcd.pixelMapSize).countP fun entry => hits lcd draws entry % 256 ≠ 0

/-- The draws make `endWrite` send the whole screen. -/
def Full (lcd : St7789v) (draws : List Draw) : Prop := asUInt32 (lcd.size.tdiv 2) ≤ dirtyTiles lcd draws

/-- A draw in a whole tile whose entry is not back at zero. -/
def Kept (lcd : St7789v) (draws : List Draw) (draw : Draw) : Prop :=
  draw.x.toInt.toNat / 8 < lcd.tileColumns ∧ draw.y.toInt.toNat / 8 < lcd.tileRows ∧
    hits lcd draws (lcd.entryOf draw.x draw.y) % 256 ≠ 0

variable {lcd after drawn : St7789v} {draws : List Draw} {fuel : Nat}

private theorem Drawn.fullScreen (drawn : Drawn lcd draws after) : after.FullScreen ↔ lcd.Full draws := by
  have size : after.pixelMapSize = lcd.pixelMapSize := by rw [drawn.rest]
  have count : after.dirtyCount = lcd.dirtyTiles draws := by
    rw [dirtyCount, dirtyTiles, size]
    apply List.countP_congr
    intro entry member
    rw [drawn.counts entry (List.mem_range.mp member), decide_eq_true_iff, decide_eq_true_iff, ne_eq, ne_eq,
      UInt8.ofNat_eq_iff_mod_eq_toNat]
    rfl
  rw [FullScreen, Full, count, drawn.width, drawn.height, St7789v.size]

private theorem touch_within {entry : Nat} (within : entry < lcd.pixelMapSize) : lcd.touch entry = lcd := by
  rw [touch, decide_eq_false (Nat.not_le.mpr within), Bool.or_false]

def tileTraffic (lcd : St7789v) (tile : Nat × Nat) : List (Kind × List UInt32) :=
  areaTraffic (tile.2 * 8 : Nat) (tile.1 * 8 : Nat) (tile.2 * 8 + 7 : Nat) (tile.1 * 8 + 7 : Nat) ++
    [(.word, (List.range 32).map (wordAt (swapFrom 0 32 (lcd.tilePixels tile.1 tile.2))))]

private theorem sendTile_comes_back (enough : 32 < fuel) (lcd : St7789v) (i j : Nat) :
    ∃ after, sendTile fuel i j lcd = some after := by
  obtain ⟨written, sent⟩ : ∃ written, writePixels fuel (lcd.tilePixels i j) (2 * 32)
      (setArea (j * 8 : Nat) (i * 8 : Nat) (j * 8 + 7 : Nat) (i * 8 + 7 : Nat) lcd.bus) = some written :=
    ⟨_, writePixels_even fuel 32 _ _ enough⟩
  refine ⟨{ lcd with bus := written.2 }, ?_⟩
  rw [sendTile, sent]

private theorem sendTile_some (wired : Wired lcd.bus) {i j : Nat} (returned : sendTile fuel i j lcd = some after) :
    Delivers (lcd.tileTraffic (i, j)) lcd.bus after.bus ∧ after = { lcd with bus := after.bus } := by
  rw [sendTile] at returned
  have framed := setArea_delivers wired (j * 8 : Nat) (i * 8 : Nat) (j * 8 + 7 : Nat) (i * 8 + 7 : Nat)
  split at returned
  · cases returned
  · next memory bus written =>
    obtain ⟨_, _, sent⟩ := writePixels_some written
    cases returned
    refine ⟨?_, rfl⟩
    have pixels := halTftWriteWord_delivers (framed.wired wired)
      ((List.range 32).map (wordAt (swapFrom 0 32 (lcd.tilePixels i j))))
    rw [← sent] at pixels
    exact framed.trans pixels

private theorem countP_clear {count entry : Nat} (inside : entry < count) {before after : Nat → Bool} (set : before entry = true)
    (clear : after entry = false) (others : ∀ other, other ≠ entry → before other = after other) :
    (List.range count).countP before = (List.range count).countP after + 1 := by
  induction count with
  | zero => omega
  | succ count ih =>
    rw [List.range_succ, List.countP_append, List.countP_append, List.countP_singleton, List.countP_singleton]
    by_cases last : entry = count
    · subst last
      have earlier : (List.range entry).countP before = (List.range entry).countP after := by
        apply List.countP_congr
        intro other member
        rw [others other (Nat.ne_of_lt (List.mem_range.mp member))]
      rw [earlier, set, clear]
      rfl
    · rw [ih (by omega), others count (Ne.symm last)]
      omega

/-- The display after a tile was sent. -/
def clear (entry : Nat) (bus : Bus) (lcd : St7789v) : St7789v :=
  { lcd with pixelMap := Function.update lcd.pixelMap entry 0, bus }

theorem dirtyCount_clear {entry : Nat} (within : entry < lcd.pixelMapSize) (dirty : lcd.pixelMap entry ≠ 0) (bus : Bus) :
    lcd.dirtyCount - 1 = (lcd.clear entry bus).dirtyCount := by
  have fewer : lcd.dirtyCount = (lcd.clear entry bus).dirtyCount + 1 := by
    apply countP_clear within (decide_eq_true dirty)
    · simp [clear]
    · intro other apart
      simp only [clear, Function.update_of_ne apart]
  omega

private theorem clean_of_dirtyCount {entry : Nat} (none : lcd.dirtyCount = 0) (within : entry < lcd.pixelMapSize) :
    lcd.pixelMap entry = 0 := by
  have clean := List.countP_eq_zero.mp none entry (List.mem_range.mpr within)
  simpa using clean

def tileEntry (lcd : St7789v) (tile : Nat × Nat) : Nat := tile.1 * lcd.tileColumns + tile.2

private theorem sendTiles_comes_back (enough : 32 < fuel) (tiles : List (Nat × Nat)) (dirty : Nat) (lcd : St7789v) :
    ∃ after, sendTiles fuel tiles dirty lcd = some after := by
  induction tiles generalizing dirty lcd with
  | nil => exact ⟨lcd, rfl⟩
  | cons tile tiles ih =>
    obtain ⟨i, j⟩ := tile
    rw [sendTiles]
    split
    · obtain ⟨sent, done⟩ := sendTile_comes_back enough { lcd.touch (i * lcd.tileColumns + j) with
        pixelMap := Function.update (lcd.touch (i * lcd.tileColumns + j)).pixelMap (i * lcd.tileColumns + j) 0 } i j
      rw [done]
      dsimp only
      split
      · exact ⟨sent, rfl⟩
      · exact ih _ _
    · split
      · exact ⟨_, rfl⟩
      · exact ih _ _

/-- The tile is sent and its entry cleared. -/
theorem sendTiles_dirty {i j : Nat} {tiles : List (Nat × Nat)} {dirty : Nat} (within : lcd.tileEntry (i, j) < lcd.pixelMapSize)
    (set : lcd.pixelMap (lcd.tileEntry (i, j)) ≠ 0) :
    sendTiles fuel ((i, j) :: tiles) dirty lcd =
      match sendTile fuel i j (lcd.clear (lcd.tileEntry (i, j)) lcd.bus) with
      | none => none
      | some lcd => if dirty - 1 = 0 then some lcd else sendTiles fuel tiles (dirty - 1) lcd := by
  have touched : lcd.touch (i * lcd.tileColumns + j) = lcd := touch_within within
  rw [sendTiles, touched]
  exact if_pos set

private theorem sendTiles_clean {i j : Nat} {tiles : List (Nat × Nat)} {dirty : Nat} (within : lcd.tileEntry (i, j) < lcd.pixelMapSize)
    (clear : lcd.pixelMap (lcd.tileEntry (i, j)) = 0) :
    sendTiles fuel ((i, j) :: tiles) dirty lcd = if dirty = 0 then some lcd else sendTiles fuel tiles dirty lcd := by
  have touched : lcd.touch (i * lcd.tileColumns + j) = lcd := touch_within within
  rw [sendTiles, touched]
  exact if_neg (not_not.mpr clear)

def dirtyOnes (lcd : St7789v) (tiles : List (Nat × Nat)) : List (Nat × Nat) :=
  tiles.filter fun tile => lcd.pixelMap (lcd.tileEntry tile) ≠ 0

private theorem dirtyOnes_none {tiles : List (Nat × Nat)} (within : ∀ tile ∈ tiles, lcd.tileEntry tile < lcd.pixelMapSize)
    (none : lcd.dirtyCount = 0) : lcd.dirtyOnes tiles = [] := by
  apply List.filter_eq_nil_iff.mpr
  intro tile member
  simpa using clean_of_dirtyCount none (within tile member)

theorem dirtyOnes_clear {tile : Nat × Nat} {tiles : List (Nat × Nat)} (apart : lcd.tileEntry tile ∉ tiles.map lcd.tileEntry)
    (bus : Bus) : (lcd.clear (lcd.tileEntry tile) bus).dirtyOnes tiles = lcd.dirtyOnes tiles := by
  apply List.filter_congr
  intro other member
  have different : lcd.tileEntry other ≠ lcd.tileEntry tile := by
    intro same
    exact apart (same ▸ List.mem_map_of_mem member)
  have unchanged : Function.update lcd.pixelMap (lcd.tileEntry tile) 0 (lcd.tileEntry other) = lcd.pixelMap (lcd.tileEntry other) :=
    Function.update_of_ne different _ _
  rw [← unchanged]
  rfl

private theorem Delivers.nothing (bus : Bus) : Delivers [] bus bus :=
  ⟨rfl, fun _ => (List.append_nil _).symm, fun _ => rfl⟩

/-- The loops send the dirty tiles, however early they are left. -/
theorem sendTiles_some {tiles : List (Nat × Nat)} {dirty : Nat} (wired : Wired lcd.bus) (calm : lcd.mapFault = false)
    (apart : (tiles.map lcd.tileEntry).Nodup) (within : ∀ tile ∈ tiles, lcd.tileEntry tile < lcd.pixelMapSize)
    (counted : dirty = lcd.dirtyCount) (returned : sendTiles fuel tiles dirty lcd = some after) :
    Delivers ((lcd.dirtyOnes tiles).flatMap lcd.tileTraffic) lcd.bus after.bus ∧ after.mapFault = false := by
  induction tiles generalizing dirty lcd with
  | nil =>
    cases returned
    exact ⟨Delivers.nothing _, calm⟩
  | cons tile tiles ih =>
    obtain ⟨i, j⟩ := tile
    obtain ⟨here, apart⟩ := List.nodup_cons.mp apart
    have inside : lcd.tileEntry (i, j) < lcd.pixelMapSize := within _ List.mem_cons_self
    have others : ∀ tile ∈ tiles, lcd.tileEntry tile < lcd.pixelMapSize := fun tile member => within tile (List.mem_cons_of_mem _ member)
    by_cases set : lcd.pixelMap (lcd.tileEntry (i, j)) ≠ 0
    · rw [sendTiles_dirty inside set] at returned
      have first : lcd.dirtyOnes ((i, j) :: tiles) = (i, j) :: lcd.dirtyOnes tiles :=
        List.filter_cons_of_pos (decide_eq_true set)
      rw [first, List.flatMap_cons]
      split at returned
      · cases returned
      · next sent done =>
        have ready : Wired (lcd.clear (lcd.tileEntry (i, j)) lcd.bus).bus := wired
        obtain ⟨delivers, made⟩ : Delivers (lcd.tileTraffic (i, j)) lcd.bus sent.bus ∧
            sent = lcd.clear (lcd.tileEntry (i, j)) sent.bus := sendTile_some ready done
        have fewer := dirtyCount_clear inside set sent.bus
        rw [← counted] at fewer
        have rest := dirtyOnes_clear here sent.bus
        rw [← made] at fewer rest
        split at returned
        · next last =>
          cases returned
          have nothing : lcd.dirtyOnes tiles = [] := by
            rw [← rest]
            apply dirtyOnes_none
            · rw [made]
              exact others
            · exact fewer.symm.trans last
          rw [nothing, List.flatMap_nil, List.append_nil, made]
          exact ⟨delivers, calm⟩
        · have later := ih (delivers.wired wired) (by rw [made]; exact calm) (by rw [made]; exact apart)
            (by rw [made]; exact others) fewer returned
          rw [rest] at later
          refine ⟨delivers.trans ?_, later.2⟩
          have same : sent.tileTraffic = lcd.tileTraffic := by
            rw [made]
            rfl
          rw [← same]
          exact later.1
    · have clear := not_not.mp set
      have first : lcd.dirtyOnes ((i, j) :: tiles) = lcd.dirtyOnes tiles :=
        List.filter_cons_of_neg (by simpa using clear)
      rw [sendTiles_clean inside clear] at returned
      rw [first]
      split at returned
      · next none =>
        cases returned
        rw [dirtyOnes_none others (counted.symm.trans none), List.flatMap_nil]
        exact ⟨Delivers.nothing _, calm⟩
      · exact ih wired calm apart others counted returned

/-- Marks on the screen that have the framebuffer's colours. -/
def Honest (lcd : St7789v) (frame : Nat → UInt16) (marks : List Mark) : Prop :=
  ∀ mark ∈ marks, mark.1 < lcd.width.toInt.toNat ∧ mark.2.1 < lcd.height.toInt.toNat ∧
    frame (mark.1 + mark.2.1 * lcd.width.toInt.toNat) = mark.2.2

/-- Whatever the panel showed before, it is right exactly when every pixel drawn has a mark. -/
theorem faithful_iff (left : Drawn lcd draws drawn) {marks : List Mark} (honest : lcd.Honest drawn.frameBuffer marks)
    {sent : List (Kind × List UInt32)} (paints : ∀ panel : Panel, Paints marks panel (panel.receiveAll sent)) :
    (∀ panel : Panel, Faithful lcd draws drawn.frameBuffer panel (panel.receiveAll sent)) ↔
      ∀ draw ∈ draws, lcd.InRange draw.x draw.y → ∃ mark ∈ marks, mark.At draw.x.toInt.toNat draw.y.toInt.toNat := by
  refine ⟨fun faithful draw member inside => ?_, fun marked panel => ⟨fun x y color inside last => ?_, ?_⟩⟩
  · by_contra unmarked
    obtain ⟨color, last⟩ := lastColor_some ⟨draw, member, rfl, rfl⟩
    let other : Panel := ⟨0, [], (0, 0), (0, 0), 0, fun _ _ => color + 1, []⟩
    have shown := (faithful other).shown draw.x draw.y color inside last
    rw [(paints other).cells, paint_miss fun mark found there => unmarked ⟨mark, found, there⟩] at shown
    have value : (color + 1).toNat = color.toNat := congrArg UInt16.toNat shown
    have small := color.toNat_lt
    rw [UInt16.toNat_add] at value
    have one : (1 : UInt16).toNat = 1 := rfl
    rw [one] at value
    omega
  · rw [(paints panel).cells]
    obtain ⟨draw, member, rfl, rfl⟩ := lastColor_drawn last
    apply paint_hit
    · rintro mark found ⟨column, row⟩
      obtain ⟨_, _, honest⟩ := honest mark found
      rw [column, row, ← inside.cell, left.cells _ _ _ inside last] at honest
      exact honest.symm
    · exact marked draw member inside
  · rw [(paints panel).since]
    exact honest

def tileMarks (lcd : St7789v) (tile : Nat × Nat) : List Mark :=
  (List.range 64).map fun k => (tile.2 * 8 + k % 8, tile.1 * 8 + k / 8, lcd.tilePixels tile.1 tile.2 k)

private theorem tileColumns_le (lcd : St7789v) : lcd.tileColumns * 8 ≤ lcd.width.toInt.toNat ∧ lcd.tileColumns < 4096 := by
  have bound := lcd.width.toInt_lt
  rw [tileColumns_eq]
  omega

private theorem tileRows_le (lcd : St7789v) : lcd.tileRows * 8 ≤ lcd.height.toInt.toNat ∧ lcd.tileRows < 4096 := by
  have bound := lcd.height.toInt_lt
  rw [tileRows_eq]
  omega

private theorem mem_tiles {tile : Nat × Nat} : tile ∈ lcd.tiles ↔ tile.1 < lcd.tileRows ∧ tile.2 < lcd.tileColumns := by
  obtain ⟨i, j⟩ := tile
  simp [tiles]

private theorem tiles_entries (lcd : St7789v) : lcd.tiles.map lcd.tileEntry = List.range (lcd.tileRows * lcd.tileColumns) := by
  have grid : ∀ rows, ((List.range rows).flatMap fun i => (List.range lcd.tileColumns).map fun j => (i, j)).map lcd.tileEntry =
      List.range (rows * lcd.tileColumns) := by
    intro rows
    induction rows with
    | zero => simp
    | succ rows ih =>
      rw [List.range_succ, List.flatMap_append, List.map_append, ih, Nat.succ_mul, List.range_add]
      simp [tileEntry, Function.comp_def]
  exact grid lcd.tileRows

private theorem Owned.tiles_within (owned : Owned lcd) : ∀ tile ∈ lcd.tiles, lcd.tileEntry tile < lcd.pixelMapSize := by
  intro tile member
  obtain ⟨row, column⟩ := mem_tiles.mp member
  have columns := lcd.tileColumns_le.1
  have rows := lcd.tileRows_le.1
  rw [owned.size (by omega) (by omega)]
  have row' : tile.1 < (lcd.height.toInt.toNat + 7) / 8 := by omega
  have column' : tile.2 < (lcd.width.toInt.toNat + 7) / 8 := by omega
  exact grid_lt row' column' (by omega) rfl

private theorem tile_paints {tile : Nat × Nat} (member : tile ∈ lcd.tiles) (panel : Panel) :
    Paints (lcd.tileMarks tile) panel (panel.receiveAll (lcd.tileTraffic tile)) := by
  obtain ⟨row, column⟩ := mem_tiles.mp member
  have columns := lcd.tileColumns_le.2
  have rows := lcd.tileRows_le.2
  have block := block_paints (tile.2 * 8 : Nat) (tile.1 * 8 : Nat) (tile.2 * 8 + 7 : Nat) (tile.1 * 8 + 7 : Nat)
    (pixelsOf_swapped 32 (lcd.tilePixels tile.1 tile.2)) panel
  rw [addressPair_eq (by omega) (by omega) (by omega) (by omega), addressPair_eq (by omega) (by omega) (by omega) (by omega)]
    at block
  have marks : blockMarks ((tile.2 * 8 : Nat), tile.2 * 8 + 7) ((tile.1 * 8 : Nat), tile.1 * 8 + 7) (2 * 32)
      (lcd.tilePixels tile.1 tile.2) = lcd.tileMarks tile := by
    apply List.map_congr_left
    intro k member
    have small : k < 64 := List.mem_range.mp member
    have wide : tile.2 * 8 + 7 + 1 - tile.2 * 8 = 8 := by omega
    have high : tile.1 * 8 + 7 + 1 - tile.1 * 8 = 8 := by omega
    have line : k / 8 % 8 = k / 8 := by omega
    simp only [place, wide, high, line]
  rw [← marks]
  exact block

private theorem tiles_paint {tiles : List (Nat × Nat)} (members : ∀ tile ∈ tiles, tile ∈ lcd.tiles) (panel : Panel) :
    Paints (tiles.flatMap lcd.tileMarks) panel (panel.receiveAll (tiles.flatMap lcd.tileTraffic)) := by
  induction tiles generalizing panel with
  | nil => exact Paints.nothing panel
  | cons tile tiles ih =>
    rw [List.flatMap_cons, List.flatMap_cons, Panel.receiveAll, List.foldl_append]
    apply (tile_paints (members tile List.mem_cons_self) panel).trans
    exact ih (fun other member => members other (List.mem_cons_of_mem _ member)) _

private theorem tileMarks_honest {tile : Nat × Nat} (member : tile ∈ lcd.tiles) : lcd.Honest lcd.frameBuffer (lcd.tileMarks tile) := by
  obtain ⟨row, column⟩ := mem_tiles.mp member
  have columns := lcd.tileColumns_le.1
  have rows := lcd.tileRows_le.1
  intro mark found
  obtain ⟨k, inside, rfl⟩ := List.mem_map.mp found
  have small : k < 64 := List.mem_range.mp inside
  refine ⟨by dsimp only; omega, by dsimp only; omega, ?_⟩
  rw [tilePixels, Nat.add_comm]

private theorem tileMarks_at {i j x y : Nat} : (∃ mark ∈ lcd.tileMarks (i, j), mark.At x y) ↔ x / 8 = j ∧ y / 8 = i := by
  refine ⟨?_, fun ⟨column, row⟩ => ?_⟩
  · rintro ⟨mark, found, rfl, rfl⟩
    obtain ⟨k, inside, rfl⟩ := List.mem_map.mp found
    have small : k < 64 := List.mem_range.mp inside
    dsimp only
    omega
  · refine ⟨_, List.mem_map.mpr ⟨y % 8 * 8 + x % 8, List.mem_range.mpr (by omega), rfl⟩, ?_, ?_⟩
    · dsimp only
      omega
    · dsimp only
      omega

def screenMarks (lcd : St7789v) (count : Nat) : List Mark :=
  (List.range count).map fun k => (k % lcd.width.toInt.toNat, k / lcd.width.toInt.toNat, lcd.frameBuffer k)

private theorem area_sides (wide : 0 < lcd.width.toInt) (high : 0 < lcd.height.toInt) :
    lcd.area = lcd.width.toInt.toNat * lcd.height.toInt.toNat := by
  have area := area_eq (Int.mul_nonneg (by omega) (by omega) : 0 ≤ lcd.size)
  rw [St7789v.size, ← Int.toNat_of_nonneg (by omega : 0 ≤ lcd.width.toInt), ← Int.toNat_of_nonneg (by omega : 0 ≤ lcd.height.toInt)]
    at area
  exact_mod_cast area

private theorem screen_paints (wide : 0 < lcd.width.toInt) (high : 0 < lcd.height.toInt) (even : lcd.area % 2 = 0) (panel : Panel) :
    Paints (lcd.screenMarks lcd.area) panel (panel.receiveAll lcd.screenTraffic) := by
  have right := lcd.width.toInt_lt
  have bottom := lcd.height.toInt_lt
  have carried := pixelsOf_swapped (lcd.area / 2) lcd.frameBuffer
  rw [Nat.mul_div_cancel' (Nat.dvd_of_mod_eq_zero even)] at carried
  have block := block_paints 0 0 (lcd.width.toInt - 1) (lcd.height.toInt - 1) carried panel
  rw [addressPair_eq (by omega) (by omega) (by omega) (by omega), addressPair_eq (by omega) (by omega) (by omega) (by omega)]
    at block
  have size := area_sides wide high
  have marks : blockMarks ((0 : Int).toNat, (lcd.width.toInt - 1).toNat) ((0 : Int).toNat, (lcd.height.toInt - 1).toNat)
      lcd.area lcd.frameBuffer = lcd.screenMarks lcd.area := by
    apply List.map_congr_left
    intro k member
    have inside := List.mem_range.mp member
    rw [size] at inside
    have columns : (lcd.width.toInt - 1).toNat + 1 - 0 = lcd.width.toInt.toNat := by omega
    have rows : (lcd.height.toInt - 1).toNat + 1 - 0 = lcd.height.toInt.toNat := by omega
    have line : k / lcd.width.toInt.toNat % lcd.height.toInt.toNat = k / lcd.width.toInt.toNat :=
      Nat.mod_eq_of_lt (Nat.div_lt_of_lt_mul inside)
    simp only [place, Int.toNat_zero, columns, rows, line, Nat.zero_add]
  rw [← marks]
  exact block

private theorem Drawn.noDraws (flat : ¬(0 < lcd.width.toInt ∧ 0 < lcd.height.toInt)) : lcd.dirtyTiles draws = 0 := by
  have none : ∀ x y, ¬lcd.InRange x y := by
    rintro x y ⟨left, top, right, bottom⟩
    omega
  rw [dirtyTiles, List.countP_eq_zero]
  intro entry _
  simp [hits, none]

theorem Full.sides (full : lcd.Full draws) (even : lcd.size % 2 = 0) (some : lcd.size ≠ 0) :
    0 < lcd.width.toInt ∧ 0 < lcd.height.toInt := by
  by_contra flat
  have bounds := lcd.size_bounds
  rw [Full, Drawn.noDraws flat, asUInt32] at full
  have half : lcd.size.tdiv 2 * 2 = lcd.size := Int.tdiv_mul_cancel (Int.dvd_of_emod_eq_zero even)
  omega

private theorem screenMarks_honest (wide : 0 < lcd.width.toInt) :
    lcd.Honest lcd.frameBuffer (lcd.screenMarks (lcd.width.toInt.toNat * lcd.height.toInt.toNat)) := by
  intro mark found
  obtain ⟨k, member, rfl⟩ := List.mem_map.mp found
  have inside := List.mem_range.mp member
  refine ⟨Nat.mod_lt _ (by omega), Nat.div_lt_of_lt_mul inside, ?_⟩
  dsimp only
  rw [Nat.mul_comm, Nat.mod_add_div]

private theorem screenMarks_at {x y : Int16} (inside : lcd.InRange x y) :
    ∃ mark ∈ lcd.screenMarks (lcd.width.toInt.toNat * lcd.height.toInt.toNat), mark.At x.toInt.toNat y.toInt.toNat := by
  obtain ⟨column, row⟩ := inside.nat
  have below : (y.toInt.toNat + 1) * lcd.width.toInt.toNat ≤ lcd.height.toInt.toNat * lcd.width.toInt.toNat :=
    Nat.mul_le_mul_right _ row
  rw [Nat.succ_mul, Nat.mul_comm lcd.height.toInt.toNat] at below
  refine ⟨_, List.mem_map.mpr ⟨x.toInt.toNat + y.toInt.toNat * lcd.width.toInt.toNat, List.mem_range.mpr (by omega), rfl⟩, ?_, ?_⟩
  · dsimp only
    rw [Nat.add_mul_mod_self_right, Nat.mod_eq_of_lt column]
  · dsimp only
    rw [Nat.add_mul_div_right _ _ (by omega), Nat.div_eq_of_lt column, Nat.zero_add]

private theorem Drawn.honest (left : Drawn lcd draws drawn) {frame : Nat → UInt16} {marks : List Mark}
    (honest : drawn.Honest frame marks) : lcd.Honest frame marks := by
  rw [Honest, ← left.width, ← left.height]
  exact honest

/-- A draw has a mark among those of the dirty tiles when its tile is whole and dirty. -/
theorem Drawn.marked_iff (left : Drawn lcd draws drawn) (owned : Owned lcd) {draw : Draw} (inside : lcd.InRange draw.x draw.y) :
    (∃ mark ∈ (drawn.dirtyOnes drawn.tiles).flatMap drawn.tileMarks, mark.At draw.x.toInt.toNat draw.y.toInt.toNat) ↔
      lcd.Kept draws draw := by
  have columns : drawn.tileColumns = lcd.tileColumns := by rw [tileColumns, tileColumns, left.width]
  have rows : drawn.tileRows = lcd.tileRows := by rw [tileRows, tileRows, left.height]
  have entry : drawn.tileEntry (draw.y.toInt.toNat / 8, draw.x.toInt.toNat / 8) = lcd.entryOf draw.x draw.y := by
    rw [inside.entry, tileEntry, columns]
  have dirty : drawn.pixelMap (lcd.entryOf draw.x draw.y) ≠ 0 ↔ hits lcd draws (lcd.entryOf draw.x draw.y) % 256 ≠ 0 := by
    rw [left.counts _ (owned.entry_lt inside), ne_eq, ne_eq, UInt8.ofNat_eq_iff_mod_eq_toNat]
    exact Iff.rfl
  refine ⟨?_, fun ⟨column, row, kept⟩ => ?_⟩
  · rintro ⟨mark, found, there⟩
    obtain ⟨⟨i, j⟩, chosen, member⟩ := List.mem_flatMap.mp found
    obtain ⟨rfl, rfl⟩ := tileMarks_at.mp ⟨mark, member, there⟩
    obtain ⟨tile, set⟩ := List.mem_filter.mp chosen
    obtain ⟨row, column⟩ := mem_tiles.mp tile
    rw [decide_eq_true_iff, entry, dirty] at set
    exact ⟨columns ▸ column, rows ▸ row, set⟩
  · obtain ⟨mark, member, there⟩ := (@tileMarks_at drawn (draw.y.toInt.toNat / 8) (draw.x.toInt.toNat / 8)
      draw.x.toInt.toNat draw.y.toInt.toNat).mpr ⟨rfl, rfl⟩
    refine ⟨mark, List.mem_flatMap.mpr ⟨_, List.mem_filter.mpr ⟨?_, ?_⟩, member⟩, there⟩
    · exact mem_tiles.mpr ⟨rows ▸ row, columns ▸ column⟩
    · rw [decide_eq_true_iff, entry, dirty]
      exact kept

/-- What the draws have to be for `endWrite` to show them: a full flush has an even number of pixels, and where there is
something to show a channel is free and the flush is full or every draw is kept. -/
def Served (lcd : St7789v) (draws : List Draw) : Prop :=
  (lcd.Full draws → lcd.size % 2 = 0) ∧
    ((∃ draw ∈ draws, lcd.InRange draw.x draw.y) →
      Granted lcd.bus.dma ∧ (lcd.Full draws ∨ ∀ draw ∈ draws, lcd.InRange draw.x draw.y → lcd.Kept draws draw))

private theorem honest_nil (lcd : St7789v) (frame : Nat → UInt16) : lcd.Honest frame [] := by
  intro mark impossible
  cases impossible

/-- Without a channel the panel gets nothing. -/
theorem Drawn.lost (left : Drawn lcd draws drawn) :
    (∀ panel : Panel, Faithful lcd draws drawn.frameBuffer panel (panel.receiveAll [])) ↔
      ∀ draw ∈ draws, ¬lcd.InRange draw.x draw.y := by
  have paints : ∀ panel : Panel, Paints [] panel (panel.receiveAll []) := Paints.nothing
  rw [faithful_iff left (honest_nil lcd _) paints]
  simp

private theorem Drawn.bus (left : Drawn lcd draws drawn) : drawn.bus = lcd.bus := by
  rw [left.rest]

private theorem Drawn.size (left : Drawn lcd draws drawn) : drawn.size = lcd.size := by
  rw [St7789v.size, St7789v.size, left.width, left.height]

private theorem served_lost (refused : ¬Granted lcd.bus.dma) (even : lcd.Full draws → lcd.size % 2 = 0) :
    lcd.Served draws ↔ ∀ draw ∈ draws, ¬lcd.InRange draw.x draw.y := by
  refine ⟨fun served draw member inside => ?_, fun none => ⟨even, fun ⟨draw, member, inside⟩ => ?_⟩⟩
  · exact refused (served.2 ⟨draw, member, inside⟩).1
  · exact absurd inside (none draw member)

/-- The full path, when it comes back, shows everything. -/
theorem Drawn.full (left : Drawn lcd draws drawn) (full : lcd.Full draws) (even : lcd.size % 2 = 0) :
    ∀ panel : Panel, Faithful lcd draws drawn.frameBuffer panel (panel.receiveAll drawn.screenTraffic) := by
  have even' : drawn.area % 2 = 0 := by
    rw [area_even, left.size]
    exact even
  by_cases nothing : lcd.size = 0
  · have none : drawn.area = 0 := by
      have area := @area_eq drawn (by rw [left.size, nothing])
      rw [left.size, nothing] at area
      omega
    have carried := pixelsOf_swapped (drawn.area / 2) drawn.frameBuffer
    rw [Nat.mul_div_cancel' (Nat.dvd_of_mod_eq_zero even')] at carried
    have blank := block_paints 0 0 (drawn.width.toInt - 1) (drawn.height.toInt - 1) carried
    have empty : ∀ columns rows, blockMarks columns rows drawn.area drawn.frameBuffer = [] := by
      intro columns rows
      rw [none]
      rfl
    have paints : ∀ panel : Panel, Paints [] panel (panel.receiveAll drawn.screenTraffic) := by
      intro panel
      have painted := blank panel
      rw [empty] at painted
      exact painted
    apply (faithful_iff left (honest_nil lcd _) paints).mpr
    rintro draw _ ⟨left, top, right, bottom⟩
    obtain flat | flat := Int.mul_eq_zero.mp nothing <;> omega
  · obtain ⟨wide, high⟩ := full.sides even nothing
    rw [← left.width] at wide
    rw [← left.height] at high
    have paints := screen_paints wide high even'
    rw [area_sides wide high] at paints
    apply (faithful_iff left (left.honest (screenMarks_honest wide)) paints).mpr
    intro draw _ inside
    exact screenMarks_at (left.inRange.mpr inside)

/-- The tiles, on the other path, show the draws that are kept. -/
theorem Drawn.tiled (left : Drawn lcd draws drawn) (owned : Owned lcd) :
    (∀ panel : Panel, Faithful lcd draws drawn.frameBuffer panel
      (panel.receiveAll ((drawn.dirtyOnes drawn.tiles).flatMap drawn.tileTraffic))) ↔
      ∀ draw ∈ draws, lcd.InRange draw.x draw.y → lcd.Kept draws draw := by
  have members : ∀ tile ∈ drawn.dirtyOnes drawn.tiles, tile ∈ drawn.tiles := fun tile chosen => (List.mem_filter.mp chosen).1
  have honest : drawn.Honest drawn.frameBuffer ((drawn.dirtyOnes drawn.tiles).flatMap drawn.tileMarks) := by
    intro mark found
    obtain ⟨tile, chosen, member⟩ := List.mem_flatMap.mp found
    exact tileMarks_honest (members tile chosen) mark member
  rw [faithful_iff left (left.honest honest) (tiles_paint members)]
  apply forall_congr'
  intro draw
  apply forall_congr'
  intro _
  apply forall_congr'
  intro inside
  exact left.marked_iff owned inside

/-- Either path, with the traffic that it puts on the bus. -/
def Path (lcd : St7789v) (bus : Bus) : Prop :=
  (lcd.FullScreen → lcd.size % 2 = 0 ∧ Delivers lcd.screenTraffic lcd.bus bus) ∧
    (¬lcd.FullScreen → Delivers ((lcd.dirtyOnes lcd.tiles).flatMap lcd.tileTraffic) lcd.bus bus)

/-- What a call that came back put on the bus. -/
theorem Owned.endWrite_some (owned : Owned lcd) (returned : lcd.endWrite fuel = some after) :
    after.mapFault = false ∧ lcd.Path after.bus := by
  rw [endWrite, if_neg (by simp [owned.own])] at returned
  split at returned
  · next full =>
    obtain ⟨even, delivers, made⟩ := refresh_some owned.wired returned
    refine ⟨?_, fun _ => ⟨area_even.mp even, delivers⟩, fun tiled => absurd full tiled⟩
    rw [made]
    exact owned.calm
  · next tiled =>
    have apart : (lcd.tiles.map lcd.tileEntry).Nodup := by
      rw [tiles_entries]
      exact List.nodup_range
    obtain ⟨delivers, calm⟩ := sendTiles_some owned.wired owned.calm apart owned.tiles_within rfl returned
    exact ⟨calm, fun full => absurd full tiled, fun _ => delivers⟩

private theorem Owned.endWrite_comes_back (owned : Owned lcd) (even : lcd.FullScreen → lcd.size % 2 = 0) :
    ∃ fuel after, lcd.endWrite fuel = some after := by
  by_cases full : lcd.FullScreen
  · obtain ⟨fuel, after, returned⟩ := lcd.refresh_comes_back (area_even.mpr (even full))
    refine ⟨fuel, after, ?_⟩
    rw [endWrite, if_neg (by simp [owned.own]), if_pos full, returned]
  · obtain ⟨after, returned⟩ := sendTiles_comes_back (Nat.lt_add_one 32) lcd.tiles lcd.dirtyCount lcd
    refine ⟨32 + 1, after, ?_⟩
    rw [endWrite, if_neg (by simp [owned.own]), if_neg full, returned]

private theorem Drawn.path_iff (left : Drawn lcd draws drawn) (owned : Owned lcd) {bus : Bus} (path : drawn.Path bus) :
    (∀ panel : Panel, Faithful lcd draws drawn.frameBuffer panel (panel.receiveAll (trafficSince lcd.bus bus))) ↔
      lcd.Served draws := by
  obtain ⟨whole, tiles⟩ := path
  rw [left.bus, left.size] at whole
  rw [left.bus] at tiles
  have even : lcd.Full draws → lcd.size % 2 = 0 := fun full => (whole (left.fullScreen.mpr full)).1
  by_cases granted : Granted lcd.bus.dma
  · by_cases full : drawn.FullScreen
    · have path := left.fullScreen.mp full
      rw [(whole full).2.since granted]
      exact ⟨fun _ => ⟨even, fun _ => ⟨granted, .inl path⟩⟩, fun _ => left.full path (even path)⟩
    · have path := mt left.fullScreen.mpr full
      rw [(tiles full).since granted, left.tiled owned]
      refine ⟨fun kept => ⟨even, fun _ => ⟨granted, .inr kept⟩⟩, fun served draw member inside => ?_⟩
      obtain ⟨_, taken | kept⟩ := served.2 ⟨draw, member, inside⟩
      · exact absurd taken path
      · exact kept draw member inside
  · have nothing : trafficSince lcd.bus bus = [] := by
      by_cases full : drawn.FullScreen
      · exact (whole full).2.since_lost granted
      · exact (tiles full).since_lost granted
    rw [nothing, left.lost, served_lost granted even]

private theorem Owned.served (owned : Owned lcd) (shows : lcd.Shows draws) : lcd.Served draws := by
  have left := owned.drawn draws
  obtain ⟨fuel, after, returned, _, faithful⟩ := shows
  exact (left.path_iff owned ((left.owned owned).endWrite_some returned).2).mp faithful

/-- Draws between `startWrite` and `endWrite` reach the panel exactly when they are served. -/
theorem draws_shown_iff (lcd : St7789v) (owned : Owned lcd) (draws : List Draw) : lcd.Shows draws ↔ lcd.Served draws := by
  refine ⟨owned.served, fun served => ?_⟩
  have left := owned.drawn draws
  have ready := left.owned owned
  have even : (drawAll draws lcd.startWrite).FullScreen → (drawAll draws lcd.startWrite).size % 2 = 0 := by
    rw [left.fullScreen, left.size]
    exact served.1
  obtain ⟨fuel, after, returned⟩ := ready.endWrite_comes_back even
  obtain ⟨calm, path⟩ := ready.endWrite_some returned
  exact ⟨fuel, after, returned, calm, (left.path_iff owned path).mpr served⟩

def coldPanel (w h : Int16) : St7789v := ⟨w, h, w, h, true, false, fun _ => 0, fun _ => 0, mapSize w h, false, coldBus⟩

theorem draws_shown_corner : (coldPanel 16 8).Shows [⟨3, 2, 5⟩] := by
  refine (draws_shown_iff (coldPanel 16 8) (owned_made 16 8 _ rfl) [⟨3, 2, 5⟩]).mpr ⟨fun _ => by decide, fun _ => ⟨by decide, .inr ?_⟩⟩
  intro draw member _
  cases List.mem_singleton.mp member
  exact ⟨by decide, by decide, by decide⟩

/-- A pixel in the last four columns of twelve is never sent. -/
theorem edge_pixel_lost : ¬(coldPanel 12 8).Shows [⟨8, 0, 5⟩] := by
  intro shows
  have owned : Owned (coldPanel 12 8) := owned_made 12 8 _ rfl
  obtain ⟨_, full | kept⟩ := (owned.served shows).2 ⟨_, List.mem_singleton.mpr rfl, by decide⟩
  · revert full
    unfold Full
    decide
  · have column := (kept _ (List.mem_singleton.mpr rfl) (by decide)).1
    revert column
    decide

end St7789v
end ArduinoK210.Display
