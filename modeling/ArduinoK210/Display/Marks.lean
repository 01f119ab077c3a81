import ArduinoK210.Display.Refresh

/-! What the panel shows after a block of pixels: the marks that a block leaves, and the
cells under them. -/

namespace ArduinoK210.Display
open Tft Dma

abbrev Mark := Nat × Nat × UInt16

def paint (marks : List Mark) (cells : Nat → Nat → UInt16) : Nat → Nat → UInt16 :=
  marks.foldl (fun cells mark => Function.update cells mark.1 (Function.update (cells mark.1) mark.2.1 mark.2.2)) cells

def Mark.At (mark : Mark) (x y : Nat) : Prop := mark.1 = x ∧ mark.2.1 = y

private theorem paint_cons (mark : Mark) (marks : List Mark) (cells : Nat → Nat → UInt16) :
    paint (mark :: marks) cells =
      paint marks (Function.update cells mark.1 (Function.update (cells mark.1) mark.2.1 mark.2.2)) := rfl

private theorem paint_append (first second : List Mark) (cells : Nat → Nat → UInt16) :
    paint (first ++ second) cells = paint second (paint first cells) :=
  List.foldl_append

theorem paint_miss {marks : List Mark} {x y : Nat} (missed : ∀ mark ∈ marks, ¬mark.At x y) (cells : Nat → Nat → UInt16) :
    paint marks cells x y = cells x y := by
  induction marks generalizing cells with
  | nil => rfl
  | cons mark marks ih =>
    rw [paint_cons, ih fun other member => missed other (List.mem_cons_of_mem _ member)]
    have apart := missed mark List.mem_cons_self
    by_cases column : x = mark.1
    · subst column
      have row : y ≠ mark.2.1 := fun same => apart ⟨rfl, same.symm⟩
      rw [Function.update_self, Function.update_of_ne row]
    · rw [Function.update_of_ne column]

theorem paint_hit {marks : List Mark} {x y : Nat} {color : UInt16} (agree : ∀ mark ∈ marks, mark.At x y → mark.2.2 = color)
    (hit : ∃ mark ∈ marks, mark.At x y) (cells : Nat → Nat → UInt16) : paint marks cells x y = color := by
  induction marks generalizing cells with
  | nil =>
    obtain ⟨mark, impossible, _⟩ := hit
    cases impossible
  | cons mark marks ih =>
    rw [paint_cons]
    by_cases later : ∃ other ∈ marks, other.At x y
    · exact ih (fun other member => agree other (List.mem_cons_of_mem _ member)) later _
    · rw [paint_miss fun other member there => later ⟨other, member, there⟩]
      obtain ⟨found, member, there⟩ := hit
      obtain rfl | elsewhere := List.mem_cons.mp member
      · obtain ⟨rfl, rfl⟩ := there
        rw [Function.update_self, Function.update_self]
        exact agree found List.mem_cons_self ⟨rfl, rfl⟩
      · exact absurd ⟨found, elsewhere, there⟩ later

/-- The panel received `marks` and nothing else. -/
structure Paints (marks : List Mark) (before after : Panel) : Prop where
  written : after.written = before.written ++ marks
  cells : after.cells = paint marks before.cells

theorem Paints.nothing (panel : Panel) : Paints [] panel panel := ⟨(List.append_nil _).symm, rfl⟩

theorem Paints.trans {first second : List Mark} {one two three : Panel} (here : Paints first one two)
    (there : Paints second two three) : Paints (first ++ second) one three := by
  refine ⟨?_, ?_⟩
  · rw [there.written, here.written, List.append_assoc]
  · rw [there.cells, here.cells, paint_append]

theorem Paints.since {marks : List Mark} {before after : Panel} (paints : Paints marks before after) :
    after.written.drop before.written.length = marks := by
  rw [paints.written, List.drop_left]

private theorem receive_area (x1 y1 x2 y2 : Int) (panel : Panel) :
    panel.receiveAll (areaTraffic x1 y1 x2 y2) =
      { panel with
        command := memoryWrite
        params := []
        columns := Panel.addressPair (highByte x1) (lowByte x1) (highByte x2) (lowByte x2)
        rows := Panel.addressPair (highByte y1) (lowByte y1) (highByte y2) (lowByte y2)
        cursor := 0 } := by
  have other : verticalAddressSet ≠ horizontalAddressSet := by decide
  simp [areaTraffic, Panel.receiveAll, Panel.receive, Panel.onCommand, Panel.onParameter, other]

/-- The marks of a block of `count` pixels in a window. -/
def blockMarks (columns rows : Nat × Nat) (count : Nat) (pixel : Nat → UInt16) : List Mark :=
  (List.range count).map fun k => ((place columns rows k).1, (place columns rows k).2, pixel k)

private theorem receive_pixels (panel : Panel) (writing : panel.command = memoryWrite) (start : panel.cursor = 0) (count : Nat)
    (pixel : Nat → UInt16) :
    ((List.range count).map pixel).foldl (fun panel color => panel.onPixel color) panel =
      { panel with
        cursor := count
        cells := paint (blockMarks panel.columns panel.rows count pixel) panel.cells
        written := panel.written ++ blockMarks panel.columns panel.rows count pixel } := by
  induction count with
  | zero =>
    cases panel
    cases start
    simp [blockMarks, paint]
  | succ count ih =>
    have marks : blockMarks panel.columns panel.rows (count + 1) pixel = blockMarks panel.columns panel.rows count pixel ++
        [((place panel.columns panel.rows count).1, (place panel.columns panel.rows count).2, pixel count)] := by
      simp [blockMarks, List.range_succ]
    rw [List.range_succ, List.map_append, List.foldl_append, ih, marks, paint_append, ← List.append_assoc]
    simp [Panel.onPixel, writing, paint]

theorem block_paints (x1 y1 x2 y2 : Int) {words : List UInt32} {count : Nat} {pixel : Nat → UInt16}
    (carried : pixelsOf .word words = (List.range count).map pixel) (panel : Panel) :
    Paints (blockMarks (Panel.addressPair (highByte x1) (lowByte x1) (highByte x2) (lowByte x2))
      (Panel.addressPair (highByte y1) (lowByte y1) (highByte y2) (lowByte y2)) count pixel) panel
      (panel.receiveAll (areaTraffic x1 y1 x2 y2 ++ [(.word, words)])) := by
  have whole : panel.receiveAll (areaTraffic x1 y1 x2 y2 ++ [(.word, words)]) =
      (pixelsOf .word words).foldl (fun panel color => panel.onPixel color) (panel.receiveAll (areaTraffic x1 y1 x2 y2)) := by
    rw [Panel.receiveAll, List.foldl_append]
    rfl
  rw [whole, carried, receive_area, receive_pixels _ rfl rfl]
  exact ⟨rfl, rfl⟩

private theorem address_toNat {value : Int} (low : 0 ≤ value) (high : value < 65536) :
    (highByte value).toNat * 256 + (lowByte value).toNat = value.toNat := by
  unfold highByte lowByte
  rw [UInt8.toNat_ofNat', UInt8.toNat_ofNat']
  omega

theorem addressPair_eq {first second : Int} (low : 0 ≤ first) (high : first < 65536) (low' : 0 ≤ second)
    (high' : second < 65536) : Panel.addressPair (highByte first) (lowByte first) (highByte second) (lowByte second) =
      (first.toNat, second.toNat) := by
  rw [Panel.addressPair, address_toNat low high, address_toNat low' high']

end ArduinoK210.Display
