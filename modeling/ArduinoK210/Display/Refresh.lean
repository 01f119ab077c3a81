import ArduinoK210.Display.Panel
import Mathlib.Algebra.Order.Ring.Int
import Mathlib.Tactic.Linarith

/-! Sending the whole screen. The pixels go out in row-major order, but the pairs are swapped
in the framebuffer itself to get them there, and the loop that swaps them never meets the end
of a buffer of odd length. -/

namespace ArduinoK210.Display
open Tft Dma Bus8080

/-- The memory with `count` pairs from `img` on swapped. -/
def swapFrom (img count : Nat) (mem : Nat → UInt16) (a : Nat) : UInt16 :=
  if img ≤ a ∧ a < img + 2 * count then (if (a - img) % 2 = 0 then mem (a + 1) else mem (a - 1)) else mem a

private theorem swapFrom_zero (img : Nat) (mem : Nat → UInt16) : swapFrom img 0 mem = mem := by
  funext a
  exact if_neg (by omega)

private theorem swapFrom_succ (img count : Nat) (mem : Nat → UInt16) :
    swapFrom (img + 2) count (Function.update (Function.update mem img (mem (img + 1))) (img + 1) (mem img)) =
      swapFrom img (count + 1) mem := by
  funext a
  by_cases first : a = img
  · subst first
    simp [swapFrom]
  · by_cases second : a = img + 1
    · subst second
      have inside : img ≤ img + 1 ∧ img + 1 < img + 2 * (count + 1) := by omega
      simp [swapFrom, inside]
    · by_cases inside : img + 2 ≤ a ∧ a < img + 2 + 2 * count
      · have parity : (a - (img + 2)) % 2 = (a - img) % 2 := by omega
        have wider : img ≤ a ∧ a < img + 2 * (count + 1) := by omega
        rw [swapFrom, swapFrom, if_pos inside, if_pos wider, parity]
        split
        · rw [Function.update_of_ne (by omega), Function.update_of_ne (by omega)]
        · rw [Function.update_of_ne (by omega), Function.update_of_ne (by omega)]
      · have outside : ¬(img ≤ a ∧ a < img + 2 * (count + 1)) := by omega
        rw [swapFrom, swapFrom, if_neg inside, if_neg outside, Function.update_of_ne second, Function.update_of_ne first]

private theorem cvtU16ToU32_even (fuel img count : Nat) (mem : Nat → UInt16) :
    cvtU16ToU32 fuel img (img + 2 * count) mem = if count < fuel then some (swapFrom img count mem) else none := by
  induction fuel generalizing img count mem with
  | zero => rfl
  | succ fuel ih =>
    cases count with
    | zero => simp [cvtU16ToU32, swapFrom_zero]
    | succ count =>
      have step : img + 2 * (count + 1) = img + 2 + 2 * count := by omega
      rw [cvtU16ToU32, if_neg (by omega), step, ih, swapFrom_succ]
      simp

/-- The pointer steps over the end of a buffer of odd length. -/
theorem cvtU16ToU32_odd (fuel : Nat) {img fin : Nat} (odd : (img + fin) % 2 = 1) (mem : Nat → UInt16) :
    cvtU16ToU32 fuel img fin mem = none := by
  induction fuel generalizing img mem with
  | zero => rfl
  | succ fuel ih =>
    rw [cvtU16ToU32, if_neg (by omega)]
    exact ih (by omega) _

private theorem pair_toNat (a b : UInt16) : (a.toUInt32 ||| b.toUInt32 <<< 16).toNat = b.toNat * 65536 + a.toNat := by
  have small : a.toNat < 2 ^ 16 := a.toNat_lt
  have large : b.toNat < 2 ^ 16 := b.toNat_lt
  have amount : (16 : UInt32).toNat % 32 = 16 := rfl
  have fits : b.toNat <<< 16 < 2 ^ 32 := by
    rw [Nat.shiftLeft_eq]
    omega
  rw [UInt32.toNat_or, UInt32.toNat_shiftLeft, UInt16.toNat_toUInt32, UInt16.toNat_toUInt32, amount, Nat.mod_eq_of_lt fits,
    Nat.or_comm, ← Nat.shiftLeft_add_eq_or_of_lt small, Nat.shiftLeft_eq]

private theorem pair_high (a b : UInt16) : ((a.toUInt32 ||| b.toUInt32 <<< 16) >>> 16).toUInt16 = b := by
  apply UInt16.toNat.inj
  have small : a.toNat < 2 ^ 16 := a.toNat_lt
  have large : b.toNat < 2 ^ 16 := b.toNat_lt
  have amount : (16 : UInt32).toNat % 32 = 16 := rfl
  rw [UInt32.toNat_toUInt16, UInt32.toNat_shiftRight, pair_toNat, Nat.shiftRight_eq_div_pow, amount]
  omega

private theorem pair_low (a b : UInt16) : (a.toUInt32 ||| b.toUInt32 <<< 16).toUInt16 = a := by
  apply UInt16.toNat.inj
  have small : a.toNat < 2 ^ 16 := a.toNat_lt
  rw [UInt32.toNat_toUInt16, pair_toNat]
  omega

/-- The words of the swapped memory carry the pixels in the order of the memory before. -/
theorem pixelsOf_swapped (count : Nat) (mem : Nat → UInt16) :
    pixelsOf .word ((List.range count).map (wordAt (swapFrom 0 count mem))) = (List.range (2 * count)).map mem := by
  have word : ∀ k < count, wordAt (swapFrom 0 count mem) k = (mem (2 * k + 1)).toUInt32 ||| (mem (2 * k)).toUInt32 <<< 16 := by
    intro k inside
    have even : swapFrom 0 count mem (2 * k) = mem (2 * k + 1) := by
      rw [swapFrom, if_pos (by omega), if_pos (by omega)]
    have odd : swapFrom 0 count mem (2 * k + 1) = mem (2 * k) := by
      rw [swapFrom, if_pos (by omega), if_neg (by omega)]
      rfl
    rw [wordAt, even, odd]
  have words : (List.range count).map (wordAt (swapFrom 0 count mem)) =
      (List.range count).map fun k => (mem (2 * k + 1)).toUInt32 ||| (mem (2 * k)).toUInt32 <<< 16 := by
    apply List.map_congr_left
    intro k member
    exact word k (List.mem_range.mp member)
  rw [words, pixelsOf]
  clear word words
  induction count with
  | zero => rfl
  | succ count ih =>
    have two : 2 * (count + 1) = 2 * count + 1 + 1 := by omega
    rw [List.range_succ, List.map_append, List.flatMap_append, ih, two, List.range_succ, List.range_succ, List.map_append,
      List.map_append, List.append_assoc]
    simp only [List.map_cons, List.map_nil, List.flatMap_cons, List.flatMap_nil, pair_high, pair_low, List.append_nil,
      List.cons_append, List.nil_append]

/-- The bus call comes back from a buffer of even length only. -/
theorem writePixels_even (fuel count : Nat) (mem : Nat → UInt16) (bus : Bus) (enough : count < fuel) :
    writePixels fuel mem (2 * count) bus =
      some (swapFrom 0 count mem, bus.halTftWriteWord ((List.range count).map (wordAt (swapFrom 0 count mem)))) := by
  have cvt := cvtU16ToU32_even fuel 0 count mem
  rw [if_pos enough, Nat.zero_add] at cvt
  have half : 2 * count / 2 = count := by omega
  rw [writePixels, cvt, half]

private theorem writePixels_odd (fuel : Nat) {len : Nat} (odd : len % 2 = 1) (mem : Nat → UInt16) (bus : Bus) :
    writePixels fuel mem len bus = none := by
  rw [writePixels, cvtU16ToU32_odd fuel (by omega) mem]

theorem writePixels_some {fuel len : Nat} {mem after : Nat → UInt16} {bus sent : Bus}
    (returned : writePixels fuel mem len bus = some (after, sent)) :
    len % 2 = 0 ∧ after = swapFrom 0 (len / 2) mem ∧
      sent = bus.halTftWriteWord ((List.range (len / 2)).map (wordAt (swapFrom 0 (len / 2) mem))) := by
  obtain even | odd := Nat.mod_two_eq_zero_or_one len
  · have whole : len = 2 * (len / 2) := by omega
    have cvt := cvtU16ToU32_even fuel 0 (len / 2) mem
    rw [Nat.zero_add, ← whole] at cvt
    rw [writePixels, cvt] at returned
    split at returned
    · cases returned
    · next found =>
      split at found
      · cases found
        cases returned
        exact ⟨even, rfl, rfl⟩
      · cases found
  · rw [writePixels_odd fuel odd] at returned
    cases returned

theorem halTftWriteWord_delivers {bus : Bus} (wired : Wired bus) (words : List UInt32) :
    Delivers [(.word, words)] bus (bus.halTftWriteWord words) :=
  prepare_delivers wired .word words

namespace St7789v

variable {lcd after : St7789v}

def area (lcd : St7789v) : Nat := asUInt32 (lcd.width.toInt * lcd.height.toInt)

def screenTraffic (lcd : St7789v) : List (Kind × List UInt32) :=
  areaTraffic 0 0 (lcd.width.toInt - 1) (lcd.height.toInt - 1) ++
    [(.word, (List.range (lcd.area / 2)).map (wordAt (swapFrom 0 (lcd.area / 2) lcd.frameBuffer)))]

theorem refresh_comes_back (lcd : St7789v) (even : lcd.area % 2 = 0) : ∃ fuel after, lcd.refresh fuel = some after := by
  have whole : 2 * (lcd.area / 2) = lcd.area := Nat.mul_div_cancel' (Nat.dvd_of_mod_eq_zero even)
  have written := writePixels_even (lcd.area / 2 + 1) (lcd.area / 2) lcd.frameBuffer
    (setArea 0 0 (lcd.width.toInt - 1) (lcd.height.toInt - 1) lcd.bus) (Nat.lt_add_one _)
  rw [whole, area] at written
  refine ⟨lcd.area / 2 + 1, ?_⟩
  rw [refresh, area, written]
  exact ⟨_, rfl⟩

theorem refresh_some (wired : Wired lcd.bus) {fuel : Nat} (returned : lcd.refresh fuel = some after) :
    lcd.area % 2 = 0 ∧ Delivers lcd.screenTraffic lcd.bus after.bus ∧
      after = { lcd with frameBuffer := swapFrom 0 (lcd.area / 2) lcd.frameBuffer, bus := after.bus } := by
  rw [refresh, ← area] at returned
  have framed := setArea_delivers wired 0 0 (lcd.width.toInt - 1) (lcd.height.toInt - 1)
  split at returned
  · cases returned
  · next frameBuffer bus written =>
    obtain ⟨even, memory, sent⟩ := writePixels_some written
    cases returned
    refine ⟨even, ?_, ?_⟩
    · have pixels := halTftWriteWord_delivers (framed.wired wired)
        ((List.range (lcd.area / 2)).map (wordAt (swapFrom 0 (lcd.area / 2) lcd.frameBuffer)))
      rw [← sent] at pixels
      exact framed.trans pixels
    · rw [memory]

end St7789v

/-- The calls that send the whole screen: `endWrite` does so when most of the map is dirty. -/
inductive Flush where
  | refresh | endWrite
  deriving DecidableEq

def Flush.perform (fuel : Nat) : Flush → St7789v → Option St7789v
  | .refresh, lcd => lcd.refresh fuel
  | .endWrite, lcd => lcd.endWrite fuel

def sentPixels (before after : Bus) : List UInt16 :=
  (trafficSince before after).flatMap fun transfer => pixelsOf transfer.1 transfer.2

namespace St7789v

def size (lcd : St7789v) : Int := lcd.width.toInt * lcd.height.toInt

/-- As many pixels as the screen has, in row-major order. -/
def RowMajor (lcd : St7789v) (pixels : List UInt16) : Prop :=
  (pixels.length : Int) = lcd.size ∧ pixels = (List.range pixels.length).map lcd.frameBuffer

/-- One call after the other comes back, leaves the framebuffer as it is and sends it. -/
def Intact : List Flush → St7789v → Prop
  | [], _ => True
  | flush :: flushes, lcd =>
      ∃ fuel after, flush.perform fuel lcd = some after ∧
        (∀ i : Nat, (i : Int) < lcd.size → after.frameBuffer i = lcd.frameBuffer i) ∧
        lcd.RowMajor (sentPixels lcd.bus after.bus) ∧ Intact flushes after

/-- A screen that a swap of the pixels of each pair leaves as it is, and a channel to send it with. -/
structure Clean (lcd : St7789v) : Prop where
  shaped : 0 ≤ lcd.size
  even : lcd.size % 2 = 0
  paired : ∀ k : Nat, 2 * (k : Int) < lcd.size → lcd.frameBuffer (2 * k) = lcd.frameBuffer (2 * k + 1)
  granted : Granted lcd.bus.dma ∨ lcd.size = 0

variable {lcd after : St7789v} {fuel : Nat}

theorem size_bounds (lcd : St7789v) : -1073741824 ≤ lcd.size ∧ lcd.size ≤ 1073741824 := by
  have left := lcd.width.le_toInt
  have right := lcd.width.toInt_lt
  have low := lcd.height.le_toInt
  have high := lcd.height.toInt_lt
  unfold size
  constructor <;> nlinarith

theorem area_eq (shaped : 0 ≤ lcd.size) : (lcd.area : Int) = lcd.size := by
  have bound := lcd.size_bounds.2
  have unfolded : lcd.area = (lcd.size % 4294967296).toNat := rfl
  rw [unfolded]
  omega

theorem area_even : lcd.area % 2 = 0 ↔ lcd.size % 2 = 0 := by
  have unfolded : lcd.area = (lcd.size % 4294967296).toNat := rfl
  rw [unfolded]
  omega

private theorem sentPixels_screen (even : lcd.area % 2 = 0) (delivers : Delivers lcd.screenTraffic lcd.bus after.bus)
    (granted : Granted lcd.bus.dma) : sentPixels lcd.bus after.bus = (List.range lcd.area).map lcd.frameBuffer := by
  have pixels := pixelsOf_swapped (lcd.area / 2) lcd.frameBuffer
  rw [Nat.mul_div_cancel' (Nat.dvd_of_mod_eq_zero even)] at pixels
  rw [sentPixels, delivers.since granted, screenTraffic, List.flatMap_append, List.flatMap_singleton, pixels]
  rfl

private theorem sentPixels_lost (delivers : Delivers lcd.screenTraffic lcd.bus after.bus) (refused : ¬Granted lcd.bus.dma) :
    sentPixels lcd.bus after.bus = [] := by
  rw [sentPixels, delivers.since_lost refused]
  rfl

private theorem Clean.swap (clean : Clean lcd) : swapFrom 0 (lcd.area / 2) lcd.frameBuffer = lcd.frameBuffer := by
  have length := area_eq clean.shaped
  funext a
  unfold swapFrom
  split
  · next inside =>
    have pair := clean.paired (a / 2) (by omega)
    split
    · next even =>
      have first : 2 * (a / 2) = a := by omega
      rw [first] at pair
      exact pair.symm
    · next odd =>
      have first : 2 * (a / 2) = a - 1 := by omega
      have second : 2 * (a / 2) + 1 = a := by omega
      rw [second, first] at pair
      exact pair
  · rfl

theorem Clean.refresh (clean : Clean lcd) (wired : Wired lcd.bus) (returned : lcd.refresh fuel = some after) :
    after = { lcd with bus := after.bus } ∧ Clean after ∧ Wired after.bus ∧
      lcd.RowMajor (sentPixels lcd.bus after.bus) := by
  obtain ⟨even, delivers, made⟩ := refresh_some wired returned
  rw [clean.swap] at made
  have area := area_eq clean.shaped
  have again : Clean after := by
    rw [made]
    exact ⟨clean.shaped, clean.even, clean.paired, delivers.dma ▸ clean.granted⟩
  refine ⟨made, again, delivers.wired wired, ?_⟩
  by_cases granted : Granted lcd.bus.dma
  · rw [RowMajor, sentPixels_screen even delivers granted, List.length_map, List.length_range]
    exact ⟨area, rfl⟩
  · obtain free | nothing := clean.granted
    · exact absurd free granted
    · rw [sentPixels_lost delivers granted]
      exact ⟨nothing.symm, rfl⟩

private theorem clean_of_refresh (wired : Wired lcd.bus) (returned : lcd.refresh fuel = some after)
    (kept : ∀ i : Nat, (i : Int) < lcd.size → after.frameBuffer i = lcd.frameBuffer i)
    (rows : lcd.RowMajor (sentPixels lcd.bus after.bus)) : Clean lcd := by
  obtain ⟨even, delivers, made⟩ := refresh_some wired returned
  obtain ⟨length, _⟩ := rows
  have shaped : 0 ≤ lcd.size := by omega
  have area := area_eq shaped
  refine ⟨shaped, area_even.mp even, fun k inside => ?_, ?_⟩
  · have pair := kept (2 * k) (by omega)
    rw [made] at pair
    have swapped : swapFrom 0 (lcd.area / 2) lcd.frameBuffer (2 * k) = lcd.frameBuffer (2 * k + 1) := by
      rw [swapFrom, if_pos (by omega), if_pos (by omega)]
    exact (swapped.symm.trans pair).symm
  · by_cases granted : Granted lcd.bus.dma
    · exact .inl granted
    · rw [sentPixels_lost delivers granted] at length
      exact .inr length.symm

private theorem perform_refresh (flush : Flush) (full : flush = .endWrite → lcd.userFrmBuff = false ∧ lcd.FullScreen) (fuel : Nat) :
    flush.perform fuel lcd = lcd.refresh fuel := by
  cases flush with
  | refresh => rfl
  | endWrite =>
    obtain ⟨own, screen⟩ := full rfl
    rw [Flush.perform, endWrite, if_neg (by simp [own]), if_pos screen]

private theorem Clean.intact {flushes : List Flush} (clean : Clean lcd) (wired : Wired lcd.bus)
    (full : .endWrite ∈ flushes → lcd.userFrmBuff = false ∧ lcd.FullScreen) : Intact flushes lcd := by
  induction flushes generalizing lcd with
  | nil => trivial
  | cons flush flushes ih =>
    obtain ⟨fuel, after, returned⟩ := lcd.refresh_comes_back (area_even.mpr clean.even)
    obtain ⟨made, again, ready, rows⟩ := clean.refresh wired returned
    refine ⟨fuel, after, ?_, fun i _ => by rw [made], rows, ih again ready fun later => ?_⟩
    · rw [perform_refresh flush (fun same => full (by simp [same]))]
      exact returned
    · obtain ⟨own, screen⟩ := full (List.mem_cons_of_mem _ later)
      rw [made]
      exact ⟨own, screen⟩

/-- Full flushes in a row leave the framebuffer intact and send it exactly when the screen is clean. -/
theorem framebuffer_intact_iff (lcd : St7789v) (wired : Wired lcd.bus) (flushes : List Flush)
    (full : .endWrite ∈ flushes → lcd.userFrmBuff = false ∧ lcd.FullScreen) :
    Intact flushes lcd ↔ flushes = [] ∨ Clean lcd := by
  refine ⟨fun intact => ?_, fun holds => ?_⟩
  · cases flushes with
    | nil => exact .inl rfl
    | cons flush flushes =>
      obtain ⟨fuel, after, returned, kept, rows, _⟩ := intact
      rw [perform_refresh flush (fun same => full (by simp [same]))] at returned
      exact .inr (clean_of_refresh wired returned kept rows)
  · obtain rfl | clean := holds
    · trivial
    · exact clean.intact wired full

/-- A panel of two pixels, with its one tile dirty. -/
def twoPixels (first second : UInt16) : St7789v :=
  ⟨2, 1, 2, 1, true, false, fun i => if i = 0 then first else second, fun _ => 1, 1, false, coldBus⟩

theorem framebuffer_intact_plain : Intact [.refresh, .endWrite, .refresh] (twoPixels 7 7) := by
  refine (framebuffer_intact_iff (twoPixels 7 7) rfl _ fun _ => ⟨rfl, ?_⟩).mpr (.inr ⟨?_, ?_, ?_, ?_⟩)
  · decide
  · decide
  · decide
  · intro k _
    simp [twoPixels]
  · exact .inl (by decide)

/-- After a refresh the framebuffer holds its two pixels in the other order. -/
theorem framebuffer_swapped : ¬Intact [.refresh] (twoPixels 1 2) := by
  intro intact
  obtain ⟨fuel, after, returned, kept, rows, _⟩ := intact
  have wired : Wired (twoPixels 1 2).bus := rfl
  have clean := clean_of_refresh wired returned kept rows
  cases clean.paired 0 (by decide)

end St7789v
end ArduinoK210.Display
