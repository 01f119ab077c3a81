import ArduinoK210.Jpeg.DataUnit
import ArduinoK210.Jpeg.Mcu

/-! The data units of a picture: which samples they are made of, in which order they are coded, and how they read back. -/

namespace ArduinoK210.Jpeg

open Decoder (decodeBlock decodeBlocks)
open PrefixCode (Code codeOf)

inductive Component where
  | y | u | v
  deriving DecidableEq

namespace Component

def htdc : Component → List BitString
  | y => ydcHt
  | u | v => uvdcHt

def htac : Component → List BitString
  | y => yacHt
  | u | v => uvacHt

def index : Component → Nat
  | y => 0
  | u => 1
  | v => 2

end Component

structure Tables (F : Type) where
  q : Int
  yTable : List Nat
  uvTable : List Nat
  fdtblY : Nat → F
  fdtblUv : Nat → F

def Tables.fdtbl {F : Type} (tables : Tables F) : Component → Nat → F
  | .y => tables.fdtblY
  | .u | .v => tables.fdtblUv

def Plane.entry (plane : Plane) (index : Nat) : Int := ((plane index).getD 0).toInt8.toInt

/-- `UDU_avg` of two blocks. The quotient lies between its summands. -/
def halved (left right : Plane) (index : Nat) : Int :=
  let block := if index % 8 < 4 then left else right
  let i := 8 * (index / 8) + 2 * (index % 4)
  (block.entry i + block.entry (i + 1)).tdiv 2

def quartered (first second third fourth : Plane) (index : Nat) : Int :=
  let block := if index / 8 < 4 then if index % 8 < 4 then first else second else if index % 8 < 4 then third else fourth
  let i := 16 * (index / 8 % 4) + 2 * (index % 4)
  (block.entry i + block.entry (i + 1) + block.entry (i + 8) + block.entry (i + 9)).tdiv 4

abbrev DataUnit := Component × (Nat → Int)

/-- The data units of rounds over the blocks, in the order in which they are coded. -/
def dataUnits (color : Bool) : Subsampling → List Mcu → List DataUnit
  | .s444, mcu :: rest =>
      ((.y, mcu.y0.entry) :: if color then [(.u, mcu.cb.entry), (.v, mcu.cr.entry)] else []) ++ dataUnits color .s444 rest
  | .s422, left :: right :: rest =>
      [(.y, left.y0.entry), (.y, right.y0.entry), (.u, halved left.cb right.cb), (.v, halved left.cr right.cr)] ++
        dataUnits color .s422 rest
  | .s420, first :: second :: third :: fourth :: rest =>
      [(.y, first.y0.entry), (.y, second.y0.entry), (.y, third.y0.entry), (.y, fourth.y0.entry),
        (.u, quartered first.cb second.cb third.cb fourth.cb), (.v, quartered first.cr second.cr third.cr fourth.cr)] ++
        dataUnits color .s420 rest
  | _, _ => []

/-- The output buffer, and `DCY`, `DCU` and `DCV`. -/
structure Scan where
  buf : JpegBuf
  dc : Component → Int

namespace Scan

variable {F : Type} (floats : Floats F) (tables : Tables F)

/-- `DCY = jpeg_processDU(&jpeg_buf, YDU, fdtbl_Y, DCY, YDC_HT, YAC_HT)` and the calls for the other components. -/
def processDU (scan : Scan) (unit : DataUnit) : Scan :=
  let after := jpegProcessDU floats scan.buf unit.2 (tables.fdtbl unit.1) (scan.dc unit.1) unit.1.htdc unit.1.htac
  ⟨after.1, Function.update scan.dc unit.1 after.2⟩

def process (scan : Scan) (units : List DataUnit) : Scan := units.foldl (processDU floats tables) scan

end Scan

section Units
variable {F : Type} (floats : Floats F) (tables : Tables F)

def coefficients (unit : DataUnit) : Nat → Int := (quantize floats (dctColumns (dctRows unit.2)) (tables.fdtbl unit.1)).1

/-- The range of a baseline picture with samples of eight bits. -/
def Baseline (duq : Nat → Int) : Prop := -1024 ≤ duq 0 ∧ duq 0 ≤ 1023 ∧ ∀ k, 0 < k → (duq k).natAbs ≤ 1023

def unitBits : (units : List DataUnit) → (dc : Component → Int) → List Bool
  | [], _ => []
  | unit :: units, dc =>
      let quantized := quantize floats (dctColumns (dctRows unit.2)) (tables.fdtbl unit.1)
      words (duBits unit.1.htdc unit.1.htac quantized.1 quantized.2 (dc unit.1)) ++
        unitBits units (Function.update dc unit.1 (quantized.1 0))

def Component.codes : Component → Code Nat × Code Nat
  | .y => (codeOf (declared stdDcLuminanceNrcodes stdDcLuminanceValues), codeOf (declared stdAcLuminanceNrcodes stdAcLuminanceValues))
  | .u | .v =>
      (codeOf (declared stdDcChrominanceNrcodes stdDcChrominanceValues), codeOf (declared stdAcChrominanceNrcodes stdAcChrominanceValues))

theorem Component.coder (component : Component) : Coder component.htdc component.htac component.codes.1 component.codes.2 :=
  match component with
  | .y => luminance
  | .u | .v => chrominance

private theorem Component.index_inj {first second : Component} (same : first.index = second.index) : first = second := by
  cases first <;> cases second <;> first | rfl | cases same

variable {floats tables}

theorem Baseline.codable {duq : Nat → Int} (baseline : Baseline duq) {dc : Int} (low : -1024 ≤ dc) (high : dc ≤ 1023) : Codable duq dc := by
  obtain ⟨above, below, others⟩ := baseline
  exact ⟨by omega, others⟩

private theorem JpegBuf.highwater_cases (jpegBuf : JpegBuf) :
    (jpegBuf.jpegCheckHighwater.1 = true ∧ jpegBuf.jpegCheckHighwater.2.overflow = true) ∨
      (jpegBuf.jpegCheckHighwater.1 = false ∧ ∃ length, jpegBuf.jpegCheckHighwater.2 = { jpegBuf with length := length }) := by
  unfold jpegCheckHighwater
  split
  · split
    · exact .inl ⟨rfl, rfl⟩
    · exact .inr ⟨rfl, _, rfl⟩
  · exact .inr ⟨rfl, _, rfl⟩

theorem processDU_holds {scan : Scan} {unit : DataUnit} {front : List UInt8} {sent : List Bool} (holds : scan.buf.Holds front sent)
    (baseline : Baseline (coefficients floats tables unit)) (low : -1024 ≤ scan.dc unit.1) (high : scan.dc unit.1 ≤ 1023)
    (clear : (scan.processDU floats tables unit).buf.overflow = false) :
    scan.buf.overflow = false ∧
      (scan.processDU floats tables unit).buf.Holds front
        (sent ++ words (duBits unit.1.htdc unit.1.htac (coefficients floats tables unit)
          (quantize floats (dctColumns (dctRows unit.2)) (tables.fdtbl unit.1)).2 (scan.dc unit.1))) ∧
      (scan.processDU floats tables unit).dc = Function.update scan.dc unit.1 (coefficients floats tables unit 0) := by
  have ends := quantize_ends floats (dctColumns (dctRows unit.2)) (tables.fdtbl unit.1)
  unfold Scan.processDU jpegProcessDU at clear ⊢
  dsimp only at clear ⊢
  rcases scan.buf.highwater_cases with ⟨full, marked⟩ | ⟨free, length, same⟩
  · rw [if_pos full] at clear
    cases marked.symm.trans clear
  · have open_ : ¬scan.buf.jpegCheckHighwater.1 = true := by rw [free]; decide
    rw [if_neg open_] at clear ⊢
    have held : scan.buf.jpegCheckHighwater.2.Holds front sent := by
      obtain ⟨bytes, pending, split, few, stored, count, window⟩ := holds
      rw [same]
      exact ⟨bytes, pending, split, few, stored, count, window⟩
    have before := JpegBuf.writeAll_clear clear
    rw [same] at before
    exact ⟨before, JpegBuf.writeAll_holds held (duBits_fits unit.1.coder ends (baseline.codable low high)) clear, rfl⟩

theorem process_clear {units : List DataUnit} {scan : Scan} (clear : (scan.process floats tables units).buf.overflow = false) :
    scan.buf.overflow = false := by
  induction units generalizing scan with
  | nil => exact clear
  | cons unit units ih =>
    have next := @ih (scan.processDU floats tables unit) clear
    unfold Scan.processDU jpegProcessDU at next
    dsimp only at next
    rcases scan.buf.highwater_cases with ⟨full, marked⟩ | ⟨free, length, same⟩
    · rw [if_pos full] at next
      cases marked.symm.trans next
    · have open_ : ¬scan.buf.jpegCheckHighwater.1 = true := by rw [free]; decide
      rw [if_neg open_] at next
      have before := JpegBuf.writeAll_clear next
      rw [same] at before
      exact before

theorem process_holds {units : List DataUnit} {scan : Scan} {front : List UInt8} {sent : List Bool} (holds : scan.buf.Holds front sent)
    (baseline : ∀ unit ∈ units, Baseline (coefficients floats tables unit))
    (near : ∀ component, -1024 ≤ scan.dc component ∧ scan.dc component ≤ 1023)
    (clear : (scan.process floats tables units).buf.overflow = false) :
    (scan.process floats tables units).buf.Holds front (sent ++ unitBits floats tables units scan.dc) := by
  induction units generalizing scan sent with
  | nil =>
    rw [unitBits, List.append_nil]
    exact holds
  | cons unit units ih =>
    have first := baseline unit List.mem_cons_self
    obtain ⟨-, next, same⟩ :=
      processDU_holds holds first (near unit.1).1 (near unit.1).2 (@process_clear F floats tables units _ clear)
    have rest := ih next (fun other member => baseline other (List.mem_cons_of_mem _ member)) ?_ clear
    · rw [same, List.append_assoc] at rest
      exact rest
    · intro component
      rw [same]
      by_cases here : component = unit.1
      · rw [here, Function.update_self]
        exact ⟨first.1, first.2.1⟩
      · rw [Function.update_of_ne here]
        exact near component

def blockOf (floats : Floats F) (tables : Tables F) (unit : DataUnit) : List Int := (List.range 64).map (coefficients floats tables unit)

/-- A reader that predicts as the encoder does gets the coefficients of all data units. -/
theorem decodeBlocks_unitBits {codes : Nat → Code Nat × Code Nat} {units : List DataUnit}
    (known : ∀ unit ∈ units, codes unit.1.index = unit.1.codes)
    (baseline : ∀ unit ∈ units, Baseline (coefficients floats tables unit)) {dc : Component → Int}
    (near : ∀ component, -1024 ≤ dc component ∧ dc component ≤ 1023) {predicted : Nat → Int}
    (agree : ∀ component : Component, predicted component.index = dc component) (rest : List Bool) :
    decodeBlocks codes (units.map fun unit => unit.1.index) predicted (unitBits floats tables units dc ++ rest) =
      some (units.map (blockOf floats tables), rest) := by
  induction units generalizing dc predicted with
  | nil => rfl
  | cons unit units ih =>
    have ends := quantize_ends floats (dctColumns (dctRows unit.2)) (tables.fdtbl unit.1)
    have first := baseline unit List.mem_cons_self
    have read : ∀ rest, decodeBlock unit.1.codes.1 unit.1.codes.2 (dc unit.1) (words (duBits unit.1.htdc unit.1.htac
        (coefficients floats tables unit) (quantize floats (dctColumns (dctRows unit.2)) (tables.fdtbl unit.1)).2 (dc unit.1)) ++ rest) =
          some (blockOf floats tables unit, rest) :=
      decodeBlock_duBits unit.1.coder ends (first.codable (near unit.1).1 (near unit.1).2)
    have bits : unitBits floats tables (unit :: units) dc = words (duBits unit.1.htdc unit.1.htac (coefficients floats tables unit)
        (quantize floats (dctColumns (dctRows unit.2)) (tables.fdtbl unit.1)).2 (dc unit.1)) ++
          unitBits floats tables units (Function.update dc unit.1 (coefficients floats tables unit 0)) := rfl
    rw [List.map_cons, decodeBlocks, known unit List.mem_cons_self, agree, bits, List.append_assoc, read]
    dsimp only
    rw [ih (fun other member => known other (List.mem_cons_of_mem _ member))
      (fun other member => baseline other (List.mem_cons_of_mem _ member)) ?_ ?_]
    · rfl
    · intro component
      by_cases here : component = unit.1
      · rw [here, Function.update_self]
        exact ⟨first.1, first.2.1⟩
      · rw [Function.update_of_ne here]
        exact near component
    · intro component
      by_cases here : component = unit.1
      · rw [here, Function.update_self]
        exact if_pos rfl
      · rw [Function.update_of_ne here, if_neg fun same => here (Component.index_inj same)]
        exact agree component

end Units

end ArduinoK210.Jpeg
