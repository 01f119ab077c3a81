import ArduinoK210.Jpeg.Layout

/-! What a reader makes of the header that the encoder writes. -/

namespace ArduinoK210.Jpeg

open Decoder

def Bytes (values : List Nat) : Prop := ∀ value ∈ values, value < 256

instance (values : List Nat) : Decidable (Bytes values) := inferInstanceAs (Decidable (∀ _ ∈ _, _))

/-- A marker segment with its length. -/
def segment (marker : Nat) (body : List Nat) : List Nat := [0xFF, marker] ++ halves (body.length + 2) ++ body

@[simp] theorem bytesOf_append (first second : List Nat) : bytesOf (first ++ second) = bytesOf first ++ bytesOf second := List.map_append

@[simp] theorem bytesOf_length (values : List Nat) : (bytesOf values).length = values.length := List.length_map _

@[simp] theorem bytesOf_cons (value : Nat) (values : List Nat) : bytesOf (value :: values) = UInt8.ofNat value :: bytesOf values := rfl

private theorem toNat_bytesOf {values : List Nat} (bytes : Bytes values) : (bytesOf values).map UInt8.toNat = values := by
  induction values with
  | nil => rfl
  | cons value values ih =>
    obtain ⟨first, rest⟩ := List.forall_mem_cons.mp bytes
    rw [bytesOf_cons, List.map_cons, ih rest, UInt8.toNat_ofNat', Nat.mod_eq_of_lt first]

theorem halves_toNat {value : Nat} (small : value < 65536) :
    256 * (UInt8.ofNat (value >>> 8)).toNat + (UInt8.ofNat (value &&& 0xFF)).toNat = value := by
  have high : value >>> 8 = value / 256 := Nat.shiftRight_eq_div_pow value 8
  have low : value &&& 0xFF = value % 256 := Nat.and_two_pow_sub_one_eq_mod value 8
  rw [high, low, UInt8.toNat_ofNat', UInt8.toNat_ofNat']
  omega

private theorem split_append (first rest : List UInt8) : split first.length (first ++ rest) = some (first, rest) := by
  rw [split, if_pos (by rw [List.length_append]; omega), List.take_left, List.drop_left]

theorem split_bytesOf {values : List Nat} {count : Nat} (long : values.length = count) (rest : List UInt8) :
    split count (bytesOf values ++ rest) = some (bytesOf values, rest) := by
  rw [← long, ← bytesOf_length]
  exact split_append _ _

private theorem readQuantizers_table {entries : List Nat} (long : entries.length = 64) (range : ∀ entry ∈ entries, 1 ≤ entry ∧ entry ≤ 255)
    {destination : Nat} (small : destination < 4) (tables : Nat) (rest : List UInt8) :
    readQuantizers (tables + 1) (bytesOf ([destination] ++ entries) ++ rest) =
      (readQuantizers tables rest).map fun read => (destination, entries) :: read := by
  have bytes : Bytes entries := fun entry member => by have := range entry member; omega
  have number : (UInt8.ofNat destination).toNat = destination := by
    rw [UInt8.toNat_ofNat', Nat.mod_eq_of_lt (by omega)]
  have nonzero : (0 : UInt8) ∉ bytesOf entries := by
    intro member
    obtain ⟨entry, there, zero⟩ := List.mem_map.mp member
    have value := congrArg UInt8.toNat zero
    obtain ⟨low, high⟩ := range entry there
    rw [UInt8.toNat_ofNat', Nat.mod_eq_of_lt (by omega)] at value
    change entry = 0 at value
    omega
  change readQuantizers (tables + 1) (UInt8.ofNat destination :: (bytesOf entries ++ rest)) = _
  rw [readQuantizers, split_bytesOf long]
  dsimp only
  rw [number, if_pos ⟨small, nonzero⟩, toNat_bytesOf bytes]

private theorem readCodes_table {counts values : List Nat} (long : counts.length = 16) (total : counts.sum = values.length)
    (bytes : Bytes counts) (bytes' : Bytes values) {destination : Nat} (small : destination < 256) (tables : Nat) (rest : List UInt8) :
    readCodes (tables + 1) (bytesOf ([destination] ++ counts ++ values) ++ rest) =
      (readCodes tables rest).map fun read =>
        (destination, PrefixCode.codeOf (PrefixCode.canonical 1 0 counts values)) :: read := by
  have number : (UInt8.ofNat destination).toNat = destination := by
    rw [UInt8.toNat_ofNat', Nat.mod_eq_of_lt small]
  rw [bytesOf_append, List.append_assoc]
  change readCodes (tables + 1) (UInt8.ofNat destination :: (bytesOf counts ++ (bytesOf values ++ rest))) = _
  rw [readCodes, split_bytesOf long]
  dsimp only
  rw [toNat_bytesOf bytes, total, split_bytesOf rfl]
  dsimp only
  rw [toNat_bytesOf bytes', number]

section Segments
variable {segments : Nat} {header : Header} {body : List Nat} {rest : List UInt8}

theorem readSegments_segment (marker : Nat) (small : body.length + 2 < 65536) :
    readSegments (segments + 1) header (bytesOf (segment marker body) ++ rest) =
      if UInt8.ofNat marker = 0xDB then
        (readQuantizers 4 (bytesOf body)).bind fun read => readSegments segments { header with quantizers := header.quantizers ++ read } rest
      else if UInt8.ofNat marker = 0xC4 then
        (readCodes 8 (bytesOf body)).bind fun read => readSegments segments { header with codes := header.codes ++ read } rest
      else if UInt8.ofNat marker = 0xC0 then
        (readFrame (bytesOf body)).bind fun read => readSegments segments { header with frame := some read } rest
      else if UInt8.ofNat marker = 0xDA then (readScan (bytesOf body)).map fun read => (header, read, rest)
      else if 0xE0 ≤ UInt8.ofNat marker ∧ UInt8.ofNat marker ≤ 0xEF then readSegments segments header rest
      else none := by
  have whole := halves_toNat small
  change readSegments (segments + 1) header
    (0xFF :: UInt8.ofNat marker :: UInt8.ofNat ((body.length + 2) >>> 8) :: UInt8.ofNat ((body.length + 2) &&& 0xFF) ::
      (bytesOf body ++ rest)) = _
  rw [readSegments, whole, Nat.add_sub_cancel, split_bytesOf rfl]
  dsimp only
  cases readQuantizers 4 (bytesOf body) <;> cases readCodes 8 (bytesOf body) <;> cases readFrame (bytesOf body) <;> rfl

end Segments

/-- The bodies of the segments, for a gray picture and for one with colours. -/
def quantizersBody (yTable uvTable : List Nat) (color : Bool) : List Nat :=
  if color then [0] ++ yTable ++ ([1] ++ uvTable) else [0] ++ yTable

def codesBody (color : Bool) : List Nat :=
  let luminance := [0x00] ++ stdDcLuminanceNrcodes.drop 1 ++ stdDcLuminanceValues ++
    ([0x10] ++ stdAcLuminanceNrcodes.drop 1 ++ stdAcLuminanceValues)
  if color then
    luminance ++ ([0x01] ++ stdDcChrominanceNrcodes.drop 1 ++ stdDcChrominanceValues ++
      ([0x11] ++ stdAcChrominanceNrcodes.drop 1 ++ stdAcChrominanceValues))
  else luminance

def frameBody (w h : Nat) (color : Bool) (subsampling : Subsampling) : List Nat :=
  [0x08] ++ halves h ++ halves w ++
    if color then [3, 1, subsampling.value, 0, 2, 0x11, 1, 3, 0x11, 1] else [1, 1, 0x11, 0]

def scanBody (color : Bool) : List Nat :=
  if color then [3, 1, 0x00, 2, 0x11, 3, 0x11, 0x00, 0x3F, 0x00] else [1, 1, 0x00, 0x00, 0x3F, 0x00]

def app0Body : List Nat := [0x4A, 0x46, 0x49, 0x46, 0x00, 0x01, 0x01, 0x00, 0x00, 0x01, 0x00, 0x01, 0x00, 0x00]

section Parts
variable {F : Type} {tables : Tables F}

theorem headerParts_segments (long : tables.yTable.length = 64) (long' : tables.uvTable.length = 64) (w h : Nat) (color : Bool)
    (subsampling : Subsampling) :
    (headerParts tables w h (if color then 2 else 1) subsampling).flatten =
      [0xFF, 0xD8] ++ (segment 0xE0 app0Body ++ (segment 0xDB (quantizersBody tables.yTable tables.uvTable color) ++
        (segment 0xC0 (frameBody w h color subsampling) ++ (segment 0xC4 (codesBody color) ++ segment 0xDA (scanBody color))))) := by
  have codes : ∀ color, (codesBody color).length + 2 = if color then 418 else 210 := by decide +kernel
  have scan : ∀ color, (scanBody color).length + 2 = if color then 12 else 8 := by decide
  cases color with
  | false =>
    have quantizers : (quantizersBody tables.yTable tables.uvTable false).length + 2 = 67 := by simp [quantizersBody, long]
    have frame : (frameBody w h false subsampling).length + 2 = 11 := rfl
    rw [segment, segment, segment, segment, segment, quantizers, frame, codes, scan]
    simp [headerParts, quantizersBody, codesBody, frameBody, scanBody, app0Body, halves, List.append_assoc]
  | true =>
    have quantizers : (quantizersBody tables.yTable tables.uvTable true).length + 2 = 132 := by simp [quantizersBody, long, long']
    have frame : (frameBody w h true subsampling).length + 2 = 17 := rfl
    rw [segment, segment, segment, segment, segment, quantizers, frame, codes, scan]
    simp [headerParts, quantizersBody, codesBody, frameBody, scanBody, app0Body, halves, List.append_assoc, List.range_succ]

def declaredCodes (color : Bool) : List (Nat × PrefixCode.Code Nat) :=
  let luminance := [(0x00, PrefixCode.codeOf (declared stdDcLuminanceNrcodes stdDcLuminanceValues)),
    (0x10, PrefixCode.codeOf (declared stdAcLuminanceNrcodes stdAcLuminanceValues))]
  if color then
    luminance ++ [(0x01, PrefixCode.codeOf (declared stdDcChrominanceNrcodes stdDcChrominanceValues)),
      (0x11, PrefixCode.codeOf (declared stdAcChrominanceNrcodes stdAcChrominanceValues))]
  else luminance

def declaredQuantizers (yTable uvTable : List Nat) (color : Bool) : List (Nat × List Nat) :=
  if color then [(0, yTable), (1, uvTable)] else [(0, yTable)]

def declaredScan (color : Bool) : List (Nat × Nat × Nat) := if color then [(1, 0, 0), (2, 1, 1), (3, 1, 1)] else [(1, 0, 0)]

private theorem readCodes_codesBody (color : Bool) : readCodes 8 (bytesOf (codesBody color)) = some (declaredCodes color) := by
  have dcY : ∀ tables rest, readCodes (tables + 1) (bytesOf ([0x00] ++ stdDcLuminanceNrcodes.drop 1 ++ stdDcLuminanceValues) ++ rest) =
      (readCodes tables rest).map fun read => (0x00, PrefixCode.codeOf (declared stdDcLuminanceNrcodes stdDcLuminanceValues)) :: read :=
    readCodes_table rfl (by decide) (by decide) (by decide) (by decide)
  have acY : ∀ tables rest, readCodes (tables + 1) (bytesOf ([0x10] ++ stdAcLuminanceNrcodes.drop 1 ++ stdAcLuminanceValues) ++ rest) =
      (readCodes tables rest).map fun read => (0x10, PrefixCode.codeOf (declared stdAcLuminanceNrcodes stdAcLuminanceValues)) :: read :=
    readCodes_table rfl (by decide +kernel) (by decide) (by decide +kernel) (by decide)
  have dcUv : ∀ tables rest,
      readCodes (tables + 1) (bytesOf ([0x01] ++ stdDcChrominanceNrcodes.drop 1 ++ stdDcChrominanceValues) ++ rest) =
        (readCodes tables rest).map fun read =>
          (0x01, PrefixCode.codeOf (declared stdDcChrominanceNrcodes stdDcChrominanceValues)) :: read :=
    readCodes_table rfl (by decide) (by decide) (by decide) (by decide)
  have acUv : ∀ tables rest,
      readCodes (tables + 1) (bytesOf ([0x11] ++ stdAcChrominanceNrcodes.drop 1 ++ stdAcChrominanceValues) ++ rest) =
        (readCodes tables rest).map fun read =>
          (0x11, PrefixCode.codeOf (declared stdAcChrominanceNrcodes stdAcChrominanceValues)) :: read :=
    readCodes_table rfl (by decide +kernel) (by decide) (by decide +kernel) (by decide)
  cases color with
  | false =>
    have last := acY 6 []
    rw [List.append_nil] at last
    change readCodes 8 (bytesOf (_ ++ _)) = _
    rw [bytesOf_append, dcY, last]
    rfl
  | true =>
    have last := acUv 4 []
    rw [List.append_nil] at last
    have whole : ∀ first second third fourth : List Nat, bytesOf (first ++ second ++ (third ++ fourth)) =
        bytesOf first ++ (bytesOf second ++ (bytesOf third ++ bytesOf fourth)) := fun first second third fourth => by
      rw [bytesOf_append, bytesOf_append, bytesOf_append, List.append_assoc]
    change readCodes 8 (bytesOf (_ ++ _ ++ (_ ++ _))) = _
    rw [whole, dcY, acY, dcUv, last]
    rfl

private theorem readFrame_frameBody {w h : Nat} (wide : w < 65536) (high : h < 65536) (color : Bool) (subsampling : Subsampling) :
    readFrame (bytesOf (frameBody w h color subsampling)) = some ⟨h, w, frameComponents color subsampling⟩ := by
  have width := halves_toNat wide
  have height := halves_toNat high
  cases color with
  | false =>
    change (readFrameComponents 1 [1, 0x11, 0]).map (fun components => (⟨_, _, components⟩ : Frame)) = _
    rw [width, height]
    rfl
  | true =>
    change (readFrameComponents 3 [1, UInt8.ofNat subsampling.value, 0, 2, 0x11, 1, 3, 0x11, 1]).map
      (fun components => (⟨_, _, components⟩ : Frame)) = _
    rw [width, height]
    cases subsampling <;> rfl

private theorem readQuantizers_quantizersBody {yTable uvTable : List Nat} (long : yTable.length = 64) (long' : uvTable.length = 64)
    (range : ∀ entry ∈ yTable, 1 ≤ entry ∧ entry ≤ 255) (range' : ∀ entry ∈ uvTable, 1 ≤ entry ∧ entry ≤ 255) (color : Bool) :
    readQuantizers 4 (bytesOf (quantizersBody yTable uvTable color)) = some (declaredQuantizers yTable uvTable color) := by
  cases color with
  | false =>
    have last := readQuantizers_table long range (show 0 < 4 by decide) 3 []
    rw [List.append_nil] at last
    exact last
  | true =>
    have last := readQuantizers_table long' range' (show 1 < 4 by decide) 2 []
    rw [List.append_nil] at last
    change readQuantizers 4 (bytesOf (([0] ++ yTable) ++ ([1] ++ uvTable))) = _
    rw [bytesOf_append, readQuantizers_table long range (by decide), last]
    rfl

theorem readSegments_header (long : tables.yTable.length = 64) (long' : tables.uvTable.length = 64)
    (range : ∀ entry ∈ tables.yTable, 1 ≤ entry ∧ entry ≤ 255) (range' : ∀ entry ∈ tables.uvTable, 1 ≤ entry ∧ entry ≤ 255) {w h : Nat}
    (wide : w < 65536) (high : h < 65536) (color : Bool) (subsampling : Subsampling) (data : List UInt8) :
    readSegments 16 ⟨[], [], none⟩ (bytesOf (segment 0xE0 app0Body ++ (segment 0xDB (quantizersBody tables.yTable tables.uvTable color) ++
        (segment 0xC0 (frameBody w h color subsampling) ++ (segment 0xC4 (codesBody color) ++ segment 0xDA (scanBody color))))) ++ data) =
      some (⟨declaredQuantizers tables.yTable tables.uvTable color, declaredCodes color, some ⟨h, w, frameComponents color subsampling⟩⟩,
        declaredScan color, data) := by
  have size : (quantizersBody tables.yTable tables.uvTable color).length + 2 < 65536 := by
    cases color <;> simp [quantizersBody, long, long']
  have size' : (frameBody w h color subsampling).length + 2 < 65536 := by
    cases color <;> simp [frameBody, halves]
  have codes : ∀ color, (codesBody color).length + 2 < 65536 := by decide +kernel
  have scan : ∀ color, (scanBody color).length + 2 < 65536 := by decide
  have order : readScan (bytesOf (scanBody color)) = some (declaredScan color) := by cases color <;> rfl
  rw [bytesOf_append, bytesOf_append, bytesOf_append, bytesOf_append, List.append_assoc, List.append_assoc, List.append_assoc,
    List.append_assoc, readSegments_segment _ (by decide), if_neg (by decide), if_neg (by decide), if_neg (by decide), if_neg (by decide),
    if_pos (by decide), readSegments_segment _ size, if_pos (by decide), readQuantizers_quantizersBody long long' range range']
  dsimp only [Option.bind_some]
  rw [readSegments_segment _ size', if_neg (by decide), if_neg (by decide), if_pos (by decide), readFrame_frameBody wide high]
  dsimp only [Option.bind_some]
  rw [readSegments_segment _ (codes color), if_neg (by decide), if_pos (by decide), readCodes_codesBody]
  dsimp only [Option.bind_some]
  rw [readSegments_segment _ (scan color), if_neg (by decide), if_neg (by decide), if_neg (by decide), if_pos (by decide), order]
  rfl

end Parts

end ArduinoK210.Jpeg
