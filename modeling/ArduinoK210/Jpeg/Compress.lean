import ArduinoK210.Jpeg.Scan

/-! `jpeg_compress` with all that it writes: the tables for a quality, the header, the scan and its end. Nothing is written behind the
output buffer, and what is written before it is full does not depend on its size. -/

namespace ArduinoK210.Jpeg

/-- The `quality` that `jpeg_init` computes with. It would divide by a quality of zero, for which no caller asks. -/
def scaled (quality : Int) : Int := if quality < 50 then (5000 : Int).tdiv quality else 200 - quality * 2

def tableEntry (base : Nat) (quality : Int) : Nat :=
  let yti := (base * quality + 50).tdiv 100
  if yti < 1 then 1 else if yti > 255 then 255 else yti.toNat

/-- The first loop of `jpeg_init` for one of the tables. -/
def fillTable (base table : List Nat) (quality : Int) : List Nat :=
  (List.range 64).foldl (fun table i => table.set (zigZag.getD i 0) (tableEntry (base.getD i 0) quality)) table

/-- The second loop. -/
def fdtblOf {F : Type} (floats : Floats F) (table : List Nat) (k : Nat) : F :=
  floats.fdtbl (k / 8) (k % 8) (table.getD (zigZag.getD k 0) 0)

namespace Tables

variable {F : Type} (floats : Floats F)

/-- The static variables at the start of the program. -/
def start : Tables F := ⟨0, List.replicate 64 0, List.replicate 64 0, fun _ => floats.zero, fun _ => floats.zero⟩

def jpegInit (quality : Int) (tables : Tables F) : Tables F :=
  let quality := scaled quality
  if tables.q ≠ quality then
    let yTable := fillTable yqt tables.yTable quality
    let uvTable := fillTable uvqt tables.uvTable quality
    ⟨quality, yTable, uvTable, fdtblOf floats yTable, fdtblOf floats uvTable⟩
  else tables

end Tables

def Subsampling.value : Subsampling → Nat
  | .auto => 0
  | .s444 => 0x11
  | .s422 => 0x21
  | .s420 => 0x22

def bytesOf (values : List Nat) : List UInt8 := values.map UInt8.ofNat

def halves (value : Nat) : List Nat := [value >>> 8, value &&& 0xFF]

section Headers
variable {F : Type}

/-- What `jpeg_write_headers` hands to `jpeg_put_bytes` and `jpeg_put_char`, call by call. -/
def headerParts (tables : Tables F) (w h bpp : Nat) (subsampling : Subsampling) : List (List Nat) :=
  let nrComp := if bpp = 1 then 1 else 3
  [[0xFF, 0xD8],
    [0xFF, 0xE0] ++ halves 16 ++ [0x4A, 0x46, 0x49, 0x46, 0x00, 0x01, 0x01, 0x00, 0x00, 0x01, 0x00, 0x01, 0x00, 0x00],
    [0xFF, 0xDB] ++ halves (bpp * 65 + 2), [0], tables.yTable] ++
  (if bpp > 1 then [[1], tables.uvTable] else []) ++
  [[0xFF, 0xC0] ++ halves (nrComp * 3 + 8) ++ [0x08] ++ halves h ++ halves w ++ [nrComp]] ++
  (List.range nrComp).map (fun i => [i + 1, if i = 0 ∧ bpp = 2 then subsampling.value else 0x11, if i > 0 then 1 else 0]) ++
  [[0xFF, 0xC4] ++ halves (bpp * 208 + 2),
    [0x00], stdDcLuminanceNrcodes.drop 1, stdDcLuminanceValues,
    [0x10], stdAcLuminanceNrcodes.drop 1, stdAcLuminanceValues] ++
  (if bpp > 1 then
    [[0x01], stdDcChrominanceNrcodes.drop 1, stdDcChrominanceValues,
      [0x11], stdAcChrominanceNrcodes.drop 1, stdAcChrominanceValues]
  else []) ++
  [[0xFF, 0xDA] ++ halves (nrComp * 2 + 6) ++ [nrComp]] ++
  (List.range nrComp).map (fun i => [i + 1, if i = 0 then 0x00 else 0x11]) ++
  [[0x00, 0x3F, 0x0]]

def JpegBuf.jpegWriteHeaders (jpegBuf : JpegBuf) (tables : Tables F) (w h bpp : Nat) (subsampling : Subsampling) : JpegBuf :=
  (headerParts tables w h bpp subsampling).foldl (fun jpegBuf part => jpegBuf.jpegPutBytes (bytesOf part)) jpegBuf

end Headers

/-- The buffer at the start of `jpeg_compress`. The size goes into an `int`. -/
def JpegBuf.start (size : Nat) : JpegBuf := ⟨[], (BitVec.ofNat 32 size).toInt, 0, 0, false, false⟩

def JpegBuf.finish (jpegBuf : JpegBuf) : JpegBuf := ((jpegBuf.jpegWriteBits (0x7F, 7)).jpegPutChar 0xFF).jpegPutChar 0xD9

/-- What a call leaves behind: its result, the static variables and the buffer. `*dst_size` is set to what the buffer holds when the
result is zero. -/
structure Outcome (F : Type) where
  result : Int
  tables : Tables F
  buf : JpegBuf

namespace Tables

variable {F : Type} (floats : Floats F)

def bpp (src : ImageInfo) : Nat := if src.pixfmt = .grayscale then 1 else 2

def headed (tables : Tables F) (src : ImageInfo) (size : Nat) (subsampling : Subsampling) : Scan :=
  ⟨(JpegBuf.start size).jpegWriteHeaders tables src.w src.h (bpp src) subsampling, fun _ => 0⟩

def coded (tables : Tables F) (src : ImageInfo) (size : Nat) (subsampling : Subsampling) (blocks : List Mcu) : Scan :=
  (tables.headed src size subsampling).process floats tables (dataUnits (src.pixfmt ≠ .grayscale) subsampling blocks)

/-- The call of `jpeg_compress`. What `src` and `dst` are is told where the loops over the blocks are. -/
def jpegCompress (tables : Tables F) (src : Option ImageInfo) (dst : Option Nat) (quality : Int) (requested : Subsampling) : Outcome F :=
  let size := dst.getD 0
  match src with
  | none => ⟨-1, tables, JpegBuf.start size⟩
  | some src =>
      if src.w = 0 ∨ src.h = 0 then ⟨-1, tables, JpegBuf.start size⟩
      else if dst = none ∨ dst = some 0 then ⟨-1, tables, JpegBuf.start size⟩
      else if src.pixfmt = .invalid then ⟨-1, tables, JpegBuf.start size⟩
      else
        let tables := tables.jpegInit floats quality
        let subsampling := subsampling src quality requested
        let blocks := encode src (fun blocks => (tables.coded floats src size subsampling blocks).buf.overflow) subsampling
        let scan := tables.coded floats src size subsampling blocks.1
        if blocks.2 then ⟨-2, tables, scan.buf⟩ else ⟨0, tables, scan.buf.finish⟩

/-- The result is that of the loops over the blocks, which stop when the output buffer of the entropy coder is full. -/
theorem jpegCompress_result (tables : Tables F) (src : Option ImageInfo) (dst : Option Nat) (quality : Int) (requested : Subsampling) :
    (tables.jpegCompress floats src dst quality requested).result =
      (Jpeg.jpegCompress src dst quality requested fun blocks =>
        (src.elim false fun src => ((tables.jpegInit floats quality).coded floats src (dst.getD 0) (subsampling src quality requested)
          blocks).buf.overflow)).1 := by
  unfold jpegCompress Jpeg.jpegCompress
  cases src with
  | none => rfl
  | some src =>
    dsimp only [Option.elim]
    split
    · rfl
    · split
      · rfl
      · split
        · rfl
        · split <;> rfl

end Tables

namespace JpegBuf

/-- The buffer has the size it was given, and what is in it ends before its last byte. -/
structure Within (size : Int) (jpegBuf : JpegBuf) : Prop where
  length : jpegBuf.length = size
  fixed : jpegBuf.realloc = false
  inside : jpegBuf.buf = [] ∨ (jpegBuf.buf.length : Int) < size

private theorem put_within {size : Int} {jpegBuf : JpegBuf} (within : jpegBuf.Within size) (data : List UInt8) : (jpegBuf.put data).Within size := by
  obtain ⟨length, fixed, inside⟩ := within
  unfold put
  by_cases full : (jpegBuf.buf.length + data.length : Int) ≥ jpegBuf.length
  · rw [if_pos full, if_pos fixed]
    exact ⟨length, fixed, inside⟩
  · rw [if_neg full]
    refine ⟨length, fixed, .inr ?_⟩
    change ((jpegBuf.buf ++ data).length : Int) < size
    rw [List.length_append]
    push_cast
    omega

/-- What holds of a buffer whatever is written to it: neither bytes, nor bits that wait, nor the check of the room can break it. -/
structure Steady (holds : JpegBuf → Prop) : Prop where
  put : ∀ {jpegBuf} data, holds jpegBuf → holds (jpegBuf.put data)
  window : ∀ {jpegBuf} bitb bitc, holds jpegBuf → holds { jpegBuf with bitb, bitc }
  highwater : ∀ {jpegBuf}, holds jpegBuf → holds jpegBuf.jpegCheckHighwater.2

namespace Steady

variable {holds : JpegBuf → Prop} {jpegBuf : JpegBuf}

private theorem sendByte (steady : Steady holds) (before : holds jpegBuf) : holds jpegBuf.sendByte := by
  refine steady.window _ _ ?_
  unfold emit
  split
  · exact steady.put _ (steady.put _ before)
  · exact steady.put _ before

private theorem drain (steady : Steady holds) (rounds : Nat) (before : holds jpegBuf) : holds (drain rounds jpegBuf) := by
  induction rounds generalizing jpegBuf with
  | zero => exact before
  | succ rounds ih =>
    unfold JpegBuf.drain
    split
    · exact ih (steady.sendByte before)
    · exact before

private theorem jpegWriteBits (steady : Steady holds) (bs : BitString) (before : holds jpegBuf) : holds (jpegBuf.jpegWriteBits bs) :=
  steady.drain _ (steady.window _ _ before)

private theorem writeAll (steady : Steady holds) (written : List BitString) (before : holds jpegBuf) : holds (jpegBuf.writeAll written) := by
  induction written generalizing jpegBuf with
  | nil => exact before
  | cons bs written ih => exact ih (steady.jpegWriteBits bs before)

private theorem puts (steady : Steady holds) (parts : List (List Nat)) (before : holds jpegBuf) :
    holds (parts.foldl (fun jpegBuf part => jpegBuf.jpegPutBytes (bytesOf part)) jpegBuf) := by
  induction parts generalizing jpegBuf with
  | nil => exact before
  | cons part parts ih => exact ih (steady.put _ before)

theorem finish (steady : Steady holds) (before : holds jpegBuf) : holds jpegBuf.finish :=
  steady.put _ (steady.put _ (steady.jpegWriteBits _ before))

end Steady

private theorem within_steady (size : Int) : Steady (Within size) where
  put data within := put_within within data
  window _ _ within := ⟨within.length, within.fixed, within.inside⟩
  highwater {jpegBuf} within := by
    unfold jpegCheckHighwater
    split
    · rw [if_pos within.fixed]
      exact ⟨within.length, within.fixed, within.inside⟩
    · exact within

/-- What has been written stays. -/
theorem prefix_steady (front : List UInt8) : Steady fun jpegBuf => front <+: jpegBuf.buf where
  put {jpegBuf} data before := by
    unfold put
    split
    · split
      · exact before
      · exact before.trans (List.prefix_append ..)
    · exact before.trans (List.prefix_append ..)
  window _ _ before := before
  highwater {jpegBuf} before := by
    unfold jpegCheckHighwater
    split
    · split <;> exact before
    · exact before

/-- A mark that is set tells that the buffer has no more than one byte left. -/
def Tight (jpegBuf : JpegBuf) : Prop := jpegBuf.overflow = true → jpegBuf.length ≤ jpegBuf.buf.length + 1

private theorem jpegPutChar_tight {jpegBuf : JpegBuf} (fixed : jpegBuf.realloc = false) (tight : jpegBuf.Tight) (c : UInt8) :
    (jpegBuf.jpegPutChar c).Tight := by
  unfold jpegPutChar put
  by_cases full : (jpegBuf.buf.length + [c].length : Int) ≥ jpegBuf.length
  · rw [if_pos full, if_pos fixed]
    exact fun _ => full
  · rw [if_neg full]
    intro marked
    have near := tight marked
    change jpegBuf.length ≤ ((jpegBuf.buf ++ [c]).length : Int) + 1
    rw [List.length_append]
    push_cast
    omega

private theorem finish_tight {size : Int} {jpegBuf : JpegBuf} (within : jpegBuf.Within size) (tight : jpegBuf.Tight) : jpegBuf.finish.Tight := by
  have emitted : ∀ {jpegBuf : JpegBuf} (c : UInt8), jpegBuf.Within size → jpegBuf.Tight → (jpegBuf.emit c).Tight := by
    intro jpegBuf c within tight
    have first := jpegPutChar_tight within.fixed tight c
    unfold emit
    split
    · exact jpegPutChar_tight (put_within within [c]).fixed first 0
    · exact first
  have drained : ∀ (rounds : Nat) (jpegBuf : JpegBuf), jpegBuf.Within size → jpegBuf.Tight → (drain rounds jpegBuf).Tight := by
    intro rounds
    induction rounds with
    | zero => exact fun _ _ tight => tight
    | succ rounds ih =>
      intro jpegBuf within tight
      unfold drain
      split
      · exact ih _ ((within_steady size).sendByte within) (emitted _ within tight)
      · exact tight
  have collected : (jpegBuf.collect (0x7F, 7)).Within size := ⟨within.length, within.fixed, within.inside⟩
  have filled : (jpegBuf.jpegWriteBits (0x7F, 7)).Tight := drained _ _ collected tight
  have fixed := (within_steady size).jpegWriteBits (0x7F, 7) within
  exact jpegPutChar_tight (put_within fixed [0xFF]).fixed (jpegPutChar_tight fixed.fixed filled 0xFF) 0xD9

/-- Two buffers with the same bytes, neither of them marked, where the second has at least as much room. -/
structure Roomier (small large : JpegBuf) : Prop where
  buf : large.buf = small.buf
  bitb : large.bitb = small.bitb
  bitc : large.bitc = small.bitc
  fixed : small.realloc = false
  fixed' : large.realloc = false
  clear : small.overflow = false
  clear' : large.overflow = false
  room : small.length ≤ large.length

private theorem put_roomier {small large : JpegBuf} (roomier : small.Roomier large) {data : List UInt8}
    (clear : (small.put data).overflow = false) : (small.put data).Roomier (large.put data) := by
  obtain ⟨buf, bitb, bitc, fixed, fixed', -, clear', room⟩ := roomier
  unfold put at clear ⊢
  by_cases full : (small.buf.length + data.length : Int) ≥ small.length
  · rw [if_pos full, if_pos fixed] at clear
    cases clear
  · have free : ¬(large.buf.length + data.length : Int) ≥ large.length := by
      rw [buf]
      omega
    rw [if_neg full] at clear ⊢
    rw [if_neg free]
    exact ⟨congrArg (· ++ data) buf, bitb, bitc, fixed, fixed', clear, clear', room⟩

private theorem emit_roomier {small large : JpegBuf} (roomier : small.Roomier large) {c : UInt8} (clear : (small.emit c).overflow = false) :
    (small.emit c).Roomier (large.emit c) := by
  unfold emit at clear ⊢
  split
  · next marker =>
    rw [if_pos marker] at clear
    exact put_roomier (put_roomier roomier (put_stored clear).1) clear
  · next plain =>
    rw [if_neg plain] at clear
    exact put_roomier roomier clear

private theorem sendByte_roomier {small large : JpegBuf} (roomier : small.Roomier large) (clear : small.sendByte.overflow = false) :
    small.sendByte.Roomier large.sendByte := by
  unfold sendByte at clear ⊢
  rw [roomier.bitb]
  obtain ⟨buf, bitb, bitc, fixed, fixed', clear, clear', room⟩ := emit_roomier roomier clear
  exact ⟨buf, congrArg (fun window => (window <<< 8) % 2 ^ 32) bitb, congrArg (· - 8) bitc, fixed, fixed', clear, clear', room⟩

private theorem jpegWriteBits_roomier {small large : JpegBuf} (roomier : small.Roomier large) {bs : BitString}
    (clear : (small.jpegWriteBits bs).overflow = false) : (small.jpegWriteBits bs).Roomier (large.jpegWriteBits bs) := by
  have drained : ∀ (rounds : Nat) (small large : JpegBuf), small.Roomier large → (drain rounds small).overflow = false →
      (drain rounds small).Roomier (drain rounds large) := by
    intro rounds
    induction rounds with
    | zero => exact fun _ _ roomier _ => roomier
    | succ rounds ih =>
      intro small large roomier clear
      unfold drain at clear ⊢
      rw [roomier.bitc]
      split
      · next many =>
        rw [if_pos many] at clear
        exact ih _ _ (sendByte_roomier roomier (drain_clear clear)) clear
      · exact roomier
  have collected : (small.collect bs).Roomier (large.collect bs) := by
    unfold collect
    rw [roomier.bitb, roomier.bitc]
    exact ⟨roomier.buf, rfl, rfl, roomier.fixed, roomier.fixed', roomier.clear, roomier.clear', roomier.room⟩
  unfold jpegWriteBits at clear ⊢
  rw [collected.bitc]
  exact drained _ _ _ collected clear

private theorem writeAll_roomier {small large : JpegBuf} (roomier : small.Roomier large) {written : List BitString}
    (clear : (small.writeAll written).overflow = false) : (small.writeAll written).Roomier (large.writeAll written) := by
  induction written generalizing small large with
  | nil => exact roomier
  | cons bs written ih => exact ih (jpegWriteBits_roomier roomier (@writeAll_clear _ written clear)) clear

private theorem puts_clear {parts : List (List Nat)} {jpegBuf : JpegBuf}
    (clear : (parts.foldl (fun jpegBuf part => jpegBuf.jpegPutBytes (bytesOf part)) jpegBuf).overflow = false) :
    jpegBuf.overflow = false := by
  induction parts generalizing jpegBuf with
  | nil => exact clear
  | cons part parts ih => exact (put_stored (ih clear)).1

private theorem puts_roomier {small large : JpegBuf} (roomier : small.Roomier large) {parts : List (List Nat)}
    (clear : (parts.foldl (fun jpegBuf part => jpegBuf.jpegPutBytes (bytesOf part)) small).overflow = false) :
    (parts.foldl (fun jpegBuf part => jpegBuf.jpegPutBytes (bytesOf part)) small).Roomier
      (parts.foldl (fun jpegBuf part => jpegBuf.jpegPutBytes (bytesOf part)) large) := by
  induction parts generalizing small large with
  | nil => exact roomier
  | cons part parts ih => exact ih (put_roomier roomier (puts_clear clear)) clear

theorem finish_roomier {small large : JpegBuf} (roomier : small.Roomier large) (clear : small.finish.overflow = false) :
    small.finish.Roomier large.finish := by
  have marker := (put_stored clear).1
  have filled := (put_stored marker).1
  exact put_roomier (put_roomier (jpegWriteBits_roomier roomier filled) marker) clear

end JpegBuf

section Scan
variable {F : Type} {floats : Floats F} {tables : Tables F}

private theorem processDU_steady {holds : JpegBuf → Prop} (steady : JpegBuf.Steady holds) {scan : Scan} (before : holds scan.buf)
    (unit : DataUnit) : holds (scan.processDU floats tables unit).buf := by
  have checked := steady.highwater before
  unfold Scan.processDU jpegProcessDU
  dsimp only
  split
  · exact checked
  · exact steady.writeAll _ checked

theorem process_steady {holds : JpegBuf → Prop} (steady : JpegBuf.Steady holds) {scan : Scan} (before : holds scan.buf)
    (units : List DataUnit) : holds (scan.process floats tables units).buf := by
  induction units generalizing scan with
  | nil => exact before
  | cons unit units ih => exact ih (processDU_steady steady before unit)

private theorem processDU_roomier {small large : Scan} (roomier : small.buf.Roomier large.buf) (same : large.dc = small.dc) {unit : DataUnit}
    (clear : (small.processDU floats tables unit).buf.overflow = false) :
    (small.processDU floats tables unit).buf.Roomier (large.processDU floats tables unit).buf ∧
      (large.processDU floats tables unit).dc = (small.processDU floats tables unit).dc := by
  unfold Scan.processDU jpegProcessDU JpegBuf.jpegCheckHighwater at clear ⊢
  dsimp only at clear ⊢
  by_cases full : (small.buf.buf.length + 1 : Int) ≥ small.buf.length - 256
  · rw [if_pos full, if_pos roomier.fixed, if_pos rfl] at clear
    cases clear
  · have room := roomier.room
    have free : ¬(large.buf.buf.length + 1 : Int) ≥ large.buf.length - 256 := by
      rw [roomier.buf]
      omega
    rw [if_neg full] at clear ⊢
    rw [if_neg free, same]
    rw [if_neg Bool.false_ne_true] at clear ⊢
    exact ⟨JpegBuf.writeAll_roomier roomier clear, rfl⟩

private theorem process_roomier {small large : Scan} (roomier : small.buf.Roomier large.buf) (same : large.dc = small.dc) {units : List DataUnit}
    (clear : (small.process floats tables units).buf.overflow = false) :
    (small.process floats tables units).buf.Roomier (large.process floats tables units).buf := by
  induction units generalizing small large with
  | nil => exact roomier
  | cons unit units ih =>
    obtain ⟨next, same'⟩ := @processDU_roomier F floats tables small large roomier same unit (@process_clear F floats tables units _ clear)
    exact ih next same' clear

end Scan

section Loops
variable {src : ImageInfo} {chosen : Subsampling} {stop : List Mcu → Bool}

theorem encode_patient {stop' : List Mcu → Bool} (patient : ∀ done, stop done = false → stop' done = false)
    (finished : (encode src stop chosen).2 = false) : encode src stop' chosen = encode src stop chosen := by
  cases chosen with
  | auto => rfl
  | s444 => exact Stride.stridesUntil_patient patient finished
  | s422 => exact Stride.stridesUntil_patient patient finished
  | s420 => exact Stride.stridesUntil_patient patient finished

private theorem encode_asked (rows : 0 < src.h) (known : chosen ≠ .auto) (finished : (encode src stop chosen).2 = false) :
    stop (encode src stop chosen).1 = false := by
  cases chosen with
  | auto => exact absurd rfl known
  | s444 => exact Stride.stridesUntil_asked (.inl rows) finished
  | s422 => exact Stride.stridesUntil_asked (.inl rows) finished
  | s420 => exact Stride.stridesUntil_asked (.inl rows) finished

end Loops

def allBlocks (src : ImageInfo) (chosen : Subsampling) : List Mcu := (encode src (fun _ => false) chosen).1

namespace Tables

variable {F : Type} {floats : Floats F} {tables : Tables F}

private theorem coded_within (src : ImageInfo) (size : Nat) (chosen : Subsampling) (blocks : List Mcu) :
    (tables.coded floats src size chosen blocks).buf.Within (BitVec.ofNat 32 size).toInt := by
  have start : (JpegBuf.start size).Within (BitVec.ofNat 32 size).toInt := ⟨rfl, rfl, .inl rfl⟩
  have headed : (tables.headed src size chosen).buf.Within (BitVec.ofNat 32 size).toInt := by
    unfold headed JpegBuf.jpegWriteHeaders
    dsimp only
    exact (JpegBuf.within_steady _).puts _ start
  exact process_steady (JpegBuf.within_steady _) headed _

/-- Whatever is asked for, nothing is written behind the buffer. -/
theorem jpegCompress_within (tables : Tables F) (src : Option ImageInfo) (dst : Option Nat) (quality : Int) (requested : Subsampling) :
    (tables.jpegCompress floats src dst quality requested).buf.Within (BitVec.ofNat 32 (dst.getD 0)).toInt := by
  have start : (JpegBuf.start (dst.getD 0)).Within (BitVec.ofNat 32 (dst.getD 0)).toInt := ⟨rfl, rfl, .inl rfl⟩
  unfold jpegCompress
  cases src with
  | none => exact start
  | some src =>
    dsimp only
    split
    · exact start
    · split
      · exact start
      · split
        · exact start
        · split
          · exact coded_within src _ _ _
          · exact (JpegBuf.within_steady _).finish (coded_within src _ _ _)

theorem toInt_size {size : Nat} (small : size < 2 ^ 31) : (BitVec.ofNat 32 size).toInt = size := by
  have value : (BitVec.ofNat 32 size).toNat = size := (BitVec.toNat_ofNat ..).trans (Nat.mod_eq_of_lt (by omega))
  rw [BitVec.toInt_eq_toNat_of_lt (by omega), value]

/-- What is behind a result of zero: all blocks have been coded, and the last row was not too long. -/
structure Returned (floats : Floats F) (tables : Tables F) (src : ImageInfo) (size : Nat) (quality : Int) (requested : Subsampling) (outcome : Outcome F) :
    Prop where
  sized : src.w ≠ 0 ∧ src.h ≠ 0
  positive : size ≠ 0
  format : src.pixfmt ≠ .invalid
  tables : outcome.tables = tables.jpegInit floats quality
  clear : (outcome.tables.coded floats src size (subsampling src quality requested)
    (allBlocks src (subsampling src quality requested))).buf.overflow = false
  buf : outcome.buf = (outcome.tables.coded floats src size (subsampling src quality requested)
    (allBlocks src (subsampling src quality requested))).buf.finish

theorem jpegCompress_some {src : ImageInfo} {size : Nat} {quality : Int} {requested chosen : Subsampling} {ready : Tables F}
    {stop : List Mcu → Bool} (chooses : chosen = subsampling src quality requested) (readies : ready = tables.jpegInit floats quality)
    (stops : stop = fun blocks => (ready.coded floats src size chosen blocks).buf.overflow) :
    tables.jpegCompress floats (some src) (some size) quality requested =
      if src.w = 0 ∨ src.h = 0 then ⟨-1, tables, JpegBuf.start size⟩
      else if some size = none ∨ some size = some 0 then ⟨-1, tables, JpegBuf.start size⟩
      else if src.pixfmt = .invalid then ⟨-1, tables, JpegBuf.start size⟩
      else if (encode src stop chosen).2 then ⟨-2, ready, (ready.coded floats src size chosen (encode src stop chosen).1).buf⟩
      else ⟨0, ready, (ready.coded floats src size chosen (encode src stop chosen).1).buf.finish⟩ := by
  subst stops chooses readies
  rfl

theorem jpegCompress_returned {src : ImageInfo} {size : Nat} {quality : Int} {requested : Subsampling}
    (zero : (tables.jpegCompress floats (some src) (some size) quality requested).result = 0) :
    Returned floats tables src size quality requested (tables.jpegCompress floats (some src) (some size) quality requested) := by
  obtain ⟨chosen, chooses⟩ : ∃ chosen, chosen = subsampling src quality requested := ⟨_, rfl⟩
  obtain ⟨ready, readies⟩ : ∃ ready, ready = tables.jpegInit floats quality := ⟨_, rfl⟩
  obtain ⟨stop, stops⟩ : ∃ stop : List Mcu → Bool, stop = fun blocks => (ready.coded floats src size chosen blocks).buf.overflow :=
    ⟨_, rfl⟩
  rw [jpegCompress_some chooses readies stops] at zero ⊢
  by_cases sized : src.w = 0 ∨ src.h = 0
  · rw [if_pos sized] at zero
    cases zero
  · rw [if_neg sized] at zero ⊢
    by_cases room : some size = none ∨ some size = some 0
    · rw [if_pos room] at zero
      cases zero
    · rw [if_neg room] at zero ⊢
      by_cases format : src.pixfmt = .invalid
      · rw [if_pos format] at zero
        cases zero
      · rw [if_neg format] at zero ⊢
        by_cases stopped : (encode src stop chosen).2 = true
        · rw [if_pos stopped] at zero
          cases zero
        · have finished := eq_false_of_ne_true stopped
          have all : (encode src stop chosen).1 = allBlocks src chosen :=
            congrArg Prod.fst (encode_patient (fun _ _ => rfl) finished).symm
          have known : chosen ≠ .auto := chooses ▸ subsampling_ne_auto src quality requested
          have last := encode_asked (Nat.pos_of_ne_zero fun none => sized (.inr none)) known finished
          rw [if_neg stopped, all]
          rw [all, stops] at last
          subst chooses
          exact ⟨⟨fun none => sized (.inl none), fun none => sized (.inr none)⟩, fun none => room (.inr (congrArg some none)), format,
            readies, last, rfl⟩

/-- A file that does not end where the buffer may be full is whole. -/
theorem Returned.whole {src : ImageInfo} {size : Nat} {quality : Int} {requested : Subsampling} {outcome : Outcome F}
    (returned : Returned floats tables src size quality requested outcome) (small : size < 2 ^ 31) (room : outcome.buf.buf.length + 1 ≠ size) :
    outcome.buf.overflow = false := by
  have within := @coded_within F floats outcome.tables src size (subsampling src quality requested)
    (allBlocks src (subsampling src quality requested))
  have tight := JpegBuf.finish_tight within fun marked => absurd marked (ne_true_of_eq_false returned.clear)
  have bounded := (JpegBuf.within_steady _).finish within
  rw [← returned.buf, toInt_size small] at bounded
  rw [← returned.buf] at tight
  by_contra marked
  have near := tight (eq_true_of_ne_false marked)
  rw [bounded.length] at near
  rcases bounded.inside with none | inside
  · rw [none] at near room
    change (size : Int) ≤ 0 + 1 at near
    change 0 + 1 ≠ size at room
    have positive := returned.positive
    omega
  · omega

theorem coded_roomier {src : ImageInfo} {size size' : Nat} (large : size ≤ size') (small : size' < 2 ^ 31) {chosen : Subsampling}
    {blocks : List Mcu} (clear : (tables.coded floats src size chosen blocks).buf.overflow = false) :
    (tables.coded floats src size chosen blocks).buf.Roomier (tables.coded floats src size' chosen blocks).buf := by
  have start : (JpegBuf.start size).Roomier (JpegBuf.start size') := by
    refine ⟨rfl, rfl, rfl, rfl, rfl, rfl, rfl, ?_⟩
    change (BitVec.ofNat 32 size).toInt ≤ (BitVec.ofNat 32 size').toInt
    rw [toInt_size small, toInt_size (by omega)]
    exact_mod_cast large
  have headed : (tables.headed src size chosen).buf.Roomier (tables.headed src size' chosen).buf := by
    have before := process_clear clear
    unfold headed JpegBuf.jpegWriteHeaders at before ⊢
    dsimp only at before ⊢
    exact JpegBuf.puts_roomier start before
  exact process_roomier headed rfl clear

end Tables

end ArduinoK210.Jpeg
