import ArduinoK210.Jpeg.RoundTrip

/-! How large the output buffer has to be, and how the end of a file is found in it. Four times the bytes in the buffer and the bits that
wait do not grow faster than the bits that are written, since a byte takes eight bits and becomes two bytes at most. -/

namespace ArduinoK210.Jpeg

open PrefixCode (Code)

def width (written : List BitString) : Nat := (written.map Prod.snd).sum

private theorem width_le {written : List BitString} (fits : ∀ bs ∈ written, bs.Fits) : width written ≤ 16 * written.length := by
  induction written with
  | nil => exact Nat.le_refl 0
  | cons bs written ih =>
    have first := (fits bs List.mem_cons_self).2
    have rest := ih fun other member => fits other (List.mem_cons_of_mem _ member)
    change bs.2 + width written ≤ 16 * (written.length + 1)
    omega

namespace JpegBuf

/-- At most so many bits have been spent, and nothing was lost. -/
structure Spent (size : Int) (bits : Nat) (jpegBuf : JpegBuf) : Prop where
  length : jpegBuf.length = size
  fixed : jpegBuf.realloc = false
  clear : jpegBuf.overflow = false
  bits : 4 * jpegBuf.buf.length + jpegBuf.bitc ≤ bits

private theorem put_free {jpegBuf : JpegBuf} {data : List UInt8} (free : (jpegBuf.buf.length + data.length : Int) < jpegBuf.length) :
    jpegBuf.put data = { jpegBuf with buf := jpegBuf.buf ++ data } :=
  if_neg (by omega)

private theorem emit_free {jpegBuf : JpegBuf} (free : (jpegBuf.buf.length + 2 : Int) < jpegBuf.length) (c : UInt8) :
    jpegBuf.emit c = { jpegBuf with buf := jpegBuf.buf ++ stuffed [c] } := by
  have first : jpegBuf.jpegPutChar c = { jpegBuf with buf := jpegBuf.buf ++ [c] } := put_free (by
    change (jpegBuf.buf.length + 1 : Int) < jpegBuf.length
    omega)
  rw [stuffed_singleton]
  unfold emit
  split
  · next full =>
    rw [first, full, jpegPutChar, put_free (by
      change ((jpegBuf.buf ++ [255]).length + 1 : Int) < jpegBuf.length
      rw [List.length_append]
      change ((jpegBuf.buf.length + 1 : Nat) + 1 : Int) < jpegBuf.length
      omega)]
    dsimp only
    rw [List.append_assoc]
    rfl
  · exact first

private theorem sendByte_spent {size : Int} {bits : Nat} {jpegBuf : JpegBuf} (spent : jpegBuf.Spent size bits) (many : 7 < jpegBuf.bitc)
    (room : (bits : Int) < 4 * size) : jpegBuf.sendByte.Spent size bits := by
  obtain ⟨length, fixed, clear, few⟩ := spent
  have free : (jpegBuf.buf.length + 2 : Int) < jpegBuf.length := by omega
  unfold sendByte
  rw [emit_free free]
  refine ⟨length, fixed, clear, ?_⟩
  generalize UInt8.ofNat ((jpegBuf.bitb >>> 16) &&& 255) = c
  have two : (stuffed [c]).length ≤ 2 := by
    rw [stuffed_singleton]
    split
    · exact Nat.le_refl 2
    · exact Nat.le_succ 1
  change 4 * (jpegBuf.buf ++ stuffed [c]).length + (jpegBuf.bitc - 8) ≤ bits
  rw [List.length_append]
  omega

private theorem jpegWriteBits_spent {size : Int} {bits : Nat} {jpegBuf : JpegBuf} (spent : jpegBuf.Spent size bits) {bs : BitString}
    (room : ((bits + bs.2 : Nat) : Int) < 4 * size) : (jpegBuf.jpegWriteBits bs).Spent size (bits + bs.2) := by
  have drained : ∀ (rounds : Nat) (jpegBuf : JpegBuf), jpegBuf.Spent size (bits + bs.2) →
      (drain rounds jpegBuf).Spent size (bits + bs.2) := by
    intro rounds
    induction rounds with
    | zero => exact fun _ spent => spent
    | succ rounds ih =>
      intro jpegBuf spent
      unfold drain
      split
      · next many => exact ih _ (sendByte_spent spent many room)
      · exact spent
  have grown := spent.bits
  refine drained _ _ ⟨spent.length, spent.fixed, spent.clear, ?_⟩
  change 4 * jpegBuf.buf.length + (jpegBuf.bitc + bs.2) ≤ bits + bs.2
  omega

private theorem writeAll_spent {size : Int} {bits : Nat} {jpegBuf : JpegBuf} (spent : jpegBuf.Spent size bits) {written : List BitString}
    (room : ((bits + width written : Nat) : Int) < 4 * size) : (jpegBuf.writeAll written).Spent size (bits + width written) := by
  induction written generalizing jpegBuf bits with
  | nil => exact spent
  | cons bs written ih =>
    have total : bits + width (bs :: written) = bits + bs.2 + width written := (Nat.add_assoc ..).symm
    rw [total] at room ⊢
    exact ih (jpegWriteBits_spent spent (by omega)) room

private theorem puts_spent {size : Int} {bits : Nat} {jpegBuf : JpegBuf} (spent : jpegBuf.Spent size bits) {parts : List (List Nat)}
    (room : ((bits + 4 * parts.flatten.length : Nat) : Int) < 4 * size) :
    (parts.foldl (fun jpegBuf part => jpegBuf.jpegPutBytes (bytesOf part)) jpegBuf).Spent size (bits + 4 * parts.flatten.length) := by
  induction parts generalizing jpegBuf bits with
  | nil => exact spent
  | cons part parts ih =>
    obtain ⟨length, fixed, clear, few⟩ := spent
    have total : bits + 4 * (part :: parts).flatten.length = bits + 4 * part.length + 4 * parts.flatten.length := by
      rw [List.flatten_cons, List.length_append]
      ring
    rw [total] at room ⊢
    refine ih ?_ room
    have free : (jpegBuf.buf.length + (bytesOf part).length : Int) < jpegBuf.length := by
      rw [bytesOf_length]
      omega
    change (jpegBuf.put (bytesOf part)).Spent _ _
    rw [put_free free]
    refine ⟨length, fixed, clear, ?_⟩
    change 4 * (jpegBuf.buf ++ bytesOf part).length + jpegBuf.bitc ≤ _
    rw [List.length_append, bytesOf_length]
    omega

theorem finish_spent {size : Int} {bits : Nat} {jpegBuf : JpegBuf} (spent : jpegBuf.Spent size bits) (room : (bits + 15 : Int) < 4 * size) :
    jpegBuf.finish.Spent size (bits + 15) := by
  obtain ⟨length, fixed, clear, few⟩ := @jpegWriteBits_spent size bits jpegBuf spent (0x7F, 7) (by
    change ((bits + 7 : Nat) : Int) < 4 * size
    omega)
  have char : ∀ {bits : Nat} {jpegBuf : JpegBuf} (c : UInt8), jpegBuf.Spent size bits → (bits + 4 : Int) < 4 * size →
      (jpegBuf.jpegPutChar c).Spent size (bits + 4) := by
    intro bits jpegBuf c spent room
    obtain ⟨length, fixed, clear, few⟩ := spent
    rw [jpegPutChar, put_free (by change (jpegBuf.buf.length + 1 : Int) < jpegBuf.length; omega)]
    refine ⟨length, fixed, clear, ?_⟩
    change 4 * (jpegBuf.buf ++ [c]).length + jpegBuf.bitc ≤ _
    rw [List.length_append]
    change 4 * (jpegBuf.buf.length + 1) + jpegBuf.bitc ≤ _
    omega
  exact char 0xD9 (char 0xFF ⟨length, fixed, clear, few⟩ (by push_cast; omega)) (by push_cast; omega)

end JpegBuf

section Blocks
variable {htdc htac : List BitString} {dc ac : Code Nat} {duq : Nat → Int} {end0pos : Nat}

private theorem runBits_length (htac : List BitString) (nrzeroes : Nat) (coefficient : Int) :
    (runBits htac nrzeroes coefficient).length ≤ 2 * (nrzeroes + 1) := by
  unfold runBits
  dsimp only
  split
  · rw [List.length_append, List.length_replicate, Nat.shiftRight_eq_div_pow]
    change nrzeroes / 16 + 2 ≤ _
    omega
  · change 2 ≤ _
    omega

private theorem acBits_length (htac : List BitString) (ends : EndsAt duq end0pos) (some_ : end0pos ≠ 0) {rounds i : Nat} (before : i ≤ 64) :
    (acBits htac duq end0pos rounds i).length ≤ 2 * (64 - i) := by
  induction rounds generalizing i with
  | zero => exact Nat.zero_le _
  | succ rounds ih =>
    have inside := ends.inside
    unfold acBits
    split
    · next more =>
      obtain ⟨above, below, -, -⟩ := @skipZeros_spec duq end0pos 64 i more (ends.last some_) (by omega)
      have run := runBits_length htac (skipZeros duq end0pos 64 i - i) (duq (skipZeros duq end0pos 64 i))
      have rest := @ih (skipZeros duq end0pos 64 i + 1) (by omega)
      rw [List.length_append]
      omega
    · exact Nat.zero_le _

private theorem duBits_length (htdc htac : List BitString) (ends : EndsAt duq end0pos) (predicted : Int) :
    (duBits htdc htac duq end0pos predicted).length ≤ 129 := by
  have first : (dcBits htdc (duq 0 - predicted)).length ≤ 2 := by
    unfold dcBits
    split
    · exact Nat.le_succ 1
    · exact Nat.le_refl 2
  unfold duBits
  rw [List.length_append]
  split
  · change _ + 1 ≤ 129
    omega
  · next some_ =>
    have coefficients := @acBits_length duq end0pos htac ends some_ 64 1 (by decide)
    have last : (if end0pos ≠ 63 then [row htac 0x00] else []).length ≤ 1 := by split <;> exact Nat.le_of_ble_eq_true rfl
    rw [List.length_append]
    omega

end Blocks

section Scan
variable {F : Type} {floats : Floats F} {tables : Tables F}

/-- A data unit takes at most 2064 bits. -/
theorem process_spent {size : Int} {units : List DataUnit} {scan : Scan} {bits : Nat} (spent : scan.buf.Spent size bits)
    (baseline : ∀ unit ∈ units, Baseline (coefficients floats tables unit))
    (near : ∀ component, -1024 ≤ scan.dc component ∧ scan.dc component ≤ 1023)
    (room : ((bits + 2064 * units.length + 1028 : Nat) : Int) < 4 * size) :
    (scan.process floats tables units).buf.Spent size (bits + 2064 * units.length) := by
  induction units generalizing scan bits with
  | nil => exact spent
  | cons unit units ih =>
    have first := baseline unit List.mem_cons_self
    obtain ⟨written, writes⟩ : ∃ written, written = duBits unit.1.htdc unit.1.htac (coefficients floats tables unit)
        (quantize floats (dctColumns (dctRows unit.2)) (tables.fdtbl unit.1)).2 (scan.dc unit.1) := ⟨_, rfl⟩
    have ends := quantize_ends floats (dctColumns (dctRows unit.2)) (tables.fdtbl unit.1)
    have wide : width written ≤ 2064 := by
      have fits := width_le (duBits_fits unit.1.coder ends (first.codable (near unit.1).1 (near unit.1).2))
      have few := duBits_length unit.1.htdc unit.1.htac ends (scan.dc unit.1)
      rw [writes]
      exact Nat.le_trans fits (Nat.mul_le_mul_left 16 few)
    have total : bits + 2064 * (unit :: units).length = bits + 2064 + 2064 * units.length := by
      rw [List.length_cons]
      ring
    rw [total] at room ⊢
    have open_ : scan.buf.jpegCheckHighwater = (false, scan.buf) := by
      have used := spent.bits
      have length := spent.length
      exact if_neg (by omega)
    have buf : (scan.processDU floats tables unit).buf = scan.buf.writeAll written := by
      unfold Scan.processDU jpegProcessDU
      rw [open_, writes]
      rfl
    have dc : (scan.processDU floats tables unit).dc = Function.update scan.dc unit.1 (coefficients floats tables unit 0) := by
      unfold Scan.processDU jpegProcessDU
      rw [open_]
      rfl
    have spent' : (scan.processDU floats tables unit).buf.Spent size (bits + 2064) := by
      have all := JpegBuf.writeAll_spent spent (show ((bits + width written : Nat) : Int) < 4 * size by omega)
      rw [buf]
      exact ⟨all.length, all.fixed, all.clear, Nat.le_trans all.bits (by omega)⟩
    refine ih spent' (fun other member => baseline other (List.mem_cons_of_mem _ member)) (fun component => ?_) room
    rw [dc]
    by_cases here : component = unit.1
    · rw [here, Function.update_self]
      exact ⟨first.1, first.2.1⟩
    · rw [Function.update_of_ne here]
      exact near component

end Scan

theorem dataUnits_begin (color : Bool) (more : List Mcu) : ∀ (chosen : Subsampling) (blocks : List Mcu),
    dataUnits color chosen blocks <+: dataUnits color chosen (blocks ++ more)
  | .auto, [] | .s444, [] | .s422, [] | .s422, [_] | .s420, [] | .s420, [_] | .s420, [_, _] | .s420, [_, _, _] => List.nil_prefix
  | .auto, _ :: _ => List.nil_prefix
  | .s444, mcu :: rest => by
    rw [List.cons_append, dataUnits, dataUnits]
    exact List.prefix_append_right_inj _ |>.mpr (dataUnits_begin color more .s444 rest)
  | .s422, left :: right :: rest => by
    rw [List.cons_append, List.cons_append, dataUnits, dataUnits]
    exact List.prefix_append_right_inj _ |>.mpr (dataUnits_begin color more .s422 rest)
  | .s420, first :: second :: third :: fourth :: rest => by
    rw [List.cons_append, List.cons_append, List.cons_append, List.cons_append, dataUnits, dataUnits]
    exact List.prefix_append_right_inj _ |>.mpr (dataUnits_begin color more .s420 rest)

private theorem encode_unstopped {src : ImageInfo} {chosen : Subsampling} {stop : List Mcu → Bool}
    (going : ∀ blocks, blocks <+: allBlocks src chosen → stop blocks = false) : (encode src stop chosen).2 = false := by
  unfold allBlocks encode at going
  unfold encode
  cases chosen with
  | auto => rfl
  | s444 =>
    dsimp only at going ⊢
    rw [Stride.stridesUntil_never] at going
    exact Stride.stridesUntil_unstopped going
  | s422 =>
    dsimp only at going ⊢
    rw [Stride.stridesUntil_never] at going
    exact Stride.stridesUntil_unstopped going
  | s420 =>
    dsimp only at going ⊢
    rw [Stride.stridesUntil_never] at going
    exact Stride.stridesUntil_unstopped going

private theorem headerParts_length {F : Type} {tables : Tables F} (long : tables.yTable.length = 64) (long' : tables.uvTable.length = 64)
    (w h : Nat) (color : Bool) (chosen : Subsampling) : (headerParts tables w h (if color then 2 else 1) chosen).flatten.length ≤ 607 := by
  have segments : ∀ marker body, (segment marker body).length = body.length + 4 := fun marker body => by
    rw [segment, List.length_append, List.length_append]
    change 2 + 2 + body.length = _
    omega
  have codes : ∀ color, (codesBody color).length ≤ 416 := by decide +kernel
  have quantizers : (quantizersBody tables.yTable tables.uvTable color).length ≤ 130 := by
    cases color <;> simp [quantizersBody, long, long']
  have frame : (frameBody w h color chosen).length ≤ 15 := by cases color <;> simp [frameBody, halves]
  have scan : ∀ color, (scanBody color).length ≤ 10 := by decide
  have app0 : app0Body.length = 14 := rfl
  have bound := codes color
  have bound' := scan color
  rw [headerParts_segments long long', List.length_append, List.length_append, List.length_append, List.length_append,
    List.length_append, segments, segments, segments, segments, segments]
  change 2 + _ ≤ 607
  omega

namespace Tables

variable {F : Type} {floats : Floats F} {tables : Tables F}

/-- Enough for a picture: 516 bytes for each data unit, besides 865 bytes for the header and for what the encoder keeps free. -/
def Enough (src : ImageInfo) (chosen : Subsampling) (size : Nat) : Prop :=
  865 + 516 * (Decoder.places ⟨src.h, src.w, frameComponents (src.pixfmt ≠ .grayscale) chosen⟩).length ≤ size

instance (src : ImageInfo) (chosen : Subsampling) (size : Nat) : Decidable (Enough src chosen size) :=
  inferInstanceAs (Decidable (_ ≤ _))

private theorem jpegCompress_enough {src : ImageInfo} {size : Nat} {quality : Int} {requested chosen : Subsampling} {ready : Tables F}
    (chooses : chosen = subsampling src quality requested) (readies : ready = tables.jpegInit floats quality)
    (long : ready.yTable.length = 64) (long' : ready.uvTable.length = 64)
    (baseline : ∀ unit ∈ (pictureUnits src chosen).map Prod.snd, Baseline (coefficients floats ready unit))
    (sized : src.w ≠ 0 ∧ src.h ≠ 0) (format : src.pixfmt ≠ .invalid) (small : size < 2 ^ 31) (enough : Enough src chosen size) :
    (tables.jpegCompress floats (some src) (some size) quality requested).result = 0 ∧
      (tables.jpegCompress floats (some src) (some size) quality requested).buf.buf.length + 1 ≠ size := by
  obtain ⟨stop, stops⟩ : ∃ stop : List Mcu → Bool, stop = fun blocks => (ready.coded floats src size chosen blocks).buf.overflow :=
    ⟨_, rfl⟩
  have known : chosen ≠ .auto := chooses ▸ subsampling_ne_auto src quality requested
  have gray : src.pixfmt = .grayscale → chosen = .s444 := fun gray => chooses ▸ if_pos gray
  have units : (pictureUnits src chosen).map Prod.snd = dataUnits (src.pixfmt ≠ .grayscale) chosen (allBlocks src chosen) :=
    placed_units _ _ _
  have count : (dataUnits (src.pixfmt ≠ .grayscale) chosen (allBlocks src chosen)).length =
      (Decoder.places ⟨src.h, src.w, frameComponents (src.pixfmt ≠ .grayscale) chosen⟩).length := by
    rw [← units, List.length_map, ← pictureUnits_places known gray, List.length_map]
  unfold Enough at enough
  rw [← count] at enough
  rw [units] at baseline
  have start : (JpegBuf.start size).Spent size 0 := ⟨toInt_size small, rfl, rfl, Nat.le_refl 0⟩
  have header := headerParts_length long long' src.w src.h (src.pixfmt ≠ .grayscale) chosen
  rw [← bpp_color] at header
  have headed : (ready.headed src size chosen).buf.Spent size 2428 := by
    have put := @JpegBuf.puts_spent size 0 (JpegBuf.start size) start (headerParts ready src.w src.h (bpp src) chosen)
      (by push_cast; omega)
    unfold headed JpegBuf.jpegWriteHeaders
    dsimp only
    exact ⟨put.length, put.fixed, put.clear, Nat.le_trans put.bits (by omega)⟩
  have near : ∀ component, -1024 ≤ (ready.headed src size chosen).dc component ∧ (ready.headed src size chosen).dc component ≤ 1023 :=
    fun _ => ⟨show (-1024 : Int) ≤ 0 by decide, show (0 : Int) ≤ 1023 by decide⟩
  have coded : (ready.coded floats src size chosen (allBlocks src chosen)).buf.Spent size
      (2428 + 2064 * (dataUnits (src.pixfmt ≠ .grayscale) chosen (allBlocks src chosen)).length) :=
    process_spent headed baseline near (by push_cast; omega)
  have finished : (encode src stop chosen).2 = false := by
    refine encode_unstopped fun blocks first => ?_
    obtain ⟨more, all⟩ := first
    obtain ⟨later, follows⟩ := dataUnits_begin (src.pixfmt ≠ .grayscale) more chosen blocks
    have clear := coded.clear
    rw [← all] at clear
    unfold Tables.coded at clear
    rw [← follows, Scan.process, List.foldl_append] at clear
    rw [stops]
    exact @process_clear F floats ready later _ clear
  have all : (encode src stop chosen).1 = allBlocks src chosen := congrArg Prod.fst (encode_patient (fun _ _ => rfl) finished).symm
  have done := JpegBuf.finish_spent coded (by push_cast; omega)
  have used := done.bits
  have given : ¬(some size = none ∨ some size = some 0) := fun zero => by
    have none : size = 0 := by simpa using zero
    omega
  rw [jpegCompress_some chooses readies stops, if_neg (not_or.mpr sized), if_neg given, if_neg format, finished,
    if_neg Bool.false_ne_true, all]
  refine ⟨rfl, ?_⟩
  dsimp only
  omega

theorem enough_of_calls (accurate : floats.Accurate) {calls : List Call} {call : Call} {src : ImageInfo} {size : Nat}
    (image : call.src = some src) (buffer : call.dst = some size) (sized : src.w ≠ 0 ∧ src.h ≠ 0) (format : src.pixfmt ≠ .invalid)
    (small : size < 2 ^ 31) (enough : Enough src (subsampling src call.quality call.requested) size) :
    ((after floats calls).jpegCompress floats call.src call.dst call.quality call.requested).result = 0 ∧
      ((after floats calls).jpegCompress floats call.src call.dst call.quality call.requested).buf.buf.length + 1 ≠ size := by
  obtain ⟨long, long'⟩ := tables_long floats calls call.quality
  have baseline := tables_baseline accurate calls call.quality src (subsampling src call.quality call.requested)
  rw [image, buffer]
  exact jpegCompress_enough rfl rfl long long' baseline sized format small enough

def speck : ImageInfo := ⟨1, 1, fun _ => 200, .grayscale⟩

theorem speck_enough {call : Call} (image : call.src = some speck) {size : Nat} (buffer : call.dst = some size) (large : 2048 ≤ size)
    (small : size < 2 ^ 31) :
    ((after rational []).jpegCompress rational call.src call.dst call.quality call.requested).result = 0 ∧
      ((after rational []).jpegCompress rational call.src call.dst call.quality call.requested).buf.buf.length + 1 ≠ size := by
  have single : subsampling speck call.quality call.requested = .s444 := if_pos rfl
  have units : (Decoder.places ⟨speck.h, speck.w, frameComponents (speck.pixfmt ≠ .grayscale) .s444⟩).length = 1 := by decide
  refine enough_of_calls rational_accurate image buffer (by decide) (by decide) small ?_
  rw [Enough, single, units]
  omega

/-- A file that does not end where the buffer may be full is the same in every larger buffer. -/
theorem jpegCompress_roomier {src : ImageInfo} {size size' : Nat} (large : size ≤ size') (small : size' < 2 ^ 31) {quality : Int}
    {requested : Subsampling} (zero : (tables.jpegCompress floats (some src) (some size) quality requested).result = 0)
    (room : (tables.jpegCompress floats (some src) (some size) quality requested).buf.buf.length + 1 ≠ size) :
    (tables.jpegCompress floats (some src) (some size') quality requested).result = 0 ∧
      (tables.jpegCompress floats (some src) (some size') quality requested).buf.buf =
        (tables.jpegCompress floats (some src) (some size) quality requested).buf.buf := by
  have returned := jpegCompress_returned zero
  have clear := returned.whole (by omega) room
  obtain ⟨chosen, chooses⟩ : ∃ chosen, chosen = subsampling src quality requested := ⟨_, rfl⟩
  obtain ⟨ready, readies⟩ : ∃ ready, ready = tables.jpegInit floats quality := ⟨_, rfl⟩
  obtain ⟨stop, stops⟩ : ∃ stop : List Mcu → Bool, stop = fun blocks => (ready.coded floats src size chosen blocks).buf.overflow :=
    ⟨_, rfl⟩
  obtain ⟨stop', stops'⟩ : ∃ stop : List Mcu → Bool, stop = fun blocks => (ready.coded floats src size' chosen blocks).buf.overflow :=
    ⟨_, rfl⟩
  have sized := not_or.mpr returned.sized
  have given : ¬(some size = none ∨ some size = some 0) := fun zero => returned.positive (by simpa using zero)
  have given' : ¬(some size' = none ∨ some size' = some 0) := fun zero => by
    have none : size' = 0 := by simpa using zero
    have positive := returned.positive
    omega
  have finished : (encode src stop chosen).2 = false := by
    by_contra stopped
    rw [jpegCompress_some chooses readies stops, if_neg sized, if_neg given, if_neg returned.format,
      if_pos (eq_true_of_ne_false stopped)] at zero
    cases zero
  have finished' := @encode_patient src chosen stop stop' (fun done open_ => by
    rw [stops] at open_
    rw [stops']
    exact (coded_roomier large small open_).clear') finished
  have all : (encode src stop chosen).1 = allBlocks src chosen := congrArg Prod.fst (encode_patient (fun _ _ => rfl) finished).symm
  have roomier := coded_roomier large small returned.clear
  rw [returned.buf] at clear ⊢
  have done := JpegBuf.finish_roomier roomier clear
  rw [returned.tables, ← readies, ← chooses] at done ⊢
  rw [jpegCompress_some chooses readies stops', if_neg sized, if_neg given', if_neg returned.format, finished', finished,
    if_neg Bool.false_ne_true, all]
  exact ⟨rfl, done.buf⟩

theorem jpegCompress_roomier_speck :
    ((after rational []).jpegCompress rational (some speck) (some 4096) 80 .auto).result = 0 := by
  obtain ⟨zero, room⟩ := @speck_enough ⟨some speck, some 2048, 80, .auto, by decide, by decide⟩ rfl 2048 rfl (by decide) (by decide)
  exact (@jpegCompress_roomier Rat rational (after rational []) speck 2048 4096 (by decide) (by decide) 80 .auto zero room).1

end Tables

/-- The loop of `jpeg_is_valid` from `p` on. It reads two or four bytes from there on without asking whether they are in the file. -/
def jpegIsValid (data : Nat → UInt8) (size p : Nat) : Bool :=
  if p < size then
    let header := 256 * (data p).toNat + (data (p + 1)).toNat
    if 0xFFD0 ≤ header ∧ header ≤ 0xFFD9 then jpegIsValid data size (p + 2)
    else if header = 0xFFDA then true
    else if 0xFFC0 ≤ header ∧ header ≤ 0xFFCF ∨ 0xFFDB ≤ header ∧ header ≤ 0xFFDF ∨ 0xFFE0 ≤ header ∧ header ≤ 0xFFEF ∨
        0xFFF0 ≤ header ∧ header ≤ 0xFFFE then
      if 0xFFC1 ≤ header ∧ header ≤ 0xFFC3 ∨ 0xFFC5 ≤ header ∧ header ≤ 0xFFC7 ∨ 0xFFC9 ≤ header ∧ header ≤ 0xFFCB ∨
          0xFFCD ≤ header ∧ header ≤ 0xFFCF then false
      else jpegIsValid data size (p + 2 + (256 * (data (p + 2)).toNat + (data (p + 3)).toNat))
    else false
  else false
termination_by size - p

def jpegCleanTrailingBytes (data : Nat → UInt8) : Nat → Nat
  | size + 2 => if data size ≠ 0xFF ∨ data (size + 1) ≠ 0xD9 then jpegCleanTrailingBytes data (size + 1) else size + 2
  | size => size

/-- The memory has these bytes from `p` on. -/
def Starts (data : Nat → UInt8) (p : Nat) (bytes : List UInt8) : Prop := ∀ i < bytes.length, data (p + i) = bytes.getD i 0

private theorem Starts.left {data : Nat → UInt8} {p : Nat} {first second : List UInt8} (starts : Starts data p (first ++ second)) :
    Starts data p first := by
  intro i inside
  rw [starts i (by rw [List.length_append]; omega), List.getD_append _ _ _ _ inside]

private theorem Starts.right {data : Nat → UInt8} {p : Nat} {first second : List UInt8} (starts : Starts data p (first ++ second)) :
    Starts data (p + first.length) second := by
  intro i inside
  have there := starts (first.length + i) (by rw [List.length_append]; omega)
  rw [List.getD_append_right _ _ _ _ (by omega), Nat.add_sub_cancel_left] at there
  rw [Nat.add_assoc]
  exact there

section Walk
variable {data : Nat → UInt8} {size p : Nat}

theorem Starts.segment {marker : Nat} {body : List Nat} (starts : Starts data p (bytesOf (segment marker body))) (byte : marker < 256)
    (small : body.length + 2 < 65536) :
    256 * (data p).toNat + (data (p + 1)).toNat = 0xFF00 + marker ∧
      256 * (data (p + 2)).toNat + (data (p + 3)).toNat = body.length + 2 := by
  have long : (bytesOf (Jpeg.segment marker body)).length = body.length + 4 := by
    rw [bytesOf_length, Jpeg.segment, List.length_append, List.length_append]
    change 2 + 2 + body.length = _
    omega
  have first : data p = 0xFF := starts 0 (by omega)
  have second : data (p + 1) = UInt8.ofNat marker := starts 1 (by omega)
  have third : data (p + 2) = UInt8.ofNat ((body.length + 2) >>> 8) := starts 2 (by omega)
  have fourth : data (p + 3) = UInt8.ofNat ((body.length + 2) &&& 0xFF) := starts 3 (by omega)
  rw [first, second, third, fourth, halves_toNat small, UInt8.toNat_ofNat', Nat.mod_eq_of_lt byte]
  exact ⟨rfl, rfl⟩

/-- A segment that is neither the scan nor a frame of another kind is stepped over. -/
theorem jpegIsValid_segment {marker : Nat} {body : List Nat} (starts : Starts data p (bytesOf (segment marker body)))
    (small : body.length + 2 < 65536) (inside : p < size)
    (kind : marker = 0xC0 ∨ marker = 0xC4 ∨ marker = 0xDB ∨ 0xE0 ≤ marker ∧ marker ≤ 0xEF) :
    jpegIsValid data size p = jpegIsValid data size (p + (bytesOf (segment marker body)).length) := by
  obtain ⟨header, length⟩ := starts.segment (by omega) small
  have long : (bytesOf (segment marker body)).length = body.length + 4 := by
    rw [bytesOf_length, segment, List.length_append, List.length_append]
    change 2 + 2 + body.length = _
    omega
  conv_lhs => rw [jpegIsValid]
  rw [if_pos inside]
  dsimp only
  rw [header, length, if_neg (by omega), if_neg (by omega), if_pos (by omega), if_neg (by omega), long]
  congr 1
  omega

private theorem jpegIsValid_scan {body : List Nat} (starts : Starts data p (bytesOf (segment 0xDA body))) (small : body.length + 2 < 65536)
    (inside : p < size) : jpegIsValid data size p = true := by
  obtain ⟨header, -⟩ := starts.segment (by decide) small
  rw [jpegIsValid, if_pos inside]
  dsimp only
  rw [header, if_neg (by decide), if_pos (by decide)]

/-- The header that the encoder writes. -/
theorem jpegIsValid_header {F : Type} {tables : Tables F} (long : tables.yTable.length = 64) (long' : tables.uvTable.length = 64)
    {w h : Nat} {color : Bool} {chosen : Subsampling}
    (starts : Starts data 0 (bytesOf (headerParts tables w h (if color then 2 else 1) chosen).flatten))
    (inside : (bytesOf (headerParts tables w h (if color then 2 else 1) chosen).flatten).length ≤ size) :
    jpegIsValid data size 0 = true := by
  have size' : (quantizersBody tables.yTable tables.uvTable color).length + 2 < 65536 := by
    cases color <;> simp [quantizersBody, long, long']
  have size'' : (frameBody w h color chosen).length + 2 < 65536 := by
    cases color <;> simp [frameBody, halves]
  have codes : ∀ color, (codesBody color).length + 2 < 65536 := by decide +kernel
  have scan : ∀ color, (scanBody color).length + 2 < 65536 := by decide
  rw [headerParts_segments long long', bytesOf_append, bytesOf_append, bytesOf_append, bytesOf_append, bytesOf_append] at starts inside
  generalize hQ : quantizersBody tables.yTable tables.uvTable color = quantizers at starts inside size'
  generalize hF : frameBody w h color chosen = frame at starts inside size''
  rw [List.length_append, List.length_append, List.length_append, List.length_append, List.length_append] at inside
  have soi : jpegIsValid data size 0 = jpegIsValid data size 2 := by
    have first : data 0 = 0xFF := starts 0 (by rw [List.length_append]; exact Nat.lt_add_right _ (by decide))
    have second : data 1 = 0xD8 := starts 1 (by rw [List.length_append]; exact Nat.lt_add_right _ (by decide))
    have some_ : 0 < size := Nat.lt_of_lt_of_le (Nat.lt_add_right _ (by decide)) inside
    conv_lhs => rw [jpegIsValid]
    rw [if_pos some_]
    dsimp only
    rw [first, second, if_pos (by decide)]
  have four : ∀ marker body, 4 ≤ (bytesOf (segment marker body)).length := fun marker body => by
    rw [bytesOf_length, segment, List.length_append, List.length_append]
    change 4 ≤ 2 + 2 + body.length
    omega
  have start : (bytesOf [0xFF, 0xD8]).length = 2 := rfl
  have last := four 0xDA (scanBody color)
  have app := starts.right
  have dqt := app.right
  have sof := dqt.right
  have dht := sof.right
  have sos := dht.right
  rw [start] at app dqt sof dht sos inside
  rw [soi, jpegIsValid_segment app.left (by decide) (by omega) (by decide), jpegIsValid_segment dqt.left size' (by omega) (by decide),
    jpegIsValid_segment sof.left size'' (by omega) (by decide), jpegIsValid_segment dht.left (codes color) (by omega) (by decide)]
  exact jpegIsValid_scan sos (scan color) (by omega)

end Walk

/-- The search goes back to the last end marker. -/
theorem jpegCleanTrailingBytes_last {data : Nat → UInt8} {used size : Nat} (room : used + 2 ≤ size)
    (marker : data used = 0xFF ∧ data (used + 1) = 0xD9) (behind : ∀ i, used + 2 ≤ i → i + 1 < size → ¬(data i = 0xFF ∧ data (i + 1) = 0xD9)) :
    jpegCleanTrailingBytes data size = used + 2 := by
  induction size with
  | zero => omega
  | succ size ih =>
    by_cases here : size = used + 1
    · subst here
      rw [jpegCleanTrailingBytes, if_neg fun other => other.elim (fun first => first marker.1) fun second => second marker.2]
    · obtain ⟨before, rfl⟩ : ∃ before, size = before + 1 := ⟨size - 1, by omega⟩
      have other : data before ≠ 0xFF ∨ data (before + 1) ≠ 0xD9 := by
        by_cases next : before = used + 1
        · left
          rw [next, marker.2]
          decide
        · exact Decidable.not_and_iff_or_not.mp (behind before (by omega) (by omega))
      rw [jpegCleanTrailingBytes, if_pos other]
      exact ih (by omega) fun i above below => behind i above (by omega)

namespace Tables

variable {F : Type} {floats : Floats F}

theorem Returned.marked {src : ImageInfo} {size : Nat} {quality : Int} {requested : Subsampling} {outcome : Outcome F}
    {tables : Tables F} (returned : Returned floats tables src size quality requested outcome) (clear : outcome.buf.overflow = false) :
    ∃ front, outcome.buf.buf = front ++ [0xFF, 0xD9] := by
  rw [returned.buf] at clear ⊢
  exact ⟨_, (JpegBuf.finish_marked clear).2⟩

/-- Every file is taken for one, wherever the buffer ends behind it. The end of one that is not cut is found in a buffer that has no other
end marker behind it. -/
theorem jpegIsValid_of_calls (floats : Floats F) {calls : List Call} {call : Call} {src : ImageInfo} {size : Nat}
    (image : call.src = some src) (buffer : call.dst = some size)
    (zero : ((after floats calls).jpegCompress floats call.src call.dst call.quality call.requested).result = 0)
    {data : Nat → UInt8} {total : Nat}
    (stored : Starts data 0 ((after floats calls).jpegCompress floats call.src call.dst call.quality call.requested).buf.buf)
    (inside : ((after floats calls).jpegCompress floats call.src call.dst call.quality call.requested).buf.buf.length ≤ total) :
    let file := ((after floats calls).jpegCompress floats call.src call.dst call.quality call.requested).buf.buf
    jpegIsValid data total 0 = true ∧
      (size < 2 ^ 31 → file.length + 1 ≠ size →
        (∀ i, file.length ≤ i → i + 1 < total → ¬(data i = 0xFF ∧ data (i + 1) = 0xD9)) →
        jpegCleanTrailingBytes data total = file.length) := by
  intro file
  rw [image, buffer] at zero
  obtain ⟨long, long'⟩ := tables_long floats calls call.quality
  have returned := jpegCompress_returned zero
  rw [← returned.tables] at long long'
  have same : file = ((after floats calls).jpegCompress floats (some src) (some size) call.quality call.requested).buf.buf := by
    rw [← image, ← buffer]
  change Starts data 0 file at stored
  change file.length ≤ total at inside
  generalize (after floats calls).jpegCompress floats (some src) (some size) call.quality call.requested = outcome at *
  constructor
  · obtain ⟨rest, headed⟩ := returned.headed
    rw [same, headed, bpp_color] at stored inside
    rw [List.length_append] at inside
    exact jpegIsValid_header long long' stored.left (by omega)
  · intro small room behind
    rw [same] at room
    obtain ⟨front, marked⟩ := returned.marked (returned.whole small room)
    rw [same, marked] at stored inside behind ⊢
    have marker := stored.right
    rw [Nat.zero_add] at marker
    rw [List.length_append] at inside behind ⊢
    exact jpegCleanTrailingBytes_last inside ⟨marker 0 (by decide), marker 1 (by decide)⟩ behind

theorem jpegIsValid_of_calls_speck :
    ∃ file, jpegIsValid (fun i => List.getD file i 0) file.length 0 = true ∧
      jpegCleanTrailingBytes (fun i => List.getD file i 0) file.length = file.length := by
  obtain ⟨zero, room⟩ := @speck_enough ⟨some speck, some 2048, 80, .auto, by decide, by decide⟩ rfl 2048 rfl (by decide) (by decide)
  obtain ⟨valid, clean⟩ := @jpegIsValid_of_calls Rat rational [] ⟨some speck, some 2048, 80, .auto, by decide, by decide⟩ _ _ rfl rfl zero
    (fun i => List.getD _ i 0) _ (fun i _ => by rw [Nat.zero_add]) (Nat.le_refl _)
  exact ⟨_, valid, clean (by decide) room fun i above below => absurd below (by omega)⟩

end Tables

end ArduinoK210.Jpeg
